import DeadReckoning.Reconstruct.Exclude

/-! The whole reconstruction: one epoch of the log, the files beside it that belong to this epoch,
then the window, the stop set and the objects. -/
namespace DeadReckoning.Reconstruct

open Gcode (Arithmetic CaseMapping)
open Wal (HeartbeatRecovery Marker RecoveryScan ScanEnd)

section Pipeline

structure ReconstructInputs where
  scan : RecoveryScan
  heartbeat : Option HeartbeatRecovery
  receiveSeq : Option ReceiveSeqObservation
  fileTail : Option FileTail
  powerFailEdgeMonoNs : Option ℕ

/-- The end of the scan belongs to the newest epoch; an older one gets a neutral end. -/
def CrashEpochSelection.narrowScan (s : CrashEpochSelection) (scan : RecoveryScan) :
    RecoveryScan :=
  { scan with
    records := s.narrow scan.records
    stop := if s.selected.isNone || s.isNewest then scan.stop else .cleanEof }

def CrashEpochSelection.partitioned (s : CrashEpochSelection) : Bool := decide (1 < s.epochs.length)

namespace ReconstructInputs

def selection (i : ReconstructInputs) : CrashEpochSelection := selectCrashEpoch i.scan.records

/-- The files that the newest process rewrites, where they belong to the epoch. -/
def admittedHeartbeat (i : ReconstructInputs) : Option HeartbeatRecovery :=
  i.heartbeat.filter fun hb =>
    epochAdmits i.selection.crashEpoch i.selection.isNewest hb.heartbeat.monoNs.toNat

def admittedReceiveSeq (i : ReconstructInputs) : Option ReceiveSeqObservation :=
  i.receiveSeq.filter fun obs => epochAdmits i.selection.crashEpoch i.selection.isNewest obs.monoNs

def admittedEdge (i : ReconstructInputs) : Option ℕ :=
  i.powerFailEdgeMonoNs.filter (sidecarAdmits i.selection.crashEpoch)

end ReconstructInputs

variable {K : Type}

/-- An edge joins the markers of the log, unless the log ends on purpose. -/
def WalTimeline.withEdge (t : WalTimeline K) (edge : Option ℕ) : WalTimeline K :=
  match edge with
  | some mono =>
      if t.cleanShutdown then t else { t with markers := t.markers ++ [⟨mono, .powerFailing⟩] }
  | none => t

structure RecoveryReconstruction (K : Type) where
  timeline : WalTimeline K
  window : StopWindow K
  stopSet : PossibleStopSet K
  exclusions : ExclusionReport K
  powerFailEdgeMonoNs : Option ℕ

inductive Reconstruction (K : Type) where
  | cleanShutdown (timeline : WalTimeline K)
  | recovery (recovery : RecoveryReconstruction K)

variable [Field K] [LinearOrder K]

def reconstruct (arith : Arithmetic K) (cases : CaseMapping) (json : JsonNumbers)
    (inputs : ReconstructInputs) (config : ReconstructConfig K) :
    Except ReconstructError (Reconstruction K) := do
  config.validate
  let scan := inputs.selection.narrowScan inputs.scan
  let edge := inputs.admittedEdge
  let timeline : WalTimeline K :=
    (ingest scan.records scan.stop inputs.admittedHeartbeat).withEdge edge
  if timeline.cleanShutdown then pure (.cleanShutdown timeline)
  else do
    let window ← computeStopWindow timeline inputs.admittedReceiveSeq config
    let stopSet ← computeStopSet arith cases timeline window inputs.fileTail config
    let stopSet := { stopSet with
      degradation := { stopSet.degradation with
        crossEpochEvidenceDiscarded := inputs.selection.partitioned } }
    let exclusions := resolveExclusions arith cases json timeline
      ⟨some window, some stopSet.walEvalEnd, inputs.fileTail⟩ config
    pure (.recovery ⟨timeline, window, stopSet, exclusions, edge⟩)

end Pipeline

end DeadReckoning.Reconstruct
