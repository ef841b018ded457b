import DeadReckoning.Boot.StateFiles
import DeadReckoning.Lib.Runs
import DeadReckoning.Reconstruct.Epoch

/-! The edge of a power failure over restarts: the sidecar that holds it is deleted once a start
has put the edge into the pending file, and every later offer rewrites that file. -/
namespace DeadReckoning.Boot

open Wal Reconstruct

section Start

structure ReceiveSeqObservation where
  monoNs : ℕ
  widenedSeq : ℕ
  deriving DecidableEq

/-- The log directory: the records of each segment, oldest segment first, and the files beside
them. -/
structure Disk where
  segments : List (List ScannedRecord)
  heartbeat : Option Heartbeat
  receiveSeq : Option ReceiveSeqObservation
  sidecar : Option ℕ
  pending : StatePresence PendingRecovery
  frameInvalid : Bool

def detectSegmentLimit : ℕ := 3

/-- The records of the newest segments. -/
def loadMergedTail (d : Disk) (maxSegments : ℕ) : Option (List ScannedRecord) :=
  if d.segments.isEmpty then none
  else some (d.segments.drop (d.segments.length - maxSegments)).flatten

def loadMerged (d : Disk) : List ScannedRecord := d.segments.flatten

/-- The print file and position of the newest context in the crash epoch that names one. -/
def lastPrintFile (merged : List ScannedRecord) : Option (String × ℕ) :=
  (((selectCrashEpoch merged).narrow merged).reverse).findSome? fun r => match r.2 with
    | .context c => c.virtualSdcard.map fun v => (v.filePath, v.filePosition)
    | _ => none

/-- What the analysis of an unclean log makes of the print, once a file is named. -/
inductive Fate where
  | endedOnPurpose
  | recorderStopped
  | complete
  | announce
  deriving DecidableEq

/-- What the reconstruction makes of the log. -/
inductive Verdict where
  | cleanShutdown
  | unanalyzable
  | unclean (fate : Fate)
  deriving DecidableEq

inductive Detection where
  | pending (recovery : PendingRecovery)
  | complete
  | clean
  | nothing (preservePending : Bool)
  deriving DecidableEq

/-- The edge that the reconstruction of the log admits. -/
def admittedEdge (merged : List ScannedRecord) (edge : Option ℕ) : Option ℕ :=
  edge.filter (sidecarAdmits (selectCrashEpoch merged).crashEpoch)

/-- Detection reads the edge from the sidecar alone. -/
def detect (d : Disk) (verdict : Verdict) : Detection :=
  match loadMergedTail d detectSegmentLimit with
  | none => .nothing true
  | some merged => match verdict with
    | .cleanShutdown => .clean
    | .unanalyzable => .nothing true
    | .unclean fate => match lastPrintFile merged with
      | none => .nothing true
      | some (file, filePosition) => match fate with
        | .endedOnPurpose => .nothing false
        | .recorderStopped => .nothing true
        | .complete => .complete
        | .announce =>
            .pending ⟨file, filePosition, d.frameInvalid, admittedEdge merged d.sidecar⟩

/-- The disk after detection, and whether the sidecar is to be kept. -/
def bootDetection (d : Disk) (verdict : Verdict) (written : Bool) : Disk × Bool :=
  match detect d verdict with
  | .pending recovery =>
      if written then ({ d with pending := .present recovery }, false) else (d, true)
  | .complete | .clean => ({ d with pending := .absent }, false)
  | .nothing preservePending =>
      (if preservePending then d else { d with pending := .absent }, preservePending)

def disposePowerFailSidecar (d : Disk) (preserve : Bool) : Disk :=
  if preserve then d else { d with sidecar := none }

/-- One start of the daemon, up to the first write to the log. -/
def start (d : Disk) (verdict : Verdict) (written : Bool) : Disk :=
  let (d, preserve) := bootDetection d verdict written
  disposePowerFailSidecar d preserve

/-- The edge as every reconstruction resolves it: the sidecar, else the pending file. -/
def powerFailEdge (d : Disk) : Option ℕ :=
  d.sidecar.orElse fun _ => match d.pending with
    | .present recovery => recovery.powerFailEdgeMonoNs
    | _ => none

/-- All that the stop window and the possible stops are computed from. -/
structure Evidence where
  records : List ScannedRecord
  heartbeat : Option Heartbeat
  receiveSeq : Option ReceiveSeqObservation
  powerFailEdge : Option ℕ
  deriving DecidableEq

/-- What a recovery lets into the reconstruction of the crash epoch. -/
def recoveryEvidence (d : Disk) : Evidence :=
  let merged := loadMerged d
  let selection := selectCrashEpoch merged
  let admits := epochAdmits selection.crashEpoch selection.isNewest
  ⟨selection.narrow merged, d.heartbeat.filter fun h => admits h.monoNs.toNat,
    d.receiveSeq.filter fun o => admits o.monoNs, admittedEdge merged (powerFailEdge d)⟩

end Start

section Restarts

/-- What happens after the crash was first seen: further starts, and an idle printer between them,
with a segment for each start and the two files that every process rewrites. -/
inductive RestartEvent where
  | start (verdict : Verdict)
  | idle (segments : List (List ScannedRecord)) (heartbeat : Option Heartbeat)
      (receiveSeq : Option ReceiveSeqObservation)

def restart (d : Disk) : RestartEvent → Disk
  | .start verdict => start d verdict true
  | .idle segments heartbeat receiveSeq =>
      { d with segments := d.segments ++ segments, heartbeat, receiveSeq }

/-- The crash as its first start sees it: an offer that admits the edge of the sidecar, which
the printing epoch of the whole log admits as well. -/
structure Crash (d : Disk) (edge : ℕ) : Prop where
  offered : ∃ recovery, detect d (.unclean .announce) = .pending recovery ∧
    recovery.powerFailEdgeMonoNs = some edge
  admitted : ∃ e, newestPrinting (partition (loadMerged d)) = some e ∧
    sidecarAdmits (some e) edge = true

def firstStart (d : Disk) : Disk := start d (.unclean .announce) true

/-- Later detections offer or cannot tell, and the printer stays idle. -/
def Admissible (d : Disk) : RestartEvent → Prop
  | .start verdict =>
      detect d verdict = .nothing true ∨ ∃ recovery, detect d verdict = .pending recovery
  | .idle segments _ _ => ∀ r ∈ segments.flatten, isPrintingContext r.2 = false

/-- No later detection offers anew, and what is recorded stays out of the crash epoch. -/
def Spared (d : Disk) : RestartEvent → Prop
  | .start verdict => detect d verdict = .nothing true
  | .idle segments _ _ => KeepsApart (loadMerged d) segments.flatten

/-- The edge is resolved and admitted, and a recovery that is handed the same heartbeat and
receive sequence computes from the same evidence as after the first start. -/
structure EdgeSurvives (first d : Disk) (edge : ℕ) : Prop where
  resolved : powerFailEdge d = some edge
  admitted : (recoveryEvidence d).powerFailEdge = some edge
  evidence : (recoveryEvidence d).heartbeat = (recoveryEvidence first).heartbeat →
    (recoveryEvidence d).receiveSeq = (recoveryEvidence first).receiveSeq →
      recoveryEvidence d = recoveryEvidence first

/-- What the restarts keep: the edge in the pending file, and the crash epoch in the log. -/
structure Kept (first d : Disk) (edge : ℕ) (e : EpochSpan) : Prop where
  consumed : d.sidecar = none
  pending : ∃ recovery, d.pending = .present recovery ∧ recovery.powerFailEdgeMonoNs = some edge
  epoch : newestPrinting (partition (loadMerged d)) = some e
  records : (selectCrashEpoch (loadMerged d)).narrow (loadMerged d) =
    (selectCrashEpoch (loadMerged first)).narrow (loadMerged first)

theorem Kept.resolved {first d : Disk} {edge : ℕ} {e : EpochSpan} (h : Kept first d edge e) :
    powerFailEdge d = some edge := by
  obtain ⟨recovery, hpending, hedge⟩ := h.pending
  simp [powerFailEdge, h.consumed, hpending, hedge]

theorem Kept.admitted {first d : Disk} {edge : ℕ} {e : EpochSpan} (h : Kept first d edge e)
    (he : sidecarAdmits (some e) edge = true) :
    (recoveryEvidence d).powerFailEdge = some edge := by
  simp only [recoveryEvidence, admittedEdge, h.resolved, crashEpoch_of_printing h.epoch]
  simp [he]

/-- The first start moves the edge from the sidecar into the pending file. -/
theorem Crash.kept {d : Disk} {edge : ℕ} (h : Crash d edge) :
    ∃ e, sidecarAdmits (some e) edge = true ∧ Kept (firstStart d) (firstStart d) edge e := by
  obtain ⟨recovery, hdetect, hedge⟩ := h.offered
  obtain ⟨e, he, hadmits⟩ := h.admitted
  have hfirst : firstStart d = { d with pending := .present recovery, sidecar := none } := by
    simp [firstStart, start, bootDetection, hdetect, disposePowerFailSidecar]
  refine ⟨e, hadmits, ?_⟩
  rw [hfirst]
  exact ⟨rfl, ⟨recovery, rfl, hedge⟩, he, rfl⟩

theorem Kept.restart {first d : Disk} {edge : ℕ} {e : EpochSpan} (h : Kept first d edge e)
    {event : RestartEvent} (hspared : Spared d event) : Kept first (restart d event) edge e := by
  cases event with
  | start verdict =>
    have hsame : Boot.restart d (.start verdict) = d := by
      have hdetect : detect d verdict = .nothing true := hspared
      simp [Boot.restart, start, bootDetection, hdetect, disposePowerFailSidecar]
    rw [hsame]
    exact h
  | idle segments heartbeat receiveSeq =>
    have hlog : loadMerged (Boot.restart d (.idle segments heartbeat receiveSeq)) =
        loadMerged d ++ segments.flatten := by
      simp [Boot.restart, loadMerged]
    obtain ⟨hepoch, hnarrow⟩ := narrow_append h.epoch hspared
    refine ⟨h.consumed, h.pending, ?_, ?_⟩
    · rw [hlog]
      exact hepoch
    · rw [hlog, hnarrow]
      exact h.records

def exampleContext : Context where
  monoNs := 100000000000
  virtualSdcard := some ⟨"/gcodes/cube.gcode", 2048, some 4096⟩
  gcode := ⟨1, 25, 1, true, false, [0, 0, 0, 0], [100, 100, 5, 0], [100, 100, 5, 0]⟩
  transforms := ⟨false, none, none, none, false, none⟩
  heaters := []
  fans := []
  exclude := none
  printState := some "printing"
  currentLayer := none
  totalLayer := none
  printTime := some 120

/-- A print that a power failure ended half a second after its last record. -/
def exampleDisk : Disk :=
  ⟨[[(32, .context exampleContext)]], none, none, some 100500000000, .absent, false⟩

/-- The next boot records that it subscribed, its clock far below. -/
def exampleIdle : RestartEvent := .idle [[(32, .marker ⟨9000000000, .resubscribed⟩)]] none none

theorem exampleDisk_crash : Crash exampleDisk 100500000000 := by
  refine ⟨⟨⟨"/gcodes/cube.gcode", 2048, false, some 100500000000⟩, by decide +kernel, rfl⟩, ?_⟩
  refine ⟨⟨0, 1, none, true, true, false, 100000000000, 100000000000⟩, ?_, ?_⟩ <;> decide +kernel

end Restarts

end DeadReckoning.Boot
