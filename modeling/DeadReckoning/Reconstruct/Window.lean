import DeadReckoning.Gcode.Simulate
import DeadReckoning.Reconstruct.Anchor
import DeadReckoning.Reconstruct.Timeline

/-! The window of print time in which the machine stopped, and the kind of the crash. -/
namespace DeadReckoning.Reconstruct

open Gcode (SimConfig)
open Wal (MarkerKind ScanEnd StepperRange)

section Config

structure ReconstructConfig (K : Type) where
  mcuFreq : Option K
  zStepperPrefix : String
  stepGenLead : K
  quietTailNs : ℕ
  maxProcessingLead : K
  extensionHorizon : K
  sim : SimConfig K
  exclusionFreshnessHorizon : K
  heartbeatPeriodNs : ℕ
  heartbeatGapTolerance : K
  zMergeTolerance : K
  durabilityLagNs : ℕ

inductive ReconstructError where
  | noHeartbeat
  | noContext
  | malformedContext (defect : ContextDefect)
  | fileTailMismatch (baseOffset tailEnd filePosition : ℕ)
  | invalidConfig (reason : String)
  deriving DecidableEq

variable {K : Type} [Field K] [LinearOrder K]

/-- Every number is in its domain. -/
def ReconstructConfig.validate (c : ReconstructConfig K) : Except ReconstructError Unit := do
  Checks.ensure (c.mcuFreq.all fun freq => decide (0 < freq))
    (.invalidConfig "mcu_freq must be finite and > 0")
  Checks.ensure (c.zStepperPrefix ≠ "") (.invalidConfig "z_stepper_prefix must be non-empty")
  Checks.ensure (0 ≤ c.stepGenLead) (.invalidConfig "step_gen_lead must be finite and >= 0")
  Checks.ensure (0 ≤ c.maxProcessingLead)
    (.invalidConfig "max_processing_lead must be finite and >= 0")
  Checks.ensure (0 < c.extensionHorizon)
    (.invalidConfig "extension_horizon must be finite and > 0")
  Checks.ensure (0 ≤ c.zMergeTolerance)
    (.invalidConfig "z_merge_tolerance must be finite and >= 0")
  Checks.ensure (0 ≤ c.exclusionFreshnessHorizon)
    (.invalidConfig "exclusion_freshness_horizon must be finite and >= 0")
  Checks.ensure (c.heartbeatPeriodNs ≠ 0) (.invalidConfig "heartbeat_period_ns must be > 0")
  Checks.ensure (1 ≤ c.heartbeatGapTolerance)
    (.invalidConfig "heartbeat_gap_tolerance must be finite and >= 1")
  Checks.ensure (0 < c.sim.maxVelocity) (.invalidConfig "sim.max_velocity must be finite and > 0")
  Checks.ensure (0 < c.sim.maxAccel) (.invalidConfig "sim.max_accel must be finite and > 0")
  Checks.ensure (0 ≤ c.sim.squareCornerVelocity)
    (.invalidConfig "sim.square_corner_velocity must be finite and >= 0")

end Config

section Window

/-- The newest pair of a host time and the print time estimated there. -/
structure ClockCorrelator (K : Type) where
  sample : Option (K × K)

namespace ClockCorrelator

variable {K : Type} [Field K] [LinearOrder K]

def new : ClockCorrelator K := ⟨none⟩

/-- Takes a pair that is not older than the last. -/
def addSample (c : ClockCorrelator K) (eventtime estimatedPrintTime : K) : ClockCorrelator K :=
  if c.sample.any fun last => decide (eventtime < last.1) then c
  else ⟨some (eventtime, estimatedPrintTime)⟩

def printTimeToEventtime (c : ClockCorrelator K) (printTime : K) : Option K :=
  c.sample.map fun sample => sample.1 + (printTime - sample.2)

def eventtimeToPrintTime (c : ClockCorrelator K) (eventtime : K) : Option K :=
  c.sample.map fun sample => sample.2 + (eventtime - sample.1)

end ClockCorrelator

/-- An observation of the counter of received blocks. -/
structure ReceiveSeqObservation where
  monoNs : ℕ
  widenedSeq : ℕ

inductive TbSource where
  | zStepper
  | anyStepper
  | receiveSeq
  | heartbeatOnly
  deriving DecidableEq

inductive ShutdownEvidence where
  | socketLostMarker (monoNs : ℕ)
  | quietTail (quietNs : ℕ)
  deriving DecidableEq

inductive CrashClass where
  | cleanShutdown
  | shutdownPowerRetained (evidence : ShutdownEvidence)
  | hostDeathOrPowerLoss (tornTail : Bool)
  deriving DecidableEq

inductive WindowAnomaly (K : Type) where
  | tbBeforeTa (rawTb : K)
  | emptyStepperHistory
  | noZStepperHistory
  | noMcuFrequency
  | clockStepTimeMismatch (stepper : String) (clockDerived reported : K)
  | heartbeatAheadOfEstimate (printTime estimatedNow : K)
  | noReceiveSeqBound
  | corruptScanEnd

structure StopWindow (K : Type) where
  tA : K
  tB : K
  tBSource : TbSource
  crash : CrashClass
  correlation : ClockCorrelator K
  anomalies : List (WindowAnomaly K)

variable {K : Type} [Field K] [LinearOrder K]

def StopWindow.monoNsToPrintTime (w : StopWindow K) (monoNs : ℕ) : Option K :=
  w.correlation.eventtimeToPrintTime (nsToS monoNs)

def StopWindow.printTimeToMonoS (w : StopWindow K) (printTime : K) : Option K :=
  w.correlation.printTimeToEventtime printTime

/-- The tolerated difference of two readings of a step's time. -/
def mismatchTolerance : K := 5 / 1000

/-- The committed time of a range, and what is odd about it. The reported time is finite, the ranges
of a timeline are. -/
def committedTime (mcuFreq : Option K) (range : StepperRange) : K × List (WindowAnomaly K) :=
  let reported : K := exact range.lastStepTime
  match mcuFreq with
  | none => (reported, [])
  | some freq =>
      let derived := (range.lastClock : K) / freq
      if mismatchTolerance < |derived - reported| then
        (max derived reported, [.clockStepTimeMismatch range.stepper derived reported])
      else (derived, [])

/-- The newest committed time of some ranges. -/
def committedEnd (mcuFreq : Option K) (ranges : List StepperRange) :
    Option K × List (WindowAnomaly K) :=
  ((ranges.map fun range => (committedTime mcuFreq range).1).max?,
    ranges.flatMap fun range => (committedTime mcuFreq range).2)

def tornTail (stop : ScanEnd) : Bool := stop = .truncatedFrameHeader || stop = .truncatedPayload

def classify (timeline : WalTimeline K) (heartbeatMonoNs : ℕ) (config : ReconstructConfig K) :
    CrashClass :=
  if timeline.cleanShutdown then .cleanShutdown
  else if timeline.powerFailingTail.isSome then .hostDeathOrPowerLoss (tornTail timeline.scanEnd)
  else
    match timeline.socketLostTail with
    | some monoNs => .shutdownPowerRetained (.socketLostMarker monoNs)
    | none =>
        match timeline.lastMotionMonoNs with
        | some lastMotion =>
            if config.quietTailNs < heartbeatMonoNs - lastMotion then
              .shutdownPowerRetained (.quietTail (heartbeatMonoNs - lastMotion))
            else .hostDeathOrPowerLoss (tornTail timeline.scanEnd)
        | none => .hostDeathOrPowerLoss (tornTail timeline.scanEnd)

/-- Where the committed motion ends: by the steps of the vertical axis, by those of any axis. -/
def committedBound (timeline : WalTimeline K) (config : ReconstructConfig K)
    (mcuFreq : Option K) : Option K × TbSource × List (WindowAnomaly K) :=
  let (zCommitted, zAnomalies) := committedEnd mcuFreq (timeline.stepperRanges.filter fun range =>
    config.zStepperPrefix.toList.isPrefixOf range.stepper.toList)
  match zCommitted with
  | some z => (some z, .zStepper, zAnomalies)
  | none =>
      let (any, anyAnomalies) := committedEnd mcuFreq timeline.stepperRanges
      (any, .anyStepper, zAnomalies ++ anyAnomalies ++
        if any.isSome then [.noZStepperHistory] else [.emptyStepperHistory])

/-- The bound from the counter of received blocks can only widen. -/
def widest (committed seqBound : Option K) (source : TbSource) (tA : K) : K × TbSource :=
  match committed, seqBound with
  | some c, some b => if c < b then (b, .receiveSeq) else (c, source)
  | some c, none => (c, source)
  | none, some b => (b, .receiveSeq)
  | none, none => (tA, .heartbeatOnly)

def computeStopWindow (timeline : WalTimeline K) (receiveSeq : Option ReceiveSeqObservation)
    (config : ReconstructConfig K) : Except ReconstructError (StopWindow K) := do
  let heartbeat ← Checks.required .noHeartbeat timeline.heartbeat
  let correlation := ClockCorrelator.new.addSample (nsToS heartbeat.estSampleMonoNs.toNat)
    (exact (bitsValue heartbeat.estSamplePrintTime))
  let printTime : K := exact (bitsValue heartbeat.printTime)
  let (tA, ahead) : K × List (WindowAnomaly K) :=
    match correlation.eventtimeToPrintTime (nsToS heartbeat.monoNs.toNat) with
    | some estimate =>
        if estimate < printTime then (estimate, [.heartbeatAheadOfEstimate printTime estimate])
        else (printTime, [])
    | none => (printTime, [])
  let mcuFreq := config.mcuFreq.filter fun freq => 0 < freq
  let (committed, committedSource, committedAnomalies) := committedBound timeline config mcuFreq
  let seqBound := (receiveSeq.bind fun obs =>
    correlation.eventtimeToPrintTime (nsToS obs.monoNs)).map fun pt => pt + config.stepGenLead
  let (rawTb, tBSource) := widest committed seqBound committedSource tA
  let (tB, clamped) : K × List (WindowAnomaly K) :=
    if rawTb < tA then (tA, [.tbBeforeTa rawTb]) else (rawTb, [])
  pure
    { tA := tA
      tB := tB
      tBSource := tBSource
      crash := classify timeline heartbeat.monoNs.toNat config
      correlation := correlation
      anomalies := ahead ++ (if mcuFreq.isNone then [.noMcuFrequency] else []) ++
        committedAnomalies ++ (if receiveSeq.isNone then [.noReceiveSeqBound] else []) ++ clamped ++
        if !timeline.scanEnd.isExpectedAfterPowerLoss then [.corruptScanEnd] else [] }

/-- Motion went unobserved. -/
def isObservationGap : MarkerKind → Bool
  | .socketLost | .subscriptionGap _ _ => true
  | _ => false

end Window

end DeadReckoning.Reconstruct
