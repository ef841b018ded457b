import DeadReckoning.Gcode.Lines
import DeadReckoning.Reconstruct.Epoch
import DeadReckoning.Reconstruct.Span
import DeadReckoning.Wal.Frame
import DeadReckoning.Wal.Heartbeat
import Mathlib.Data.List.Sort

/-! The records of one epoch, grouped and ordered for the stages that read them. -/
namespace DeadReckoning.Reconstruct

open Gcode (saturatingAdd)
open Wal (Context Heartbeat HeartbeatRecovery Marker MarkerKind ScanEnd StepperRange TrapqSegment
  WalRecord)

section Values

/-- The value of a double, from its sign, exponent and mantissa. -/
def bitsValue (bits : Wal.F64Bits) : F64 :=
  let n : ℕ := bits.toNat
  let negative := decide (n / 2 ^ 63 % 2 = 1)
  let exponent : ℕ := n / 2 ^ 52 % 2 ^ 11
  let mantissa : ℕ := n % 2 ^ 52
  if exponent = 2 ^ 11 - 1 then if mantissa = 0 then .inf negative else .nan
  else
    let magnitude : ℚ :=
      if exponent = 0 then mantissa / 2 ^ 1074
      else (mantissa + 2 ^ 52) * 2 ^ exponent / 2 ^ 1075
    .fin (if negative then -magnitude else magnitude)

variable {K : Type} [Field K] [LinearOrder K]

/-- A finite number of a record. -/
def exact (x : F64) : K := (x.toRat : K)

/-- The segment of a record with finite numbers. -/
def Segment.ofRecord (s : TrapqSegment) : Segment K where
  monoNs := s.monoNs
  queue := s.queue
  printTime := exact s.printTime
  duration := exact s.duration
  startVelocity := exact s.startVelocity
  acceleration := exact s.acceleration
  startX := exact s.startX
  startY := exact s.startY
  startZ := exact s.startZ
  xR := exact s.xR
  yR := exact s.yR
  zR := exact s.zR

/-- Nanoseconds in seconds. -/
def nsToS (ns : ℕ) : K := (ns : K) / ((10 ^ 9 : ℕ) : K)

end Values

section Timeline

/-- What is unusual about the records. -/
inductive IngestNote where
  | reorderedTrapq (queue : String)
  | regressedStepperClock (stepper : String)
  | nonFiniteRecordSkipped (walOffset : ℕ)
  | subscriptionGap (startMonoNs endMonoNs : ℕ)
  | socketLoss (monoNs : ℕ)
  | staleCleanShutdownMarker
  | exclusionUpdateLost (monoNs : ℕ)
  | recorderStopped (monoNs : ℕ)
  | recordingQuiescent (monoNs : ℕ)
  | powerFailing (monoNs : ℕ)
  | unknownMarker (monoNs : ℕ)
  | unexpectedScanEnd
  | tornHeartbeatSlot
  | multipleExtruderQueues
  deriving DecidableEq

structure WalTimeline (K : Type) where
  toolheadSegments : List (Segment K)
  extruderSegments : List (Segment K)
  otherSegments : List (Segment K)
  stepperRanges : List StepperRange
  contexts : List Context
  markers : List Marker
  heartbeat : Option Heartbeat
  heartbeats : List Heartbeat
  cleanShutdown : Bool
  socketLostTail : Option ℕ
  recorderStoppedTail : Option ℕ
  lastMotionMonoNs : Option ℕ
  scanEnd : ScanEnd
  notes : List IngestNote

/-- The hold-up margin behind the edge of a power failure. -/
def powerFailHoldUpMarginNs : ℕ := 10 ^ 9

namespace WalTimeline

variable {K : Type}

def newestLivenessMonoNs (t : WalTimeline K) : Option ℕ :=
  ([t.lastMotionMonoNs, (t.heartbeats.map (·.monoNs.toNat)).max?,
    (t.contexts.map (·.monoNs)).max?].filterMap id).max?

/-- No sign of life is newer than the hold-up after the edge. -/
def edgeStands (t : WalTimeline K) (edge : ℕ) : Bool :=
  t.newestLivenessMonoNs.all fun s => s ≤ saturatingAdd edge powerFailHoldUpMarginNs

/-- The newest edge of a power failure that nothing outlived. -/
def powerFailingTail (t : WalTimeline K) : Option ℕ :=
  (((t.markers.filter fun m => m.kind = .powerFailing).map (·.monoNs)).filter t.edgeStands).max?

variable [Field K] [LinearOrder K]

/-- Where the planned motion that was known at a time ends. -/
def trapqEndTimeJournaledBy (t : WalTimeline K) (monoNs : ℕ) : Option K :=
  (((t.toolheadSegments ++ t.extruderSegments).filter fun s => s.monoNs ≤ monoNs).map
    Segment.endTime).max?

def trapqEndTime (t : WalTimeline K) : Option K := t.trapqEndTimeJournaledBy (2 ^ 64 - 1)

end WalTimeline

end Timeline

section Ingest

variable {K : Type} [Field K] [LinearOrder K]

/-- The loop over the records. -/
structure Ingest (K : Type) where
  notes : List IngestNote
  toolhead : List (Segment K)
  extruder : List (Segment K)
  other : List (Segment K)
  stepperRanges : List StepperRange
  contexts : List Context
  markers : List Marker
  walHeartbeats : List Heartbeat
  lastMotionIdx : Option ℕ
  lastMotionMono : Option ℕ
  cleanMarkerIdx : Option ℕ
  socketLost : Option (ℕ × ℕ)
  resubscribedIdx : Option ℕ
  recorderStopped : Option (ℕ × ℕ)

namespace Ingest

def empty : Ingest K := ⟨[], [], [], [], [], [], [], [], none, none, none, none, none, none⟩

def note (s : Ingest K) (n : IngestNote) : Ingest K := { s with notes := s.notes ++ [n] }

/-- A record of motion. -/
def moved (s : Ingest K) (idx monoNs : ℕ) : Ingest K :=
  { s with
    lastMotionIdx := some idx
    lastMotionMono := some (max (s.lastMotionMono.getD 0) monoNs) }

def segment (s : Ingest K) (seg : TrapqSegment) : Ingest K :=
  if seg.queue = "toolhead" then { s with toolhead := s.toolhead ++ [.ofRecord seg] }
  else if (lit "extruder").isPrefixOf seg.queue.toList then
    { s with extruder := s.extruder ++ [.ofRecord seg] }
  else { s with other := s.other ++ [.ofRecord seg] }

/-- What a marker says. -/
def marker (s : Ingest K) (idx : ℕ) (m : Marker) : Ingest K :=
  match m.kind with
  | .cleanShutdown => { s with cleanMarkerIdx := some idx }
  | .socketLost => { s with socketLost := some (idx, m.monoNs) }.note (.socketLoss m.monoNs)
  | .resubscribed => { s with resubscribedIdx := some idx }
  | .subscriptionGap start stop => s.note (.subscriptionGap start stop)
  | .exclusionUpdateLost => s.note (.exclusionUpdateLost m.monoNs)
  | .recorderStopped =>
      { s with recorderStopped := some (idx, m.monoNs) }.note (.recorderStopped m.monoNs)
  | .recordingQuiescent => s.note (.recordingQuiescent m.monoNs)
  | .powerFailing => s.note (.powerFailing m.monoNs)
  | .unknown => s.note (.unknownMarker m.monoNs)

def record (s : Ingest K) (idx : ℕ) (scanned : ScannedRecord) : Ingest K :=
  if !scanned.2.valuesAreFinite then s.note (.nonFiniteRecordSkipped scanned.1)
  else
    match scanned.2 with
    | .trapqSegment seg => (s.moved idx seg.monoNs).segment seg
    | .stepperRange range =>
        let s := s.moved idx range.monoNs
        { s with stepperRanges := s.stepperRanges ++ [range] }
    | .context ctx => { s with contexts := s.contexts ++ [ctx] }
    | .heartbeat hb => { s with walHeartbeats := s.walHeartbeats ++ [hb] }
    | .marker m =>
        let s := s.marker idx m
        { s with markers := s.markers ++ [m] }

/-- The records from an index on. -/
def records : ℕ → Ingest K → List ScannedRecord → Ingest K
  | _, s, [] => s
  | idx, s, scanned :: rest => records (idx + 1) (s.record idx scanned) rest

end Ingest

/-- Orders the segments of a queue by their times where they are not in order. -/
def ensureSorted (queue : String) (segments : List (Segment K)) :
    List (Segment K) × List IngestNote :=
  if segments.IsChain fun a b => a.printTime ≤ b.printTime then (segments, [])
  else (segments.insertionSort fun a b => a.printTime ≤ b.printTime, [.reorderedTrapq queue])

/-- Notes that more than one extruder moved. -/
def noteExtruderQueueMix (extruder : List (Segment K)) : List IngestNote :=
  if extruder.any fun seg => extruder.head?.any fun first => decide (seg.queue ≠ first.queue)
  then [.multipleExtruderQueues] else []

/-- The steppers whose clocks went backwards, each of them once; `before` are the ranges that were
read, the newest first. -/
def regressedSteppers : List StepperRange → List String → List StepperRange → List String
  | _, flagged, [] => flagged
  | before, flagged, range :: rest =>
      let regressed := (before.find? fun prev => prev.stepper = range.stepper).any fun prev =>
        range.lastClock < prev.lastClock
      let flagged :=
        if regressed && !flagged.contains range.stepper then flagged ++ [range.stepper] else flagged
      regressedSteppers (range :: before) flagged rest

/-- The first of the heartbeats with one stamp; they are in order. -/
def dedupMono : List Heartbeat → List Heartbeat
  | [] => []
  | [hb] => [hb]
  | hb :: next :: rest =>
      if hb.monoNs = next.monoNs then
        match dedupMono (next :: rest) with
        | [] => [hb]
        | _ :: rest => hb :: rest
      else hb :: dedupMono (next :: rest)

/-- The finite heartbeats of the file and of the log, in order. -/
def allHeartbeats (heartbeat : Option HeartbeatRecovery) (walHeartbeats : List Heartbeat) :
    List Heartbeat :=
  dedupMono ((((heartbeat.map (·.heartbeat)).toList ++ walHeartbeats).filter
    (·.valuesAreFinite)).insertionSort fun a b => a.monoNs ≤ b.monoNs)

/-- A marker at the end counts when nothing moved behind it. -/
def behindMotion (lastMotionIdx : Option ℕ) (idx : ℕ) : Bool := lastMotionIdx.all fun m => m < idx

/-- Groups the records of an epoch and of the heartbeat file. -/
def ingest (records : List ScannedRecord) (scanEnd : ScanEnd)
    (heartbeat : Option HeartbeatRecovery) : WalTimeline K :=
  let s := Ingest.records 0 (Ingest.empty : Ingest K) records
  let (toolhead, toolheadNotes) := ensureSorted "toolhead" s.toolhead
  let (extruder, extruderNotes) := ensureSorted "extruder" s.extruder
  let (other, otherNotes) := ensureSorted "other" s.other
  let regressions := (regressedSteppers [] [] s.stepperRanges).map .regressedStepperClock
  let cleanShutdown := s.cleanMarkerIdx.any (behindMotion s.lastMotionIdx)
  let stale := if s.cleanMarkerIdx.isSome && !cleanShutdown then [.staleCleanShutdownMarker] else []
  let unexpected := if !scanEnd.isExpectedAfterPowerLoss then [.unexpectedScanEnd] else []
  let torn := if heartbeat.any (·.torn.isSome) then [.tornHeartbeatSlot] else []
  let heartbeats := allHeartbeats heartbeat s.walHeartbeats
  { toolheadSegments := toolhead
    extruderSegments := extruder
    otherSegments := other
    stepperRanges := s.stepperRanges
    contexts := s.contexts
    markers := s.markers
    heartbeat := heartbeats.getLast?
    heartbeats := heartbeats
    cleanShutdown := cleanShutdown
    socketLostTail := ((s.socketLost.filter fun lost => behindMotion s.lastMotionIdx lost.1).filter
      fun lost => s.resubscribedIdx.all fun r => r < lost.1).map (·.2)
    recorderStoppedTail :=
      (s.recorderStopped.filter fun stopped => behindMotion s.lastMotionIdx stopped.1).map (·.2)
    lastMotionMonoNs := s.lastMotionMono
    scanEnd := scanEnd
    notes := s.notes ++ toolheadNotes ++ extruderNotes ++ otherNotes ++
      noteExtruderQueueMix extruder ++ regressions ++ stale ++ unexpected ++ torn }

end Ingest

end DeadReckoning.Reconstruct
