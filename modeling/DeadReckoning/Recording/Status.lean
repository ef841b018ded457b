import DeadReckoning.Wal.Record

/-! Klipper's status updates as the recorder decodes them, and the three accumulators of
the client library: the clock correlator, the sequence widener and the exclude-object
snapshot. -/
namespace DeadReckoning.Recording

open Wal (Point)

/-- One object of a status update: not in it, in it with an undecodable payload, or read. -/
inductive Decoded (α : Type) where
  | absent
  | malformed
  | present (value : α)
  deriving DecidableEq

/-- `Ok(Some(..))` of the typed accessor. -/
def Decoded.read? {α : Type} : Decoded α → Option α
  | present value => some value
  | _ => none

structure ToolheadStatus where
  printTime : Option F64 := none
  estimatedPrintTime : Option F64 := none

structure GcodeMoveStatus where
  speedFactor : Option F64 := none
  speed : Option F64 := none
  extrudeFactor : Option F64 := none
  absoluteCoordinates : Option Bool := none
  absoluteExtrude : Option Bool := none
  homingOrigin : Option (List F64) := none
  position : Option (List F64) := none
  gcodePosition : Option (List F64) := none

/-- The outer option of `filePath` is presence in the diff, the inner one JSON `null`. -/
structure VirtualSdcardStatus where
  filePath : Option (Option String) := none
  isActive : Option Bool := none
  filePosition : Option ℕ := none
  fileSize : Option ℕ := none

structure PrintStatsInfo where
  currentLayer : Option ℕ := none
  totalLayer : Option ℕ := none

structure PrintStatsStatus where
  state : Option String := none
  info : Option PrintStatsInfo := none

structure McuLastStats where
  receiveSeq : Option ℕ := none

structure McuStatus where
  lastStats : Option McuLastStats := none

structure BedMeshStatus where
  profileName : Option String := none
  meshMatrix : Option (List (List F64)) := none

def BedMeshStatus.meshActive (b : BedMeshStatus) : Option Bool :=
  b.meshMatrix.map fun rows => rows.any fun row => !row.isEmpty

structure ZThermalAdjustStatus where
  currentZAdjust : Option F64 := none
  enabled : Option Bool := none

structure SkewCorrectionStatus where
  currentProfileName : Option String := none

structure HeaterStatus where
  target : Option F64 := none

structure FanStatus where
  speed : Option F64 := none

structure ExcludeObjectDefinition where
  name : String
  center : Option (List F64) := none
  polygon : Option (List (List F64)) := none
  deriving DecidableEq

/-- The first two components of a point, when both are there and finite. -/
def finiteXy : List F64 → Option Point
  | x :: y :: _ => if x.isFinite && y.isFinite then some (x, y) else none
  | _ => none

def ExcludeObjectDefinition.centerXy (d : ExcludeObjectDefinition) : Option Point :=
  d.center.bind finiteXy

/-- One unreadable point discards the whole outline and leaves its length. -/
def ExcludeObjectDefinition.polygonXy (d : ExcludeObjectDefinition) :
    Option (Except ℕ (List Point)) :=
  d.polygon.map fun polygon =>
    match polygon.mapM finiteXy with
    | some points => .ok points
    | none => .error polygon.length

structure ExcludeObjectStatus where
  objects : Option (List ExcludeObjectDefinition) := none
  excludedObjects : Option (List String) := none
  currentObject : Option (Option String) := none

structure StatusUpdate where
  eventtime : F64
  toolhead : Decoded ToolheadStatus := .absent
  gcodeMove : Decoded GcodeMoveStatus := .absent
  virtualSdcard : Decoded VirtualSdcardStatus := .absent
  printStats : Decoded PrintStatsStatus := .absent
  mcu : Decoded McuStatus := .absent
  bedMesh : Decoded BedMeshStatus := .absent
  excludeObject : Decoded ExcludeObjectStatus := .absent
  zThermalAdjust : Decoded ZThermalAdjustStatus := .absent
  skewCorrection : Decoded SkewCorrectionStatus := .absent
  heater : String → Decoded HeaterStatus := fun _ => .absent
  fan : String → Decoded FanStatus := fun _ => .absent

structure TrapqMove where
  time : F64
  duration : F64
  startVelocity : F64
  acceleration : F64
  startPosition : F64 × F64 × F64
  direction : F64 × F64 × F64

structure TrapqBatch where
  data : List TrapqMove

structure StepperStep where
  interval : ℤ
  count : ℤ
  add : ℤ

structure StepperBatch where
  data : List StepperStep
  startPosition : F64
  startMcuPosition : ℤ
  stepDistance : F64
  firstClock : ℕ
  firstStepTime : F64
  lastClock : ℕ
  lastStepTime : F64

/-! ### Clock correlation -/

structure ClockCorrelator where
  /-- Newest accepted (`eventtime`, `estimated_print_time`) pair. -/
  sample : Option (F64 × F64) := none
  deriving DecidableEq

inductive SampleOutcome where
  | accepted
  | rejectedNonFinite
  | rejectedStaleEventtime
  deriving DecidableEq

def ClockCorrelator.addSample (c : ClockCorrelator) (eventtime estimatedPrintTime : F64) :
    ClockCorrelator × SampleOutcome :=
  if !eventtime.isFinite || !estimatedPrintTime.isFinite then (c, .rejectedNonFinite)
  else if c.sample.any fun last => F64.lt eventtime last.1 then (c, .rejectedStaleEventtime)
  else ({ sample := some (eventtime, estimatedPrintTime) }, .accepted)

/-! ### Sequence widening -/

structure WidenerState where
  lastRaw : UInt32
  widened : ℕ
  deriving DecidableEq

structure ReceiveSeqWidener where
  state : Option WidenerState := none
  deriving DecidableEq

inductive SeqKind where
  | first
  | advanced (delta : UInt32)
  | unchanged
  | regressed (apparentBackstep : UInt32)
  deriving DecidableEq

structure SeqUpdate where
  widened : ℕ
  kind : SeqKind
  deriving DecidableEq

/-- A raw reading keeps its low 32 bits; the widened value saturates at 64 bits. -/
def ReceiveSeqWidener.observe (w : ReceiveSeqWidener) (raw : ℕ) :
    ReceiveSeqWidener × SeqUpdate :=
  let raw := UInt32.ofNat raw
  match w.state with
  | none =>
      ({ state := some { lastRaw := raw, widened := raw.toNat } },
        { widened := raw.toNat, kind := .first })
  | some s =>
      let delta := raw - s.lastRaw
      let (widened, kind) :=
        if delta = 0 then (s.widened, SeqKind.unchanged)
        else if delta.toNat < 2 ^ 31 then
          (min (s.widened + delta.toNat) (2 ^ 64 - 1), SeqKind.advanced delta)
        else (s.widened, SeqKind.regressed (-delta))
      ({ state := some { lastRaw := raw, widened } }, { widened, kind })

/-! ### Exclude objects -/

structure ExcludeObjectSnapshot where
  objects : List ExcludeObjectDefinition := []
  excludedObjects : List String := []
  currentObject : Option String := none
  deriving DecidableEq

structure ExcludeObjectChange where
  definitions : Bool
  excluded : Bool
  current : Bool

/-- A field missing from the diff is left untouched and unchanged. -/
def ExcludeObjectSnapshot.merge (s : ExcludeObjectSnapshot) (status : ExcludeObjectStatus) :
    ExcludeObjectSnapshot × ExcludeObjectChange :=
  ({ objects := status.objects.getD s.objects
     excludedObjects := status.excludedObjects.getD s.excludedObjects
     currentObject := status.currentObject.getD s.currentObject },
   { definitions := status.objects.any fun objects => objects ≠ s.objects
     excluded := status.excludedObjects.any fun excluded => excluded ≠ s.excludedObjects
     current := status.currentObject.any fun current => current ≠ s.currentObject })

end DeadReckoning.Recording
