import DeadReckoning.Lib.F64

/-! The journal's record types. Integers are unbounded here; the recorder only compares
them, subtracts them saturating at zero, or stores them. -/
namespace DeadReckoning.Wal

/-- One trapezoidal move of a trapq dump. -/
structure TrapqSegment where
  monoNs : ℕ
  queue : String
  printTime : F64
  duration : F64
  startVelocity : F64
  acceleration : F64
  startX : F64
  startY : F64
  startZ : F64
  xR : F64
  yR : F64
  zR : F64
  deriving DecidableEq

def TrapqSegment.endTime (s : TrapqSegment) : F64 := s.printTime + s.duration

def TrapqSegment.valuesAreFinite (s : TrapqSegment) : Bool :=
  [s.printTime, s.duration, s.startVelocity, s.acceleration, s.startX, s.startY, s.startZ, s.xR,
    s.yR, s.zR].all F64.isFinite

structure StepChunk where
  interval : ℤ
  count : ℤ
  add : ℤ
  deriving DecidableEq

structure StepperRange where
  monoNs : ℕ
  stepper : String
  firstClock : ℕ
  lastClock : ℕ
  firstStepTime : F64
  lastStepTime : F64
  startPosition : F64
  startMcuPosition : ℤ
  stepDistance : F64
  steps : List StepChunk
  deriving DecidableEq

def StepperRange.valuesAreFinite (r : StepperRange) : Bool :=
  [r.firstStepTime, r.lastStepTime, r.startPosition, r.stepDistance].all F64.isFinite

structure VirtualSdState where
  filePath : String
  filePosition : ℕ
  fileSize : Option ℕ
  deriving DecidableEq

/-- The journaled `gcode_move` snapshot. -/
structure GcodeState where
  speedFactor : F64
  speed : F64
  extrudeFactor : F64
  absoluteCoordinates : Bool
  absoluteExtrude : Bool
  homingOrigin : List F64
  position : List F64
  gcodePosition : List F64
  deriving DecidableEq

def GcodeState.valuesAreFinite (g : GcodeState) : Bool :=
  [g.speedFactor, g.speed, g.extrudeFactor].all F64.isFinite &&
    (g.homingOrigin ++ g.position ++ g.gcodePosition).all F64.isFinite

structure TransformObservations where
  bedMeshActive : Bool
  bedMeshProfile : Option String
  zThermalAdjustEnabled : Option Bool
  zThermalAdjustOffset : Option F64
  skewActive : Bool
  skewProfile : Option String
  deriving DecidableEq

def TransformObservations.valuesAreFinite (t : TransformObservations) : Bool :=
  t.zThermalAdjustOffset.all F64.isFinite

structure HeaterTarget where
  name : String
  target : F64
  deriving DecidableEq

structure FanTarget where
  name : String
  speed : F64
  deriving DecidableEq

def maxPolygonPoints : ℕ := 128

inductive PolygonFidelity where
  | absent
  | exact
  | boundingBox (sourcePoints : ℕ)
  | unusable (sourcePoints : ℕ)
  | unknown
  deriving DecidableEq

abbrev Point := F64 × F64

structure ExcludeObjectDef where
  name : String
  center : Option Point
  polygon : List Point
  fidelity : PolygonFidelity
  deriving DecidableEq

def Point.isFinite (p : Point) : Bool := p.1.isFinite && p.2.isFinite

/-- The axis-aligned bounding box, counter-clockwise from the minimum corner. -/
def boundingBox (points : List Point) : List Point :=
  let grow (box : Point × Point) (p : Point) : Point × Point :=
    ((F64.min box.1.1 p.1, F64.min box.1.2 p.2), (F64.max box.2.1 p.1, F64.max box.2.2 p.2))
  let (lo, hi) :=
    points.foldl grow ((.inf false, .inf false), (.inf true, .inf true))
  [(lo.1, lo.2), (hi.1, lo.2), (hi.1, hi.2), (lo.1, hi.2)]

/-- The journaled outline; a count stands for an outline that could not be read. -/
def normalizePolygon : Option (Except ℕ (List Point)) → List Point × PolygonFidelity
  | none => ([], .absent)
  | some (.error reported) => ([], .unusable (min reported (2 ^ 32 - 1)))
  | some (.ok points) =>
      let sourcePoints := min points.length (2 ^ 32 - 1)
      if points.any (fun p => !p.isFinite) || points.length < 3 then
        ([], .unusable sourcePoints)
      else if points.length > maxPolygonPoints then
        (boundingBox points, .boundingBox sourcePoints)
      else (points, .exact)

def ExcludeObjectDef.normalized (name : String) (center : Option Point)
    (polygon : Option (Except ℕ (List Point))) : ExcludeObjectDef :=
  let (points, fidelity) := normalizePolygon polygon
  { name, center := center.filter Point.isFinite, polygon := points, fidelity }

def ExcludeObjectDef.valuesAreFinite (d : ExcludeObjectDef) : Bool :=
  d.center.all Point.isFinite && d.polygon.all Point.isFinite

structure ExcludeState where
  definitions : Option (List ExcludeObjectDef)
  excluded : List String
  current : Option String
  deriving DecidableEq

def ExcludeState.valuesAreFinite (state : ExcludeState) : Bool :=
  (state.definitions.getD []).all ExcludeObjectDef.valuesAreFinite

structure Context where
  monoNs : ℕ
  virtualSdcard : Option VirtualSdState
  gcode : GcodeState
  transforms : TransformObservations
  heaters : List HeaterTarget
  fans : List FanTarget
  exclude : Option ExcludeState
  printState : Option String
  currentLayer : Option ℕ
  totalLayer : Option ℕ
  printTime : Option F64
  deriving DecidableEq

def Context.valuesAreFinite (c : Context) : Bool :=
  c.gcode.valuesAreFinite && c.transforms.valuesAreFinite && c.heaters.all (·.target.isFinite) &&
    c.fans.all (·.speed.isFinite) && c.exclude.all ExcludeState.valuesAreFinite &&
    c.printTime.all F64.isFinite

inductive MarkerKind where
  | cleanShutdown
  | socketLost
  | resubscribed
  | subscriptionGap (startMonoNs endMonoNs : ℕ)
  | exclusionUpdateLost
  | recorderStopped
  | recordingQuiescent
  | powerFailing
  | unknown
  deriving DecidableEq

structure Marker where
  monoNs : ℕ
  kind : MarkerKind
  deriving DecidableEq

/-- A double by its bits. -/
abbrev F64Bits := UInt64

/-- The exponent of a double that is not finite is all ones. -/
def F64Bits.isFinite (bits : F64Bits) : Bool := bits.toNat / 2 ^ 52 % 2 ^ 11 ≠ 2 ^ 11 - 1

/-- A sample of liveness and of the clocks. -/
structure Heartbeat where
  sequence : UInt64
  monoNs : UInt64
  wallNs : UInt64
  printTime : F64Bits
  estSampleMonoNs : UInt64
  estSamplePrintTime : F64Bits
  walOffset : UInt64
  deriving DecidableEq

def Heartbeat.valuesAreFinite (h : Heartbeat) : Bool :=
  h.printTime.isFinite && h.estSamplePrintTime.isFinite

/-- The records of the log. -/
inductive WalRecord where
  | trapqSegment (segment : TrapqSegment)
  | stepperRange (range : StepperRange)
  | context (context : Context)
  | marker (marker : Marker)
  | heartbeat (heartbeat : Heartbeat)
  deriving DecidableEq

inductive RecordKind where
  | trapqSegment
  | stepperRange
  | context
  | marker
  | heartbeat
  deriving DecidableEq

def RecordKind.asU8 : RecordKind → UInt8
  | trapqSegment => 1
  | stepperRange => 2
  | context => 3
  | marker => 4
  | heartbeat => 5

def RecordKind.fromU8 (value : UInt8) : Option RecordKind :=
  if value = 1 then some trapqSegment
  else if value = 2 then some stepperRange
  else if value = 3 then some context
  else if value = 4 then some marker
  else if value = 5 then some heartbeat
  else none

@[simp] theorem RecordKind.fromU8_asU8 (kind : RecordKind) : fromU8 kind.asU8 = some kind := by
  cases kind <;> rfl

namespace WalRecord

def kind : WalRecord → RecordKind
  | trapqSegment _ => .trapqSegment
  | stepperRange _ => .stepperRange
  | context _ => .context
  | marker _ => .marker
  | heartbeat _ => .heartbeat

/-- The host-monotonic time at which the record was captured. -/
def monoNs : WalRecord → ℕ
  | trapqSegment r => r.monoNs
  | stepperRange r => r.monoNs
  | context r => r.monoNs
  | marker r => r.monoNs
  | heartbeat r => r.monoNs.toNat

def valuesAreFinite : WalRecord → Bool
  | trapqSegment r => r.valuesAreFinite
  | stepperRange r => r.valuesAreFinite
  | context r => r.valuesAreFinite
  | marker _ => true
  | heartbeat r => r.valuesAreFinite

end WalRecord

/-- When an appended record becomes durable. -/
inductive SyncPolicy where
  | batched
  | immediate
  deriving DecidableEq

end DeadReckoning.Wal
