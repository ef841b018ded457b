import DeadReckoning.Gcode.Arc
import DeadReckoning.Gcode.Parse
import DeadReckoning.Lib.Checks

/-! The coordinate state of the g-code interpreter: what one line does to it. A handler returns its
result and the state it leaves behind, also when the result is an error. -/
namespace DeadReckoning.Gcode

open Checks (ensure)

structure ByteSpan where
  start : ℕ
  stop : ℕ
  deriving DecidableEq

structure Line where
  span : ByteSpan
  body : LineBody

inductive StateError (K : Type) where
  | invalidParam (command key value : Text)
  | nonFiniteParam (command key : Text)
  | invalidSpeed (value : K)
  | paramNotAbove (command key : Text) (min : K)
  | inchesUnsupported
  | malformedExtended (command : Text)
  | unknownSavedState (name : Text)
  | arc (error : ArcError K)

structure ArcSegmentInfo where
  index : ℕ
  count : ℕ
  deriving DecidableEq

structure PlannedMove (K : Type) where
  start : Axes K
  stop : Axes K
  speed : K
  accelOverride : Option K
  span : ByteSpan
  arcSegment : Option ArcSegmentInfo
  startKnown : Axes Bool
  stopKnown : Axes Bool

inductive Disposition where
  | blank
  | move
  | arc (segments : ℕ)
  | state
  | homing (axes : Point Bool)
  | passThrough
  deriving DecidableEq

structure ApplyOutcome (K : Type) where
  moves : List (PlannedMove K)
  disposition : Disposition

/-- An outcome without motion. -/
def ApplyOutcome.empty {K : Type} (disposition : Disposition) : ApplyOutcome K := ⟨[], disposition⟩

structure SavedGcodeState (K : Type) where
  absoluteCoord : Bool
  absoluteExtrude : Bool
  basePosition : Axes K
  lastPosition : Axes K
  homingPosition : Axes K
  speed : K
  speedFactor : K
  extrudeFactor : K
  baseKnown : Axes Bool
  positionKnown : Axes Bool

structure GcodeState (K : Type) where
  absoluteCoord : Bool
  absoluteExtrude : Bool
  basePosition : Axes K
  lastPosition : Axes K
  homingPosition : Axes K
  speed : K
  speedFactor : K
  extrudeFactor : K
  positionKnown : Axes Bool
  baseKnown : Axes Bool
  arcPlane : ArcPlane
  arcResolution : K
  accelOverride : Option K
  savedStates : Text → Option (SavedGcodeState K)

/-- A result and the state that is left behind. -/
abbrev Applied (K α : Type) := Except (StateError K) α × GcodeState K

/-- Goes on with the value, or returns the error with the state as it stands. -/
def Applied.andThen {K α β : Type} (x : Applied K α) (next : α → GcodeState K → Applied K β) :
    Applied K β :=
  match x with
  | (.error e, s) => (.error e, s)
  | (.ok a, s) => next a s

section Parameters

variable {K : Type}

def ensureWellformedExtended (cmd : Command) : Except (StateError K) Unit :=
  match cmd.params with
  | .extended _ none => .error (.malformedExtended cmd.name)
  | _ => .ok ()

def getFloat (arith : Arithmetic K) (cmd : Command) (key : Text) :
    Except (StateError K) (Option K) :=
  match cmd.get key with
  | none => .ok none
  | some raw =>
      match arith.read (Text.trim raw) with
      | .invalid => .error (.invalidParam cmd.name key raw)
      | .nonFinite => .error (.nonFiniteParam cmd.name key)
      | .finite v => .ok (some v)

def getFloatAbove [LE K] [DecidableLE K] (arith : Arithmetic K) (cmd : Command) (key : Text)
    (min : K) : Except (StateError K) (Option K) := do
  match ← getFloat arith cmd key with
  | none => pure none
  | some v => if v ≤ min then throw (.paramNotAbove cmd.name key min) else pure (some v)

def getInt (cmd : Command) (key : Text) : Except (StateError K) (Option ℤ) :=
  match cmd.get key with
  | none => .ok none
  | some raw =>
      match parseI64 (Text.trim raw) with
      | none => .error (.invalidParam cmd.name key raw)
      | some v => .ok (some v)

end Parameters

namespace GcodeState

variable {K : Type} [Add K] [Sub K] [Mul K] [Div K] [Neg K] [Zero K] [One K] [NatCast K]
  [LT K] [LE K] [DecidableEq K] [DecidableLT K] [DecidableLE K]

/-- The power-on state. -/
def new : GcodeState K where
  absoluteCoord := true
  absoluteExtrude := true
  basePosition := .uniform 0
  lastPosition := .uniform 0
  homingPosition := .uniform 0
  speed := ((25 : ℕ) : K)
  speedFactor := 1 / ((60 : ℕ) : K)
  extrudeFactor := 1
  positionKnown := .uniform true
  baseKnown := .uniform true
  arcPlane := .xy
  arcResolution := 1
  accelOverride := none
  savedStates := fun _ => none

def gcodePosition (s : GcodeState K) : Axes K where
  x := s.lastPosition.x - s.basePosition.x
  y := s.lastPosition.y - s.basePosition.y
  z := s.lastPosition.z - s.basePosition.z
  e := (s.lastPosition.e - s.basePosition.e) / s.extrudeFactor

def gcodeSpeed (s : GcodeState K) : K := s.speed / s.speedFactor

/-- One axis word: an absolute value counts from the base, a relative one from the position. -/
def applyAxis (s : GcodeState K) (axis : Axis) (value : K) (absolute : Bool) : GcodeState K :=
  if absolute then
    { s with
      lastPosition := s.lastPosition.set axis (value + s.basePosition.get axis)
      positionKnown := s.positionKnown.set axis (s.baseKnown.get axis) }
  else
    { s with lastPosition := s.lastPosition.set axis (s.lastPosition.get axis + value) }

/-- The travel below which a move only extrudes. -/
def minKinematicMove : K := 1 / ((1000000000 : ℕ) : K)

/-- The distance that the kinematics plan over. -/
def kinematicDistance (arith : Arithmetic K) (start stop : Axes K) : K :=
  let dx := stop.x - start.x
  let dy := stop.y - start.y
  let dz := stop.z - start.z
  let xyz := arith.sqrt (dx * dx + dy * dy + dz * dz)
  if xyz < minKinematicMove then magnitude (stop.e - start.e) else xyz

/-- The move to the current position, dropped when it has no distance. -/
def emitMove (arith : Arithmetic K) (s : GcodeState K) (start : Axes K) (startKnown : Axes Bool)
    (speed : K) (span : ByteSpan) (arcSegment : Option ArcSegmentInfo) : Option (PlannedMove K) :=
  if kinematicDistance arith start s.lastPosition = 0 then none
  else
    some
      { start := start
        stop := s.lastPosition
        speed := speed
        accelOverride := s.accelOverride
        span := span
        arcSegment := arcSegment
        startKnown := startKnown
        stopKnown := s.positionKnown }

/-- The axis word, when there is one. -/
def applyWord (s : GcodeState K) (axis : Axis) (value : Option K) (absolute : Bool) :
    GcodeState K :=
  match value with
  | none => s
  | some v => s.applyAxis axis v absolute

/-- The position after the words of a linear move. The filament is absolute only when both modes
are, and its word is scaled. -/
def moveWords (s : GcodeState K) (values : Axes (Option K)) : GcodeState K :=
  let s := s.applyWord .x values.x s.absoluteCoord
  let s := s.applyWord .y values.y s.absoluteCoord
  let s := s.applyWord .z values.z s.absoluteCoord
  s.applyWord .e (values.e.map (· * s.extrudeFactor)) (s.absoluteCoord && s.absoluteExtrude)

/-- The state after a linear move. -/
def moveTo (s : GcodeState K) (values : Axes (Option K)) (feed : Option K) : GcodeState K :=
  let s := s.moveWords values
  match feed with
  | none => s
  | some f => { s with speed := f * s.speedFactor }

def applyG1Values (arith : Arithmetic K) (s : GcodeState K) (values : Axes (Option K))
    (feed : Option K) (span : ByteSpan) (arcSegment : Option ArcSegmentInfo) :
    Option (PlannedMove K) × GcodeState K :=
  let after := s.moveTo values feed
  (after.emitMove arith s.lastPosition s.positionKnown after.speed span arcSegment, after)

/-- The feed of a move, which has to be positive. -/
def readFeed (arith : Arithmetic K) (cmd : Command) : Except (StateError K) (Option K) := do
  match ← getFloat arith cmd (lit "F") with
  | none => pure none
  | some v => if v ≤ 0 then throw (.invalidSpeed v) else pure (some v)

/-- The words of a linear move in the order in which they are read. -/
def g1Words (arith : Arithmetic K) (cmd : Command) :
    Except (StateError K) (Axes (Option K) × Option K) := do
  let x ← getFloat arith cmd (lit "X")
  let y ← getFloat arith cmd (lit "Y")
  let z ← getFloat arith cmd (lit "Z")
  let e ← getFloat arith cmd (lit "E")
  let f ← readFeed arith cmd
  pure (⟨x, y, z, e⟩, f)

def cmdG1 (arith : Arithmetic K) (s : GcodeState K) (cmd : Command) (span : ByteSpan) :
    Applied K (ApplyOutcome K) :=
  Applied.andThen (g1Words arith cmd, s) fun words s =>
    let (move, s) := s.applyG1Values arith words.1 words.2 span none
    (.ok ⟨move.toList, .move⟩, s)

/-- The parameter, the default when it is absent. -/
def getFloatOr (arith : Arithmetic K) (cmd : Command) (key : Text) (default : K) :
    Except (StateError K) K := do
  pure ((← getFloat arith cmd key).getD default)

/-- The offset of the center in the plane. -/
def arcOffset (arith : Arithmetic K) (plane : ArcPlane) (cmd : Command) :
    Except (StateError K) (K × K) := do
  let i ← getFloatOr arith cmd (lit "I") 0
  let j ← getFloatOr arith cmd (lit "J") 0
  match plane with
  | .xy => pure (i, j)
  | .xz => pure (i, ← getFloatOr arith cmd (lit "K") 0)
  | .yz => pure (j, ← getFloatOr arith cmd (lit "K") 0)

/-- Reads an arc. -/
def arcRequest (arith : Arithmetic K) (s : GcodeState K) (cmd : Command) (clockwise : Bool) :
    Except (StateError K) (ArcRequest K) := do
  ensure s.absoluteCoord (.arc .relativeMode)
  let current := s.gcodePosition
  let x ← getFloatOr arith cmd (lit "X") current.x
  let y ← getFloatOr arith cmd (lit "Y") current.y
  let z ← getFloatOr arith cmd (lit "Z") current.z
  let radius ← getFloat arith cmd (lit "R")
  ensure radius.isNone (.arc .radiusForm)
  let offset ← arcOffset arith s.arcPlane cmd
  ensure (!(decide (offset.1 = 0) && decide (offset.2 = 0))) (.arc .missingOffsets)
  let e ← getFloat arith cmd (lit "E")
  let f ← readFeed arith cmd
  pure
    { current := current
      target := ⟨x, y, z⟩
      offset := offset
      plane := s.arcPlane
      clockwise := clockwise
      absoluteExtrude := s.absoluteExtrude
      eParam := e
      fParam := f
      resolution := s.arcResolution }

/-- Reads an arc and decomposes it into chords. -/
def arcSegments (arith : Arithmetic K) (s : GcodeState K) (cmd : Command) (clockwise : Bool) :
    Except (StateError K) (List (ArcSegment K)) := do
  let request ← s.arcRequest arith cmd clockwise
  (planArc arith request).mapError .arc

/-- Moves along the chords, `index` counting them from one. -/
def applyChords (arith : Arithmetic K) (span : ByteSpan) (count : ℕ) :
    ℕ → List (ArcSegment K) → GcodeState K → List (PlannedMove K) × GcodeState K
  | _, [], s => ([], s)
  | index, segment :: segments, s =>
      let (move, s) := s.applyG1Values arith
        ⟨some segment.target.x, some segment.target.y, some segment.target.z, segment.e⟩ segment.f
        span (some ⟨index, count⟩)
      let (moves, s) := applyChords arith span count (index + 1) segments s
      (move.toList ++ moves, s)

def cmdArc (arith : Arithmetic K) (s : GcodeState K) (cmd : Command) (span : ByteSpan)
    (clockwise : Bool) : Applied K (ApplyOutcome K) :=
  Applied.andThen (s.arcSegments arith cmd clockwise, s) fun segments s =>
    let (moves, s) := applyChords arith span segments.length 1 segments s
    (.ok ⟨moves, .arc segments.length⟩, s)

/-- An axis is homed: its base becomes the homing origin, its position is unknown. -/
def homeAxis (s : GcodeState K) (axis : Axis) : GcodeState K :=
  { s with
    basePosition := s.basePosition.set axis (s.homingPosition.get axis)
    baseKnown := s.baseKnown.set axis true
    positionKnown := s.positionKnown.set axis false }

/-- The axes that a homing command names, all three when it names none. -/
def homedAxes (cmd : Command) : Point Bool :=
  let axes : Point Bool :=
    ⟨(cmd.get (lit "X")).isSome, (cmd.get (lit "Y")).isSome, (cmd.get (lit "Z")).isSome⟩
  if axes = ⟨false, false, false⟩ then ⟨true, true, true⟩ else axes

def cmdG28 (s : GcodeState K) (cmd : Command) : GcodeState K :=
  let axes := homedAxes cmd
  let s := if axes.x then s.homeAxis .x else s
  let s := if axes.y then s.homeAxis .y else s
  if axes.z then s.homeAxis .z else s

/-- The words of `G92` in the order in which they are read. -/
def g92Words (arith : Arithmetic K) (cmd : Command) : Except (StateError K) (Axes (Option K)) := do
  let x ← getFloat arith cmd (lit "X")
  let y ← getFloat arith cmd (lit "Y")
  let z ← getFloat arith cmd (lit "Z")
  let e ← getFloat arith cmd (lit "E")
  pure ⟨x, y, z, e⟩

/-- The base that makes the position of the axis read as the word. -/
def rebase (s : GcodeState K) (axis : Axis) (value : Option K) : GcodeState K :=
  match value with
  | none => s
  | some v =>
      { s with
        basePosition := s.basePosition.set axis (s.lastPosition.get axis - v)
        baseKnown := s.baseKnown.set axis (s.positionKnown.get axis) }

def rebaseAll (s : GcodeState K) (words : Axes (Option K)) : GcodeState K :=
  if words = .uniform none then
    { s with basePosition := s.lastPosition, baseKnown := s.positionKnown }
  else
    let s := s.rebase .x words.x
    let s := s.rebase .y words.y
    let s := s.rebase .z words.z
    s.rebase .e (words.e.map (· * s.extrudeFactor))

def cmdG92 (arith : Arithmetic K) (s : GcodeState K) (cmd : Command) :
    Applied K (ApplyOutcome K) :=
  Applied.andThen (g92Words arith cmd, s) fun words s => (.ok (.empty .state), s.rebaseAll words)

/-- The acceleration that `M204` asks for, `none` when it asks for none. -/
def m204Accel (arith : Arithmetic K) (cmd : Command) : Except (StateError K) (Option K) := do
  match ← getFloatAbove arith cmd (lit "S") 0 with
  | some accel => pure (some accel)
  | none =>
      let p ← getFloatAbove arith cmd (lit "P") 0
      let t ← getFloatAbove arith cmd (lit "T") 0
      match p, t with
      | some p, some t => pure (some (smaller p t))
      | _, _ => pure none

def cmdM204 (arith : Arithmetic K) (s : GcodeState K) (cmd : Command) :
    Applied K (ApplyOutcome K) :=
  Applied.andThen (m204Accel arith cmd, s) fun accel s =>
    (.ok (.empty .state), { s with accelOverride := accel <|> s.accelOverride })

/-- The percentage in the `S` word of `M220` and `M221`. -/
def percentage (arith : Arithmetic K) (cmd : Command) : Except (StateError K) K := do
  pure ((← getFloatAbove arith cmd (lit "S") 0).getD ((100 : ℕ) : K))

def scaleSpeed (s : GcodeState K) (percent : K) : GcodeState K :=
  let value := percent / (((60 : ℕ) : K) * ((100 : ℕ) : K))
  { s with speed := s.gcodeSpeed * value, speedFactor := value }

def cmdM220 (arith : Arithmetic K) (s : GcodeState K) (cmd : Command) :
    Applied K (ApplyOutcome K) :=
  Applied.andThen (percentage arith cmd, s) fun percent s =>
    (.ok (.empty .state), s.scaleSpeed percent)

def scaleExtrusion (s : GcodeState K) (percent : K) : GcodeState K :=
  let factor := percent / ((100 : ℕ) : K)
  let value := (s.lastPosition.e - s.basePosition.e) / s.extrudeFactor
  { s with
    basePosition := { s.basePosition with e := s.lastPosition.e - value * factor }
    extrudeFactor := factor
    baseKnown := { s.baseKnown with e := s.baseKnown.e && s.positionKnown.e } }

def cmdM221 (arith : Arithmetic K) (s : GcodeState K) (cmd : Command) :
    Applied K (ApplyOutcome K) :=
  Applied.andThen (percentage arith cmd, s) fun percent s =>
    (.ok (.empty .state), s.scaleExtrusion percent)

/-- The letter of an axis. -/
def axisKey : Axis → Text
  | .x => lit "X"
  | .y => lit "Y"
  | .z => lit "Z"
  | .e => lit "E"

/-- The offset that the command asks for on an axis, absolute or as an adjustment. -/
def requestedOffset (arith : Arithmetic K) (cmd : Command) (axis : Axis) (homing : K) :
    Except (StateError K) (Option K) := do
  match ← getFloat arith cmd (axisKey axis) with
  | some offset => pure (some offset)
  | none =>
      match ← getFloat arith cmd (axisKey axis ++ lit "_ADJUST") with
      | some adjust => pure (some (adjust + homing))
      | none => pure none

/-- The origin of an axis moves, and its base with it. -/
def shiftOrigin (s : GcodeState K) (axis : Axis) (offset : K) : GcodeState K :=
  { s with
    basePosition :=
      s.basePosition.set axis (s.basePosition.get axis + (offset - s.homingPosition.get axis))
    homingPosition := s.homingPosition.set axis offset }

/-- Each axis is shifted as soon as its word is read; returns the shifts. -/
def shiftOrigins (arith : Arithmetic K) (cmd : Command) :
    List Axis → Axes K → GcodeState K → Applied K (Axes K)
  | [], delta, s => (.ok delta, s)
  | axis :: axes, delta, s =>
      Applied.andThen (requestedOffset arith cmd axis (s.homingPosition.get axis), s)
        fun requested s =>
          match requested with
          | none => shiftOrigins arith cmd axes delta s
          | some offset =>
              shiftOrigins arith cmd axes (delta.set axis (offset - s.homingPosition.get axis))
                (s.shiftOrigin axis offset)

/-- The speed of the move that the command asks for, `none` without one. -/
def requestedMove (arith : Arithmetic K) (cmd : Command) (speed : K) :
    Except (StateError K) (Option K) := do
  if (← getInt cmd (lit "MOVE")).getD 0 ≠ 0 then
    pure (some ((← getFloatAbove arith cmd (lit "MOVE_SPEED") 0).getD speed))
  else pure none

def moveBy (arith : Arithmetic K) (s : GcodeState K) (delta : Axes K) (speed : K)
    (span : ByteSpan) : Option (PlannedMove K) × GcodeState K :=
  let after :=
    { s with
      lastPosition :=
        { x := s.lastPosition.x + delta.x
          y := s.lastPosition.y + delta.y
          z := s.lastPosition.z + delta.z
          e := s.lastPosition.e + delta.e } }
  (after.emitMove arith s.lastPosition s.positionKnown speed span none, after)

/-- The axes in the order of the parameters. -/
def offsetAxes : List Axis := [.x, .y, .z, .e]

def cmdSetGcodeOffset (arith : Arithmetic K) (s : GcodeState K) (cmd : Command) (span : ByteSpan) :
    Applied K (ApplyOutcome K) :=
  Applied.andThen (ensureWellformedExtended cmd, s) fun _ s =>
    Applied.andThen (shiftOrigins arith cmd offsetAxes (.uniform 0) s) fun delta s =>
      Applied.andThen (requestedMove arith cmd s.speed, s) fun speed s =>
        match speed with
        | none => (.ok (.empty .state), s)
        | some speed =>
            let (move, s) := s.moveBy arith delta speed span
            (.ok ⟨move.toList, .state⟩, s)

/-- The name under which a state is saved. -/
def stateName (cmd : Command) : Text := (cmd.get (lit "NAME")).getD (lit "default")

def snapshot (s : GcodeState K) : SavedGcodeState K where
  absoluteCoord := s.absoluteCoord
  absoluteExtrude := s.absoluteExtrude
  basePosition := s.basePosition
  lastPosition := s.lastPosition
  homingPosition := s.homingPosition
  speed := s.speed
  speedFactor := s.speedFactor
  extrudeFactor := s.extrudeFactor
  baseKnown := s.baseKnown
  positionKnown := s.positionKnown

def save (s : GcodeState K) (name : Text) : GcodeState K :=
  { s with savedStates := Function.update s.savedStates name (some s.snapshot) }

def cmdSaveGcodeState (s : GcodeState K) (cmd : Command) : Applied K (ApplyOutcome K) :=
  Applied.andThen (ensureWellformedExtended cmd, s) fun _ s =>
    (.ok (.empty .state), s.save (stateName cmd))

/-- The saved frame comes back; the filament has gone on in between, and its base with it. -/
def restore (s : GcodeState K) (saved : SavedGcodeState K) : GcodeState K :=
  { s with
    absoluteCoord := saved.absoluteCoord
    absoluteExtrude := saved.absoluteExtrude
    basePosition :=
      { saved.basePosition with
        e := saved.basePosition.e + (s.lastPosition.e - saved.lastPosition.e) }
    homingPosition := saved.homingPosition
    speed := saved.speed
    speedFactor := saved.speedFactor
    extrudeFactor := saved.extrudeFactor
    baseKnown :=
      { saved.baseKnown with
        e := saved.baseKnown.e && s.positionKnown.e && saved.positionKnown.e } }

/-- Moves back to the saved point, the filament stays. -/
def moveBack (arith : Arithmetic K) (s : GcodeState K) (saved : SavedGcodeState K) (speed : K)
    (span : ByteSpan) : Option (PlannedMove K) × GcodeState K :=
  let after :=
    { s with
      lastPosition := { saved.lastPosition with e := s.lastPosition.e }
      positionKnown := { saved.positionKnown with e := s.positionKnown.e } }
  (after.emitMove arith s.lastPosition s.positionKnown speed span none, after)

def cmdRestoreGcodeState (arith : Arithmetic K) (s : GcodeState K) (cmd : Command)
    (span : ByteSpan) : Applied K (ApplyOutcome K) :=
  Applied.andThen (ensureWellformedExtended cmd, s) fun _ s =>
    match s.savedStates (stateName cmd) with
    | none => (.error (.unknownSavedState (stateName cmd)), s)
    | some saved =>
        let s := s.restore saved
        Applied.andThen (requestedMove arith cmd s.speed, s) fun speed s =>
          match speed with
          | none => (.ok (.empty .state), s)
          | some speed =>
              let (move, s) := s.moveBack arith saved speed span
              (.ok ⟨move.toList, .state⟩, s)

/-- The commands that the interpreter knows. -/
inductive Kind where
  | linear
  | arc (clockwise : Bool)
  | plane (plane : ArcPlane)
  | inches
  | query
  | home
  | coordMode (absolute : Bool)
  | position
  | extrudeMode (absolute : Bool)
  | acceleration
  | speedFactor
  | extrudeFactor
  | setOffset
  | saveState
  | restoreState
  | passThrough
  deriving DecidableEq

/-- The command of a name. -/
def kindOf (name : Text) : Kind :=
  if name = lit "G0" ∨ name = lit "G1" then .linear
  else if name = lit "G2" then .arc true
  else if name = lit "G3" then .arc false
  else if name = lit "G17" then .plane .xy
  else if name = lit "G18" then .plane .xz
  else if name = lit "G19" then .plane .yz
  else if name = lit "G20" then .inches
  else if name = lit "G21" ∨ name = lit "M114" ∨ name = lit "GET_POSITION" then .query
  else if name = lit "G28" then .home
  else if name = lit "G90" then .coordMode true
  else if name = lit "G91" then .coordMode false
  else if name = lit "G92" then .position
  else if name = lit "M82" then .extrudeMode true
  else if name = lit "M83" then .extrudeMode false
  else if name = lit "M204" then .acceleration
  else if name = lit "M220" then .speedFactor
  else if name = lit "M221" then .extrudeFactor
  else if name = lit "SET_GCODE_OFFSET" then .setOffset
  else if name = lit "SAVE_GCODE_STATE" then .saveState
  else if name = lit "RESTORE_GCODE_STATE" then .restoreState
  else .passThrough

def applyCommand (arith : Arithmetic K) (s : GcodeState K) (cmd : Command) (span : ByteSpan) :
    Applied K (ApplyOutcome K) :=
  match kindOf cmd.name with
  | .linear => s.cmdG1 arith cmd span
  | .arc clockwise => s.cmdArc arith cmd span clockwise
  | .plane plane => (.ok (.empty .state), { s with arcPlane := plane })
  | .inches => (.error .inchesUnsupported, s)
  | .query => (.ok (.empty .state), s)
  | .home => (.ok (.empty (.homing (homedAxes cmd))), s.cmdG28 cmd)
  | .coordMode absolute => (.ok (.empty .state), { s with absoluteCoord := absolute })
  | .position => s.cmdG92 arith cmd
  | .extrudeMode absolute => (.ok (.empty .state), { s with absoluteExtrude := absolute })
  | .acceleration => s.cmdM204 arith cmd
  | .speedFactor => s.cmdM220 arith cmd
  | .extrudeFactor => s.cmdM221 arith cmd
  | .setOffset => s.cmdSetGcodeOffset arith cmd span
  | .saveState => s.cmdSaveGcodeState cmd
  | .restoreState => s.cmdRestoreGcodeState arith cmd span
  | .passThrough => (.ok (.empty .passThrough), s)

/-- What a parsed line does. -/
def apply (arith : Arithmetic K) (s : GcodeState K) (line : Line) : Applied K (ApplyOutcome K) :=
  match line.body with
  | .blank | .comment _ => (.ok (.empty .blank), s)
  | .command cmd _ => s.applyCommand arith cmd line.span

end GcodeState

end DeadReckoning.Gcode
