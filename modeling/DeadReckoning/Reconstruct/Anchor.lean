import DeadReckoning.Gcode.Laws
import DeadReckoning.Wal.Record

/-! The interpreter state that a recorded context describes. -/
namespace DeadReckoning.Reconstruct

open Checks (ensure required bind_eq_ok ensure_eq_ok required_eq_ok)
open Gcode (Axes)

inductive ContextDefect where
  | nonFinite
  | tooFewAxes
  | badExtrudeFactor
  | badSpeedFactor
  | nonPositiveSpeed
  deriving DecidableEq

def firstFour (v : List F64) : Option (Axes ℚ) := Axes.ofList? (v.map F64.toRat)

/-- The state of the interpreter at a context, whose status reports the speed and its factor in
other units. -/
def anchorStateFromContext (gcode : Wal.GcodeState) :
    Except ContextDefect (Gcode.GcodeState ℚ) := do
  ensure gcode.valuesAreFinite .nonFinite
  let pos ← required .tooFewAxes (firstFour gcode.position)
  let gpos ← required .tooFewAxes (firstFour gcode.gcodePosition)
  let origin ← required .tooFewAxes (firstFour gcode.homingOrigin)
  let extrudeFactor := gcode.extrudeFactor.toRat
  ensure (decide (0 < extrudeFactor)) .badExtrudeFactor
  let factorMult := gcode.speedFactor.toRat
  ensure (decide (0 < factorMult)) .badSpeedFactor
  let speedFactor := factorMult / 60
  let speed := gcode.speed.toRat * speedFactor
  ensure (decide (0 < speed)) .nonPositiveSpeed
  pure
    { (Gcode.GcodeState.new : Gcode.GcodeState ℚ) with
      absoluteCoord := gcode.absoluteCoordinates
      absoluteExtrude := gcode.absoluteExtrude
      basePosition :=
        { x := pos.x - gpos.x
          y := pos.y - gpos.y
          z := pos.z - gpos.z
          e := pos.e - gpos.e * extrudeFactor }
      lastPosition := pos
      homingPosition := origin
      speed := speed
      speedFactor := speedFactor
      extrudeFactor := extrudeFactor }

/-- The interpreter starts from a sound state. -/
theorem anchorState_sound {gcode : Wal.GcodeState} {s : Gcode.GcodeState ℚ}
    (h : anchorStateFromContext gcode = .ok s) : s.Sound := by
  unfold anchorStateFromContext at h
  obtain ⟨_, -, h⟩ := bind_eq_ok.mp h
  obtain ⟨pos, -, h⟩ := bind_eq_ok.mp h
  obtain ⟨gpos, -, h⟩ := bind_eq_ok.mp h
  obtain ⟨origin, -, h⟩ := bind_eq_ok.mp h
  obtain ⟨_, hextrude, h⟩ := bind_eq_ok.mp h
  obtain ⟨_, hfactor, h⟩ := bind_eq_ok.mp h
  obtain ⟨_, hspeed, h⟩ := bind_eq_ok.mp h
  rw [ensure_eq_ok, decide_eq_true_eq] at hextrude hfactor hspeed
  cases h
  exact
    { speed := hspeed
      speedFactor := div_pos hfactor (by norm_num)
      extrudeFactor := hextrude
      accel := fun a ha => by cases ha
      saved := fun name saved hsaved => by cases hsaved }

end DeadReckoning.Reconstruct
