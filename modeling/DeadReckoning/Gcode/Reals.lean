import DeadReckoning.Gcode.Arithmetic
import Mathlib.Analysis.SpecialFunctions.Complex.Arg

/-! The interpreter's numbers without rounding. -/
namespace DeadReckoning.Gcode

/-- The real numbers. -/
noncomputable def reals : Arithmetic ℝ where
  read := readExact
  isFinite _ := true
  sqrt := Real.sqrt
  hypot a b := Real.sqrt (a * a + b * b)
  atan2 y x := Complex.arg ⟨x, y⟩
  cos := Real.cos
  sin := Real.sin
  pi := Real.pi
  floor v := ⌊v⌋
  toNat v := ⌊v⌋₊

end DeadReckoning.Gcode
