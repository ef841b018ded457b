import DeadReckoning.Lib.Numerals
import Mathlib.Tactic.Linarith
import Mathlib.Tactic.LinearCombination
import Mathlib.Tactic.Ring
import Mathlib.Tactic.FieldSimp
import Mathlib.Algebra.Order.Field.Basic

/-! The distance travelled under a constant acceleration, on an interval of time. -/

variable {K : Type*} [Field K] [LinearOrder K] [IsStrictOrderedRing K]

/-- The distance after a time, from a start velocity and an acceleration. -/
def travelled (velocity acceleration elapsed : K) : K :=
  (velocity + 1 / 2 * acceleration * elapsed) * elapsed

variable {v a lo hi t : K}

theorem travelled_sub (v a s t : K) :
    travelled v a t - travelled v a s = (t - s) * (v + 1 / 2 * a * (t + s)) := by
  unfold travelled
  ring

theorem travelled_neg (v a t : K) : travelled (-v) (-a) t = -travelled v a t := by
  unfold travelled
  ring

/-- The distance is not below all its values at the ends of the interval and where the velocity is
zero inside. -/
theorem exists_travelled_le (hlo : lo ≤ t) (hhi : t ≤ hi) :
    travelled v a lo ≤ travelled v a t ∨ travelled v a hi ≤ travelled v a t ∨
      a ≠ 0 ∧ lo < -v / a ∧ -v / a < hi ∧ travelled v a (-v / a) ≤ travelled v a t := by
  have hstart := travelled_sub v a lo t
  have hend := travelled_sub v a hi t
  -- It rises from the first end, or falls to the second, unless the mean velocities say neither.
  by_cases hrises : 0 ≤ v + 1 / 2 * a * (t + lo)
  · left
    have hproduct := mul_nonneg (sub_nonneg.mpr hlo) hrises
    linarith
  by_cases hfalls : v + 1 / 2 * a * (t + hi) ≤ 0
  · right
    left
    have hproduct := mul_nonneg_of_nonpos_of_nonpos (sub_nonpos.mpr hhi) hfalls
    linarith
  · right
    right
    rw [not_le] at hrises hfalls
    have hwidth : 0 < a * (hi - lo) := by linarith
    have hpositive : 0 < a := (pos_iff_pos_of_mul_pos hwidth).mpr
      (lt_of_le_of_ne (sub_nonneg.mpr (hlo.trans hhi)) fun hzero => by
        rw [← hzero, mul_zero] at hwidth
        exact lt_irrefl _ hwidth)
    have hvertex : a * (-v / a) = -v := mul_div_cancel₀ _ hpositive.ne'
    have hbelow : lo < -v / a := by
      apply lt_of_mul_lt_mul_left _ hpositive.le
      have hslope := mul_le_mul_of_nonneg_left hlo hpositive.le
      linarith
    have habove : -v / a < hi := by
      apply lt_of_mul_lt_mul_left _ hpositive.le
      have hslope := mul_le_mul_of_nonneg_left hhi hpositive.le
      linarith
    refine ⟨hpositive.ne', hbelow, habove, ?_⟩
    have hsquare : travelled v a t - travelled v a (-v / a) =
        1 / 2 * a * ((t - -v / a) * (t - -v / a)) := by
      rw [travelled_sub]
      linear_combination (t - -v / a) * hvertex
    have hnonneg : 0 ≤ 1 / 2 * a * ((t - -v / a) * (t - -v / a)) :=
      mul_nonneg (by linarith) (mul_self_nonneg _)
    linarith

/-- Nor is it above all of them. -/
theorem exists_le_travelled (hlo : lo ≤ t) (hhi : t ≤ hi) :
    travelled v a t ≤ travelled v a lo ∨ travelled v a t ≤ travelled v a hi ∨
      a ≠ 0 ∧ lo < -v / a ∧ -v / a < hi ∧ travelled v a t ≤ travelled v a (-v / a) := by
  have hmirror := exists_travelled_le (v := -v) (a := -a) hlo hhi
  simp only [travelled_neg, neg_le_neg_iff, neg_ne_zero, neg_neg, div_neg] at hmirror
  rwa [neg_div]
