import DeadReckoning.Lib.Numerals
import Mathlib.Analysis.Complex.Norm
import Mathlib.MeasureTheory.Measure.Lebesgue.Basic
import Mathlib.Order.CompletePartialOrder

/-! The plane with Euclid's distance: segments, what is near them, and the squares of a grid. -/
namespace Plane
open MeasureTheory Set

section Distance

noncomputable def dist (a b : ℝ × ℝ) : ℝ :=
  Real.sqrt ((b.1 - a.1) * (b.1 - a.1) + (b.2 - a.2) * (b.2 - a.2))

variable {a b c p q : ℝ × ℝ} {r s t : ℝ}

theorem dist_eq_norm (a b : ℝ × ℝ) : dist a b = ‖(⟨b.1 - a.1, b.2 - a.2⟩ : ℂ)‖ := by
  rw [Complex.norm_def, Complex.normSq_mk, dist]

theorem dist_nonneg (a b : ℝ × ℝ) : 0 ≤ dist a b := Real.sqrt_nonneg _

theorem dist_self (a : ℝ × ℝ) : dist a a = 0 := by
  simp [dist]

theorem dist_comm (a b : ℝ × ℝ) : dist a b = dist b a := by
  unfold dist
  congr 1
  ring

theorem dist_triangle (a b c : ℝ × ℝ) : dist a c ≤ dist a b + dist b c := by
  have hsum : (⟨c.1 - a.1, c.2 - a.2⟩ : ℂ) =
      ⟨b.1 - a.1, b.2 - a.2⟩ + ⟨c.1 - b.1, c.2 - b.2⟩ := by
    apply Complex.ext
    · simp
    · simp
  rw [dist_eq_norm, dist_eq_norm, dist_eq_norm, hsum]
  exact norm_add_le _ _

theorem dist_le_iff (hr : 0 ≤ r) : dist a b ≤ r ↔
    (b.1 - a.1) * (b.1 - a.1) + (b.2 - a.2) * (b.2 - a.2) ≤ r * r := by
  rw [dist, Real.sqrt_le_left hr, sq]

/-- Neither coordinate differs by more than the distance. -/
theorem abs_fst_le_dist (a b : ℝ × ℝ) : |b.1 - a.1| ≤ dist a b := by
  rw [dist_eq_norm]
  exact Complex.abs_re_le_norm ⟨b.1 - a.1, b.2 - a.2⟩

theorem abs_snd_le_dist (a b : ℝ × ℝ) : |b.2 - a.2| ≤ dist a b := by
  rw [dist_eq_norm]
  exact Complex.abs_im_le_norm ⟨b.1 - a.1, b.2 - a.2⟩

theorem dist_le_add (a b : ℝ × ℝ) : dist a b ≤ |b.1 - a.1| + |b.2 - a.2| := by
  rw [dist_eq_norm]
  exact Complex.norm_le_abs_re_add_abs_im ⟨b.1 - a.1, b.2 - a.2⟩

/-- Half the diagonal of a square is the most that a point is away from its middle. -/
theorem dist_le_of_abs_le {h : ℝ} (hx : |b.1 - a.1| ≤ h / 2) (hy : |b.2 - a.2| ≤ h / 2) :
    dist a b ≤ h * (1 / Real.sqrt 2) := by
  have hh : 0 ≤ h := by linarith [abs_nonneg (b.1 - a.1)]
  have hx' := mul_self_le_mul_self (abs_nonneg _) hx
  have hy' := mul_self_le_mul_self (abs_nonneg _) hy
  rw [abs_mul_abs_self] at hx' hy'
  have hhalf : h * (1 / Real.sqrt 2) * (h * (1 / Real.sqrt 2)) = h * h / 2 := by
    rw [mul_mul_mul_comm, one_div_mul_one_div, Real.mul_self_sqrt zero_le_two, mul_one_div]
  rw [dist_le_iff (by positivity), hhalf]
  linarith

end Distance

section Segments

/-- A place on the way from `a` to `b`. -/
noncomputable def lerp (a b : ℝ × ℝ) (t : ℝ) : ℝ × ℝ :=
  (a.1 + (b.1 - a.1) * t, a.2 + (b.2 - a.2) * t)

variable {a b p q : ℝ × ℝ} {r s t : ℝ}

theorem dist_lerp_lerp (a b : ℝ × ℝ) (s t : ℝ) :
    dist (lerp a b s) (lerp a b t) = |t - s| * dist a b := by
  have hfactor : (⟨(lerp a b t).1 - (lerp a b s).1, (lerp a b t).2 - (lerp a b s).2⟩ : ℂ) =
      ((t - s : ℝ) : ℂ) * ⟨b.1 - a.1, b.2 - a.2⟩ := by
    apply Complex.ext
    · simp [lerp]
      ring
    · simp [lerp]
      ring
  rw [dist_eq_norm, hfactor, norm_mul, Complex.norm_real, Real.norm_eq_abs, dist_eq_norm]

/-- What is no further than `r` from the segment. -/
def capsule (a b : ℝ × ℝ) (r : ℝ) : Set (ℝ × ℝ) :=
  {q | ∃ t ∈ Icc (0 : ℝ) 1, dist q (lerp a b t) ≤ r}

theorem mem_capsule_of_dist_le (h : q ∈ capsule a b r) (hpq : dist p q ≤ s) :
    p ∈ capsule a b (r + s) := by
  obtain ⟨t, ht, hle⟩ := h
  exact ⟨t, ht, by linarith [dist_triangle p q (lerp a b t)]⟩

theorem capsule_mono (h : r ≤ s) : capsule a b r ⊆ capsule a b s :=
  fun _ ⟨t, ht, hle⟩ => ⟨t, ht, hle.trans h⟩

theorem capsule_eq_empty (h : r < 0) : capsule a b r = ∅ := by
  rw [eq_empty_iff_forall_notMem]
  rintro q ⟨t, -, hle⟩
  linarith [dist_nonneg q (lerp a b t)]

end Segments

section Squares

/-- The square of a grid with its lower left corner at `corner`, half open. -/
def square (corner : ℝ × ℝ) (h : ℝ) (c : ℕ × ℕ) : Set (ℝ × ℝ) :=
  Ico (corner.1 + c.1 * h) (corner.1 + (c.1 + 1) * h) ×ˢ
    Ico (corner.2 + c.2 * h) (corner.2 + (c.2 + 1) * h)

noncomputable def middle (corner : ℝ × ℝ) (h : ℝ) (c : ℕ × ℕ) : ℝ × ℝ :=
  (corner.1 + (c.1 + 1 / 2) * h, corner.2 + (c.2 + 1 / 2) * h)

variable {corner q : ℝ × ℝ} {h : ℝ} {c d : ℕ × ℕ}

theorem dist_middle_le (hq : q ∈ square corner h c) :
    dist q (middle corner h c) ≤ h * (1 / Real.sqrt 2) := by
  obtain ⟨⟨hx, hx'⟩, hy, hy'⟩ := hq
  apply dist_le_of_abs_le
  · simp only [middle]
    rw [abs_le]
    constructor <;> linarith
  · simp only [middle]
    rw [abs_le]
    constructor <;> linarith

theorem index_eq_of_mem {m n : ℕ} {o x : ℝ} (hh : 0 < h)
    (hm : x ∈ Ico (o + m * h) (o + (m + 1) * h)) (hn : x ∈ Ico (o + n * h) (o + (n + 1) * h)) :
    m = n := by
  have hle {m n : ℕ} (hm : x ∈ Ico (o + m * h) (o + (m + 1) * h))
      (hn : x ∈ Ico (o + n * h) (o + (n + 1) * h)) : m ≤ n := by
    have hlt : (m : ℝ) * h < (n + 1) * h := by linarith [hm.1, hn.2]
    have hcast : (m : ℝ) < n + 1 := lt_of_mul_lt_mul_right hlt hh.le
    exact Nat.lt_succ_iff.mp (by exact_mod_cast hcast)
  exact le_antisymm (hle hm hn) (hle hn hm)

theorem disjoint_squares (hh : 0 < h) (hne : c ≠ d) :
    Disjoint (square corner h c) (square corner h d) := by
  rw [Set.disjoint_left]
  rintro q ⟨hx, hy⟩ ⟨hx', hy'⟩
  exact hne (Prod.ext (index_eq_of_mem hh hx hx') (index_eq_of_mem hh hy hy'))

theorem volume_square (hh : 0 < h) : volume (square corner h c) = ENNReal.ofReal (h * h) := by
  have hlength {o : ℝ} {n : ℕ} : o + (n + 1) * h - (o + n * h) = h := by ring
  rw [square, Measure.volume_eq_prod, Measure.prod_prod, Real.volume_Ico, Real.volume_Ico, hlength,
    hlength, ENNReal.ofReal_mul hh.le]

/-- Squares of a grid inside of a set have together at most its area. -/
theorem ofReal_card_mul_le_volume {cells : Finset (ℕ × ℕ)} {set : Set (ℝ × ℝ)} (hh : 0 < h)
    (hinside : ∀ c ∈ cells, square corner h c ⊆ set) :
    ENNReal.ofReal (cells.card * h * h) ≤ volume set := by
  have hmeasurable : ∀ c ∈ cells, MeasurableSet (square corner h c) :=
    fun c _ => measurableSet_Ico.prod measurableSet_Ico
  have hsum : volume (⋃ c ∈ cells, square corner h c) = ENNReal.ofReal (cells.card * h * h) := by
    rw [measure_biUnion_finset (fun c _ d _ hne => disjoint_squares hh hne) hmeasurable,
      Finset.sum_congr rfl fun c _ => volume_square hh, Finset.sum_const, mul_assoc,
      ENNReal.ofReal_mul (Nat.cast_nonneg _), ENNReal.ofReal_natCast, nsmul_eq_mul]
  rw [← hsum]
  exact measure_mono (iUnion₂_subset hinside)

end Squares

end Plane
