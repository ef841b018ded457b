import DeadReckoning.Gcode.Reals
import DeadReckoning.Gcode.State
import DeadReckoning.Lib.Plane

/-! The plane geometry of the contact selection, with a square root that is given. -/
namespace DeadReckoning.Contact
open Gcode (Arithmetic ByteSpan)

abbrev Xy (K : Type) := K × K

/-- One deposited move in the plane, and where its line is. -/
structure XySegment (K : Type) where
  start : Xy K
  stop : Xy K
  z : K
  span : ByteSpan

section Functions

variable {K : Type} [Field K] [LinearOrder K] (arith : Arithmetic K)

def pointDistance (a b : Xy K) : K :=
  let dx := b.1 - a.1
  let dy := b.2 - a.2
  arith.sqrt (dx * dx + dy * dy)

def clamp (x lo hi : K) : K := max lo (min x hi)

/-- Where on the segment the nearest point to `p` is, the middle of a segment without length. -/
def closestPointT (p a b : Xy K) : K :=
  let dx := b.1 - a.1
  let dy := b.2 - a.2
  let len2 := dx * dx + dy * dy
  if 0 < len2 then clamp (((p.1 - a.1) * dx + (p.2 - a.2) * dy) / len2) 0 1 else 1 / 2

def lerp2 (a b : Xy K) (t : K) : Xy K := (a.1 + (b.1 - a.1) * t, a.2 + (b.2 - a.2) * t)

def pointSegDistance (p a b : Xy K) : K := pointDistance arith p (lerp2 a b (closestPointT p a b))

def XySegment.length (seg : XySegment K) : K := pointDistance arith seg.start seg.stop

def XySegment.pointAt (seg : XySegment K) (t : K) : Xy K := lerp2 seg.start seg.stop t

end Functions

section Nearest

variable {K : Type} [LinearOrder K]

theorem clamp_mem (x : K) {lo hi : K} (h : lo ≤ hi) : lo ≤ clamp x lo hi ∧ clamp x lo hi ≤ hi :=
  ⟨le_max_left _ _, max_le h (min_le_right _ _)⟩

variable [Field K] [IsStrictOrderedRing K] {p a b : Xy K} {t : K}

/-- From the nearest number of an interval every other one is further on the same side. -/
theorem clamp_variational {x lo hi t : K} (hlo : lo ≤ t) (hhi : t ≤ hi) :
    0 ≤ (t - clamp x lo hi) * (clamp x lo hi - x) := by
  rcases le_total x lo with hx | hx
  · have hclamp : clamp x lo hi = lo := max_eq_left ((min_le_left _ _).trans hx)
    rw [hclamp]
    exact mul_nonneg (sub_nonneg.mpr hlo) (sub_nonneg.mpr hx)
  rcases le_total x hi with hx' | hx'
  · have hclamp : clamp x lo hi = x := by
      rw [clamp, min_eq_left hx', max_eq_right hx]
    simp [hclamp]
  · have hclamp : clamp x lo hi = hi := by
      rw [clamp, min_eq_right hx', max_eq_right (hlo.trans hhi)]
    rw [hclamp]
    exact mul_nonneg_of_nonpos_of_nonpos (sub_nonpos.mpr hhi) (sub_nonpos.mpr hx')

theorem closestPointT_mem (p a b : Xy K) : 0 ≤ closestPointT p a b ∧ closestPointT p a b ≤ 1 := by
  unfold closestPointT
  dsimp only
  split
  · exact clamp_mem _ zero_le_one
  · constructor <;> norm_num

/-- The square of the distance from a point to a place of the segment. -/
def lerpDistanceSq (p a b : Xy K) (t : K) : K :=
  ((lerp2 a b t).1 - p.1) * ((lerp2 a b t).1 - p.1) +
    ((lerp2 a b t).2 - p.2) * ((lerp2 a b t).2 - p.2)

/-- No place of the segment is nearer than the one that the code takes. -/
theorem lerpDistanceSq_closest_le (ht : 0 ≤ t) (ht' : t ≤ 1) :
    lerpDistanceSq p a b (closestPointT p a b) ≤ lerpDistanceSq p a b t := by
  by_cases hlen : 0 < (b.1 - a.1) * (b.1 - a.1) + (b.2 - a.2) * (b.2 - a.2)
  · obtain ⟨x, hx⟩ : ∃ x, x = ((p.1 - a.1) * (b.1 - a.1) + (p.2 - a.2) * (b.2 - a.2)) /
        ((b.1 - a.1) * (b.1 - a.1) + (b.2 - a.2) * (b.2 - a.2)) := ⟨_, rfl⟩
    have hclosest : closestPointT p a b = clamp x 0 1 := by
      rw [hx]
      exact if_pos hlen
    have hdot := hx ▸
      div_mul_cancel₀ ((p.1 - a.1) * (b.1 - a.1) + (p.2 - a.2) * (b.2 - a.2)) hlen.ne'
    have hbetween := mul_nonneg hlen.le (clamp_variational (x := x) ht ht')
    have hsquare := mul_nonneg hlen.le (mul_self_nonneg (t - clamp x 0 1))
    have hproject := congrArg ((t - clamp x 0 1) * ·) hdot
    rw [hclosest]
    simp only [lerpDistanceSq, lerp2]
    linarith
  · have hx : b.1 - a.1 = 0 := by
      nlinarith [mul_self_nonneg (b.1 - a.1), mul_self_nonneg (b.2 - a.2)]
    have hy : b.2 - a.2 = 0 := by
      nlinarith [mul_self_nonneg (b.1 - a.1), mul_self_nonneg (b.2 - a.2)]
    simp [lerpDistanceSq, lerp2, hx, hy]

end Nearest

section Exact

variable {p a b : Xy ℝ} {r t : ℝ}

open Gcode (reals)

theorem pointDistance_reals (a b : Xy ℝ) : pointDistance reals a b = Plane.dist a b := rfl

theorem lerp2_eq (a b : Xy ℝ) (t : ℝ) : lerp2 a b t = Plane.lerp a b t := rfl

theorem pointSegDistance_le (ht : 0 ≤ t) (ht' : t ≤ 1) :
    pointSegDistance reals p a b ≤ Plane.dist p (Plane.lerp a b t) :=
  Real.sqrt_le_sqrt (lerpDistanceSq_closest_le ht ht')

/-- What is not further than `r` from a segment is its capsule. -/
theorem pointSegDistance_le_iff : pointSegDistance reals p a b ≤ r ↔ p ∈ Plane.capsule a b r := by
  constructor
  · intro hle
    obtain ⟨h₀, h₁⟩ := closestPointT_mem p a b
    exact ⟨closestPointT p a b, ⟨h₀, h₁⟩, hle⟩
  · rintro ⟨t, ⟨h₀, h₁⟩, hle⟩
    exact (pointSegDistance_le h₀ h₁).trans hle

end Exact

end DeadReckoning.Contact
