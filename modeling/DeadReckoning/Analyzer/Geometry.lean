import Mathlib.Algebra.Order.Field.Basic
import Mathlib.Data.Rat.Lemmas
import Mathlib.Algebra.Order.Ring.Rat
import Mathlib.Tactic.Linarith
import Mathlib.Tactic.Ring
import Mathlib.Tactic.FieldSimp
import Mathlib.Tactic.Positivity

/-! The plane geometry of the matcher, exact. A distance is kept as its square, so that it is a
rational again; squares compare as the distances do. -/
namespace DeadReckoning.Analyzer

abbrev Xy := ℚ × ℚ

section Functions

def pointDistanceSq (a b : Xy) : ℚ :=
  let dx := b.1 - a.1
  let dy := b.2 - a.2
  dx * dx + dy * dy

def clamp (x lo hi : ℚ) : ℚ := max lo (min x hi)

/-- Where on the segment the nearest point to `p` is, the middle of a segment without length. -/
def closestPointT (p a b : Xy) : ℚ :=
  let dx := b.1 - a.1
  let dy := b.2 - a.2
  let len2 := dx * dx + dy * dy
  if 0 < len2 then clamp (((p.1 - a.1) * dx + (p.2 - a.2) * dy) / len2) 0 1 else 1 / 2

def lerp2 (a b : Xy) (t : ℚ) : Xy := (a.1 + (b.1 - a.1) * t, a.2 + (b.2 - a.2) * t)

def pointSegDistanceSq (p a b : Xy) : ℚ := pointDistanceSq p (lerp2 a b (closestPointT p a b))

def pointInBox (p lo hi : Xy) : Bool := lo.1 ≤ p.1 ∧ p.1 ≤ hi.1 ∧ lo.2 ≤ p.2 ∧ p.2 ≤ hi.2

def pointBoxDistanceSq (p lo hi : Xy) : ℚ :=
  let dx := max (max (lo.1 - p.1) 0) (p.1 - hi.1)
  let dy := max (max (lo.2 - p.2) 0) (p.2 - hi.2)
  dx * dx + dy * dy

/-- On which side of the line from `a` to `b` the point `c` is. -/
def orient (a b c : Xy) : ℚ := (b.1 - a.1) * (c.2 - a.2) - (b.2 - a.2) * (c.1 - a.1)

/-- The points are on different sides of a line, and neither is on it. -/
def opposite (u v : ℚ) : Bool := (0 < u ∧ v < 0) ∨ (u < 0 ∧ 0 < v)

/-- The segments cross; touching is not enough. -/
def properIntersect (p₁ p₂ q₁ q₂ : Xy) : Bool :=
  opposite (orient q₁ q₂ p₁) (orient q₁ q₂ p₂) && opposite (orient p₁ p₂ q₁) (orient p₁ p₂ q₂)

def boxCorners (lo hi : Xy) : List Xy := [(lo.1, lo.2), (hi.1, lo.2), (hi.1, hi.2), (lo.1, hi.2)]

def boxEdges (lo hi : Xy) : List (Xy × Xy) :=
  [((lo.1, lo.2), (hi.1, lo.2)), ((hi.1, lo.2), (hi.1, hi.2)), ((hi.1, hi.2), (lo.1, hi.2)),
    ((lo.1, hi.2), (lo.1, lo.2))]

/-- How far the segment is from the box: zero when an end is inside or an edge is crossed,
otherwise the least distance of an end from the box or of a corner from the segment. -/
def segBoxDistanceSq (a b lo hi : Xy) : ℚ :=
  if pointInBox a lo hi || pointInBox b lo hi then 0
  else if (boxEdges lo hi).any fun edge => properIntersect a b edge.1 edge.2 then 0
  else (boxCorners lo hi).foldl (fun best corner => min best (pointSegDistanceSq corner a b))
    (min (pointBoxDistanceSq a lo hi) (pointBoxDistanceSq b lo hi))

end Functions

section Distances

variable {p a b lo hi : Xy} {s t : ℚ}

theorem pointInBox_iff :
    pointInBox p lo hi = true ↔ (lo.1 ≤ p.1 ∧ p.1 ≤ hi.1) ∧ lo.2 ≤ p.2 ∧ p.2 ≤ hi.2 := by
  simp [pointInBox, and_assoc]

theorem pointDistanceSq_nonneg (a b : Xy) : 0 ≤ pointDistanceSq a b :=
  add_nonneg (mul_self_nonneg _) (mul_self_nonneg _)

theorem pointBoxDistanceSq_nonneg (p lo hi : Xy) : 0 ≤ pointBoxDistanceSq p lo hi :=
  add_nonneg (mul_self_nonneg _) (mul_self_nonneg _)

theorem clamp_self {x lo hi : ℚ} (hlo : lo ≤ x) (hhi : x ≤ hi) : clamp x lo hi = x := by
  rw [clamp, min_eq_left hhi, max_eq_right hlo]

theorem clamp_mem {x lo hi : ℚ} (h : lo ≤ hi) : lo ≤ clamp x lo hi ∧ clamp x lo hi ≤ hi :=
  ⟨le_max_left _ _, max_le h (min_le_right _ _)⟩

/-- A point of the segment is at no distance from it. -/
theorem pointSegDistanceSq_lerp2 (hs : 0 ≤ s) (hs' : s ≤ 1) :
    pointSegDistanceSq (lerp2 a b s) a b = 0 := by
  by_cases hlen : 0 < (b.1 - a.1) * (b.1 - a.1) + (b.2 - a.2) * (b.2 - a.2)
  · have hclosest : closestPointT (lerp2 a b s) a b = s := by
      have hdot : ((lerp2 a b s).1 - a.1) * (b.1 - a.1) + ((lerp2 a b s).2 - a.2) * (b.2 - a.2) =
          s * ((b.1 - a.1) * (b.1 - a.1) + (b.2 - a.2) * (b.2 - a.2)) := by
        simp only [lerp2]
        ring
      rw [closestPointT, if_pos hlen, hdot, mul_div_assoc, div_self hlen.ne', mul_one,
        clamp_self hs hs']
    rw [pointSegDistanceSq, hclosest]
    simp [pointDistanceSq]
  · have hx : b.1 - a.1 = 0 := by
      nlinarith [mul_self_nonneg (b.1 - a.1), mul_self_nonneg (b.2 - a.2)]
    have hy : b.2 - a.2 = 0 := by
      nlinarith [mul_self_nonneg (b.1 - a.1), mul_self_nonneg (b.2 - a.2)]
    simp [pointSegDistanceSq, pointDistanceSq, lerp2, hx, hy]

/-- The least of some numbers that are not negative, one of them zero. -/
theorem foldl_min_eq_zero {α : Type} {f : α → ℚ} {row : List α} {best : ℚ} (hbest : 0 ≤ best)
    (hf : ∀ x ∈ row, 0 ≤ f x) (hzero : best = 0 ∨ ∃ x ∈ row, f x = 0) :
    row.foldl (fun best x => min best (f x)) best = 0 := by
  induction row generalizing best with
  | nil =>
    rcases hzero with hzero | ⟨x, hx, -⟩
    · exact hzero
    · cases hx
  | cons y row ih =>
    have hy := hf y List.mem_cons_self
    apply ih (le_min hbest hy) fun x hx => hf x (List.mem_cons_of_mem _ hx)
    rcases hzero with rfl | ⟨x, hx, hzero⟩
    · exact .inl (min_eq_left hy)
    · rcases List.mem_cons.mp hx with rfl | hx
      · rw [hzero]
        exact .inl (min_eq_right hbest)
      · exact .inr ⟨x, hx, hzero⟩

/-- A corner on the segment, or an edge that it crosses, is a meeting with the box. -/
theorem segBoxDistanceSq_eq_zero_of (h : (∃ corner ∈ boxCorners lo hi, ∃ s, 0 ≤ s ∧ s ≤ 1 ∧
      lerp2 a b s = corner) ∨
      ∃ edge ∈ boxEdges lo hi, properIntersect a b edge.1 edge.2 = true) :
    segBoxDistanceSq a b lo hi = 0 := by
  unfold segBoxDistanceSq
  by_cases hinside : (pointInBox a lo hi || pointInBox b lo hi) = true
  · rw [if_pos hinside]
  rw [if_neg hinside]
  by_cases hcross : ((boxEdges lo hi).any fun edge => properIntersect a b edge.1 edge.2) = true
  · rw [if_pos hcross]
  rw [if_neg hcross]
  rcases h with ⟨corner, hcorner, s, hs, hs', rfl⟩ | ⟨edge, hedge, hproper⟩
  · apply foldl_min_eq_zero
    · exact le_min (pointBoxDistanceSq_nonneg _ _ _) (pointBoxDistanceSq_nonneg _ _ _)
    · exact fun corner _ => pointDistanceSq_nonneg _ _
    · exact .inr ⟨_, hcorner, pointSegDistanceSq_lerp2 hs hs'⟩
  · exact absurd (List.any_eq_true.mpr ⟨edge, hedge, hproper⟩) hcross

end Distances

section Crossings

variable {p a b lo hi : Xy} {s t : ℚ}

theorem opposite_mul {k u v : ℚ} (hk : k ≠ 0) (h : u < 0 ∧ 0 < v ∨ v < 0 ∧ 0 < u) :
    opposite (k * u) (k * v) = true := by
  rw [opposite, decide_eq_true_eq]
  rcases lt_or_gt_of_ne hk with hk | hk
  · rcases h with ⟨hu, hv⟩ | ⟨hv, hu⟩
    · exact .inl ⟨mul_pos_of_neg_of_neg hk hu, mul_neg_of_neg_of_pos hk hv⟩
    · exact .inr ⟨mul_neg_of_neg_of_pos hk hu, mul_pos_of_neg_of_neg hk hv⟩
  · rcases h with ⟨hu, hv⟩ | ⟨hv, hu⟩
    · exact .inr ⟨mul_neg_of_pos_of_neg hk hu, mul_pos hk hv⟩
    · exact .inl ⟨mul_pos hk hu, mul_neg_of_pos_of_neg hk hv⟩

/-- Between its ends on both sides of an upright edge, a segment crosses the edge at an inner
point of the edge. -/
theorem properIntersect_upright {x y₁ y₂ : ℚ} (hx : (lerp2 a b s).1 = x)
    (hside : a.1 - x < 0 ∧ 0 < b.1 - x ∨ b.1 - x < 0 ∧ 0 < a.1 - x)
    (hy : y₁ - (lerp2 a b s).2 < 0 ∧ 0 < y₂ - (lerp2 a b s).2 ∨
      y₂ - (lerp2 a b s).2 < 0 ∧ 0 < y₁ - (lerp2 a b s).2) :
    properIntersect a b (x, y₁) (x, y₂) = true := by
  have hends (c : Xy) : orient (x, y₁) (x, y₂) c = (y₁ - y₂) * (c.1 - x) := by
    simp only [orient]
    ring
  have hedge (y : ℚ) : orient a b (x, y) = (b.1 - a.1) * (y - (lerp2 a b s).2) := by
    rw [← hx]
    simp only [orient, lerp2]
    ring
  have hlen : y₁ - y₂ ≠ 0 := by
    rcases hy with ⟨h₁, h₂⟩ | ⟨h₁, h₂⟩
    · linarith
    · linarith
  have hdx : b.1 - a.1 ≠ 0 := by
    rcases hside with ⟨h₁, h₂⟩ | ⟨h₁, h₂⟩
    · linarith
    · linarith
  rw [properIntersect, Bool.and_eq_true, hends, hends, hedge, hedge]
  exact ⟨opposite_mul hlen hside, opposite_mul hdx hy⟩

theorem orient_swap (a b c : Xy) : orient a.swap b.swap c.swap = -orient a b c := by
  simp only [orient, Prod.fst_swap, Prod.snd_swap]
  ring

theorem opposite_neg (u v : ℚ) : opposite (-u) (-v) = opposite u v := by
  simp only [opposite, Left.neg_pos_iff, Left.neg_neg_iff]
  exact decide_eq_decide.mpr or_comm

theorem properIntersect_swap (p₁ p₂ q₁ q₂ : Xy) :
    properIntersect p₁.swap p₂.swap q₁.swap q₂.swap = properIntersect p₁ p₂ q₁ q₂ := by
  simp only [properIntersect, orient_swap, opposite_neg]

/-- What comes into an interval comes in at one of its ends. -/
theorem exists_entry {l h u d t : ℚ} (ht : 0 ≤ t) (hl : l ≤ u + d * t) (hh : u + d * t ≤ h) :
    ∃ s, 0 ≤ s ∧ s ≤ t ∧ (∀ r, s ≤ r → r ≤ t → l ≤ u + d * r ∧ u + d * r ≤ h) ∧
      (s = 0 ∨ (u + d * s = l ∧ u < l ∧ 0 < d) ∨ (u + d * s = h ∧ h < u ∧ d < 0)) := by
  by_cases hbelow : u < l
  · have hd : 0 < d := by
      by_contra hd
      nlinarith
    have hentry : u + d * ((l - u) / d) = l := by
      field_simp
      ring
    have hs : (l - u) / d ≤ t := by
      rw [div_le_iff₀ hd]
      linarith
    refine ⟨(l - u) / d, div_nonneg (by linarith) hd.le, hs, fun r hr hrt => ⟨?_, ?_⟩,
      .inr (.inl ⟨hentry, hbelow, hd⟩)⟩
    · nlinarith
    · nlinarith
  by_cases habove : h < u
  · have hd : d < 0 := by
      by_contra hd
      nlinarith
    have hentry : u + d * ((h - u) / d) = h := by
      rw [mul_div_cancel₀ _ hd.ne]
      ring
    have hs : (h - u) / d ≤ t := by
      rw [div_le_iff_of_neg hd]
      linarith
    refine ⟨(h - u) / d, div_nonneg_of_nonpos (by linarith) hd.le, hs, fun r hr hrt => ⟨?_, ?_⟩,
      .inr (.inr ⟨hentry, habove, hd⟩)⟩
    · nlinarith
    · nlinarith
  · refine ⟨0, le_rfl, ht, fun r hr hrt => ⟨?_, ?_⟩, .inl rfl⟩
    · rcases le_total 0 d with hd | hd
      · nlinarith
      · nlinarith
    · rcases le_total 0 d with hd | hd
      · nlinarith
      · nlinarith

/-- Across level edges it is the same. -/
theorem properIntersect_level {y x₁ x₂ : ℚ} (hy : (lerp2 a b s).2 = y)
    (hside : a.2 - y < 0 ∧ 0 < b.2 - y ∨ b.2 - y < 0 ∧ 0 < a.2 - y)
    (hx : x₁ - (lerp2 a b s).1 < 0 ∧ 0 < x₂ - (lerp2 a b s).1 ∨
      x₂ - (lerp2 a b s).1 < 0 ∧ 0 < x₁ - (lerp2 a b s).1) :
    properIntersect a b (x₁, y) (x₂, y) = true := by
  rw [← properIntersect_swap]
  exact @properIntersect_upright a.swap b.swap s y x₁ x₂ hy hside hx

/-- Where a segment comes in at an upright side it meets a corner or crosses the edge. -/
theorem meets_upright {x : ℚ} (hs : 0 ≤ s) (hs' : s ≤ 1) (hx : x = lo.1 ∨ x = hi.1)
    (hq : (lerp2 a b s).1 = x)
    (hside : a.1 - x < 0 ∧ 0 < b.1 - x ∨ b.1 - x < 0 ∧ 0 < a.1 - x)
    (hlo : lo.2 ≤ (lerp2 a b s).2) (hhi : (lerp2 a b s).2 ≤ hi.2) :
    segBoxDistanceSq a b lo hi = 0 := by
  apply segBoxDistanceSq_eq_zero_of
  rcases hlo.eq_or_lt with hlo | hlo
  · refine .inl ⟨(x, lo.2), ?_, s, hs, hs', Prod.ext hq hlo.symm⟩
    rcases hx with rfl | rfl <;> simp [boxCorners]
  rcases hhi.eq_or_lt with hhi | hhi
  · refine .inl ⟨(x, hi.2), ?_, s, hs, hs', Prod.ext hq hhi⟩
    rcases hx with rfl | rfl <;> simp [boxCorners]
  right
  rcases hx with rfl | rfl
  · refine ⟨((lo.1, hi.2), (lo.1, lo.2)), by simp [boxEdges], ?_⟩
    exact properIntersect_upright hq hside (.inr ⟨by linarith, by linarith⟩)
  · refine ⟨((hi.1, lo.2), (hi.1, hi.2)), by simp [boxEdges], ?_⟩
    exact properIntersect_upright hq hside (.inl ⟨by linarith, by linarith⟩)

theorem meets_level {y : ℚ} (hs : 0 ≤ s) (hs' : s ≤ 1) (hy : y = lo.2 ∨ y = hi.2)
    (hq : (lerp2 a b s).2 = y)
    (hside : a.2 - y < 0 ∧ 0 < b.2 - y ∨ b.2 - y < 0 ∧ 0 < a.2 - y)
    (hlo : lo.1 ≤ (lerp2 a b s).1) (hhi : (lerp2 a b s).1 ≤ hi.1) :
    segBoxDistanceSq a b lo hi = 0 := by
  apply segBoxDistanceSq_eq_zero_of
  rcases hlo.eq_or_lt with hlo | hlo
  · refine .inl ⟨(lo.1, y), ?_, s, hs, hs', Prod.ext hlo.symm hq⟩
    rcases hy with rfl | rfl <;> simp [boxCorners]
  rcases hhi.eq_or_lt with hhi | hhi
  · refine .inl ⟨(hi.1, y), ?_, s, hs, hs', Prod.ext hhi hq⟩
    rcases hy with rfl | rfl <;> simp [boxCorners]
  right
  rcases hy with rfl | rfl
  · refine ⟨((lo.1, lo.2), (hi.1, lo.2)), by simp [boxEdges], ?_⟩
    exact properIntersect_level hq hside (.inl ⟨by linarith, by linarith⟩)
  · refine ⟨((hi.1, hi.2), (lo.1, hi.2)), by simp [boxEdges], ?_⟩
    exact properIntersect_level hq hside (.inr ⟨by linarith, by linarith⟩)

/-- The end that a segment goes to is beyond the side that it came in at. -/
theorem sides_of_entry {u v l h s : ℚ} (hs : s < 1)
    (hentry : (u + (v - u) * s = l ∧ u < l ∧ 0 < v - u) ∨
      (u + (v - u) * s = h ∧ h < u ∧ v - u < 0)) :
    ∃ x, (x = l ∨ x = h) ∧ u + (v - u) * s = x ∧
      (u - x < 0 ∧ 0 < v - x ∨ v - x < 0 ∧ 0 < u - x) := by
  rcases hentry with ⟨hx, hside, hd⟩ | ⟨hx, hside, hd⟩
  · exact ⟨l, .inl rfl, hx, .inl ⟨by linarith, by nlinarith⟩⟩
  · exact ⟨h, .inr rfl, hx, .inr ⟨by nlinarith, by linarith⟩⟩

/-- A segment with a point in the box is at no distance from it. -/
theorem segBoxDistanceSq_eq_zero (ht : 0 ≤ t) (ht' : t ≤ 1)
    (hbox : pointInBox (lerp2 a b t) lo hi = true) : segBoxDistanceSq a b lo hi = 0 := by
  by_cases hinside : (pointInBox a lo hi || pointInBox b lo hi) = true
  · rw [segBoxDistanceSq, if_pos hinside]
  rw [Bool.or_eq_true, not_or, pointInBox_iff, pointInBox_iff] at hinside
  obtain ⟨⟨hxlo, hxhi⟩, hylo, hyhi⟩ := pointInBox_iff.mp hbox
  have hlt : t < 1 := by
    refine lt_of_le_of_ne ht' ?_
    rintro rfl
    have hb : lerp2 a b 1 = b := Prod.ext (by simp [lerp2]) (by simp [lerp2])
    rw [hb] at hxlo hxhi hylo hyhi
    exact hinside.2 ⟨⟨hxlo, hxhi⟩, hylo, hyhi⟩
  obtain ⟨sx, hsx, hsxt, hx, hxentry⟩ := exists_entry ht hxlo hxhi
  obtain ⟨sy, hsy, hsyt, hy, hyentry⟩ := exists_entry ht hylo hyhi
  have hstart (hzero : sx = 0) (hzero' : sy = 0) : False := by
    have hx₀ := hx 0 hzero.le ht
    have hy₀ := hy 0 hzero'.le ht
    rw [mul_zero, add_zero] at hx₀ hy₀
    exact hinside.1 ⟨hx₀, hy₀⟩
  -- The later of the two entries is the one into the box.
  rcases le_total sy sx with hle | hle
  · rcases hxentry with hzero | hxentry
    · exact (hstart hzero (le_antisymm (hle.trans hzero.le) hsy)).elim
    · obtain ⟨x, hx', hq, hside⟩ := sides_of_entry (hsxt.trans_lt hlt) hxentry
      exact meets_upright hsx (hsxt.trans ht') hx' hq hside (hy sx hle hsxt).1 (hy sx hle hsxt).2
  · rcases hyentry with hzero | hyentry
    · exact (hstart (le_antisymm (hle.trans hzero.le) hsx) hzero).elim
    · obtain ⟨y, hy', hq, hside⟩ := sides_of_entry (hsyt.trans_lt hlt) hyentry
      exact meets_level hsy (hsyt.trans ht') hy' hq hside (hx sy hle hsyt).1 (hx sy hle hsyt).2

end Crossings

end DeadReckoning.Analyzer
