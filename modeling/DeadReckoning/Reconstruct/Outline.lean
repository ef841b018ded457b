import DeadReckoning.Gcode.Reals
import DeadReckoning.Lib.Median
import DeadReckoning.Wal.Record
import Mathlib.Algebra.Order.Field.Basic
import Mathlib.Data.List.Rotate
import Mathlib.Tactic.FieldSimp
import Mathlib.Tactic.Linarith
import Mathlib.Tactic.Ring

/-! The outline of an object: which points are on it, and the box that stands for an outline with
too many points. -/
namespace DeadReckoning.Reconstruct

open Gcode (Arithmetic)

section Definitions

variable {K : Type} [Field K] [LinearOrder K] (arith : Arithmetic K)

/-- Half the width of the test for a point on an edge. -/
def edgeToleranceMm : K := 1 / ((1000000 : ℕ) : K)

/-- The edges of the closed ring, the last point back to the first. -/
def edges {α : Type} (polygon : List α) : List (α × α) := polygon.zip (polygon.rotate 1)

/-- An edge that is no longer than the tolerance is tested as its first point. -/
def pointOnSegment (x y : K) (a b : K × K) : Bool :=
  let dx := b.1 - a.1
  let dy := b.2 - a.2
  let px := x - a.1
  let py := y - a.2
  let length := arith.hypot dx dy
  if length ≤ edgeToleranceMm then arith.hypot px py ≤ edgeToleranceMm
  else if edgeToleranceMm < |px * dy - py * dx| / length then false
  else
    let projection := (px * dx + py * dy) / length
    decide (-edgeToleranceMm ≤ projection ∧ projection ≤ length + edgeToleranceMm)

/-- The ray to the right of the point meets the edge. -/
def crosses (x y : K) (a b : K × K) : Bool :=
  if decide (y < a.2) ≠ decide (y < b.2) then
    let t := (y - a.2) / (b.2 - a.2)
    x < a.1 + t * (b.1 - a.1)
  else false

def pointInPolygon (x y : K) (polygon : List (K × K)) : Bool :=
  if !arith.isFinite x || !arith.isFinite y || polygon.length < 3 then false
  else if polygon.any fun p => !arith.isFinite p.1 || !arith.isFinite p.2 then false
  else if (edges polygon).any fun e => pointOnSegment arith x y e.1 e.2 then true
  else (edges polygon).foldl (fun inside e => if crosses x y e.1 e.2 then !inside else inside) false

/-- The corners of the smallest box around the points. -/
def boundingBox : List (K × K) → List (K × K)
  | [] => []
  | p :: points =>
      let lo := points.foldl (fun lo q => (min lo.1 q.1, min lo.2 q.2)) p
      let hi := points.foldl (fun hi q => (max hi.1 q.1, max hi.2 q.2)) p
      [(lo.1, lo.2), (hi.1, lo.2), (hi.1, hi.2), (lo.1, hi.2)]

end Definitions

section Edges

variable {α : Type} (l : List α)

theorem edges_rotate (n : ℕ) : edges (l.rotate n) = (edges l).rotate n := by
  unfold edges
  rw [List.rotate_rotate, Nat.add_comm, ← List.rotate_rotate]
  exact (List.zipWith_rotate_distrib Prod.mk l (l.rotate 1) n (List.length_rotate l 1).symm).symm

/-- The reversed ring has the edges of the ring, each the other way round. -/
theorem edges_reverse : (edges l.reverse).Perm ((edges l).map Prod.swap) := by
  by_cases hempty : l = []
  · simp [hempty, edges]
  have hpos : 0 < l.length := List.length_pos_iff.mpr hempty
  obtain ⟨n, hn⟩ : ∃ n, l.reverse.rotate 1 = (l.rotate n).reverse ∧ (l.rotate n).rotate 1 = l := by
    refine ⟨l.length - 1 % l.length, List.rotate_reverse l 1, ?_⟩
    rw [List.rotate_rotate]
    by_cases hone : l.length = 1
    · rw [← List.rotate_mod, hone]
      simp
    · have hmod : 1 % l.length = 1 := Nat.mod_eq_of_lt (by omega)
      rw [hmod, Nat.sub_add_cancel hpos, List.rotate_length]
  have hzip : edges l.reverse = ((edges (l.rotate n)).map Prod.swap).reverse := by
    unfold edges
    rw [hn.1, hn.2, List.zip_swap]
    exact (List.reverse_zipWith (List.length_rotate l n).symm).symm
  rw [hzip, edges_rotate]
  exact (List.reverse_perm _).trans ((List.rotate_perm _ n).map Prod.swap)

theorem edges_fst : (edges l).map Prod.fst = l :=
  List.map_fst_zip (by rw [List.length_rotate])

end Edges

section Membership

variable {K : Type} [Field K] [LinearOrder K] {arith : Arithmetic K} {x y : K} {a b : K × K}
  {ring : List (K × K)}

/-- The length of a vector is exact. -/
structure ExactHypot (arith : Arithmetic K) : Prop where
  nonneg : ∀ u v, 0 ≤ arith.hypot u v
  square : ∀ u v, arith.hypot u v * arith.hypot u v = u * u + v * v

/-- The point is within the tolerance of a corner. -/
def Near (arith : Arithmetic K) (x y : K) (a : K × K) : Prop :=
  arith.hypot (x - a.1) (y - a.2) ≤ edgeToleranceMm

/-- The point is within the tolerance of an edge that is longer than that, and no further behind
its ends. -/
structure OnLong (arith : Arithmetic K) (x y : K) (a b : K × K) : Prop where
  long : edgeToleranceMm < arith.hypot (b.1 - a.1) (b.2 - a.2)
  beside : |(x - a.1) * (b.2 - a.2) - (y - a.2) * (b.1 - a.1)| ≤
    edgeToleranceMm * arith.hypot (b.1 - a.1) (b.2 - a.2)
  behind : -(edgeToleranceMm * arith.hypot (b.1 - a.1) (b.2 - a.2)) ≤
    (x - a.1) * (b.1 - a.1) + (y - a.2) * (b.2 - a.2)
  ahead : (x - a.1) * (b.1 - a.1) + (y - a.2) * (b.2 - a.2) ≤
    (arith.hypot (b.1 - a.1) (b.2 - a.2) + edgeToleranceMm) *
      arith.hypot (b.1 - a.1) (b.2 - a.2)

theorem foldl_toggle {α : Type} (p : α → Bool) (l : List α) (inside : Bool) :
    l.foldl (fun inside e => if p e then !inside else inside) inside =
      (inside ^^ decide (l.countP p % 2 = 1)) := by
  induction l generalizing inside with
  | nil => simp
  | cons e l ih =>
    rw [List.foldl_cons, ih, List.countP_cons]
    have hmod := Nat.mod_two_eq_zero_or_one (l.countP p)
    cases hp : p e with
    | false => simp
    | true =>
      rcases hmod with h | h
      · have hnext : (l.countP p + 1) % 2 = 1 := by omega
        simp [h, hnext]
      · have hnext : (l.countP p + 1) % 2 = 0 := by omega
        simp [h, hnext]

variable [IsStrictOrderedRing K]

theorem edgeToleranceMm_pos : (0 : K) < edgeToleranceMm := by
  unfold edgeToleranceMm
  positivity

theorem pointOnSegment_iff : pointOnSegment arith x y a b = true ↔
    (arith.hypot (b.1 - a.1) (b.2 - a.2) ≤ edgeToleranceMm ∧ Near arith x y a) ∨
      OnLong arith x y a b := by
  unfold pointOnSegment
  dsimp only
  split_ifs with hshort hfar
  · have hnot : ¬OnLong arith x y a b := fun h => h.long.not_ge hshort
    simp [hshort, hnot, Near]
  · have hpos := edgeToleranceMm_pos.trans (not_le.mp hshort)
    rw [lt_div_iff₀ hpos] at hfar
    have hnot : ¬OnLong arith x y a b := fun h => h.beside.not_gt hfar
    simp [hshort, hnot]
  · have hpos := edgeToleranceMm_pos.trans (not_le.mp hshort)
    rw [lt_div_iff₀ hpos, not_lt] at hfar
    rw [decide_eq_true_eq, le_div_iff₀ hpos, div_le_iff₀ hpos, neg_mul]
    constructor
    · rintro ⟨hbehind, hahead⟩
      exact .inr ⟨not_le.mp hshort, hfar, hbehind, hahead⟩
    · rintro (⟨h, -⟩ | h)
      · exact absurd h hshort
      · exact ⟨h.behind, h.ahead⟩

/-- A long edge is no less wide at its first point than the disc around that. -/
theorem onLong_of_near (hhypot : ExactHypot arith)
    (hlong : edgeToleranceMm < arith.hypot (b.1 - a.1) (b.2 - a.2)) (hnear : Near arith x y a) :
    OnLong arith x y a b := by
  unfold Near at hnear
  have hL := hhypot.nonneg (b.1 - a.1) (b.2 - a.2)
  have hd := hhypot.nonneg (x - a.1) (y - a.2)
  have hL2 := hhypot.square (b.1 - a.1) (b.2 - a.2)
  have hd2 := hhypot.square (x - a.1) (y - a.2)
  have htol := edgeToleranceMm_pos (K := K)
  set L := arith.hypot (b.1 - a.1) (b.2 - a.2)
  set d := arith.hypot (x - a.1) (y - a.2)
  have hdL : d * L ≤ edgeToleranceMm * L := mul_le_mul_of_nonneg_right hnear hL
  -- the two products are the legs of a triangle with the side `d * L`
  have hpythagoras : ((x - a.1) * (b.2 - a.2) - (y - a.2) * (b.1 - a.1)) ^ 2 +
      ((x - a.1) * (b.1 - a.1) + (y - a.2) * (b.2 - a.2)) ^ 2 = (d * L) ^ 2 := by
    rw [mul_pow, pow_two d, pow_two L, hd2, hL2]
    ring
  have hbeside : |(x - a.1) * (b.2 - a.2) - (y - a.2) * (b.1 - a.1)| ≤ d * L := by
    refine abs_le_of_sq_le_sq ?_ (mul_nonneg hd hL)
    linarith [sq_nonneg ((x - a.1) * (b.1 - a.1) + (y - a.2) * (b.2 - a.2))]
  have halong : |(x - a.1) * (b.1 - a.1) + (y - a.2) * (b.2 - a.2)| ≤ d * L := by
    refine abs_le_of_sq_le_sq ?_ (mul_nonneg hd hL)
    linarith [sq_nonneg ((x - a.1) * (b.2 - a.2) - (y - a.2) * (b.1 - a.1))]
  obtain ⟨hlow, hhigh⟩ := abs_le.mp halong
  exact ⟨hlong, hbeside.trans hdL, by linarith, by linarith [mul_self_nonneg L]⟩

theorem hypot_swap (hhypot : ExactHypot arith) (a b : K × K) :
    arith.hypot (a.1 - b.1) (a.2 - b.2) = arith.hypot (b.1 - a.1) (b.2 - a.2) := by
  refine (mul_self_inj_of_nonneg (hhypot.nonneg _ _) (hhypot.nonneg _ _)).mp ?_
  rw [hhypot.square, hhypot.square]
  ring

theorem onLong_swap (hhypot : ExactHypot arith) (h : OnLong arith x y a b) :
    OnLong arith x y b a := by
  obtain ⟨hlong, hbeside, hbehind, hahead⟩ := h
  have hL2 := hhypot.square (b.1 - a.1) (b.2 - a.2)
  have hcross : (x - b.1) * (a.2 - b.2) - (y - b.2) * (a.1 - b.1) =
      -((x - a.1) * (b.2 - a.2) - (y - a.2) * (b.1 - a.1)) := by
    ring
  have hdot : (x - b.1) * (a.1 - b.1) + (y - b.2) * (a.2 - b.2) =
      (b.1 - a.1) * (b.1 - a.1) + (b.2 - a.2) * (b.2 - a.2) -
        ((x - a.1) * (b.1 - a.1) + (y - a.2) * (b.2 - a.2)) := by
    ring
  constructor
  · rwa [hypot_swap hhypot]
  · rwa [hypot_swap hhypot, hcross, abs_neg]
  · rw [hypot_swap hhypot, hdot, ← hL2]
    linarith
  · rw [hypot_swap hhypot, hdot, ← hL2]
    linarith

omit [IsStrictOrderedRing K] in
/-- The ray meets an edge whichever way round it is. -/
theorem crosses_swap (x y : K) (a b : K × K) : crosses x y b a = crosses x y a b := by
  unfold crosses
  by_cases hlevel : decide (y < a.2) = decide (y < b.2)
  · simp [hlevel]
  · have hne : a.2 ≠ b.2 := by
      intro h
      exact hlevel (by rw [h])
    have hba : b.2 - a.2 ≠ 0 := sub_ne_zero.mpr hne.symm
    have hab : a.2 - b.2 ≠ 0 := sub_ne_zero.mpr hne
    have hcrossing : b.1 + (y - b.2) / (a.2 - b.2) * (a.1 - b.1) =
        a.1 + (y - a.2) / (b.2 - a.2) * (b.1 - a.1) := by
      field_simp
      ring
    rw [if_pos (Ne.symm hlevel), if_pos hlevel]
    dsimp only
    rw [hcrossing]

/-- The edges that the ray meets. -/
def crossings (x y : K) (ring : List (K × K)) : ℕ :=
  (edges ring).countP fun e => crosses x y e.1 e.2

/-- The point and the ring pass the checks in front of the test. -/
structure Tested (arith : Arithmetic K) (x y : K) (ring : List (K × K)) : Prop where
  finiteX : arith.isFinite x = true
  finiteY : arith.isFinite y = true
  three : 3 ≤ ring.length
  points : ∀ p ∈ ring, arith.isFinite p.1 = true ∧ arith.isFinite p.2 = true

omit [IsStrictOrderedRing K] in
theorem pointInPolygon_of_tested (h : Tested arith x y ring) : pointInPolygon arith x y ring =
    (((edges ring).any fun e => pointOnSegment arith x y e.1 e.2) ||
      decide (crossings x y ring % 2 = 1)) := by
  have hchecks : ¬(!arith.isFinite x || !arith.isFinite y || decide (ring.length < 3)) = true := by
    simp [h.finiteX, h.finiteY, h.three]
  have hpoints : ¬(ring.any fun p => !arith.isFinite p.1 || !arith.isFinite p.2) = true := by
    rw [Bool.not_eq_true, List.any_eq_false]
    intro p hp
    simp [h.points p hp]
  unfold pointInPolygon
  rw [if_neg hchecks, if_neg hpoints, foldl_toggle, Bool.false_xor]
  split_ifs with hon
  · rw [hon, Bool.true_or]
  · rw [Bool.not_eq_true] at hon
    rw [hon, Bool.false_or]
    rfl

omit [IsStrictOrderedRing K] in
theorem tested_of_pointInPolygon (h : pointInPolygon arith x y ring = true) :
    Tested arith x y ring := by
  unfold pointInPolygon at h
  split_ifs at h with hchecks hpoints
  all_goals
    simp only [Bool.or_eq_true, Bool.not_eq_true', decide_eq_true_eq, not_or, Bool.not_eq_false,
      not_lt] at hchecks
    rw [Bool.not_eq_true, List.any_eq_false] at hpoints
    refine ⟨hchecks.1.1, hchecks.1.2, hchecks.2, fun p hp => ?_⟩
    simpa using hpoints p hp

/-- A point is on an object near a corner, along a long edge or inside. -/
theorem pointInPolygon_iff (hhypot : ExactHypot arith) : pointInPolygon arith x y ring = true ↔
    Tested arith x y ring ∧
    ((∃ p ∈ ring, Near arith x y p) ∨ (∃ e ∈ edges ring, OnLong arith x y e.1 e.2) ∨
      crossings x y ring % 2 = 1) := by
  have hedge : ((edges ring).any fun e => pointOnSegment arith x y e.1 e.2) = true ↔
      (∃ p ∈ ring, Near arith x y p) ∨ ∃ e ∈ edges ring, OnLong arith x y e.1 e.2 := by
    rw [List.any_eq_true]
    have hcorner : (∃ p ∈ ring, Near arith x y p) ↔ ∃ e ∈ edges ring, Near arith x y e.1 := by
      conv_lhs => rw [← edges_fst ring]
      simp only [List.mem_map, exists_exists_and_eq_and]
    rw [hcorner]
    constructor
    · rintro ⟨e, he, hon⟩
      rcases pointOnSegment_iff.mp hon with ⟨-, hnear⟩ | hlong
      · exact .inl ⟨e, he, hnear⟩
      · exact .inr ⟨e, he, hlong⟩
    · rintro (⟨e, he, hnear⟩ | ⟨e, he, hlong⟩)
      · refine ⟨e, he, pointOnSegment_iff.mpr ?_⟩
        by_cases hshort : arith.hypot (e.2.1 - e.1.1) (e.2.2 - e.1.2) ≤ edgeToleranceMm
        · exact .inl ⟨hshort, hnear⟩
        · exact .inr (onLong_of_near hhypot (not_le.mp hshort) hnear)
      · exact ⟨e, he, pointOnSegment_iff.mpr (.inr hlong)⟩
  have hvalue : Tested arith x y ring → (pointInPolygon arith x y ring = true ↔
      (∃ p ∈ ring, Near arith x y p) ∨ (∃ e ∈ edges ring, OnLong arith x y e.1 e.2) ∨
        crossings x y ring % 2 = 1) := by
    intro htested
    rw [pointInPolygon_of_tested htested, Bool.or_eq_true, hedge, decide_eq_true_eq, or_assoc]
  constructor
  · intro h
    have htested := tested_of_pointInPolygon h
    exact ⟨htested, (hvalue htested).mp h⟩
  · rintro ⟨htested, h⟩
    exact (hvalue htested).mpr h

/-- Rings with the same corners and, up to their direction, the same edges hold the same points. -/
theorem pointInPolygon_congr (hhypot : ExactHypot arith) {ring' : List (K × K)}
    (hring : ring'.Perm ring)
    (hedges : (edges ring').Perm (edges ring) ∨ (edges ring').Perm ((edges ring).map Prod.swap)) :
    pointInPolygon arith x y ring' = pointInPolygon arith x y ring := by
  have htested : Tested arith x y ring' ↔ Tested arith x y ring := by
    constructor
    · exact fun h => ⟨h.finiteX, h.finiteY, hring.length_eq ▸ h.three,
        fun p hp => h.points p (hring.mem_iff.mpr hp)⟩
    · exact fun h => ⟨h.finiteX, h.finiteY, hring.length_eq ▸ h.three,
        fun p hp => h.points p (hring.mem_iff.mp hp)⟩
  have hcrossings : crossings x y ring' = crossings x y ring := by
    rcases hedges with hsame | hswapped
    · exact hsame.countP_eq _
    · unfold crossings
      rw [hswapped.countP_eq, List.countP_map]
      refine List.countP_congr fun e _ => ?_
      rw [Function.comp_apply, Prod.fst_swap, Prod.snd_swap, crosses_swap]
  have hlong : (∃ e ∈ edges ring', OnLong arith x y e.1 e.2) ↔
      ∃ e ∈ edges ring, OnLong arith x y e.1 e.2 := by
    rcases hedges with hsame | hswapped
    · simp only [hsame.mem_iff]
    · simp only [hswapped.mem_iff, List.mem_map]
      constructor
      · rintro ⟨-, ⟨e, he, rfl⟩, hon⟩
        exact ⟨e, he, onLong_swap hhypot hon⟩
      · rintro ⟨e, he, hon⟩
        exact ⟨e.swap, ⟨e, he, rfl⟩, onLong_swap hhypot hon⟩
  rw [Bool.eq_iff_iff, pointInPolygon_iff hhypot, pointInPolygon_iff hhypot, htested, hlong,
    hcrossings]
  simp only [hring.mem_iff]

theorem pointInPolygon_rotate (hhypot : ExactHypot arith) (x y : K) (ring : List (K × K)) (n : ℕ) :
    pointInPolygon arith x y (ring.rotate n) = pointInPolygon arith x y ring := by
  refine pointInPolygon_congr hhypot (List.rotate_perm ring n) (.inl ?_)
  rw [edges_rotate]
  exact List.rotate_perm _ n

theorem pointInPolygon_reverse (hhypot : ExactHypot arith) (x y : K) (ring : List (K × K)) :
    pointInPolygon arith x y ring.reverse = pointInPolygon arith x y ring :=
  pointInPolygon_congr hhypot (List.reverse_perm ring) (.inr (edges_reverse ring))

end Membership

section Box

variable {K : Type} [LinearOrder K]

/-- An axis-parallel box. -/
structure Box (K : Type) where
  left : K
  right : K
  bottom : K
  top : K

def Box.corners (box : Box K) : List (K × K) :=
  [(box.left, box.bottom), (box.right, box.bottom), (box.right, box.top), (box.left, box.top)]

/-- The box reaches exactly as far as the points. -/
structure Box.Around (box : Box K) (ring : List (K × K)) : Prop where
  inside : ∀ p ∈ ring, box.left ≤ p.1 ∧ p.1 ≤ box.right ∧ box.bottom ≤ p.2 ∧ p.2 ≤ box.top
  left : ∃ p ∈ ring, p.1 = box.left
  right : ∃ p ∈ ring, p.1 = box.right
  bottom : ∃ p ∈ ring, p.2 = box.bottom
  top : ∃ p ∈ ring, p.2 = box.top

omit [LinearOrder K] in
theorem foldl_pair (op : K → K → K) (points : List (K × K)) (p : K × K) :
    points.foldl (fun q r => (op q.1 r.1, op q.2 r.2)) p =
      ((points.map Prod.fst).foldl op p.1, (points.map Prod.snd).foldl op p.2) := by
  induction points generalizing p with
  | nil => rfl
  | cons q points ih => simp only [List.foldl_cons, List.map_cons, ih]

theorem boundingBox_around {ring : List (K × K)} (hne : ring ≠ []) :
    ∃ box : Box K, boundingBox ring = box.corners ∧ box.Around ring := by
  obtain ⟨p, points, rfl⟩ := List.exists_cons_of_ne_nil hne
  obtain ⟨hleft, hleftAll⟩ := Median.foldl_min_spec p.1 (points.map Prod.fst)
  obtain ⟨hright, hrightAll⟩ := Median.foldl_max_spec p.1 (points.map Prod.fst)
  obtain ⟨hbottom, hbottomAll⟩ := Median.foldl_min_spec p.2 (points.map Prod.snd)
  obtain ⟨htop, htopAll⟩ := Median.foldl_max_spec p.2 (points.map Prod.snd)
  rw [← List.map_cons] at hleft hright hbottom htop
  refine ⟨⟨(points.map Prod.fst).foldl min p.1, (points.map Prod.fst).foldl max p.1,
    (points.map Prod.snd).foldl min p.2, (points.map Prod.snd).foldl max p.2⟩, ?_, ?_⟩
  · simp only [boundingBox, foldl_pair min, foldl_pair max]
    rfl
  · refine ⟨fun q hq => ?_, List.mem_map.mp hleft, List.mem_map.mp hright, List.mem_map.mp hbottom,
      List.mem_map.mp htop⟩
    have hfst : q.1 ∈ p.1 :: points.map Prod.fst := List.mem_map_of_mem hq
    have hsnd : q.2 ∈ p.2 :: points.map Prod.snd := List.mem_map_of_mem hq
    exact ⟨hleftAll _ hfst, hrightAll _ hfst, hbottomAll _ hsnd, htopAll _ hsnd⟩

end Box

section Inside

variable {K : Type} [LinearOrder K] {x y : K} {a b : K × K}

/-- The edge leads from below the ray to above it, or back. -/
def straddles (y : K) (a b : K × K) : Bool := decide (y < a.2) ≠ decide (y < b.2)

/-- Along a way the ray is passed as often as it takes to come to the side of its end. -/
theorem straddles_path (y : K) (l : List (K × K)) (p q : K × K) :
    (((p :: l).zip (l ++ [q])).countP fun e => straddles y e.1 e.2) % 2 =
      if decide (y < p.2) = decide (y < q.2) then 0 else 1 := by
  induction l generalizing p with
  | nil =>
    by_cases h : decide (y < p.2) = decide (y < q.2)
    · simp [straddles, h]
    · simp [straddles, h]
  | cons r l ih =>
    have htail := ih r
    have hfirst : straddles y p r = (decide (y < p.2) ^^ decide (y < r.2)) := by
      unfold straddles
      cases decide (y < p.2) <;> cases decide (y < r.2) <;> rfl
    rw [List.cons_append, List.zip_cons_cons, List.countP_cons, hfirst]
    generalize ((r :: l).zip (l ++ [q])).countP (fun e => straddles y e.1 e.2) = n at htail ⊢
    generalize decide (y < p.2) = s, decide (y < r.2) = t, decide (y < q.2) = u at htail ⊢
    cases s <;> cases t <;> cases u <;> simp at htail ⊢ <;> omega

theorem straddles_even (y : K) (ring : List (K × K)) :
    ((edges ring).countP fun e => straddles y e.1 e.2) % 2 = 0 := by
  cases ring with
  | nil => rfl
  | cons p l =>
    have hpath := straddles_path y l p p
    rw [if_pos rfl] at hpath
    unfold edges
    rwa [List.rotate_cons_succ, List.rotate_zero]

variable [Field K]

/-- Where the edge meets the height of the ray. -/
def crossing (y : K) (a b : K × K) : K := a.1 + (y - a.2) / (b.2 - a.2) * (b.1 - a.1)

theorem crosses_eq : crosses x y a b = (straddles y a b && decide (x < crossing y a b)) := by
  unfold crosses straddles crossing
  by_cases h : decide (y < a.2) = decide (y < b.2)
  · simp [h]
  · rw [if_pos h]
    simp [h]

/-- Inside a ring there are edges on both sides. -/
theorem edges_beside {ring : List (K × K)} (hodd : crossings x y ring % 2 = 1) :
    (∃ e ∈ edges ring, straddles y e.1 e.2 = true ∧ x < crossing y e.1 e.2) ∧
      ∃ e ∈ edges ring, straddles y e.1 e.2 = true ∧ crossing y e.1 e.2 ≤ x := by
  have hsplit : ((edges ring).countP fun e => straddles y e.1 e.2) =
      crossings x y ring +
        (edges ring).countP fun e => straddles y e.1 e.2 && !decide (x < crossing y e.1 e.2) := by
    unfold crossings
    simp only [crosses_eq]
    induction edges ring with
    | nil => rfl
    | cons e l ih =>
      simp only [List.countP_cons, ih]
      cases straddles y e.1 e.2 <;> cases decide (x < crossing y e.1 e.2) <;> simp <;> omega
  have heven := straddles_even y ring
  constructor
  · have hpos : 0 < crossings x y ring := by omega
    obtain ⟨e, he, hcrosses⟩ := List.countP_pos_iff.mp hpos
    rw [crosses_eq, Bool.and_eq_true, decide_eq_true_eq] at hcrosses
    exact ⟨e, he, hcrosses⟩
  · have hpos : 0 < (edges ring).countP fun e =>
        straddles y e.1 e.2 && !decide (x < crossing y e.1 e.2) := by
      omega
    obtain ⟨e, he, hbehind⟩ := List.countP_pos_iff.mp hpos
    rw [Bool.and_eq_true, Bool.not_eq_true', decide_eq_false_iff_not, not_lt] at hbehind
    exact ⟨e, he, hbehind⟩

variable [IsStrictOrderedRing K]

/-- A part of the way from one number of an interval to another stays in the interval. -/
theorem between_of_part {lo hi u v t : K} (hu : lo ≤ u ∧ u ≤ hi) (hv : lo ≤ v ∧ v ≤ hi)
    (ht : 0 ≤ t ∧ t ≤ 1) : lo ≤ u + t * (v - u) ∧ u + t * (v - u) ≤ hi := by
  have hparts : u + t * (v - u) = (1 - t) * u + t * v := by ring
  have hrest : 0 ≤ 1 - t := by linarith [ht.2]
  rw [hparts]
  constructor
  · calc lo = (1 - t) * lo + t * lo := by ring
      _ ≤ (1 - t) * u + t * v :=
        add_le_add (mul_le_mul_of_nonneg_left hu.1 hrest) (mul_le_mul_of_nonneg_left hv.1 ht.1)
  · calc (1 - t) * u + t * v ≤ (1 - t) * hi + t * hi :=
        add_le_add (mul_le_mul_of_nonneg_left hu.2 hrest) (mul_le_mul_of_nonneg_left hv.2 ht.1)
      _ = hi := by ring

/-- An edge meets the ray between its ends. -/
theorem crossing_between {box : Box K} {ring : List (K × K)} (haround : box.Around ring)
    (ha : a ∈ ring) (hb : b ∈ ring) (hstraddles : straddles y a b = true) :
    box.left ≤ crossing y a b ∧ crossing y a b ≤ box.right ∧ box.bottom ≤ y ∧ y < box.top := by
  obtain ⟨haLeft, haRight, haBottom, haTop⟩ := haround.inside a ha
  obtain ⟨hbLeft, hbRight, hbBottom, hbTop⟩ := haround.inside b hb
  have hne : decide (y < a.2) ≠ decide (y < b.2) := of_decide_eq_true hstraddles
  have hsides : (a.2 ≤ y ∧ y < b.2) ∨ (b.2 ≤ y ∧ y < a.2) := by
    by_cases hay : y < a.2
    · refine .inr ⟨?_, hay⟩
      by_contra hby
      exact hne (by rw [decide_eq_true hay, decide_eq_true (not_le.mp hby)])
    · refine .inl ⟨not_lt.mp hay, ?_⟩
      by_contra hby
      exact hne (by rw [decide_eq_false hay, decide_eq_false hby])
  have ht : 0 ≤ (y - a.2) / (b.2 - a.2) ∧ (y - a.2) / (b.2 - a.2) ≤ 1 := by
    rcases hsides with ⟨hlow, hhigh⟩ | ⟨hlow, hhigh⟩
    · have hpos : 0 < b.2 - a.2 := by linarith
      exact ⟨div_nonneg (by linarith) hpos.le, (div_le_one hpos).mpr (by linarith)⟩
    · have hneg : b.2 - a.2 < 0 := by linarith
      exact ⟨div_nonneg_of_nonpos (by linarith) hneg.le, (div_le_one_of_neg hneg).mpr (by linarith)⟩
  obtain ⟨hleft, hright⟩ := between_of_part ⟨haLeft, haRight⟩ ⟨hbLeft, hbRight⟩ ht
  refine ⟨hleft, hright, ?_, ?_⟩
  · rcases hsides with h | h <;> linarith [h.1]
  · rcases hsides with h | h <;> linarith [h.2]

/-- What is inside a ring is inside its box, and not on the right or the top of it. -/
theorem inside_box {box : Box K} {ring : List (K × K)} (haround : box.Around ring)
    (hodd : crossings x y ring % 2 = 1) :
    box.left ≤ x ∧ x < box.right ∧ box.bottom ≤ y ∧ y < box.top := by
  obtain ⟨⟨e, he, hstraddles, hright⟩, e', he', hstraddles', hleft⟩ := edges_beside hodd
  have hends : ∀ e ∈ edges ring, e.1 ∈ ring ∧ e.2 ∈ ring := by
    intro e he
    obtain ⟨h1, h2⟩ := List.of_mem_zip he
    exact ⟨h1, List.mem_rotate.mp h2⟩
  obtain ⟨-, hr, hbottom, htop⟩ :=
    crossing_between haround (hends e he).1 (hends e he).2 hstraddles
  obtain ⟨hl, -, -, -⟩ := crossing_between haround (hends e' he').1 (hends e' he').2 hstraddles'
  exact ⟨hl.trans hleft, hright.trans_le hr, hbottom, htop⟩

end Inside

section Bands

variable {K : Type} [Field K] [LinearOrder K] [IsStrictOrderedRing K] {arith : Arithmetic K}
  {x y : K} {a b : K × K} {box : Box K} {ring : List (K × K)}

/-- The box, wider by `d` on each side, holds the point. -/
structure Box.Holds (box : Box K) (d x y : K) : Prop where
  left : box.left - d ≤ x
  right : x ≤ box.right + d
  bottom : box.bottom - d ≤ y
  top : y ≤ box.top + d

theorem holds_of_beside {d : K} (h : box.Holds 0 a.1 a.2) (hx : |x - a.1| ≤ d) (hy : |y - a.2| ≤ d) :
    box.Holds d x y := by
  obtain ⟨hleft, hright, hbottom, htop⟩ := h
  obtain ⟨hx1, hx2⟩ := abs_le.mp hx
  obtain ⟨hy1, hy2⟩ := abs_le.mp hy
  constructor <;> linarith

theorem Box.Around.holds (h : box.Around ring) (ha : a ∈ ring) : box.Holds 0 a.1 a.2 := by
  obtain ⟨hleft, hright, hbottom, htop⟩ := h.inside a ha
  constructor <;> linarith

/-- A vector is no longer than its length in either direction. -/
theorem abs_le_hypot (hhypot : ExactHypot arith) (u v : K) :
    |u| ≤ arith.hypot u v ∧ |v| ≤ arith.hypot u v := by
  have hsquare := hhypot.square u v
  have hnonneg := hhypot.nonneg u v
  constructor
  · refine abs_le_of_sq_le_sq ?_ hnonneg
    nlinarith [mul_self_nonneg v]
  · refine abs_le_of_sq_le_sq ?_ hnonneg
    nlinarith [mul_self_nonneg u]

theorem holds_of_near (hhypot : ExactHypot arith) (haround : box.Around ring) (ha : a ∈ ring)
    (hnear : Near arith x y a) : box.Holds edgeToleranceMm x y := by
  obtain ⟨hx, hy⟩ := abs_le_hypot hhypot (x - a.1) (y - a.2)
  exact holds_of_beside (haround.holds ha) (hx.trans hnear) (hy.trans hnear)

/-- A part of a vector and a part of the one across it are together no longer than both parts. -/
theorem abs_combination_le (hhypot : ExactHypot arith) {o c tol u v L : K} (hL : 0 < L)
    (hsquare : L * L = u * u + v * v) (ho : |o| ≤ tol) (hc : |c| ≤ tol) :
    |(o * u + c * v) / L| ≤ arith.hypot tol tol := by
  have hD := hhypot.square tol tol
  have ho2 : o ^ 2 ≤ tol ^ 2 := sq_le_sq' (abs_le.mp ho).1 (abs_le.mp ho).2
  have hc2 : c ^ 2 ≤ tol ^ 2 := sq_le_sq' (abs_le.mp hc).1 (abs_le.mp hc).2
  have hcauchy : (o * u + c * v) ^ 2 ≤ (o ^ 2 + c ^ 2) * (L * L) := by
    rw [hsquare]
    nlinarith [sq_nonneg (o * v - c * u)]
  refine abs_le_of_sq_le_sq ?_ (hhypot.nonneg _ _)
  rw [div_pow, div_le_iff₀ (by positivity)]
  nlinarith [mul_self_nonneg L]

/-- Along a long edge the point is beside some point of the edge. -/
theorem beside_of_onLong (hhypot : ExactHypot arith) (h : OnLong arith x y a b) :
    ∃ s, 0 ≤ s ∧ s ≤ 1 ∧
      |x - (a.1 + s * (b.1 - a.1))| ≤ arith.hypot edgeToleranceMm edgeToleranceMm ∧
      |y - (a.2 + s * (b.2 - a.2))| ≤ arith.hypot edgeToleranceMm edgeToleranceMm := by
  obtain ⟨hlong, hbeside, hbehind, hahead⟩ := h
  have hsquare := hhypot.square (b.1 - a.1) (b.2 - a.2)
  have hL := edgeToleranceMm_pos.trans hlong
  have htol := (edgeToleranceMm_pos (K := K)).le
  set L := arith.hypot (b.1 - a.1) (b.2 - a.2)
  obtain ⟨dot, hdot⟩ : ∃ dot, dot = (x - a.1) * (b.1 - a.1) + (y - a.2) * (b.2 - a.2) := ⟨_, rfl⟩
  obtain ⟨cross, hcross⟩ : ∃ cross, cross = (x - a.1) * (b.2 - a.2) - (y - a.2) * (b.1 - a.1) :=
    ⟨_, rfl⟩
  rw [← hdot] at hbehind hahead
  rw [← hcross] at hbeside
  -- the foot of the point, kept between the ends of the edge
  obtain ⟨σ, hσ0, hσL, hoff⟩ : ∃ σ, 0 ≤ σ ∧ σ ≤ L ∧ |dot / L - σ| ≤ edgeToleranceMm := by
    have hlow : -edgeToleranceMm ≤ dot / L := by
      rw [le_div_iff₀ hL]
      linarith
    have hhigh : dot / L ≤ L + edgeToleranceMm := (div_le_iff₀ hL).mpr hahead
    refine ⟨max 0 (min L (dot / L)), le_max_left _ _, max_le hL.le (min_le_left _ _), ?_⟩
    rw [abs_le]
    rcases le_total L (dot / L) with h | h
    · rw [min_eq_left h, max_eq_right hL.le]
      constructor <;> linarith
    · rw [min_eq_right h]
      rcases le_total 0 (dot / L) with h0 | h0
      · rw [max_eq_right h0]
        constructor <;> linarith
      · rw [max_eq_left h0]
        constructor <;> linarith
  have hacross : |cross / L| ≤ edgeToleranceMm := by
    rw [abs_div, abs_of_pos hL, div_le_iff₀ hL]
    exact hbeside
  have hL2 : L ^ 2 ≠ 0 := by positivity
  refine ⟨σ / L, div_nonneg hσ0 hL.le, (div_le_one hL).mpr hσL, ?_, ?_⟩
  · have hx : x - (a.1 + σ / L * (b.1 - a.1)) =
        ((dot / L - σ) * (b.1 - a.1) + cross / L * (b.2 - a.2)) / L := by
      have hexpand : (x - a.1) * (L * L) = dot * (b.1 - a.1) + cross * (b.2 - a.2) := by
        rw [hsquare, hdot, hcross]
        ring
      field_simp
      linarith
    rw [hx]
    exact abs_combination_le hhypot hL hsquare hoff hacross
  · have hy : y - (a.2 + σ / L * (b.2 - a.2)) =
        ((dot / L - σ) * (b.2 - a.2) + -(cross / L) * (b.1 - a.1)) / L := by
      have hexpand : (y - a.2) * (L * L) = dot * (b.2 - a.2) - cross * (b.1 - a.1) := by
        rw [hsquare, hdot, hcross]
        ring
      field_simp
      linarith
    rw [hy]
    exact abs_combination_le hhypot hL (by rw [hsquare]; ring) hoff (by rwa [abs_neg])

end Bands

section Corners

variable {K : Type} [Field K] [LinearOrder K] [IsStrictOrderedRing K] {arith : Arithmetic K}
  {x y : K} {box : Box K}

theorem hypot_level (hhypot : ExactHypot arith) {u : K} (hu : 0 ≤ u) :
    arith.hypot u 0 = u ∧ arith.hypot 0 u = u := by
  constructor <;> refine (mul_self_inj_of_nonneg (hhypot.nonneg _ _) hu).mp ?_
  · rw [hhypot.square, mul_zero, add_zero]
  · rw [hhypot.square, mul_zero, zero_add]

theorem onLong_level (hhypot : ExactHypot arith) {s e c : K} (h : edgeToleranceMm < e - s) :
    OnLong arith x y (s, c) (e, c) ↔
      |y - c| ≤ edgeToleranceMm ∧ s - edgeToleranceMm ≤ x ∧ x ≤ e + edgeToleranceMm := by
  have hpos := edgeToleranceMm_pos.trans h
  have hlength : arith.hypot (e - s) (c - c) = e - s := by
    rw [sub_self]
    exact (hypot_level hhypot hpos.le).1
  have hbeside : |(x - s) * (c - c) - (y - c) * (e - s)| = |y - c| * (e - s) := by
    rw [sub_self, mul_zero, zero_sub, abs_neg, abs_mul, abs_of_pos hpos]
  have halong : (x - s) * (e - s) + (y - c) * (c - c) = (x - s) * (e - s) := by
    rw [sub_self, mul_zero, add_zero]
  constructor
  · rintro ⟨-, hside, hbehind, hahead⟩
    dsimp only at hside hbehind hahead
    rw [hlength, hbeside] at hside
    rw [hlength, halong, ← neg_mul] at hbehind
    rw [hlength, halong] at hahead
    have hx1 := le_of_mul_le_mul_right hbehind hpos
    have hx2 := le_of_mul_le_mul_right hahead hpos
    exact ⟨le_of_mul_le_mul_right hside hpos, by linarith, by linarith⟩
  · rintro ⟨hside, hbehind, hahead⟩
    constructor <;> dsimp only
    · rwa [hlength]
    · rw [hlength, hbeside]
      exact mul_le_mul_of_nonneg_right hside hpos.le
    · rw [hlength, halong, ← neg_mul]
      exact mul_le_mul_of_nonneg_right (by linarith) hpos.le
    · rw [hlength, halong]
      exact mul_le_mul_of_nonneg_right (by linarith) hpos.le

/-- The edge with the two directions exchanged. -/
theorem onLong_transpose (hhypot : ExactHypot arith) {a b : K × K} :
    OnLong arith x y a b ↔ OnLong arith y x a.swap b.swap := by
  have hlength : arith.hypot (b.2 - a.2) (b.1 - a.1) = arith.hypot (b.1 - a.1) (b.2 - a.2) := by
    refine (mul_self_inj_of_nonneg (hhypot.nonneg _ _) (hhypot.nonneg _ _)).mp ?_
    rw [hhypot.square, hhypot.square, add_comm]
  have hside : (y - a.2) * (b.1 - a.1) - (x - a.1) * (b.2 - a.2) =
      -((x - a.1) * (b.2 - a.2) - (y - a.2) * (b.1 - a.1)) := by
    ring
  have halong := add_comm ((x - a.1) * (b.1 - a.1)) ((y - a.2) * (b.2 - a.2))
  constructor
  · rintro ⟨h1, h2, h3, h4⟩
    constructor <;> simp only [Prod.fst_swap, Prod.snd_swap, hlength, hside, abs_neg, ← halong] <;>
      assumption
  · rintro ⟨h1, h2, h3, h4⟩
    simp only [Prod.fst_swap, Prod.snd_swap, hlength, hside, abs_neg, ← halong] at h1 h2 h3 h4
    exact ⟨h1, h2, h3, h4⟩

theorem onLong_upright (hhypot : ExactHypot arith) {s e c : K} (h : edgeToleranceMm < e - s) :
    OnLong arith x y (c, s) (c, e) ↔
      |x - c| ≤ edgeToleranceMm ∧ s - edgeToleranceMm ≤ y ∧ y ≤ e + edgeToleranceMm := by
  rw [onLong_transpose hhypot]
  exact onLong_level hhypot h

/-- The box has no less than no size. -/
structure Box.Proper (box : Box K) : Prop where
  level : box.left ≤ box.right
  upright : box.bottom ≤ box.top

/-- One of the sides is long enough for an edge. -/
def Box.Wide (box : Box K) : Prop :=
  edgeToleranceMm < box.right - box.left ∨ edgeToleranceMm < box.top - box.bottom

omit [Field K] [IsStrictOrderedRing K] in
theorem Box.Around.proper {ring : List (K × K)} (h : box.Around ring) : box.Proper := by
  obtain ⟨p, hp, -⟩ := h.left
  obtain ⟨h1, h2, h3, h4⟩ := h.inside p hp
  exact ⟨h1.trans h2, h3.trans h4⟩

omit [Field K] [IsStrictOrderedRing K] in
theorem Box.Proper.around (h : box.Proper) : box.Around box.corners := by
  obtain ⟨hlevel, hupright⟩ := h
  constructor <;> simp [Box.corners, hlevel, hupright]

omit [LinearOrder K] [Field K] [IsStrictOrderedRing K] in
theorem edges_corners (box : Box K) : edges box.corners =
    [((box.left, box.bottom), (box.right, box.bottom)),
      ((box.right, box.bottom), (box.right, box.top)),
      ((box.right, box.top), (box.left, box.top)),
      ((box.left, box.top), (box.left, box.bottom))] := rfl

omit [IsStrictOrderedRing K] in
/-- The ray crosses the right side alone. -/
theorem crossings_corners (hx : box.left ≤ x ∧ x < box.right)
    (hy : box.bottom ≤ y ∧ y < box.top) : crossings x y box.corners = 1 := by
  unfold crossings
  rw [edges_corners]
  simp [crosses_eq, straddles, crossing, hx.1.not_gt, hx.2, hy.1.not_gt, hy.2]

/-- A number in a widened interval is near one of its ends or between them. -/
theorem banded {s e v : K} (hs : s - edgeToleranceMm ≤ v) (he : v ≤ e + edgeToleranceMm) :
    (|v - s| ≤ edgeToleranceMm ∨ |v - e| ≤ edgeToleranceMm) ∨
      edgeToleranceMm < e - s ∧ s ≤ v ∧ v < e := by
  have htol := edgeToleranceMm_pos (K := K)
  by_cases hlow : v ≤ s + edgeToleranceMm
  · exact .inl (.inl (abs_le.mpr ⟨by linarith, by linarith⟩))
  · by_cases hhigh : e - edgeToleranceMm ≤ v
    · exact .inl (.inr (abs_le.mpr ⟨by linarith, by linarith⟩))
    · rw [not_le] at hlow hhigh
      exact .inr ⟨by linarith, by linarith, by linarith⟩

/-- A box that is long in some direction holds all points of the box around it. -/
theorem onLong_corners (hhypot : ExactHypot arith) (hwide : box.Wide)
    (h : box.Holds edgeToleranceMm x y) :
    (∃ e ∈ edges box.corners, OnLong arith x y e.1 e.2) ∨
      (box.left ≤ x ∧ x < box.right) ∧ (box.bottom ≤ y ∧ y < box.top) := by
  obtain ⟨hleft, hright, hbottom, htop⟩ := h
  rw [edges_corners]
  have hlevel : edgeToleranceMm < box.right - box.left →
      |y - box.bottom| ≤ edgeToleranceMm ∨ |y - box.top| ≤ edgeToleranceMm →
      ∃ e ∈ edges box.corners, OnLong arith x y e.1 e.2 := by
    rintro hlong (hy | hy)
    · exact ⟨_, .head _, (onLong_level hhypot hlong).mpr ⟨hy, hleft, hright⟩⟩
    · exact ⟨_, .tail _ (.tail _ (.head _)),
        onLong_swap hhypot ((onLong_level hhypot hlong).mpr ⟨hy, hleft, hright⟩)⟩
  have hupright : edgeToleranceMm < box.top - box.bottom →
      |x - box.left| ≤ edgeToleranceMm ∨ |x - box.right| ≤ edgeToleranceMm →
      ∃ e ∈ edges box.corners, OnLong arith x y e.1 e.2 := by
    rintro hlong (hx | hx)
    · exact ⟨_, .tail _ (.tail _ (.tail _ (.head _))),
        onLong_swap hhypot ((onLong_upright hhypot hlong).mpr ⟨hx, hbottom, htop⟩)⟩
    · exact ⟨_, .tail _ (.head _), (onLong_upright hhypot hlong).mpr ⟨hx, hbottom, htop⟩⟩
  rcases banded hleft hright with hx | ⟨hlong, hx⟩
  · rcases banded hbottom htop with hy | ⟨hlong, -⟩
    · rcases hwide with hwide | hwide
      · exact .inl (hlevel hwide hy)
      · exact .inl (hupright hwide hx)
    · exact .inl (hupright hlong hx)
  · rcases banded hbottom htop with hy | ⟨-, hy⟩
    · exact .inl (hlevel hlong hy)
    · exact .inr ⟨hx, hy⟩

/-- A box that is long in no direction is small enough for its corners to hold it. -/
theorem near_corners (hhypot : ExactHypot arith) (hwide : ¬box.Wide) (h : box.Holds 0 x y) :
    (∃ p ∈ box.corners, Near arith x y p) ∨
      (box.left ≤ x ∧ x < box.right) ∧ (box.bottom ≤ y ∧ y < box.top) := by
  obtain ⟨hleft, hright, hbottom, htop⟩ := h
  simp only [Box.Wide, not_or, not_lt] at hwide
  rw [sub_zero] at hleft hbottom
  rw [add_zero] at hright htop
  rcases hright.lt_or_eq with hx | hx
  · rcases htop.lt_or_eq with hy | hy
    · exact .inr ⟨⟨hleft, hx⟩, hbottom, hy⟩
    · refine .inl ⟨_, .tail _ (.tail _ (.tail _ (.head _))), ?_⟩
      simp only [Near, hy, sub_self, (hypot_level hhypot (sub_nonneg.mpr hleft)).1]
      linarith
  · refine .inl ⟨_, .tail _ (.head _), ?_⟩
    simp only [Near, hx, sub_self, (hypot_level hhypot (sub_nonneg.mpr hbottom)).2]
    linarith

theorem holds_mono {d d' : K} (hd : d ≤ d') (h : box.Holds d x y) : box.Holds d' x y := by
  obtain ⟨hleft, hright, hbottom, htop⟩ := h
  constructor <;> linarith

theorem holds_of_onLong (hhypot : ExactHypot arith) (hproper : box.Proper)
    (h : ∃ e ∈ edges box.corners, OnLong arith x y e.1 e.2) :
    box.Wide ∧ box.Holds edgeToleranceMm x y := by
  obtain ⟨hlevel, hupright⟩ := hproper
  have hlevelEdge : ∀ c, box.bottom ≤ c → c ≤ box.top →
      OnLong arith x y (box.left, c) (box.right, c) →
      box.Wide ∧ box.Holds edgeToleranceMm x y := by
    intro c hbottom htop hon
    have hlong := hon.long
    simp only [sub_self, (hypot_level hhypot (sub_nonneg.mpr hlevel)).1] at hlong
    obtain ⟨hside, hleft, hright⟩ := (onLong_level hhypot hlong).mp hon
    obtain ⟨hlow, hhigh⟩ := abs_le.mp hside
    exact ⟨.inl hlong, hleft, hright, by linarith, by linarith⟩
  have huprightEdge : ∀ c, box.left ≤ c → c ≤ box.right →
      OnLong arith x y (c, box.bottom) (c, box.top) →
      box.Wide ∧ box.Holds edgeToleranceMm x y := by
    intro c hleft hright hon
    have hlong := hon.long
    simp only [sub_self, (hypot_level hhypot (sub_nonneg.mpr hupright)).2] at hlong
    obtain ⟨hside, hbottom, htop⟩ := (onLong_upright hhypot hlong).mp hon
    obtain ⟨hlow, hhigh⟩ := abs_le.mp hside
    exact ⟨.inr hlong, by linarith, by linarith, hbottom, htop⟩
  obtain ⟨e, he, hon⟩ := h
  rw [edges_corners] at he
  simp only [List.mem_cons, List.not_mem_nil, or_false] at he
  rcases he with rfl | rfl | rfl | rfl
  · exact hlevelEdge _ le_rfl hupright hon
  · exact huprightEdge _ hlevel le_rfl hon
  · exact hlevelEdge _ hupright le_rfl (onLong_swap hhypot hon)
  · exact huprightEdge _ le_rfl hlevel (onLong_swap hhypot hon)

/-- The points that a box holds. -/
theorem corners_iff (hhypot : ExactHypot arith) (hproper : box.Proper) :
    pointInPolygon arith x y box.corners = true ↔ Tested arith x y box.corners ∧
      (box.Holds 0 x y ∨ box.Wide ∧ box.Holds edgeToleranceMm x y ∨
        ∃ p ∈ box.corners, Near arith x y p) := by
  rw [pointInPolygon_iff hhypot]
  refine and_congr_right fun _ => ?_
  constructor
  · rintro (hnear | ⟨e, he, hon⟩ | hodd)
    · exact .inr (.inr hnear)
    · exact .inr (.inl (holds_of_onLong hhypot hproper ⟨e, he, hon⟩))
    · obtain ⟨h1, h2, h3, h4⟩ := inside_box hproper.around hodd
      refine .inl ⟨?_, ?_, ?_, ?_⟩ <;> linarith
  · have hinside : (box.left ≤ x ∧ x < box.right) ∧ (box.bottom ≤ y ∧ y < box.top) →
        crossings x y box.corners % 2 = 1 := by
      rintro ⟨hx, hy⟩
      rw [crossings_corners hx hy]
    rintro (hholds | ⟨hwide, hholds⟩ | hnear)
    · by_cases hwide : box.Wide
      · rcases onLong_corners hhypot hwide (holds_mono edgeToleranceMm_pos.le hholds) with hon | hin
        · exact .inr (.inl hon)
        · exact .inr (.inr (hinside hin))
      · rcases near_corners hhypot hwide hholds with hnear | hin
        · exact .inl hnear
        · exact .inr (.inr (hinside hin))
    · rcases onLong_corners hhypot hwide hholds with hon | hin
      · exact .inr (.inl hon)
      · exact .inr (.inr (hinside hin))
    · exact .inl hnear

theorem holds_of_corners (hhypot : ExactHypot arith) (hproper : box.Proper)
    (h : pointInPolygon arith x y box.corners = true) : box.Holds edgeToleranceMm x y := by
  rcases ((corners_iff hhypot hproper).mp h).2 with hin | ⟨-, hband⟩ | ⟨p, hp, hnear⟩
  · exact holds_mono edgeToleranceMm_pos.le hin
  · exact hband
  · exact holds_of_near hhypot hproper.around hp hnear

end Corners

section Journal

/-- The outline that is kept for the ring. -/
def normalized {K : Type} [LinearOrder K] (ring : List (K × K)) : List (K × K) :=
  if Wal.maxPolygonPoints < ring.length then boundingBox ring else ring

/-- A point as the journal has it. -/
def journaled (p : ℚ × ℚ) : Wal.Point := (.fin p.1, .fin p.2)

theorem foldl_journaled (points : List (ℚ × ℚ)) (lo hi : ℚ × ℚ) :
    (points.map journaled).foldl (fun (box : Wal.Point × Wal.Point) (p : Wal.Point) =>
        ((F64.min box.1.1 p.1, F64.min box.1.2 p.2), (F64.max box.2.1 p.1, F64.max box.2.2 p.2)))
        (journaled lo, journaled hi) =
      (journaled (points.foldl (fun lo q => (min lo.1 q.1, min lo.2 q.2)) lo),
        journaled (points.foldl (fun hi q => (max hi.1 q.1, max hi.2 q.2)) hi)) := by
  induction points generalizing lo hi with
  | nil => rfl
  | cons p points ih =>
    rw [List.map_cons, List.foldl_cons, List.foldl_cons, List.foldl_cons, ← ih]
    simp only [journaled, F64.min_fin, F64.max_fin]

theorem boundingBox_journaled {ring : List (ℚ × ℚ)} (hne : ring ≠ []) :
    Wal.boundingBox (ring.map journaled) = (boundingBox ring).map journaled := by
  obtain ⟨p, points, rfl⟩ := List.exists_cons_of_ne_nil hne
  -- the first point takes the place of the infinities
  have hfirst : Wal.boundingBox ((p :: points).map journaled) =
      let box := (points.map journaled).foldl (fun (box : Wal.Point × Wal.Point) p =>
        ((F64.min box.1.1 p.1, F64.min box.1.2 p.2), (F64.max box.2.1 p.1, F64.max box.2.2 p.2)))
        (journaled p, journaled p)
      [(box.1.1, box.1.2), (box.2.1, box.1.2), (box.2.1, box.2.2), (box.1.1, box.2.2)] := rfl
  rw [hfirst, foldl_journaled]
  rfl

/-- The journal keeps this outline of a ring. -/
theorem normalizePolygon_journaled {ring : List (ℚ × ℚ)} (hring : 3 ≤ ring.length) :
    (Wal.normalizePolygon (some (.ok (ring.map journaled)))).1 =
      (normalized ring).map journaled := by
  have hne : ring ≠ [] := by
    rintro rfl
    simp at hring
  have hfinite : ((ring.map journaled).any fun p => !Wal.Point.isFinite p) = false := by
    simp [journaled, Wal.Point.isFinite]
  unfold Wal.normalizePolygon normalized
  simp only [hfinite, List.length_map, Bool.false_or, decide_eq_true_eq, hring.not_gt, if_false]
  split_ifs
  · exact boundingBox_journaled hne
  · rfl

end Journal

section Normalized

variable {K : Type} [Field K] [LinearOrder K] {arith : Arithmetic K} {x y : K} {box : Box K}
  {ring : List (K × K)}

omit [Field K] in
theorem tested_corners (haround : box.Around ring) (h : Tested arith x y ring) :
    Tested arith x y box.corners := by
  obtain ⟨l, hl, hleft⟩ := haround.left
  obtain ⟨r, hr, hright⟩ := haround.right
  obtain ⟨b, hb, hbottom⟩ := haround.bottom
  obtain ⟨t, ht, htop⟩ := haround.top
  refine ⟨h.finiteX, h.finiteY, by simp [Box.corners], ?_⟩
  have hl := (h.points l hl).1
  have hr := (h.points r hr).1
  have hb := (h.points b hb).2
  have ht := (h.points t ht).2
  rw [hleft] at hl
  rw [hright] at hr
  rw [hbottom] at hb
  rw [htop] at ht
  simp [Box.corners, hl, hr, hb, ht]

variable [IsStrictOrderedRing K]

/-- A point of a ring is no further beside its box than a square of the tolerance is wide across. -/
theorem holds_of_pointInPolygon (hhypot : ExactHypot arith) (haround : box.Around ring)
    (h : pointInPolygon arith x y ring = true) :
    box.Holds (arith.hypot edgeToleranceMm edgeToleranceMm) x y := by
  have htol := edgeToleranceMm_pos (K := K)
  have hmore : edgeToleranceMm ≤ arith.hypot edgeToleranceMm (edgeToleranceMm : K) :=
    (le_abs_self _).trans (abs_le_hypot hhypot _ _).1
  rcases ((pointInPolygon_iff hhypot).mp h).2 with ⟨p, hp, hnear⟩ | ⟨e, he, hon⟩ | hodd
  · exact holds_mono hmore (holds_of_near hhypot haround hp hnear)
  · obtain ⟨s, hs0, hs1, hx, hy⟩ := beside_of_onLong hhypot hon
    obtain ⟨h1, h2⟩ := List.of_mem_zip he
    obtain ⟨hleft, hright, hbottom, htop⟩ := haround.inside _ h1
    obtain ⟨hleft', hright', hbottom', htop'⟩ := haround.inside _ (List.mem_rotate.mp h2)
    have hxs := between_of_part ⟨hleft, hright⟩ ⟨hleft', hright'⟩ ⟨hs0, hs1⟩
    have hys := between_of_part ⟨hbottom, htop⟩ ⟨hbottom', htop'⟩ ⟨hs0, hs1⟩
    refine holds_of_beside (a := (e.1.1 + s * (e.2.1 - e.1.1), e.1.2 + s * (e.2.2 - e.1.2))) ?_ hx hy
    refine ⟨?_, ?_, ?_, ?_⟩ <;> dsimp only <;> linarith
  · obtain ⟨h1, h2, h3, h4⟩ := inside_box haround hodd
    have hholds : box.Holds 0 x y := by
      constructor <;> linarith
    exact holds_mono (htol.le.trans hmore) hholds

/-- The points of the ring that the box around it keeps, and the sameness of the ring from each of
its points and in both directions. -/
structure Outlined (arith : Arithmetic K) (ring : List (K × K)) (box : Box K) : Prop where
  corners : boundingBox ring = box.corners
  around : box.Around ring
  kept : ∀ x y, pointInPolygon arith x y ring = true →
    (pointInPolygon arith x y (boundingBox ring) = true ↔
      box.Holds 0 x y ∨ box.Wide ∧ box.Holds edgeToleranceMm x y ∨
        ∃ p ∈ boundingBox ring, Near arith x y p)
  beside : ∀ x y, pointInPolygon arith x y ring = true →
    box.Holds (arith.hypot edgeToleranceMm edgeToleranceMm) x y
  rotate : ∀ x y n, pointInPolygon arith x y (ring.rotate n) = pointInPolygon arith x y ring
  reverse : ∀ x y, pointInPolygon arith x y ring.reverse = pointInPolygon arith x y ring

theorem pointInPolygon_outlined (hhypot : ExactHypot arith) (ring : List (K × K))
    (hring : 3 ≤ ring.length) : ∃ box, Outlined arith ring box := by
  have hne : ring ≠ [] := by
    rintro rfl
    simp at hring
  obtain ⟨box, hcorners, haround⟩ := boundingBox_around hne
  refine ⟨box, hcorners, haround, fun x y h => ?_, fun x y h => ?_, fun x y n => ?_, fun x y => ?_⟩
  · rw [hcorners, corners_iff hhypot haround.proper]
    exact and_iff_right (tested_corners haround (tested_of_pointInPolygon h))
  · exact holds_of_pointInPolygon hhypot haround h
  · exact pointInPolygon_rotate hhypot x y ring n
  · exact pointInPolygon_reverse hhypot x y ring

end Normalized

section Reals

open Gcode (reals)

theorem exactHypot_reals : ExactHypot reals where
  nonneg _ _ := Real.sqrt_nonneg _
  square u v := Real.mul_self_sqrt (add_nonneg (mul_self_nonneg u) (mul_self_nonneg v))

/-- A triangle with more points than are kept. -/
def triangle (a b c : ℝ × ℝ) : List (ℝ × ℝ) := a :: b :: List.replicate 127 c

theorem tested_triangle (x y : ℝ) (a b c : ℝ × ℝ) : Tested reals x y (triangle a b c) where
  finiteX := rfl
  finiteY := rfl
  three := by simp [triangle]
  points _ _ := ⟨rfl, rfl⟩

/-- The outline of every triangle is kept in this way. -/
theorem pointInPolygon_outlined_triangle :
    ∃ box, Outlined reals (triangle (0, 0) (3, 4) (6, 0)) box :=
  pointInPolygon_outlined exactHypot_reals _ (tested_triangle 0 0 _ _ _).three

theorem normalized_triangle (a b c : ℝ × ℝ) : ∃ box : Box ℝ,
    normalized (triangle a b c) = box.corners ∧ box.Around (triangle a b c) := by
  have hlong : Wal.maxPolygonPoints < (triangle a b c).length := by
    simp [triangle, Wal.maxPolygonPoints]
  unfold normalized
  rw [if_pos hlong]
  exact boundingBox_around (by simp [triangle])

theorem mem_triangle {p a b c : ℝ × ℝ} : p ∈ triangle a b c ↔ p = a ∨ p = b ∨ p = c := by
  simp [triangle]

/-- The box around a triangle as small as the tolerance. -/
theorem speck_around {box : Box ℝ} (h : box.Around
    (triangle (0, 0) (edgeToleranceMm, 0) (edgeToleranceMm / 2, edgeToleranceMm))) :
    box.left = 0 ∧ box.right = edgeToleranceMm ∧ box.bottom = 0 ∧ box.top = edgeToleranceMm := by
  have htol := edgeToleranceMm_pos (K := ℝ)
  obtain ⟨hinside, ⟨l, hl, hleft⟩, ⟨r, hr, hright⟩, ⟨b, hb, hbottom⟩, ⟨t, ht, htop⟩⟩ := h
  simp only [mem_triangle] at hinside hl hr hb ht
  have h1 := hinside _ (.inl rfl)
  have h2 := hinside _ (.inr (.inl rfl))
  have h3 := hinside _ (.inr (.inr rfl))
  dsimp only at h1 h2 h3
  refine ⟨?_, ?_, ?_, ?_⟩
  · rcases hl with rfl | rfl | rfl <;> linarith
  · rcases hr with rfl | rfl | rfl <;> linarith
  · rcases hb with rfl | rfl | rfl <;> linarith
  · rcases ht with rfl | rfl | rfl <;> linarith

/-- A point behind the end of a slanted edge is lost, and so is one behind the tip of a speck. -/
theorem normalized_drops :
    (pointInPolygon reals (-(7 / 5) * edgeToleranceMm) (-(1 / 5) * edgeToleranceMm)
        (triangle (0, 0) (3, 4) (6, 0)) = true ∧
      pointInPolygon reals (-(7 / 5) * edgeToleranceMm) (-(1 / 5) * edgeToleranceMm)
        (normalized (triangle (0, 0) (3, 4) (6, 0))) = false) ∧
    (pointInPolygon reals (edgeToleranceMm / 2) (2 * edgeToleranceMm)
        (triangle (0, 0) (edgeToleranceMm, 0) (edgeToleranceMm / 2, edgeToleranceMm)) = true ∧
      pointInPolygon reals (edgeToleranceMm / 2) (2 * edgeToleranceMm) (normalized
        (triangle (0, 0) (edgeToleranceMm, 0) (edgeToleranceMm / 2, edgeToleranceMm))) = false) := by
  have htol := edgeToleranceMm_pos (K := ℝ)
  refine ⟨⟨?_, ?_⟩, ?_, ?_⟩
  · refine (pointInPolygon_iff exactHypot_reals).mpr ⟨tested_triangle _ _ _ _ _, .inr (.inl ?_)⟩
    have hfive : reals.hypot 3 4 = 5 := by
      refine (mul_self_inj_of_nonneg (exactHypot_reals.nonneg _ _) (by norm_num)).mp ?_
      rw [exactHypot_reals.square]
      norm_num
    have hedge : ((0, 0), (3, 4)) ∈ edges (triangle (0, 0) (3, 4) (6, 0)) := by
      rw [edges, triangle, List.rotate_cons_succ, List.rotate_zero]
      exact .head _
    refine ⟨_, hedge, ?_⟩
    constructor <;> simp only [sub_zero, hfive]
    · norm_num [edgeToleranceMm]
    · rw [abs_le]
      constructor <;> linarith
    · linarith
    · nlinarith
  · obtain ⟨box, hbox, haround⟩ := normalized_triangle (0, 0) (3, 4) (6, 0)
    rw [hbox, Bool.eq_false_iff]
    intro h
    have hleft := (holds_of_corners exactHypot_reals haround.proper h).left
    obtain ⟨p, hp, hpleft⟩ := haround.left
    have hnonneg : 0 ≤ p.1 := by
      rcases mem_triangle.mp hp with rfl | rfl | rfl <;> norm_num
    linarith
  · refine (pointInPolygon_iff exactHypot_reals).mpr ⟨tested_triangle _ _ _ _ _, .inl ?_⟩
    refine ⟨(edgeToleranceMm / 2, edgeToleranceMm), by simp [triangle], ?_⟩
    have hup : (2 : ℝ) * edgeToleranceMm - edgeToleranceMm = edgeToleranceMm := by ring
    unfold Near
    rw [sub_self, hup, (hypot_level exactHypot_reals htol.le).2]
  · obtain ⟨box, hbox, haround⟩ :=
      normalized_triangle (0, 0) (edgeToleranceMm, 0) (edgeToleranceMm / 2, edgeToleranceMm)
    have hsize := speck_around haround
    rw [hbox, Bool.eq_false_iff]
    intro h
    rcases ((corners_iff exactHypot_reals haround.proper).mp h).2 with hin | ⟨hwide, -⟩ | hnear
    · have htop := hin.top
      rw [hsize.2.2.2] at htop
      linarith
    · unfold Box.Wide at hwide
      rw [hsize.1, hsize.2.1, hsize.2.2.1, hsize.2.2.2] at hwide
      rcases hwide with hwide | hwide <;> linarith
    · obtain ⟨p, hp, hnear⟩ := hnear
      have hx : (edgeToleranceMm / 2 - p.1) * (edgeToleranceMm / 2 - p.1) =
          edgeToleranceMm * edgeToleranceMm / 4 := by
        simp only [Box.corners, hsize, List.mem_cons, List.not_mem_nil, or_false] at hp
        rcases hp with rfl | rfl | rfl | rfl <;> ring
      have hy : (edgeToleranceMm : ℝ) * edgeToleranceMm ≤
          (2 * edgeToleranceMm - p.2) * (2 * edgeToleranceMm - p.2) := by
        simp only [Box.corners, hsize, List.mem_cons, List.not_mem_nil, or_false] at hp
        rcases hp with rfl | rfl | rfl | rfl <;> nlinarith
      have hsquare := exactHypot_reals.square (edgeToleranceMm / 2 - p.1) (2 * edgeToleranceMm - p.2)
      have hle := mul_self_le_mul_self (exactHypot_reals.nonneg _ _) hnear
      nlinarith

end Reals

end DeadReckoning.Reconstruct
