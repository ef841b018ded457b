import Mathlib.Algebra.Order.Group.Defs
import Mathlib.Data.List.Basic
import Mathlib.Order.Lattice

/-! Closed intervals and boxes, as they grow by the values that are added. -/
namespace DeadReckoning.Reconstruct

/-- A closed interval. -/
structure Interval (K : Type) where
  lo : K
  hi : K
  deriving DecidableEq

namespace Interval

variable {K : Type} [LinearOrder K] {a b c : Interval K} {v w : K}

def point (v : K) : Interval K := ⟨v, v⟩

/-- The interval of two values in either order. -/
def fromPair (a b : K) : Interval K := ⟨min a b, max a b⟩

def expand (a : Interval K) (v : K) : Interval K := ⟨min a.lo v, max a.hi v⟩

/-- The smallest interval around both. -/
def union (a b : Interval K) : Interval K := ⟨min a.lo b.lo, max a.hi b.hi⟩

/-- The value lies in the interval, widened by the tolerance. -/
def contains [Add K] [Sub K] (a : Interval K) (v tol : K) : Prop := a.lo - tol ≤ v ∧ v ≤ a.hi + tol

instance : Membership K (Interval K) := ⟨fun a v => a.lo ≤ v ∧ v ≤ a.hi⟩

instance : HasSubset (Interval K) := ⟨fun a b => b.lo ≤ a.lo ∧ a.hi ≤ b.hi⟩

theorem mem_def : v ∈ a ↔ a.lo ≤ v ∧ v ≤ a.hi := Iff.rfl

theorem subset_def : a ⊆ b ↔ b.lo ≤ a.lo ∧ a.hi ≤ b.hi := Iff.rfl

theorem subset_refl (a : Interval K) : a ⊆ a := ⟨le_rfl, le_rfl⟩

theorem subset_trans (h : a ⊆ b) (h' : b ⊆ c) : a ⊆ c := ⟨h'.1.trans h.1, h.2.trans h'.2⟩

theorem mem_of_subset (h : a ⊆ b) (hv : v ∈ a) : v ∈ b := ⟨h.1.trans hv.1, hv.2.trans h.2⟩

theorem mem_point : v ∈ point v := ⟨le_rfl, le_rfl⟩

theorem point_subset : point v ⊆ a ↔ v ∈ a := Iff.rfl

theorem mem_expand : v ∈ a.expand v := ⟨min_le_right _ _, le_max_right _ _⟩

theorem subset_expand : a ⊆ a.expand v := ⟨min_le_left _ _, le_max_left _ _⟩

theorem expand_subset (h : a ⊆ b) (hv : v ∈ b) : a.expand v ⊆ b :=
  ⟨le_min h.1 hv.1, max_le h.2 hv.2⟩

theorem subset_union_left : a ⊆ a.union b := ⟨min_le_left _ _, le_max_left _ _⟩

theorem subset_union_right : b ⊆ a.union b := ⟨min_le_right _ _, le_max_right _ _⟩

theorem union_subset (h : a ⊆ c) (h' : b ⊆ c) : a.union b ⊆ c := ⟨le_min h.1 h'.1, max_le h.2 h'.2⟩

theorem fromPair_subset (h : v ∈ a) (h' : w ∈ a) : fromPair v w ⊆ a :=
  ⟨le_min h.1 h'.1, max_le h.2 h'.2⟩

/-- A value between two values of the interval is in it. -/
theorem mem_of_between {s e : K} (hs : s ∈ a) (he : e ∈ a) (hlo : s ≤ v) (hhi : v ≤ e) : v ∈ a :=
  ⟨hs.1.trans hlo, hhi.trans he.2⟩

end Interval

/-- An axis-aligned box. -/
structure XyRegion (K : Type) where
  x : Interval K
  y : Interval K
  deriving DecidableEq

def XyRegion.expand {K : Type} [LinearOrder K] (r : XyRegion K) (x y : K) : XyRegion K :=
  ⟨r.x.expand x, r.y.expand y⟩

/-- The box around both. -/
def XyRegion.union {K : Type} [LinearOrder K] (r s : XyRegion K) : XyRegion K :=
  ⟨r.x.union s.x, r.y.union s.y⟩

namespace XyRegion

variable {K : Type} [LinearOrder K] {r s t : XyRegion K} {x y : K}

instance : HasSubset (XyRegion K) := ⟨fun r s => r.x ⊆ s.x ∧ r.y ⊆ s.y⟩

theorem subset_refl (r : XyRegion K) : r ⊆ r := ⟨Interval.subset_refl _, Interval.subset_refl _⟩

theorem subset_trans (h : r ⊆ s) (h' : s ⊆ t) : r ⊆ t :=
  ⟨Interval.subset_trans h.1 h'.1, Interval.subset_trans h.2 h'.2⟩

theorem subset_expand : r ⊆ r.expand x y := ⟨Interval.subset_expand, Interval.subset_expand⟩

theorem expand_subset (h : r ⊆ s) (hx : x ∈ s.x) (hy : y ∈ s.y) : r.expand x y ⊆ s :=
  ⟨Interval.expand_subset h.1 hx, Interval.expand_subset h.2 hy⟩

theorem subset_union_left : r ⊆ r.union s :=
  ⟨Interval.subset_union_left, Interval.subset_union_left⟩

theorem subset_union_right : s ⊆ r.union s :=
  ⟨Interval.subset_union_right, Interval.subset_union_right⟩

theorem union_subset (h : r ⊆ t) (h' : s ⊆ t) : r.union s ⊆ t :=
  ⟨Interval.union_subset h.1 h'.1, Interval.union_subset h.2 h'.2⟩

end XyRegion

section Accumulators

variable {K : Type} [LinearOrder K]

/-- The interval grows by a value, or starts with it. -/
def expandOption (e : Option (Interval K)) (v : K) : Interval K :=
  match e with
  | none => .point v
  | some a => a.expand v

def expandXy (xy : Option (XyRegion K)) (x y : K) : XyRegion K :=
  match xy with
  | none => ⟨.point x, .point y⟩
  | some region => region.expand x y

def unionOption (a b : Option (Interval K)) : Option (Interval K) :=
  match a, b with
  | some a, some b => some (a.union b)
  | a, b => a <|> b

/-- An interval that may not be there lies in another one. -/
def Within (a b : Option (Interval K)) : Prop := ∀ i ∈ a, ∃ j ∈ b, i ⊆ j

variable {a b c d : Option (Interval K)}

theorem Within.refl (a : Option (Interval K)) : Within a a :=
  fun i hi => ⟨i, hi, Interval.subset_refl i⟩

theorem Within.trans (h : Within a b) (h' : Within b c) : Within a c := by
  intro i hi
  obtain ⟨j, hj, hij⟩ := h i hi
  obtain ⟨k, hk, hjk⟩ := h' j hj
  exact ⟨k, hk, Interval.subset_trans hij hjk⟩

theorem within_some {i j : Interval K} : Within (some i) (some j) ↔ i ⊆ j := by
  constructor
  · intro h
    obtain ⟨k, hk, hsub⟩ := h i rfl
    obtain rfl : j = k := Option.some.inj hk
    exact hsub
  · intro h k hk
    obtain rfl : i = k := Option.some.inj hk
    exact ⟨j, rfl, h⟩

theorem within_none : Within none a := fun _ hi => by cases hi

theorem within_union_left : Within a (unionOption a b) := by
  intro i hi
  obtain rfl := hi
  cases b with
  | none => exact ⟨i, rfl, Interval.subset_refl i⟩
  | some b => exact ⟨i.union b, rfl, Interval.subset_union_left⟩

theorem within_union_right : Within b (unionOption a b) := by
  intro i hi
  obtain rfl := hi
  cases a with
  | none => exact ⟨i, rfl, Interval.subset_refl i⟩
  | some a => exact ⟨a.union i, rfl, Interval.subset_union_right⟩

theorem Within.union (h : Within a c) (h' : Within b c) : Within (unionOption a b) c := by
  intro i hi
  cases a with
  | none => exact h' i hi
  | some a =>
    cases b with
    | none => exact h i hi
    | some b =>
      obtain rfl : a.union b = i := Option.some.inj hi
      obtain ⟨j, hj, haj⟩ := h a rfl
      obtain ⟨k, hk, hbk⟩ := h' b rfl
      obtain rfl : j = k := Option.some.inj (hj.symm.trans hk)
      exact ⟨j, hj, Interval.union_subset haj hbk⟩

theorem Within.union_mono (h : Within a c) (h' : Within b d) :
    Within (unionOption a b) (unionOption c d) :=
  (h.trans within_union_left).union (h'.trans within_union_right)

/-- A box that may not be there lies in another one. -/
def WithinXy (r s : Option (XyRegion K)) : Prop := ∀ q ∈ r, ∃ b ∈ s, q ⊆ b

theorem withinXy_some {r s : XyRegion K} : WithinXy (some r) (some s) ↔ r ⊆ s := by
  constructor
  · intro h
    obtain ⟨t, ht, hsub⟩ := h r rfl
    obtain rfl : s = t := Option.some.inj ht
    exact hsub
  · intro h t ht
    obtain rfl : r = t := Option.some.inj ht
    exact ⟨s, rfl, h⟩

theorem WithinXy.trans {r s t : Option (XyRegion K)} (h : WithinXy r s) (h' : WithinXy s t) :
    WithinXy r t := by
  intro i hi
  obtain ⟨j, hj, hij⟩ := h i hi
  obtain ⟨k, hk, hjk⟩ := h' j hj
  exact ⟨k, hk, XyRegion.subset_trans hij hjk⟩

end Accumulators

end DeadReckoning.Reconstruct
