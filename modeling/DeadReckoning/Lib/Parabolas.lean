import DeadReckoning.Lib.Numerals
import Mathlib.Algebra.Order.Field.Basic
import Mathlib.Order.WithBot
import Mathlib.Tactic.FieldSimp
import Mathlib.Tactic.Linarith
import Mathlib.Tactic.Ring

/-! The lower envelope of parabolas of one width, kept as a stack: every parabola of the stack with
the place from which on it is the lowest. -/
namespace Parabolas

/-- A number, or one of the two ends of the line. -/
abbrev Extended (K : Type) := WithBot (WithTop K)

def Extended.fin {K : Type} (x : K) : Extended K := ((x : WithTop K) : WithBot (WithTop K))

section Extended

variable {K : Type} [LinearOrder K] {x y : K}

@[simp] theorem fin_le_fin : Extended.fin x ≤ Extended.fin y ↔ x ≤ y := by
  simp [Extended.fin]

@[simp] theorem fin_lt_fin : Extended.fin x < Extended.fin y ↔ x < y := by
  simp [Extended.fin]

theorem bot_lt_fin (x : K) : (⊥ : Extended K) < Extended.fin x := WithBot.bot_lt_coe _

theorem fin_lt_top (x : K) : Extended.fin x < (⊤ : Extended K) :=
  WithBot.coe_lt_coe.mpr (WithTop.coe_lt_top x)

end Extended

section Heights

variable {K : Type} [Field K]

/-- The height of the parabola with its lowest point at `k`. -/
def height (f : ℕ → K) (k : ℕ) (x : K) : K := (x - k) * (x - k) + f k

/-- Where two of them cross. -/
def crossing (f : ℕ → K) (p q : ℕ) : K :=
  ((f p + (p : K) * p) - (f q + (q : K) * q)) / (((2 : ℕ) : K) * p - ((2 : ℕ) : K) * q)

variable [LinearOrder K] [IsStrictOrderedRing K] {f : ℕ → K} {p q : ℕ}

/-- The one further right is the lower one from the crossing on. -/
theorem height_le_iff (h : q < p) (x : K) :
    height f p x ≤ height f q x ↔ crossing f p q ≤ x := by
  have hcast : (q : K) < p := Nat.cast_lt.mpr h
  have hpos : (0 : K) < ((2 : ℕ) : K) * p - ((2 : ℕ) : K) * q := by
    push_cast
    linarith
  rw [crossing, div_le_iff₀ hpos, height, height]
  push_cast
  constructor
  · intro hle
    linarith
  · intro hle
    linarith

theorem le_height_iff (h : q < p) (x : K) :
    height f q x ≤ height f p x ↔ x ≤ crossing f p q := by
  have hcast : (q : K) < p := Nat.cast_lt.mpr h
  have hpos : (0 : K) < ((2 : ℕ) : K) * p - ((2 : ℕ) : K) * q := by
    push_cast
    linarith
  rw [crossing, le_div_iff₀ hpos, height, height]
  push_cast
  constructor
  · intro hle
    linarith
  · intro hle
    linarith

end Heights

section Stack

variable {K : Type} [Field K] [LinearOrder K]

/-- A stack of parabolas from among the first `m`, from left to right, each with the place from
which on it is lower than the one before. -/
structure Stack (f : ℕ → K) (m : ℕ) (hull : ℕ → ℕ) (bounds : ℕ → Extended K) (top : ℕ) : Prop where
  roots : ∀ i < top, hull i < hull (i + 1)
  newest : hull top < m
  first : bounds 0 = ⊥
  crossings : ∀ i < top, bounds (i + 1) = Extended.fin (crossing f (hull (i + 1)) (hull i))
  rising : ∀ i < top, bounds i < bounds (i + 1)

/-- Everywhere some parabola of the stack is as low as each of the first `m`. -/
def Covers (f : ℕ → K) (m : ℕ) (hull : ℕ → ℕ) (top : ℕ) : Prop :=
  ∀ x, ∀ k < m, ∃ i ≤ top, height f (hull i) x ≤ height f k x

/-- The same with one more parabola, which is not on the stack yet. -/
def CoversWith (f : ℕ → K) (m : ℕ) (hull : ℕ → ℕ) (top : ℕ) : Prop :=
  ∀ x, ∀ k < m, height f m x ≤ height f k x ∨ ∃ i ≤ top, height f (hull i) x ≤ height f k x

variable {f : ℕ → K} {m top : ℕ} {hull : ℕ → ℕ} {bounds : ℕ → Extended K}

theorem Stack.root_le (h : Stack f m hull bounds top) {i : ℕ} (hi : i ≤ top) : i ≤ hull i := by
  induction i with
  | zero => exact Nat.zero_le _
  | succ i ih =>
    have hprev := ih (by omega)
    have hstep := h.roots i (by omega)
    omega

theorem Stack.root_lt (h : Stack f m hull bounds top) {i : ℕ} (hi : i ≤ top) : hull i < m := by
  have hmono : ∀ j, i ≤ j → j ≤ top → hull i ≤ hull j := by
    intro j hij
    induction j, hij using Nat.le_induction with
    | base => exact fun _ => le_rfl
    | succ j hij ih => exact fun hj => (ih (by omega)).trans (h.roots j (by omega)).le
  exact (hmono top hi le_rfl).trans_lt h.newest

theorem Stack.top_lt (h : Stack f m hull bounds top) : top < m :=
  (h.root_le le_rfl).trans_lt h.newest

theorem Covers.coversWith (h : Covers f m hull top) : CoversWith f m hull top :=
  fun x k hk => .inr (h x k hk)

theorem Stack.pop (h : Stack f m hull bounds (top + 1)) : Stack f m hull bounds top where
  roots i hi := h.roots i (by omega)
  newest := (h.roots top (by omega)).trans h.newest
  first := h.first
  crossings i hi := h.crossings i (by omega)
  rising i hi := h.rising i (by omega)

/-- The stack with one parabola more. -/
theorem Stack.push (h : Stack f m hull bounds top)
    (hcross : bounds top < Extended.fin (crossing f m (hull top))) :
    Stack f (m + 1) (Function.update hull (top + 1) m)
      (Function.update (Function.update bounds (top + 1)
        (Extended.fin (crossing f m (hull top)))) (top + 2) ⊤) (top + 1) where
  roots i hi := by
    rw [Function.update_of_ne (by omega)]
    rcases Nat.lt_succ_iff_lt_or_eq.mp hi with hlt | rfl
    · rw [Function.update_of_ne (by omega)]
      exact h.roots i hlt
    · rw [Function.update_self]
      exact h.newest
  newest := by simp
  first := by
    rw [Function.update_of_ne (by omega), Function.update_of_ne (by omega), h.first]
  crossings i hi := by
    rw [Function.update_of_ne (by omega)]
    rcases Nat.lt_succ_iff_lt_or_eq.mp hi with hlt | rfl
    · rw [Function.update_of_ne (by omega), Function.update_of_ne (by omega),
        Function.update_of_ne (by omega), h.crossings i hlt]
    · rw [Function.update_self, Function.update_self, Function.update_of_ne (by omega)]
  rising i hi := by
    rw [Function.update_of_ne (by omega), Function.update_of_ne (by omega),
      Function.update_of_ne (by omega)]
    rcases Nat.lt_succ_iff_lt_or_eq.mp hi with hlt | rfl
    · rw [Function.update_of_ne (by omega)]
      exact h.rising i hlt
    · rw [Function.update_self]
      exact hcross

theorem CoversWith.push (h : CoversWith f m hull top) :
    Covers f (m + 1) (Function.update hull (top + 1) m) (top + 1) := by
  intro x k hk
  have hnew : ∃ i ≤ top + 1, height f (Function.update hull (top + 1) m i) x ≤ height f m x :=
    ⟨top + 1, le_rfl, by rw [Function.update_self]⟩
  rcases Nat.lt_succ_iff_lt_or_eq.mp hk with hlt | rfl
  · rcases h x k hlt with hle | ⟨i, hi, hle⟩
    · obtain ⟨i, hi, hlow⟩ := hnew
      exact ⟨i, hi, hlow.trans hle⟩
    · refine ⟨i, by omega, ?_⟩
      rwa [Function.update_of_ne (by omega)]
  · exact hnew

/-- A stack with the first parabola only. -/
theorem stack_one (hhull : hull 0 = 0) (hbounds : bounds 0 = ⊥) : Stack f 1 hull bounds 0 where
  roots i hi := absurd hi (Nat.not_lt_zero i)
  newest := by rw [hhull]; exact one_pos
  first := hbounds
  crossings i hi := absurd hi (Nat.not_lt_zero i)
  rising i hi := absurd hi (Nat.not_lt_zero i)

theorem covers_one (hhull : hull 0 = 0) : Covers f 1 hull 0 := by
  intro x k hk
  obtain rfl : k = 0 := by omega
  exact ⟨0, le_rfl, by rw [hhull]⟩

theorem Stack.bounds_le (h : Stack f m hull bounds top) {i j : ℕ} (hij : i ≤ j) (hj : j ≤ top) :
    bounds i ≤ bounds j := by
  induction j, hij using Nat.le_induction with
  | base => exact le_rfl
  | succ j hij ih => exact (ih (by omega)).trans (h.rising j (by omega)).le

variable [IsStrictOrderedRing K]

/-- The top of the stack is not needed where the new parabola is below it before it becomes the
lowest. -/
theorem CoversWith.pop (hstack : Stack f m hull bounds (top + 1))
    (h : CoversWith f m hull (top + 1))
    (hcross : Extended.fin (crossing f m (hull (top + 1))) ≤ bounds (top + 1)) :
    CoversWith f m hull top := by
  rw [hstack.crossings top (by omega), fin_le_fin] at hcross
  intro x k hk
  rcases h x k hk with hle | ⟨i, hi, hle⟩
  · exact .inl hle
  rcases Nat.le_succ_iff.mp hi with hi | rfl
  · exact .inr ⟨i, hi, hle⟩
  -- The popped parabola is above the new one from their crossing on, and above the one before it
  -- up to theirs.
  rcases le_total (crossing f m (hull (top + 1))) x with hright | hleft
  · exact .inl (((height_le_iff hstack.newest x).mpr hright).trans hle)
  · have hbelow := (le_height_iff (hstack.roots top (by omega)) x).mpr (hleft.trans hcross)
    exact .inr ⟨top, le_rfl, hbelow.trans hle⟩

/-- From its bound on a parabola of the stack is as low as those before it. -/
theorem Stack.le_before (h : Stack f m hull bounds top) {x : K} {i j : ℕ} (hi : i ≤ top)
    (hlo : bounds i ≤ Extended.fin x) (hji : j ≤ i) :
    height f (hull i) x ≤ height f (hull j) x := by
  induction i, hji using Nat.le_induction with
  | base => exact le_rfl
  | succ i hji ih =>
    have hcross : crossing f (hull (i + 1)) (hull i) ≤ x := by
      rw [← fin_le_fin, ← h.crossings i (by omega)]
      exact hlo
    have hprev := ih (by omega) ((h.rising i (by omega)).le.trans hlo)
    exact ((height_le_iff (h.roots i (by omega)) x).mpr hcross).trans hprev

/-- Up to the next bound a parabola of the stack is as low as those after it. -/
theorem Stack.le_after (h : Stack f m hull bounds top) {x : K} {i j : ℕ} (hj : j ≤ top)
    (hhi : i < top → Extended.fin x ≤ bounds (i + 1)) (hij : i ≤ j) :
    height f (hull i) x ≤ height f (hull j) x := by
  induction j, hij using Nat.le_induction with
  | base => exact le_rfl
  | succ j hij ih =>
    refine (ih (by omega)).trans ((le_height_iff (h.roots j (by omega)) x).mpr ?_)
    rw [← fin_le_fin, ← h.crossings j (by omega)]
    exact (hhi (by omega)).trans (h.bounds_le (by omega) (by omega))

/-- Between its bound and the next a parabola of the stack is the lowest of all. -/
theorem Stack.lowest (h : Stack f m hull bounds top) (hcovers : Covers f m hull top) {x : K}
    {i : ℕ} (hi : i ≤ top) (hlo : bounds i ≤ Extended.fin x)
    (hhi : i < top → Extended.fin x ≤ bounds (i + 1)) {k : ℕ} (hk : k < m) :
    height f (hull i) x ≤ height f k x := by
  obtain ⟨j, hj, hle⟩ := hcovers x k hk
  rcases le_total i j with hij | hji
  · exact (h.le_after hj hhi hij).trans hle
  · exact (h.le_before hi hlo hji).trans hle

end Stack

end Parabolas
