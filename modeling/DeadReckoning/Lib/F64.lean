import Mathlib.Data.Rat.Defs
import Mathlib.Algebra.Order.Ring.Rat
import Mathlib.Tactic.Linarith

/-! Floating-point values as exact rationals with the two infinities and a NaN.
Comparisons follow IEEE 754: a NaN is unordered and unequal to everything. Rounding and
overflow of finite results are not modelled. -/

inductive F64 where
  | fin (q : ℚ)
  | inf (negative : Bool)
  | nan
  deriving DecidableEq, Repr

namespace F64

instance : Inhabited F64 := ⟨fin 0⟩
instance (n : ℕ) : OfNat F64 n := ⟨fin n⟩
instance : Coe ℚ F64 := ⟨fin⟩

def isFinite : F64 → Bool
  | fin _ => true
  | _ => false

def isNan : F64 → Bool
  | nan => true
  | _ => false

/-- The value of a finite number, zero otherwise. -/
def toRat : F64 → ℚ
  | fin q => q
  | _ => 0

@[simp] theorem isFinite_fin (q : ℚ) : (fin q).isFinite = true := rfl
@[simp] theorem isNan_fin (q : ℚ) : (fin q).isNan = false := rfl
@[simp] theorem toRat_fin (q : ℚ) : (fin q).toRat = q := rfl

theorem isFinite_iff {x : F64} : x.isFinite = true ↔ ∃ q, x = fin q := by
  cases x <;> simp [isFinite]

protected def neg : F64 → F64
  | fin q => fin (-q)
  | inf s => inf (!s)
  | nan => nan

protected def add : F64 → F64 → F64
  | fin a, fin b => fin (a + b)
  | nan, _ => nan
  | _, nan => nan
  | inf s, inf t => if s = t then inf s else nan
  | inf s, fin _ => inf s
  | fin _, inf t => inf t

instance : Neg F64 := ⟨F64.neg⟩
instance : Add F64 := ⟨F64.add⟩
instance : Sub F64 := ⟨fun a b => a + -b⟩

/-- The sign bit of a value, with zero counted as positive. -/
def isNegative : F64 → Bool
  | fin q => q < 0
  | inf s => s
  | nan => false

protected def mul : F64 → F64 → F64
  | fin a, fin b => fin (a * b)
  | nan, _ => nan
  | _, nan => nan
  | inf s, inf t => inf (s != t)
  | inf s, fin b => if b = 0 then nan else inf (s != decide (b < 0))
  | fin a, inf t => if a = 0 then nan else inf (t != decide (a < 0))

protected def div : F64 → F64 → F64
  | nan, _ => nan
  | _, nan => nan
  | inf _, inf _ => nan
  | inf s, fin b => inf (s != decide (b < 0))
  | fin _, inf _ => fin 0
  | fin a, fin b =>
      if b = 0 then (if a = 0 then nan else inf (decide (a < 0))) else fin (a / b)

instance : Mul F64 := ⟨F64.mul⟩
instance : Div F64 := ⟨F64.div⟩

@[simp] theorem neg_fin (a : ℚ) : -(fin a) = fin (-a) := rfl
@[simp] theorem fin_add (a b : ℚ) : fin a + fin b = fin (a + b) := rfl
@[simp] theorem fin_sub (a b : ℚ) : fin a - fin b = fin (a - b) :=
  congrArg fin (sub_eq_add_neg a b).symm
@[simp] theorem fin_mul (a b : ℚ) : fin a * fin b = fin (a * b) := rfl

theorem fin_div (a : ℚ) {b : ℚ} (hb : b ≠ 0) : fin a / fin b = fin (a / b) :=
  if_neg hb

@[simp] theorem ofNat_eq (n : ℕ) : (OfNat.ofNat n : F64) = fin n := rfl

/-- IEEE `<`. -/
def lt : F64 → F64 → Bool
  | fin a, fin b => a < b
  | fin _, inf t => !t
  | inf s, fin _ => s
  | inf s, inf t => s && !t
  | _, _ => false

/-- IEEE `==`. -/
def eq : F64 → F64 → Bool
  | fin a, fin b => a = b
  | inf s, inf t => s = t
  | _, _ => false

/-- IEEE `<=`. -/
def le (a b : F64) : Bool := lt a b || eq a b

@[simp] theorem lt_fin (a b : ℚ) : lt (fin a) (fin b) = decide (a < b) := rfl
@[simp] theorem eq_fin (a b : ℚ) : eq (fin a) (fin b) = decide (a = b) := rfl

@[simp] theorem le_fin (a b : ℚ) : le (fin a) (fin b) = decide (a ≤ b) := by
  simp only [le, lt_fin, eq_fin, ← Bool.decide_or, le_iff_lt_or_eq]

def abs : F64 → F64
  | fin q => fin |q|
  | inf _ => inf false
  | nan => nan

/-- The larger operand; a NaN operand is ignored. -/
def max (a b : F64) : F64 :=
  if a.isNan then b else if b.isNan then a else if lt a b then b else a

/-- The smaller operand; a NaN operand is ignored. -/
def min (a b : F64) : F64 :=
  if a.isNan then b else if b.isNan then a else if lt b a then b else a

@[simp] theorem abs_fin (q : ℚ) : abs (fin q) = fin |q| := rfl

@[simp] theorem max_fin (a b : ℚ) : max (fin a) (fin b) = fin (Max.max a b) := by
  simp only [max, isNan_fin, lt_fin, decide_eq_true_eq, Bool.false_eq_true, if_false]
  split <;> rename_i h
  · rw [max_eq_right h.le]
  · rw [max_eq_left (not_lt.mp h)]

@[simp] theorem min_fin (a b : ℚ) : min (fin a) (fin b) = fin (Min.min a b) := by
  simp only [min, isNan_fin, lt_fin, decide_eq_true_eq, Bool.false_eq_true, if_false]
  split <;> rename_i h
  · rw [min_eq_right h.le]
  · rw [min_eq_left (not_lt.mp h)]

end F64
