import DeadReckoning.Gcode.Axes
import DeadReckoning.Lib.Decimal
import Mathlib.Data.Rat.Sqrt

/-! The numbers of the interpreter. The four basic operations come from instances, the others and
the reading of numerals are parameters; nothing here asks for a law. -/
namespace DeadReckoning.Gcode

/-- What the text of a number reads as. -/
inductive Reading (K : Type) where
  | invalid
  | nonFinite
  | finite (v : K)

structure Arithmetic (K : Type) where
  read : Text → Reading K
  isFinite : K → Bool
  sqrt : K → K
  hypot : K → K → K
  atan2 : K → K → K
  cos : K → K
  sin : K → K
  pi : K
  floor : K → K
  /-- The cast of a whole number to a machine integer. -/
  toNat : K → ℕ

/-- Reads a numeral exactly. -/
def readExact {K : Type} [RatCast K] (s : Text) : Reading K :=
  match Decimal.parseF64 s with
  | none => .invalid
  | some (.fin q) => .finite q
  | some (.inf _) | some .nan => .nonFinite

/-- The rationals, for lines without arcs: the functions of the circle are left at zero. -/
def rationals : Arithmetic ℚ where
  read := readExact
  isFinite _ := true
  sqrt := Rat.sqrt
  hypot a b := Rat.sqrt (a * a + b * b)
  atan2 _ _ := 0
  cos _ := 0
  sin _ := 0
  pi := 0
  floor v := ⌊v⌋
  toNat v := ⌊v⌋₊

/-- A decimal integer of 64 bits. -/
def parseI64 (s : Text) : Option ℤ :=
  let magnitude (digits : Text) : Option ℤ :=
    if digits ≠ [] ∧ digits.all Char.isDigit then some (Nat.ofDigitChars 10 digits 0) else none
  let value := match s with
    | '-' :: digits => (magnitude digits).map (- ·)
    | '+' :: digits => magnitude digits
    | digits => magnitude digits
  value.filter fun v => -2 ^ 63 ≤ v ∧ v < 2 ^ 63

section Operations

variable {K : Type} [Zero K] [Neg K] [LT K] [DecidableLT K]

def magnitude (v : K) : K := if v < 0 then -v else v

def larger (a b : K) : K := if a < b then b else a

def smaller (a b : K) : K := if b < a then b else a

end Operations

end DeadReckoning.Gcode
