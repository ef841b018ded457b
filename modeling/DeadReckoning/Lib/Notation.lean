import DeadReckoning.Lib.Decimal

/-! Doubles by their shortest round-trip digits, and the two notations these are printed in: all
places written out, or an exponent where the number is very small or very large. -/
namespace Notation

/-- A decimal `mantissa * 10 ^ exponent` without zeros at its end. -/
structure Digits where
  mantissa : ℕ
  exponent : ℤ
  normal : mantissa % 10 ≠ 0 ∨ (mantissa = 0 ∧ exponent = 0)
  deriving DecidableEq

/-- A double; a finite one is known by its sign and its shortest digits. -/
inductive Double where
  | finite (negative : Bool) (digits : Digits)
  | infinite (negative : Bool)
  | nan
  deriving DecidableEq

def Double.isFinite : Double → Bool
  | finite _ _ => true
  | _ => false

/-- The double a parsed number denotes, where `nearest` rounds. -/
def Double.ofParsed (nearest : ℚ → Double) : F64 → Double
  | .fin q => nearest q
  | .inf negative => .infinite negative
  | .nan => .nan

namespace Digits

def zero : Digits := ⟨0, 0, .inr ⟨rfl, rfl⟩⟩

/-- The digits of `mantissa * 10 ^ exponent`, where at most `fuel` zeros stand at the end. -/
def ofScaled : ℕ → ℕ → ℤ → Option Digits
  | 0, _, _ => none
  | fuel + 1, mantissa, exponent =>
      if h : mantissa % 10 ≠ 0 then some ⟨mantissa, exponent, .inl h⟩
      else ofScaled fuel (mantissa / 10) (exponent + 1)

def text (d : Digits) : Text := Nat.toDigits 10 d.mantissa

/-- How many digits stand before the point; fewer than none for zeros after it. -/
def point (d : Digits) : ℤ := d.text.length + d.exponent

/-- All places written out. -/
def positional (d : Digits) : Text :=
  if d.point ≤ 0 then '0' :: '.' :: (List.replicate (-d.point).toNat '0' ++ d.text)
  else if d.text.length ≤ d.point then d.text ++ List.replicate d.exponent.toNat '0'
  else d.text.take d.point.toNat ++ '.' :: d.text.drop d.point.toNat

/-- One digit before the point, and an exponent of at least two digits. -/
def scientific (d : Digits) : Text :=
  let exponent := Nat.toDigits 10 (d.point - 1).natAbs
  d.text.take 1 ++ (if d.text.length = 1 then [] else '.' :: d.text.drop 1) ++
    'e' :: (if d.point < 1 then '-' else '+') ::
      (if exponent.length < 2 then '0' :: exponent else exponent)

/-- `repr`: an exponent below a ten-thousandth and from `1e16` on, and never without a point. -/
def repr (d : Digits) : Text :=
  if d.point ≤ -4 ∨ 16 < d.point then d.scientific
  else if 0 ≤ d.exponent then d.positional ++ lit ".0" else d.positional

theorem isDigit_of_mem_text {d : Digits} {c : Char} (hc : c ∈ d.text) : c.isDigit = true :=
  Nat.isDigit_of_mem_toDigits (by omega) (by omega) hc

theorem mem_positional {d : Digits} {c : Char} (hc : c ∈ d.positional) :
    c.isDigit = true ∨ c = '.' := by
  have htext : c ∈ d.text → c.isDigit = true := isDigit_of_mem_text
  have hzeros : ∀ k, c ∈ List.replicate k '0' → c.isDigit = true := by
    intro k h
    rw [List.eq_of_mem_replicate h]
    rfl
  unfold positional at hc
  split at hc
  · rcases List.mem_cons.mp hc with rfl | hc
    · exact .inl rfl
    rcases List.mem_cons.mp hc with rfl | hc
    · exact .inr rfl
    rcases List.mem_append.mp hc with hc | hc
    · exact .inl (hzeros _ hc)
    · exact .inl (htext hc)
  · split at hc
    · rcases List.mem_append.mp hc with hc | hc
      · exact .inl (htext hc)
      · exact .inl (hzeros _ hc)
    · rcases List.mem_append.mp hc with hc | hc
      · exact .inl (htext (List.mem_of_mem_take hc))
      rcases List.mem_cons.mp hc with rfl | hc
      · exact .inr rfl
      · exact .inl (htext (List.mem_of_mem_drop hc))

theorem mem_scientific {d : Digits} {c : Char} (hc : c ∈ d.scientific) :
    c.isDigit = true ∨ c ∈ lit ".e-+" := by
  have htext : c ∈ d.text → c.isDigit = true := isDigit_of_mem_text
  have hexp : ∀ n, c ∈ Nat.toDigits 10 n → c.isDigit = true := fun n h =>
    Nat.isDigit_of_mem_toDigits (by omega) (by omega) h
  unfold scientific at hc
  rcases List.mem_append.mp hc with hc | hc
  · rcases List.mem_append.mp hc with hc | hc
    · exact .inl (htext (List.mem_of_mem_take hc))
    split at hc
    · cases hc
    rcases List.mem_cons.mp hc with rfl | hc
    · exact .inr (by decide)
    · exact .inl (htext (List.mem_of_mem_drop hc))
  · rcases List.mem_cons.mp hc with rfl | hc
    · exact .inr (by decide)
    rcases List.mem_cons.mp hc with hc | hc
    · right
      rw [hc]
      split <;> decide
    split at hc
    · rcases List.mem_cons.mp hc with rfl | hc
      · exact .inl rfl
      · exact .inl (hexp _ hc)
    · exact .inl (hexp _ hc)

theorem mem_repr {d : Digits} {c : Char} (hc : c ∈ d.repr) :
    c.isDigit = true ∨ c ∈ lit ".e-+" := by
  have hpos : c ∈ d.positional → c.isDigit = true ∨ c ∈ lit ".e-+" := by
    intro h
    rcases mem_positional h with h | rfl
    · exact .inl h
    · exact .inr (by decide)
  unfold repr at hc
  split at hc
  · exact mem_scientific hc
  split at hc
  · rcases List.mem_append.mp hc with hc | hc
    · exact hpos hc
    · rcases List.mem_cons.mp hc with rfl | hc
      · exact .inr (by decide)
      · obtain rfl := List.mem_singleton.mp hc
        exact .inl rfl
  · exact hpos hc

/-- The two notations are one for a fraction of ordinary size, and for nothing else. -/
theorem repr_eq_positional_iff (d : Digits) :
    d.repr = d.positional ↔ -4 < d.point ∧ d.point ≤ 16 ∧ d.exponent < 0 := by
  unfold repr
  split
  · rename_i hsize
    have hne : d.scientific ≠ d.positional := by
      intro h
      have he : 'e' ∈ d.positional := by
        rw [← h]
        simp [scientific]
      rcases mem_positional he with h | h
      · exact absurd h (by decide)
      · exact absurd h (by decide)
    simp only [hne, false_iff]
    omega
  · split
    · rename_i hsize hinteger
      have hne : d.positional ++ lit ".0" ≠ d.positional := by
        intro h
        have := congrArg List.length h
        simp [lit] at this
      simp only [hne, false_iff]
      omega
    · simp only [true_iff]
      omega

/-- Below `1e15`, and without a fraction. -/
def isSmallInteger (d : Digits) : Bool :=
  0 ≤ d.exponent && d.mantissa * 10 ^ d.exponent.toNat < 10 ^ 15

/-- A small integer, or a fraction from a ten-thousandth on and below `1e16`. -/
def isPlain (d : Digits) : Bool :=
  d.isSmallInteger || (-4 < d.point && d.point ≤ 16 && d.exponent < 0)

end Digits

/-- A minus where the number has one. -/
def signed (negative : Bool) (text : Text) : Text := if negative then '-' :: text else text

theorem signed_inj {negative : Bool} {a b : Text} : signed negative a = signed negative b ↔ a = b := by
  cases negative <;> simp [signed]

/-- The double nearest to a decimal of at most fifteen digits: these are its shortest ones. -/
def Double.ofDecimal (q : ℚ) : Double :=
  if q = 0 then .finite false .zero
  else
    match (List.range 320).find? fun places => 10 ^ places % q.den = 0 with
    | none => .nan
    | some places =>
        match Digits.ofScaled 320 (q.num.natAbs * (10 ^ places / q.den)) (-places) with
        | none => .nan
        | some digits => .finite (q < 0) digits

/-- A number that is printed the same in both notations, or not printed at all. -/
def Double.isPlain : Double → Bool
  | .finite _ digits => digits.isPlain
  | _ => true

end Notation
