import DeadReckoning.Lib.F64
import DeadReckoning.Lib.Text
import Mathlib.Data.Rat.Floor
import Mathlib.Tactic.Ring
import Mathlib.Tactic.FieldSimp
import Mathlib.Tactic.Positivity

/-! Decimal notation: rounding to a fixed number of places, the text of a rounded number and
the number a text denotes, with the round trip between the two. -/
namespace Decimal

/-- The nearest integer, the even one of two equally near. -/
def roundHalfEven (x : ℚ) : ℤ :=
  let floor := ⌊x⌋
  let rest := x - floor
  if rest < 1 / 2 then floor
  else if 1 / 2 < rest then floor + 1
  else if floor % 2 = 0 then floor else floor + 1

theorem abs_roundHalfEven_sub_le (x : ℚ) : |(roundHalfEven x : ℚ) - x| ≤ 1 / 2 := by
  have hlo : (⌊x⌋ : ℚ) ≤ x := Int.floor_le x
  have hhi : x < ⌊x⌋ + 1 := Int.lt_floor_add_one x
  have hnext : ((⌊x⌋ + 1 : ℤ) : ℚ) = ⌊x⌋ + 1 := by push_cast; ring
  dsimp only [roundHalfEven]
  rw [abs_le]
  split
  · constructor <;> linarith
  · split
    · rw [hnext]
      constructor <;> linarith
    · split
      · constructor <;> linarith
      · rw [hnext]
        constructor <;> linarith

/-- The number at `places` decimal places that is nearest to `q`. -/
def quantize (places : ℕ) (q : ℚ) : ℚ := roundHalfEven (q * 10 ^ places) / 10 ^ places

theorem abs_quantize_sub_le (places : ℕ) (q : ℚ) :
    |quantize places q - q| ≤ 1 / (2 * 10 ^ places) := by
  have hpos : (0 : ℚ) < 10 ^ places := by positivity
  have hround := abs_roundHalfEven_sub_le (q * 10 ^ places)
  have hscale : quantize places q - q =
      (roundHalfEven (q * 10 ^ places) - q * 10 ^ places) / 10 ^ places := by
    rw [quantize]
    field_simp
  rw [hscale, abs_div, abs_of_pos hpos, div_le_div_iff₀ hpos (by positivity)]
  nlinarith

section Rendering

/-- Exactly `width` digits, for a number that has at most that many. -/
def padded (width n : ℕ) : Text :=
  List.replicate (width - (Nat.toDigits 10 n).length) '0' ++ Nat.toDigits 10 n

/-- The text with exactly `places` decimal places. -/
def fixed (places : ℕ) (q : ℚ) : Text :=
  let n := (roundHalfEven (q * 10 ^ places)).natAbs
  (if q < 0 then ['-'] else []) ++ Nat.toDigits 10 (n / 10 ^ places) ++
    '.' :: padded places (n % 10 ^ places)

def isZero (c : Char) : Bool := c == '0'

/-- The digits after the point, without the zeros at their end. -/
def fraction (places n : ℕ) : Text := (padded places n).rdropWhile isZero

/-- Cutting from the end stops at a character that stays. -/
theorem rdropWhile_append_cons {p : Char → Bool} {a l : Text} {c : Char} (hc : ¬ p c = true) :
    (a ++ c :: l).rdropWhile p = a ++ c :: l.rdropWhile p := by
  induction l using List.reverseRecOn with
  | nil => rw [List.rdropWhile_concat_neg _ _ _ hc, List.rdropWhile_nil]
  | append_singleton l x ih =>
    rw [← List.cons_append, ← List.append_assoc, List.rdropWhile_concat, List.rdropWhile_concat]
    split
    · exact ih
    · simp

theorem ofDigitChars_padded (width n : ℕ) : Nat.ofDigitChars 10 (padded width n) 0 = n := by
  rw [padded, Nat.ofDigitChars_append, Nat.ofDigitChars_replicate_zero, Nat.mul_zero,
    Nat.ofDigitChars_ten_toDigits]

theorem length_padded {width n : ℕ} (hwidth : 0 < width) (hn : n < 10 ^ width) :
    (padded width n).length = width := by
  have hle : (Nat.toDigits 10 n).length ≤ width :=
    (Nat.length_toDigits_le_iff (by omega) hwidth).mpr hn
  rw [padded, List.length_append, List.length_replicate]
  omega

theorem isDigit_of_mem_padded {width n : ℕ} {c : Char} (hc : c ∈ padded width n) :
    c.isDigit = true := by
  rcases List.mem_append.mp hc with hzero | hdigit
  · rw [List.eq_of_mem_replicate hzero]
    rfl
  · exact Nat.isDigit_of_mem_toDigits (by omega) (by omega) hdigit

/-- The zeros cut from the end of the digits. -/
theorem padded_eq_fraction_append (places n : ℕ) :
    ∃ k, padded places n = fraction places n ++ List.replicate k '0' := by
  refine ⟨((padded places n).reverse.takeWhile isZero).length, ?_⟩
  have hzeros : (padded places n).reverse.takeWhile isZero =
      List.replicate ((padded places n).reverse.takeWhile isZero).length '0' := by
    rw [List.eq_replicate_iff]
    refine ⟨rfl, fun c hc => ?_⟩
    simpa [isZero] using List.mem_takeWhile_imp hc
  have hsplit := List.takeWhile_append_dropWhile (p := isZero) (l := (padded places n).reverse)
  have hrev := congrArg List.reverse hsplit
  rw [List.reverse_append, List.reverse_reverse, hzeros, List.reverse_replicate] at hrev
  exact hrev.symm

theorem isDigit_of_mem_fraction {places n : ℕ} {c : Char} (hc : c ∈ fraction places n) :
    c.isDigit = true := by
  obtain ⟨k, hk⟩ := padded_eq_fraction_append places n
  exact isDigit_of_mem_padded (hk ▸ List.mem_append_left _ hc)

/-- Cutting the zeros keeps the value of the digits as a decimal fraction. -/
theorem ofDigitChars_fraction {places n : ℕ} (hplaces : 0 < places) (hn : n < 10 ^ places)
    (whole : ℕ) :
    (Nat.ofDigitChars 10 (fraction places n) whole : ℚ) / 10 ^ (fraction places n).length =
      whole + n / 10 ^ places := by
  obtain ⟨k, hk⟩ := padded_eq_fraction_append places n
  have hlength : (fraction places n).length + k = places := by
    have hpadded := length_padded hplaces hn
    rwa [hk, List.length_append, List.length_replicate] at hpadded
  have hvalue : Nat.ofDigitChars 10 (padded places n) whole =
      10 ^ k * Nat.ofDigitChars 10 (fraction places n) whole := by
    rw [hk, Nat.ofDigitChars_append, Nat.ofDigitChars_replicate_zero]
  have hwhole : Nat.ofDigitChars 10 (padded places n) whole = 10 ^ places * whole + n := by
    rw [Nat.ofDigitChars_eq_ofDigitChars_zero, length_padded hplaces hn, ofDigitChars_padded]
  have hcast : (10 : ℚ) ^ k * Nat.ofDigitChars 10 (fraction places n) whole =
      10 ^ places * whole + n := by
    exact_mod_cast hvalue.symm.trans hwhole
  have hpow : (10 : ℚ) ^ places = 10 ^ (fraction places n).length * 10 ^ k := by
    rw [← pow_add]
    exact congrArg (10 ^ ·) hlength.symm
  rw [hpow] at hcast ⊢
  field_simp
  linarith

end Rendering

section Parsing

/-- `mantissa * 10 ^ exponent`. -/
def scale (mantissa : ℕ) : ℤ → ℚ
  | .ofNat k => mantissa * 10 ^ k
  | .negSucc k => mantissa / 10 ^ (k + 1)

theorem scale_neg (mantissa k : ℕ) : scale mantissa (-(k : ℤ)) = mantissa / 10 ^ k := by
  cases k with
  | zero => simp [scale]
  | succ k => rfl

/-- The exponent part: nothing, or an `e`, a sign and digits. -/
def parseExponent : Text → Option ℤ
  | [] => some 0
  | c :: rest =>
      if c = 'e' || c = 'E' then
        let (negative, digits) := match rest with
          | '-' :: r => (true, r)
          | '+' :: r => (false, r)
          | r => (false, r)
        if digits.isEmpty || !digits.all Char.isDigit then none
        else
          let n : ℤ := Nat.ofDigitChars 10 digits 0
          some (if negative then -n else n)
      else none

/-- A decimal number without a sign. -/
def parseUnsigned (s : Text) : Option ℚ :=
  let whole := s.takeWhile Char.isDigit
  let rest := s.dropWhile Char.isDigit
  let (frac, tail) := match rest with
    | '.' :: r => (r.takeWhile Char.isDigit, r.dropWhile Char.isDigit)
    | r => ([], r)
  if whole.isEmpty && frac.isEmpty then none
  else
    (parseExponent tail).map fun exponent =>
      scale (Nat.ofDigitChars 10 (whole ++ frac) 0) (exponent - frac.length)

/-- The words of the standard grammar that are not numbers, in lower case. -/
def parseSpecial (s : Text) : Option F64 :=
  if s = lit "inf" || s = lit "infinity" then some (.inf false)
  else if s = lit "nan" then some .nan
  else none

/-- `str::parse::<f64>`: an optional sign, then a decimal number, an infinity or a NaN. -/
def parseF64 (s : Text) : Option F64 :=
  let (negative, body) := match s with
    | '-' :: r => (true, r)
    | '+' :: r => (false, r)
    | r => (false, r)
  match parseUnsigned body with
  | some q => some (.fin (if negative then -q else q))
  | none => (parseSpecial (body.map Char.toLower)).map fun v => if negative then -v else v

/-- The characters that numbers are written with. -/
def isNumeral (c : Char) : Bool := c.isDigit || c.isAlpha || c == '.' || c == '+' || c == '-'

theorem isNumeral_of_isDigit {c : Char} (hc : c.isDigit = true) : isNumeral c = true := by
  simp [isNumeral, hc]

theorem isNumeral_of_parseExponent {s : Text} {exponent : ℤ} (h : parseExponent s = some exponent) :
    ∀ c ∈ s, isNumeral c = true := by
  have hdigits : ∀ (digits : Text) (n : ℤ),
      (if digits.isEmpty || !digits.all Char.isDigit then none else some n) = some exponent →
        ∀ c ∈ digits, isNumeral c = true := by
    intro digits n hread c hc
    split at hread
    · cases hread
    · rename_i hall
      simp only [Bool.or_eq_true, Bool.not_eq_true', not_or, Bool.not_eq_false,
        List.all_eq_true] at hall
      exact isNumeral_of_isDigit (hall.2 c hc)
  cases s with
  | nil => nofun
  | cons c rest =>
    simp only [parseExponent] at h
    split at h
    · rename_i he
      have hhead : isNumeral c = true := by
        simp only [Bool.or_eq_true, decide_eq_true_eq] at he
        rcases he with rfl | rfl <;> rfl
      have hrest : ∀ d ∈ rest, isNumeral d = true := by
        split at h
        · simpa [isNumeral] using hdigits _ _ h
        · simpa [isNumeral] using hdigits _ _ h
        · exact hdigits _ _ h
      simpa [hhead] using hrest
    · cases h

theorem isNumeral_of_parseUnsigned {s : Text} {q : ℚ} (h : parseUnsigned s = some q) :
    ∀ c ∈ s, isNumeral c = true := by
  have htake : ∀ (l : Text), ∀ c ∈ l.takeWhile Char.isDigit, isNumeral c = true := by
    intro l c hc
    exact isNumeral_of_isDigit (List.mem_takeWhile_imp hc)
  have hexponent : ∀ (whole frac tail : Text), (if whole.isEmpty && frac.isEmpty then none
      else (parseExponent tail).map fun exponent =>
        scale (Nat.ofDigitChars 10 (whole ++ frac) 0) (exponent - frac.length)) = some q →
      ∀ c ∈ tail, isNumeral c = true := by
    intro whole frac tail hread
    split at hread
    · cases hread
    · obtain ⟨exponent, hexponent, -⟩ := Option.map_eq_some_iff.mp hread
      exact isNumeral_of_parseExponent hexponent
  have hdrop : ∀ c ∈ s.dropWhile Char.isDigit, isNumeral c = true := by
    simp only [parseUnsigned] at h
    split at h
    · rename_i r hr
      have htail := hexponent _ _ _ h
      intro c hc
      rw [hr] at hc
      rcases List.mem_cons.mp hc with rfl | hc
      · rfl
      rw [← r.takeWhile_append_dropWhile (p := Char.isDigit)] at hc
      rcases List.mem_append.mp hc with hc | hc
      · exact htake r c hc
      · exact htail c hc
    · exact hexponent _ _ _ h
  intro c hc
  rw [← s.takeWhile_append_dropWhile (p := Char.isDigit)] at hc
  rcases List.mem_append.mp hc with hc | hc
  · exact htake s c hc
  · exact hdrop c hc

theorem isNumeral_of_toLower {c : Char} (h : c.toLower.isAlpha = true) : isNumeral c = true := by
  have hc : c.isAlpha = true := by
    by_cases hupper : c.isUpper = true
    · simp [Text.isAlpha_eq, hupper]
    · have hsame : c.toLower = c := by
        simp only [Text.isUpper_eq, decide_eq_true_eq] at hupper
        rw [Text.toLower_other hupper]
      rwa [hsame] at h
  simp [isNumeral, hc]

theorem isNumeral_of_parseSpecial {s : Text} {x : F64}
    (h : parseSpecial (s.map Char.toLower) = some x) : ∀ c ∈ s, isNumeral c = true := by
  have hword : ∀ word : Text, s.map Char.toLower = word → (∀ d ∈ word, d.isAlpha = true) →
      ∀ c ∈ s, isNumeral c = true := by
    intro word hs hword c hc
    exact isNumeral_of_toLower (hword _ (hs ▸ List.mem_map_of_mem hc))
  unfold parseSpecial at h
  split at h
  · rename_i hinf
    simp only [Bool.or_eq_true, decide_eq_true_eq] at hinf
    rcases hinf with hs | hs
    · exact hword _ hs (by decide)
    · exact hword _ hs (by decide)
  split at h
  · rename_i hs
    exact hword _ hs (by decide)
  · cases h

/-- A text that is read as a number has no other characters than those of numbers. -/
theorem isNumeral_of_parseF64 {s : Text} {x : F64} (h : parseF64 s = some x) :
    ∀ c ∈ s, isNumeral c = true := by
  have hbody : ∀ (negative : Bool) (body : Text), (match parseUnsigned body with
      | some q => some (F64.fin (if negative then -q else q))
      | none => (parseSpecial (body.map Char.toLower)).map fun v => if negative then -v else v) =
        some x → ∀ c ∈ body, isNumeral c = true := by
    intro negative body hsome
    split at hsome
    · rename_i hq
      exact isNumeral_of_parseUnsigned hq
    · obtain ⟨v, hv, -⟩ := Option.map_eq_some_iff.mp hsome
      exact isNumeral_of_parseSpecial hv
  unfold parseF64 at h
  split at h
  rename_i negative body hsign
  have hrest := hbody negative body h
  split at hsign
  · obtain ⟨-, rfl⟩ := Prod.mk.inj hsign
    simpa [isNumeral] using hrest
  · obtain ⟨-, rfl⟩ := Prod.mk.inj hsign
    simpa [isNumeral] using hrest
  · obtain ⟨-, rfl⟩ := Prod.mk.inj hsign
    exact hrest

theorem takeWhile_digits_append {digits rest : Text} (hdigits : ∀ c ∈ digits, c.isDigit = true)
    (hrest : ∀ c ∈ rest.head?, c.isDigit = false) :
    (digits ++ rest).takeWhile Char.isDigit = digits ∧
      (digits ++ rest).dropWhile Char.isDigit = rest := by
  have hstop : rest.takeWhile Char.isDigit = [] ∧ rest.dropWhile Char.isDigit = rest := by
    cases rest with
    | nil => exact ⟨rfl, rfl⟩
    | cons c rest => simp [hrest c rfl]
  constructor
  · rw [List.takeWhile_append_of_pos hdigits, hstop.1, List.append_nil]
  · rw [List.dropWhile_append_of_pos hdigits, hstop.2]

/-- Digits, and after a point more digits, denote the number they write. -/
theorem parseUnsigned_digits {whole : Text} (hwhole : ∀ c ∈ whole, c.isDigit = true)
    (hne : whole ≠ []) {frac : Text} (hfrac : ∀ c ∈ frac, c.isDigit = true) :
    parseUnsigned (whole ++ if frac = [] then [] else '.' :: frac) =
      some ((Nat.ofDigitChars 10 frac (Nat.ofDigitChars 10 whole 0) : ℚ) / 10 ^ frac.length) := by
  have hhead : ∀ c ∈ (if frac = [] then [] else '.' :: frac).head?, c.isDigit = false := by
    intro c hc
    split at hc
    · simp at hc
    · simp only [List.head?_cons, Option.mem_some_iff] at hc
      subst hc
      rfl
  obtain ⟨htake, hdrop⟩ := takeWhile_digits_append hwhole hhead
  have hfull := @takeWhile_digits_append frac [] hfrac (by simp)
  rw [List.append_nil] at hfull
  rw [parseUnsigned, htake, hdrop]
  by_cases hempty : frac = []
  · subst hempty
    simp [hne, parseExponent, scale]
  · rw [if_neg hempty]
    simp only [hfull.1, hfull.2, List.isEmpty_eq_false_iff.mpr hne, Bool.false_and,
      Bool.false_eq_true, if_false, parseExponent, Option.map_some, zero_sub]
    rw [scale_neg, Nat.ofDigitChars_append]

end Parsing

end Decimal
