import DeadReckoning.Lib.Decimal

/-! Numbers as they stand in commands, and what a reader of the command makes of them. -/
namespace DeadReckoning.Recovery

/-- A number in a command: at most five decimal places, no zeros at the end, no `-0`. -/
def fmtNum : F64 → Text
  | .fin q =>
      let s := (Decimal.fixed 5 q).rdropWhile Decimal.isZero
      let s := if s.getLast? = some '.' then s.dropLast else s
      if s = lit "-0" then lit "0" else s
  | _ => lit "invalid"

/-- The number that the text of a finite number denotes. -/
def quantized (q : ℚ) : ℚ := Decimal.quantize 5 q

theorem abs_quantized_sub_le (q : ℚ) : |quantized q - q| ≤ 5 / 1000000 := by
  have h := Decimal.abs_quantize_sub_le 5 q
  norm_num at h ⊢
  exact h

/-- The units of the last place, without the sign. -/
def units (q : ℚ) : ℕ := (Decimal.roundHalfEven (q * 10 ^ 5)).natAbs

/-- The digits of a finite number, with the point when a fraction is left. -/
def magnitude (q : ℚ) : Text :=
  let frac := Decimal.fraction 5 (units q % 10 ^ 5)
  Nat.toDigits 10 (units q / 10 ^ 5) ++ if frac = [] then [] else '.' :: frac

theorem exists_digit_magnitude (q : ℚ) : ∃ d rest, magnitude q = d :: rest ∧ d.isDigit = true := by
  obtain ⟨d, digits, hdigits⟩ :=
    List.exists_cons_of_ne_nil (Nat.toDigits_ne_nil (n := units q / 10 ^ 5) (b := 10))
  refine ⟨d, digits ++ _, by rw [magnitude, hdigits, List.cons_append], ?_⟩
  exact Nat.isDigit_of_mem_toDigits (b := 10) (n := units q / 10 ^ 5) (by omega) (by omega)
    (hdigits ▸ List.mem_cons_self)

theorem fmtNum_fin (q : ℚ) :
    fmtNum (.fin q) = if q < 0 ∧ magnitude q ≠ lit "0" then '-' :: magnitude q
      else magnitude q := by
  have hfixed : (Decimal.fixed 5 q).rdropWhile Decimal.isZero =
      ((if q < 0 then ['-'] else []) ++ Nat.toDigits 10 (units q / 10 ^ 5)) ++
        '.' :: Decimal.fraction 5 (units q % 10 ^ 5) :=
    Decimal.rdropWhile_append_cons (by decide)
  have hpoint : (if ((Decimal.fixed 5 q).rdropWhile Decimal.isZero).getLast? = some '.'
      then ((Decimal.fixed 5 q).rdropWhile Decimal.isZero).dropLast
      else (Decimal.fixed 5 q).rdropWhile Decimal.isZero) =
      (if q < 0 then ['-'] else []) ++ magnitude q := by
    rw [hfixed, magnitude]
    by_cases hfrac : Decimal.fraction 5 (units q % 10 ^ 5) = []
    · rw [hfrac, if_pos (by simp), if_pos rfl, List.append_nil, List.dropLast_concat]
    · have hlast : (Decimal.fraction 5 (units q % 10 ^ 5)).getLast? ≠ some '.' := by
        intro h
        have hdigit := Decimal.isDigit_of_mem_fraction (List.mem_of_getLast? h)
        exact absurd hdigit (by decide)
      rw [if_neg hfrac, if_neg, List.append_assoc]
      rwa [List.getLast?_append_cons, List.getLast?_cons_of_ne_nil hfrac]
  obtain ⟨d, rest, hmag, hd⟩ := exists_digit_magnitude q
  have hsign : d ≠ '-' := by
    rintro rfl
    exact absurd hd (by decide)
  dsimp only [fmtNum]
  rw [hpoint]
  by_cases hneg : q < 0
  · by_cases hzero : magnitude q = lit "0"
    · simp [hneg, hzero, lit]
    · have hne : '-' :: magnitude q ≠ lit "-0" := by
        intro h
        exact hzero (List.cons.inj h).2
      rw [if_pos hneg, List.singleton_append, if_neg hne, if_pos ⟨hneg, hzero⟩]
  · have hne : magnitude q ≠ lit "-0" := by
      rw [hmag]
      intro h
      exact hsign (List.cons.inj h).1
    rw [if_neg hneg, List.nil_append, if_neg hne, if_neg (fun h => hneg h.1)]

theorem isDigit_or_point_of_mem_magnitude {q : ℚ} {c : Char} (hc : c ∈ magnitude q) :
    c.isDigit = true ∨ c = '.' := by
  rcases List.mem_append.mp hc with hwhole | hfrac
  · exact .inl (Nat.isDigit_of_mem_toDigits (by omega) (by omega) hwhole)
  · split at hfrac
    · simp at hfrac
    · rcases List.mem_cons.mp hfrac with rfl | hdigit
      · exact .inr rfl
      · exact .inl (Decimal.isDigit_of_mem_fraction hdigit)

/-- The characters of the text of a finite number. -/
def isNumberChar (c : Char) : Bool := c.isDigit || c = '.' || c = '-'

theorem isNumberChar_of_mem_fmtNum {q : ℚ} {c : Char} (hc : c ∈ fmtNum (.fin q)) :
    isNumberChar c = true := by
  have hmag : c ∈ magnitude q → isNumberChar c = true := by
    intro h
    rcases isDigit_or_point_of_mem_magnitude h with hdigit | rfl
    · simp [isNumberChar, hdigit]
    · rfl
  rw [fmtNum_fin] at hc
  split at hc
  · rcases List.mem_cons.mp hc with rfl | h
    · rfl
    · exact hmag h
  · exact hmag hc

theorem isNumberChar_range {c : Char} (h : isNumberChar c = true) :
    45 ≤ c.toNat ∧ c.toNat ≤ 57 := by
  simp only [isNumberChar, Char.isDigit, Bool.or_eq_true, Bool.and_eq_true, decide_eq_true_eq] at h
  rcases h with (⟨hlo, hhi⟩ | rfl) | rfl
  · have hlo' : 48 ≤ c.toNat := hlo
    have hhi' : c.toNat ≤ 57 := hhi
    omega
  · decide
  · decide

theorem isWhitespace_of_isNumberChar {c : Char} (h : isNumberChar c = true) :
    Text.isWhitespace c = false := by
  have hrange := isNumberChar_range h
  simp only [Text.isWhitespace, Bool.or_eq_false_iff, Bool.and_eq_false_iff, decide_eq_false_iff_not,
    beq_eq_false_iff_ne]
  omega

theorem toUpper_of_isNumberChar {c : Char} (h : isNumberChar c = true) : c.toUpper = c := by
  have hrange := isNumberChar_range h
  have hlow : ¬ (97 : UInt32) ≤ c.val := by
    intro hge
    have hge' : 97 ≤ c.toNat := hge
    omega
  exact Text.toUpper_other fun h => hlow h.1

/-- The text of a number has no blank in it. -/
theorem isWhitespace_of_mem_fmtNum {v : F64} {c : Char} (hc : c ∈ fmtNum v) :
    Text.isWhitespace c = false := by
  cases v with
  | fin q => exact isWhitespace_of_isNumberChar (isNumberChar_of_mem_fmtNum hc)
  | inf negative =>
    revert c
    cases negative <;> decide
  | nan =>
    revert c
    decide

theorem fmtNum_fin_ne_nil (q : ℚ) : fmtNum (.fin q) ≠ [] := by
  obtain ⟨d, rest, hmag, -⟩ := exists_digit_magnitude q
  rw [fmtNum_fin, hmag]
  split <;> simp

theorem fmtNum_ne_nil (v : F64) : fmtNum v ≠ [] := by
  cases v with
  | fin q => exact fmtNum_fin_ne_nil q
  | inf s => simp [fmtNum, lit]
  | nan => simp [fmtNum, lit]

/-- Characters that no number contains. -/
theorem notMem_fmtNum_fin {q : ℚ} {c : Char} (hc : isNumberChar c = false) :
    c ∉ fmtNum (.fin q) := by
  intro hmem
  rw [isNumberChar_of_mem_fmtNum hmem] at hc
  exact absurd hc (by decide)

theorem brace_notMem_fmtNum (v : F64) : '{' ∉ fmtNum v := by
  cases v with
  | fin q => exact notMem_fmtNum_fin (by decide)
  | inf negative => cases negative <;> decide
  | nan => decide

theorem parseUnsigned_magnitude (q : ℚ) :
    Decimal.parseUnsigned (magnitude q) = some ((units q : ℚ) / 10 ^ 5) := by
  have hwhole : ∀ c ∈ Nat.toDigits 10 (units q / 10 ^ 5), c.isDigit = true :=
    fun c hc => Nat.isDigit_of_mem_toDigits (by omega) (by omega) hc
  have hfrac : ∀ c ∈ Decimal.fraction 5 (units q % 10 ^ 5), c.isDigit = true :=
    fun c hc => Decimal.isDigit_of_mem_fraction hc
  have hdigits := Decimal.parseUnsigned_digits hwhole Nat.toDigits_ne_nil hfrac
  have hvalue := @Decimal.ofDigitChars_fraction 5 (units q % 10 ^ 5) (by omega)
    (Nat.mod_lt _ (by omega)) (units q / 10 ^ 5)
  have hunits : ((units q / 10 ^ 5 : ℕ) : ℚ) + ((units q % 10 ^ 5 : ℕ) : ℚ) / 10 ^ 5 =
      (units q : ℚ) / 10 ^ 5 := by
    have h : ((10 ^ 5 * (units q / 10 ^ 5) + units q % 10 ^ 5 : ℕ) : ℚ) = units q :=
      congrArg Nat.cast (Nat.div_add_mod _ _)
    push_cast at h
    field_simp
    linarith
  rw [magnitude, hdigits, Nat.ofDigitChars_ten_toDigits, hvalue, hunits]

theorem units_cast (q : ℚ) :
    quantized q = if q < 0 then -((units q : ℚ) / 10 ^ 5) else (units q : ℚ) / 10 ^ 5 := by
  have hround := abs_le.mp (Decimal.abs_roundHalfEven_sub_le (q * 10 ^ 5))
  rw [quantized, Decimal.quantize, units]
  generalize Decimal.roundHalfEven (q * 10 ^ 5) = r at hround ⊢
  split <;> rename_i hq
  · have hr : (r : ℚ) < 1 := by linarith [hround.2]
    have hnonpos : r ≤ 0 := by
      have : r < 1 := by exact_mod_cast hr
      omega
    have habs : ((r.natAbs : ℕ) : ℚ) = -r := by
      rw [Nat.cast_natAbs, abs_of_nonpos hnonpos]
      push_cast
      rfl
    rw [habs]
    ring
  · have hr : (-1 : ℚ) < r := by linarith [hround.1]
    have hnonneg : 0 ≤ r := by
      have : -1 < r := by exact_mod_cast hr
      omega
    have habs : ((r.natAbs : ℕ) : ℚ) = r := by
      rw [Nat.cast_natAbs, abs_of_nonneg hnonneg]
    rw [habs]

/-- Reading a rendered number gives the number at five decimal places. -/
theorem parseF64_fmtNum (q : ℚ) : Decimal.parseF64 (fmtNum (.fin q)) = some (.fin (quantized q)) := by
  obtain ⟨d, rest, hmag, hd⟩ := exists_digit_magnitude q
  have hminus : d ≠ '-' := by
    rintro rfl
    exact absurd hd (by decide)
  have hplus : d ≠ '+' := by
    rintro rfl
    exact absurd hd (by decide)
  have hparse := parseUnsigned_magnitude q
  have hpositive : Decimal.parseF64 (magnitude q) = some (.fin ((units q : ℚ) / 10 ^ 5)) := by
    rw [hmag] at hparse ⊢
    simp [Decimal.parseF64, hminus, hplus, hparse]
  have hcast := units_cast q
  rw [fmtNum_fin]
  by_cases hneg : q < 0
  · by_cases hzero : magnitude q = lit "0"
    · have hunits : (units q : ℚ) / 10 ^ 5 = 0 := by
        have hread : Decimal.parseUnsigned (lit "0") = some 0 := by decide +kernel
        rw [hzero, hread] at hparse
        exact (Option.some.inj hparse).symm
      rw [if_neg (fun h => h.2 hzero), hpositive, hcast, if_pos hneg, hunits, neg_zero]
    · rw [if_pos ⟨hneg, hzero⟩, hcast, if_pos hneg]
      simp [Decimal.parseF64, hparse]
  · rw [if_neg (fun h => hneg h.1), hpositive, hcast, if_neg hneg]

example : fmtNum (.fin (-1 / 8)) = lit "-0.125" ∧ fmtNum 1200 = lit "1200" := by
  decide +kernel

end DeadReckoning.Recovery
