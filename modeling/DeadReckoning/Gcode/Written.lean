import DeadReckoning.Gcode.Display

/-! What is read of a command that is written as a letter with a number, and words of one letter
with a number each. -/
namespace DeadReckoning.Gcode

/-- A character that a value may have: it begins no word, and cuts none off. -/
structure IsValueChar (c : Char) : Prop where
  between : isBetween c = true
  solid : Text.isWhitespace c = false
  code : c ≠ ';'
  ascii : c.toNat < 128
  upper : c.toUpper = c

def IsValue (text : Text) : Prop := ∀ c ∈ text, IsValueChar c

/-- Words with a blank in front of each. -/
def wordsText (words : List (Char × Text)) : Text :=
  words.flatMap fun word => ' ' :: word.1 :: word.2

/-- A command of a letter and a number, with words behind it. -/
def written (letter : Char) (number : Text) (words : List (Char × Text)) : Text :=
  letter :: number ++ wordsText words

/-- The words are letters, each with a value. -/
def AreWords (words : List (Char × Text)) : Prop :=
  ∀ word ∈ words, word.1.isUpper = true ∧ IsValue word.2

section Parts

variable {words : List (Char × Text)} {text value : Text} {word : Char × Text} {letter : Char}

theorem isRun_of_isUpper {c : Char} (h : c.isUpper = true) : isRun c = true := by simp [isRun, h]

theorem IsValueChar.not_run {c : Char} (h : IsValueChar c) : isRun c = false := by
  have hbetween := h.between
  simp only [isBetween, Bool.and_eq_true, Bool.not_eq_true'] at hbetween
  exact hbetween.1

theorem wordsText_cons (word : Char × Text) (words : List (Char × Text)) :
    wordsText (word :: words) = ' ' :: word.1 :: (word.2 ++ wordsText words) := by
  simp [wordsText]

/-- A value ends where the next word begins. -/
theorem value_stops (hvalue : IsValue value) :
    ∀ c ∈ (value ++ wordsText words).head?, isRun c = false := by
  intro c hc
  cases value with
  | cons d value =>
    obtain rfl := Option.some.inj hc
    exact (hvalue _ List.mem_cons_self).not_run
  | nil =>
    cases words with
    | nil => cases hc
    | cons word words =>
      rw [List.nil_append, wordsText_cons] at hc
      obtain rfl := Option.some.inj hc
      rfl

theorem splitArgs_value_nil (hvalue : IsValue value) : splitArgs value = [value] := by
  have hall := @splitArgsFrom_between [] value [] fun c hc => (hvalue c hc).between
  rw [List.append_nil, List.nil_append] at hall
  rw [splitArgs, hall]
  rfl

theorem splitArgs_value_cons (hvalue : IsValue value) (hwords : AreWords (word :: words)) :
    splitArgs (value ++ wordsText (word :: words)) =
      (value ++ [' ']) :: [word.1] :: splitArgs (word.2 ++ wordsText words) := by
  obtain ⟨hletter, hrest⟩ := hwords word List.mem_cons_self
  have htext : ∀ c ∈ value ++ [' '], isBetween c = true := by
    intro c hc
    rcases List.mem_append.mp hc with hc | hc
    · exact (hvalue c hc).between
    · rw [List.mem_singleton.mp hc]
      decide
  have hword : ∀ c ∈ [word.1], isRun c = true := by
    intro c hc
    rw [List.mem_singleton.mp hc]
    exact isRun_of_isUpper hletter
  rw [← splitArgs_word htext (List.cons_ne_nil _ _) hword (value_stops hrest), wordsText_cons]
  congr 1
  simp

theorem trim_value (hvalue : IsValue value) {blank : Text}
    (hblank : ∀ c ∈ blank, Text.isWhitespace c = true) : Text.trim (value ++ blank) = value := by
  by_cases hne : value = []
  · subst hne
    have hdrop : blank.dropWhile Text.isWhitespace = [] := List.dropWhile_eq_nil_iff.mpr hblank
    rw [List.nil_append, Text.trim, hdrop]
    rfl
  · have htrim := @Text.trim_append [] value blank (by simp) hblank hne
      (hvalue _ (List.head_mem hne)).solid (hvalue _ (List.getLast_mem hne)).solid
    rwa [List.nil_append] at htrim

/-- Each word is read with its value. -/
theorem pairsOfWords_written (hvalue : IsValue value) (hwords : AreWords words) (key : Text) :
    pairsOfWords (key :: splitArgs (value ++ wordsText words)) =
      (key, value) :: words.map fun word => ([word.1], word.2) := by
  induction words generalizing key value with
  | nil =>
    have hnone : wordsText [] = [] := rfl
    have htrim : Text.trim value = value := by
      simpa using @trim_value value hvalue [] (by simp)
    rw [hnone, List.append_nil, splitArgs_value_nil hvalue, pairsOfWords, htrim]
    rfl
  | cons word words ih =>
    rw [splitArgs_value_cons hvalue hwords, pairsOfWords, trim_value hvalue (by decide),
      ih (hwords word List.mem_cons_self).2 fun w hw => hwords w (List.mem_cons_of_mem _ hw)]
    rfl

/-- The first value, with the blank that stands behind it. -/
theorem splitArgs_first (words : List (Char × Text)) (hvalue : IsValue value)
    (hwords : AreWords words) :
    ∃ blank more, splitArgs (value ++ wordsText words) = (value ++ blank) :: more ∧
      ∀ c ∈ blank, Text.isWhitespace c = true := by
  cases words with
  | nil =>
    have hnone : wordsText [] = [] := rfl
    refine ⟨[], [], ?_, by simp⟩
    rw [hnone, List.append_nil, splitArgs_value_nil hvalue]
  | cons word words => exact ⟨[' '], _, splitArgs_value_cons hvalue hwords, by decide⟩

theorem splitArgs_written (words : List (Char × Text)) (hletter : letter.isUpper = true)
    (hvalue : IsValue value) :
    splitArgs (written letter value words) =
      [] :: [letter] :: splitArgs (value ++ wordsText words) := by
  have hword : ∀ c ∈ [letter], isRun c = true := by
    intro c hc
    rw [List.mem_singleton.mp hc]
    exact isRun_of_isUpper hletter
  exact @splitArgs_word [] [letter] _ (by simp) (List.cons_ne_nil _ _) hword (value_stops hvalue)

end Parts

section Reading

variable {cases : CaseMapping} {words : List (Char × Text)} {number : Text} {letter : Char}

/-- What the characters of a written command have in common. -/
theorem mem_written {P : Char → Prop} (hletter : letter.isUpper = true) (hnumber : IsValue number)
    (hwords : AreWords words) (hblank : P ' ') (hupper : ∀ c, c.isUpper = true → P c)
    (hvalue : ∀ c, IsValueChar c → P c) : ∀ c ∈ written letter number words, P c := by
  intro c hc
  rcases List.mem_append.mp hc with hc | hc
  · rcases List.mem_cons.mp hc with rfl | hc
    · exact hupper _ hletter
    · exact hvalue c (hnumber c hc)
  · obtain ⟨word, hword, hc⟩ := List.mem_flatMap.mp hc
    rcases List.mem_cons.mp hc with rfl | hc
    · exact hblank
    · rcases List.mem_cons.mp hc with rfl | hc
      · exact hupper _ (hwords word hword).1
      · exact hvalue c ((hwords word hword).2 c hc)

theorem range_of_isUpper {c : Char} (h : c.isUpper = true) : 65 ≤ c.toNat ∧ c.toNat ≤ 90 := by
  rw [Text.isUpper_eq, decide_eq_true_eq] at h
  exact ⟨h.1, h.2⟩

theorem toUpper_of_isUpper {c : Char} (h : c.isUpper = true) : c.toUpper = c := by
  refine Text.toUpper_other fun hsmall => ?_
  have hlow : 97 ≤ c.toNat := hsmall.1
  have hrange := range_of_isUpper h
  omega

/-- The last character of a written command is no blank. -/
theorem last_written (hletter : letter.isUpper = true) (hnumber : IsValue number)
    (hwords : AreWords words) :
    ∀ c ∈ (written letter number words).getLast?, Text.isWhitespace c = false := by
  have hword : ∀ (first : Char) (value : Text), first.isUpper = true → IsValue value →
      ∀ c ∈ (first :: value).getLast?, Text.isWhitespace c = false := by
    intro first value hfirst hvalue c hc
    rcases List.mem_cons.mp (List.mem_of_getLast? hc) with rfl | hc
    · exact isWhitespace_of_isRun (isRun_of_isUpper hfirst)
    · exact (hvalue c hc).solid
  rcases List.eq_nil_or_concat words with rfl | ⟨front, last, rfl⟩
  · have hnone : written letter number [] = letter :: number := List.append_nil _
    rw [hnone]
    exact hword letter number hletter hnumber
  · obtain ⟨hlast, hvalue⟩ := hwords last (by simp)
    have hsplit : written letter number (front.concat last) =
        (written letter number front ++ [' ']) ++ last.1 :: last.2 := by
      simp [written, wordsText]
    rw [hsplit, List.getLast?_append_cons]
    exact hword last.1 last.2 hlast hvalue

/-- A command that is written from its parts is read as them. -/
theorem parseLine_written (hletter : letter.isUpper = true) (hN : letter ≠ 'N')
    (hnumber : IsValue number) (htraditional : isTraditionalCommand (letter :: number) = true)
    (hwords : AreWords words) :
    parseLine cases (written letter number words) = .command
      ⟨letter :: number, .traditional (words.map fun word => ([word.1], word.2))⟩ none := by
  have hupperSelf : IsUpper (written letter number words) := by
    refine mem_written hletter hnumber hwords (by decide) ?_ fun c hc => ⟨hc.ascii, hc.upper⟩
    intro c hc
    have hrange := range_of_isUpper hc
    exact ⟨by omega, toUpper_of_isUpper hc⟩
  have hcodeAll : ∀ c ∈ written letter number words, c ≠ ';' := by
    refine mem_written hletter hnumber hwords (by decide) ?_ fun c hc => hc.code
    rintro c hc rfl
    exact absurd hc (by decide)
  have htrim : Text.trim (written letter number words) = written letter number words := by
    refine Text.trim_eq_self ?_ (last_written hletter hnumber hwords)
    intro c hc
    obtain rfl := Option.some.inj hc
    exact isWhitespace_of_isRun (isRun_of_isUpper hletter)
  have hcode : (written letter number words).takeWhile (· ≠ ';') = written letter number words :=
    List.takeWhile_eq_self_iff.mpr fun c hc => decide_eq_true (hcodeAll c hc)
  have hcomment : (written letter number words).dropWhile (· ≠ ';') = [] :=
    List.dropWhile_eq_nil_iff.mpr fun c hc => decide_eq_true (hcodeAll c hc)
  have hparts := splitArgs_written words hletter hnumber
  have hnotNumbered : isNumbered (splitArgs (written letter number words)) = false := by
    rw [hparts]
    unfold isNumbered
    split
    · rename_i heq
      simp only [List.cons.injEq, true_and, and_true] at heq
      exact absurd heq.1 hN
    · rfl
  have hname : commandName (splitArgs (written letter number words)) = letter :: number := by
    obtain ⟨blank, more, hfirst, hblank⟩ := splitArgs_first words hnumber hwords
    have htrimName := @Text.trim_append [] (letter :: number) blank (by simp) hblank
      (List.cons_ne_nil _ _) (isWhitespace_of_isRun (isRun_of_isUpper hletter)) (by
        rcases List.mem_cons.mp (List.getLast_mem (List.cons_ne_nil letter number)) with h | h
        · rw [h]
          exact isWhitespace_of_isRun (isRun_of_isUpper hletter)
        · exact (hnumber _ h).solid)
    rw [commandName, hnotNumbered, hparts, hfirst]
    simpa using htrimName
  have hpairs : (pairsFromParts (splitArgs (written letter number words))).drop 1 =
      words.map fun word => ([word.1], word.2) := by
    rw [pairsFromParts, hparts, List.drop_succ_cons, List.drop_zero,
      pairsOfWords_written hnumber hwords]
    rfl
  have hne : written letter number words ≠ [] := List.cons_ne_nil _ _
  unfold parseLine
  simp only [htrim, hcode, hcomment, upper_of_isUpper hupperSelf, hname, hnotNumbered, hpairs, hne,
    htraditional, if_false, if_true, List.cons_ne_nil, false_and, Bool.false_eq_true]

end Reading

end DeadReckoning.Gcode
