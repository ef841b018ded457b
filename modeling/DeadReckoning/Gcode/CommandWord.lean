import DeadReckoning.Gcode.Parse

/-! The lines that have a given command word at their head, read off the text alone. -/
namespace DeadReckoning.Gcode

/-- Two texts that are cut where a property of their characters ends are cut at the same place. -/
theorem cut_inj {p : Char → Bool} {a a' b b' : Text} (ha : ∀ c ∈ a, p c = true)
    (ha' : ∀ c ∈ a', p c = true) (hb : ∀ c ∈ b.head?, p c = false) (hb' : ∀ c ∈ b'.head?, p c = false)
    (h : a ++ b = a' ++ b') : a = a' ∧ b = b' := by
  have hstop {b : Text} (hb : ∀ c ∈ b.head?, p c = false) : b.takeWhile p = [] := by
    cases b with
    | nil => rfl
    | cons c b => simp [hb c rfl]
  have htake := congrArg (List.takeWhile p) h
  rw [List.takeWhile_append_of_pos ha, List.takeWhile_append_of_pos ha', hstop hb, hstop hb',
    List.append_nil, List.append_nil] at htake
  subst htake
  exact ⟨rfl, List.append_cancel_left h⟩

/-- A word of letters with a number behind it, as commands are named. -/
structure IsCommandWord (word number : Text) : Prop where
  nonempty : word ≠ []
  run : ∀ c ∈ word, isRun c = true
  notNumbered : word ≠ ['N']
  between : ∀ c ∈ number, isBetween c = true
  solid : ∀ c ∈ number, Text.isWhitespace c = false

/-- What may stand before the command: blanks, or a line number. -/
def IsLead (before : Text) : Prop :=
  (∀ c ∈ before, Text.isWhitespace c = true) ∨
    ∃ number, number ≠ [] ∧ before = 'N' :: number ∧ ∀ c ∈ number, isBetween c = true

/-- The line begins with the command word, behind blanks or a line number, and only blanks follow
up to the next word. -/
def AtHead (word number line : Text) : Prop :=
  ∃ before blank after, line = before ++ word ++ (number ++ blank ++ after) ∧ IsLead before ∧
    (∀ c ∈ blank, Text.isWhitespace c = true) ∧ AtToken after ∧
    ∀ c ∈ (number ++ blank ++ after).head?, isRun c = false

section Trimmed

variable {word number text token behind : Text}

theorem IsCommandWord.head (h : IsCommandWord word number) :
    ∀ c ∈ (word ++ number).head?, isBetween c = false := by
  obtain ⟨c, rest, rfl⟩ := List.exists_cons_of_ne_nil h.nonempty
  intro d hd
  obtain rfl : c = d := Option.some.inj hd
  simp [isBetween, h.run c List.mem_cons_self]

theorem trim_command (h : IsCommandWord word number) {a b : Text}
    (ha : ∀ c ∈ a, Text.isWhitespace c = true) (hb : ∀ c ∈ b, Text.isWhitespace c = true) :
    Text.trim (a ++ (word ++ number) ++ b) = word ++ number := by
  have hsolid : ∀ c ∈ word ++ number, Text.isWhitespace c = false := by
    intro c hc
    rcases List.mem_append.mp hc with hc | hc
    · exact isWhitespace_of_isRun (h.run c hc)
    · exact h.solid c hc
  have hne : word ++ number ≠ [] := by simp [h.nonempty]
  exact Text.trim_append ha hb hne (hsolid _ (List.head_mem hne)) (hsolid _ (List.getLast_mem hne))

/-- Parts that are the command word when they are trimmed are its word and its number. -/
theorem parts_of_trim (h : IsCommandWord word number) (htext : ∀ c ∈ text, isBetween c = true)
    (hbehind : ∀ c ∈ behind, isBetween c = true) (htoken : token ≠ [])
    (hstart : ∀ c ∈ token, isBetween c = false)
    (htrim : Text.trim (text ++ token ++ behind) = word ++ number) :
    (∀ c ∈ text, Text.isWhitespace c = true) ∧ token = word ∧
      ∃ blank, behind = number ++ blank ∧ ∀ c ∈ blank, Text.isWhitespace c = true := by
  obtain ⟨a, b, hsplit, ha, hb⟩ := Text.exists_trim (text ++ token ++ behind)
  rw [htrim] at hsplit
  have hbetween {s : Text} (hs : ∀ c ∈ s, Text.isWhitespace c = true) : ∀ c ∈ s, isBetween c = true :=
    fun c hc => isBetween_of_isWhitespace (hs c hc)
  have hfirst : ∀ c ∈ (token ++ behind).head?, isBetween c = false := by
    obtain ⟨c, rest, rfl⟩ := List.exists_cons_of_ne_nil htoken
    intro d hd
    obtain rfl : c = d := Option.some.inj hd
    exact hstart c List.mem_cons_self
  have hword : ∀ c ∈ (word ++ number ++ b).head?, isBetween c = false := by
    have hhead := h.head
    obtain ⟨c, rest, rfl⟩ := List.exists_cons_of_ne_nil h.nonempty
    exact hhead
  have hsplit' : text ++ (token ++ behind) = a ++ (word ++ number ++ b) := by
    simpa using hsplit
  obtain ⟨rfl, hrest⟩ := cut_inj htext (hbetween ha) hfirst hword hsplit'
  have hstop {s : Text} (hs : ∀ c ∈ s, isBetween c = true) : ∀ c ∈ s.head?, (!isBetween c) = false := by
    intro c hc
    simp [hs c (List.mem_of_mem_head? hc)]
  have hnumber : ∀ c ∈ number ++ b, isBetween c = true := by
    intro c hc
    rcases List.mem_append.mp hc with hc | hc
    · exact h.between c hc
    · exact hbetween hb c hc
  have hrest' : token ++ behind = word ++ (number ++ b) := by simpa using hrest
  obtain ⟨rfl, hnum⟩ := cut_inj (p := fun c => !isBetween c) (by simpa using hstart)
    (fun c hc => by simp [isBetween, h.run c hc]) (hstop hbehind) (hstop hnumber) hrest'
  exact ⟨ha, rfl, b, hnum, hb⟩

end Trimmed

section Named

variable {word number line : Text}

theorem exists_splitArgs_head (s : Text) : ∃ text parts after, s = text ++ after ∧
    (∀ c ∈ text, isBetween c = true) ∧ AtToken after ∧ splitArgs s = text :: parts := by
  obtain ⟨text, htext, ⟨rfl, hparts⟩ | ⟨rest, rfl, hparts⟩ | ⟨token, rest, rfl, hne, hrun, -, hparts⟩⟩ :=
    exists_splitArgs s
  · exact ⟨s, [], [], by simp, htext, nofun, hparts⟩
  · refine ⟨text, _, '*' :: rest, rfl, htext, ?_, hparts⟩
    rintro c ⟨⟩
    decide
  · refine ⟨text, _, token ++ rest, by simp, htext, ?_, hparts⟩
    obtain ⟨c, token, rfl⟩ := List.exists_cons_of_ne_nil hne
    rintro d ⟨⟩
    simp [isBetween, hrun c List.mem_cons_self]

theorem isBetween_of_isRun {c : Char} (hc : isRun c = true) : isBetween c = false := by
  simp [isBetween, hc]

theorem isRun_of_isBetween {c : Char} (hc : isBetween c = true) : isRun c = false := by
  simp only [isBetween, Bool.and_eq_true, Bool.not_eq_true'] at hc
  exact hc.1

/-- A star is no command word. -/
theorem trim_star_ne (h : IsCommandWord word number) {text behind : Text}
    (htext : ∀ c ∈ text, isBetween c = true) (hbehind : ∀ c ∈ behind, isBetween c = true) :
    Text.trim (text ++ ['*'] ++ behind) ≠ word ++ number := by
  intro htrim
  obtain ⟨-, hstar, -⟩ := parts_of_trim h htext hbehind (by decide) (by decide) htrim
  have hrun := h.run '*' (hstar ▸ List.mem_cons_self)
  exact absurd hrun (by decide)

theorem commandName_of_word {text token behind : Text} {parts : List Text}
    (h : ¬ (text = [] ∧ token = ['N'])) :
    commandName (text :: token :: behind :: parts) = Text.trim (text ++ token ++ behind) := by
  have hnumbered : isNumbered (text :: token :: behind :: parts) = false := by
    unfold isNumbered
    split
    · rename_i heq
      simp only [List.cons.injEq] at heq
      exact absurd ⟨heq.1, heq.2.1⟩ h
    · rfl
  simp [commandName, hnumbered]

theorem commandName_of_number {num token behind : Text} {parts : List Text} :
    commandName ([] :: ['N'] :: num :: token :: behind :: parts) = Text.trim (token ++ behind) := rfl

theorem atHead_of_commandName (h : IsCommandWord word number)
    (hname : commandName (splitArgs line) = word ++ number) : AtHead word number line := by
  have hne : word ++ number ≠ [] := by simp [h.nonempty]
  have hstart {token : Text} (hrun : ∀ c ∈ token, isRun c = true) : ∀ c ∈ token, isBetween c = false :=
    fun c hc => isBetween_of_isRun (hrun c hc)
  obtain ⟨text, htext, ⟨rfl, hparts⟩ | ⟨rest, rfl, hparts⟩ |
    ⟨token, rest, rfl, htoken, hrun, hstop, hparts⟩⟩ := exists_splitArgs line
  · -- Without a word the name is the text itself.
    have htrim : Text.trim line = word ++ number := by
      rw [hparts] at hname
      simpa [commandName, isNumbered] using hname
    obtain ⟨a, b, hsplit, -, -⟩ := Text.exists_trim line
    obtain ⟨c, rest, rfl⟩ := List.exists_cons_of_ne_nil h.nonempty
    have hc := htext c (by rw [hsplit, htrim]; simp)
    rw [isBetween_of_isRun (h.run c List.mem_cons_self)] at hc
    cases hc
  · obtain ⟨behind, parts, after, -, hbehind, -, hrest⟩ := exists_splitArgs_head rest
    rw [hparts, hrest, commandName_of_word (by simp)] at hname
    exact absurd hname (trim_star_ne h htext hbehind)
  · by_cases hN : text = [] ∧ token = ['N']
    · obtain ⟨rfl, rfl⟩ := hN
      obtain ⟨num, hnum, ⟨rfl, hrest⟩ | ⟨rest, rfl, hrest⟩ |
        ⟨token, rest, rfl, htoken', hrun', hstop', hrest⟩⟩ := exists_splitArgs rest
      · rw [hparts, hrest] at hname
        exact absurd hname.symm hne
      · obtain ⟨behind, parts, after, -, hbehind, -, hsplit⟩ := exists_splitArgs_head rest
        rw [hparts, hrest, hsplit, commandName_of_number] at hname
        have hstar := @trim_star_ne word number h [] behind (List.forall_mem_nil _) hbehind
        exact absurd hname hstar
      · obtain ⟨behind, parts, after, rfl, hbehind, hafter, hsplit⟩ := exists_splitArgs_head rest
        rw [hparts, hrest, hsplit, commandName_of_number] at hname
        have hnothing : ∀ c ∈ ([] : Text), isBetween c = true := List.forall_mem_nil _
        obtain ⟨-, rfl, blank, rfl, hblank⟩ :=
          parts_of_trim h hnothing hbehind htoken' (hstart hrun') hname
        have hnumne : num ≠ [] := by
          rintro rfl
          obtain ⟨c, token, rfl⟩ := List.exists_cons_of_ne_nil htoken'
          have hc := hstop c rfl
          rw [hrun' c List.mem_cons_self] at hc
          cases hc
        exact ⟨'N' :: num, blank, after, by simp, .inr ⟨num, hnumne, rfl, hnum⟩, hblank, hafter,
          hstop'⟩
    · obtain ⟨behind, parts, after, rfl, hbehind, hafter, hsplit⟩ := exists_splitArgs_head rest
      rw [hparts, hsplit, commandName_of_word hN] at hname
      obtain ⟨hblanks, rfl, blank, rfl, hblank⟩ :=
        parts_of_trim h htext hbehind htoken (hstart hrun) hname
      exact ⟨text, blank, after, rfl, .inl hblanks, hblank, hafter, hstop⟩

theorem commandName_of_atHead (h : IsCommandWord word number) (hline : AtHead word number line) :
    commandName (splitArgs line) = word ++ number := by
  obtain ⟨before, blank, after, rfl, hlead, hblank, hafter, hstop⟩ := hline
  have hbehind : ∀ c ∈ number ++ blank, isBetween c = true := by
    intro c hc
    rcases List.mem_append.mp hc with hc | hc
    · exact h.between c hc
    · exact isBetween_of_isWhitespace (hblank c hc)
  obtain ⟨parts, hparts⟩ := splitArgs_between hbehind hafter
  rcases hlead with hblanks | ⟨num, hnumne, rfl, hnum⟩
  · have hbefore : ∀ c ∈ before, isBetween c = true :=
      fun c hc => isBetween_of_isWhitespace (hblanks c hc)
    rw [splitArgs_word hbefore h.nonempty h.run hstop, hparts,
      commandName_of_word (fun hN => h.notNumbered hN.2)]
    have htrim := trim_command h hblanks hblank
    simpa using htrim
  · have hhead : ∀ c ∈ (num ++ word ++ (number ++ blank ++ after)).head?, isRun c = false := by
      obtain ⟨c, rest, rfl⟩ := List.exists_cons_of_ne_nil hnumne
      rintro d ⟨⟩
      exact isRun_of_isBetween (hnum c List.mem_cons_self)
    have hfirst := @splitArgs_word [] ['N'] _ nofun (by simp) (by decide) hhead
    have hline : 'N' :: num ++ word ++ (number ++ blank ++ after) =
        [] ++ ['N'] ++ (num ++ word ++ (number ++ blank ++ after)) := by simp
    rw [hline, hfirst, splitArgs_word hnum h.nonempty h.run hstop, hparts, commandName_of_number]
    have htrim := @trim_command word number h [] blank nofun hblank
    simpa using htrim

/-- The name of a line's command is the word at its head. -/
theorem commandName_iff_atHead (h : IsCommandWord word number) :
    commandName (splitArgs line) = word ++ number ↔ AtHead word number line :=
  ⟨atHead_of_commandName h, commandName_of_atHead h⟩

end Named

end DeadReckoning.Gcode
