import DeadReckoning.Gcode.CommandWord

/-! The text that a parsed line is written as, and the words that are found in it when it is read
again. -/
namespace DeadReckoning.Gcode

/-- A line that begins with the name would be read as one with a line number. -/
def needsLineNumberGuard : Text → Bool
  | 'N' :: c :: _ => !isRun c
  | _ => false

def Command.display (c : Command) : Text :=
  (if needsLineNumberGuard c.name then lit "N0 " else []) ++
    match c.params with
    | .traditional pairs => c.name ++ pairs.flatMap fun p => ' ' :: p.1 ++ p.2
    | .extended raw _ =>
        if c.name = [] then raw else c.name ++ if raw = [] then [] else ' ' :: raw

def LineBody.display : LineBody → Text
  | .blank => []
  | .comment text => text
  | .command c remark => c.display ++ match remark with
      | some text => ' ' :: text
      | none => []

section Ascii

variable {cases : CaseMapping} {s t : Text} {c : Char}

def IsAscii (s : Text) : Prop := ∀ c ∈ s, c.toNat < 128

/-- A text whose upper case is itself. -/
def IsUpper (s : Text) : Prop := ∀ c ∈ s, c.toNat < 128 ∧ c.toUpper = c

/-- What can be computed for each character of ASCII holds of them all. -/
theorem ascii_cases {P : Char → Prop} (h : ∀ n < 128, P (Char.ofNat n)) (hc : c.toNat < 128) :
    P c := by
  have hself := h c.toNat hc
  rwa [Char.ofNat_toNat] at hself

theorem toUpper_ascii (hc : c.toNat < 128) :
    c.toUpper.toNat < 128 ∧ c.toUpper.toUpper = c.toUpper ∧ (c.toUpper = ';' → c = ';') ∧
      (c.toUpper = '*' → c = '*') ∧ (c.isDigit = true → c.toUpper = c) := by
  revert hc
  exact ascii_cases (P := fun c => c.toUpper.toNat < 128 ∧ c.toUpper.toUpper = c.toUpper ∧
    (c.toUpper = ';' → c = ';') ∧ (c.toUpper = '*' → c = '*') ∧
      (c.isDigit = true → c.toUpper = c)) (by decide)

theorem IsAscii.append (hs : IsAscii s) (ht : IsAscii t) : IsAscii (s ++ t) :=
  List.forall_mem_append.mpr ⟨hs, ht⟩

theorem IsAscii.of_subset (ht : IsAscii t) (h : s ⊆ t) : IsAscii s := fun c hc => ht c (h hc)

theorem IsUpper.isAscii (h : IsUpper s) : IsAscii s := fun c hc => (h c hc).1

theorem IsUpper.append (hs : IsUpper s) (ht : IsUpper t) : IsUpper (s ++ t) :=
  List.forall_mem_append.mpr ⟨hs, ht⟩

theorem IsUpper.of_subset (ht : IsUpper t) (h : s ⊆ t) : IsUpper s := fun c hc => ht c (h hc)

theorem upper_eq_map (h : IsAscii s) : cases.upper s = s.map Char.toUpper := by
  induction s with
  | nil => rfl
  | cons c s ih =>
    rw [upper_cons, cases.ascii c (h c List.mem_cons_self),
      ih fun d hd => h d (List.mem_cons_of_mem _ hd), List.map_cons, List.singleton_append]

theorem upper_of_isUpper (h : IsUpper s) : cases.upper s = s := by
  rw [upper_eq_map h.isAscii]
  exact (List.map_congr_left fun c hc => (h c hc).2).trans (List.map_id s)

theorem length_upper (cases : CaseMapping) (h : IsAscii s) : (cases.upper s).length = s.length := by
  rw [upper_eq_map h, List.length_map]

theorem upper_take (h : IsAscii s) (n : ℕ) : cases.upper (s.take n) = (cases.upper s).take n := by
  rw [upper_eq_map h, upper_eq_map (h.of_subset (List.take_subset n s)), List.map_take]

theorem upper_drop (h : IsAscii s) (n : ℕ) : cases.upper (s.drop n) = (cases.upper s).drop n := by
  rw [upper_eq_map h, upper_eq_map (h.of_subset (List.drop_subset n s)), List.map_drop]

theorem isUpper_upper (cases : CaseMapping) (h : IsAscii s) : IsUpper (cases.upper s) := by
  rw [upper_eq_map h]
  intro c hc
  obtain ⟨d, hd, rfl⟩ := List.mem_map.mp hc
  obtain ⟨hrange, hself, -⟩ := toUpper_ascii (h d hd)
  exact ⟨hrange, hself⟩

/-- The semicolon is where it was. -/
theorem semicolon_notMem_upper (cases : CaseMapping) (h : IsAscii s) (hfree : ';' ∉ s) : ';' ∉ cases.upper s := by
  rw [upper_eq_map h]
  intro hmem
  obtain ⟨c, hc, heq⟩ := List.mem_map.mp hmem
  exact hfree ((toUpper_ascii (h c hc)).2.2.1 heq ▸ hc)

end Ascii

section Words

variable {s t rest behind name before token number text : Text}

/-- The text is a star, or a word that the rest does not go on with. -/
def IsToken (token rest : Text) : Prop :=
  token = ['*'] ∨ token ≠ [] ∧ (∀ c ∈ token, isRun c = true) ∧ ∀ c ∈ rest.head?, isRun c = false

theorem IsToken.ne_nil (h : IsToken token rest) : token ≠ [] := by
  rcases h with rfl | ⟨hne, -⟩
  · exact List.cons_ne_nil _ _
  · exact hne

theorem IsToken.outside (h : IsToken token rest) : ∀ c ∈ token, isBetween c = false := by
  rcases h with rfl | ⟨-, hrun, -⟩
  · decide
  · exact fun c hc => isBetween_of_isRun (hrun c hc)

theorem isWhitespace_of_outside {c : Char} (h : isBetween c = false) :
    Text.isWhitespace c = false := by
  by_contra hblank
  rw [isBetween_of_isWhitespace (Bool.not_eq_false _ ▸ hblank)] at h
  cases h

theorem splitArgs_token (htext : ∀ c ∈ text, isBetween c = true) (htoken : IsToken token rest) :
    splitArgs (text ++ token ++ rest) = text :: token :: splitArgs rest := by
  rcases htoken with rfl | ⟨hne, hrun, hrest⟩
  · rw [List.append_assoc]
    exact splitArgs_star htext
  · exact splitArgs_word htext hne hrun hrest

/-- What stands before the first word of a text, and what it is split into behind that. -/
theorem exists_first (s : Text) : ∃ text, (∀ c ∈ text, isBetween c = true) ∧
    (s = text ∧ splitArgs s = [text] ∨ ∃ token rest, s = text ++ token ++ rest ∧
      IsToken token rest ∧ splitArgs s = text :: token :: splitArgs rest) := by
  obtain ⟨text, htext, ⟨hs, hparts⟩ | ⟨rest, hs, hparts⟩ |
    ⟨token, rest, hs, hne, hrun, hstop, hparts⟩⟩ := exists_splitArgs s
  · exact ⟨text, htext, .inl ⟨hs, hparts⟩⟩
  · exact ⟨text, htext, .inr ⟨['*'], rest, by simpa using hs, .inl rfl, hparts⟩⟩
  · exact ⟨text, htext, .inr ⟨token, rest, hs, .inr ⟨hne, hrun, hstop⟩, hparts⟩⟩

/-- A word is split the same way whatever text stands in front of it. -/
theorem splitArgs_atToken (hrest : AtToken rest) : ∃ parts, ∀ text : Text,
    (∀ c ∈ text, isBetween c = true) → splitArgs (text ++ rest) = text :: parts := by
  obtain ⟨first, hfirst, ⟨hs, -⟩ | ⟨token, more, hs, htoken, -⟩⟩ := exists_first rest
  all_goals
    have hempty : first = [] := by
      cases first with
      | nil => rfl
      | cons c first =>
        have hc := hrest c (by rw [hs]; rfl)
        rw [hfirst c List.mem_cons_self] at hc
        cases hc
    subst hempty
  · refine ⟨[], fun text htext => ?_⟩
    have hall := @splitArgsFrom_between [] text [] htext
    rw [hs, splitArgs, hall]
    rfl
  · refine ⟨token :: splitArgs more, fun text htext => ?_⟩
    rw [hs, List.nil_append, ← List.append_assoc, splitArgs_token htext htoken]

/-- Blanks up to the next word. -/
def Behind (s : Text) : Prop :=
  ∃ gap rest, s = gap ++ rest ∧ (∀ c ∈ gap, Text.isWhitespace c = true) ∧ AtToken rest

theorem Behind.shorten (h : Behind t) (hs : s <+: t) : Behind s := by
  obtain ⟨gap, rest, rfl, hgap, hrest⟩ := h
  obtain ⟨more, hmore⟩ := hs
  rcases List.append_eq_append_iff.mp hmore with ⟨gap', rfl, -⟩ | ⟨rest', rfl, rfl⟩
  · exact ⟨s, [], (List.append_nil s).symm, fun c hc => hgap c (List.mem_append_left _ hc), nofun⟩
  · refine ⟨gap, rest', rfl, hgap, fun c hc => hrest c ?_⟩
    cases rest' with
    | nil => cases hc
    | cons d rest' => exact hc

theorem Behind.cons_blank {c : Char} (h : Behind s) (hc : Text.isWhitespace c = true) :
    Behind (c :: s) := by
  obtain ⟨gap, rest, rfl, hgap, hrest⟩ := h
  exact ⟨c :: gap, rest, rfl, List.forall_mem_cons.mpr ⟨hc, hgap⟩, hrest⟩

theorem Behind.of_cons_blank {c : Char} (h : Behind (c :: s)) (hc : Text.isWhitespace c = true) :
    Behind s := by
  obtain ⟨gap, rest, hs, hgap, hrest⟩ := h
  cases gap with
  | nil =>
    have hsolid := isWhitespace_of_outside (hrest c (by rw [List.nil_append] at hs; rw [← hs]; rfl))
    rw [hc] at hsolid
    cases hsolid
  | cons d gap =>
    obtain ⟨-, rfl⟩ := List.cons.inj hs
    exact ⟨gap, rest, rfl, fun d hd => hgap d (List.mem_cons_of_mem _ hd), hrest⟩

/-- What stands behind a name does not begin with a number. -/
theorem Behind.head {c : Char} (h : Behind (c :: s)) : c.isDigit = false := by
  obtain ⟨gap, rest, hs, hgap, hrest⟩ := h
  have hcases : Text.isWhitespace c = true ∨ isBetween c = false := by
    cases gap with
    | nil => exact .inr (hrest c (by rw [List.nil_append] at hs; rw [← hs]; rfl))
    | cons d gap =>
      obtain ⟨rfl, -⟩ := List.cons.inj hs
      exact .inl (hgap _ List.mem_cons_self)
  by_contra hdigit
  rw [Bool.not_eq_false] at hdigit
  have hrange : 48 ≤ c.toNat ∧ c.toNat ≤ 57 := by
    simp only [Char.isDigit, Bool.and_eq_true, decide_eq_true_eq] at hdigit
    exact hdigit
  rcases hcases with hblank | houtside
  · simp only [Text.isWhitespace, Bool.or_eq_true, Bool.and_eq_true, decide_eq_true_eq,
      beq_iff_eq] at hblank
    omega
  · simp only [isBetween, Bool.and_eq_false_iff, Bool.not_eq_false', bne_eq_false_iff_eq] at houtside
    rcases houtside with hrun | rfl
    · have hlow := toNat_of_isRun hrun
      omega
    · exact absurd hrange (by decide)

/-- The name, at the head of a line, is read as the name of its command: a text without a word, or
one up to the end of the first word's number, which is not a line number. -/
def Heads (name behind : Text) : Prop :=
  (∀ c ∈ name, isBetween c = true) ∧ (∀ c ∈ behind, Text.isWhitespace c = true) ∨
    ∃ before token number, name = before ++ token ++ number ∧ (∀ c ∈ before, isBetween c = true) ∧
      IsToken token (number ++ behind) ∧ (∀ c ∈ number, isBetween c = true) ∧
        ¬ (before = [] ∧ token = ['N'])

theorem IsToken.of_head (h : IsToken token (number ++ t))
    (hs : ∀ c ∈ s.head?, isBetween c = true) : IsToken token (number ++ s) := by
  refine h.imp id fun ⟨hne, hrun, hstop⟩ => ⟨hne, hrun, fun c hc => ?_⟩
  cases number with
  | nil => exact isRun_of_isBetween (hs c hc)
  | cons d number => exact hstop c hc

/-- With a blank or nothing behind it the name is read as well. -/
theorem Heads.reopen (h : Heads name t) (hs : ∀ c ∈ s, Text.isWhitespace c = true ∨ c ∈ t)
    (hopen : ∀ c ∈ s.head?, isBetween c = true) : Heads name s := by
  rcases h with ⟨hname, ht⟩ | ⟨before, token, number, hname, hbefore, htoken, hnumber, hN⟩
  · exact .inl ⟨hname, fun c hc => (hs c hc).elim id (ht c)⟩
  · exact .inr ⟨before, token, number, hname, hbefore, htoken.of_head hopen, hnumber, hN⟩

/-- The name stands behind a line number. -/
structure Numbered (num name behind : Text) : Prop where
  between : ∀ c ∈ num, isBetween c = true
  opens : IsToken ['N'] (num ++ name)
  named : ∃ token number, name = token ++ number ∧ (∀ c ∈ number, isBetween c = true) ∧
    IsToken token (number ++ behind)

end Words

section Names

variable {s rest behind name before token number num : Text}

theorem trim_behind {gap : Text} (hne : name ≠ []) (htrim : Text.trim name = name)
    (hgap : ∀ c ∈ gap, Text.isWhitespace c = true) : Text.trim (name ++ gap) = name := by
  have hfirst := Text.trim_head_solid name
  have hlast := Text.trim_last_solid name
  rw [htrim] at hfirst hlast
  have hcut := @Text.trim_append [] name gap nofun hgap hne
    (hfirst _ (List.head?_eq_some_head hne)) (hlast _ (List.getLast?_eq_some_getLast hne))
  simpa using hcut

theorem isNumbered_of_token (h : ¬ (before = [] ∧ token = ['N'])) {parts : List Text} :
    isNumbered (before :: token :: parts) = false := by
  unfold isNumbered
  split
  · rename_i heq
    simp only [List.cons.injEq] at heq
    exact absurd ⟨heq.1, heq.2.1⟩ h
  · rfl

theorem isNumbered_singleton (text : Text) : isNumbered [text] = false := by
  cases text with
  | nil => rfl
  | cons c text => rfl

/-- A line without a line number is read as the name at its head and what stands behind it. -/
theorem parts_of_heads (hne : name ≠ []) (htrim : Text.trim name = name) (hname : Heads name behind)
    (hbehind : Behind behind) :
    isNumbered (splitArgs (name ++ behind)) = false ∧
      commandName (splitArgs (name ++ behind)) = name ∧
      (pairsFromParts (splitArgs (name ++ behind))).drop 1 =
        pairsFromParts (splitArgs behind) := by
  rcases hname with ⟨htext, hblank⟩ | ⟨before, token, number, rfl, hbefore, htoken, hnumber, hN⟩
  · obtain ⟨parts, hparts⟩ := @splitArgs_atToken [] nofun
    have hnone : parts = [] := by
      have hnil := hparts [] nofun
      rw [List.append_nil] at hnil
      exact (List.cons.inj hnil).2.symm
    have hgap : ∀ c ∈ behind, isBetween c = true :=
      fun c hc => isBetween_of_isWhitespace (hblank c hc)
    have hall := hparts (name ++ behind) (List.forall_mem_append.mpr ⟨htext, hgap⟩)
    have hrest := hparts behind hgap
    rw [List.append_nil, hnone] at hall hrest
    rw [hall, hrest]
    refine ⟨isNumbered_singleton _, ?_, rfl⟩
    simpa [commandName, isNumbered_singleton] using trim_behind hne htrim hblank
  · obtain ⟨gap, rest, rfl, hgap, hrest⟩ := hbehind
    obtain ⟨parts, hparts⟩ := splitArgs_atToken hrest
    have hgap' : ∀ c ∈ gap, isBetween c = true := fun c hc => isBetween_of_isWhitespace (hgap c hc)
    have hline : before ++ token ++ number ++ (gap ++ rest) =
        before ++ token ++ (number ++ gap ++ rest) := by simp
    rw [hline, splitArgs_token hbefore (by rwa [← List.append_assoc] at htoken),
      hparts _ (List.forall_mem_append.mpr ⟨hnumber, hgap'⟩), hparts gap hgap',
      commandName_of_word hN, ← List.append_assoc]
    exact ⟨isNumbered_of_token hN, trim_behind hne htrim hgap, rfl⟩

/-- A line with a line number is read as the name behind it. -/
theorem parts_of_numbered (hne : name ≠ []) (htrim : Text.trim name = name)
    (h : Numbered num name behind) (hbehind : Behind behind) :
    isNumbered (splitArgs ('N' :: num ++ name ++ behind)) = true ∧
      commandName (splitArgs ('N' :: num ++ name ++ behind)) = name ∧
      (splitArgs ('N' :: num ++ name ++ behind)).getD 2 [] = num ∧
      (pairsFromParts (splitArgs ('N' :: num ++ name ++ behind))).drop 2 =
        pairsFromParts (splitArgs behind) := by
  obtain ⟨token, number, hname, hnumber, htoken⟩ := h.named
  obtain ⟨gap, rest, rfl, hgap, hrest⟩ := hbehind
  obtain ⟨parts, hparts⟩ := splitArgs_atToken hrest
  have hgap' : ∀ c ∈ gap, isBetween c = true := fun c hc => isBetween_of_isWhitespace (hgap c hc)
  have hnothing : ∀ c ∈ ([] : Text), isBetween c = true := nofun
  have hline : 'N' :: num ++ name ++ (gap ++ rest) =
      [] ++ ['N'] ++ (num ++ token ++ (number ++ gap ++ rest)) := by
    rw [hname]
    simp
  have hopen : IsToken ['N'] (num ++ token ++ (number ++ gap ++ rest)) := by
    refine h.opens.imp id fun ⟨hnil, hrun, hstop⟩ => ⟨hnil, hrun, fun c hc => hstop c ?_⟩
    obtain ⟨d, more, hcons⟩ := List.exists_cons_of_ne_nil htoken.ne_nil
    rw [hname, hcons]
    rw [hcons] at hc
    cases num with
    | nil => exact hc
    | cons d num => exact hc
  rw [hline, splitArgs_token hnothing hopen,
    splitArgs_token h.between (by rwa [← List.append_assoc] at htoken),
    hparts _ (List.forall_mem_append.mpr ⟨hnumber, hgap'⟩), hparts gap hgap',
    commandName_of_number, ← List.append_assoc, ← hname]
  exact ⟨rfl, trim_behind hne htrim hgap, rfl, rfl⟩

/-- Behind a text that ends solidly, what is not cut ends where blanks begin. -/
theorem exists_trim_behind (hne : s ≠ []) (hfirst : ∀ c ∈ s.head?, Text.isWhitespace c = false)
    (hlast : ∀ c ∈ s.getLast?, Text.isWhitespace c = false) (rest : Text) :
    ∃ number blank, rest = number ++ blank ∧ (∀ c ∈ blank, Text.isWhitespace c = true) ∧
      Text.trim (s ++ rest) = s ++ number := by
  have hsplit : rest.rdropWhile Text.isWhitespace ++ rest.rtakeWhile Text.isWhitespace = rest :=
    List.rdropWhile_append_rtakeWhile
  have hblank : ∀ c ∈ rest.rtakeWhile Text.isWhitespace, Text.isWhitespace c = true :=
    fun c hc => List.mem_rtakeWhile_imp hc
  refine ⟨_, _, hsplit.symm, hblank, ?_⟩
  have hself : Text.trim (s ++ rest.rdropWhile Text.isWhitespace) =
      s ++ rest.rdropWhile Text.isWhitespace := by
    apply Text.trim_eq_self
    · intro c hc
      obtain ⟨d, more, rfl⟩ := List.exists_cons_of_ne_nil hne
      exact hfirst c hc
    · intro c hc
      by_cases hnumber : rest.rdropWhile Text.isWhitespace = []
      · rw [hnumber, List.append_nil] at hc
        exact hlast c hc
      · rw [List.getLast?_append_of_ne_nil _ hnumber] at hc
        exact Text.rdropWhile_last_solid rest c hc
  have hall := trim_behind (by simp [hne]) hself hblank
  rwa [List.append_assoc, hsplit] at hall

theorem IsToken.last (h : IsToken token rest) (before : Text) :
    ∀ c ∈ (before ++ token).getLast?, Text.isWhitespace c = false := by
  intro c hc
  rw [List.getLast?_append_of_ne_nil _ h.ne_nil] at hc
  exact isWhitespace_of_outside (h.outside c (List.mem_of_getLast? hc))

/-- Every line that has a command name is read like one of these. -/
theorem exists_name {u : Text} (hfirst : ∀ c ∈ u.head?, Text.isWhitespace c = false)
    (hne : commandName (splitArgs u) ≠ []) :
    ∃ behind, Behind behind ∧ Text.trim (commandName (splitArgs u)) = commandName (splitArgs u) ∧
      (u = commandName (splitArgs u) ++ behind ∧ Heads (commandName (splitArgs u)) behind ∨
        ∃ num, u = 'N' :: num ++ commandName (splitArgs u) ++ behind ∧
          Numbered num (commandName (splitArgs u)) behind) := by
  have htrim : Text.trim (commandName (splitArgs u)) = commandName (splitArgs u) :=
    Text.trim_trim _
  obtain ⟨text, htext, ⟨hu, hparts⟩ | ⟨token, rest, hu, htoken, hparts⟩⟩ := exists_first u
  · -- No word: the name is the text, up to the blanks at its end.
    have hnone : commandName [text] = Text.trim text := by
      simp [commandName, isNumbered_singleton]
    rw [hparts, hnone] at hne htrim ⊢
    obtain ⟨a, b, hsplit, ha, hb⟩ := Text.exists_trim text
    have hempty : a = [] := by
      cases a with
      | nil => rfl
      | cons c a =>
        have hc := hfirst c (by rw [hu, hsplit]; rfl)
        rw [ha c List.mem_cons_self] at hc
        cases hc
    rw [hempty, List.nil_append] at hsplit
    refine ⟨b, ⟨b, [], (List.append_nil b).symm, hb, by rintro d ⟨⟩⟩, htrim, .inl ⟨hu.trans hsplit, .inl ?_⟩⟩
    exact ⟨fun c hc => htext c (by rw [hsplit]; exact List.mem_append_left _ hc), hb⟩
  · by_cases hN : text = [] ∧ token = ['N']
    · obtain ⟨rfl, rfl⟩ := hN
      obtain ⟨num, hnum, ⟨-, hmore⟩ | ⟨token, rest, rfl, htoken', hmore⟩⟩ := exists_first rest
      · rw [hparts, hmore] at hne
        exact absurd rfl hne
      · obtain ⟨behind, parts, after, rfl, hbehind, hafter, hsplit⟩ := exists_splitArgs_head rest
        obtain ⟨d, more, hcons⟩ := List.exists_cons_of_ne_nil htoken'.ne_nil
        have hsolid : ∀ c ∈ token.head?, Text.isWhitespace c = false :=
          fun c hc => isWhitespace_of_outside (htoken'.outside c (List.mem_of_head? hc))
        obtain ⟨number, blank, rfl, hblank, hname⟩ :=
          exists_trim_behind htoken'.ne_nil hsolid (htoken'.last []) behind
        rw [hparts, hmore, hsplit, commandName_of_number, hname] at htrim ⊢
        refine ⟨blank ++ after, ⟨blank, after, rfl, hblank, hafter⟩, htrim, .inr ⟨num, ?_, hnum, ?_,
          token, number, rfl, fun c hc => hbehind c (List.mem_append_left _ hc), ?_⟩⟩
        · rw [hu]
          simp
        · refine htoken.imp id fun h => ⟨h.1, h.2.1, fun c hc => h.2.2 c ?_⟩
          rw [hcons] at hc ⊢
          cases num with
          | nil => exact hc
          | cons d num => exact hc
        · rwa [← List.append_assoc]
    · obtain ⟨behind, parts, after, rfl, hbehind, hafter, hsplit⟩ := exists_splitArgs_head rest
      have hhead : ∀ c ∈ (text ++ token).head?, Text.isWhitespace c = false := by
        obtain ⟨d, more, hcons⟩ := List.exists_cons_of_ne_nil htoken.ne_nil
        intro c hc
        apply hfirst c
        rw [hu, hcons]
        rw [hcons] at hc
        cases text with
        | nil => exact hc
        | cons d text => exact hc
      have hfull : text ++ token ≠ [] := by simp [htoken.ne_nil]
      obtain ⟨number, blank, rfl, hblank, hname⟩ :=
        exists_trim_behind hfull hhead (htoken.last text) behind
      rw [hparts, hsplit, commandName_of_word hN, hname] at htrim ⊢
      refine ⟨blank ++ after, ⟨blank, after, rfl, hblank, hafter⟩, htrim, .inl ⟨?_, .inr
        ⟨text, token, number, rfl, htext, ?_, fun c hc => hbehind c (List.mem_append_left _ hc),
          hN⟩⟩⟩
      · rw [hu]
        simp
      · rwa [← List.append_assoc]

end Names

end DeadReckoning.Gcode
