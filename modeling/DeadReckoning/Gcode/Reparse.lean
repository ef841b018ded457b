import DeadReckoning.Gcode.Display

/-! Which lines of ASCII are read from their display as they were read at first. -/
namespace DeadReckoning.Gcode

section Checksums

variable {s before line : Text} {n : ℕ}

/-- A checksum stands behind the text. -/
def Checksummed (before s : Text) : Prop :=
  ∃ digits, digits ≠ [] ∧ (∀ d ∈ digits, d.isDigit = true) ∧ s = before ++ '*' :: digits

theorem checksumStart_of_checksummed (h : Checksummed before s) :
    checksumStart s = before.length := by
  obtain ⟨digits, hne, hdigits, rfl⟩ := h
  have hrev : (before ++ '*' :: digits).reverse = digits.reverse ++ '*' :: before.reverse := by simp
  have hfind : (before ++ '*' :: digits).reverse.findIdx? (· = '*') = some digits.length := by
    rw [hrev, List.findIdx?_append]
    have hnone : digits.reverse.findIdx? (· = '*') = none := by
      rw [List.findIdx?_eq_none_iff]
      intro d hd
      have hdigit := hdigits d (List.mem_reverse.mp hd)
      rw [decide_eq_false_iff_not]
      rintro rfl
      exact absurd hdigit (by decide)
    rw [hnone, List.findIdx?_cons]
    simp
  have hlength : (before ++ '*' :: digits).length = before.length + digits.length + 1 := by simp; omega
  have hsuffix : (before ++ '*' :: digits).drop (before.length + 1) = digits := by
    rw [List.drop_append, List.drop_eq_nil_of_le (by omega)]
    simp
  have hpos : 0 < digits.length := List.length_pos_iff.mpr hne
  unfold checksumStart
  rw [hfind]
  dsimp only
  rw [hlength, show before.length + digits.length + 1 - digits.length = before.length + 1 by omega,
    hsuffix, if_pos ⟨hpos, List.all_eq_true.mpr hdigits⟩]
  omega

theorem checksumStart_of_not (h : ∀ before, ¬ Checksummed before s) :
    checksumStart s = s.length := by
  unfold checksumStart
  split
  · rename_i digits hfind
    obtain ⟨hlt, hstar, -⟩ := List.findIdx?_eq_some_iff_getElem.mp hfind
    rw [List.length_reverse] at hlt
    rw [if_neg]
    rintro ⟨hpos, hall⟩
    rw [List.getElem_reverse] at hstar
    refine h (s.take (s.length - 1 - digits)) ⟨s.drop (s.length - digits), ?_, List.all_eq_true.mp hall, ?_⟩
    · intro hnil
      have hlength := congrArg List.length hnil
      rw [List.length_drop, List.length_nil] at hlength
      omega
    · have hcons : s.drop (s.length - 1 - digits) =
          s[s.length - 1 - digits] :: s.drop (s.length - 1 - digits + 1) :=
        List.drop_eq_getElem_cons (by omega)
      have hnext : s.length - 1 - digits + 1 = s.length - digits := by omega
      rw [hnext, of_decide_eq_true hstar] at hcons
      rw [← hcons, List.take_append_drop]
  · rfl

/-- The text without the checksum at its end. -/
def withoutChecksum (s : Text) : Text := s.take (checksumStart s)

theorem withoutChecksum_of_checksummed (h : Checksummed before s) : withoutChecksum s = before := by
  rw [withoutChecksum, checksumStart_of_checksummed h]
  obtain ⟨digits, -, -, rfl⟩ := h
  exact List.take_left

theorem withoutChecksum_of_not (h : ∀ before, ¬ Checksummed before s) : withoutChecksum s = s := by
  rw [withoutChecksum, checksumStart_of_not h, List.take_length]

theorem withoutChecksum_shortens (s : Text) : withoutChecksum s <+: s := List.take_prefix _ _

theorem withoutChecksum_eq_self : withoutChecksum s = s ↔ ∀ before, ¬ Checksummed before s := by
  refine ⟨fun hself before h => ?_, withoutChecksum_of_not⟩
  rw [withoutChecksum_of_checksummed h] at hself
  obtain ⟨digits, -, -, hs⟩ := h
  have hlength := congrArg List.length hs
  rw [hself, List.length_append, List.length_cons] at hlength
  omega

theorem Checksummed.of_drop (h : Checksummed before (line.drop n)) :
    Checksummed (line.take n ++ before) line := by
  obtain ⟨digits, hne, hdigits, hdrop⟩ := h
  refine ⟨digits, hne, hdigits, ?_⟩
  rw [List.append_assoc, ← hdrop, List.take_append_drop]

/-- A checksum is cut off from a later part of the line as from the line, unless the part begins
inside of it. -/
theorem withoutChecksum_drop (hhead : ∀ c ∈ (line.drop n).head?, c.isDigit = false) :
    (line.take (checksumStart line)).drop n = withoutChecksum (line.drop n) := by
  by_cases hsum : ∃ before, Checksummed before line
  · obtain ⟨before, hbefore⟩ := hsum
    rw [checksumStart_of_checksummed hbefore]
    obtain ⟨digits, hne, hdigits, rfl⟩ := hbefore
    rw [List.take_left]
    by_cases hn : n ≤ before.length
    · have hdrop : (before ++ '*' :: digits).drop n = before.drop n ++ '*' :: digits := by
        rw [List.drop_append, Nat.sub_eq_zero_of_le hn, List.drop_zero]
      rw [hdrop, withoutChecksum_of_checksummed ⟨digits, hne, hdigits, rfl⟩]
    · have hdrop : (before ++ '*' :: digits).drop n = digits.drop (n - before.length - 1) := by
        rw [List.drop_append, List.drop_eq_nil_of_le (by omega), List.nil_append,
          show n - before.length = n - before.length - 1 + 1 by omega, List.drop_succ_cons]
        rfl
      rw [List.drop_eq_nil_of_le (by omega)]
      rw [hdrop] at hhead ⊢
      cases hrest : digits.drop (n - before.length - 1) with
      | nil => rfl
      | cons d more =>
        have hd := hhead d (by rw [hrest]; rfl)
        rw [hdigits d (List.drop_subset _ _ (hrest ▸ List.mem_cons_self))] at hd
        cases hd
  · have hnot : ∀ before, ¬ Checksummed before line := fun before h => hsum ⟨before, h⟩
    rw [checksumStart_of_not hnot, List.take_length,
      withoutChecksum_of_not fun before h => hnot _ h.of_drop]

end Checksums

section RawParameters

variable {cases : CaseMapping} {line name num more : Text}

/-- The text without the one blank that may stand at its head. -/
def dropBlank : Text → Text
  | [] => []
  | c :: s => if Text.isWhitespace c then s else c :: s

theorem drop_dropBlank (line : Text) (n : ℕ) : dropBlank (line.drop n) =
    line.drop (if (line)[n]?.any Text.isWhitespace then n + 1 else n) := by
  rw [← List.head?_drop]
  cases hrest : line.drop n with
  | nil =>
    rw [List.head?_nil]
    exact hrest.symm
  | cons c s =>
    rw [dropBlank, List.head?_cons, Option.any_some]
    split
    · rw [← List.drop_drop, hrest]
      rfl
    · exact hrest.symm

/-- The parameters of a command that is found at the head of its line. -/
theorem rawCommandParameters_of_head (h : cases.upper (line.take name.length) = name) :
    rawCommandParameters cases line name = dropBlank (line.drop name.length) := by
  unfold rawCommandParameters
  rw [if_neg (not_not.mpr h)]
  dsimp only
  rw [List.take_length, drop_dropBlank]

/-- A name that is not there at once is found behind the line number. -/
theorem findIdx_name (hnum : ∀ c ∈ num, isBetween c = true) (hne : name ≠ [])
    (hfirst : ∀ c ∈ name.head?, isBetween c = false) (hhead : ¬ name <+: 'N' :: num ++ name ++ more) :
    ('N' :: num ++ name ++ more).tails.findIdx? name.isPrefixOf = some (1 + num.length) := by
  rw [List.findIdx?_eq_some_iff_getElem]
  refine ⟨?_, ?_, fun i hi => ?_⟩
  · rw [List.length_tails, List.length_append, List.length_append, List.length_cons]
    omega
  · rw [List.getElem_tails, List.isPrefixOf_iff_prefix]
    refine ⟨more, ?_⟩
    rw [List.append_assoc, List.drop_append]
    simp [Nat.add_comm]
  · rw [List.getElem_tails, List.isPrefixOf_iff_prefix]
    rcases i with _ | i
    · exact hhead
    · have hi' : i < num.length := by omega
      have hdrop : ('N' :: num ++ name ++ more).drop (i + 1) =
          num[i] :: (num.drop (i + 1) ++ (name ++ more)) := by
        rw [List.append_assoc, List.cons_append, List.drop_succ_cons,
          List.drop_append_of_le_length (by omega), List.drop_eq_getElem_cons hi', List.cons_append]
      rw [hdrop]
      rintro ⟨rest, hrest⟩
      obtain ⟨c, name', rfl⟩ := List.exists_cons_of_ne_nil hne
      have hc := hfirst c rfl
      rw [(List.cons.inj hrest).1, hnum _ (List.getElem_mem hi')] at hc
      cases hc

theorem rawCommandParameters_of_number (hascii : IsAscii line)
    (hline : cases.upper line = 'N' :: num ++ name ++ more)
    (hnum : ∀ c ∈ num, isBetween c = true) (hne : name ≠ [])
    (hfirst : ∀ c ∈ name.head?, isBetween c = false) (hhead : ¬ name <+: cases.upper line)
    (hdigit : ∀ c ∈ (dropBlank (line.drop (1 + num.length + name.length))).head?,
      c.isDigit = false) :
    rawCommandParameters cases line name =
      withoutChecksum (dropBlank (line.drop (1 + num.length + name.length))) := by
  have hlater : cases.upper (line.take name.length) ≠ name := by
    intro heq
    rw [upper_take hascii] at heq
    exact hhead (heq ▸ List.take_prefix _ _)
  have hfind := findIdx_name hnum hne hfirst (hline ▸ hhead)
  rw [← hline] at hfind
  unfold rawCommandParameters
  rw [if_pos hlater, hfind]
  dsimp only
  have hstart : name.length + (1 + num.length) = 1 + num.length + name.length := by omega
  rw [hstart]
  rw [drop_dropBlank] at hdigit ⊢
  exact withoutChecksum_drop hdigit

end RawParameters

section Code

variable {cases : CaseMapping} {line s t raw tail : Text} {n : ℕ}

/-- The line up to its comment. -/
def code (line : Text) : Text := line.takeWhile (· ≠ ';')

theorem code_append (h : ';' ∉ s) (t : Text) : code (s ++ t) = s ++ code t := by
  refine List.takeWhile_append_of_pos fun c hc => decide_eq_true ?_
  rintro rfl
  exact h hc

theorem semicolon_notMem_code (line : Text) : ';' ∉ code line := by
  intro hmem
  have hne := List.mem_takeWhile_imp hmem
  exact absurd hne (by decide)

theorem code_prefix_code (h : s <+: t) : code s <+: code t := by
  obtain ⟨more, rfl⟩ := h
  induction s with
  | nil => exact List.nil_prefix
  | cons c s ih =>
    unfold code at ih ⊢
    rw [List.cons_append, List.takeWhile_cons, List.takeWhile_cons]
    split
    · exact List.prefix_cons_inj c |>.mpr ih
    · exact List.nil_prefix

theorem code_drop (h : n ≤ (code line).length) : code (line.drop n) = (code line).drop n := by
  induction n generalizing line with
  | zero => rfl
  | succ n ih =>
    cases line with
    | nil => rfl
    | cons c line =>
      unfold code at ih h ⊢
      rw [List.takeWhile_cons] at h ⊢
      split at h
      · rename_i hc
        rw [if_pos hc]
        exact ih (Nat.le_of_succ_le_succ h)
      · cases h

theorem isAscii_code (h : IsAscii line) : IsAscii (code line) :=
  h.of_subset (List.takeWhile_prefix _).subset

theorem upper_code_mono (h : s <+: t) : cases.upper (code s) <+: cases.upper (code t) := by
  obtain ⟨more, hmore⟩ := code_prefix_code h
  rw [← hmore, upper_append]
  exact List.prefix_append _ _

theorem upper_of_isWhitespace {c : Char} (hascii : c.toNat < 128)
    (hc : Text.isWhitespace c = true) : cases.upperOf c = [c] := by
  have hself : ∀ c : Char, c.toNat < 128 → Text.isWhitespace c = true → c.toUpper = c := by
    intro c hc
    exact ascii_cases (P := fun c => Text.isWhitespace c = true → c.toUpper = c) (by decide) hc
  rw [cases.ascii c hascii, hself c hascii hc]

theorem code_cons_blank {c : Char} (hc : Text.isWhitespace c = true) (s : Text) :
    code (c :: s) = c :: code s := by
  refine List.takeWhile_cons_of_pos (decide_eq_true ?_)
  rintro rfl
  exact absurd hc (by decide)

/-- What follows a name does not begin with a number. -/
theorem isDigit_of_behind (hascii : IsAscii s) (h : Behind (cases.upper (code s))) :
    ∀ c ∈ s.head?, c.isDigit = false := by
  intro c hc
  obtain ⟨more, rfl⟩ := List.head?_eq_some_iff.mp hc
  by_contra hdigit
  rw [Bool.not_eq_false] at hdigit
  have hrange := hascii c List.mem_cons_self
  have hcode : code (c :: more) = c :: code more := by
    refine List.takeWhile_cons_of_pos (decide_eq_true ?_)
    rintro rfl
    exact absurd hdigit (by decide)
  rw [hcode, upper_cons, cases.ascii c hrange, (toUpper_ascii hrange).2.2.2.2 hdigit] at h
  rw [Behind.head h] at hdigit
  cases hdigit

/-- The blank that goes with the parameters does not matter for what follows the name. -/
theorem behind_dropBlank (hascii : IsAscii tail) (h : Behind (cases.upper (code tail))) :
    Behind (cases.upper (code (dropBlank tail))) := by
  cases tail with
  | nil => exact h
  | cons c tail =>
    rw [dropBlank]
    split
    · rename_i hc
      rw [code_cons_blank hc, upper_cons,
        upper_of_isWhitespace (hascii c List.mem_cons_self) hc] at h
      exact h.of_cons_blank hc
    · exact h

theorem dropBlank_suffix (tail : Text) : dropBlank tail <:+ tail := by
  cases tail with
  | nil => exact List.suffix_rfl
  | cons c tail =>
    rw [dropBlank]
    split
    · exact List.suffix_cons c tail
    · exact List.suffix_rfl

/-- The parameters with the blank in front of them, as the display has them. -/
def spaced (raw : Text) : Text := if raw = [] then [] else ' ' :: raw

theorem dropBlank_spaced (raw : Text) : dropBlank (spaced raw) = raw := by
  unfold spaced
  by_cases hraw : raw = []
  · rw [if_pos hraw, hraw]
    rfl
  · rw [if_neg hraw, dropBlank, if_pos (by decide)]

theorem upper_code_spaced (raw : Text) : cases.upper (code (spaced raw)) =
    if raw = [] then [] else ' ' :: cases.upper (code raw) := by
  unfold spaced
  by_cases hraw : raw = []
  · rw [if_pos hraw, if_pos hraw]
    rfl
  · have hblank : Text.isWhitespace ' ' = true := by decide
    rw [if_neg hraw, if_neg hraw, code_cons_blank hblank, upper_cons,
      upper_of_isWhitespace (by decide) hblank]
    rfl

/-- The display puts behind the name what was read there, or less of it. -/
structure Reopened (behind again : Text) : Prop where
  follows : Behind again
  old : ∀ c ∈ again, Text.isWhitespace c = true ∨ c ∈ behind
  opens : ∀ c ∈ again.head?, isBetween c = true

theorem reopened_spaced (hascii : IsAscii tail) (h : Behind (cases.upper (code tail)))
    (hraw : raw <+: dropBlank tail) :
    Reopened (cases.upper (code tail)) (cases.upper (code (spaced raw))) := by
  rw [upper_code_spaced]
  by_cases hnil : raw = []
  · rw [if_pos hnil]
    exact ⟨⟨[], [], rfl, nofun, nofun⟩, nofun, nofun⟩
  · have hprefix : cases.upper (code raw) <+: cases.upper (code (dropBlank tail)) :=
      upper_code_mono hraw
    rw [if_neg hnil]
    refine ⟨((behind_dropBlank hascii h).shorten hprefix).cons_blank (by decide), ?_, ?_⟩
    · intro c hc
      rcases List.mem_cons.mp hc with rfl | hc
      · exact .inl (by decide)
      · refine .inr ?_
        have hmem := hprefix.subset hc
        cases tail with
        | nil => exact hmem
        | cons d tail =>
          rw [dropBlank] at hmem
          split at hmem
          · rename_i hd
            rw [code_cons_blank hd, upper_cons]
            exact List.mem_append_right _ hmem
          · exact hmem
    · rintro c ⟨⟩
      decide

end Code

section Guarded

variable {name behind again : Text}

/-- What the display puts in front of a name. -/
def guardOf (name : Text) : Text := if needsLineNumberGuard name then lit "N0 " else []

theorem needsLineNumberGuard_of_heads (h : Heads name behind) :
    needsLineNumberGuard name = false := by
  by_contra hguard
  rw [Bool.not_eq_false] at hguard
  have hN : isBetween 'N' = false := by decide
  unfold needsLineNumberGuard at hguard
  split at hguard
  · rename_i c rest
    rw [Bool.not_eq_true'] at hguard
    rcases h with ⟨htext, -⟩ | ⟨before, token, number, hname, hbefore, htoken, -, hno⟩
    · rw [htext 'N' List.mem_cons_self] at hN
      cases hN
    · have hempty : before = [] := by
        cases before with
        | nil => rfl
        | cons d before =>
          rw [List.cons_append, List.cons_append] at hname
          rw [(List.cons.inj hname).1, hbefore d List.mem_cons_self] at hN
          cases hN
      subst hempty
      refine hno ⟨rfl, ?_⟩
      rcases htoken with rfl | ⟨hne, hrun, -⟩
      · exact absurd (List.cons.inj hname).1 (by decide)
      · obtain ⟨d, token, rfl⟩ := List.exists_cons_of_ne_nil hne
        obtain ⟨rfl, hrest⟩ := List.cons.inj hname
        cases token with
        | nil => rfl
        | cons d token =>
          have hd := hrun d (List.mem_cons_of_mem _ List.mem_cons_self)
          rw [← (List.cons.inj hrest).1, hguard] at hd
          cases hd
  · cases hguard

/-- How the display of a name and of what was read behind it is read. -/
structure ReadsAs (name again : Text) : Prop where
  numbered : isNumbered (splitArgs (guardOf name ++ name ++ again)) = needsLineNumberGuard name
  named : commandName (splitArgs (guardOf name ++ name ++ again)) = name
  pairs : (pairsFromParts (splitArgs (guardOf name ++ name ++ again))).drop
    (if needsLineNumberGuard name then 2 else 1) = pairsFromParts (splitArgs again)

theorem readsAs_of_heads (hne : name ≠ []) (htrim : Text.trim name = name)
    (h : Heads name behind) (hagain : Reopened behind again) : ReadsAs name again := by
  have hguard : needsLineNumberGuard name = false := needsLineNumberGuard_of_heads h
  obtain ⟨hnumbered, hname, hpairs⟩ :=
    parts_of_heads hne htrim (h.reopen hagain.old hagain.opens) hagain.follows
  have hself : guardOf name ++ name ++ again = name ++ again := by
    rw [guardOf, hguard]
    rfl
  refine ⟨?_, ?_, ?_⟩
  · rw [hself, hguard]
    exact hnumbered
  · rw [hself]
    exact hname
  · rw [hself, hguard]
    exact hpairs

/-- The guarded name is read as the name again, however it was found at first. -/
theorem readsAs_of_named (hne : name ≠ []) (htrim : Text.trim name = name) (hN : name ≠ ['N'])
    (h : Heads name behind ∨ ∃ num, Numbered num name behind) (hagain : Reopened behind again) :
    ReadsAs name again := by
  rcases h with hheads | ⟨num, hnumbered⟩
  · exact readsAs_of_heads hne htrim hheads hagain
  · obtain ⟨token, number, hname, hnumber, htoken⟩ := hnumbered.named
    by_cases htokenN : token = ['N']
    · subst htokenN
      obtain ⟨c, number, rfl⟩ : ∃ c more, number = c :: more := by
        apply List.exists_cons_of_ne_nil
        rintro rfl
        exact hN hname
      have hc : isRun c = false := isRun_of_isBetween (hnumber c List.mem_cons_self)
      have hguard : needsLineNumberGuard name = true := by
        rw [hname]
        exact congrArg (!·) hc
      have hzero : Numbered (lit "0 ") name again := by
        refine ⟨by decide, .inr ⟨by decide, by decide, ?_⟩, ['N'], c :: number, hname, hnumber,
          htoken.of_head hagain.opens⟩
        rintro d ⟨⟩
        decide
      obtain ⟨hparts, hself, -, hpairs⟩ := parts_of_numbered hne htrim hzero hagain.follows
      have hline : guardOf name ++ name ++ again = 'N' :: lit "0 " ++ name ++ again := by
        rw [guardOf, hguard]
        rfl
      refine ⟨?_, ?_, ?_⟩
      · rw [hline, hguard]
        exact hparts
      · rw [hline]
        exact hself
      · rw [hline, hguard]
        exact hpairs
    · have hheads : Heads name behind :=
        .inr ⟨[], token, number, hname, nofun, htoken, hnumber, fun h => htokenN h.2⟩
      exact readsAs_of_heads hne htrim hheads hagain

end Guarded

section Parsed

variable {cases : CaseMapping} {text line name raw : Text}

/-- The name of the command that a line without blanks around it is read as. -/
def nameOf (cases : CaseMapping) (line : Text) : Text :=
  commandName (splitArgs (cases.upper (code line)))

def remark (line : Text) : Option Text :=
  if line.dropWhile (· ≠ ';') = [] then none else some (line.dropWhile (· ≠ ';'))

theorem parseLine_congr {other : Text} (h : Text.trim text = Text.trim other) :
    parseLine cases text = parseLine cases other := by
  unfold parseLine
  rw [h]

theorem ne_nil_of_nameOf (h : nameOf cases line ≠ []) : line ≠ [] := by
  rintro rfl
  exact h rfl

theorem parseLine_of_extended (htrim : Text.trim text = line) (hne : nameOf cases line ≠ [])
    (htrad : isTraditionalCommand (nameOf cases line) = false) :
    parseLine cases text =
      .command ⟨nameOf cases line, .extended (rawCommandParameters cases line (nameOf cases line))
        (shlexKv cases (rawCommandParameters cases line (nameOf cases line)))⟩ none := by
  have htrad' : ¬ isTraditionalCommand (nameOf cases line) = true := by
    rw [htrad]
    exact Bool.false_ne_true
  unfold parseLine
  rw [htrim]
  dsimp only
  rw [if_neg (ne_nil_of_nameOf hne), if_neg (fun h => hne h.1)]
  exact if_neg htrad'

theorem remark_eq (line : Text) : remark line = match line.dropWhile (· ≠ ';') with
    | [] => none
    | rest => some rest := by
  unfold remark
  split
  · rename_i hnil
    rw [hnil]
  · rename_i hcons
    obtain ⟨c, rest, hrest⟩ := List.exists_cons_of_ne_nil hcons
    rw [hrest]

theorem parseLine_of_traditional (htrim : Text.trim text = line) (hne : nameOf cases line ≠ [])
    (htrad : isTraditionalCommand (nameOf cases line) = true) :
    parseLine cases text = .command ⟨nameOf cases line, .traditional
      ((pairsFromParts (splitArgs (cases.upper (code line)))).drop
        (if isNumbered (splitArgs (cases.upper (code line))) then 2 else 1))⟩ (remark line) := by
  unfold parseLine
  rw [htrim]
  dsimp only
  rw [if_neg (ne_nil_of_nameOf hne), if_neg (fun h => hne h.1), remark_eq]
  exact if_pos htrad

/-- What every name of a command is. -/
structure IsName (name : Text) : Prop where
  ne : name ≠ []
  trim : Text.trim name = name
  upper : IsUpper name
  semicolon : ';' ∉ name

theorem IsName.head (h : IsName name) : ∀ c ∈ name.head?, Text.isWhitespace c = false := by
  have hfirst := Text.trim_head_solid name
  rwa [h.trim] at hfirst

theorem IsName.last (h : IsName name) : ∀ c ∈ name.getLast?, Text.isWhitespace c = false := by
  have hlast := Text.trim_last_solid name
  rwa [h.trim] at hlast

theorem isUpper_guardOf (name : Text) : IsUpper (guardOf name) := by
  unfold guardOf
  split
  · unfold IsUpper
    decide
  · exact nofun

theorem semicolon_notMem_guardOf (name : Text) : ';' ∉ guardOf name := by
  unfold guardOf
  split
  · decide
  · exact nofun

theorem isTraditionalCommand_of_zero (h : name <+: lit "N0 " ++ name) (hlength : 2 ≤ name.length) :
    isTraditionalCommand name = true := by
  have hzero : ∀ rest : Text, isTraditionalCommand ('N' :: '0' :: ' ' :: rest) = true := by
    intro rest
    have hwords := @Text.words_append_cons (lit "N0") rest ' ' (by decide)
    have htwo : Text.words (lit "N0") = [lit "N0"] := Text.words_of_forall (by decide) (by decide)
    rw [htwo] at hwords
    have hline : lit "N0" ++ ' ' :: rest = 'N' :: '0' :: ' ' :: rest := rfl
    rw [hline] at hwords
    unfold isTraditionalCommand
    rw [hwords, List.singleton_append, List.head?_cons]
    decide
  obtain ⟨more, hmore⟩ := h
  rcases name with _ | ⟨a, _ | ⟨b, _ | ⟨c, rest⟩⟩⟩
  · simp at hlength
  · simp at hlength
  · obtain ⟨rfl, hb⟩ := List.cons.inj hmore
    obtain ⟨rfl, -⟩ := List.cons.inj hb
    decide
  · obtain ⟨rfl, hb⟩ := List.cons.inj hmore
    obtain ⟨rfl, hc⟩ := List.cons.inj hb
    obtain ⟨rfl, -⟩ := List.cons.inj hc
    exact hzero rest

theorem length_of_guard (h : needsLineNumberGuard name = true) : 2 ≤ name.length := by
  unfold needsLineNumberGuard at h
  split at h
  · simp
  · cases h

theorem spaced_last (hname : ∀ c ∈ name.getLast?, Text.isWhitespace c = false)
    (hraw : ∀ c ∈ raw.getLast?, Text.isWhitespace c = false) :
    ∀ c ∈ (name ++ spaced raw).getLast?, Text.isWhitespace c = false := by
  unfold spaced
  by_cases hnil : raw = []
  · rwa [if_pos hnil, List.append_nil]
  · rw [if_neg hnil, List.getLast?_append_of_ne_nil _ (List.cons_ne_nil _ _)]
    obtain ⟨c, rest, rfl⟩ := List.exists_cons_of_ne_nil hnil
    exact hraw

/-- The guarded name, with the parameters behind it or nothing. -/
theorem trim_display (hname : IsName name) {again : Text}
    (hlast : ∀ c ∈ (name ++ again).getLast?, Text.isWhitespace c = false) :
    Text.trim (guardOf name ++ name ++ again) = guardOf name ++ name ++ again := by
  obtain ⟨c, rest, hcons⟩ := List.exists_cons_of_ne_nil hname.ne
  apply Text.trim_eq_self
  · unfold guardOf
    split
    · rintro d ⟨⟩
      decide
    · intro d hd
      rw [List.nil_append, hcons] at hd
      exact hname.head d (hcons ▸ hd)
  · rw [List.append_assoc, List.getLast?_append_of_ne_nil _ (by simp [hcons])]
    exact hlast

theorem code_display (hname : IsName name) (again : Text) :
    code (guardOf name ++ name ++ again) = guardOf name ++ name ++ code again := by
  apply code_append
  rw [List.mem_append, not_or]
  exact ⟨semicolon_notMem_guardOf name, hname.semicolon⟩

theorem upper_code_display (hname : IsName name) (again : Text) :
    cases.upper (code (guardOf name ++ name ++ again)) =
      guardOf name ++ name ++ cases.upper (code again) := by
  rw [code_display hname, upper_append,
    upper_of_isUpper ((isUpper_guardOf name).append hname.upper)]

/-- What the guard leaves of the parameters: with a line number in front a checksum is cut off. -/
def kept (name raw : Text) : Text :=
  if needsLineNumberGuard name then withoutChecksum raw else raw

theorem rawCommandParameters_display (hname : IsName name)
    (htrad : isTraditionalCommand name = false) (hascii : IsAscii raw)
    (hbehind : Behind (cases.upper (code (spaced raw)))) :
    rawCommandParameters cases (guardOf name ++ name ++ spaced raw) name = kept name raw := by
  have hspaced : IsAscii (spaced raw) := by
    unfold spaced
    split
    · exact nofun
    · exact List.forall_mem_cons.mpr ⟨by decide, hascii⟩
  unfold kept guardOf
  by_cases hguard : needsLineNumberGuard name = true
  · rw [if_pos hguard, if_pos hguard]
    have hline : IsAscii (lit "N0 " ++ name ++ spaced raw) := by
      refine IsAscii.append (IsAscii.append ?_ hname.upper.isAscii) hspaced
      unfold IsAscii
      decide
    have hupper : cases.upper (lit "N0 " ++ name ++ spaced raw) =
        'N' :: lit "0 " ++ name ++ cases.upper (spaced raw) := by
      have hN : IsUpper (lit "N0 ") := by
        unfold IsUpper
        decide
      rw [upper_append, upper_of_isUpper (hN.append hname.upper)]
      rfl
    have hhead : ¬ name <+: cases.upper (lit "N0 " ++ name ++ spaced raw) := by
      intro h
      rw [hupper] at h
      have hself := List.prefix_of_prefix_length_le h (List.prefix_append _ _) (by simp; omega)
      have hlength := length_of_guard hguard
      rw [isTraditionalCommand_of_zero hself hlength] at htrad
      cases htrad
    have hfirst : ∀ c ∈ name.head?, isBetween c = false := by
      unfold needsLineNumberGuard at hguard
      split at hguard
      · rintro c ⟨⟩
        decide
      · cases hguard
    have hdrop : (lit "N0 " ++ name ++ spaced raw).drop (1 + (lit "0 ").length + name.length) =
        spaced raw := by
      have hlength : 1 + (lit "0 ").length + name.length = (lit "N0 " ++ name).length := by
        rw [List.length_append]
        rfl
      rw [hlength, List.drop_left]
    have hraw := rawCommandParameters_of_number hline hupper (by decide) hname.ne hfirst hhead
    rw [hdrop, dropBlank_spaced] at hraw
    apply hraw
    apply isDigit_of_behind hascii
    have hopen := behind_dropBlank hspaced hbehind
    rwa [dropBlank_spaced] at hopen
  · rw [if_neg hguard, if_neg hguard, List.nil_append, rawCommandParameters_of_head]
    · rw [List.drop_left, dropBlank_spaced]
    · rw [List.take_left, upper_of_isUpper hname.upper]

/-- The display of an extended command is read as the command with what the guard leaves of its
parameters. -/
theorem parseLine_display (hname : IsName name) (htrad : isTraditionalCommand name = false)
    (hascii : IsAscii raw) (hlast : ∀ c ∈ raw.getLast?, Text.isWhitespace c = false)
    (hreads : ReadsAs name (cases.upper (code (spaced raw))))
    (hbehind : Behind (cases.upper (code (spaced raw)))) :
    parseLine cases (guardOf name ++ name ++ spaced raw) =
      .command ⟨name, .extended (kept name raw) (shlexKv cases (kept name raw))⟩ none := by
  have hself : nameOf cases (guardOf name ++ name ++ spaced raw) = name := by
    rw [nameOf, upper_code_display hname]
    exact hreads.named
  have hparse := @parseLine_of_extended cases _ _
    (trim_display hname (spaced_last hname.last hlast)) (hself.symm ▸ hname.ne)
    (by rw [hself]; exact htrad)
  rw [hself, rawCommandParameters_display hname htrad hascii hbehind] at hparse
  exact hparse

end Parsed

end DeadReckoning.Gcode
