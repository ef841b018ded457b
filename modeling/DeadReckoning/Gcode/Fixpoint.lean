import DeadReckoning.Gcode.Reading
import DeadReckoning.Gcode.Reparse

/-! The lines whose display is read as the line itself: all of ASCII but some with a line number and
a command that is no g-code. -/
namespace DeadReckoning.Gcode

section Found

variable {cases : CaseMapping} {line lead num name behind : Text}

/-- What stands behind the name of the command, in its own case. -/
def tailOf (cases : CaseMapping) (line lead : Text) : Text :=
  line.drop (lead.length + (nameOf cases line).length)

/-- Where the name of the command is found in its line. -/
structure FoundAt (cases : CaseMapping) (line lead : Text) : Prop where
  upper : cases.upper line =
    lead ++ nameOf cases line ++ cases.upper (tailOf cases line lead)
  command : cases.upper (code line) =
    lead ++ nameOf cases line ++ cases.upper (code (tailOf cases line lead))
  follows : Behind (cases.upper (code (tailOf cases line lead)))

theorem head_upper_code (hascii : IsAscii line)
    (hfirst : ∀ c ∈ line.head?, Text.isWhitespace c = false) :
    ∀ c ∈ (cases.upper (code line)).head?, Text.isWhitespace c = false := by
  intro c hc
  rw [upper_eq_map (isAscii_code hascii), List.head?_map] at hc
  obtain ⟨d, hd, rfl⟩ := Option.map_eq_some_iff.mp hc
  rw [Text.isWhitespace_toUpper]
  obtain ⟨more, hmore⟩ := List.takeWhile_prefix (· ≠ ';') (l := line)
  apply hfirst d
  rw [← hmore]
  obtain ⟨rest, hrest⟩ := List.head?_eq_some_iff.mp hd
  unfold code at hrest
  rw [hrest]
  rfl

theorem foundAt_of_code (hascii : IsAscii line) (hbehind : Behind behind)
    (hcode : cases.upper (code line) = lead ++ nameOf cases line ++ behind) :
    FoundAt cases line lead ∧ cases.upper (code (tailOf cases line lead)) = behind := by
  have hlength : (code line).length = lead.length + (nameOf cases line).length + behind.length := by
    rw [← length_upper cases (isAscii_code hascii), hcode, List.length_append,
      List.length_append]
  have htail : cases.upper (code (tailOf cases line lead)) = behind := by
    rw [tailOf, code_drop (by omega), upper_drop (isAscii_code hascii), hcode,
      ← List.length_append, List.drop_left]
  have hprefix : cases.upper (code line) <+: cases.upper line := by
    obtain ⟨more, hmore⟩ := List.takeWhile_prefix (· ≠ ';') (l := line)
    have hself : cases.upper (code line) ++ cases.upper more = cases.upper line := by
      rw [← upper_append]
      exact congrArg cases.upper hmore
    exact ⟨_, hself⟩
  obtain ⟨more, hmore⟩ := hprefix
  refine ⟨⟨?_, by rw [htail, hcode], by rwa [htail]⟩, htail⟩
  rw [tailOf, upper_drop hascii, ← hmore, hcode, ← List.length_append, List.append_assoc,
    List.drop_left]

/-- A line with a command has its name at its head, or behind a line number. -/
theorem exists_foundAt (hascii : IsAscii line)
    (hfirst : ∀ c ∈ line.head?, Text.isWhitespace c = false) (hne : nameOf cases line ≠ []) :
    IsName (nameOf cases line) ∧
      (FoundAt cases line [] ∧
          Heads (nameOf cases line) (cases.upper (code (tailOf cases line []))) ∨
        ∃ num, FoundAt cases line ('N' :: num) ∧ Numbered num (nameOf cases line)
          (cases.upper (code (tailOf cases line ('N' :: num))))) := by
  obtain ⟨behind, hbehind, htrim, hcases⟩ := exists_name (head_upper_code hascii hfirst) hne
  have hupper := isUpper_upper cases (isAscii_code hascii)
  have hsemicolon := semicolon_notMem_upper cases (isAscii_code hascii)
    (semicolon_notMem_code line)
  have hsub : nameOf cases line ⊆ cases.upper (code line) := by
    rcases hcases with ⟨hcode, -⟩ | ⟨num, hcode, -⟩
    · intro c hc
      rw [hcode]
      exact List.mem_append_left _ hc
    · intro c hc
      rw [hcode]
      exact List.mem_append_left _ (List.mem_append_right _ hc)
  refine ⟨⟨hne, htrim, hupper.of_subset hsub, fun h => hsemicolon (hsub h)⟩, ?_⟩
  rcases hcases with ⟨hcode, hheads⟩ | ⟨num, hcode, hnumbered⟩
  · obtain ⟨hfound, htail⟩ := @foundAt_of_code cases line [] behind hascii hbehind hcode
    exact .inl ⟨hfound, htail.symm ▸ hheads⟩
  · obtain ⟨hfound, htail⟩ := foundAt_of_code hascii hbehind hcode
    exact .inr ⟨num, hfound, htail.symm ▸ hnumbered⟩

end Found

section Extended

variable {cases : CaseMapping} {text line num name raw tail : Text}

theorem display_extended {pairs : Option (List (Text × Text))} (hne : name ≠ []) :
    (LineBody.command ⟨name, .extended raw pairs⟩ none).display =
      guardOf name ++ name ++ spaced raw := by
  have hdisplay : (LineBody.command ⟨name, .extended raw pairs⟩ none).display =
      guardOf name ++ (if name = [] then raw else name ++ spaced raw) ++ [] := rfl
  rw [hdisplay, if_neg hne, List.append_nil, List.append_assoc]

/-- Blanks at the end of the parameters are not read. -/
theorem trim_spaced (hname : IsName name) (raw : Text) :
    Text.trim (guardOf name ++ name ++ spaced raw) =
      Text.trim (guardOf name ++ name ++ spaced (raw.rdropWhile Text.isWhitespace)) := by
  have hsplit : raw.rdropWhile Text.isWhitespace ++ raw.rtakeWhile Text.isWhitespace = raw :=
    List.rdropWhile_append_rtakeWhile
  have hblank : ∀ c ∈ raw.rtakeWhile Text.isWhitespace, Text.isWhitespace c = true :=
    fun c hc => List.mem_rtakeWhile_imp hc
  have hne : guardOf name ++ name ++ spaced (raw.rdropWhile Text.isWhitespace) ≠ [] := by
    simp [hname.ne]
  have hself := trim_display hname (spaced_last hname.last (Text.rdropWhile_last_solid raw))
  rw [hself]
  by_cases hraw : raw = []
  · rw [hraw] at hself ⊢
    exact hself
  · by_cases hcut : raw.rdropWhile Text.isWhitespace = []
    · rw [hcut, List.nil_append] at hsplit
      rw [hcut] at hself hne ⊢
      have hall : ∀ c ∈ spaced raw, Text.isWhitespace c = true := by
        rw [spaced, if_neg hraw]
        exact List.forall_mem_cons.mpr ⟨by decide, hsplit ▸ hblank⟩
      have hnothing : guardOf name ++ name ++ spaced [] = guardOf name ++ name :=
        List.append_nil _
      rw [hnothing] at hself hne ⊢
      exact trim_behind hne hself hall
    · have hspaced : spaced raw = spaced (raw.rdropWhile Text.isWhitespace) ++
          raw.rtakeWhile Text.isWhitespace := by
        rw [spaced, if_neg hraw, spaced, if_neg hcut, List.cons_append, hsplit]
      rw [hspaced, ← List.append_assoc]
      exact trim_behind hne hself hblank

/-- What the display of an extended command is read as, whatever of the text behind the name its
parameters are. -/
theorem parseLine_again (hname : IsName name) (hN : name ≠ ['N'])
    (htrad : isTraditionalCommand name = false) (hascii : IsAscii tail)
    (hfound : Heads name (cases.upper (code tail)) ∨
      ∃ num, Numbered num name (cases.upper (code tail)))
    (hbehind : Behind (cases.upper (code tail))) (hraw : raw <+: dropBlank tail) :
    parseLine cases (guardOf name ++ name ++ spaced raw) =
      let again := kept name (raw.rdropWhile Text.isWhitespace)
      .command ⟨name, .extended again (shlexKv cases again)⟩ none := by
  have hcut : raw.rdropWhile Text.isWhitespace <+: dropBlank tail :=
    (List.rdropWhile_prefix _ _).trans hraw
  have hagain := reopened_spaced hascii hbehind hcut
  have hreads := readsAs_of_named hname.ne hname.trim hN hfound hagain
  have hascii' : IsAscii (raw.rdropWhile Text.isWhitespace) :=
    hascii.of_subset (fun c hc => (dropBlank_suffix tail).subset (hcut.subset hc))
  rw [parseLine_congr (trim_spaced hname raw)]
  exact parseLine_display hname htrad hascii' (Text.rdropWhile_last_solid raw) hreads hagain.follows

end Extended

section Numbered

variable {cases : CaseMapping} {text line num name raw tail more : Text}

/-- The line is read from its display as it was read at first. -/
def Reread (cases : CaseMapping) (text : Text) : Prop :=
  parseLine cases (parseLine cases text).display = parseLine cases text

theorem reread_extended (hne : name ≠ [])
    (hparse : parseLine cases text = .command ⟨name, .extended raw (shlexKv cases raw)⟩ none) :
    Reread cases text ↔ parseLine cases (guardOf name ++ name ++ spaced raw) =
      .command ⟨name, .extended raw (shlexKv cases raw)⟩ none := by
  rw [Reread, hparse, display_extended hne]

/-- It is when the guard and the blanks at the end leave the parameters as they are. -/
theorem reread_iff_kept (hname : IsName name) (hN : name ≠ ['N'])
    (htrad : isTraditionalCommand name = false) (hascii : IsAscii tail)
    (hfound : Heads name (cases.upper (code tail)) ∨
      ∃ num, Numbered num name (cases.upper (code tail)))
    (hbehind : Behind (cases.upper (code tail))) (hraw : raw <+: dropBlank tail)
    (hparse : parseLine cases text = .command ⟨name, .extended raw (shlexKv cases raw)⟩ none) :
    Reread cases text ↔ kept name (raw.rdropWhile Text.isWhitespace) = raw := by
  rw [reread_extended hname.ne hparse,
    parseLine_again hname hN htrad hascii hfound hbehind hraw]
  dsimp only
  constructor
  · intro h
    obtain ⟨-, hparams⟩ := Command.mk.inj (LineBody.command.inj h).1
    exact (CommandParams.extended.inj hparams).1
  · intro h
    rw [h]

theorem getLast_suffix {s t : Text} (h : s <:+ t)
    (ht : ∀ c ∈ t.getLast?, Text.isWhitespace c = false) :
    ∀ c ∈ s.getLast?, Text.isWhitespace c = false := by
  intro c hc
  obtain ⟨before, rfl⟩ := h
  have hne : s ≠ [] := by
    rintro rfl
    cases hc
  apply ht c
  rwa [List.getLast?_append_of_ne_nil _ hne]

theorem rdropWhile_eq_self {s : Text} (h : ∀ c ∈ s.getLast?, Text.isWhitespace c = false) :
    s.rdropWhile Text.isWhitespace = s := by
  rw [List.rdropWhile_eq_self_iff]
  intro hne
  rw [h _ (List.getLast?_eq_some_getLast hne)]
  exact Bool.false_ne_true

theorem kept_shortens (name raw : Text) : kept name raw <+: raw := by
  unfold kept
  split
  · exact withoutChecksum_shortens raw
  · exact List.prefix_rfl

/-- Parameters are left as they are that end with neither a blank nor, behind a guarded name, a
checksum. -/
theorem kept_eq_self : kept name (raw.rdropWhile Text.isWhitespace) = raw ↔
    (∀ c ∈ raw.getLast?, Text.isWhitespace c = false) ∧
      ¬ (needsLineNumberGuard name = true ∧ ∃ inner, Checksummed inner raw) := by
  constructor
  · intro h
    have hcut : raw.rdropWhile Text.isWhitespace = raw := by
      apply (List.rdropWhile_prefix Text.isWhitespace raw).eq_of_length_le
      have hlength := (kept_shortens name (raw.rdropWhile Text.isWhitespace)).length_le
      rwa [h] at hlength
    have hlast := Text.rdropWhile_last_solid raw
    rw [hcut] at h hlast
    refine ⟨hlast, fun ⟨hguard, inner, hinner⟩ => ?_⟩
    rw [kept, if_pos hguard, withoutChecksum_eq_self] at h
    exact h inner hinner
  · rintro ⟨hlast, hsum⟩
    rw [rdropWhile_eq_self hlast, kept]
    split
    · rename_i hguard
      exact withoutChecksum_of_not fun inner hinner => hsum ⟨hguard, inner, hinner⟩
    · rfl

theorem Numbered.head (h : Numbered num name more) : ∀ c ∈ name.head?, isBetween c = false := by
  obtain ⟨token, number, rfl, -, htoken⟩ := h.named
  obtain ⟨d, rest, hcons⟩ := List.exists_cons_of_ne_nil htoken.ne_nil
  intro c hc
  apply htoken.outside c
  rw [hcons] at hc ⊢
  obtain rfl := Option.some.inj hc
  exact List.mem_cons_self

/-- A numbered command that is not found at the head of its line. -/
theorem reread_iff_of_number (hascii : IsAscii line) (htrim : Text.trim text = line)
    (hlast : ∀ c ∈ line.getLast?, Text.isWhitespace c = false) (hname : IsName (nameOf cases line))
    (hN : nameOf cases line ≠ ['N']) (htrad : isTraditionalCommand (nameOf cases line) = false)
    (hfound : FoundAt cases line ('N' :: num))
    (hnumbered : Numbered num (nameOf cases line)
      (cases.upper (code (tailOf cases line ('N' :: num)))))
    (hhead : ¬ nameOf cases line <+: cases.upper line) :
    Reread cases text ↔
      ∀ before, Checksummed before (dropBlank (tailOf cases line ('N' :: num))) →
        (∀ c ∈ before.getLast?, Text.isWhitespace c = false) ∧
          ¬ (needsLineNumberGuard (nameOf cases line) = true ∧
            ∃ inner, Checksummed inner before) := by
  have htail : IsAscii (tailOf cases line ('N' :: num)) := hascii.of_subset (List.drop_subset _ _)
  have hstart : tailOf cases line ('N' :: num) =
      line.drop (1 + num.length + (nameOf cases line).length) := by
    rw [tailOf, List.length_cons, Nat.add_comm num.length 1]
  have hopen := behind_dropBlank htail hfound.follows
  have hdigit := isDigit_of_behind
    (htail.of_subset (dropBlank_suffix (tailOf cases line ('N' :: num))).subset) hopen
  have hraw : rawCommandParameters cases line (nameOf cases line) =
      withoutChecksum (dropBlank (tailOf cases line ('N' :: num))) := by
    rw [hstart] at hdigit ⊢
    exact rawCommandParameters_of_number hascii hfound.upper hnumbered.between hname.ne
      hnumbered.head hhead hdigit
  have hparse := parseLine_of_extended htrim hname.ne htrad
  rw [hraw] at hparse
  rw [reread_iff_kept hname hN htrad htail (.inr ⟨num, hnumbered⟩) hfound.follows
    (withoutChecksum_shortens _) hparse, kept_eq_self]
  by_cases hsum : ∃ before, Checksummed before (dropBlank (tailOf cases line ('N' :: num)))
  · obtain ⟨before, hbefore⟩ := hsum
    rw [withoutChecksum_of_checksummed hbefore]
    refine ⟨fun h other hother => ?_, fun h => h before hbefore⟩
    have hsame := withoutChecksum_of_checksummed hother
    rw [withoutChecksum_of_checksummed hbefore] at hsame
    rwa [← hsame]
  · have hnot : ∀ before, ¬ Checksummed before (dropBlank (tailOf cases line ('N' :: num))) :=
      fun before h => hsum ⟨before, h⟩
    rw [withoutChecksum_of_not hnot]
    refine ⟨fun _ before h => absurd h (hnot before), fun _ => ⟨?_, ?_⟩⟩
    · exact getLast_suffix ((dropBlank_suffix _).trans (List.drop_suffix _ _)) hlast
    · rintro ⟨-, inner, hinner⟩
      exact hnot inner hinner

end Numbered

section Repeated

variable {cases : CaseMapping} {text line num name more before s : Text}

/-- A name at the head of its own numbered line begins with the line number. -/
theorem exists_repeated (h : Numbered num name more) (hne : name ≠ []) (hN : name ≠ ['N'])
    {after : Text} (hhead : name <+: 'N' :: num ++ name ++ after) :
    ∃ first rest, name = 'N' :: first ∧ first ≠ [] ∧ (∀ c ∈ first, isBetween c = true) ∧
      num = first ++ rest := by
  obtain ⟨token, number, hname, hnumber, htoken⟩ := h.named
  obtain ⟨a, first, rfl⟩ := List.exists_cons_of_ne_nil hne
  obtain ⟨behind, hbehind⟩ := hhead
  obtain ⟨rfl, hrest⟩ := List.cons.inj hbehind
  have hfirst : first ≠ [] := by
    rintro rfl
    exact hN rfl
  obtain ⟨c, first, rfl⟩ := List.exists_cons_of_ne_nil hfirst
  have hc : isRun c = false := by
    rcases h.opens with hstar | ⟨-, -, hstop⟩
    · exact absurd hstar (by decide)
    · cases num with
      | nil => exact absurd (hstop 'N' rfl) (by decide)
      | cons d num =>
        rw [(List.cons.inj hrest).1]
        exact hstop d rfl
  have hbetween : ∀ d ∈ c :: first, isBetween d = true := by
    rcases htoken with rfl | ⟨htoken, hrun, -⟩
    · exact absurd (List.cons.inj hname).1 (by decide)
    · obtain ⟨d, token, rfl⟩ := List.exists_cons_of_ne_nil htoken
      obtain ⟨-, hfollow⟩ := List.cons.inj hname
      cases token with
      | nil =>
        have hself : c :: first = number := hfollow
        rw [hself]
        exact hnumber
      | cons d token =>
        have hd := hrun d (List.mem_cons_of_mem _ List.mem_cons_self)
        rw [← (List.cons.inj hfollow).1, hc] at hd
        cases hd
  have hrest' : c :: first ++ behind = num ++ 'N' :: c :: first ++ after := hrest
  rw [List.append_assoc] at hrest'
  rcases List.append_eq_append_iff.mp hrest' with ⟨rest, hnum, -⟩ | ⟨rest, hself, hmore⟩
  · exact ⟨c :: first, rest, rfl, List.cons_ne_nil _ _, hbetween, hnum⟩
  · cases rest with
    | nil =>
      rw [List.append_nil] at hself
      exact ⟨c :: first, [], rfl, List.cons_ne_nil _ _, hbetween, by rw [hself, List.append_nil]⟩
    | cons d rest =>
      have hd := hbetween d (by rw [hself]; simp)
      rw [← (List.cons.inj hmore).1] at hd
      exact absurd hd (by decide)

theorem upper_code_dropBlank (hascii : IsAscii s) :
    cases.upper (code (dropBlank s)) = dropBlank (cases.upper (code s)) := by
  cases s with
  | nil => rfl
  | cons c s =>
    have hc := hascii c List.mem_cons_self
    by_cases hsemicolon : c = ';'
    · subst hsemicolon
      rfl
    · have hcode : code (c :: s) = c :: code s :=
        List.takeWhile_cons_of_pos (decide_eq_true hsemicolon)
      rw [dropBlank, hcode, upper_cons, cases.ascii c hc, List.singleton_append, dropBlank,
        Text.isWhitespace_toUpper]
      split
      · rfl
      · rw [hcode, upper_cons, cases.ascii c hc, List.singleton_append]

theorem dropBlank_append (hne : s ≠ []) (t : Text) : dropBlank (s ++ t) = dropBlank s ++ t := by
  obtain ⟨c, s, rfl⟩ := List.exists_cons_of_ne_nil hne
  rw [List.cons_append, dropBlank, dropBlank]
  split
  · rfl
  · rfl

theorem Checksummed.of_suffix {t : Text} (h : Checksummed before s) (hs : s <:+ t) :
    ∃ other, Checksummed other t := by
  obtain ⟨digits, hne, hdigits, rfl⟩ := h
  obtain ⟨start, rfl⟩ := hs
  exact ⟨start ++ before, digits, hne, hdigits, by simp⟩

/-- A checksum at the end of the line is one at the end of what stands behind a text without a
star. -/
theorem Checksummed.behind {n : ℕ} (h : Checksummed before line) (hstar : '*' ∉ line.take n) :
    ∃ other, Checksummed other (dropBlank (line.drop n)) := by
  obtain ⟨digits, hne, hdigits, rfl⟩ := h
  have hn : n ≤ before.length := by
    by_contra hlong
    apply hstar
    rw [List.take_append, List.mem_append]
    right
    rw [show n - before.length = n - before.length - 1 + 1 by omega, List.take_succ_cons]
    exact List.mem_cons_self
  rw [List.drop_append_of_le_length hn]
  by_cases hnil : before.drop n = []
  · rw [hnil, List.nil_append, dropBlank, if_neg (by decide)]
    exact ⟨[], digits, hne, hdigits, rfl⟩
  · rw [dropBlank_append hnil]
    exact ⟨_, digits, hne, hdigits, rfl⟩

theorem star_notMem (cases : CaseMapping) (hascii : IsAscii s) (h : '*' ∉ cases.upper s) : '*' ∉ s := by
  intro hmem
  apply h
  rw [upper_eq_map hascii]
  exact List.mem_map.mpr ⟨'*', hmem, by decide⟩

theorem trim_append_ne (hne : s ≠ []) (hfirst : ∀ c ∈ s.head?, Text.isWhitespace c = false)
    {rest : Text} (hrest : ∃ c ∈ rest, Text.isWhitespace c = false) : Text.trim (s ++ rest) ≠ s := by
  intro htrim
  obtain ⟨a, b, hsplit, ha, hb⟩ := Text.exists_trim (s ++ rest)
  rw [htrim] at hsplit
  have hempty : a = [] := by
    cases a with
    | nil => rfl
    | cons c a =>
      obtain ⟨d, more, rfl⟩ := List.exists_cons_of_ne_nil hne
      have hd := hfirst d rfl
      rw [(List.cons.inj hsplit).1, ha c List.mem_cons_self] at hd
      cases hd
  rw [hempty, List.nil_append] at hsplit
  obtain ⟨c, hc, hsolid⟩ := hrest
  rw [List.append_cancel_left hsplit] at hc
  rw [hb c hc] at hsolid
  cases hsolid

theorem exists_solid_dropBlank (h : ∃ c ∈ s, Text.isWhitespace c = false) :
    ∃ c ∈ dropBlank s, Text.isWhitespace c = false := by
  obtain ⟨c, hc, hsolid⟩ := h
  cases s with
  | nil => exact ⟨c, hc, hsolid⟩
  | cons d s =>
    rw [dropBlank]
    split
    · rename_i hd
      rcases List.mem_cons.mp hc with rfl | hc
      · rw [hd] at hsolid
        cases hsolid
      · exact ⟨c, hc, hsolid⟩
    · exact ⟨c, hc, hsolid⟩

theorem between_dropBlank (h : ∀ c ∈ s, isBetween c = true) : ∀ c ∈ dropBlank s, isBetween c = true :=
  fun c hc => h c ((dropBlank_suffix s).subset hc)

/-- Behind a guard and the name, text up to the next word is a part of the name. -/
theorem commandName_of_repeated {first rest : Text} (hfirst : ∀ c ∈ first, isBetween c = true)
    (hne : first ≠ []) (hrest : ∀ c ∈ rest, isBetween c = true) (hmore : AtToken more) :
    commandName (splitArgs (lit "N0 " ++ 'N' :: first ++ ' ' :: (rest ++ more))) =
      Text.trim ('N' :: first ++ ' ' :: rest) := by
  obtain ⟨c, first, rfl⟩ := List.exists_cons_of_ne_nil hne
  have hnothing : ∀ c ∈ ([] : Text), isBetween c = true := nofun
  have hzero : ∀ c ∈ lit "0 ", isBetween c = true := by decide
  have hnumber : ∀ d ∈ c :: first ++ ' ' :: rest, isBetween d = true :=
    List.forall_mem_append.mpr ⟨hfirst, List.forall_mem_cons.mpr ⟨by decide, hrest⟩⟩
  have hline : lit "N0 " ++ 'N' :: c :: first ++ ' ' :: (rest ++ more) =
      [] ++ ['N'] ++ (lit "0 " ++ ['N'] ++ (c :: first ++ ' ' :: rest ++ more)) := by
    rw [List.append_assoc (c :: first)]
    rfl
  have houter : IsToken ['N'] (lit "0 " ++ ['N'] ++ (c :: first ++ ' ' :: rest ++ more)) := by
    refine .inr ⟨by decide, by decide, ?_⟩
    rintro d ⟨⟩
    decide
  have hinner : IsToken ['N'] (c :: first ++ ' ' :: rest ++ more) := by
    refine .inr ⟨by decide, by decide, ?_⟩
    rintro d ⟨⟩
    exact isRun_of_isBetween (hfirst c List.mem_cons_self)
  obtain ⟨parts, hparts⟩ := splitArgs_between hnumber hmore
  rw [hline, splitArgs_token hnothing houter, splitArgs_token hzero hinner, hparts,
    commandName_of_number]
  rfl

theorem take_drop_of_upper {lead : Text} {n : ℕ} (hascii : IsAscii line) (hn : n = lead.length)
    (hline : cases.upper line = lead ++ more) :
    cases.upper (line.take n) = lead ∧ cases.upper (line.drop n) = more := by
  rw [upper_take hascii, upper_drop hascii, hline, hn]
  exact ⟨List.take_left, List.drop_left⟩

theorem upper_code_drop {lead : Text} {n : ℕ} (hascii : IsAscii line) (hn : n = lead.length)
    (hcode : cases.upper (code line) = lead ++ more) :
    cases.upper (code (line.drop n)) = more := by
  have hlength : n ≤ (code line).length := by
    rw [← length_upper cases (isAscii_code hascii), hcode, List.length_append]
    omega
  rw [code_drop hlength]
  exact (take_drop_of_upper (isAscii_code hascii) hn hcode).2

/-- A numbered command whose name is found at the head of its line. -/
theorem reread_iff_of_repeated (hascii : IsAscii line) (htrim : Text.trim text = line)
    (hlast : ∀ c ∈ line.getLast?, Text.isWhitespace c = false)
    (hdef : nameOf cases line = name) (hname : IsName name) (hN : name ≠ ['N'])
    (htrad : isTraditionalCommand name = false) {behind command : Text}
    (hupper : cases.upper line = 'N' :: num ++ name ++ behind)
    (hcode : cases.upper (code line) = 'N' :: num ++ name ++ command)
    (hnumbered : Numbered num name command) (hhead : name <+: cases.upper line) :
    Reread cases text ↔ (∀ c ∈ num.drop (name.length - 1), Text.isWhitespace c = true) ∧
      ¬ ∃ before, Checksummed before line := by
  obtain ⟨first, rest, hself, hne, hfirst, hnum⟩ :=
    exists_repeated hnumbered hname.ne hN (hupper ▸ hhead)
  have hsplit (more : Text) : 'N' :: num ++ name ++ more = name ++ (rest ++ (name ++ more)) := by
    rw [hnum, hself]
    simp
  rw [hsplit] at hupper hcode
  obtain ⟨htake, -⟩ := take_drop_of_upper hascii rfl hupper
  have htail := upper_code_drop hascii rfl hcode
  have hasciiTail : IsAscii (line.drop name.length) := hascii.of_subset (List.drop_subset _ _)
  have hraw := rawCommandParameters_of_head htake
  have hparse := parseLine_of_extended htrim (hdef.symm ▸ hname.ne) (by rw [hdef]; exact htrad)
  rw [hdef, hraw] at hparse
  have hstar : '*' ∉ line.take name.length := by
    apply star_notMem cases (hascii.of_subset (List.take_subset _ _))
    rw [htake, hself]
    intro hmem
    rcases List.mem_cons.mp hmem with h | h
    · exact absurd h (by decide)
    · exact absurd (hfirst _ h) (by decide)
  have hrawLast := getLast_suffix
    ((dropBlank_suffix (line.drop name.length)).trans (List.drop_suffix _ _)) hlast
  obtain ⟨c, more, hcons⟩ := List.exists_cons_of_ne_nil hne
  have hguard : needsLineNumberGuard name = true := by
    rw [hself, hcons]
    exact congrArg (!·) (isRun_of_isBetween (hfirst c (hcons ▸ List.mem_cons_self)))
  have hdrop : num.drop (name.length - 1) = rest := by
    rw [hnum, hself, List.length_cons, Nat.add_sub_cancel, List.drop_left]
  have hbegins : AtToken (name ++ command) := by
    rw [hself]
    rintro d ⟨⟩
    decide
  rw [hdrop]
  by_cases hblank : ∀ c ∈ rest, Text.isWhitespace c = true
  · have hagain : Numbered (lit "0 ") name (cases.upper (code (line.drop name.length))) := by
      refine ⟨by decide, .inr ⟨by decide, by decide, ?_⟩, ['N'], first, hself, hfirst, .inr
        ⟨by decide, by decide, ?_⟩⟩
      · rintro d ⟨⟩
        decide
      · rw [hcons]
        rintro d ⟨⟩
        exact isRun_of_isBetween (hfirst _ (hcons ▸ List.mem_cons_self))
    have hbehind : Behind (cases.upper (code (line.drop name.length))) := by
      rw [htail]
      exact ⟨rest, name ++ command, rfl, hblank, hbegins⟩
    rw [reread_iff_kept hname hN htrad hasciiTail (.inr ⟨_, hagain⟩) hbehind List.prefix_rfl hparse,
      kept_eq_self]
    constructor
    · rintro ⟨-, hsum⟩
      exact ⟨hblank, fun ⟨before, h⟩ => hsum ⟨hguard, h.behind hstar⟩⟩
    · rintro ⟨-, hsum⟩
      refine ⟨hrawLast, fun ⟨_, inner, h⟩ => hsum ?_⟩
      exact h.of_suffix ((dropBlank_suffix _).trans (List.drop_suffix _ _))
  · -- Text between the two is read as a part of the name.
    refine ⟨fun h => False.elim ?_, fun h => absurd h.1 hblank⟩
    rw [reread_extended hname.ne hparse] at h
    have hrestne : rest ≠ [] := by
      rintro rfl
      exact hblank nofun
    have hsolid : ∃ c ∈ rest, Text.isWhitespace c = false := by
      by_contra hnone
      refine hblank fun c hc => ?_
      by_contra hc'
      exact hnone ⟨c, hc, Bool.not_eq_true _ ▸ hc'⟩
    have hcodeRaw : cases.upper (code (dropBlank (line.drop name.length))) =
        dropBlank rest ++ (name ++ command) := by
      rw [upper_code_dropBlank hasciiTail, htail, dropBlank_append hrestne]
    have hrawne : dropBlank (line.drop name.length) ≠ [] := by
      intro hnil
      rw [hnil] at hcodeRaw
      have hlength := congrArg List.length hcodeRaw
      rw [List.length_append, List.length_append, hself] at hlength
      simp [code, CaseMapping.upper] at hlength
      omega
    have hread := commandName_of_parseLine h
    rw [trim_display hname (spaced_last hname.last hrawLast)] at hread
    change commandName (splitArgs (cases.upper (code _))) = name at hread
    rw [upper_code_display hname, upper_code_spaced, if_neg hrawne, hcodeRaw, guardOf, if_pos hguard,
      hself, commandName_of_repeated hfirst hne _ (hself ▸ hbegins)] at hread
    · rw [← hself] at hread
      refine trim_append_ne hname.ne hname.head ?_ hread
      obtain ⟨c, hc, hsolid⟩ := exists_solid_dropBlank hsolid
      exact ⟨c, List.mem_cons_of_mem _ hc, hsolid⟩
    · apply between_dropBlank
      intro c hc
      apply hnumbered.between c
      rw [hnum]
      exact List.mem_append_right _ hc

end Repeated

section Always

variable {cases : CaseMapping} {text line num name : Text}

/-- The name is that of the lone `N`, which is read as a line number in front of itself. -/
theorem reread_of_lone (hascii : IsAscii line) (htrim : Text.trim text = line)
    (hlast : ∀ c ∈ line.getLast?, Text.isWhitespace c = false)
    (hdef : nameOf cases line = ['N']) {behind command : Text}
    (hupper : cases.upper line = 'N' :: num ++ ['N'] ++ behind)
    (hcode : cases.upper (code line) = 'N' :: num ++ ['N'] ++ command)
    (hnumbered : Numbered num ['N'] command) (hbehind : Behind command) : Reread cases text := by
  have hname : IsName ['N'] := by
    refine ⟨by decide, by decide, ?_, by decide⟩
    unfold IsUpper
    decide
  have htrad : isTraditionalCommand ['N'] = false := by decide
  have hnum : num ≠ [] := by
    rintro rfl
    rcases hnumbered.opens with h | ⟨-, -, h⟩
    · exact absurd h (by decide)
    · exact absurd (h 'N' rfl) (by decide)
  have hsplit (more : Text) : 'N' :: num ++ ['N'] ++ more = ['N'] ++ (num ++ (['N'] ++ more)) := by
    simp
  rw [hsplit] at hupper hcode
  obtain ⟨htake, -⟩ := take_drop_of_upper hascii rfl hupper
  have htail := upper_code_drop hascii rfl hcode
  have hasciiTail : IsAscii (line.drop ['N'].length) := hascii.of_subset (List.drop_subset _ _)
  have hraw : rawCommandParameters cases line ['N'] = dropBlank (line.drop ['N'].length) :=
    rawCommandParameters_of_head htake
  have hparse := parseLine_of_extended htrim (hdef.symm ▸ hname.ne) (by rw [hdef]; exact htrad)
  rw [hdef, hraw] at hparse
  have hrawLast := getLast_suffix
    ((dropBlank_suffix (line.drop ['N'].length)).trans (List.drop_suffix _ _)) hlast
  have hcodeRaw : cases.upper (code (dropBlank (line.drop ['N'].length))) =
      dropBlank num ++ (['N'] ++ command) := by
    rw [upper_code_dropBlank hasciiTail, htail, dropBlank_append hnum]
  have hrawne : dropBlank (line.drop ['N'].length) ≠ [] := by
    intro hnil
    rw [hnil] at hcodeRaw
    have hlength := congrArg List.length hcodeRaw
    simp [code, CaseMapping.upper] at hlength
  rw [reread_extended hname.ne hparse]
  have hagain : Numbered (' ' :: dropBlank num) ['N'] command := by
    refine ⟨?_, .inr ⟨by decide, by decide, ?_⟩, hnumbered.named⟩
    · exact List.forall_mem_cons.mpr ⟨by decide, between_dropBlank hnumbered.between⟩
    · rintro c ⟨⟩
      decide
  obtain ⟨-, hread, -⟩ := parts_of_numbered hname.ne hname.trim hagain hbehind
  have hself : nameOf cases (guardOf ['N'] ++ ['N'] ++ spaced (dropBlank (line.drop ['N'].length))) =
      ['N'] := by
    have hline : ['N'] ++ ' ' :: (dropBlank num ++ (['N'] ++ command)) =
        'N' :: (' ' :: dropBlank num) ++ ['N'] ++ command := by simp
    have hguard : guardOf ['N'] = [] := rfl
    rw [nameOf, upper_code_display hname, upper_code_spaced, if_neg hrawne, hcodeRaw, hguard,
      List.nil_append, hline]
    exact hread
  have hopen : Text.trim (guardOf ['N'] ++ ['N'] ++ spaced (dropBlank (line.drop ['N'].length))) =
      guardOf ['N'] ++ ['N'] ++ spaced (dropBlank (line.drop ['N'].length)) :=
    trim_display hname (spaced_last hname.last hrawLast)
  have hparse' := @parseLine_of_extended cases _ _ hopen (hself.symm ▸ hname.ne)
    (by rw [hself]; exact htrad)
  have hraw' : rawCommandParameters cases
      (guardOf ['N'] ++ ['N'] ++ spaced (dropBlank (line.drop ['N'].length))) ['N'] =
        dropBlank (line.drop ['N'].length) := by
    rw [rawCommandParameters_of_head (upper_of_isUpper hname.upper)]
    exact dropBlank_spaced _
  rw [hself, hraw'] at hparse'
  exact hparse'

theorem heads_ne_lone {behind : Text} (h : Heads name behind) : name ≠ ['N'] := by
  rintro rfl
  have hN : isBetween 'N' = false := by decide
  rcases h with ⟨htext, -⟩ | ⟨before, token, number, hname, hbefore, htoken, -, hno⟩
  · rw [htext 'N' List.mem_cons_self] at hN
    cases hN
  · cases before with
    | nil =>
      obtain ⟨c, token, rfl⟩ := List.exists_cons_of_ne_nil htoken.ne_nil
      obtain ⟨rfl, hrest⟩ := List.cons.inj hname
      obtain ⟨rfl, -⟩ := List.append_eq_nil_iff.mp hrest.symm
      exact hno ⟨rfl, rfl⟩
    | cons c before =>
      have hc := hbefore c List.mem_cons_self
      rw [← (List.cons.inj hname).1, hN] at hc
      cases hc

/-- The command stands at the head of its line. -/
theorem reread_of_heads (hascii : IsAscii line) (htrim : Text.trim text = line)
    (hlast : ∀ c ∈ line.getLast?, Text.isWhitespace c = false) (hname : IsName (nameOf cases line))
    (htrad : isTraditionalCommand (nameOf cases line) = false) (hfound : FoundAt cases line [])
    (hheads : Heads (nameOf cases line) (cases.upper (code (tailOf cases line [])))) :
    Reread cases text := by
  have htail : tailOf cases line [] = line.drop (nameOf cases line).length := by
    rw [tailOf, List.length_nil, Nat.zero_add]
  have hupper := hfound.upper
  rw [List.nil_append] at hupper
  obtain ⟨htake, -⟩ := take_drop_of_upper hascii rfl hupper
  have hparse := parseLine_of_extended htrim hname.ne htrad
  rw [rawCommandParameters_of_head htake, ← htail] at hparse
  rw [reread_iff_kept hname (heads_ne_lone hheads) htrad (hascii.of_subset (List.drop_subset _ _))
    (.inl hheads) hfound.follows List.prefix_rfl hparse, kept_eq_self]
  refine ⟨getLast_suffix ((dropBlank_suffix _).trans (List.drop_suffix _ _)) hlast, ?_⟩
  rintro ⟨hguard, -⟩
  rw [needsLineNumberGuard_of_heads hheads] at hguard
  cases hguard

/-- There is no name: the line is blank, a comment, or it is nothing but a line number. -/
theorem reread_of_nameless (htrim : Text.trim text = line) (hname : nameOf cases line = []) :
    Reread cases text := by
  have hself : parseLine cases line = parseLine cases text := by
    apply parseLine_congr
    rw [← htrim, Text.trim_trim]
  have hblank : parseLine cases [] = .blank := rfl
  have hraw : rawCommandParameters cases line [] = line := by
    rw [rawCommandParameters_of_head rfl, List.length_nil, List.drop_zero]
    have hfirst := Text.trim_head_solid text
    rw [htrim] at hfirst
    cases line with
    | nil => rfl
    | cons c line =>
      rw [dropBlank, if_neg]
      rw [hfirst c rfl]
      exact Bool.false_ne_true
  have hcases : parseLine cases text = .blank ∨ (∃ comment, parseLine cases text = .comment comment) ∨
      parseLine cases text = .command ⟨[], .extended line (shlexKv cases line)⟩ none := by
    have hname' : commandName (splitArgs (cases.upper (line.takeWhile (· ≠ ';')))) = [] := hname
    unfold parseLine
    rw [htrim]
    dsimp only
    rw [hname', hraw]
    split
    · exact .inl rfl
    · split
      · split
        · exact .inr (.inl ⟨_, rfl⟩)
        · exact .inl rfl
      · exact .inr (.inr rfl)
  unfold Reread
  rcases hcases with h | ⟨comment, h⟩ | h
  · rw [h]
    exact hblank
  · obtain ⟨hcomment, -⟩ := comment_of_parseLine h
    have hdisplay : (parseLine cases text).display = line := by
      rw [h, ← htrim]
      exact hcomment
    rw [hdisplay, hself]
  · have hdisplay : (parseLine cases text).display = line := by
      rw [h]
      exact List.append_nil _
    rw [hdisplay, hself]

end Always

section Traditional

variable {cases : CaseMapping} {text line name s : Text} {pairs : List (Text × Text)}

/-- The pairs of a command as they are written behind its name. -/
def writePairs (pairs : List (Text × Text)) : Text := pairs.flatMap fun p => ' ' :: p.1 ++ p.2

/-- A pair that is read as itself: a word or a star, and text without blanks around it. -/
structure IsPair (p : Text × Text) : Prop where
  key : p.1 = ['*'] ∨ p.1 ≠ [] ∧ ∀ c ∈ p.1, isRun c = true
  between : ∀ c ∈ p.2, isBetween c = true
  trim : Text.trim p.2 = p.2

theorem IsPair.isToken {p : Text × Text} (h : IsPair p) {rest : Text}
    (hrest : ∀ c ∈ rest.head?, isBetween c = true) : IsToken p.1 rest :=
  h.key.imp id fun ⟨hne, hrun⟩ => ⟨hne, hrun, fun c hc => isRun_of_isBetween (hrest c hc)⟩

theorem IsPair.closed {p : Text × Text} (h : IsPair p) : IsToken p.1 [] := h.isToken nofun

theorem writePairs_cons (p : Text × Text) (pairs : List (Text × Text)) :
    writePairs (p :: pairs) = ' ' :: p.1 ++ p.2 ++ writePairs pairs := List.flatMap_cons

/-- Every pair of a line is one, of the line's own characters. -/
theorem isPair_of_mem {p : Text × Text} (hp : p ∈ pairsFromParts (splitArgs s)) :
    IsPair p ∧ p.1 ⊆ s ∧ p.2 ⊆ s := by
  induction hn : s.length using Nat.strong_induction_on generalizing s p with
  | _ n ih =>
    obtain ⟨text, htext, ⟨-, hparts⟩ | ⟨token, rest, hs, htoken, hparts⟩⟩ := exists_first s
    · rw [hparts] at hp
      cases hp
    · obtain ⟨value, parts, after, hrest, hvalue, -, hsplit⟩ := exists_splitArgs_head rest
      have hlength : rest.length < n := by
        have hpos := List.length_pos_iff.mpr htoken.ne_nil
        rw [← hn, hs, List.length_append, List.length_append]
        omega
      have hmore : ∀ q ∈ pairsFromParts (splitArgs rest), IsPair q ∧ q.1 ⊆ s ∧ q.2 ⊆ s := by
        intro q hq
        obtain ⟨hpair, hkey, hval⟩ := ih rest.length hlength hq rfl
        have hsub : rest ⊆ s := by
          rw [hs]
          exact List.subset_append_right _ _
        exact ⟨hpair, fun c hc => hsub (hkey hc), fun c hc => hsub (hval hc)⟩
      rw [hparts, hsplit] at hp
      rw [hsplit] at hmore
      rcases List.mem_cons.mp hp with rfl | hp
      · obtain ⟨a, b, htrim, -, -⟩ := Text.exists_trim value
        have hsub : Text.trim value ⊆ value := by
          intro c hc
          rw [htrim]
          exact List.mem_append_left _ (List.mem_append_right _ hc)
        refine ⟨⟨htoken.imp id fun ⟨hne, hrun, _⟩ => ⟨hne, hrun⟩,
          fun c hc => hvalue c (hsub hc), Text.trim_trim value⟩, ?_, ?_⟩
        · rw [hs]
          exact fun c hc => List.mem_append_left _ (List.mem_append_right _ hc)
        · rw [hs, hrest]
          exact fun c hc => List.mem_append_right _ (List.mem_append_left _ (hsub hc))
      · exact hmore p hp

/-- Written pairs follow a name. -/
theorem behind_writePairs (hpairs : ∀ p ∈ pairs, IsPair p) {gap : Text}
    (hgap : ∀ c ∈ gap, Text.isWhitespace c = true) :
    Behind (writePairs pairs ++ gap) ∧ ∀ c ∈ (writePairs pairs ++ gap).head?, isBetween c = true := by
  cases pairs with
  | nil =>
    refine ⟨⟨gap, [], (List.append_nil _).symm, hgap, nofun⟩, fun c hc => ?_⟩
    exact isBetween_of_isWhitespace (hgap c (List.mem_of_head? hc))
  | cons p pairs =>
    have hp := hpairs p List.mem_cons_self
    rw [writePairs_cons]
    refine ⟨⟨[' '], p.1 ++ (p.2 ++ writePairs pairs ++ gap), by simp, by decide, ?_⟩, ?_⟩
    · have htoken := hp.closed
      obtain ⟨d, more, hcons⟩ := List.exists_cons_of_ne_nil htoken.ne_nil
      intro c hc
      apply htoken.outside c
      rw [hcons] at hc ⊢
      obtain rfl := Option.some.inj hc
      exact List.mem_cons_self
    · rintro c ⟨⟩
      decide

/-- They are read as they are, with blanks behind them as well. -/
theorem pairs_of_writePairs (hpairs : ∀ p ∈ pairs, IsPair p) {gap : Text}
    (hgap : ∀ c ∈ gap, Text.isWhitespace c = true) :
    pairsFromParts (splitArgs (writePairs pairs ++ gap)) = pairs := by
  induction pairs with
  | nil =>
    obtain ⟨parts, hparts⟩ := @splitArgs_atToken [] nofun
    have hnone : [] = parts := (List.cons.inj (hparts [] nofun)).2
    have hself := hparts gap fun c hc => isBetween_of_isWhitespace (hgap c hc)
    rw [List.append_nil, ← hnone] at hself
    have hline : writePairs [] ++ gap = gap := rfl
    rw [hline, hself]
    rfl
  | cons p pairs ih =>
    have hp := hpairs p List.mem_cons_self
    have hrest := fun q hq => hpairs q (List.mem_cons_of_mem p hq)
    obtain ⟨⟨blank, rest, hline, hblank, htoken⟩, hopen⟩ := behind_writePairs hrest hgap
    obtain ⟨parts, hparts⟩ := splitArgs_atToken htoken
    have hblank' : ∀ c ∈ blank, isBetween c = true :=
      fun c hc => isBetween_of_isWhitespace (hblank c hc)
    have hfirst : ∀ c ∈ (p.2 ++ (writePairs pairs ++ gap)).head?, isBetween c = true := by
      intro c hc
      cases hvalue : p.2 with
      | nil =>
        rw [hvalue] at hc
        exact hopen c hc
      | cons d value =>
        rw [hvalue] at hc
        obtain rfl := Option.some.inj hc
        exact hp.between _ (by rw [hvalue]; exact List.mem_cons_self)
    have hspace : ∀ c ∈ [' '], isBetween c = true := by decide
    have hall : writePairs (p :: pairs) ++ gap =
        [' '] ++ p.1 ++ (p.2 ++ (writePairs pairs ++ gap)) := by
      rw [writePairs_cons]
      simp
    have htrim : Text.trim (p.2 ++ blank) = p.2 := by
      by_cases hnil : p.2 = []
      · rw [hnil, List.nil_append]
        by_contra hne
        obtain ⟨c, more, hcons⟩ := List.exists_cons_of_ne_nil hne
        have hsolid := Text.trim_head_solid blank c (by rw [hcons]; rfl)
        obtain ⟨a, b, hsplit, -, -⟩ := Text.exists_trim blank
        have hmem : c ∈ blank := by
          rw [hsplit, hcons]
          simp
        rw [hblank c hmem] at hsolid
        cases hsolid
      · exact trim_behind hnil hp.trim hblank
    have hih := ih hrest
    rw [hline, hparts blank hblank'] at hih
    rw [hall, splitArgs_token hspace (hp.isToken hfirst), hline, ← List.append_assoc,
      hparts _ (List.forall_mem_append.mpr ⟨hp.between, hblank'⟩)]
    change (p.1, Text.trim (p.2 ++ blank)) :: pairsFromParts (blank :: parts) = p :: pairs
    rw [htrim, hih]

theorem writePairs_last (hpairs : ∀ p ∈ pairs, IsPair p)
    (hlast : ∀ c ∈ name.getLast?, Text.isWhitespace c = false) :
    ∀ c ∈ (name ++ writePairs pairs).getLast?, Text.isWhitespace c = false := by
  induction pairs generalizing name with
  | nil => rwa [show name ++ writePairs [] = name from List.append_nil name]
  | cons p pairs ih =>
    have hp := hpairs p List.mem_cons_self
    have hsplit : name ++ writePairs (p :: pairs) =
        name ++ ' ' :: p.1 ++ p.2 ++ writePairs pairs := by
      rw [writePairs_cons]
      simp
    rw [hsplit]
    apply ih fun q hq => hpairs q (List.mem_cons_of_mem p hq)
    intro c hc
    by_cases hnil : p.2 = []
    · have htoken := hp.closed
      rw [hnil, List.append_nil] at hc
      have hkey : name ++ ' ' :: p.1 = name ++ [' '] ++ p.1 := by simp
      rw [hkey] at hc
      exact htoken.last _ c hc
    · have hvalue := Text.trim_last_solid p.2
      rw [hp.trim] at hvalue
      rw [List.getLast?_append_of_ne_nil _ hnil] at hc
      exact hvalue c hc

theorem mem_writePairs {c : Char} (hc : c ∈ writePairs pairs) :
    c = ' ' ∨ ∃ p ∈ pairs, c ∈ p.1 ∨ c ∈ p.2 := by
  obtain ⟨p, hp, hc⟩ := List.mem_flatMap.mp hc
  rcases List.mem_append.mp hc with hc | hc
  · rcases List.mem_cons.mp hc with hc | hc
    · exact .inl hc
    · exact .inr ⟨p, hp, .inl hc⟩
  · exact .inr ⟨p, hp, .inr hc⟩

theorem remark_append (h : ';' ∉ s) (t : Text) : remark (s ++ t) = remark t := by
  have hdrop : (s ++ t).dropWhile (· ≠ ';') = t.dropWhile (· ≠ ';') := by
    refine List.dropWhile_append_of_pos fun c hc => decide_eq_true ?_
    rintro rfl
    exact h hc
  rw [remark, remark, hdrop]

/-- The display of a traditional command is read as it. -/
theorem parseLine_writePairs (hname : IsName name) (htrad : isTraditionalCommand name = true)
    {behind again gap : Text} {r : Option Text}
    (hfound : Heads name behind ∨ ∃ num, Numbered num name behind)
    (hpairs : pairs = pairsFromParts (splitArgs behind))
    (hcode : cases.upper (code again) = writePairs pairs ++ gap)
    (hgap : ∀ c ∈ gap, Text.isWhitespace c = true)
    (hlast : ∀ c ∈ (name ++ again).getLast?, Text.isWhitespace c = false)
    (hremark : remark again = r) : parseLine cases (guardOf name ++ name ++ again) =
      .command ⟨name, .traditional pairs⟩ r := by
  have hall : ∀ p ∈ pairs, IsPair p ∧ p.1 ⊆ behind ∧ p.2 ⊆ behind :=
    fun p hp => isPair_of_mem (hpairs ▸ hp)
  obtain ⟨hbehind, hopen⟩ := behind_writePairs (fun p hp => (hall p hp).1) hgap
  have hN : name ≠ ['N'] := by
    rintro rfl
    exact absurd htrad (by decide)
  have hagain : Reopened behind (writePairs pairs ++ gap) := by
    refine ⟨hbehind, fun c hc => ?_, hopen⟩
    rcases List.mem_append.mp hc with hc | hc
    · rcases mem_writePairs hc with rfl | ⟨p, hp, hc | hc⟩
      · exact .inl (by decide)
      · exact .inr ((hall p hp).2.1 hc)
      · exact .inr ((hall p hp).2.2 hc)
    · exact .inl (hgap c hc)
  have hreads := readsAs_of_named hname.ne hname.trim hN hfound hagain
  have hdisplay : cases.upper (code (guardOf name ++ name ++ again)) =
      guardOf name ++ name ++ (writePairs pairs ++ gap) := by
    rw [upper_code_display hname, hcode]
  have hself : nameOf cases (guardOf name ++ name ++ again) = name := by
    rw [nameOf, hdisplay]
    exact hreads.named
  have hparse := @parseLine_of_traditional cases _ _ (trim_display hname hlast)
    (hself.symm ▸ hname.ne) (by rw [hself]; exact htrad)
  have hfree : ';' ∉ guardOf name ++ name := by
    rw [List.mem_append, not_or]
    exact ⟨semicolon_notMem_guardOf name, hname.semicolon⟩
  rw [hself, hdisplay, hreads.numbered, hreads.pairs,
    pairs_of_writePairs (fun p hp => (hall p hp).1) hgap, remark_append hfree, hremark] at hparse
  exact hparse

theorem reread_of_traditional (hascii : IsAscii line) (htrim : Text.trim text = line)
    (hlast : ∀ c ∈ line.getLast?, Text.isWhitespace c = false) (hname : IsName (nameOf cases line))
    (htrad : isTraditionalCommand (nameOf cases line) = true) {behind : Text}
    (hsub : behind ⊆ cases.upper (code line))
    (hfound : Heads (nameOf cases line) behind ∨ ∃ num, Numbered num (nameOf cases line) behind)
    (hpairs : (pairsFromParts (splitArgs (cases.upper (code line)))).drop
        (if isNumbered (splitArgs (cases.upper (code line))) then 2 else 1) =
      pairsFromParts (splitArgs behind)) : Reread cases text := by
  have hparse := parseLine_of_traditional htrim hname.ne htrad
  rw [hpairs] at hparse
  have hall : ∀ p ∈ pairsFromParts (splitArgs behind), IsPair p ∧ p.1 ⊆ behind ∧ p.2 ⊆ behind :=
    fun p hp => isPair_of_mem hp
  have hupper : IsUpper (writePairs (pairsFromParts (splitArgs behind))) := by
    have hline := (isUpper_upper cases (isAscii_code hascii)).of_subset hsub
    intro c hc
    rcases mem_writePairs hc with rfl | ⟨p, hp, hc | hc⟩
    · decide
    · exact hline c ((hall p hp).2.1 hc)
    · exact hline c ((hall p hp).2.2 hc)
  have hfree : ';' ∉ writePairs (pairsFromParts (splitArgs behind)) := by
    have hline := semicolon_notMem_upper cases (isAscii_code hascii)
      (semicolon_notMem_code line)
    intro hc
    rcases mem_writePairs hc with hc | ⟨p, hp, hc | hc⟩
    · exact absurd hc (by decide)
    · exact hline (hsub ((hall p hp).2.1 hc))
    · exact hline (hsub ((hall p hp).2.2 hc))
  have hcode (t : Text) : cases.upper (code (writePairs (pairsFromParts (splitArgs behind)) ++ t)) =
      writePairs (pairsFromParts (splitArgs behind)) ++ cases.upper (code t) := by
    rw [code_append hfree, upper_append, upper_of_isUpper hupper]
  unfold Reread
  rw [hparse]
  cases hremark : remark line with
  | none =>
    have hdisplay : (LineBody.command ⟨nameOf cases line, .traditional
        (pairsFromParts (splitArgs behind))⟩ none).display = guardOf (nameOf cases line) ++
          nameOf cases line ++ (writePairs (pairsFromParts (splitArgs behind)) ++ []) := by
      rw [List.append_nil, List.append_assoc]
      exact List.append_nil _
    rw [hdisplay]
    apply parseLine_writePairs hname htrad hfound rfl (hcode []) nofun
    · rw [List.append_nil]
      exact writePairs_last (fun p hp => (hall p hp).1) hname.last
    · rw [remark_append hfree]
      rfl
  | some comment =>
    have hsuffix : line.dropWhile (· ≠ ';') = comment ∧ comment ≠ [] := by
      unfold remark at hremark
      split at hremark
      · cases hremark
      · rename_i hne
        obtain rfl := Option.some.inj hremark
        exact ⟨rfl, hne⟩
    obtain ⟨hdrop, hne⟩ := hsuffix
    obtain ⟨c, rest, rfl⟩ := List.exists_cons_of_ne_nil hne
    have hsemicolon : c = ';' := by
      have hhead := List.head?_dropWhile_not (· ≠ ';') line
      rw [hdrop] at hhead
      simpa using hhead
    subst hsemicolon
    have hdisplay : (LineBody.command ⟨nameOf cases line, .traditional
        (pairsFromParts (splitArgs behind))⟩ (some (';' :: rest))).display =
          guardOf (nameOf cases line) ++ nameOf cases line ++
            (writePairs (pairsFromParts (splitArgs behind)) ++ ' ' :: ';' :: rest) := by
      rw [List.append_assoc, ← List.append_assoc (nameOf cases line), ← List.append_assoc]
      rfl
    have hblank : cases.upper (code (' ' :: ';' :: rest)) = [' '] := by
      have hcut : code (' ' :: ';' :: rest) = [' '] := rfl
      rw [hcut, upper_cons, upper_of_isWhitespace (by decide) (by decide)]
      rfl
    have hagain := hcode (' ' :: ';' :: rest)
    rw [hblank] at hagain
    rw [hdisplay]
    apply parseLine_writePairs hname htrad hfound rfl hagain
    · decide
    · have hcomment := getLast_suffix (hdrop ▸ List.dropWhile_suffix (· ≠ ';')) hlast
      rw [← List.append_assoc, List.getLast?_append_of_ne_nil _ (List.cons_ne_nil _ _)]
      exact hcomment
    · rw [remark_append hfree]
      rfl

end Traditional

section Fixpoint

variable {cases : CaseMapping} {text : Text}

/-- The line has no line number or a command that the number does no harm to. Else the command's
name is found at the head of the line, and only blanks stand between the two and no checksum at the
end of it; or it is found behind the line number, and if a checksum stands behind it then in front
of that stands no blank and, where the name needs a guard, no other checksum. -/
def ReadsBack (cases : CaseMapping) (text : Text) : Prop :=
  let line := Text.trim text
  let parts := splitArgs (cases.upper (code line))
  let name := nameOf cases line
  let number := parts.getD 2 []
  isNumbered parts = true → name ≠ [] → name ≠ ['N'] → isTraditionalCommand name = false →
    if name <+: cases.upper line then
      (∀ c ∈ number.drop (name.length - 1), Text.isWhitespace c = true) ∧
        ¬ ∃ before, Checksummed before line
    else
      ∀ before, Checksummed before (dropBlank (line.drop (1 + number.length + name.length))) →
        (∀ c ∈ before.getLast?, Text.isWhitespace c = false) ∧
          ¬ (needsLineNumberGuard name = true ∧ ∃ inner, Checksummed inner before)

theorem reread_iff (hascii : IsAscii text) : Reread cases text ↔ ReadsBack cases text := by
  have htrimmed : IsAscii (Text.trim text) := by
    obtain ⟨a, b, hsplit, -, -⟩ := Text.exists_trim text
    refine hascii.of_subset fun c hc => ?_
    rw [hsplit]
    exact List.mem_append_left _ (List.mem_append_right _ hc)
  have hfirst := Text.trim_head_solid text
  have hlast := Text.trim_last_solid text
  have halways (hreread : Reread cases text) (hvoid : ReadsBack cases text) :
      Reread cases text ↔ ReadsBack cases text := ⟨fun _ => hvoid, fun _ => hreread⟩
  by_cases hne : nameOf cases (Text.trim text) = []
  · exact halways (reread_of_nameless rfl hne) fun _ h => absurd hne h
  obtain ⟨hname, ⟨hfound, hheads⟩ | ⟨num, hfound, hnumbered⟩⟩ :=
    exists_foundAt htrimmed hfirst hne
  · have hcommand := hfound.command
    rw [List.nil_append] at hcommand
    obtain ⟨hnumber, -, hpairs⟩ := parts_of_heads hname.ne hname.trim hheads hfound.follows
    rw [← hcommand] at hnumber hpairs
    have hvoid : ReadsBack cases text := by
      intro h
      rw [hnumber] at h
      cases h
    by_cases htrad : isTraditionalCommand (nameOf cases (Text.trim text)) = true
    · refine halways (reread_of_traditional htrimmed rfl hlast hname htrad ?_ (.inl hheads) ?_) hvoid
      · rw [hcommand]
        exact List.subset_append_right _ _
      · rw [hnumber]
        exact hpairs
    · exact halways (reread_of_heads htrimmed rfl hlast hname (Bool.not_eq_true _ ▸ htrad) hfound
        hheads) hvoid
  · obtain ⟨hnumber, -, hnum, hpairs⟩ :=
      parts_of_numbered hname.ne hname.trim hnumbered hfound.follows
    rw [← hfound.command] at hnumber hnum hpairs
    by_cases htrad : isTraditionalCommand (nameOf cases (Text.trim text)) = true
    · refine halways (reread_of_traditional htrimmed rfl hlast hname htrad ?_
        (.inr ⟨num, hnumbered⟩) ?_) fun _ _ _ h => ?_
      · rw [hfound.command]
        exact List.subset_append_right _ _
      · rw [hnumber]
        exact hpairs
      · change isTraditionalCommand (nameOf cases (Text.trim text)) = false at h
        rw [htrad] at h
        cases h
    · have htrad' := Bool.not_eq_true _ ▸ htrad
      by_cases hN : nameOf cases (Text.trim text) = ['N']
      · refine halways ?_ fun _ _ h => absurd hN h
        have hupper := hfound.upper
        have hcommand := hfound.command
        have hbehind := hfound.follows
        rw [hN] at hupper hcommand hnumbered
        exact reread_of_lone htrimmed rfl hlast hN hupper hcommand hnumbered hbehind
      · unfold ReadsBack
        dsimp only
        rw [hnum]
        by_cases hhead : nameOf cases (Text.trim text) <+: cases.upper (Text.trim text)
        · rw [if_pos hhead, reread_iff_of_repeated htrimmed rfl hlast rfl hname hN htrad'
            hfound.upper hfound.command hnumbered hhead]
          exact ⟨fun h _ _ _ _ => h, fun h => h hnumber hname.ne hN htrad'⟩
        · have htail : tailOf cases (Text.trim text) ('N' :: num) = (Text.trim text).drop
              (1 + num.length + (nameOf cases (Text.trim text)).length) := by
            rw [tailOf, List.length_cons, Nat.add_comm num.length 1]
          rw [if_neg hhead, reread_iff_of_number htrimmed rfl hlast hname hN htrad' hfound hnumbered
            hhead, htail]
          exact ⟨fun h _ _ _ _ => h, fun h => h hnumber hname.ne hN htrad'⟩

/-- Parsing the display of a parsed line gives its body again, and the same display, exactly for
these lines. -/
theorem display_fixpoint_iff (hascii : IsAscii text) :
    (parseLine cases (parseLine cases text).display = parseLine cases text ∧
      (parseLine cases (parseLine cases text).display).display = (parseLine cases text).display) ↔
        ReadsBack cases text := by
  rw [← reread_iff hascii]
  constructor
  · exact fun h => h.1
  · intro h
    exact ⟨h, congrArg LineBody.display h⟩

theorem display_fixpoint_plain : (parseLine asciiCase (parseLine asciiCase (lit "g1 x5")).display =
      parseLine asciiCase (lit "g1 x5") ∧
    (parseLine asciiCase (parseLine asciiCase (lit "g1 x5")).display).display =
      (parseLine asciiCase (lit "g1 x5")).display) ↔ ReadsBack asciiCase (lit "g1 x5") :=
  display_fixpoint_iff (by unfold IsAscii; decide)

/-- The blank in front of the checksum is one of the parameters, until it is the end of a line. -/
theorem blank_before_checksum_is_lost :
    parseLine asciiCase (lit "N1 FOO A=1 *71") = .command ⟨lit "FOO", .extended (lit "A=1 ")
        (some [(lit "A", lit "1")])⟩ none ∧
      (parseLine asciiCase (lit "N1 FOO A=1 *71")).display = lit "FOO A=1 " ∧
      parseLine asciiCase (lit "FOO A=1 ") = .command ⟨lit "FOO", .extended (lit "A=1")
        (some [(lit "A", lit "1")])⟩ none ∧
      ¬ ∀ text : Text, (∀ c ∈ text, c.toNat < 128) → '\n' ∉ text →
        parseLine asciiCase (parseLine asciiCase text).display = parseLine asciiCase text := by
  have hfirst : parseLine asciiCase (lit "N1 FOO A=1 *71") = .command ⟨lit "FOO",
      .extended (lit "A=1 ") (some [(lit "A", lit "1")])⟩ none := by decide +kernel
  have hagain : parseLine asciiCase (lit "FOO A=1 ") = .command ⟨lit "FOO",
      .extended (lit "A=1") (some [(lit "A", lit "1")])⟩ none := by decide +kernel
  have hdisplay : (parseLine asciiCase (lit "N1 FOO A=1 *71")).display = lit "FOO A=1 " := by
    rw [hfirst]
    decide
  refine ⟨hfirst, hdisplay, hagain, fun h => ?_⟩
  have hself := h (lit "N1 FOO A=1 *71") (by decide) (by decide)
  rw [hdisplay, hagain, hfirst] at hself
  exact absurd hself (by decide)

end Fixpoint

end DeadReckoning.Gcode
