import DeadReckoning.Gcode.CommandWord
import DeadReckoning.Lib.Lines

/-! The guard over the text of a user's macro: the lines with a lethal command become comments. -/
namespace DeadReckoning.Recovery

open Gcode (CaseMapping parseLine AtHead)

/-- The commands that must never run during a recovery. -/
def guardedCommands : List Text := [lit "G28", lit "Z_TILT_ADJUST", lit "QUAD_GANTRY_LEVEL"]

/-- One occurrence of a guarded command. -/
structure GuardHit where
  command : Text
  lineIndex : ℕ
  lineText : Text
  inComment : Bool
  deriving DecidableEq

inductive GuardOutcome where
  | clean (text : Text)
  | stripped (text : Text) (removed : List GuardHit)
  deriving DecidableEq

def GuardOutcome.text : GuardOutcome → Text
  | .clean text => text
  | .stripped text _ => text

section Lines

/-- The pieces of a text that a line feed ends. -/
def terminated (s : Text) : List Text := (s.splitOn '\n').dropLast

/-- What follows the last line feed. -/
def unterminated (s : Text) : Text := (s.splitOn '\n').getLast (List.splitOn_ne_nil _ _)

/-- A carriage return before the line feed is part of the line's end. -/
def stripCr (line : Text) : Text := if line.getLast? = some '\r' then line.dropLast else line

/-- `str::lines`. -/
def lines (s : Text) : List Text :=
  (terminated s).map stripCr ++ if unterminated s = [] then [] else [unterminated s]

end Lines

section Scan

/-- The part of a line that can run: nothing of a comment line, otherwise what stands before the
first semicolon. -/
def executablePart (line : Text) : Option Text :=
  if (line.dropWhile Text.isWhitespace).head? = some '#' then none
  else some (line.takeWhile (· ≠ ';'))

/-- A character that continues a command word. -/
def isWordChar (c : Char) : Bool := c.isAlphanum || c == '_'

/-- The search for a word behind `before`; `skip` characters of the last occurrence are still to
be passed. -/
def containsWordFrom (token : Text) : Option Char → ℕ → Text → Bool
  | _, _, [] => false
  | _, skip + 1, c :: cs => containsWordFrom token (some c) skip cs
  | before, 0, c :: cs =>
      if token.isPrefixOf (c :: cs) then
        if !before.any isWordChar && !((c :: cs).drop token.length).head?.any isWordChar then true
        else containsWordFrom token (some c) (token.length - 1) cs
      else containsWordFrom token (some c) 0 cs

/-- Whether the word occurs in the text, in any case, with no word character beside it. -/
def containsWord (text token : Text) : Bool := containsWordFrom token none 0 (Text.upper text)

/-- The line runs a guarded command. -/
def runsGuarded (line token : Text) : Bool := (executablePart line).any (containsWord · token)

def hitsOfLine (index : ℕ) (line : Text) : List GuardHit :=
  guardedCommands.filterMap fun token =>
    if runsGuarded line token then some ⟨token, index, line, false⟩
    else if containsWord line token then some ⟨token, index, line, true⟩
    else none

def scanMacroText (text : Text) : List GuardHit :=
  (lines text).zipIdx.flatMap fun line => hitsOfLine line.2 line.1

def isClean (hits : List GuardHit) : Bool := hits.all (·.inComment)

/-- What replaces a line with a guarded command. -/
def strippedLine (line : Text) : Text :=
  lit "; [plr-recovery] stripped guarded command: " ++ Text.trim line

def sanitizeMacroText (text : Text) : GuardOutcome :=
  let hits := scanMacroText text
  if isClean hits then .clean text
  else
    let removed := hits.filter (!·.inComment)
    let out := (lines text).zipIdx.map fun line =>
      if removed.any (·.lineIndex = line.2) then strippedLine line.1 else line.1
    .stripped (List.intercalate ['\n'] out ++
      if text.getLast? = some '\n' then ['\n'] else []) removed

end Scan

section Joining

theorem splitOn_eq (s : Text) : s.splitOn '\n' = terminated s ++ [unterminated s] :=
  (List.dropLast_append_getLast _).symm

theorem intercalate_concat (ls : List Text) (last : Text) :
    List.intercalate ['\n'] (ls ++ [last]) = ls.flatMap (· ++ ['\n']) ++ last := by
  induction ls with
  | nil => simp
  | cons l ls ih =>
    have hne : ls ++ [last] ≠ [] := by simp
    obtain ⟨m, ms, hms⟩ := List.exists_cons_of_ne_nil hne
    rw [List.cons_append, hms, List.intercalate_cons_cons, ← hms, ih, List.flatMap_cons]
    simp

theorem eq_flatMap_terminated (s : Text) :
    s = (terminated s).flatMap (· ++ ['\n']) ++ unterminated s := by
  rw [← intercalate_concat, ← splitOn_eq, List.intercalate_splitOn]

theorem noNewline_of_mem_splitOn {s piece : Text} (h : piece ∈ s.splitOn '\n') : '\n' ∉ piece := by
  intro hmem
  rw [List.splitOn_eq_splitOnP] at h
  have hboth := Lines.exists_mem_splitOnP.mp ⟨piece, h, hmem⟩
  simp at hboth

theorem noNewline_terminated {s line : Text} (h : line ∈ terminated s) : '\n' ∉ line :=
  noNewline_of_mem_splitOn (List.mem_of_mem_dropLast h)

theorem noNewline_unterminated (s : Text) : '\n' ∉ unterminated s :=
  noNewline_of_mem_splitOn (List.getLast_mem _)

/-- A text ends with a line feed when its last line is ended and there is one. -/
theorem getLast?_eq_newline (s : Text) :
    s.getLast? = some '\n' ↔ unterminated s = [] ∧ terminated s ≠ [] := by
  have hs := eq_flatMap_terminated s
  constructor
  · intro hlast
    have hnone : unterminated s = [] := by
      by_contra hne
      rw [hs, List.getLast?_append_of_ne_nil _ hne] at hlast
      exact noNewline_unterminated s (List.mem_of_getLast? hlast)
    refine ⟨hnone, fun hterm => ?_⟩
    rw [hs, hnone, hterm] at hlast
    cases hlast
  · rintro ⟨hnone, hterm⟩
    rw [hs, hnone, List.append_nil, ← List.dropLast_append_getLast hterm, List.flatMap_append]
    simp

/-- The lines of a text that is put together from lines. -/
theorem pieces_join {ls : List Text} {last : Text} (hls : ∀ l ∈ ls, '\n' ∉ l) (hlast : '\n' ∉ last) :
    terminated (List.intercalate ['\n'] (ls ++ [last])) = ls ∧
      unterminated (List.intercalate ['\n'] (ls ++ [last])) = last := by
  have hsplit := splitOn_eq (List.intercalate ['\n'] (ls ++ [last]))
  have hall : ∀ l ∈ ls ++ [last], '\n' ∉ l := by
    intro l hl
    rcases List.mem_append.mp hl with hl | hl
    · exact hls l hl
    · exact List.mem_singleton.mp hl ▸ hlast
  rw [List.splitOn_intercalate _ hall (by simp)] at hsplit
  obtain ⟨hterm, hunterm⟩ := List.append_inj' hsplit rfl
  exact ⟨hterm.symm, (List.cons.inj hunterm).1.symm⟩

theorem mem_stripCr {line : Text} {c : Char} (h : c ∈ stripCr line) : c ∈ line := by
  rw [stripCr] at h
  split at h
  · exact List.mem_of_mem_dropLast h
  · exact h

end Joining

section Rewriting

/-- The line runs one of the guarded commands. -/
def isGuarded (line : Text) : Bool := guardedCommands.any (runsGuarded line)

def sanitizeLine (line : Text) : Text := if isGuarded line then strippedLine line else line

theorem exists_hit_iff {index : ℕ} {line : Text} :
    (∃ hit ∈ hitsOfLine index line, hit.inComment = false) ↔ isGuarded line = true := by
  simp only [hitsOfLine, isGuarded, List.mem_filterMap, List.any_eq_true]
  constructor
  · rintro ⟨hit, ⟨token, htoken, hhit⟩, hlive⟩
    refine ⟨token, htoken, ?_⟩
    by_contra hno
    rw [if_neg hno] at hhit
    split at hhit
    · obtain rfl := Option.some.inj hhit
      cases hlive
    · cases hhit
  · rintro ⟨token, htoken, hruns⟩
    exact ⟨_, ⟨token, htoken, by rw [if_pos hruns]⟩, rfl⟩

theorem lineIndex_of_mem {index : ℕ} {line : Text} {hit : GuardHit}
    (h : hit ∈ hitsOfLine index line) : hit.lineIndex = index := by
  simp only [hitsOfLine, List.mem_filterMap] at h
  obtain ⟨token, -, hhit⟩ := h
  split at hhit
  · obtain rfl := Option.some.inj hhit
    rfl
  · split at hhit
    · obtain rfl := Option.some.inj hhit
      rfl
    · cases hhit

theorem isClean_iff (text : Text) :
    isClean (scanMacroText text) = true ↔ ∀ line ∈ lines text, isGuarded line = false := by
  simp only [isClean, scanMacroText, List.all_eq_true, List.mem_flatMap]
  constructor
  · intro hall line hline
    by_contra hguarded
    obtain ⟨index, hindex⟩ := List.mem_iff_getElem?.mp hline
    obtain ⟨hit, hhit, hlive⟩ := (@exists_hit_iff index line).mpr (Bool.not_eq_false _ ▸ hguarded)
    have hmem : (line, index) ∈ (lines text).zipIdx := List.mem_zipIdx_iff_getElem?.mpr hindex
    rw [hall hit ⟨_, hmem, hhit⟩] at hlive
    cases hlive
  · rintro hall hit ⟨⟨line, index⟩, hmem, hhit⟩
    by_contra hlive
    have hline := hall line (List.mem_of_getElem? (List.mem_zipIdx_iff_getElem?.mp hmem))
    rw [exists_hit_iff.mp ⟨hit, hhit, Bool.not_eq_true _ ▸ hlive⟩] at hline
    cases hline

/-- A line is replaced exactly when it runs a guarded command. -/
theorem removed_iff {text line : Text} {index : ℕ} (h : (lines text)[index]? = some line) :
    ((scanMacroText text).filter (!·.inComment)).any (·.lineIndex = index) = isGuarded line := by
  rw [Bool.eq_iff_iff, ← @exists_hit_iff index line]
  simp only [scanMacroText, List.any_eq_true, List.mem_filter, List.mem_flatMap,
    Bool.not_eq_true', decide_eq_true_eq]
  constructor
  · rintro ⟨hit, ⟨⟨⟨other, place⟩, hmem, hhit⟩, hlive⟩, hindex⟩
    obtain rfl : place = index := (lineIndex_of_mem hhit).symm.trans hindex
    rw [List.mem_zipIdx_iff_getElem?] at hmem
    obtain rfl : other = line := Option.some.inj (hmem.symm.trans h)
    exact ⟨hit, hhit, hlive⟩
  · rintro ⟨hit, hhit, hlive⟩
    exact ⟨hit, ⟨⟨(line, index), List.mem_zipIdx_iff_getElem?.mpr h, hhit⟩, hlive⟩,
      lineIndex_of_mem hhit⟩

theorem map_removed (text : Text) :
    ((lines text).zipIdx.map fun line =>
      if ((scanMacroText text).filter (!·.inComment)).any (·.lineIndex = line.2)
      then strippedLine line.1 else line.1) = (lines text).map sanitizeLine := by
  have hcongr : ∀ line ∈ (lines text).zipIdx,
      (if ((scanMacroText text).filter (!·.inComment)).any (·.lineIndex = line.2)
        then strippedLine line.1 else line.1) = sanitizeLine line.1 := by
    intro line hline
    rw [removed_iff (List.mem_zipIdx_iff_getElem?.mp hline), sanitizeLine]
  rw [List.map_congr_left hcongr]
  show (lines text).zipIdx.map (sanitizeLine ∘ Prod.fst) = _
  rw [← List.map_map, List.zipIdx_map_fst]

end Rewriting

section Carriage

theorem head?_any_drop_concat {c : Char} (hword : isWordChar c = false) (s : Text) (n : ℕ) :
    ((s ++ [c]).drop n).head?.any isWordChar = (s.drop n).head?.any isWordChar := by
  by_cases hn : n ≤ s.length
  · rw [List.drop_append_of_le_length hn]
    cases s.drop n with
    | nil => simp [hword]
    | cons d rest => rfl
  · rw [List.drop_eq_nil_of_le (by simp; omega), List.drop_eq_nil_of_le (by omega)]

theorem containsWordFrom_concat {token : Text} {c : Char} (hword : isWordChar c = false)
    (htoken : c ∉ token) (hne : token ≠ []) (before : Option Char) (skip : ℕ) (s : Text) :
    containsWordFrom token before skip (s ++ [c]) = containsWordFrom token before skip s := by
  have hbegins (t : Text) : token.isPrefixOf (t ++ [c]) = token.isPrefixOf t := by
    rw [Bool.eq_iff_iff, List.isPrefixOf_iff_prefix, List.isPrefixOf_iff_prefix]
    constructor
    · intro h
      rcases List.prefix_concat_iff.mp h with rfl | h
      · exact absurd (by simp) htoken
      · exact h
    · exact fun h => h.trans (List.prefix_append _ _)
  induction s generalizing before skip with
  | nil =>
    cases skip with
    | succ skip => rfl
    | zero =>
      have hnone : token.isPrefixOf [c] = false := by
        have h := hbegins []
        rw [List.nil_append] at h
        rw [h]
        obtain ⟨d, token, rfl⟩ := List.exists_cons_of_ne_nil hne
        rfl
      show containsWordFrom token before 0 [c] = false
      simp [containsWordFrom, hnone]
  | cons d s ih =>
    cases skip with
    | succ skip => exact ih _ _
    | zero =>
      have hafter : ((d :: (s ++ [c])).drop token.length).head?.any isWordChar =
          ((d :: s).drop token.length).head?.any isWordChar :=
        head?_any_drop_concat hword (d :: s) token.length
      have hp := hbegins (d :: s)
      rw [List.cons_append] at hp ⊢
      rw [containsWordFrom, containsWordFrom, hp, hafter, ih, ih]

/-- A word in the beginning of a text is a word of the text, when no word character follows. -/
theorem containsWordFrom_append {token : Text} {c : Char} (hword : isWordChar c = false)
    (htoken : c ∉ token) {before : Option Char} {skip : ℕ} {s : Text} (rest : Text)
    (h : containsWordFrom token before skip s = true) :
    containsWordFrom token before skip (s ++ c :: rest) = true := by
  induction s generalizing before skip with
  | nil => simp [containsWordFrom] at h
  | cons d s ih =>
    cases skip with
    | succ skip => exact ih h
    | zero =>
      have hbegins : token.isPrefixOf (d :: s ++ c :: rest) = token.isPrefixOf (d :: s) := by
        rw [Bool.eq_iff_iff, List.isPrefixOf_iff_prefix, List.isPrefixOf_iff_prefix]
        constructor
        · intro hp
          rcases List.prefix_or_prefix_of_prefix hp (List.prefix_append _ _) with hp' | ⟨t, rfl⟩
          · exact hp'
          · cases t with
            | nil => simp
            | cons e t =>
              rw [List.prefix_append_right_inj, List.cons_prefix_cons] at hp
              exact absurd (by simp [hp.1]) htoken
        · exact fun hp => hp.trans (List.prefix_append _ _)
      have hafter : token.isPrefixOf (d :: s) = true →
          ((d :: s ++ c :: rest).drop token.length).head?.any isWordChar =
            ((d :: s).drop token.length).head?.any isWordChar := by
        intro hp
        have hlength := (List.isPrefixOf_iff_prefix.mp hp).length_le
        rw [List.drop_append_of_le_length hlength]
        cases (d :: s).drop token.length with
        | nil => simp [hword]
        | cons e rest => rfl
      rw [List.cons_append] at hbegins hafter ⊢
      rw [containsWordFrom] at h ⊢
      rw [hbegins]
      split
      · rename_i hp
        rw [if_pos hp] at h
        rw [hafter hp]
        split
        · rfl
        · rename_i hboundary
          rw [if_neg hboundary] at h
          exact ih h
      · rename_i hp
        rw [if_neg hp] at h
        exact ih h

theorem exists_stripCr (line : Text) : stripCr line = line ∨ line = stripCr line ++ ['\r'] := by
  rw [stripCr]
  split
  · rename_i hlast
    have hne : line ≠ [] := by
      rintro rfl
      cases hlast
    have hsplit := List.dropLast_append_getLast hne
    rw [List.getLast?_eq_some_getLast hne, Option.some.injEq] at hlast
    rw [hlast] at hsplit
    exact .inr hsplit.symm
  · exact .inl rfl

theorem containsWord_concat {token : Text} (htoken : token ∈ guardedCommands) (s : Text) :
    containsWord (s ++ ['\r']) token = containsWord s token := by
  have hchars : '\r' ∉ token ∧ token ≠ [] := by
    revert token
    decide
  have hupper : Text.upper (s ++ ['\r']) = Text.upper s ++ ['\r'] := by simp [Text.upper]
  rw [containsWord, containsWord, hupper, containsWordFrom_concat (by decide) hchars.1 hchars.2]

/-- The carriage return at the end of a line changes nothing about the words in it. -/
theorem containsWord_stripCr {token : Text} (htoken : token ∈ guardedCommands) (line : Text) :
    containsWord (stripCr line) token = containsWord line token := by
  rcases exists_stripCr line with h | h
  · rw [h]
  · rw [← containsWord_concat htoken (stripCr line), ← h]

theorem executablePart_concat (s : Text) : executablePart (s ++ ['\r']) = executablePart s ∨
    ∃ part, executablePart s = some part ∧ executablePart (s ++ ['\r']) = some (part ++ ['\r']) := by
  have hhead : ((s ++ ['\r']).dropWhile Text.isWhitespace).head? = some '#' ↔
      (s.dropWhile Text.isWhitespace).head? = some '#' := by
    rw [List.dropWhile_append]
    cases hrest : s.dropWhile Text.isWhitespace with
    | nil => simp [Text.isWhitespace]
    | cons c rest => simp
  by_cases hcomment : (s.dropWhile Text.isWhitespace).head? = some '#'
  · left
    rw [executablePart, executablePart, if_pos (hhead.mpr hcomment), if_pos hcomment]
  · rw [executablePart, executablePart, if_neg (fun h => hcomment (hhead.mp h)), if_neg hcomment]
    by_cases hall : ∀ c ∈ s, decide (c ≠ ';') = true
    · right
      refine ⟨s, by rw [List.takeWhile_eq_self_iff.mpr hall], ?_⟩
      rw [List.takeWhile_append_of_pos hall]
      rfl
    · left
      rw [List.takeWhile_append]
      rw [if_neg]
      intro hlength
      exact hall (List.takeWhile_eq_self_iff.mp
        ((List.takeWhile_prefix _).eq_of_length hlength))

theorem noSemicolon_guarded : ∀ token ∈ guardedCommands, ';' ∉ token := by decide

/-- What a line runs stands in it as a word. -/
theorem exists_containsWord {line : Text} (h : isGuarded line = true) :
    ∃ token ∈ guardedCommands, containsWord line token = true := by
  obtain ⟨token, htoken, hruns⟩ := List.any_eq_true.mp h
  refine ⟨token, htoken, ?_⟩
  rw [runsGuarded, executablePart] at hruns
  split at hruns
  · cases hruns
  · rw [Option.any_some] at hruns
    have hline : line = line.takeWhile (· ≠ ';') ++ line.dropWhile (· ≠ ';') :=
      List.takeWhile_append_dropWhile.symm
    cases hrest : line.dropWhile (· ≠ ';') with
    | nil =>
      rw [hrest, List.append_nil] at hline
      rwa [← hline] at hruns
    | cons c rest =>
      have hc : c = ';' := by
        have hhead := List.head?_dropWhile_not (fun c => decide (c ≠ ';')) line
        rw [hrest] at hhead
        simpa using hhead
      have hsemicolon := noSemicolon_guarded token htoken
      rw [hrest, hc] at hline
      rw [hline, containsWord, Text.upper, List.map_append]
      exact containsWordFrom_append (by decide) hsemicolon _ hruns

theorem isGuarded_stripCr (line : Text) : isGuarded (stripCr line) = isGuarded line := by
  rcases exists_stripCr line with h | h
  · rw [h]
  · have hruns : ∀ token ∈ guardedCommands, runsGuarded (stripCr line ++ ['\r']) token =
        runsGuarded (stripCr line) token := by
      intro token htoken
      rcases executablePart_concat (stripCr line) with heq | ⟨part, hpart, hconcat⟩
      · rw [runsGuarded, runsGuarded, heq]
      · rw [runsGuarded, runsGuarded, hpart, hconcat, Option.any_some, Option.any_some,
          containsWord_concat htoken]
    rw [← h] at hruns
    rw [Bool.eq_iff_iff, isGuarded, isGuarded, List.any_eq_true, List.any_eq_true]
    constructor
    · rintro ⟨token, htoken, hrun⟩
      exact ⟨token, htoken, (hruns token htoken).trans hrun⟩
    · rintro ⟨token, htoken, hrun⟩
      exact ⟨token, htoken, (hruns token htoken).symm.trans hrun⟩

theorem trim_stripCr (line : Text) : Text.trim (stripCr line) = Text.trim line := by
  rcases exists_stripCr line with h | h
  · rw [h]
  · generalize stripCr line = s at h
    subst h
    rw [Text.trim, Text.trim, List.dropWhile_append]
    split
    · rename_i hnone
      have hrest : s.dropWhile Text.isWhitespace = [] := by simpa using hnone
      rw [hrest]
      decide
    · rw [List.rdropWhile_concat_pos _ _ _ (by decide)]

theorem parseLine_stripCr {cases : CaseMapping} (line : Text) :
    parseLine cases (stripCr line) = parseLine cases line := by
  simp only [parseLine, trim_stripCr]

end Carriage

section Sanitized

theorem mem_trim {s : Text} {c : Char} (h : c ∈ Text.trim s) : c ∈ s := by
  obtain ⟨a, b, hs, -, -⟩ := Text.exists_trim s
  rw [hs]
  simp [h]

theorem noNewline_sanitizeLine {line : Text} (h : '\n' ∉ line) : '\n' ∉ sanitizeLine line := by
  rw [sanitizeLine]
  split
  · have hbanner : '\n' ∉ lit "; [plr-recovery] stripped guarded command: " := by decide
    intro hmem
    rcases List.mem_append.mp hmem with hmem | hmem
    · exact hbanner hmem
    · exact h (mem_trim hmem)
  · exact h

theorem sanitizeLine_ne_nil {line : Text} (h : line ≠ []) : sanitizeLine line ≠ [] := by
  rw [sanitizeLine]
  split
  · simp [strippedLine, lit]
  · exact h

/-- A comment runs nothing. -/
theorem isGuarded_strippedLine (line : Text) : isGuarded (strippedLine line) = false := by
  have hpart : executablePart (strippedLine line) = some [] := by
    simp [executablePart, strippedLine, lit, Text.isWhitespace]
  rw [isGuarded, List.any_eq_false]
  intro token htoken
  rw [runsGuarded, hpart]
  exact Bool.false_ne_true

theorem isGuarded_sanitizeLine (line : Text) : isGuarded (sanitizeLine line) = false := by
  rw [sanitizeLine]
  split
  · exact isGuarded_strippedLine line
  · rename_i h
    exact Bool.not_eq_true _ ▸ h

/-- What is left of a text with guarded commands. -/
theorem sanitizeMacroText_stripped {text : Text} (h : isClean (scanMacroText text) = false) :
    (sanitizeMacroText text).text = List.intercalate ['\n']
      ((terminated text).map (fun line => sanitizeLine (stripCr line)) ++
        [if unterminated text = [] then [] else sanitizeLine (unterminated text)]) := by
  rw [sanitizeMacroText]
  simp only [h, map_removed]
  show List.intercalate ['\n'] ((lines text).map sanitizeLine) ++ _ = _
  by_cases hnone : unterminated text = []
  · by_cases hterm : terminated text = []
    · rw [Bool.eq_false_iff] at h
      exact absurd ((isClean_iff text).mpr (by simp [lines, hterm, hnone])) h
    · rw [if_pos ((getLast?_eq_newline text).mpr ⟨hnone, hterm⟩), if_pos hnone, lines, if_pos hnone,
        List.append_nil, List.map_map, intercalate_concat, List.append_nil]
      have hne : (terminated text).map (sanitizeLine ∘ stripCr) ≠ [] := by simpa using hterm
      show List.intercalate ['\n'] ((terminated text).map (sanitizeLine ∘ stripCr)) ++ ['\n'] =
        ((terminated text).map (sanitizeLine ∘ stripCr)).flatMap (· ++ ['\n'])
      rw [← List.dropLast_append_getLast hne, intercalate_concat, List.flatMap_append]
      simp
  · have hlast : text.getLast? ≠ some '\n' := fun hl => hnone ((getLast?_eq_newline text).mp hl).1
    rw [if_neg hlast, if_neg hnone, lines, if_neg hnone, List.append_nil, List.map_append,
      List.map_map]
    rfl

/-- The lines of what is left: each line sanitized, and a further carriage return at its end read
as part of the line's end. -/
theorem lines_sanitizeMacroText {text : Text} (h : isClean (scanMacroText text) = false) :
    lines (sanitizeMacroText text).text =
      (terminated text).map (fun line => stripCr (sanitizeLine (stripCr line))) ++
        if unterminated text = [] then [] else [sanitizeLine (unterminated text)] := by
  obtain ⟨hterm, hunterm⟩ := @pieces_join
    ((terminated text).map (fun line => sanitizeLine (stripCr line)))
    (if unterminated text = [] then [] else sanitizeLine (unterminated text))
    (by
      intro l hl
      obtain ⟨line, hline, rfl⟩ := List.mem_map.mp hl
      exact noNewline_sanitizeLine fun hmem => noNewline_terminated hline (mem_stripCr hmem))
    (by
      split
      · exact List.not_mem_nil
      · exact noNewline_sanitizeLine (noNewline_unterminated text))
  rw [lines, sanitizeMacroText_stripped h, hterm, hunterm, List.map_map]
  by_cases hnone : unterminated text = []
  · rw [if_pos hnone, if_pos rfl, if_pos hnone]
    rfl
  · rw [if_neg hnone, if_neg (sanitizeLine_ne_nil hnone), if_neg hnone]
    rfl

theorem sanitizeMacroText_clean {text : Text} (h : isClean (scanMacroText text) = true) :
    sanitizeMacroText text = .clean text := by
  rw [sanitizeMacroText]
  exact if_pos h

/-- Nothing is left that a second pass would strip. -/
theorem sanitizeMacroText_twice (text : Text) :
    sanitizeMacroText (sanitizeMacroText text).text = .clean (sanitizeMacroText text).text := by
  apply sanitizeMacroText_clean
  cases h : isClean (scanMacroText text) with
  | true => rw [sanitizeMacroText_clean h]; exact h
  | false =>
    rw [isClean_iff, lines_sanitizeMacroText h]
    intro line hline
    rcases List.mem_append.mp hline with hline | hline
    · obtain ⟨l, -, rfl⟩ := List.mem_map.mp hline
      rw [isGuarded_stripCr, isGuarded_sanitizeLine]
    · split at hline
      · cases hline
      · obtain rfl := List.mem_singleton.mp hline
        exact isGuarded_sanitizeLine _

theorem length_lines_sanitizeMacroText (text : Text) :
    (lines (sanitizeMacroText text).text).length = (lines text).length := by
  cases h : isClean (scanMacroText text) with
  | true => rw [sanitizeMacroText_clean h]; rfl
  | false =>
    rw [lines_sanitizeMacroText h, lines]
    split <;> simp

end Sanitized

section Agreement

variable {cases : CaseMapping}

/-- The word and the number of each guarded command. -/
def guardedParts : List (Text × Text) :=
  [(lit "G", lit "28"), (lit "Z_TILT_ADJUST", []), (lit "QUAD_GANTRY_LEVEL", [])]

theorem isCommandWord_guarded : ∀ p ∈ guardedParts, Gcode.IsCommandWord p.1 p.2 := by
  intro p hp
  have hall : p.1 ≠ [] ∧ (∀ c ∈ p.1, Gcode.isRun c = true) ∧ p.1 ≠ ['N'] ∧
      (∀ c ∈ p.2, Gcode.isBetween c = true) ∧ ∀ c ∈ p.2, Text.isWhitespace c = false := by
    revert p
    decide
  exact ⟨hall.1, hall.2.1, hall.2.2.1, hall.2.2.2.1, hall.2.2.2.2⟩

theorem guardedCommands_eq : guardedCommands = guardedParts.map fun p => p.1 ++ p.2 := by decide

/-- The code of a line, in upper case. -/
def upperCode (cases : CaseMapping) (line : Text) : Text :=
  cases.upper ((Text.trim line).takeWhile (· ≠ ';'))

/-- The firmware reads the line as a guarded command. -/
def ReadsGuarded (cases : CaseMapping) (line : Text) : Prop :=
  ∃ c, (parseLine cases line).command? = some c ∧ c.name ∈ guardedCommands

theorem exists_command {line : Text}
    (h : Gcode.commandName (Gcode.splitArgs (upperCode cases line)) ≠ []) :
    ∃ c, (parseLine cases line).command? = some c ∧
      c.name = Gcode.commandName (Gcode.splitArgs (upperCode cases line)) := by
  have hstripped : Text.trim line ≠ [] := by
    intro hnone
    rw [upperCode, hnone] at h
    exact h rfl
  unfold upperCode at h ⊢
  unfold parseLine
  simp only [hstripped, h, if_false, false_and]
  split
  · exact ⟨_, rfl, rfl⟩
  · exact ⟨_, rfl, rfl⟩

theorem readsGuarded_iff {line : Text} :
    ReadsGuarded cases line ↔ ∃ p ∈ guardedParts, AtHead p.1 p.2 (upperCode cases line) := by
  have hparts (p : Text × Text) (hp : p ∈ guardedParts) :=
    @Gcode.commandName_iff_atHead p.1 p.2 (upperCode cases line) (isCommandWord_guarded p hp)
  constructor
  · rintro ⟨c, hc, hname⟩
    rw [guardedCommands_eq, List.mem_map] at hname
    obtain ⟨p, hp, hname⟩ := hname
    refine ⟨p, hp, (hparts p hp).mp ?_⟩
    rw [hname]
    obtain ⟨comment, hparse⟩ : ∃ comment, parseLine cases line = .command c comment := by
      cases hbody : parseLine cases line with
      | blank => rw [hbody] at hc; cases hc
      | comment t => rw [hbody] at hc; cases hc
      | command d comment =>
        rw [hbody] at hc
        obtain rfl := Option.some.inj hc
        exact ⟨comment, rfl⟩
    exact Gcode.commandName_of_parseLine hparse
  · rintro ⟨p, hp, hhead⟩
    have hname := (hparts p hp).mpr hhead
    have hne : p.1 ++ p.2 ≠ [] := by simp [(isCommandWord_guarded p hp).nonempty]
    obtain ⟨c, hc, hcname⟩ := @exists_command cases line (hname ▸ hne)
    refine ⟨c, hc, ?_⟩
    rw [hcname, hname, guardedCommands_eq]
    exact List.mem_map_of_mem hp

theorem not_readsGuarded_strippedLine (line : Text) : ¬ ReadsGuarded cases (strippedLine line) := by
  rw [readsGuarded_iff]
  rintro ⟨p, hp, before, blank, after, hline, -⟩
  have htrim : ∃ rest, Text.trim (strippedLine line) = ';' :: rest := by
    obtain ⟨rest, hrest⟩ : ∃ rest, strippedLine line = ';' :: rest := ⟨_, rfl⟩
    refine ⟨rest.rdropWhile Text.isWhitespace, ?_⟩
    rw [hrest, Text.trim, List.dropWhile_cons_of_neg (by decide)]
    exact @Decimal.rdropWhile_append_cons Text.isWhitespace [] rest ';' (by decide)
  obtain ⟨rest, hrest⟩ := htrim
  rw [upperCode, hrest, List.takeWhile_cons_of_neg (by decide)] at hline
  obtain ⟨c, word, hword⟩ := List.exists_cons_of_ne_nil (isCommandWord_guarded p hp).nonempty
  rw [hword] at hline
  simp [CaseMapping.upper] at hline

theorem readsGuarded_stripCr (line : Text) :
    ReadsGuarded cases (stripCr line) ↔ ReadsGuarded cases line := by
  rw [ReadsGuarded, ReadsGuarded, parseLine_stripCr]

/-- What the guard promises about a macro's text. -/
structure GuardAgrees (cases : CaseMapping) (text : Text) : Prop where
  harmless : ∀ line ∈ lines (sanitizeMacroText text).text, ¬ ReadsGuarded cases line
  count : (lines (sanitizeMacroText text).text).length = (lines text).length
  unchanged : ∀ (i : ℕ) (line : Text), (lines text)[i]? = some line →
    (∀ token ∈ guardedCommands, containsWord line token = false) →
    (lines (sanitizeMacroText text).text)[i]? = some line
  idempotent : (sanitizeMacroText (sanitizeMacroText text).text).text = (sanitizeMacroText text).text

/-- When it keeps the promise: a guarded command at the head of a line stands there as a word of
its own, and no kept line of a text that is rewritten ends in two carriage returns. -/
structure GuardSees (cases : CaseMapping) (text : Text) : Prop where
  separate : ∀ line ∈ lines text, ∀ p ∈ guardedParts, AtHead p.1 p.2 (upperCode cases line) →
    isGuarded line = true
  returns : (∃ line ∈ lines text, isGuarded line = true) → ∀ line ∈ terminated text,
    (∀ token ∈ guardedCommands, containsWord line token = false) →
    (stripCr line).getLast? ≠ some '\r'

theorem isClean_eq_false_iff (text : Text) : isClean (scanMacroText text) = false ↔
    ∃ line ∈ lines text, isGuarded line = true := by
  rw [← Bool.not_eq_true, isClean_iff]
  simp

theorem sanitizeLine_of_not_guarded {line : Text} (h : isGuarded line = false) :
    sanitizeLine line = line := by
  rw [sanitizeLine, if_neg (by simp [h])]

/-- Where a line that is ended is found again. -/
theorem getElem?_terminated {text : Text} (h : isClean (scanMacroText text) = false) {line : Text}
    {i : ℕ} (hline : (terminated text)[i]? = some line) :
    (lines text)[i]? = some (stripCr line) ∧
      (lines (sanitizeMacroText text).text)[i]? = some (stripCr (sanitizeLine (stripCr line))) := by
  have hlength := (List.getElem?_eq_some_iff.mp hline).1
  rw [lines_sanitizeMacroText h, lines, List.getElem?_append_left (by simpa using hlength),
    List.getElem?_append_left (by simpa using hlength), List.getElem?_map, List.getElem?_map, hline]
  exact ⟨rfl, rfl⟩

/-- Where the line that is not ended is found again. -/
theorem getElem?_unterminated {text : Text} (h : isClean (scanMacroText text) = false) {line : Text}
    {i : ℕ} (hi : (terminated text).length ≤ i) (hline : (lines text)[i]? = some line) :
    (lines (sanitizeMacroText text).text)[i]? = some (sanitizeLine line) := by
  rw [lines, List.getElem?_append_right (by simpa using hi), List.length_map] at hline
  rw [lines_sanitizeMacroText h, List.getElem?_append_right (by simpa using hi), List.length_map]
  split at hline
  · cases hline
  · rename_i hne
    rw [if_neg hne]
    cases hindex : i - (terminated text).length with
    | zero =>
      rw [hindex] at hline
      obtain rfl := Option.some.inj hline
      rfl
    | succ k =>
      rw [hindex] at hline
      cases hline

/-- Each line of the text is found again, sanitized, in its place. -/
theorem getElem?_sanitized {text : Text} (h : isClean (scanMacroText text) = false) {line : Text}
    {i : ℕ} (hline : (lines text)[i]? = some line) :
    (∃ l ∈ terminated text, line = stripCr l ∧
      (lines (sanitizeMacroText text).text)[i]? = some (stripCr (sanitizeLine line))) ∨
      (lines (sanitizeMacroText text).text)[i]? = some (sanitizeLine line) := by
  by_cases hi : i < (terminated text).length
  · have hl : (terminated text)[i]? = some (terminated text)[i] := List.getElem?_eq_getElem hi
    obtain ⟨htext, hout⟩ := getElem?_terminated h hl
    obtain rfl := Option.some.inj (hline.symm.trans htext)
    exact .inl ⟨_, List.getElem_mem hi, rfl, hout⟩
  · exact .inr (getElem?_unterminated h (by omega) hline)

theorem stripCr_eq_self_iff {line : Text} : stripCr line = line ↔ line.getLast? ≠ some '\r' := by
  rcases exists_stripCr line with h | h
  · constructor
    · intro _ hlast
      rw [stripCr, if_pos hlast] at h
      have hne : line ≠ [] := by
        rintro rfl
        cases hlast
      have hlength := congrArg List.length h
      rw [List.length_dropLast] at hlength
      have := List.length_pos_of_ne_nil hne
      omega
    · exact fun _ => h
  · constructor
    · intro hsame
      rw [hsame] at h
      simp at h
    · intro hlast
      rw [h] at hlast
      simp at hlast

/-- The guard agrees with the tokenizer exactly when it sees every guarded command that heads a
line. -/
theorem sanitizeMacroText_agrees_iff (cases : CaseMapping) (text : Text) :
    GuardAgrees cases text ↔ GuardSees cases text := by
  constructor
  · intro hagrees
    constructor
    · intro line hline p hp hhead
      have hreads : ReadsGuarded cases line := readsGuarded_iff.mpr ⟨p, hp, hhead⟩
      by_contra hguarded
      rw [Bool.not_eq_true] at hguarded
      obtain ⟨i, hi⟩ := List.mem_iff_getElem?.mp hline
      cases hclean : isClean (scanMacroText text) with
      | true =>
        have hharmless := hagrees.harmless
        rw [sanitizeMacroText_clean hclean] at hharmless
        exact hharmless line hline hreads
      | false =>
        have hsame := sanitizeLine_of_not_guarded hguarded
        rcases getElem?_sanitized hclean hi with ⟨l, -, -, hout⟩ | hout
        · rw [hsame] at hout
          exact hagrees.harmless _ (List.mem_of_getElem? hout) ((readsGuarded_stripCr line).mpr hreads)
        · rw [hsame] at hout
          exact hagrees.harmless _ (List.mem_of_getElem? hout) hreads
    · intro hguarded line hline hwords
      have hclean := (isClean_eq_false_iff text).mpr hguarded
      obtain ⟨i, hi⟩ := List.mem_iff_getElem?.mp hline
      obtain ⟨hmem, hout⟩ := getElem?_terminated hclean hi
      have hwords' : ∀ token ∈ guardedCommands, containsWord (stripCr line) token = false :=
        fun token htoken => (containsWord_stripCr htoken line).trans (hwords token htoken)
      have hplain : isGuarded (stripCr line) = false := by
        by_contra hg
        obtain ⟨token, htoken, hcontains⟩ := exists_containsWord (Bool.not_eq_false _ ▸ hg)
        rw [hwords' token htoken] at hcontains
        cases hcontains
      have hkept := hagrees.unchanged i _ hmem hwords'
      rw [hkept, sanitizeLine_of_not_guarded hplain] at hout
      exact stripCr_eq_self_iff.mp (Option.some.inj hout).symm
  · intro hsees
    have hkeep {line : Text} (hline : line ∈ lines text) :
        ¬ ReadsGuarded cases (sanitizeLine line) := by
      rw [sanitizeLine]
      split
      · exact not_readsGuarded_strippedLine line
      · rename_i hguarded
        intro hreads
        obtain ⟨p, hp, hhead⟩ := readsGuarded_iff.mp hreads
        exact hguarded (hsees.separate line hline p hp hhead)
    refine ⟨?_, length_lines_sanitizeMacroText text, ?_, by rw [sanitizeMacroText_twice]; rfl⟩
    · intro line hline
      obtain ⟨i, hi⟩ := List.mem_iff_getElem?.mp hline
      cases hclean : isClean (scanMacroText text) with
      | true =>
        rw [sanitizeMacroText_clean hclean] at hline
        have hplain := (isClean_iff text).mp hclean line hline
        have hkept := hkeep hline
        rwa [sanitizeLine_of_not_guarded hplain] at hkept
      | false =>
        have hlength := (List.getElem?_eq_some_iff.mp hi).1
        rw [length_lines_sanitizeMacroText] at hlength
        have hsource : (lines text)[i]? = some (lines text)[i] := List.getElem?_eq_getElem hlength
        rcases getElem?_sanitized hclean hsource with ⟨l, -, -, hout⟩ | hout
        · obtain rfl := Option.some.inj (hi.symm.trans hout)
          rw [readsGuarded_stripCr]
          exact hkeep (List.getElem_mem hlength)
        · obtain rfl := Option.some.inj (hi.symm.trans hout)
          exact hkeep (List.getElem_mem hlength)
    · intro i line hi hwords
      have hplain : isGuarded line = false := by
        by_contra hg
        obtain ⟨token, htoken, hcontains⟩ := exists_containsWord (Bool.not_eq_false _ ▸ hg)
        rw [hwords token htoken] at hcontains
        cases hcontains
      cases hclean : isClean (scanMacroText text) with
      | true => rw [sanitizeMacroText_clean hclean]; exact hi
      | false =>
        rcases getElem?_sanitized hclean hi with ⟨l, hl, rfl, hout⟩ | hout
        · have hwords' : ∀ token ∈ guardedCommands, containsWord l token = false :=
            fun token htoken => (containsWord_stripCr htoken l).symm.trans (hwords token htoken)
          have hreturn := hsees.returns ((isClean_eq_false_iff text).mp hclean) l hl hwords'
          rw [hout, sanitizeLine_of_not_guarded hplain, stripCr_eq_self_iff.mpr hreturn]
        · rw [hout, sanitizeLine_of_not_guarded hplain]

/-- A parameter glued to the command hides it from the guard. -/
theorem guard_misses_glued : ¬ GuardAgrees Gcode.asciiCase (lit "G28X0") := by
  intro hagrees
  have hline : lit "G28X0" ∈ lines (sanitizeMacroText (lit "G28X0")).text := by decide +kernel
  refine hagrees.harmless _ hline ⟨⟨lit "G28", .traditional [(lit "X", lit "0")]⟩, ?_, ?_⟩
  · decide +kernel
  · decide

example : (sanitizeMacroText (lit "G90\nG28 X\n")).text =
    lit "G90\n; [plr-recovery] stripped guarded command: G28 X\n" := by
  decide +kernel

end Agreement

end DeadReckoning.Recovery
