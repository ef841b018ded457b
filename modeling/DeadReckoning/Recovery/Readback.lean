import DeadReckoning.Gcode.Parse
import DeadReckoning.Recovery.Vocabulary

/-! Commands with a name in them, and when the firmware reads the name back. -/
namespace DeadReckoning.Recovery

open Wal (Point Context)
open Gcode (CaseMapping parseLine rawCommandParameters)

section Readings

/-- What a command with a name in it is to be read as: an extended command with exactly these
parameters, or a letter and a number whose handler takes the rest of the line. -/
inductive Reading where
  | extended (word : Text) (params : List (Text × Text))
  | rest (word rest : Text)

def Reads (cases : CaseMapping) (command : Text) : Reading → Prop
  | .extended word params =>
      ∃ raw, parseLine cases command = .command ⟨word, .extended raw (some params)⟩ none
  | .rest word rest =>
      (∃ pairs, parseLine cases command = .command ⟨word, .traditional pairs⟩ none) ∧
        rawCommandParameters cases (Text.trim command) word = rest

end Readings

section Named

open Gcode (IsParam paramWord isRun shlexKv)

variable {cases : CaseMapping} {word key name : Text} {params : List (Text × Text)}

/-- A word of letters that is not read as a line number. -/
structure IsHead (word : Text) : Prop where
  nonempty : word ≠ []
  run : ∀ c ∈ word, isRun c = true
  number : word ≠ ['N']

instance (word : Text) : Decidable (IsHead word) :=
  decidable_of_iff (word ≠ [] ∧ (∀ c ∈ word, isRun c = true) ∧ word ≠ ['N'])
    ⟨fun h => ⟨h.1, h.2.1, h.2.2⟩, fun h => ⟨h.nonempty, h.run, h.number⟩⟩

/-- A command with one name in it, and further parameters behind the name. -/
def namedCommand (word key name : Text) (params : List (Text × Text)) : Text :=
  word ++ ' ' :: (paramWord (key, name) ++ Shell.spaced (params.map paramWord))

theorem isWhitespace_of_isPlain {c : Char} (hc : Shell.isPlain c = true) :
    Text.isWhitespace c = false := by
  simp only [Shell.isPlain, Bool.not_eq_true', Bool.or_eq_false_iff] at hc
  exact hc.1.1.1.1

/-- A word at the end of a line keeps the line from being trimmed there. -/
theorem rdropWhile_word {a w : Text} (hw : Shell.IsPlainWord w) :
    (a ++ w).rdropWhile Text.isWhitespace = a ++ w := by
  rw [List.rdropWhile_eq_self_iff]
  intro hne
  rw [List.getLast_append_of_ne_nil hne hw.1]
  simp [isWhitespace_of_isPlain (hw.2 _ (List.getLast_mem hw.1))]

/-- Trimming the line takes blanks from the end of a name that nothing follows. -/
theorem rdropWhile_named (hparams : ∀ p ∈ params, IsParam p) :
    ∃ written : Text, (paramWord (key, name) ++ Shell.spaced (params.map paramWord)).rdropWhile
      Text.isWhitespace = paramWord (key, written) ++ Shell.spaced (params.map paramWord) ∧
      written.length ≤ name.length ∧
      ((∀ c ∈ name, Shell.isPlain c = true) → written = name) := by
  induction params using List.reverseRecOn with
  | nil =>
    have hcut := @Decimal.rdropWhile_append_cons Text.isWhitespace key name '=' (by decide)
    refine ⟨name.rdropWhile Text.isWhitespace, ?_, (List.rdropWhile_prefix _ _).length_le, ?_⟩
    · simpa [paramWord, Shell.spaced] using hcut
    · intro hplain
      rw [List.rdropWhile_eq_self_iff]
      intro hne
      simp [isWhitespace_of_isPlain (hplain _ (List.getLast_mem hne))]
  | append_singleton params p _ =>
    have hword := (hparams p (by simp)).word
    refine ⟨name, ?_, le_refl _, fun _ => rfl⟩
    have hshape : paramWord (key, name) ++ Shell.spaced ((params ++ [p]).map paramWord) =
        (paramWord (key, name) ++ Shell.spaced (params.map paramWord) ++ [' ']) ++ paramWord p := by
      simp [Shell.spaced]
    rw [hshape, rdropWhile_word hword]

theorem reads_namedCommand_iff (hword : IsHead word) (hne : key ≠ [])
    (hkey : ∀ c ∈ key, isRun c = true) (hparams : ∀ p ∈ params, IsParam p) :
    Reads cases (namedCommand word key name params) (.extended word ((key, name) :: params)) ↔
      ∀ c ∈ name, Shell.isPlain c = true := by
  obtain ⟨written, hraw, hlength, hsame⟩ := @rdropWhile_named key name params hparams
  obtain ⟨k, rest, rfl⟩ := List.exists_cons_of_ne_nil hne
  have hk := hkey k List.mem_cons_self
  have hblank : ¬ Text.isWhitespace k = true := by simp [Gcode.isWhitespace_of_isRun hk]
  have htrim := @Decimal.rdropWhile_append_cons Text.isWhitespace []
    (rest ++ '=' :: name ++ Shell.spaced (params.map paramWord)) k hblank
  have hparse : parseLine cases (namedCommand word (k :: rest) name params) =
      .command ⟨word, .extended (paramWord (k :: rest, written) ++ Shell.spaced (params.map paramWord))
        (shlexKv cases (paramWord (k :: rest, written) ++ Shell.spaced (params.map paramWord)))⟩
        none := by
    rw [← hraw]
    have hline := @Gcode.parseLine_extended cases word
      (rest ++ '=' :: name ++ Shell.spaced (params.map paramWord)) k hword.nonempty hword.run
      hword.number hk
    simp only [List.nil_append] at htrim
    rw [← htrim] at hline
    exact hline
  constructor
  · rintro ⟨raw, hreads⟩
    rw [hparse] at hreads
    injection hreads with hcommand
    injection hcommand with _ hextended
    injection hextended with _ hpairs
    exact (Gcode.isPlain_of_shlexKv hkey hparams hlength rfl hpairs).2
  · intro hplain
    obtain rfl := hsame hplain
    exact ⟨_, by rw [hparse, Gcode.shlexKv_named hkey hparams hplain]⟩

/-- A name between double quotes is read back when it holds no quote and no backslash. -/
theorem reads_quoted (hword : IsHead word) (hne : key ≠ []) (hkey : ∀ c ∈ key, isRun c = true)
    (hparams : ∀ p ∈ params, IsParam p) (hsome : params ≠ [])
    (hname : ∀ c ∈ name, c ≠ '"' ∧ c ≠ '\\') :
    Reads cases (word ++ ' ' :: (key ++ '=' :: '"' :: name ++ '"' ::
      Shell.spaced (params.map paramWord))) (.extended word ((key, name) :: params)) := by
  have hws : ∀ w ∈ params.map paramWord, Shell.IsPlainWord w := by
    intro w hw
    obtain ⟨p, hp, rfl⟩ := List.mem_map.mp hw
    exact (hparams p hp).word
  have hend : ∀ a : Text, (a ++ Shell.spaced (params.map paramWord)).rdropWhile Text.isWhitespace =
      a ++ Shell.spaced (params.map paramWord) := by
    intro a
    obtain ⟨before, p, rfl⟩ : ∃ before p, params = before ++ [p] :=
      ⟨_, _, (List.dropLast_append_getLast hsome).symm⟩
    have hshape : a ++ Shell.spaced ((before ++ [p]).map paramWord) =
        (a ++ Shell.spaced (before.map paramWord) ++ [' ']) ++ paramWord p := by
      simp [Shell.spaced]
    rw [hshape, rdropWhile_word (hparams p (by simp)).word]
  have hwords : Shell.words (key ++ '=' :: '"' :: name ++ '"' ::
      Shell.spaced (params.map paramWord)) = some ((key ++ '=' :: name) :: params.map paramWord) := by
    have hbefore := Gcode.isPlainWord_key hkey
    have hshape : key ++ '=' :: '"' :: name ++ '"' :: Shell.spaced (params.map paramWord) =
        (key ++ ['=']) ++ (('"' :: name ++ ['"']) ++ Shell.spaced (params.map paramWord)) := by simp
    rw [hshape, Shell.words, List.foldl_append, List.foldl_append, Shell.start,
      Shell.foldl_plain_none hbefore.2 hbefore.1, Shell.foldl_quoted hname, Shell.foldl_spaced hws]
    simp
  have hpairs : shlexKv cases (key ++ '=' :: '"' :: name ++ '"' ::
      Shell.spaced (params.map paramWord)) = some ((key, name) :: params) := by
    rw [shlexKv, hwords, Option.bind_some, List.mapM_cons, Gcode.keyValue_word hkey,
      Gcode.mapM_keyValue hparams]
    rfl
  obtain ⟨k, rest, rfl⟩ := List.exists_cons_of_ne_nil hne
  have hline := @Gcode.parseLine_extended cases word
    (rest ++ '=' :: '"' :: name ++ '"' :: Shell.spaced (params.map paramWord)) k hword.nonempty
    hword.run hword.number (hkey k List.mem_cons_self)
  have hkeep := hend (rest ++ '=' :: '"' :: name ++ ['"'])
  rw [List.append_assoc, List.singleton_append] at hkeep
  rw [hkeep] at hline
  have hread : parseLine cases (word ++ ' ' :: (k :: rest ++ '=' :: '"' :: name ++ '"' ::
      Shell.spaced (params.map paramWord))) = _ := hline
  exact ⟨_, by rw [hread, ← hpairs]; rfl⟩

end Named

section Numbers

open Gcode (IsParam isRun)

theorem isPlain_of_isNumberChar {c : Char} (h : isNumberChar c = true) :
    Shell.isPlain c = true := by
  have hrange := isNumberChar_range h
  have hne : ∀ d : Char, d.toNat < 45 ∨ 57 < d.toNat → c ≠ d := by
    rintro d hd rfl
    omega
  simp [Shell.isPlain, Shell.isComment, isWhitespace_of_isNumberChar h, hne ';' (by decide),
    hne '#' (by decide), hne '\'' (by decide), hne '"' (by decide), hne '\\' (by decide)]

/-- No number has to be quoted. -/
theorem isPlain_of_mem_fmtNum {v : F64} {c : Char} (hc : c ∈ fmtNum v) : Shell.isPlain c = true := by
  cases v with
  | fin q => exact isPlain_of_isNumberChar (isNumberChar_of_mem_fmtNum hc)
  | inf negative =>
    revert c
    cases negative <;> decide
  | nan =>
    revert c
    decide

theorem mem_joinComma {ts : List Text} {c : Char} (hc : c ∈ joinComma ts) :
    c = ',' ∨ ∃ t ∈ ts, c ∈ t := by
  induction ts using joinComma.induct with
  | case1 => cases hc
  | case2 t => exact .inr ⟨t, List.mem_cons_self, hc⟩
  | case3 t ts hne ih =>
    rw [joinComma.eq_3 t ts hne] at hc
    rcases List.mem_append.mp hc with hc | hc
    · rcases List.mem_append.mp hc with hc | hc
      · exact .inr ⟨t, List.mem_cons_self, hc⟩
      · exact .inl (List.mem_singleton.mp hc)
    · exact (ih hc).imp id fun ⟨u, hu, hc⟩ => ⟨u, List.mem_cons_of_mem _ hu, hc⟩

theorem isParam_number {key : Text} {v : F64} (hne : key ≠ []) (hkey : ∀ c ∈ key, isRun c = true) :
    IsParam (key, fmtNum v) :=
  ⟨hne, hkey, fun _ hc => isPlain_of_mem_fmtNum hc⟩

theorem isPlain_of_mem_pair {p : Point} {c : Char} (hc : c ∈ fmtNum p.1 ++ lit "," ++ fmtNum p.2) :
    Shell.isPlain c = true := by
  rcases List.mem_append.mp hc with hc | hc
  · rcases List.mem_append.mp hc with hc | hc
    · exact isPlain_of_mem_fmtNum hc
    · obtain rfl := List.mem_singleton.mp hc
      decide
  · exact isPlain_of_mem_fmtNum hc

theorem isPlain_bracket {t : Text} (ht : ∀ c ∈ t, Shell.isPlain c = true) :
    ∀ c ∈ lit "[" ++ t ++ lit "]", Shell.isPlain c = true := by
  intro c hc
  rcases List.mem_append.mp hc with hc | hc
  · rcases List.mem_append.mp hc with hc | hc
    · obtain rfl := List.mem_singleton.mp hc
      decide
    · exact ht c hc
  · obtain rfl := List.mem_singleton.mp hc
    decide

/-- The parameters of an object's geometry, as they are written. -/
def geometryParams (d : ExcludeObjectDef) : List (Text × Text) :=
  (d.center.map fun c => (lit "CENTER", fmtNum c.1 ++ lit "," ++ fmtNum c.2)).toList ++
    if d.polygon.isEmpty then []
    else [(lit "POLYGON", lit "[" ++
      joinComma (d.polygon.map fun p => lit "[" ++ fmtNum p.1 ++ lit "," ++ fmtNum p.2 ++ lit "]") ++
      lit "]")]

theorem isKey_center : lit "CENTER" ≠ [] ∧ ∀ c ∈ lit "CENTER", isRun c = true := by decide
theorem isKey_polygon : lit "POLYGON" ≠ [] ∧ ∀ c ∈ lit "POLYGON", isRun c = true := by decide

/-- The geometry of an object is made of numbers, brackets and commas. -/
theorem isParam_geometry {d : ExcludeObjectDef} {p : Text × Text} (hp : p ∈ geometryParams d) :
    IsParam p := by
  rcases List.mem_append.mp hp with hp | hp
  · obtain ⟨center, -, rfl⟩ := Option.map_eq_some_iff.mp (Option.mem_toList.mp hp)
    exact ⟨isKey_center.1, isKey_center.2, fun c hc => isPlain_of_mem_pair hc⟩
  · split at hp
    · cases hp
    · obtain rfl := List.mem_singleton.mp hp
      refine ⟨isKey_polygon.1, isKey_polygon.2, isPlain_bracket fun c hc => ?_⟩
      rcases mem_joinComma hc with rfl | ⟨t, ht, hc⟩
      · decide
      · obtain ⟨point, -, rfl⟩ := List.mem_map.mp ht
        rw [List.append_assoc (lit "[" ++ fmtNum point.1), List.append_assoc (lit "["),
          ← List.append_assoc (fmtNum point.1)] at hc
        exact isPlain_bracket (fun c hc => isPlain_of_mem_pair hc) c hc

theorem excludeDefine_eq (d : ExcludeObjectDef) :
    excludeDefine d = namedCommand (lit "EXCLUDE_OBJECT_DEFINE") (lit "NAME") d.name
      (geometryParams d) := by
  obtain ⟨name, center, polygon, excluded⟩ := d
  unfold excludeDefine namedCommand geometryParams Shell.spaced Gcode.paramWord
  cases center <;> cases polygon <;> simp [lit]

end Numbers

section Select

open Gcode (isRun splitArgs splitArgsFrom commandName isNumbered)

variable {cases : CaseMapping}

theorem isRun_toUpper (c : Char) : isRun c.toUpper = (c.isAlpha || c == '_') := by
  by_cases h : 'a'.val ≤ c.val ∧ c.val ≤ 'z'.val
  · obtain ⟨hlow, hhigh, hupper⟩ := Text.toNat_toUpper h
    have hrun : c.toUpper.isUpper = true := by
      have hge : 65 ≤ c.toUpper.toNat := by omega
      have hle : c.toUpper.toNat ≤ 90 := by omega
      simp only [Text.isUpper_eq, decide_eq_true_eq]
      exact ⟨hge, hle⟩
    have hlower : c.isLower = true := by
      simpa [Text.isLower_eq] using h
    simp [isRun, hrun, Text.isAlpha_eq, hlower]
  · have hlower : c.isLower = false := by
      rw [Text.isLower_eq, Bool.eq_false_iff]
      intro hboth
      exact h (by simpa using hboth)
    rw [Text.toUpper_other h, isRun, Text.isAlpha_eq, hlower, Bool.or_false]

theorem splitArgsFrom_none (text s : Text) :
    ∃ more parts, splitArgsFrom text none s = (text ++ more) :: parts := by
  induction s generalizing text with
  | nil => exact ⟨[], [], by rw [List.append_nil]; rfl⟩
  | cons c s ih =>
    rw [splitArgsFrom]
    split_ifs
    · obtain ⟨parts, hparts⟩ := Gcode.splitArgsFrom_some text [c] s
      exact ⟨[], parts, by rw [hparts, List.append_nil]⟩
    · exact ⟨[], _, by rw [List.append_nil]⟩
    · obtain ⟨more, parts, hparts⟩ := ih (text ++ [c])
      exact ⟨c :: more, parts, by rw [hparts, List.append_assoc, List.singleton_append]⟩

theorem trim_select : Text.trim (lit "M23 ") = lit "M23" := by decide

theorem upper_m23 : cases.upper (lit "M23") = lit "M23" := by
  simp [CaseMapping.upper, lit, cases.ascii]
  
theorem upper_select : cases.upper (lit "M23 ") = lit "M23 " := by
  simp [CaseMapping.upper, lit, cases.ascii]

/-- The number in front of a file's name ends where a letter begins. -/
theorem commandName_select {c : Char} (rest : Text) (hstar : c ≠ '*')
    (hblank : Text.isWhitespace c = false) :
    commandName (splitArgs (lit "M23 " ++ c :: rest)) = lit "M23" ↔ isRun c = true := by
  have hsplit : splitArgs (lit "M23 " ++ c :: rest) =
      [] :: ['M'] :: splitArgsFrom (lit "23 ") none (c :: rest) := rfl
  constructor
  · intro hname
    by_contra hrun
    obtain ⟨more, parts, hparts⟩ := splitArgsFrom_none (lit "23 " ++ [c]) rest
    have hnone : splitArgsFrom (lit "23 ") none (c :: rest) =
        (lit "23 " ++ [c] ++ more) :: parts := by
      rw [splitArgsFrom, if_neg hrun, if_neg hstar, hparts]
    rw [hsplit, hnone] at hname
    have htrim := @Gcode.trim_head (lit "M23") more c (by decide) (by decide) hblank
    have hlong : commandName ([] :: ['M'] :: (lit "23 " ++ [c] ++ more) :: parts) =
        lit "M23" ++ ' ' :: c :: more.rdropWhile Text.isWhitespace := by
      show Text.trim ([[], ['M'], lit "23 " ++ [c] ++ more].flatten) = _
      rw [← htrim]
      simp [lit]
    have hlength := congrArg List.length (hlong.symm.trans hname)
    simp [lit] at hlength
  · intro hrun
    obtain ⟨parts, hparts⟩ := Gcode.splitArgsFrom_some (lit "23 ") [c] rest
    have hsome : splitArgsFrom (lit "23 ") none (c :: rest) = lit "23 " :: parts := by
      rw [splitArgsFrom, if_pos hrun, hparts]
    rw [hsplit, hsome]
    exact trim_select

theorem traditional_select : Gcode.isTraditionalCommand (lit "M23") = true := by decide +kernel
theorem name_select : lit "M23" ≠ [] := by decide

theorem noSemicolon_select : ∀ d ∈ lit "M23 ", decide (d ≠ ';') = true := by decide

/-- The name begins with a letter, so that its beginning is not read as part of a number. -/
def startsWithWord (name : Text) : Bool := name.head?.any fun c => c.isAlpha || c == '_'

/-- The characters of a sanitized name have ASCII codes and stand for themselves. -/
theorem isNameChar_spec {c : Char} (h : isNameChar c = true) :
    c.toNat < 128 ∧ Shell.isPlain c = true ∧ c.toUpper ≠ '*' ∧ Text.isWhitespace c.toUpper = false := by
  have hrange : c.toNat = 45 ∨ c.toNat = 46 ∨ 48 ≤ c.toNat ∧ c.toNat ≤ 57 ∨
      65 ≤ c.toNat ∧ c.toNat ≤ 90 ∨ c.toNat = 95 ∨ 97 ≤ c.toNat ∧ c.toNat ≤ 122 := by
    simp only [isNameChar, Char.isAlphanum, Text.isAlpha_eq, Text.isUpper_eq, Text.isLower_eq,
      Char.isDigit, Bool.or_eq_true, Bool.and_eq_true, decide_eq_true_eq] at h
    rcases h with (((((h | h) | h) | rfl) | rfl) | rfl)
    · have hlow : 65 ≤ c.toNat := h.1
      have hhigh : c.toNat ≤ 90 := h.2
      omega
    · have hlow : 97 ≤ c.toNat := h.1
      have hhigh : c.toNat ≤ 122 := h.2
      omega
    · have hlow : 48 ≤ c.toNat := h.1
      have hhigh : c.toNat ≤ 57 := h.2
      omega
    · decide
    · decide
    · decide
  have hblank (d : Char) (hd : 33 ≤ d.toNat) (hd' : d.toNat ≤ 126) : Text.isWhitespace d = false := by
    simp only [Text.isWhitespace, Bool.or_eq_false_iff, Bool.and_eq_false_iff,
      decide_eq_false_iff_not, beq_eq_false_iff_ne]
    omega
  have hne (d : Char) (hd : d.toNat < 45 ∨ 90 < d.toNat ∧ d.toNat < 95 ∨ 57 < d.toNat ∧ d.toNat < 65) :
      c ≠ d := by
    rintro rfl
    omega
  refine ⟨by omega, ?_, ?_, ?_⟩
  · simp [Shell.isPlain, Shell.isComment, hblank c (by omega) (by omega), hne ';' (by decide),
      hne '#' (by decide), hne '\'' (by decide), hne '"' (by decide), hne '\\' (by decide)]
  · by_cases hlow : 'a'.val ≤ c.val ∧ c.val ≤ 'z'.val
    · obtain ⟨hge, hle, hupper⟩ := Text.toNat_toUpper hlow
      intro hstar
      rw [hstar] at hupper
      change 42 = _ at hupper
      omega
    · rw [Text.toUpper_other hlow]
      exact hne '*' (by decide)
  · rw [Text.isWhitespace_toUpper]
    exact hblank c (by omega) (by omega)

theorem reads_select_iff {name : Text} (hname : ∀ c ∈ name, isNameChar c = true) (hne : name ≠ []) :
    Reads cases (lit "M23 " ++ name) (.rest (lit "M23") name) ↔ startsWithWord name = true := by
  obtain ⟨c, rest, rfl⟩ := List.exists_cons_of_ne_nil hne
  obtain ⟨hascii, hplain, hstar, hblank⟩ := isNameChar_spec (hname c List.mem_cons_self)
  have hplainAll : ∀ d ∈ c :: rest, Shell.isPlain d = true := fun d hd => (isNameChar_spec (hname d hd)).2.1
  have hkeep : rest.rdropWhile Text.isWhitespace = rest := by
    rw [List.rdropWhile_eq_self_iff]
    intro hne
    have hmem := List.mem_cons_of_mem c (List.getLast_mem hne)
    simp [isWhitespace_of_isPlain (hplainAll _ hmem)]
  have htrim : Text.trim (lit "M23 " ++ c :: rest) = lit "M23 " ++ c :: rest := by
    have hhead := @Gcode.trim_head (lit "M23") rest c (by decide) (by decide)
      (isWhitespace_of_isPlain hplain)
    rw [hkeep] at hhead
    exact hhead
  have hsolid : ∀ d ∈ lit "M23 " ++ c :: rest, decide (d ≠ ';') = true := by
    intro d hd
    rcases List.mem_append.mp hd with hd | hd
    · exact noSemicolon_select d hd
    · apply decide_eq_true
      rintro rfl
      exact absurd (hplainAll _ hd) (by decide)
  have hcode : (lit "M23 " ++ c :: rest).takeWhile (· ≠ ';') = lit "M23 " ++ c :: rest :=
    List.takeWhile_eq_self_iff.mpr hsolid
  have hcomment : (lit "M23 " ++ c :: rest).dropWhile (· ≠ ';') = [] :=
    List.dropWhile_eq_nil_iff.mpr hsolid
  have hupper : cases.upper (lit "M23 " ++ c :: rest) = lit "M23 " ++ c.toUpper :: cases.upper rest := by
    rw [Gcode.upper_append, Gcode.upper_cons, cases.ascii c hascii, upper_select]
    rfl
  have hraw : rawCommandParameters cases (Text.trim (lit "M23 " ++ c :: rest)) (lit "M23") = c :: rest := by
    rw [htrim]
    exact Gcode.rawCommandParameters_head upper_m23
  have hname := @commandName_select c.toUpper (cases.upper rest) hstar hblank
  rw [isRun_toUpper] at hname
  rw [startsWithWord, List.head?_cons, Option.any_some, ← hname]
  constructor
  · rintro ⟨⟨pairs, hread⟩, -⟩
    have hword := Gcode.commandName_of_parseLine hread
    rw [htrim, hcode, hupper] at hword
    exact hword
  · intro hword
    let parts := splitArgs (lit "M23 " ++ c.toUpper :: cases.upper rest)
    refine ⟨⟨(Gcode.pairsFromParts parts).drop (if isNumbered parts then 2 else 1), ?_⟩, hraw⟩
    have hne : lit "M23 " ++ c :: rest ≠ [] := by simp
    unfold parseLine
    simp only [htrim, hcode, hcomment, hupper, hword, hne, traditional_select, if_false, if_true,
      name_select, false_and, parts]

end Select

end DeadReckoning.Recovery
