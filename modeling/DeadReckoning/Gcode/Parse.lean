import DeadReckoning.Lib.Decimal
import DeadReckoning.Lib.Shell

/-! One line of g-code, split into a command and its parameters the way the printer's firmware
splits it. -/
namespace DeadReckoning.Gcode

/-- Upper case by the Unicode tables, of which only the ASCII part is fixed here. -/
structure CaseMapping where
  upperOf : Char → Text
  ascii : ∀ c : Char, c.toNat < 128 → upperOf c = [c.toUpper]

def CaseMapping.upper (cases : CaseMapping) (s : Text) : Text := s.flatMap cases.upperOf

/-- The mapping that leaves everything outside of ASCII alone. -/
def asciiCase : CaseMapping where
  upperOf c := [c.toUpper]
  ascii _ _ := rfl

inductive CommandParams where
  | traditional (pairs : List (Text × Text))
  | extended (raw : Text) (pairs : Option (List (Text × Text)))
  deriving DecidableEq

structure Command where
  name : Text
  params : CommandParams
  deriving DecidableEq

inductive LineBody where
  | blank
  | comment (text : Text)
  | command (command : Command) (comment : Option Text)
  deriving DecidableEq

def LineBody.command? : LineBody → Option Command
  | .command c _ => some c
  | .blank | .comment _ => none

/-- The parameters, `none` for an extended command whose text is malformed. -/
def Command.pairs (c : Command) : Option (List (Text × Text)) :=
  match c.params with
  | .traditional pairs => some pairs
  | .extended _ pairs => pairs

/-- The value of the last parameter with the key. -/
def Command.get (c : Command) (key : Text) : Option Text :=
  c.pairs.bind fun pairs => (pairs.reverse.find? (·.1 = key)).map (·.2)

/-- The letters that words are made of. -/
def isRun (c : Char) : Bool := c.isUpper || c == '_'

/-- The text since the last word, and the word that is being read. -/
def splitArgsFrom : Text → Option Text → Text → List Text
  | text, none, [] => [text]
  | text, some word, [] => [text, word, []]
  | text, none, c :: cs =>
      if isRun c then splitArgsFrom text (some [c]) cs
      else if c = '*' then text :: ['*'] :: splitArgsFrom [] none cs
      else splitArgsFrom (text ++ [c]) none cs
  | text, some word, c :: cs =>
      if isRun c then splitArgsFrom text (some (word ++ [c])) cs
      else if c = '*' then text :: word :: [] :: ['*'] :: splitArgsFrom [] none cs
      else text :: word :: splitArgsFrom [c] none cs

/-- The words and the stars of a line, with the text between them: text and word by turns, text
at both ends. -/
def splitArgs (s : Text) : List Text := splitArgsFrom [] none s

/-- Each word with the text behind it. -/
def pairsOfWords : List Text → List (Text × Text)
  | [] => []
  | [key] => [(key, [])]
  | key :: value :: rest => (key, Text.trim value) :: pairsOfWords rest

def pairsFromParts (parts : List Text) : List (Text × Text) := pairsOfWords (parts.drop 1)

/-- A letter and a number. -/
def isTraditionalCommand (command : Text) : Bool :=
  match (Text.words command).head? with
  | some (first :: second :: rest) =>
      (Decimal.parseF64 (second :: rest)).isSome && first.isUpper && second.isDigit
  | _ => false

/-- Where a checksum begins, the end of the line without one. -/
def checksumStart (line : Text) : ℕ :=
  match line.reverse.findIdx? (· = '*') with
  | some digits =>
      if 0 < digits ∧ (line.drop (line.length - digits)).all Char.isDigit
      then line.length - 1 - digits else line.length
  | none => line.length

/-- The part of the line behind the command, as it was written. -/
def rawCommandParameters (cases : CaseMapping) (line command : Text) : Text :=
  let (start, stop) :=
    if cases.upper (line.take command.length) ≠ command then
      -- A line number stands before the command, a checksum may follow it.
      (match (cases.upper line).tails.findIdx? command.isPrefixOf with
        | some index => command.length + index
        | none => command.length - 1, checksumStart line)
    else (command.length, line.length)
  let start := if (line)[start]?.any Text.isWhitespace then start + 1 else start
  (line.take stop).drop start

def splitOnce (word : Text) : Option (Text × Text) :=
  match word.dropWhile (· ≠ '=') with
  | [] => none
  | _ :: value => some (word.takeWhile (· ≠ '='), value)

def keyValue (cases : CaseMapping) (word : Text) : Option (Text × Text) :=
  (splitOnce word).map fun pair => (cases.upper pair.1, pair.2)

def shlexKv (cases : CaseMapping) (raw : Text) : Option (List (Text × Text)) :=
  (Shell.words raw).bind fun words => words.mapM (keyValue cases)

/-- The line begins with a line number. -/
def isNumbered : List Text → Bool
  | [] :: ['N'] :: _ => true
  | _ => false

/-- The name of the command at the head of the parts. -/
def commandName (parts : List Text) : Text :=
  Text.trim (if isNumbered parts then parts.getD 3 [] ++ parts.getD 4 [] else (parts.take 3).flatten)

/-- Parses a line without its terminator. -/
def parseLine (cases : CaseMapping) (text : Text) : LineBody :=
  let stripped := Text.trim text
  let code := stripped.takeWhile (· ≠ ';')
  let comment := match stripped.dropWhile (· ≠ ';') with
    | [] => none
    | rest => some rest
  let parts := splitArgs (cases.upper code)
  let name := commandName parts
  if stripped = [] then .blank
  else if name = [] ∧ Text.trim code = [] then
    match comment with
    | some rest => .comment rest
    | none => .blank
  else if isTraditionalCommand name then
    .command ⟨name, .traditional ((pairsFromParts parts).drop (if isNumbered parts then 2 else 1))⟩
      comment
  else
    let raw := rawCommandParameters cases stripped name
    .command ⟨name, .extended raw (shlexKv cases raw)⟩ none

section Heads

variable {cases : CaseMapping}

theorem toNat_of_isRun {c : Char} (hc : isRun c = true) : 65 ≤ c.toNat ∧ c.toNat ≤ 95 := by
  simp only [isRun, Text.isUpper_eq, Bool.or_eq_true, decide_eq_true_eq, beq_iff_eq] at hc
  rcases hc with hc | rfl
  · obtain ⟨hlow, hhigh⟩ := hc
    have hlow' : 65 ≤ c.toNat := hlow
    have hhigh' : c.toNat ≤ 90 := hhigh
    omega
  · decide

/-- A letter of a word is its own upper case. -/
theorem upperOf_of_isRun {c : Char} (hc : isRun c = true) : cases.upperOf c = [c] := by
  have hrange := toNat_of_isRun hc
  have hlow : ¬ (97 : UInt32) ≤ c.val := by
    intro hge
    have hge' : 97 ≤ c.toNat := hge
    omega
  rw [cases.ascii c (by omega)]
  rw [Text.toUpper_other fun h => hlow h.1]

theorem isWhitespace_of_isRun {c : Char} (hc : isRun c = true) : Text.isWhitespace c = false := by
  have hrange := toNat_of_isRun hc
  simp only [Text.isWhitespace, Bool.or_eq_false_iff, Bool.and_eq_false_iff, decide_eq_false_iff_not,
    beq_eq_false_iff_ne]
  omega

theorem isDigit_of_isRun {c : Char} (hc : isRun c = true) : c.isDigit = false := by
  have hrange := toNat_of_isRun hc
  by_contra h
  have hdigit : c.toNat ≤ 57 := by
    simp only [Char.isDigit, Bool.not_eq_false, Bool.and_eq_true, decide_eq_true_eq] at h
    exact h.2
  omega

theorem ne_of_isRun {c d : Char} (hc : isRun c = true) (hd : isRun d = false) : c ≠ d := by
  rintro rfl
  rw [hc] at hd
  cases hd

theorem upper_append (a b : Text) : cases.upper (a ++ b) = cases.upper a ++ cases.upper b :=
  List.flatMap_append

theorem upper_cons (c : Char) (s : Text) : cases.upper (c :: s) = cases.upperOf c ++ cases.upper s :=
  List.flatMap_cons

theorem upper_of_isRun {word : Text} (hword : ∀ c ∈ word, isRun c = true) :
    cases.upper word = word := by
  induction word with
  | nil => rfl
  | cons c word ih =>
    rw [upper_cons, upperOf_of_isRun (hword c List.mem_cons_self),
      ih (fun d hd => hword d (List.mem_cons_of_mem _ hd)), List.singleton_append]

theorem splitArgsFrom_some (text word s : Text) :
    ∃ parts, splitArgsFrom text (some word) s = text :: parts := by
  induction s generalizing word with
  | nil => exact ⟨_, rfl⟩
  | cons c s ih =>
    rw [splitArgsFrom]
    split_ifs
    · exact ih _
    · exact ⟨_, rfl⟩
    · exact ⟨_, rfl⟩

theorem splitArgsFrom_run {text word more rest : Text} (hmore : ∀ c ∈ more, isRun c = true) :
    splitArgsFrom text (some word) (more ++ rest) = splitArgsFrom text (some (word ++ more)) rest := by
  induction more generalizing word with
  | nil => rw [List.nil_append, List.append_nil]
  | cons c more ih =>
    rw [List.cons_append, splitArgsFrom, if_pos (hmore c List.mem_cons_self),
      ih (fun d hd => hmore d (List.mem_cons_of_mem _ hd)), List.append_assoc, List.singleton_append]

/-- A word, a blank, and the letter of the next word. -/
theorem splitArgs_head {head rest : Text} {key : Char} (hne : head ≠ [])
    (hhead : ∀ c ∈ head, isRun c = true) (hkey : isRun key = true) :
    ∃ parts, splitArgs (head ++ ' ' :: key :: rest) = [] :: head :: [' '] :: parts := by
  obtain ⟨c, word, rfl⟩ := List.exists_cons_of_ne_nil hne
  obtain ⟨parts, hparts⟩ := splitArgsFrom_some [' '] [key] rest
  have hblank : isRun ' ' = false := by decide
  refine ⟨parts, ?_⟩
  rw [splitArgs, List.cons_append, splitArgsFrom, if_pos (hhead c List.mem_cons_self),
    splitArgsFrom_run (fun d hd => hhead d (List.mem_cons_of_mem _ hd)), List.singleton_append,
    splitArgsFrom, if_neg (by rw [hblank]; decide), if_neg (by decide), splitArgsFrom, if_pos hkey,
    hparts]

/-- What a blank ends stays in front of it. -/
theorem trim_head {head rest : Text} {key : Char} (hne : head ≠ [])
    (hhead : ∀ c ∈ head, Text.isWhitespace c = false) (hkey : Text.isWhitespace key = false) :
    Text.trim (head ++ ' ' :: key :: rest) =
      head ++ ' ' :: key :: rest.rdropWhile Text.isWhitespace := by
  obtain ⟨c, word, rfl⟩ := List.exists_cons_of_ne_nil hne
  have hfirst := hhead c List.mem_cons_self
  have hlast : ¬ Text.isWhitespace key = true := by simp [hkey]
  have hcut := @Decimal.rdropWhile_append_cons Text.isWhitespace (c :: word ++ [' ']) rest key hlast
  rw [Text.trim, List.cons_append, List.dropWhile_cons_of_neg (by simp [hfirst])]
  simpa using hcut

theorem trim_blank {head : Text} (hne : head ≠ []) (hhead : ∀ c ∈ head, isRun c = true) :
    Text.trim (head ++ [' ']) = head := by
  have hsolid : ∀ c ∈ head, ¬ Text.isWhitespace c = true := by
    intro c hc
    simp [isWhitespace_of_isRun (hhead c hc)]
  have hlast : head.rdropWhile Text.isWhitespace = head := by
    rw [List.rdropWhile_eq_self_iff]
    exact fun _ => hsolid _ (List.getLast_mem _)
  obtain ⟨c, word, rfl⟩ := List.exists_cons_of_ne_nil hne
  rw [Text.trim, List.cons_append, List.dropWhile_cons_of_neg (hsolid c List.mem_cons_self),
    ← List.cons_append, List.rdropWhile_concat_pos _ _ _ (by decide), hlast]

theorem isTraditionalCommand_of_isRun {head : Text} (hne : head ≠ [])
    (hhead : ∀ c ∈ head, isRun c = true) : isTraditionalCommand head = false := by
  have hwords := Text.words_of_forall (fun c hc => isWhitespace_of_isRun (hhead c hc)) hne
  rw [isTraditionalCommand, hwords]
  rcases head with _ | ⟨first, _ | ⟨second, tail⟩⟩
  · exact absurd rfl hne
  · rfl
  · simp [isDigit_of_isRun (hhead second (by simp))]

theorem rawCommandParameters_head {head rest : Text} (hhead : cases.upper head = head) :
    rawCommandParameters cases (head ++ ' ' :: rest) head = rest := by
  have htake : (head ++ ' ' :: rest).take head.length = head := by simp
  have hsame : ¬ cases.upper ((head ++ ' ' :: rest).take head.length) ≠ head := by
    rw [htake, hhead]
    exact not_not.mpr rfl
  have hblank : (head ++ ' ' :: rest)[head.length]?.any Text.isWhitespace = true := by
    simp
    rfl
  simp only [rawCommandParameters, if_neg hsame, hblank, if_true, List.take_length]
  rw [List.drop_append, List.drop_eq_nil_of_le (by omega), List.nil_append]
  simp

/-- A word that is not a letter and a number names an extended command, whose parameters are the
text behind it. -/
theorem parseLine_extended {head rest : Text} {key : Char} (hne : head ≠ [])
    (hhead : ∀ c ∈ head, isRun c = true) (hnumber : head ≠ ['N']) (hkey : isRun key = true) :
    parseLine cases (head ++ ' ' :: key :: rest) =
      let raw := key :: rest.rdropWhile Text.isWhitespace
      .command ⟨head, .extended raw (shlexKv cases raw)⟩ none := by
  have htrim := @trim_head head rest key hne
    (fun c hc => isWhitespace_of_isRun (hhead c hc)) (isWhitespace_of_isRun hkey)
  have hsemicolon : ∀ c, isRun c = true → decide (c ≠ ';') = true := by
    intro c hc
    exact decide_eq_true (ne_of_isRun hc (by decide))
  have hcode : (head ++ ' ' :: key :: rest.rdropWhile Text.isWhitespace).takeWhile (· ≠ ';') =
      head ++ ' ' :: key :: (rest.rdropWhile Text.isWhitespace).takeWhile (· ≠ ';') := by
    rw [List.takeWhile_append_of_pos (fun c hc => hsemicolon c (hhead c hc)),
      List.takeWhile_cons_of_pos (by decide),
      List.takeWhile_cons_of_pos (p := fun c => decide (c ≠ ';')) (hsemicolon key hkey)]
  have hupper (t : Text) : cases.upper (head ++ ' ' :: key :: t) =
      head ++ ' ' :: key :: cases.upper t := by
    rw [upper_append, upper_of_isRun hhead, upper_cons, upper_cons, cases.ascii ' ' (by decide),
      upperOf_of_isRun hkey]
    rfl
  obtain ⟨parts, hparts⟩ := @splitArgs_head head
    (cases.upper ((rest.rdropWhile Text.isWhitespace).takeWhile (· ≠ ';'))) key hne hhead hkey
  have hnumbered : isNumbered ([] :: head :: [' '] :: parts) = false := by
    unfold isNumbered
    split
    · rename_i h
      simp only [List.cons.injEq, true_and] at h
      exact absurd h.1 hnumber
    · rfl
  have hname : commandName ([] :: head :: [' '] :: parts) = head := by
    rw [commandName, hnumbered]
    exact trim_blank hne hhead
  unfold parseLine
  simp only [htrim, hcode, hupper, hparts, hname, hne, false_and, if_false,
    isTraditionalCommand_of_isRun hne hhead, rawCommandParameters_head (upper_of_isRun hhead)]
  simp

/-- A command has the name that stands at the head of its line. -/
theorem commandName_of_parseLine {text : Text} {c : Command} {comment : Option Text}
    (h : parseLine cases text = .command c comment) :
    commandName (splitArgs (cases.upper ((Text.trim text).takeWhile (· ≠ ';')))) = c.name := by
  unfold parseLine at h
  dsimp only at h
  split_ifs at h
  · split at h <;> cases h
  · obtain rfl := (LineBody.command.inj h).1
    rfl
  · obtain rfl := (LineBody.command.inj h).1
    rfl
  · obtain rfl := (LineBody.command.inj h).1
    rfl

end Heads

section Tokens

/-- A character between the words of a line. -/
def isBetween (c : Char) : Bool := !isRun c && c != '*'

/-- The text is over, or a word or a star begins. -/
def AtToken (s : Text) : Prop := ∀ c ∈ s.head?, isBetween c = false

theorem isBetween_of_isWhitespace {c : Char} (hc : Text.isWhitespace c = true) :
    isBetween c = true := by
  have hrun : isRun c = false := by
    by_contra h
    rw [isWhitespace_of_isRun (Bool.not_eq_false _ ▸ h)] at hc
    cases hc
  have hstar : c ≠ '*' := by
    rintro rfl
    exact absurd hc (by decide)
  simp [isBetween, hrun, hstar]

theorem splitArgsFrom_between {text more rest : Text} (hmore : ∀ c ∈ more, isBetween c = true) :
    splitArgsFrom text none (more ++ rest) = splitArgsFrom (text ++ more) none rest := by
  induction more generalizing text with
  | nil => rw [List.nil_append, List.append_nil]
  | cons c more ih =>
    have hc := hmore c List.mem_cons_self
    simp only [isBetween, Bool.and_eq_true, Bool.not_eq_true', bne_iff_ne] at hc
    rw [List.cons_append, splitArgsFrom, if_neg (by simp [hc.1]), if_neg hc.2,
      ih (fun d hd => hmore d (List.mem_cons_of_mem _ hd)), List.append_assoc,
      List.singleton_append]

/-- The first part of a line is what stands before its first word. -/
theorem splitArgs_between {text rest : Text} (htext : ∀ c ∈ text, isBetween c = true)
    (hrest : AtToken rest) : ∃ parts, splitArgs (text ++ rest) = text :: parts := by
  rw [splitArgs, splitArgsFrom_between htext, List.nil_append]
  cases rest with
  | nil => exact ⟨[], rfl⟩
  | cons c rest =>
    have hc := hrest c rfl
    by_cases hrun : isRun c = true
    · obtain ⟨parts, hparts⟩ := splitArgsFrom_some text [c] rest
      exact ⟨parts, by rw [splitArgsFrom, if_pos hrun, hparts]⟩
    · obtain rfl : c = '*' := by simpa [isBetween, hrun] using hc
      exact ⟨_, by rw [splitArgsFrom, if_neg hrun, if_pos rfl]⟩

theorem splitArgs_star {text rest : Text} (htext : ∀ c ∈ text, isBetween c = true) :
    splitArgs (text ++ '*' :: rest) = text :: ['*'] :: splitArgs rest := by
  rw [splitArgs, splitArgsFrom_between htext, List.nil_append, splitArgsFrom,
    if_neg (by decide), if_pos rfl, splitArgs]

/-- A word is as long as it can be. -/
theorem splitArgs_word {text word rest : Text} (htext : ∀ c ∈ text, isBetween c = true)
    (hne : word ≠ []) (hword : ∀ c ∈ word, isRun c = true) (hrest : ∀ c ∈ rest.head?, isRun c = false) :
    splitArgs (text ++ word ++ rest) = text :: word :: splitArgs rest := by
  obtain ⟨c, word, rfl⟩ := List.exists_cons_of_ne_nil hne
  rw [List.append_assoc, splitArgs, splitArgsFrom_between htext, List.nil_append, List.cons_append,
    splitArgsFrom, if_pos (hword c List.mem_cons_self),
    splitArgsFrom_run (fun d hd => hword d (List.mem_cons_of_mem _ hd)), List.singleton_append]
  cases rest with
  | nil => rfl
  | cons d rest =>
    have hd : ¬ isRun d = true := by simp [hrest d rfl]
    simp only [splitArgs, splitArgsFrom, if_neg hd, List.nil_append]
    split <;> rfl

/-- Every line is its text before the first token, alone or with a star or a word behind it. -/
theorem exists_splitArgs (s : Text) : ∃ text, (∀ c ∈ text, isBetween c = true) ∧
    (s = text ∧ splitArgs s = [text] ∨
      (∃ rest, s = text ++ '*' :: rest ∧ splitArgs s = text :: ['*'] :: splitArgs rest) ∨
      ∃ word rest, s = text ++ word ++ rest ∧ word ≠ [] ∧ (∀ c ∈ word, isRun c = true) ∧
        (∀ c ∈ rest.head?, isRun c = false) ∧ splitArgs s = text :: word :: splitArgs rest) := by
  have hsplit : s = s.takeWhile isBetween ++ s.dropWhile isBetween := List.takeWhile_append_dropWhile.symm
  have htext : ∀ c ∈ s.takeWhile isBetween, isBetween c = true := fun c hc => List.mem_takeWhile_imp hc
  refine ⟨s.takeWhile isBetween, htext, ?_⟩
  cases hrest : s.dropWhile isBetween with
  | nil =>
    rw [hrest, List.append_nil] at hsplit
    refine .inl ⟨hsplit, ?_⟩
    have hall := @splitArgsFrom_between [] (s.takeWhile isBetween) [] htext
    rw [List.append_nil, List.nil_append, ← hsplit] at hall
    rw [splitArgs, hall, ← hsplit]
    rfl
  | cons c rest =>
    have hc : isBetween c = false := by
      have hhead := List.head_dropWhile_not isBetween (l := s) (by rw [hrest]; simp)
      simpa [hrest] using hhead
    rw [hrest] at hsplit
    by_cases hrun : isRun c = true
    · right; right
      have hword : c :: rest = (c :: rest).takeWhile isRun ++ (c :: rest).dropWhile isRun :=
        List.takeWhile_append_dropWhile.symm
      have hne : (c :: rest).takeWhile isRun ≠ [] := by simp [hrun]
      have hall : ∀ d ∈ (c :: rest).takeWhile isRun, isRun d = true :=
        fun d hd => List.mem_takeWhile_imp hd
      have hstop : ∀ d ∈ ((c :: rest).dropWhile isRun).head?, isRun d = false := by
        intro d hd
        have hhead := List.head?_dropWhile_not isRun (c :: rest)
        rw [hd] at hhead
        exact hhead
      rw [hword, ← List.append_assoc] at hsplit
      refine ⟨_, _, hsplit, hne, hall, hstop, ?_⟩
      have hparts := splitArgs_word htext hne hall hstop
      rwa [← hsplit] at hparts
    · right; left
      obtain rfl : c = '*' := by simpa [isBetween, hrun] using hc
      refine ⟨rest, hsplit, ?_⟩
      have hparts := @splitArgs_star _ rest htext
      rwa [← hsplit] at hparts

end Tokens

section Parameters

variable {cases : CaseMapping}

/-- A parameter as it is written. -/
def paramWord (p : Text × Text) : Text := p.1 ++ '=' :: p.2

/-- The key is a word of letters, and nothing in the value has to be quoted. -/
structure IsParam (p : Text × Text) : Prop where
  nonempty : p.1 ≠ []
  key : ∀ c ∈ p.1, isRun c = true
  value : ∀ c ∈ p.2, Shell.isPlain c = true

theorem isPlain_of_isRun {c : Char} (hc : isRun c = true) : Shell.isPlain c = true := by
  have hne (d : Char) (hd : isRun d = false) : c ≠ d := ne_of_isRun hc hd
  simp [Shell.isPlain, Shell.isComment, isWhitespace_of_isRun hc, hne ';' (by decide),
    hne '#' (by decide), hne '\'' (by decide), hne '"' (by decide), hne '\\' (by decide)]

/-- What stands before the value is a word of its own. -/
theorem isPlainWord_key {key : Text} (hkey : ∀ c ∈ key, isRun c = true) :
    Shell.IsPlainWord (key ++ ['=']) := by
  refine ⟨by simp, fun c hc => ?_⟩
  rcases List.mem_append.mp hc with hc | hc
  · exact isPlain_of_isRun (hkey c hc)
  · obtain rfl := List.mem_singleton.mp hc
    decide

theorem IsParam.word {p : Text × Text} (h : IsParam p) : Shell.IsPlainWord (paramWord p) := by
  have hkey := isPlainWord_key h.key
  refine ⟨by simp [paramWord], fun c hc => ?_⟩
  rw [paramWord, List.append_cons] at hc
  rcases List.mem_append.mp hc with hc | hc
  · exact hkey.2 c hc
  · exact h.value c hc

theorem splitOnce_word {key value : Text} (hkey : ∀ c ∈ key, isRun c = true) :
    splitOnce (key ++ '=' :: value) = some (key, value) := by
  have hpos : ∀ c ∈ key, decide (c ≠ '=') = true :=
    fun c hc => decide_eq_true (ne_of_isRun (hkey c hc) (by decide))
  rw [splitOnce, List.dropWhile_append_of_pos hpos, List.takeWhile_append_of_pos hpos,
    List.dropWhile_cons_of_neg (by decide), List.takeWhile_cons_of_neg (by decide), List.append_nil]

theorem keyValue_word {key value : Text} (hkey : ∀ c ∈ key, isRun c = true) :
    keyValue cases (key ++ '=' :: value) = some (key, value) := by
  rw [keyValue, splitOnce_word hkey, Option.map_some, upper_of_isRun hkey]

theorem mapM_keyValue {params : List (Text × Text)} (hparams : ∀ p ∈ params, IsParam p) :
    (params.map paramWord).mapM (keyValue cases) = some params := by
  induction params with
  | nil => rfl
  | cons p params ih =>
    have hhead := hparams p List.mem_cons_self
    have htail := ih (fun q hq => hparams q (List.mem_cons_of_mem _ hq))
    have hword : keyValue cases (paramWord p) = some p := keyValue_word hhead.key
    rw [List.map_cons, List.mapM_cons, hword, htail]
    rfl

/-- The parameters of a command that names something, and what they are read as. -/
theorem shlexKv_named {key name : Text} {params : List (Text × Text)}
    (hkey : ∀ c ∈ key, isRun c = true) (hparams : ∀ p ∈ params, IsParam p)
    (hname : ∀ c ∈ name, Shell.isPlain c = true) :
    shlexKv cases (paramWord (key, name) ++ Shell.spaced (params.map paramWord)) =
      some ((key, name) :: params) := by
  have hws : ∀ w ∈ params.map paramWord, Shell.IsPlainWord w := by
    intro w hw
    obtain ⟨p, hp, rfl⟩ := List.mem_map.mp hw
    exact (hparams p hp).word
  have hwords := Shell.words_embedded (isPlainWord_key hkey) hname hws
  have hword : key ++ ['='] ++ name = paramWord (key, name) := by simp [paramWord]
  rw [hword] at hwords
  have hfirst : keyValue cases (paramWord (key, name)) = some (key, name) := keyValue_word hkey
  rw [shlexKv, hwords, Option.bind_some, List.mapM_cons, hfirst, mapM_keyValue hparams]
  rfl

theorem length_of_mapM {α β : Type} {f : α → Option β} {l : List α} {bs : List β}
    (h : l.mapM f = some bs) : l.length = bs.length := by
  induction l generalizing bs with
  | nil =>
    obtain rfl : [] = bs := Option.some.inj h
    rfl
  | cons a l ih =>
    rw [List.mapM_cons] at h
    simp only [Option.bind_eq_bind, Option.bind_eq_some_iff] at h
    obtain ⟨b, -, rest, hrest, hbs⟩ := h
    rw [← Option.some.inj hbs, List.length_cons, List.length_cons, ih hrest]

/-- A value that is read as long as a name is that name, with nothing to quote in it. -/
theorem isPlain_of_shlexKv {key written name : Text} {params found : List (Text × Text)}
    (hkey : ∀ c ∈ key, isRun c = true) (hparams : ∀ p ∈ params, IsParam p)
    (hlong : written.length ≤ name.length) (hfound : found.length = params.length)
    (h : shlexKv cases (paramWord (key, written) ++ Shell.spaced (params.map paramWord)) =
      some ((key, name) :: found)) :
    name = written ∧ ∀ c ∈ name, Shell.isPlain c = true := by
  have hws : ∀ w ∈ params.map paramWord, Shell.IsPlainWord w := by
    intro w hw
    obtain ⟨p, hp, rfl⟩ := List.mem_map.mp hw
    exact (hparams p hp).word
  have hbefore := isPlainWord_key hkey
  have hshape : paramWord (key, written) = key ++ ['='] ++ written := by simp [paramWord]
  rw [shlexKv, hshape, Option.bind_eq_some_iff] at h
  obtain ⟨ws, hwords, hpairs⟩ := h
  cases ws with
  | nil => cases hpairs
  | cons first vs =>
    have hlength := length_of_mapM hpairs
    rw [List.mapM_cons] at hpairs
    simp only [Option.bind_eq_bind, Option.bind_eq_some_iff] at hpairs
    obtain ⟨pair, hpair, rest, -, hcons⟩ := hpairs
    obtain ⟨rfl, -⟩ := List.cons.inj (Option.some.inj hcons)
    have hfirst : first = key ++ ['='] ++ name := by
      rw [List.append_assoc] at hwords
      obtain ⟨value, rfl⟩ := Shell.prefix_of_words hbefore hwords
      rw [List.append_assoc, List.singleton_append, keyValue_word hkey] at hpair
      rw [(Prod.mk.inj (Option.some.inj hpair)).2]
    have hplain : ∀ c ∈ written, Shell.isPlain c = true := by
      refine Shell.isPlain_of_words hbefore hws ?_ ?_ hwords
      · rw [hfirst, @List.length_append _ (key ++ ['='])]
        omega
      · rw [List.length_map]
        simp only [List.length_cons] at hlength
        omega
    have hsame := Shell.words_embedded hbefore hplain hws
    rw [hwords, Option.some.injEq, List.cons.injEq, hfirst] at hsame
    obtain rfl := List.append_cancel_left hsame.1
    exact ⟨rfl, hplain⟩

end Parameters

end DeadReckoning.Gcode
