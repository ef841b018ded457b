import DeadReckoning.Lib.Text
import Mathlib.Tactic.Ring

/-! The words of a line by the rules of a POSIX shell: blanks separate them, quotes and
backslashes take their meaning from characters, and a comment ends the line. -/
namespace Shell

inductive Mode where
  | plain
  | single
  | double
  | escaped
  | doubleEscaped
  | comment
  deriving DecidableEq

/-- The words that are complete, and the one that is being read. -/
structure State where
  mode : Mode
  words : List Text
  word : Option Text
  deriving DecidableEq

def start : State := ⟨.plain, [], none⟩

def isComment (c : Char) : Bool := c = ';' || c = '#'

/-- A character that only stands for itself. -/
def isPlain (c : Char) : Bool :=
  !(Text.isWhitespace c || isComment c || c = '\'' || c = '"' || c = '\\')

namespace State

/-- The word that is being read, ended. -/
def flush (s : State) : State := { s with words := s.words ++ s.word.toList, word := none }

def push (s : State) (t : Text) : State := { s with word := some (s.word.getD [] ++ t) }

def enter (s : State) (mode : Mode) : State := { s with mode := mode }

def step (s : State) (c : Char) : State :=
  match s.mode with
  | .plain =>
      if Text.isWhitespace c then s.flush
      else if isComment c then s.flush.enter .comment
      else if c = '\'' then (s.push []).enter .single
      else if c = '"' then (s.push []).enter .double
      else if c = '\\' then (s.push []).enter .escaped
      else s.push [c]
  | .single => if c = '\'' then s.enter .plain else s.push [c]
  | .double =>
      if c = '"' then s.enter .plain
      else if c = '\\' then s.enter .doubleEscaped
      else s.push [c]
  | .escaped => (s.push [c]).enter .plain
  | .doubleEscaped =>
      -- Only the quote and the backslash lose the backslash before them.
      (s.push (if c = '"' || c = '\\' then [c] else ['\\', c])).enter .double
  | .comment => s

/-- The words at the end of the line, none inside quotes or behind a backslash. -/
def finish (s : State) : Option (List Text) :=
  match s.mode with
  | .plain | .comment => some (s.words ++ s.word.toList)
  | .single | .double | .escaped | .doubleEscaped => none

end State

def words (s : Text) : Option (List Text) := (s.foldl State.step start).finish

section Reading

variable {vs : List Text} {cur : Text}

theorem step_plain {c : Char} (hc : isPlain c = true) {word : Option Text} :
    State.step ⟨.plain, vs, word⟩ c = ⟨.plain, vs, some (word.getD [] ++ [c])⟩ := by
  simp only [isPlain, Bool.not_eq_true', Bool.or_eq_false_iff, decide_eq_false_iff_not] at hc
  obtain ⟨⟨⟨⟨hblank, hcomment⟩, hsingle⟩, hdouble⟩, hslash⟩ := hc
  simp [State.step, State.push, hblank, hcomment, hsingle, hdouble, hslash]

theorem foldl_plain {w : Text} (hw : ∀ c ∈ w, isPlain c = true) :
    w.foldl State.step ⟨.plain, vs, some cur⟩ = ⟨.plain, vs, some (cur ++ w)⟩ := by
  induction w generalizing cur with
  | nil => rw [List.foldl_nil, List.append_nil]
  | cons c w ih =>
    rw [List.foldl_cons, step_plain (hw c List.mem_cons_self), Option.getD_some,
      ih (fun d hd => hw d (List.mem_cons_of_mem _ hd)), List.append_assoc, List.singleton_append]

theorem foldl_plain_none {w : Text} (hw : ∀ c ∈ w, isPlain c = true) (hne : w ≠ []) :
    w.foldl State.step ⟨.plain, vs, none⟩ = ⟨.plain, vs, some w⟩ := by
  obtain ⟨c, w, rfl⟩ := List.exists_cons_of_ne_nil hne
  rw [List.foldl_cons, step_plain (hw c List.mem_cons_self), Option.getD_none, List.nil_append,
    foldl_plain (fun d hd => hw d (List.mem_cons_of_mem _ hd)), List.singleton_append]

/-- Words that have nothing to quote, each behind a blank. -/
def spaced (ws : List Text) : Text := ws.flatMap (' ' :: ·)

/-- A word in which every character stands for itself. -/
def IsPlainWord (w : Text) : Prop := w ≠ [] ∧ ∀ c ∈ w, isPlain c = true

theorem foldl_spaced {ws : List Text} (hws : ∀ w ∈ ws, IsPlainWord w) :
    ((spaced ws).foldl State.step ⟨.plain, vs, some cur⟩).finish = some (vs ++ cur :: ws) := by
  induction ws generalizing vs cur with
  | nil => rfl
  | cons w ws ih =>
    obtain ⟨hne, hplain⟩ := hws w List.mem_cons_self
    have hblank : State.step ⟨.plain, vs, some cur⟩ ' ' = ⟨.plain, vs ++ [cur], none⟩ := rfl
    show (((' ' :: w) ++ spaced ws).foldl State.step ⟨.plain, vs, some cur⟩).finish = _
    rw [List.foldl_append, List.foldl_cons, hblank, foldl_plain_none hplain hne,
      ih (fun v hv => hws v (List.mem_cons_of_mem _ hv)), List.append_assoc, List.singleton_append]

/-- Between double quotes only the quote and the backslash are special. -/
theorem foldl_quoted {quoted : Text} (hquoted : ∀ c ∈ quoted, c ≠ '"' ∧ c ≠ '\\') :
    ('"' :: quoted ++ ['"']).foldl State.step ⟨.plain, vs, some cur⟩ =
      ⟨.plain, vs, some (cur ++ quoted)⟩ := by
  have hinside : quoted.foldl State.step ⟨.double, vs, some cur⟩ =
      ⟨.double, vs, some (cur ++ quoted)⟩ := by
    induction quoted generalizing cur with
    | nil => rw [List.foldl_nil, List.append_nil]
    | cons c quoted ih =>
      obtain ⟨hquote, hslash⟩ := hquoted c List.mem_cons_self
      have hpush : State.step ⟨.double, vs, some cur⟩ c = ⟨.double, vs, some (cur ++ [c])⟩ := by
        simp [State.step, State.push, hquote, hslash]
      rw [List.foldl_cons, hpush, ih (fun d hd => hquoted d (List.mem_cons_of_mem _ hd)),
        List.append_assoc, List.singleton_append]
  have hopen : State.step ⟨.plain, vs, some cur⟩ '"' = ⟨.double, vs, some cur⟩ := by
    show (⟨.double, vs, some (cur ++ [])⟩ : State) = _
    rw [List.append_nil]
  rw [List.cons_append, List.foldl_cons, hopen, List.foldl_append, hinside]
  rfl

end Reading

section Length

/-- A backslash that waits for the character behind it has not been put into the word. -/
def Mode.pending (mode : Mode) : ℕ := if mode = .doubleEscaped then 1 else 0

namespace State

/-- How many characters have gone into words, with one for the end of each complete word. -/
def stored (s : State) : ℕ := (s.words.map (·.length + 1)).sum + (s.word.getD []).length

/-- The characters that the words account for, the waiting backslash included. -/
def size (s : State) : ℕ := s.stored + s.mode.pending

@[simp] theorem stored_push (s : State) (t : Text) : (s.push t).stored = s.stored + t.length := by
  simp [stored, push, Nat.add_assoc]

@[simp] theorem stored_enter (s : State) (mode : Mode) : (s.enter mode).stored = s.stored := rfl

@[simp] theorem mode_push (s : State) (t : Text) : (s.push t).mode = s.mode := rfl
@[simp] theorem mode_enter (s : State) (mode : Mode) : (s.enter mode).mode = mode := rfl
@[simp] theorem mode_flush (s : State) : s.flush.mode = s.mode := rfl
@[simp] theorem words_push (s : State) (t : Text) : (s.push t).words = s.words := rfl
@[simp] theorem words_enter (s : State) (mode : Mode) : (s.enter mode).words = s.words := rfl

theorem stored_flush (s : State) : s.flush.stored ≤ s.stored + 1 := by
  cases hword : s.word with
  | none => simp [stored, flush, hword]
  | some w => simp [stored, flush, hword, Nat.add_assoc]

/-- No character counts twice. -/
theorem size_step (s : State) (c : Char) : (s.step c).size ≤ s.size + 1 := by
  have hflush := stored_flush s
  obtain ⟨mode, ws, word⟩ := s
  unfold size step
  cases mode with
  | plain =>
    dsimp only
    split_ifs <;> simp [Mode.pending] <;> omega
  | single | double =>
    dsimp only
    split_ifs <;> simp [Mode.pending]
  | escaped => simp [Mode.pending]
  | doubleEscaped =>
    dsimp only
    split_ifs <;> simp [Mode.pending]
  | comment => simp

theorem size_foldl (l : Text) (s : State) : (l.foldl step s).size ≤ s.size + l.length := by
  induction l generalizing s with
  | nil => rfl
  | cons c l ih =>
    have hone := size_step s c
    have hrest := ih (s.step c)
    rw [List.foldl_cons, List.length_cons]
    omega

/-- Complete words stay. -/
theorem words_step (s : State) (c : Char) : s.words <+: (s.step c).words := by
  obtain ⟨mode, ws, word⟩ := s
  unfold step
  cases mode with
  | plain =>
    dsimp only
    split_ifs <;> simp [flush]
  | single | double =>
    dsimp only
    split_ifs <;> simp
  | escaped | doubleEscaped | comment => simp

theorem words_foldl (l : Text) (s : State) : s.words <+: (l.foldl step s).words := by
  induction l generalizing s with
  | nil => exact List.prefix_refl _
  | cons c l ih => exact (words_step s c).trans (ih _)

/-- A word is being read, or is complete; there is no comment before that. -/
def Begun (s : State) : Prop := s.words = [] → s.word.isSome = true ∧ s.mode ≠ .comment

theorem begun_step {s : State} (h : s.Begun) (c : Char) : (s.step c).Begun := by
  obtain ⟨mode, ws, word⟩ := s
  intro hnone
  have hws : ws = [] := List.prefix_nil.mp (hnone ▸ words_step ⟨mode, ws, word⟩ c)
  obtain ⟨hword, hmode⟩ := h hws
  obtain ⟨w, rfl⟩ := Option.isSome_iff_exists.mp hword
  unfold step at hnone ⊢
  cases mode with
  | plain =>
    dsimp only at hnone ⊢
    split_ifs at hnone ⊢ <;> simp_all [flush, enter, push]
  | single | double =>
    dsimp only at hnone ⊢
    split_ifs <;> simp [enter, push]
  | escaped | doubleEscaped => simp [enter, push]
  | comment => exact absurd rfl hmode

theorem begun_foldl (l : Text) {s : State} (h : s.Begun) : (l.foldl step s).Begun := by
  induction l generalizing s with
  | nil => exact h
  | cons c l ih => exact ih (begun_step h c)

/-- Outside quotes, only a character that stands for itself makes the word longer. -/
theorem plain_of_grows {s : State} {c : Char} (hmode : s.mode = .plain)
    (hkeep : (s.step c).words = s.words) (hgrow : s.size + 1 ≤ (s.step c).size) :
    isPlain c = true := by
  obtain ⟨mode, ws, word⟩ := s
  obtain rfl : mode = .plain := hmode
  have hflush : (flush ⟨.plain, ws, word⟩).words = ws →
      (flush ⟨.plain, ws, word⟩).stored = stored ⟨.plain, ws, word⟩ := by
    intro h
    have hnone : word = none := by simpa [flush] using h
    simp [flush, hnone]
  by_contra hc
  simp only [isPlain, Bool.not_eq_true', Bool.not_eq_false] at hc
  unfold step at hkeep hgrow
  dsimp only at hkeep hgrow
  split_ifs at hkeep hgrow with hblank hcomment hsingle hdouble hslash
  · have hsame := hflush hkeep
    simp [size, hsame] at hgrow
  · have hsame := hflush hkeep
    simp [size, hsame, Mode.pending] at hgrow
  all_goals simp_all [size, Mode.pending]

/-- When every character went into the word, each one stood for itself. -/
theorem isPlain_of_size {l : Text} {s : State} (hmode : s.mode = .plain)
    (hwords : (l.foldl step s).words = s.words)
    (hsize : s.size + l.length ≤ (l.foldl step s).size) : ∀ c ∈ l, isPlain c = true := by
  induction l generalizing s with
  | nil => nofun
  | cons c l ih =>
    rw [List.foldl_cons] at hwords hsize
    rw [List.length_cons] at hsize
    have hone := size_step s c
    have hrest := size_foldl l (s.step c)
    have hkeep : (s.step c).words = s.words :=
      ((words_foldl l (s.step c)).trans (hwords ▸ List.prefix_refl _)).eq_of_length_le
        (words_step s c).length_le
    have hgrow : s.size + 1 ≤ (s.step c).size := by omega
    have hc : isPlain c = true := plain_of_grows hmode hkeep hgrow
    have hnext : (s.step c).mode = .plain := by
      obtain ⟨mode, ws, word⟩ := s
      obtain rfl : mode = .plain := hmode
      rw [step_plain hc]
    intro d hd
    rcases List.mem_cons.mp hd with rfl | hd
    · exact hc
    · exact ih hnext (hwords.trans hkeep.symm) (by omega) d hd

/-- An open quote stays open over characters that are no quotes. -/
theorem quoted_foldl {l : Text} (hl : ∀ c ∈ l, c ≠ '\'' ∧ c ≠ '"') {s : State}
    (hmode : s.mode = .single ∨ s.mode = .double ∨ s.mode = .doubleEscaped) :
    (l.foldl step s).finish = none := by
  induction l generalizing s with
  | nil =>
    rw [List.foldl_nil, finish]
    rcases hmode with hmode | hmode | hmode <;> rw [hmode]
  | cons c l ih =>
    obtain ⟨hsingle, hdouble⟩ := hl c List.mem_cons_self
    apply ih (fun d hd => hl d (List.mem_cons_of_mem _ hd))
    unfold step
    rcases hmode with hmode | hmode | hmode
    · simp [hmode, hsingle]
    · simp only [hmode, hdouble, if_false]
      split_ifs <;> simp [hmode]
    · simp [hmode]

/-- The complete words and the one that is being read. -/
def all (s : State) : List Text := s.words ++ s.word.toList

/-- The first word begins with the text. -/
def Opens (before : Text) (s : State) : Prop := ∃ w rest, s.all = w :: rest ∧ before <+: w

theorem all_flush (s : State) : s.flush.all = s.all := by
  simp [all, flush]

theorem Opens.push {before : Text} {s : State} (h : s.Opens before) (t : Text) :
    (s.push t).Opens before := by
  obtain ⟨w, rest, hall, hw⟩ := h
  obtain ⟨mode, ws, word⟩ := s
  cases ws with
  | cons v ws =>
    obtain rfl : v = w := (List.cons.inj hall).1
    exact ⟨v, _, rfl, hw⟩
  | nil =>
    cases word with
    | none => cases hall
    | some v =>
      obtain rfl : v = w := (List.cons.inj hall).1
      exact ⟨v ++ t, [], rfl, hw.trans (List.prefix_append _ _)⟩

theorem Opens.step {before : Text} {s : State} (h : s.Opens before) (c : Char) :
    (s.step c).Opens before := by
  have hflush : s.flush.Opens before := by
    obtain ⟨w, rest, hall, hw⟩ := h
    exact ⟨w, rest, (all_flush s).trans hall, hw⟩
  unfold State.step
  split
  · split_ifs
    · exact hflush
    · exact hflush
    · exact h.push []
    · exact h.push []
    · exact h.push []
    · exact h.push [c]
  · split_ifs
    · exact h
    · exact h.push [c]
  · split_ifs
    · exact h
    · exact h
    · exact h.push [c]
  · exact h.push [c]
  · exact h.push _
  · exact h

theorem opens_foldl {before : Text} (l : Text) {s : State} (h : s.Opens before) :
    (l.foldl State.step s).Opens before := by
  induction l generalizing s with
  | nil => exact h
  | cons c l ih => exact ih (h.step c)

end State

end Length

section Embedding

variable {before name : Text} {ws : List Text}

/-- A name of characters that stand for themselves ends the word it is written in. -/
theorem words_embedded (hbefore : IsPlainWord before) (hname : ∀ c ∈ name, isPlain c = true)
    (hws : ∀ w ∈ ws, IsPlainWord w) :
    words (before ++ name ++ spaced ws) = some ((before ++ name) :: ws) := by
  rw [words, List.foldl_append, List.foldl_append, start,
    foldl_plain_none hbefore.2 hbefore.1, foldl_plain hname, foldl_spaced hws, List.nil_append]

theorem noQuote_of_mem_spaced (hws : ∀ w ∈ ws, IsPlainWord w) :
    ∀ c ∈ spaced ws, c ≠ '\'' ∧ c ≠ '"' := by
  intro c hc
  obtain ⟨w, hw, hc⟩ := List.mem_flatMap.mp hc
  rcases List.mem_cons.mp hc with rfl | hc
  · decide
  · have hplain := (hws w hw).2 c hc
    constructor
    · rintro rfl
      exact absurd hplain (by decide)
    · rintro rfl
      exact absurd hplain (by decide)

theorem words_of_finish {l : Text} {s : State} {vs : List Text}
    (h : (l.foldl State.step s).finish = some vs) : s.words <+: vs := by
  have hwords := State.words_foldl l s
  generalize l.foldl State.step s = t at h hwords
  unfold State.finish at h
  split at h
  · exact hwords.trans (Option.some.inj h ▸ List.prefix_append _ _)
  · exact hwords.trans (Option.some.inj h ▸ List.prefix_append _ _)
  all_goals cases h

/-- A backslash at the end of the name takes the next word into this one. -/
theorem finish_escaped {t : Text} {vs : List Text} (hws : ∀ w ∈ ws, IsPlainWord w)
    (h : ((spaced ws).foldl State.step ⟨.escaped, [], some t⟩).finish = some vs) :
    vs.length = ws.length := by
  cases ws with
  | nil => cases h
  | cons w ws =>
    have hplain := (hws w List.mem_cons_self).2
    have hblank : State.step ⟨.escaped, [], some t⟩ ' ' = ⟨.plain, [], some (t ++ [' '])⟩ := rfl
    change (((' ' :: w) ++ spaced ws).foldl State.step ⟨.escaped, [], some t⟩).finish = _ at h
    rw [List.foldl_append, List.foldl_cons, hblank, foldl_plain hplain,
      foldl_spaced (fun v hv => hws v (List.mem_cons_of_mem _ hv))] at h
    rw [← Option.some.inj h]
    rfl

/-- Only such a name makes the first word as long as it is. -/
theorem isPlain_of_words (hbefore : IsPlainWord before) (hws : ∀ w ∈ ws, IsPlainWord w)
    {first : Text} {vs : List Text} (hlong : before.length + name.length ≤ first.length)
    (hlength : vs.length = ws.length)
    (h : words (before ++ name ++ spaced ws) = some (first :: vs)) :
    ∀ c ∈ name, isPlain c = true := by
  rw [words, List.foldl_append, List.foldl_append, start,
    foldl_plain_none hbefore.2 hbefore.1] at h
  let s₀ : State := ⟨.plain, [], some before⟩
  have hstart : s₀.size = before.length := by simp [s₀, State.size, State.stored, Mode.pending]
  have hsize := State.size_foldl name s₀
  have hbegun : (name.foldl State.step s₀).Begun := State.begun_foldl name (fun _ => ⟨rfl, nofun⟩)
  have hplain := @State.isPlain_of_size name s₀ rfl
  change ((spaced ws).foldl State.step (name.foldl State.step s₀)).finish = _ at h
  generalize name.foldl State.step s₀ = s at *
  obtain ⟨mode, done, word⟩ := s
  have hnone : done = [] := by
    rcases done with _ | ⟨w, done⟩
    · rfl
    · -- A complete word would be longer than what was read.
      obtain rfl : w = first := (List.cons_prefix_cons.mp (words_of_finish h)).1
      simp [State.size, State.stored] at hsize
      simp [State.size, State.stored] at hstart
      omega
  subst hnone
  obtain ⟨hword, hcomment⟩ := hbegun rfl
  obtain ⟨t, rfl⟩ := Option.isSome_iff_exists.mp hword
  cases mode with
  | plain =>
    rw [foldl_spaced hws, List.nil_append, Option.some.injEq, List.cons.injEq] at h
    apply hplain rfl
    rw [hstart, h.1]
    simpa [State.size, State.stored, Mode.pending] using hlong
  | single | double | doubleEscaped =>
    rw [State.quoted_foldl (noQuote_of_mem_spaced hws) (by simp)] at h
    cases h
  | escaped =>
    have hfewer := finish_escaped hws h
    rw [List.length_cons] at hfewer
    omega
  | comment => exact absurd rfl hcomment

/-- What a line begins with is the beginning of its first word. -/
theorem prefix_of_words (hbefore : IsPlainWord before) {l first : Text} {vs : List Text}
    (h : words (before ++ l) = some (first :: vs)) : before <+: first := by
  rw [words, List.foldl_append, start, foldl_plain_none hbefore.2 hbefore.1] at h
  have hopens := State.opens_foldl (s := ⟨.plain, [], some before⟩) l
    ⟨before, [], rfl, List.prefix_refl _⟩
  generalize l.foldl State.step ⟨.plain, [], some before⟩ = s at h hopens
  obtain ⟨w, rest, hall, hw⟩ := hopens
  obtain rfl : w = first := by
    unfold State.finish at h
    split at h
    · exact (List.cons.inj (hall.symm.trans (Option.some.inj h))).1
    · exact (List.cons.inj (hall.symm.trans (Option.some.inj h))).1
    all_goals cases h
  exact hw

end Embedding

end Shell
