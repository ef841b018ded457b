import Mathlib.Data.List.Infix
import Mathlib.Data.List.DropRight

/-! Texts as lists of characters, with the string operations of the standard library that a
line-oriented program uses: splitting at blanks, searching, replacing and trimming. -/

abbrev Text := List Char

/-- The characters of a string literal, found by unification so that they evaluate at once. -/
def lit (s : String) {l : List Char} (_h : s = String.ofList l := by rfl) : Text := l

theorem lit_eq_toList (s : String) {l : List Char} (h : s = String.ofList l) :
    lit s h = s.toList := by
  subst h
  rw [lit, String.toList_ofList]

namespace Text

-- The characters of a text are few, those of the type are not.
instance (priority := high) (s : Text) (p : Char → Prop) [DecidablePred p] :
    Decidable (∀ c ∈ s, p c) := List.decidableBAll p s

/-- The Unicode `White_Space` property. -/
def isWhitespace (c : Char) : Bool :=
  let n := c.toNat
  (9 ≤ n && n ≤ 13) || n == 32 || n == 0x85 || n == 0xA0 || n == 0x1680 ||
    (0x2000 ≤ n && n ≤ 0x200A) || n == 0x2028 || n == 0x2029 || n == 0x202F ||
    n == 0x205F || n == 0x3000

/-- The Unicode general category `Cc`. -/
def isControl (c : Char) : Bool :=
  let n := c.toNat
  n < 32 || (127 ≤ n && n < 160)

def upper (s : Text) : Text := s.map Char.toUpper

/-- The maximal runs of characters that are not whitespace. -/
def words (s : Text) : List Text :=
  (s.splitOnP isWhitespace).filter (fun w => !w.isEmpty)

/-- The text without its whitespace at either end. -/
def trim (s : Text) : Text := (s.dropWhile isWhitespace).rdropWhile isWhitespace

/-- What follows the given beginning, when the text has it. -/
def stripPrefix : Text → Text → Option Text
  | [], s => some s
  | _ :: _, [] => none
  | a :: beginning, b :: s => if a = b then stripPrefix beginning s else none

/-- Whether `pat` occurs in the text. -/
def contains (s pat : Text) : Bool :=
  match s with
  | [] => pat.isEmpty
  | c :: cs => pat.isPrefixOf (c :: cs) || contains cs pat

/-- Copies the text from left to right and puts `rep` where `pat` begins; `skip` characters
of the last occurrence are still to be dropped. -/
def replaceFrom (pat rep : Text) : ℕ → Text → Text
  | _, [] => []
  | skip + 1, _ :: cs => replaceFrom pat rep skip cs
  | 0, c :: cs =>
      if pat.isPrefixOf (c :: cs) then rep ++ replaceFrom pat rep (pat.length - 1) cs
      else c :: replaceFrom pat rep 0 cs

/-- Every occurrence of a non-empty `pat`, found from the left, replaced by `rep`. -/
def replace (s pat rep : Text) : Text := replaceFrom pat rep 0 s

theorem stripPrefix_eq_some {beginning s rest : Text} :
    stripPrefix beginning s = some rest ↔ s = beginning ++ rest := by
  induction beginning generalizing s with
  | nil => simp [stripPrefix, eq_comm]
  | cons a beginning ih =>
    cases s with
    | nil => simp [stripPrefix]
    | cons b s =>
      by_cases hab : a = b
      · subst hab
        simp [stripPrefix, ih]
      · simp only [stripPrefix, if_neg hab, List.cons_append, List.cons.injEq]
        constructor
        · nofun
        · rintro ⟨rfl, -⟩
          exact absurd rfl hab

theorem contains_iff {s pat : Text} : contains s pat = true ↔ pat <:+: s := by
  induction s with
  | nil => simp [contains]
  | cons c cs ih => simp [contains, List.infix_cons_iff, ih]

theorem contains_eq_false {s pat : Text} : contains s pat = false ↔ ¬ pat <:+: s := by
  rw [← contains_iff, Bool.not_eq_true]

section Replace

variable {pat rep q : Text}

@[simp] theorem replace_nil : replace [] pat rep = [] := rfl

/-- A text that cannot start inside `rep` starts where the original starts with it. -/
theorem prefix_of_prefix_replaceFrom (hrep : rep ≠ []) (hq : ∀ c ∈ rep, c ∉ q) {s : Text}
    (h : q <+: replaceFrom pat rep 0 s) : q <+: s := by
  induction s generalizing q with
  | nil => exact h
  | cons c cs ih =>
    cases q with
    | nil => exact List.nil_prefix
    | cons d q =>
      rw [replaceFrom] at h
      split at h
      · obtain ⟨r, rep, rfl⟩ := List.exists_cons_of_ne_nil hrep
        rw [List.cons_append, List.cons_prefix_cons] at h
        exact absurd (h.1 ▸ List.mem_cons_self) (hq r List.mem_cons_self)
      · rw [List.cons_prefix_cons] at h ⊢
        exact ⟨h.1, ih (fun c hc hmem => hq c hc (List.mem_cons_of_mem _ hmem)) h.2⟩

theorem infix_of_infix_append (hq : ∀ c ∈ rep, c ∉ q) (hne : q ≠ []) {s : Text}
    (h : q <:+: rep ++ s) : q <:+: s := by
  induction rep with
  | nil => exact h
  | cons r rep ih =>
    have htail := ih (fun c hc => hq c (List.mem_cons_of_mem _ hc))
    rw [List.cons_append, List.infix_cons_iff] at h
    rcases h with hpre | hinf
    · obtain ⟨d, q, rfl⟩ := List.exists_cons_of_ne_nil hne
      rw [List.cons_prefix_cons] at hpre
      exact absurd (hpre.1 ▸ List.mem_cons_self) (hq r List.mem_cons_self)
    · exact htail hinf

/-- Replacing creates no occurrence of a text that shares no character with `rep`. -/
theorem infix_of_infix_replaceFrom (hrep : rep ≠ []) (hq : ∀ c ∈ rep, c ∉ q) (hne : q ≠ [])
    {skip : ℕ} {s : Text} (h : q <:+: replaceFrom pat rep skip s) : q <:+: s := by
  induction s generalizing skip with
  | nil => exact h
  | cons c cs ih =>
    rw [List.infix_cons_iff]
    cases skip with
    | succ skip => exact .inr (ih h)
    | zero =>
      rw [replaceFrom] at h
      split at h
      · exact .inr (ih (infix_of_infix_append hq hne h))
      · rw [List.infix_cons_iff] at h
        rcases h with hpre | hinf
        · obtain ⟨d, q, rfl⟩ := List.exists_cons_of_ne_nil hne
          rw [List.cons_prefix_cons] at hpre
          have hrest := prefix_of_prefix_replaceFrom hrep
            (fun c hc hmem => hq c hc (List.mem_cons_of_mem _ hmem)) hpre.2
          exact .inl (List.cons_prefix_cons.mpr ⟨hpre.1, hrest⟩)
        · exact .inr (ih hinf)

theorem infix_of_infix_replace (hrep : rep ≠ []) (hq : ∀ c ∈ rep, c ∉ q) (hne : q ≠ [])
    {s : Text} (h : q <:+: replace s pat rep) : q <:+: s :=
  infix_of_infix_replaceFrom hrep hq hne h

/-- No occurrence is left when `rep` shares no character with what it replaces. -/
theorem not_infix_replaceFrom (hrep : rep ≠ []) (hpat : ∀ c ∈ rep, c ∉ pat) (hne : pat ≠ [])
    {skip : ℕ} {s : Text} : ¬ pat <:+: replaceFrom pat rep skip s := by
  induction s generalizing skip with
  | nil => simpa [replaceFrom] using hne
  | cons c cs ih =>
    intro h
    cases skip with
    | succ skip => exact ih h
    | zero =>
      rw [replaceFrom] at h
      split at h
      · exact ih (infix_of_infix_append hpat hne h)
      · rename_i hno
        rw [List.infix_cons_iff] at h
        rcases h with hpre | hinf
        · obtain ⟨d, pat, rfl⟩ := List.exists_cons_of_ne_nil hne
          rw [List.cons_prefix_cons] at hpre
          have hrest := prefix_of_prefix_replaceFrom hrep
            (fun c hc hmem => hpat c hc (List.mem_cons_of_mem _ hmem)) hpre.2
          exact hno (List.isPrefixOf_iff_prefix.mpr (List.cons_prefix_cons.mpr ⟨hpre.1, hrest⟩))
        · exact ih hinf

theorem not_infix_replace (hrep : rep ≠ []) (hpat : ∀ c ∈ rep, c ∉ pat) (hne : pat ≠ [])
    {s : Text} : ¬ pat <:+: replace s pat rep :=
  not_infix_replaceFrom hrep hpat hne

theorem mem_replaceFrom {c : Char} {skip : ℕ} {s : Text} (h : c ∈ replaceFrom pat rep skip s) :
    c ∈ s ∨ c ∈ rep := by
  induction s generalizing skip with
  | nil => exact .inl h
  | cons d cs ih =>
    have htail {skip : ℕ} (hc : c ∈ replaceFrom pat rep skip cs) : c ∈ d :: cs ∨ c ∈ rep :=
      (ih hc).imp (List.mem_cons_of_mem d) id
    cases skip with
    | succ skip => exact htail h
    | zero =>
      rw [replaceFrom] at h
      split at h
      · rcases List.mem_append.mp h with h | h
        · exact .inr h
        · exact htail h
      · rcases List.mem_cons.mp h with rfl | h
        · exact .inl List.mem_cons_self
        · exact htail h

/-- Replacing brings no other characters than those of `rep`. -/
theorem mem_replace {c : Char} {s : Text} (h : c ∈ replace s pat rep) : c ∈ s ∨ c ∈ rep :=
  mem_replaceFrom h

/-- A text without an occurrence is copied. -/
theorem replaceFrom_of_not_infix {s : Text} (h : ¬ pat <:+: s) : replaceFrom pat rep 0 s = s := by
  induction s with
  | nil => rfl
  | cons c cs ih =>
    rw [List.infix_cons_iff, not_or] at h
    rw [replaceFrom, if_neg (fun hpre => h.1 (List.isPrefixOf_iff_prefix.mp hpre)), ih h.2]

theorem replace_of_not_contains {s : Text} (h : contains s pat = false) :
    replace s pat rep = s :=
  replaceFrom_of_not_infix (contains_eq_false.mp h)

/-- Text in which `pat` cannot begin is copied. -/
theorem replace_append {a s : Text} {c : Char} {cs : Text} (ha : c ∉ a) :
    replace (a ++ s) (c :: cs) rep = a ++ replace s (c :: cs) rep := by
  induction a with
  | nil => rfl
  | cons d a ih =>
    have hd : c ≠ d := fun h => ha (h ▸ List.mem_cons_self)
    have htail := ih (fun h => ha (List.mem_cons_of_mem _ h))
    rw [List.cons_append, replace, replaceFrom, if_neg (by simp [List.isPrefixOf, hd])]
    exact congrArg (List.cons d) htail

theorem replaceFrom_drop {a s : Text} : replaceFrom pat rep a.length (a ++ s) =
    replaceFrom pat rep 0 s := by
  induction a with
  | nil => rfl
  | cons c a ih => exact ih

theorem replace_self_append {c : Char} {cs s : Text} :
    replace ((c :: cs) ++ s) (c :: cs) rep = rep ++ replace s (c :: cs) rep := by
  have hpre : (c :: cs).isPrefixOf ((c :: cs) ++ s) = true := by
    simp [List.isPrefixOf_iff_prefix]
  rw [List.cons_append] at hpre ⊢
  rw [replace, replaceFrom, if_pos hpre]
  exact congrArg (rep ++ ·) replaceFrom_drop

theorem replace_end {a : Text} {c : Char} {cs : Text} (ha : c ∉ a) :
    replace (a ++ c :: cs) (c :: cs) rep = a ++ rep := by
  have hself : replace (c :: cs) (c :: cs) rep = rep := by
    have hfirst := @replace_self_append rep c cs []
    rwa [List.append_nil, replace_nil, List.append_nil] at hfirst
  rw [replace_append ha, hself]

theorem replace_of_notMem {a : Text} {c : Char} {cs : Text} (ha : c ∉ a) :
    replace a (c :: cs) rep = a := by
  simpa using @replace_append rep a [] c cs ha

end Replace

theorem contains_eq_false_of_notMem {s : Text} {c : Char} {cs : Text} (h : c ∉ s) :
    contains s (c :: cs) = false := by
  rw [contains_eq_false]
  intro hinf
  exact h (hinf.subset List.mem_cons_self)

section Words

/-- A blank separates the words on its left from those on its right. -/
theorem words_append_cons {a b : Text} {c : Char} (hc : isWhitespace c = true) :
    words (a ++ c :: b) = words a ++ words b := by
  rw [words, List.splitOnP_append_cons _ _ hc, List.filter_append]
  rfl

theorem words_of_forall {w : Text} (hw : ∀ x ∈ w, isWhitespace x = false) (hne : w ≠ []) :
    words w = [w] := by
  rw [words, List.splitOnP_eq_singleton hw, List.filter_cons_of_pos (by simpa using hne),
    List.filter_nil]

@[simp] theorem words_nil : words [] = [] := rfl

/-! The letters of ASCII, spelled out. -/

theorem isUpper_eq (c : Char) : c.isUpper = decide (c.val ≥ 'A'.val ∧ c.val ≤ 'Z'.val) := rfl

theorem isLower_eq (c : Char) : c.isLower = (decide (c.val ≥ 'a'.val) && decide (c.val ≤ 'z'.val)) :=
  rfl

theorem isAlpha_eq (c : Char) : c.isAlpha = (c.isUpper || c.isLower) := rfl

theorem toUpper_small {c : Char} (h : 'a'.val ≤ c.val ∧ c.val ≤ 'z'.val) :
    c.toUpper.val = c.val + ('A'.val - 'a'.val) := by
  delta Char.toUpper
  rw [dif_pos h]

theorem toUpper_other {c : Char} (h : ¬('a'.val ≤ c.val ∧ c.val ≤ 'z'.val)) : c.toUpper = c :=
  dif_neg h

theorem toLower_other {c : Char} (h : ¬('A'.val ≤ c.val ∧ c.val ≤ 'Z'.val)) : c.toLower = c :=
  dif_neg h

/-- The upper case of a small letter. -/
theorem toNat_toUpper {c : Char} (h : 'a'.val ≤ c.val ∧ c.val ≤ 'z'.val) :
    97 ≤ c.toNat ∧ c.toNat ≤ 122 ∧ c.toUpper.toNat = c.toNat - 32 := by
  have hlow : 97 ≤ c.toNat := h.1
  have hhigh : c.toNat ≤ 122 := h.2
  have hval : c.toUpper.val = c.val + ('A'.val - 'a'.val) := toUpper_small h
  have hnat : c.toUpper.toNat = (c.val + ('A'.val - 'a'.val)).toNat := congrArg UInt32.toNat hval
  have hshift : ('A'.val - 'a'.val).toNat = 4294967264 := by decide
  refine ⟨hlow, hhigh, ?_⟩
  rw [hnat, UInt32.toNat_add, hshift]
  change (c.toNat + 4294967264) % 2 ^ 32 = _
  omega

/-- The case of a character does not make it a blank. -/
theorem isWhitespace_toUpper (c : Char) : isWhitespace c.toUpper = isWhitespace c := by
  by_cases h : 'a'.val ≤ c.val ∧ c.val ≤ 'z'.val
  · obtain ⟨hlow, hhigh, hupper⟩ := toNat_toUpper h
    have hplain : ∀ d : Char, 65 ≤ d.toNat → d.toNat ≤ 122 → isWhitespace d = false := by
      intro d hd hd'
      simp only [isWhitespace, Bool.or_eq_false_iff, Bool.and_eq_false_iff,
        decide_eq_false_iff_not, beq_eq_false_iff_ne]
      omega
    rw [hplain c (by omega) hhigh, hplain c.toUpper (by omega) (by omega)]
  · rw [toUpper_other h]

end Words

section Trim

/-- Trimming cuts blanks at either end. -/
theorem exists_trim (s : Text) : ∃ a b, s = a ++ trim s ++ b ∧ (∀ c ∈ a, isWhitespace c = true) ∧
    ∀ c ∈ b, isWhitespace c = true := by
  have hleft : s = s.takeWhile isWhitespace ++ s.dropWhile isWhitespace :=
    List.takeWhile_append_dropWhile.symm
  have hright : s.dropWhile isWhitespace = trim s ++ (s.dropWhile isWhitespace).rtakeWhile
      isWhitespace := List.rdropWhile_append_rtakeWhile.symm
  refine ⟨s.takeWhile isWhitespace, (s.dropWhile isWhitespace).rtakeWhile isWhitespace, ?_,
    fun c hc => List.mem_takeWhile_imp hc, fun c hc => List.mem_rtakeWhile_imp hc⟩
  rw [List.append_assoc, ← hright, ← hleft]

/-- Blanks around a text are cut, up to its first and its last character. -/
theorem trim_append {a w b : Text} (ha : ∀ c ∈ a, isWhitespace c = true)
    (hb : ∀ c ∈ b, isWhitespace c = true) (hne : w ≠ [])
    (hfirst : isWhitespace (w.head hne) = false) (hlast : isWhitespace (w.getLast hne) = false) :
    trim (a ++ w ++ b) = w := by
  obtain ⟨c, rest, rfl⟩ := List.exists_cons_of_ne_nil hne
  have hdrop : (a ++ (c :: rest) ++ b).dropWhile isWhitespace = c :: rest ++ b := by
    rw [List.append_assoc, List.dropWhile_append_of_pos ha, List.cons_append,
      List.dropWhile_cons_of_neg (by simpa using hfirst)]
  rw [trim, hdrop]
  induction b using List.reverseRecOn with
  | nil =>
    rw [List.append_nil, List.rdropWhile_eq_self_iff]
    exact fun _ => by simpa using hlast
  | append_singleton b d ih =>
    have hd := hb d (by simp)
    rw [← List.append_assoc, List.rdropWhile_concat_pos _ _ _ hd]
    apply ih (fun c hc => hb c (by simp [hc]))
    rw [List.append_assoc, List.dropWhile_append_of_pos ha, List.cons_append,
      List.dropWhile_cons_of_neg (by simpa using hfirst)]

/-- A text that has no blank at either end is its own trim. -/
theorem trim_eq_self {w : Text} (hfirst : ∀ c ∈ w.head?, isWhitespace c = false)
    (hlast : ∀ c ∈ w.getLast?, isWhitespace c = false) : trim w = w := by
  by_cases hne : w = []
  · rw [hne]
    rfl
  · have htrim := trim_append (a := []) (w := w) (b := []) (by simp) (by simp) hne
      (hfirst _ (List.head?_eq_some_head hne)) (hlast _ (List.getLast?_eq_some_getLast hne))
    rwa [List.nil_append, List.append_nil] at htrim

/-- And a trim has none. -/
theorem trim_head_solid (s : Text) : ∀ c ∈ (trim s).head?, isWhitespace c = false := by
  intro c hc
  have hprefix : trim s <+: s.dropWhile isWhitespace := List.rdropWhile_prefix _ _
  have hhead := List.head?_dropWhile_not isWhitespace s
  obtain ⟨rest, hrest⟩ := hprefix
  rw [← hrest, List.head?_append, hc] at hhead
  exact hhead

theorem rdropWhile_last_solid (s : Text) :
    ∀ c ∈ (s.rdropWhile isWhitespace).getLast?, isWhitespace c = false := by
  intro c hc
  have hne : s.rdropWhile isWhitespace ≠ [] := by
    rintro hnil
    rw [hnil] at hc
    cases hc
  have hlast := List.rdropWhile_last_not isWhitespace s hne
  have hself : c = (s.rdropWhile isWhitespace).getLast hne :=
    Option.some.inj (hc.symm.trans (List.getLast?_eq_some_getLast hne))
  rw [hself, ← Bool.not_eq_true]
  exact hlast

theorem trim_last_solid (s : Text) : ∀ c ∈ (trim s).getLast?, isWhitespace c = false :=
  rdropWhile_last_solid _

theorem trim_trim (s : Text) : trim (trim s) = trim s :=
  trim_eq_self (trim_head_solid s) (trim_last_solid s)

end Trim

end Text
