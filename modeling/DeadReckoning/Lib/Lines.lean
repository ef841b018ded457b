import Mathlib.Data.List.Basic
import Mathlib.Data.List.Sort

/-! Lists taken apart at separators and put together again: what the pieces hold, when two lists
of lines are the same text, the one sorted list of the members of another, and the entries of a
list by their keys. -/
namespace Lines

variable {α β : Type*}

section Pieces

variable {p q : α → Bool} {l : List α} {c : α}

/-- The pieces hold what does not separate, and nothing else. -/
theorem exists_mem_splitOnP : (∃ piece ∈ l.splitOnP p, c ∈ piece) ↔ c ∈ l ∧ p c = false := by
  induction l with
  | nil => simp
  | cons x l ih =>
    rw [List.splitOnP_cons_eq_if_modifyHead]
    by_cases hx : p x = true
    · rw [if_pos hx]
      simp only [List.mem_cons, exists_eq_or_imp, List.not_mem_nil, false_or, ih]
      constructor
      · rintro ⟨hc, hp⟩
        exact ⟨.inr hc, hp⟩
      · rintro ⟨rfl | hc, hp⟩
        · rw [hx] at hp
          cases hp
        · exact ⟨hc, hp⟩
    · rw [if_neg hx]
      obtain ⟨first, rest, hsplit⟩ := List.exists_cons_of_ne_nil (List.splitOnP_ne_nil p l)
      rw [hsplit] at ih ⊢
      simp only [List.modifyHead_cons, List.mem_cons, exists_eq_or_imp] at ih ⊢
      constructor
      · rintro ((rfl | hc) | hrest)
        · exact ⟨.inl rfl, by simpa using hx⟩
        · have := ih.mp (.inl hc)
          exact ⟨.inr this.1, this.2⟩
        · have := ih.mp (.inr hrest)
          exact ⟨.inr this.1, this.2⟩
      · rintro ⟨rfl | hc, hp⟩
        · exact .inl (.inl rfl)
        · rcases ih.mpr ⟨hc, hp⟩ with h | h
          · exact .inl (.inr h)
          · exact .inr h

theorem splitOnP_congr (h : ∀ x ∈ l, p x = q x) : l.splitOnP p = l.splitOnP q := by
  induction l with
  | nil => rfl
  | cons x l ih =>
    have htail := ih fun y hy => h y (List.mem_cons_of_mem _ hy)
    rw [List.splitOnP_cons_eq_if_modifyHead, List.splitOnP_cons_eq_if_modifyHead,
      h x List.mem_cons_self, htail]

theorem mem_intercalate {blank : α} {ls : List (List α)} (hc : c ∈ List.intercalate [blank] ls) :
    c = blank ∨ ∃ l ∈ ls, c ∈ l := by
  induction ls with
  | nil => simp at hc
  | cons first ls ih =>
    cases ls with
    | nil => exact .inr ⟨first, List.mem_cons_self, by simpa using hc⟩
    | cons second ls =>
      rw [List.intercalate_cons_cons, List.append_assoc, List.mem_append] at hc
      rcases hc with hc | hc
      · exact .inr ⟨first, List.mem_cons_self, hc⟩
      rcases List.mem_cons.mp hc with rfl | hc
      · exact .inl rfl
      · rcases ih hc with rfl | ⟨l, hl, hcl⟩
        · exact .inl rfl
        · exact .inr ⟨l, List.mem_cons_of_mem _ hl, hcl⟩

theorem mem_intercalate_of_mem {blank : α} {ls : List (List α)} (hl : l ∈ ls) (hc : c ∈ l) :
    c ∈ List.intercalate [blank] ls := by
  induction ls with
  | nil => cases hl
  | cons first ls ih =>
    cases ls with
    | nil => simpa [List.mem_singleton.mp hl] using hc
    | cons second ls =>
      rw [List.intercalate_cons_cons]
      rcases List.mem_cons.mp hl with rfl | hl
      · exact List.mem_append_left _ (List.mem_append_left _ hc)
      · exact List.mem_append_right _ (ih hl)

/-- The pieces that are not empty, with one blank between each two. -/
def collapse (p : α → Bool) (blank : α) (l : List α) : List α :=
  List.intercalate [blank] ((l.splitOnP p).filter fun piece => !piece.isEmpty)

theorem mem_collapse {blank : α} (hc : c ∈ collapse p blank l) :
    c = blank ∨ (c ∈ l ∧ p c = false) := by
  rcases mem_intercalate hc with rfl | ⟨piece, hpiece, hc⟩
  · exact .inl rfl
  · exact .inr (exists_mem_splitOnP.mp ⟨piece, List.mem_of_mem_filter hpiece, hc⟩)

theorem mem_collapse_of_mem {blank : α} (hc : c ∈ l) (hp : p c = false) :
    c ∈ collapse p blank l := by
  obtain ⟨piece, hpiece, hcpiece⟩ := exists_mem_splitOnP.mpr ⟨hc, hp⟩
  have hne : (!piece.isEmpty) = true := by
    simpa using List.ne_nil_of_mem hcpiece
  exact mem_intercalate_of_mem (List.mem_filter.mpr ⟨hpiece, hne⟩) hcpiece

end Pieces

section Joined

variable {sep : α} {head f g : β → List α}

/-- The first separator is where two texts that begin without one are cut. -/
theorem append_sep_inj {a b rest rest' : List α} (ha : sep ∉ a) (hb : sep ∉ b) :
    a ++ sep :: rest = b ++ sep :: rest' ↔ a = b ∧ rest = rest' := by
  constructor
  · intro h
    rcases List.append_eq_append_iff.mp h with ⟨t, ht, hrest⟩ | ⟨t, ht, hrest⟩
    · cases t with
      | nil => simp_all
      | cons d t =>
        rw [List.cons_append, List.cons.injEq] at hrest
        exact absurd (by simp [ht, hrest.1]) hb
    · cases t with
      | nil => simp_all
      | cons d t =>
        rw [List.cons_append, List.cons.injEq] at hrest
        exact absurd (by simp [ht, hrest.1]) ha
  · rintro ⟨rfl, rfl⟩
    rfl

/-- Lines that begin alike and do not hold the separator are one text only if they end alike. -/
theorem intercalate_eq_iff {items : List β} (hf : ∀ x ∈ items, sep ∉ f x)
    (hg : ∀ x ∈ items, sep ∉ g x) :
    List.intercalate [sep] (items.map fun x => head x ++ f x) =
      List.intercalate [sep] (items.map fun x => head x ++ g x) ↔ ∀ x ∈ items, f x = g x := by
  induction items with
  | nil => simp
  | cons x items ih =>
    have htail := ih (fun y hy => hf y (List.mem_cons_of_mem _ hy))
      (fun y hy => hg y (List.mem_cons_of_mem _ hy))
    cases items with
    | nil => simp
    | cons y items =>
      simp only [List.map_cons, List.intercalate_cons_cons] at htail ⊢
      simp only [List.append_assoc, List.singleton_append, List.append_cancel_left_eq]
      rw [append_sep_inj (hf x List.mem_cons_self) (hg x List.mem_cons_self), htail]
      simp

end Joined

section Sorted

variable {le : α → α → Bool} (trans : ∀ a b c, le a b → le b c → le a c)
  (total : ∀ a b, le a b || le b a) (antisymm : ∀ a b, le a b → le b a → a = b)

include trans total antisymm

theorem mergeSort_eq_iff {l l' : List α} : l.mergeSort le = l'.mergeSort le ↔ l.Perm l' := by
  constructor
  · intro h
    have hl := l.mergeSort_perm le
    rw [h] at hl
    exact hl.symm.trans (l'.mergeSort_perm le)
  · intro h
    refine List.Perm.eq_of_pairwise (fun a b _ _ => antisymm a b)
      (List.pairwise_mergeSort trans total l) (List.pairwise_mergeSort trans total l') ?_
    exact (l.mergeSort_perm le).trans (h.trans (l'.mergeSort_perm le).symm)

theorem filter_mergeSort (p : α → Bool) (l : List α) :
    (l.mergeSort le).filter p = (l.filter p).mergeSort le := by
  refine List.Perm.eq_of_pairwise (fun a b _ _ => antisymm a b)
    ((List.pairwise_mergeSort trans total l).filter p)
    (List.pairwise_mergeSort trans total _) ?_
  exact ((l.mergeSort_perm le).filter p).trans ((l.filter p).mergeSort_perm le).symm

end Sorted

theorem filter_singleton_perm_iff {p : α → Bool} {a b : α} :
    ([a].filter p).Perm ([b].filter p) ↔ a = b ∨ (p a = false ∧ p b = false) := by
  by_cases hab : a = b
  · simp [hab]
  · cases ha : p a <;> cases hb : p b
    · simp [ha, hb]
    · simp [ha, hb, hab]
    · simp [ha, hb, hab]
    · simp [ha, hb, hab]

section Keys

variable [BEq α] [LawfulBEq α]

/-- Where no two entries have one key, looking a key up finds its entry. -/
theorem lookup_eq_some_iff_mem {l : List (α × β)} (hkeys : (l.map Prod.fst).Nodup) {key : α}
    {value : β} : l.lookup key = some value ↔ (key, value) ∈ l := by
  induction l with
  | nil => simp
  | cons entry l ih =>
    obtain ⟨first, v⟩ := entry
    rw [List.map_cons, List.nodup_cons] at hkeys
    rw [List.lookup_cons, List.mem_cons, Prod.mk.injEq]
    by_cases hkey : key = first
    · subst hkey
      have hnot : (key, value) ∉ l := fun h => hkeys.1 (List.mem_map.mpr ⟨_, h, rfl⟩)
      simp [hnot, eq_comm]
    · have hother : (key == first) = false := beq_eq_false_iff_ne.mpr hkey
      simp [hother, hkey, ih hkeys.2]

theorem lookup_isSome_iff_mem {l : List (α × β)} {key : α} :
    (l.lookup key).isSome = true ↔ key ∈ l.map Prod.fst := by
  rw [List.lookup_isSome_iff, List.mem_map]
  constructor
  · rintro ⟨entry, hentry, hkey⟩
    exact ⟨entry, hentry, (eq_of_beq hkey).symm⟩
  · rintro ⟨entry, hentry, rfl⟩
    exact ⟨entry, hentry, beq_self_eq_true _⟩

end Keys

end Lines
