import Mathlib.Data.List.MinMax
import Mathlib.Data.List.Sort

/-! One entry for each key: of the entries with a key the best one is kept, the first of several as
good. -/
namespace Collapse

variable {α κ β : Type} [LinearOrder κ] [LinearOrder β] (key : α → κ) (better : α → α → Bool)

/-- Puts an entry into a row in the order of the keys; it replaces the one with its key when it is
better. -/
def upsert (a : α) : List α → List α
  | [] => [a]
  | b :: row =>
      if key a < key b then a :: b :: row
      else if key a = key b then (if better a b then a else b) :: row
      else b :: upsert a row

def collapse (entries : List α) : List α :=
  entries.foldl (fun row a => upsert key better a row) []

/-- The entries in the order of the comparison, those as good as each other as they come. -/
def ranked (entries : List α) : List α := entries.insertionSort fun a b => better b a = false

variable {key better}

theorem of_mem_upsert {a b : α} {row : List α} (hb : b ∈ upsert key better a row) :
    b = a ∨ b ∈ row := by
  induction row with
  | nil => exact .inl (List.mem_singleton.mp hb)
  | cons c row ih =>
    rw [upsert] at hb
    split_ifs at hb
    · exact List.mem_cons.mp hb
    · rcases List.mem_cons.mp hb with rfl | hb
      · exact .inl rfl
      · exact .inr (List.mem_cons_of_mem _ hb)
    · exact .inr hb
    · rcases List.mem_cons.mp hb with rfl | hb
      · exact .inr List.mem_cons_self
      · exact (ih hb).imp id (List.mem_cons_of_mem _)

/-- The row stays in the order of the keys. -/
theorem upsert_sorted {row : List α} (h : row.Pairwise (key · < key ·)) (a : α) :
    (upsert key better a row).Pairwise (key · < key ·) := by
  induction row with
  | nil => exact List.pairwise_singleton _ _
  | cons b row ih =>
    obtain ⟨hb, hrow⟩ := List.pairwise_cons.mp h
    rw [upsert]
    by_cases hlt : key a < key b
    · rw [if_pos hlt]
      refine List.pairwise_cons.mpr ⟨fun c hc => ?_, h⟩
      rcases List.mem_cons.mp hc with rfl | hc
      · exact hlt
      · exact hlt.trans (hb c hc)
    rw [if_neg hlt]
    by_cases heq : key a = key b
    · rw [if_pos heq]
      refine List.pairwise_cons.mpr ⟨fun c hc => ?_, hrow⟩
      split
      · rw [heq]
        exact hb c hc
      · exact hb c hc
    · rw [if_neg heq]
      refine List.pairwise_cons.mpr ⟨fun c hc => ?_, ih hrow⟩
      rcases of_mem_upsert hc with rfl | hc
      · exact lt_of_le_of_ne (not_lt.mp hlt) (Ne.symm heq)
      · exact hb c hc

theorem collapse_sorted (entries : List α) :
    (collapse key better entries).Pairwise (key · < key ·) := by
  unfold collapse
  induction entries using List.reverseRecOn with
  | nil => exact List.Pairwise.nil
  | append_singleton entries a ih =>
    rw [List.foldl_append]
    exact upsert_sorted ih a

/-- The entry of a key, after one more entry. -/
theorem find_upsert {row : List α} (h : row.Pairwise (key · < key ·)) (a : α) (k : κ) :
    (upsert key better a row).find? (key · = k) =
      if key a = k then
        match row.find? (key · = k) with
        | none => some a
        | some b => if better a b then some a else some b
      else row.find? (key · = k) := by
  induction row with
  | nil =>
    by_cases hk : key a = k
    · simp [upsert, hk]
    · simp [upsert, hk]
  | cons b row ih =>
    obtain ⟨hb, hrow⟩ := List.pairwise_cons.mp h
    have hfar (hk : key a = k) (hle : key a ≤ key b) : row.find? (key · = k) = none := by
      rw [List.find?_eq_none]
      intro c hc
      have hlt := hle.trans_lt (hb c hc)
      simp only [decide_eq_true_eq]
      rintro rfl
      exact absurd hlt (by rw [hk]; exact lt_irrefl _)
    rw [upsert]
    by_cases hlt : key a < key b
    · rw [if_pos hlt]
      by_cases hk : key a = k
      · have hne : ¬ key b = k := by rw [← hk]; exact ne_of_gt hlt
        simp [hk, hne, hfar hk hlt.le]
      · simp [List.find?_cons, hk]
    rw [if_neg hlt]
    by_cases heq : key a = key b
    · rw [if_pos heq]
      by_cases hk : key a = k
      · have hbk : key b = k := heq ▸ hk
        by_cases hbetter : better a b = true
        · simp [hk, hbk, hbetter]
        · simp [hk, hbk, hbetter]
      · have hbk : ¬ key b = k := heq ▸ hk
        by_cases hbetter : better a b = true
        · simp [hk, hbk, hbetter]
        · simp [hk, hbk, hbetter]
    · rw [if_neg heq]
      by_cases hbk : key b = k
      · have hk : ¬ key a = k := by rw [← hbk]; exact heq
        simp [hbk, hk]
      · simp only [List.find?_cons, hbk, decide_false]
        exact ih hrow

section Ranked

variable {rank : α → β}

/-- The entry of a key is the first of the best with that key. -/
theorem find_collapse (hbetter : ∀ a b, better a b = true ↔ rank a < rank b) (entries : List α)
    (k : κ) :
    (collapse key better entries).find? (key · = k) =
      (entries.filter (key · = k)).argmin rank := by
  induction entries using List.reverseRecOn with
  | nil => rfl
  | append_singleton entries a ih =>
    have hsnoc : collapse key better (entries ++ [a]) =
        upsert key better a (collapse key better entries) := by
      rw [collapse, List.foldl_append]
      rfl
    rw [hsnoc, find_upsert (collapse_sorted entries), ih, List.filter_append]
    by_cases hk : key a = k
    · rw [if_pos hk]
      have hone : [a].filter (key · = k) = [a] := by simp [hk]
      rw [hone, List.argmin_concat]
      cases (entries.filter (key · = k)).argmin rank with
      | none => rfl
      | some b => simp only [hbetter]
    · rw [if_neg hk]
      have hnone : [a].filter (key · = k) = [] := by simp [hk]
      rw [hnone, List.append_nil]

/-- An entry stays exactly when it is the first of the best with its key. -/
theorem mem_collapse (hbetter : ∀ a b, better a b = true ↔ rank a < rank b) {entries : List α}
    {a : α} : a ∈ collapse key better entries ↔
      (entries.filter (key · = key a)).argmin rank = some a := by
  rw [← find_collapse hbetter]
  constructor
  · intro ha
    have hsorted := @collapse_sorted α κ _ key better entries
    generalize collapse key better entries = row at ha hsorted
    induction row with
    | nil => cases ha
    | cons b row ih =>
      obtain ⟨hb, hrow⟩ := List.pairwise_cons.mp hsorted
      rcases List.mem_cons.mp ha with rfl | ha
      · simp
      · rw [List.find?_cons_of_neg (by simpa using ne_of_lt (hb a ha))]
        exact ih ha hrow
  · exact List.mem_of_find?_eq_some

/-- Each key of an entry has one entry in the row, and no other key has one. -/
theorem key_mem_collapse (hbetter : ∀ a b, better a b = true ↔ rank a < rank b)
    {entries : List α} {k : κ} :
    (∃ a ∈ collapse key better entries, key a = k) ↔ ∃ a ∈ entries, key a = k := by
  constructor
  · rintro ⟨a, ha, rfl⟩
    have hmem := List.argmin_mem ((mem_collapse hbetter).mp ha)
    exact ⟨a, (List.mem_filter.mp hmem).1, rfl⟩
  · rintro ⟨a, ha, rfl⟩
    have hne : (entries.filter (key · = key a)) ≠ [] :=
      List.ne_nil_of_mem (List.mem_filter.mpr ⟨ha, by simp⟩)
    have hsome : (entries.filter (key · = key a)).argmin rank ≠ none := by
      rwa [ne_eq, List.argmin_eq_none]
    obtain ⟨b, hb⟩ := Option.ne_none_iff_exists'.mp hsome
    have hkey : key b = key a := by simpa using (List.mem_filter.mp (List.argmin_mem hb)).2
    exact ⟨b, (mem_collapse hbetter).mpr (by rwa [hkey]), hkey⟩

omit [LinearOrder β] in
theorem ranked_perm (entries : List α) : (ranked better entries).Perm entries :=
  List.perm_insertionSort _ _

theorem ranked_pairwise (hbetter : ∀ a b, better a b = true ↔ rank a < rank b)
    (entries : List α) : (ranked better entries).Pairwise (rank · ≤ rank ·) := by
  have hle (a b : α) : better b a = false ↔ rank a ≤ rank b := by
    rw [← not_lt, ← hbetter, Bool.not_eq_true]
  have htotal : Std.Total fun a b => better b a = false :=
    ⟨fun a b => by rw [hle, hle]; exact le_total _ _⟩
  have htrans : IsTrans α fun a b => better b a = false :=
    ⟨fun a b c hab hbc => (hle a c).mpr (((hle a b).mp hab).trans ((hle b c).mp hbc))⟩
  exact (List.pairwise_insertionSort _ entries).imp fun h => (hle _ _).mp h

end Ranked

end Collapse
