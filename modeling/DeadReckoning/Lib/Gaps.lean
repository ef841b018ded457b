import Mathlib.Data.List.MinMax
import Mathlib.Data.List.Sort

/-! The steps of a walk over a list, and the largest of them. -/
namespace Gaps

variable {α β : Type}

/-- Every element with the one before it, the start before the first. -/
def spans (start : α) : List α → List (α × α)
  | [] => []
  | a :: rest => (start, a) :: spans a rest

/-- Keeps the larger of two, when it is above the threshold; the first of two as large. -/
def keepLargest (size : β → ℕ) (least : ℕ) (kept : Option β) (b : β) : Option β :=
  if least < size b ∧ kept.all (fun k => size k < size b) then some b else kept

/-- A walk that carries the last element it has seen goes over the steps. -/
theorem foldl_carried (f : β → α → α → β) (start : α) (b : β) (l : List α) :
    l.foldl (fun s a => (a, f s.2 s.1 a)) (start, b) =
      (l.getLastD start, (spans start l).foldl (fun b span => f b span.1 span.2) b) := by
  induction l generalizing start b with
  | nil => rfl
  | cons a rest ih => simp only [List.foldl_cons, spans, ih, List.getLastD_cons]

theorem spans_append_singleton (start : α) (l : List α) (a : α) :
    spans start (l ++ [a]) = spans start l ++ [(l.getLastD start, a)] := by
  induction l generalizing start with
  | nil => rfl
  | cons b rest ih => simp only [List.cons_append, spans, ih, List.getLastD_cons]

theorem snd_mem_of_mem_spans {start : α} {l : List α} {span : α × α} (h : span ∈ spans start l) :
    span.2 ∈ l := by
  induction l generalizing start with
  | nil => simp [spans] at h
  | cons a rest ih =>
    rcases List.mem_cons.mp h with rfl | h
    · exact List.mem_cons_self
    · exact List.mem_cons_of_mem _ (ih h)

/-- A walk that starts at or below a bound and reaches an element above it steps across it. -/
theorem exists_crossing [LinearOrder α] {start a b : α} {l : List α} (hs : start ≤ a) (hb : b ∈ l)
    (hab : a < b) : ∃ span ∈ spans start l, span.1 ≤ a ∧ a < span.2 := by
  induction l generalizing start with
  | nil => simp at hb
  | cons c rest ih =>
    by_cases hc : a < c
    · exact ⟨(start, c), List.mem_cons_self, hs, hc⟩
    · have hb' : b ∈ rest := by
        rcases List.mem_cons.mp hb with rfl | hb
        · exact absurd hab hc
        · exact hb
      obtain ⟨span, hspan, hcross⟩ := ih (not_lt.mp hc) hb'
      exact ⟨span, List.mem_cons_of_mem _ hspan, hcross⟩

/-- Where no step is longer than a bound, every longer stretch has an element inside. -/
theorem exists_between {start d a b last : ℕ} {l : List ℕ}
    (h : ∀ span ∈ spans start (l ++ [last]), span.2 - span.1 ≤ d) (hs : start ≤ a) (hb : b ≤ last)
    (hd : d < b - a) : ∃ x ∈ l, a < x ∧ x < b := by
  have hlast : last ∈ l ++ [last] := by simp
  obtain ⟨span, hspan, hle, hlt⟩ := exists_crossing hs hlast (by omega : a < last)
  have hstep := h span hspan
  rcases List.mem_append.mp (snd_mem_of_mem_spans hspan) with hmem | hmem
  · exact ⟨span.2, hmem, hlt, by omega⟩
  · have heq := List.mem_singleton.mp hmem
    omega

section Largest

variable {size : β → ℕ} {least : ℕ}

/-- What a walk has kept: nothing while all is small, else a largest of all that it has seen. -/
def Kept (size : β → ℕ) (least : ℕ) (seen : β → Prop) : Option β → Prop
  | none => ∀ b, seen b → size b ≤ least
  | some k => seen k ∧ least < size k ∧ ∀ b, seen b → size b ≤ size k

theorem Kept.keepLargest {seen : β → Prop} {kept : Option β} (h : Kept size least seen kept)
    (b : β) : Kept size least (fun c => seen c ∨ c = b) (keepLargest size least kept b) := by
  unfold Gaps.keepLargest
  cases kept with
  | none =>
    by_cases hb : least < size b
    · rw [if_pos ⟨hb, rfl⟩]
      refine ⟨.inr rfl, hb, ?_⟩
      rintro c (hc | rfl)
      · exact (h c hc).trans hb.le
      · exact le_rfl
    · rw [if_neg (fun hand => hb hand.1)]
      rintro c (hc | rfl)
      · exact h c hc
      · exact not_lt.mp hb
  | some k =>
    obtain ⟨hk, hleast, hmax⟩ := h
    by_cases hb : size k < size b
    · rw [if_pos ⟨hleast.trans hb, by simpa using hb⟩]
      refine ⟨.inr rfl, hleast.trans hb, ?_⟩
      rintro c (hc | rfl)
      · exact (hmax c hc).trans hb.le
      · exact le_rfl
    · rw [if_neg (fun hand => hb (by simpa using hand.2))]
      refine ⟨.inl hk, hleast, ?_⟩
      rintro c (hc | rfl)
      · exact hmax c hc
      · exact not_lt.mp hb

theorem Kept.foldl {seen : β → Prop} {kept : Option β} (h : Kept size least seen kept)
    (l : List β) :
    Kept size least (fun c => seen c ∨ c ∈ l) (l.foldl (Gaps.keepLargest size least) kept) := by
  induction l generalizing seen kept with
  | nil => simpa using h
  | cons b rest ih =>
    have hrest := ih (h.keepLargest b)
    simpa only [or_assoc, List.mem_cons, List.foldl_cons] using hrest

theorem kept_foldl (size : β → ℕ) (least : ℕ) (l : List β) :
    Kept size least (· ∈ l) (l.foldl (Gaps.keepLargest size least) none) := by
  have hnone : Kept size least (fun _ : β => False) none := fun b hb => hb.elim
  simpa only [false_or] using hnone.foldl l

end Largest

/-- The last element up to a bound is the greatest, in a list in order. -/
theorem find?_reverse_eq_max? {l : List ℕ} (h : l.Pairwise (· ≤ ·)) (bound : ℕ) :
    l.reverse.find? (· ≤ bound) = (l.filter (· ≤ bound)).max? := by
  have hsorted : (l.filter (· ≤ bound)).reverse.Pairwise (fun a b => max a b = a) := by
    rw [List.pairwise_reverse]
    exact (h.filter _).imp fun hab => max_eq_left hab
  have hperm : (l.filter (· ≤ bound)).reverse.max? = (l.filter (· ≤ bound)).max? := by
    cases hmax : (l.filter (· ≤ bound)).max? with
    | none => simpa using hmax
    | some m => simpa only [List.max?_eq_some_iff, List.mem_reverse] using hmax
  rw [← hperm, List.max?_eq_head? hsorted, ← List.filter_reverse, List.head?_filter]

end Gaps
