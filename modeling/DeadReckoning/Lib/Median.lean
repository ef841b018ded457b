import DeadReckoning.Lib.Numerals
import Mathlib.Algebra.Order.Field.Basic
import Mathlib.Data.List.Sort
import Mathlib.Tactic.Linarith
import Mathlib.Tactic.Ring

/-! The extremes and the median of a list of numbers. -/
namespace Median

variable {K : Type} [LinearOrder K]

theorem foldl_max_spec (a : K) (l : List K) :
    l.foldl max a ∈ a :: l ∧ ∀ x ∈ a :: l, x ≤ l.foldl max a := by
  have h : (a :: l).max? = some (l.foldl max a) := rfl
  exact List.max?_eq_some_iff.mp h

theorem foldl_min_spec (a : K) (l : List K) :
    l.foldl min a ∈ a :: l ∧ ∀ x ∈ a :: l, l.foldl min a ≤ x := by
  have h : (a :: l).min? = some (l.foldl min a) := rfl
  exact List.min?_eq_some_iff.mp h

variable [Field K]

/-- Half the way between the middle two, when there are two. -/
def median (values : List K) : Option K :=
  let ordered := values.insertionSort (· ≤ ·)
  let mid := ordered.length / 2
  if ordered.length % 2 = 1 then ordered[mid]?
  else do return ((← ordered[mid - 1]?) + (← ordered[mid]?)) / 2

variable [IsStrictOrderedRing K]

theorem median_between {values : List K} (hne : values ≠ []) :
    ∃ m, median values = some m ∧ ∃ lo ∈ values, ∃ hi ∈ values, lo ≤ m ∧ m ≤ hi := by
  have hpos : 0 < values.length := List.length_pos_iff.mpr hne
  have hsorted := values.pairwise_insertionSort (· ≤ ·)
  have hmem : ∀ (n : ℕ) (hn : n < (values.insertionSort (· ≤ ·)).length),
      (values.insertionSort (· ≤ ·))[n] ∈ values := fun n hn =>
    (List.mem_insertionSort (· ≤ ·)).mp (List.getElem_mem hn)
  have hlen : (values.insertionSort (· ≤ ·)).length = values.length :=
    List.length_insertionSort _ _
  have hmid : values.length / 2 < (values.insertionSort (· ≤ ·)).length := by omega
  unfold median
  dsimp only
  rw [hlen]
  split_ifs with hodd
  · rw [List.getElem?_eq_getElem hmid]
    exact ⟨_, rfl, _, hmem _ hmid, _, hmem _ hmid, le_rfl, le_rfl⟩
  · have hbefore : values.length / 2 - 1 < (values.insertionSort (· ≤ ·)).length := by omega
    rw [List.getElem?_eq_getElem hmid, List.getElem?_eq_getElem hbefore]
    have hle : (values.insertionSort (· ≤ ·))[values.length / 2 - 1] ≤
        (values.insertionSort (· ≤ ·))[values.length / 2] :=
      List.pairwise_iff_getElem.mp hsorted _ _ hbefore hmid (by omega)
    refine ⟨_, rfl, _, hmem _ hbefore, _, hmem _ hmid, ?_, ?_⟩
    · linarith
    · linarith

theorem median_map_add (d : K) (values : List K) :
    median (values.map (· + d)) = (median values).map (· + d) := by
  have hsort : (values.map (· + d)).insertionSort (· ≤ ·) =
      (values.insertionSort (· ≤ ·)).map (· + d) :=
    (List.map_insertionSort (· ≤ ·) (· ≤ ·) (· + d) values fun a _ b _ =>
      (add_le_add_iff_right d).symm).symm
  unfold median
  dsimp only
  rw [hsort, List.length_map]
  split_ifs with hodd
  · simp
  · simp only [List.getElem?_map]
    cases (values.insertionSort (· ≤ ·))[(values.insertionSort (· ≤ ·)).length / 2 - 1]? with
    | none => rfl
    | some a =>
      cases (values.insertionSort (· ≤ ·))[(values.insertionSort (· ≤ ·)).length / 2]? with
      | none => rfl
      | some b =>
        have hmid : (a + d + (b + d)) / 2 = (a + b) / 2 + d := by ring
        exact congrArg some hmid

end Median
