import Mathlib.Data.List.Sublists
import Mathlib.Order.WithBot

/-! The choices of a few entries of a list, and the first of the cheapest choices. -/
namespace Combinations

variable {α β : Type}

/-- The choices of `n` entries: those with the first entry, then those without it. -/
def combinations : ℕ → List α → List (List α)
  | 0, _ => [[]]
  | _ + 1, [] => []
  | n + 1, x :: xs => (combinations n xs).map (x :: ·) ++ combinations (n + 1) xs

theorem mem_combinations {n : ℕ} {l c : List α} :
    c ∈ combinations n l ↔ c.Sublist l ∧ c.length = n := by
  induction l generalizing n c with
  | nil => cases n <;> simp +contextual [combinations]
  | cons x xs ih =>
    cases n with
    | zero => simp +contextual [combinations]
    | succ n =>
      simp only [combinations, List.mem_append, List.mem_map, ih, List.sublist_cons_iff]
      constructor
      · rintro (⟨r, ⟨hsub, hlen⟩, rfl⟩ | ⟨hsub, hlen⟩)
        · exact ⟨.inr ⟨r, rfl, hsub⟩, by simp [hlen]⟩
        · exact ⟨.inl hsub, hlen⟩
      · rintro ⟨hsub | ⟨r, rfl, hsub⟩, hlen⟩
        · exact .inr ⟨hsub, hlen⟩
        · exact .inl ⟨r, ⟨hsub, by simpa using hlen⟩, rfl⟩

section Cheapest

variable [LinearOrder β] (cost : α → WithTop β)

/-- A scan keeps an entry and its cost, and takes another one only when that is cheaper. -/
def keepCheaper (kept : Option α × WithTop β) (a : α) : Option α × WithTop β :=
  if cost a < kept.2 then (some a, cost a) else kept

def cheapest (l : List α) : Option α := (l.foldl (keepCheaper cost) (none, ⊤)).1

theorem foldl_keepCheaper (l : List α) (kept : Option α × WithTop β) :
    ((l.foldl (keepCheaper cost) kept) = kept ∨
      ∃ a ∈ l, l.foldl (keepCheaper cost) kept = (some a, cost a)) ∧
    (l.foldl (keepCheaper cost) kept).2 ≤ kept.2 ∧
    ∀ a ∈ l, (l.foldl (keepCheaper cost) kept).2 ≤ cost a := by
  induction l generalizing kept with
  | nil => simp
  | cons a l ih =>
    obtain ⟨hfrom, hkept, hall⟩ := ih (keepCheaper cost kept a)
    have hstep : (keepCheaper cost kept a).2 ≤ kept.2 ∧ (keepCheaper cost kept a).2 ≤ cost a := by
      unfold keepCheaper
      split_ifs with hless
      · exact ⟨hless.le, le_rfl⟩
      · exact ⟨le_rfl, not_lt.mp hless⟩
    rw [List.foldl_cons]
    refine ⟨?_, hkept.trans hstep.1, List.forall_mem_cons.mpr ⟨hkept.trans hstep.2, hall⟩⟩
    rcases hfrom with hsame | ⟨b, hb, heq⟩
    · rw [hsame]
      unfold keepCheaper
      split_ifs
      · exact .inr ⟨a, List.mem_cons_self, rfl⟩
      · exact .inl rfl
    · exact .inr ⟨b, List.mem_cons_of_mem a hb, heq⟩

theorem cheapest_some {l : List α} {a : α} (h : cheapest cost l = some a) :
    a ∈ l ∧ ∀ b ∈ l, cost a ≤ cost b := by
  obtain ⟨hfrom, -, hall⟩ := foldl_keepCheaper cost l (none, ⊤)
  rcases hfrom with hnone | ⟨b, hb, heq⟩
  · rw [cheapest, hnone] at h
    cases h
  · rw [cheapest, heq] at h
    obtain rfl : b = a := Option.some.inj h
    rw [heq] at hall
    exact ⟨hb, hall⟩

theorem cheapest_none {l : List α} (h : cheapest cost l = none) : ∀ b ∈ l, cost b = ⊤ := by
  obtain ⟨hfrom, -, hall⟩ := foldl_keepCheaper cost l (none, ⊤)
  rcases hfrom with hnone | ⟨b, -, heq⟩
  · rw [hnone] at hall
    exact fun b hb => top_le_iff.mp (hall b hb)
  · rw [cheapest, heq] at h
    cases h

end Cheapest

end Combinations
