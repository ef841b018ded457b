import Mathlib.Data.List.MinMax
import Mathlib.Data.Prod.Lex
import Mathlib.Data.Set.Function
import Mathlib.Order.Compare

/-! A few entries of many, spread apart: again and again the entry is taken that is furthest from
those taken so far, of several as far the one with the smallest key. -/
namespace Sampling

variable {α τ κ β : Type} [DecidableEq τ] [LinearOrder κ] [LinearOrder β]
  (tag : α → τ) (key : α → κ) (spread : List α → α → β)

/-- The entry is further from what is chosen, or as far with a smaller key. -/
def beats (chosen : List α) (a b : α) : Bool :=
  match compare (spread chosen a) (spread chosen b) with
  | .gt => true
  | .eq => key a < key b
  | .lt => false

/-- The better of the best entry so far and one more, which does not count when it is chosen. -/
def keep (chosen : List α) (best : Option α) (a : α) : Option α :=
  if chosen.any (tag · = tag a) then best
  else
    match best with
    | none => some a
    | some b => if beats key spread chosen a b then some a else some b

def furthest (chosen candidates : List α) : Option α :=
  candidates.foldl (keep tag key spread chosen) none

/-- Chooses more entries as long as there is room and one is left. -/
def sample (candidates : List α) : ℕ → List α → List α
  | 0, chosen => chosen
  | room + 1, chosen =>
      match furthest tag key spread chosen candidates with
      | none => chosen
      | some a => sample candidates room (chosen ++ [a])

/-- Where no two entries share a value, the order in the list does not matter. -/
theorem argmin_perm {f : α → β} {l l' : List α} (h : l.Perm l')
    (hinj : ∀ a ∈ l, ∀ b ∈ l, f a = f b → a = b) : l.argmin f = l'.argmin f := by
  cases hl : l.argmin f with
  | none =>
    obtain rfl := List.argmin_eq_none.mp hl
    rw [h.symm.eq_nil]
    rfl
  | some a =>
    have ha := List.argmin_mem hl
    have hne : l'.argmin f ≠ none := by
      rw [ne_eq, List.argmin_eq_none]
      rintro rfl
      rw [h.eq_nil] at ha
      cases ha
    obtain ⟨b, hb⟩ := Option.ne_none_iff_exists'.mp hne
    have hb' := h.mem_iff.mpr (List.argmin_mem hb)
    rw [hb, hinj a ha b hb' (le_antisymm (List.le_of_mem_argmin hb' hl)
      (List.le_of_mem_argmin (h.mem_iff.mp ha) hb))]

/-- The order behind the choice: far before near, then by the key. -/
def rank (chosen : List α) (a : α) : Lex (βᵒᵈ × κ) := toLex (OrderDual.toDual (spread chosen a), key a)

variable {tag key spread}

theorem beats_iff {chosen : List α} {a b : α} :
    beats key spread chosen a b = true ↔ rank key spread chosen a < rank key spread chosen b := by
  rw [beats, rank, rank, Prod.Lex.toLex_lt_toLex, OrderDual.toDual_lt_toDual]
  cases h : compare (spread chosen a) (spread chosen b) with
  | lt =>
    have hlt := compare_lt_iff_lt.mp h
    simp [hlt.not_gt, hlt.ne]
  | eq => simp [compare_eq_iff_eq.mp h]
  | gt => simp [compare_gt_iff_gt.mp h]

theorem foldl_keep (chosen candidates : List α) (best : Option α) :
    candidates.foldl (keep tag key spread chosen) best =
      (candidates.filter fun a => !chosen.any (tag · = tag a)).foldl
        (List.argAux fun b c => rank key spread chosen b < rank key spread chosen c) best := by
  induction candidates generalizing best with
  | nil => rfl
  | cons a candidates ih =>
    rw [List.foldl_cons, ih]
    by_cases hchosen : chosen.any (tag · = tag a) = true
    · have hsame : keep tag key spread chosen best a = best := if_pos hchosen
      rw [List.filter_cons_of_neg (by simp [hchosen]), hsame]
    · rw [List.filter_cons_of_pos (by simpa using hchosen), List.foldl_cons]
      congr 1
      refine (if_neg hchosen).trans ?_
      cases best with
      | none => rfl
      | some b => simp only [List.argAux, beats_iff]

theorem furthest_eq (chosen candidates : List α) : furthest tag key spread chosen candidates =
    (candidates.filter fun a => !chosen.any (tag · = tag a)).argmin (rank key spread chosen) :=
  foldl_keep chosen candidates none

theorem mem_of_furthest {chosen candidates : List α} {a : α}
    (h : furthest tag key spread chosen candidates = some a) : a ∈ candidates := by
  rw [furthest_eq] at h
  exact (List.mem_filter.mp (List.argmin_mem h)).1

/-- What has been chosen stays, and the rest comes from the candidates. -/
theorem sample_cases (candidates : List α) (room : ℕ) (chosen : List α) :
    ∃ more, sample tag key spread candidates room chosen = chosen ++ more ∧ more.length ≤ room ∧
      ∀ a ∈ more, a ∈ candidates := by
  induction room generalizing chosen with
  | zero => exact ⟨[], by simp [sample], by simp, by simp⟩
  | succ room ih =>
    rw [sample]
    cases h : furthest tag key spread chosen candidates with
    | none => exact ⟨[], by simp, by simp, by simp⟩
    | some a =>
      obtain ⟨more, heq, hlength, hmem⟩ := ih (chosen ++ [a])
      refine ⟨a :: more, by simp [heq], by simpa using hlength, ?_⟩
      intro b hb
      rcases List.mem_cons.mp hb with rfl | hb
      · exact mem_of_furthest h
      · exact hmem b hb

/-- The order of the candidates does not matter, as long as their keys differ. -/
theorem furthest_perm {chosen candidates candidates' : List α} (h : candidates.Perm candidates')
    (hinj : ∀ a ∈ candidates, ∀ b ∈ candidates, key a = key b → a = b) :
    furthest tag key spread chosen candidates = furthest tag key spread chosen candidates' := by
  rw [furthest_eq, furthest_eq]
  refine argmin_perm (h.filter _) fun a ha b hb hab => ?_
  have hkey : key a = key b := congrArg (fun r => (ofLex r).2) hab
  exact hinj a (List.mem_filter.mp ha).1 b (List.mem_filter.mp hb).1 hkey

theorem sample_perm {candidates candidates' : List α} (h : candidates.Perm candidates')
    (hinj : ∀ a ∈ candidates, ∀ b ∈ candidates, key a = key b → a = b) (room : ℕ)
    (chosen : List α) : sample tag key spread candidates room chosen =
      sample tag key spread candidates' room chosen := by
  induction room generalizing chosen with
  | zero => rfl
  | succ room ih =>
    rw [sample, sample, furthest_perm h hinj]
    cases furthest tag key spread chosen candidates' with
    | none => rfl
    | some a => exact ih _

end Sampling
