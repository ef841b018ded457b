import Mathlib.Data.Finset.Card
import Mathlib.Data.Finset.Range
import Mathlib.Data.List.GetD
import Mathlib.Logic.Relation
import Mathlib.Tactic.Cases

/-! Disjoint sets as a forest in a list of parents. A look-up halves the path that it takes. -/
namespace Dsu

section Functions

def new (n : ℕ) : List ℕ := List.range n

/-- The parent of an element; a root is its own, and so is what is not in the forest. -/
def up (parent : List ℕ) (x : ℕ) : ℕ := parent.getD x x

def findFrom : ℕ → List ℕ → ℕ → List ℕ × ℕ
  | 0, parent, x => (parent, x)
  | fuel + 1, parent, x =>
      if up parent x = x then (parent, x)
      else
        let next := up parent (up parent x)
        findFrom fuel (parent.set x next) next

/-- The root above an element, and the forest after the look-up. No path is longer than the
forest. -/
def find (parent : List ℕ) (x : ℕ) : List ℕ × ℕ := findFrom parent.length parent x

def union (parent : List ℕ) (a b : ℕ) : List ℕ :=
  let (parent, ra) := find parent a
  let (parent, rb) := find parent b
  if ra ≠ rb then parent.set rb ra else parent

end Functions

section Forest

/-- The roots of a forest. Along a path the rank falls. -/
structure Forest (parent : List ℕ) (root rank : ℕ → ℕ) : Prop where
  inside : ∀ x < parent.length, up parent x < parent.length
  root_up : ∀ x, root (up parent x) = root x
  root_of_fixed : ∀ x, up parent x = x → root x = x
  root_fixed : ∀ x, up parent (root x) = root x
  rank_lt : ∀ x, up parent x ≠ x → rank (up parent x) < rank x

variable {parent : List ℕ} {root rank : ℕ → ℕ} {x y a b : ℕ}

theorem up_set (hx : x < parent.length) (y z : ℕ) :
    up (parent.set x z) y = if y = x then z else up parent y := by
  unfold up
  rw [List.getD_eq_getElem?_getD, List.getD_eq_getElem?_getD]
  by_cases hy : y = x
  · subst hy
    simp [hx]
  · rw [if_neg hy, List.getElem?_set_ne (Ne.symm hy)]

theorem up_new (n x : ℕ) : up (new n) x = x := by
  unfold up new
  by_cases hx : x < n
  · simp [hx]
  · simp [hx]

theorem forest_new (n : ℕ) : Forest (new n) id id where
  inside x hx := by rwa [up_new]
  root_up x := up_new n x
  root_of_fixed _ _ := rfl
  root_fixed x := up_new n x
  rank_lt x hne := absurd (up_new n x) hne

/-- Halving a path moves no element to another root. -/
theorem Forest.halve (h : Forest parent root rank) (hx : x < parent.length)
    (hne : up parent x ≠ x) :
    Forest (parent.set x (up parent (up parent x))) root rank ∧
      rank (up parent (up parent x)) < rank x := by
  have hlt : rank (up parent (up parent x)) < rank x := by
    have hfirst := h.rank_lt x hne
    by_cases hup : up parent (up parent x) = up parent x
    · rwa [hup]
    · exact (h.rank_lt _ hup).trans hfirst
  refine ⟨⟨?_, ?_, ?_, ?_, ?_⟩, hlt⟩
  · intro y hy
    rw [List.length_set] at hy ⊢
    rw [up_set hx]
    split
    · exact h.inside _ (h.inside x hx)
    · exact h.inside y hy
  · intro y
    rw [up_set hx]
    split
    case isTrue heq =>
      rw [h.root_up, h.root_up, heq]
    case isFalse => exact h.root_up y
  · intro y hy
    rw [up_set hx] at hy
    split at hy
    case isTrue heq =>
      rw [hy, heq] at hlt
      exact absurd hlt (lt_irrefl _)
    case isFalse => exact h.root_of_fixed y hy
  · intro y
    have hroot : root y ≠ x := by
      intro heq
      exact hne (heq ▸ h.root_fixed y)
    rw [up_set hx, if_neg hroot]
    exact h.root_fixed y
  · intro y hy
    rw [up_set hx] at hy ⊢
    split
    case isTrue heq => rwa [heq]
    case isFalse heq =>
      rw [if_neg heq] at hy
      exact h.rank_lt y hy

theorem findFrom_spec (h : Forest parent root rank) (hx : x < parent.length) (fuel : ℕ)
    (hfuel : ((Finset.range parent.length).filter fun y => rank y < rank x).card ≤ fuel) :
    Forest (findFrom fuel parent x).1 root rank ∧
      (findFrom fuel parent x).1.length = parent.length ∧
      (findFrom fuel parent x).2 = root x ∧ root x < parent.length := by
  induction fuel generalizing parent x with
  | zero =>
    have hfixed : up parent x = x := by
      by_contra hne
      have hempty := Finset.card_eq_zero.mp (Nat.le_zero.mp hfuel)
      have hmem : up parent x ∈ (Finset.range parent.length).filter fun y => rank y < rank x :=
        Finset.mem_filter.mpr ⟨Finset.mem_range.mpr (h.inside x hx), h.rank_lt x hne⟩
      rw [hempty] at hmem
      exact absurd hmem (Finset.notMem_empty _)
    have hroot := h.root_of_fixed x hfixed
    exact ⟨h, rfl, hroot.symm, hroot.symm ▸ hx⟩
  | succ fuel ih =>
    rw [findFrom]
    by_cases hfixed : up parent x = x
    · rw [if_pos hfixed]
      have hroot := h.root_of_fixed x hfixed
      exact ⟨h, rfl, hroot.symm, hroot.symm ▸ hx⟩
    · rw [if_neg hfixed]
      obtain ⟨hforest, hlt⟩ := h.halve hx hfixed
      have hnext := h.inside _ (h.inside x hx)
      -- The next element is one less that is of a smaller rank.
      have hfewer : ((Finset.range parent.length).filter
          fun y => rank y < rank (up parent (up parent x))).card ≤ fuel := by
        have hsubset : (Finset.range parent.length).filter
              (fun y => rank y < rank (up parent (up parent x))) ⊂
            (Finset.range parent.length).filter fun y => rank y < rank x := by
          refine Finset.ssubset_iff_subset_ne.mpr ⟨fun y hy => ?_, fun heq => ?_⟩
          · rw [Finset.mem_filter] at hy ⊢
            exact ⟨hy.1, hy.2.trans hlt⟩
          · have hmem : up parent (up parent x) ∈
                (Finset.range parent.length).filter fun y => rank y < rank x :=
              Finset.mem_filter.mpr ⟨Finset.mem_range.mpr hnext, hlt⟩
            rw [← heq, Finset.mem_filter] at hmem
            exact absurd hmem.2 (lt_irrefl _)
        have hcard := Finset.card_lt_card hsubset
        omega
      have hset : (parent.set x (up parent (up parent x))).length = parent.length :=
        List.length_set
      obtain ⟨hforest', hlength, hroot, hinside⟩ := ih hforest (hset.symm ▸ hnext) (by rwa [hset])
      have hsame : root (up parent (up parent x)) = root x := by
        rw [h.root_up, h.root_up]
      rw [hset] at hlength hinside
      rw [hsame] at hroot hinside
      exact ⟨hforest', hlength, hroot, hinside⟩

/-- A look-up finds the root and keeps the forest. -/
theorem find_spec (h : Forest parent root rank) (hx : x < parent.length) :
    Forest (find parent x).1 root rank ∧ (find parent x).1.length = parent.length ∧
      (find parent x).2 = root x ∧ root x < parent.length := by
  refine findFrom_spec h hx parent.length ?_
  exact (Finset.card_filter_le _ _).trans (Finset.card_range _).le

/-- A root under another one. -/
theorem Forest.link (h : Forest parent root rank) (ha : root a = a) (hb : root b = b)
    (ha' : a < parent.length) (hb' : b < parent.length) (hne : a ≠ b) :
    Forest (parent.set b a) (fun x => if root x = b then a else root x)
      (fun x => if root x = b then rank x + rank a + 1 else rank x) := by
  have hfixed_b : up parent b = b := hb ▸ h.root_fixed b
  have hfixed_a : up parent a = a := ha ▸ h.root_fixed a
  have hroot_a : root a ≠ b := by rwa [ha]
  refine ⟨?_, ?_, ?_, ?_, ?_⟩
  · intro x hx
    rw [List.length_set] at hx ⊢
    rw [up_set hb']
    split
    · exact ha'
    · exact h.inside x hx
  · intro x
    rw [up_set hb']
    split
    case isTrue heq => rw [ha, heq, if_pos hb]
    case isFalse => rw [h.root_up]
  · intro x hx
    rw [up_set hb'] at hx
    split at hx
    case isTrue heq => exact absurd (hx.trans heq) hne
    case isFalse heq =>
      have hroot := h.root_of_fixed x hx
      rw [hroot, if_neg heq]
  · intro x
    rw [up_set hb']
    by_cases hx : root x = b
    · rw [if_pos hx, if_neg hne, hfixed_a]
    · rw [if_neg hx, if_neg hx, h.root_fixed]
  · intro x hx
    rw [up_set hb'] at hx ⊢
    by_cases heq : x = b
    · rw [if_pos heq, if_neg hroot_a, heq, if_pos hb]
      omega
    · rw [if_neg heq] at hx ⊢
      rw [h.root_up]
      have hlt := h.rank_lt x hx
      split
      · omega
      · exact hlt

end Forest

section Classes

open Relation (EqvGen)

variable {parent : List ℕ} {R S : ℕ → ℕ → Prop} {a b x y : ℕ}

/-- The forest holds the classes of a relation. -/
def Classes (parent : List ℕ) (R : ℕ → ℕ → Prop) : Prop :=
  ∃ root rank, Forest parent root rank ∧ ∀ x y, root x = root y ↔ EqvGen R x y

theorem classes_new (n : ℕ) : Classes (new n) fun _ _ => False := by
  refine ⟨id, id, forest_new n, fun x y => ⟨?_, fun h => ?_⟩⟩
  · rintro rfl
    exact .refl _
  · induction h with
    | rel _ _ hr => exact hr.elim
    | refl _ => rfl
    | symm _ _ _ ih => exact ih.symm
    | trans _ _ _ _ _ ih ih' => exact ih.trans ih'

theorem Classes.congr (h : Classes parent R) (hRS : ∀ x y, EqvGen R x y ↔ EqvGen S x y) :
    Classes parent S := by
  obtain ⟨root, rank, hforest, hclasses⟩ := h
  exact ⟨root, rank, hforest, fun x y => (hclasses x y).trans (hRS x y)⟩

theorem eqvGen_of_le (h : ∀ x y, R x y → EqvGen S x y) (hxy : EqvGen R x y) : EqvGen S x y := by
  induction hxy with
  | rel x y hr => exact h x y hr
  | refl x => exact .refl x
  | symm x y _ ih => exact ih.symm
  | trans x y z _ _ ih ih' => exact ih.trans x y z ih'

/-- A union joins the classes of its two elements, and no others. -/
theorem Classes.union (h : Classes parent R) (ha : a < parent.length) (hb : b < parent.length) :
    (Dsu.union parent a b).length = parent.length ∧
      Classes (Dsu.union parent a b) fun x y => R x y ∨ x = a ∧ y = b := by
  obtain ⟨root, rank, hforest, hclasses⟩ := h
  obtain ⟨hforest₁, hlength₁, hroot₁, hinside₁⟩ := find_spec hforest ha
  obtain ⟨hforest₂, hlength₂, hroot₂, hinside₂⟩ := find_spec hforest₁ (hlength₁.symm ▸ hb)
  have hmono : ∀ {x y}, EqvGen R x y → EqvGen (fun x y => R x y ∨ x = a ∧ y = b) x y :=
    fun hxy => hxy.mono fun _ _ hr => .inl hr
  have hjoined : EqvGen (fun x y => R x y ∨ x = a ∧ y = b) a b := .rel _ _ (.inr ⟨rfl, rfl⟩)
  have hroot_root : ∀ x, root (root x) = root x := fun x =>
    hforest.root_of_fixed _ (hforest.root_fixed x)
  have hall {root' : ℕ → ℕ} (hkeeps : ∀ x y, root x = root y → root' x = root' y)
      (hab : root' a = root' b) {x y : ℕ} (hxy : EqvGen (fun x y => R x y ∨ x = a ∧ y = b) x y) :
      root' x = root' y := by
    induction hxy with
    | rel x y hr =>
      rcases hr with hr | ⟨rfl, rfl⟩
      · exact hkeeps x y ((hclasses x y).mpr (.rel _ _ hr))
      · exact hab
    | refl _ => rfl
    | symm _ _ _ ih => exact ih.symm
    | trans _ _ _ _ _ ih ih' => exact ih.trans ih'
  unfold Dsu.union
  dsimp only
  rw [hroot₁, hroot₂]
  by_cases hsame : root a = root b
  · rw [if_neg (not_not.mpr hsame)]
    refine ⟨hlength₂.trans hlength₁, root, rank, hforest₂, fun x y => ⟨fun hxy => ?_, ?_⟩⟩
    · exact hmono ((hclasses x y).mp hxy)
    · exact hall (fun _ _ => id) hsame
  · rw [if_pos hsame]
    rw [hlength₁] at hinside₂
    refine ⟨by rw [List.length_set, hlength₂, hlength₁], _, _,
      hforest₂.link (hroot_root a) (hroot_root b) (by rw [hlength₂, hlength₁]; exact hinside₁)
        (by rw [hlength₂, hlength₁]; exact hinside₂) hsame, fun x y => ⟨fun hxy => ?_, ?_⟩⟩
    · have hto (x : ℕ) : EqvGen (fun x y => R x y ∨ x = a ∧ y = b) x
          (if root x = root b then root a else root x) := by
        split
        case isTrue hx =>
          have hxb := hmono ((hclasses x b).mp hx)
          have haa := hmono ((hclasses a (root a)).mp (hroot_root a).symm)
          exact hxb.trans _ _ _ (hjoined.symm.trans _ _ _ haa)
        case isFalse => exact hmono ((hclasses x (root x)).mp (hroot_root x).symm)
      have hback := (hto y).symm
      rw [← hxy] at hback
      exact (hto x).trans _ _ _ hback
    · have hkeeps : ∀ x y, root x = root y →
          (if root x = root b then root a else root x) =
            if root y = root b then root a else root y := fun x y hxy => by rw [hxy]
      have hab : (if root a = root b then root a else root a) =
          if root b = root b then root a else root b := by
        rw [if_neg hsame, if_pos rfl]
      exact hall hkeeps hab

/-- Unions of one element with others, one after the other. -/
theorem Classes.unions (h : Classes parent R) (others : List ℕ) (ha : a < parent.length)
    (hothers : ∀ b ∈ others, b < parent.length) :
    (others.foldl (fun parent b => Dsu.union parent a b) parent).length = parent.length ∧
      Classes (others.foldl (fun parent b => Dsu.union parent a b) parent)
        fun x y => R x y ∨ x = a ∧ y ∈ others := by
  induction others generalizing parent R with
  | nil => exact ⟨rfl, h.congr fun x y => by simp⟩
  | cons b others ih =>
    obtain ⟨hlength, hclasses⟩ := h.union ha (hothers b List.mem_cons_self)
    obtain ⟨hlength', hclasses'⟩ := ih hclasses (hlength ▸ ha) fun c hc =>
      hlength ▸ hothers c (List.mem_cons_of_mem _ hc)
    refine ⟨hlength'.trans hlength, hclasses'.congr fun x y => ?_⟩
    have hsame : (fun x y => (R x y ∨ x = a ∧ y = b) ∨ x = a ∧ y ∈ others) =
        fun x y => R x y ∨ x = a ∧ y ∈ b :: others := by
      funext x y
      rw [List.mem_cons, or_assoc, ← and_or_left]
    rw [hsame]

end Classes

end Dsu
