import Mathlib.Data.List.Induction

/-! Traces in which every entry is justified by the entries before it. -/
namespace Trace

variable {α : Type*}

/-- Every entry of the trace meets `P` together with its past. -/
def Justified (P : List α → α → Prop) (trace : List α) : Prop :=
  ∀ past x rest, trace = past ++ x :: rest → P past x

/-- Splitting a trace at an entry: the last entry, or an entry of what is before it. -/
theorem snoc_split {l past rest : List α} {x y : α} (h : l ++ [y] = past ++ x :: rest) :
    (rest = [] ∧ x = y ∧ l = past) ∨ ∃ rest', rest = rest' ++ [y] ∧ l = past ++ x :: rest' := by
  rcases List.eq_nil_or_concat rest with rfl | ⟨rest', z, rfl⟩
  · obtain ⟨hl, hy⟩ := List.append_inj' h rfl
    exact .inl ⟨rfl, (List.singleton_inj.mp hy).symm, hl⟩
  · rw [List.concat_eq_append, ← List.cons_append, ← List.append_assoc] at h
    obtain ⟨hl, hy⟩ := List.append_inj' h rfl
    exact .inr ⟨rest', by rw [List.concat_eq_append, List.singleton_inj.mp hy], hl⟩

@[simp] theorem justified_nil (P : List α → α → Prop) : Justified P [] := by
  intro past x rest h
  simp at h

theorem justified_snoc {P : List α → α → Prop} {trace : List α} {y : α} :
    Justified P (trace ++ [y]) ↔ Justified P trace ∧ P trace y := by
  constructor
  · intro h
    refine ⟨fun past x rest hsplit => h past x (rest ++ [y]) (by simp [hsplit]), ?_⟩
    exact h trace y [] rfl
  · rintro ⟨htrace, hy⟩ past x rest hsplit
    rcases snoc_split hsplit with ⟨-, rfl, rfl⟩ | ⟨rest', -, htail⟩
    · exact hy
    · exact htrace past x rest' htail

/-- Entries that are justified by any past may follow. -/
theorem Justified.append {P : List α → α → Prop} {trace more : List α} (h : Justified P trace)
    (hmore : ∀ past, ∀ x ∈ more, P past x) : Justified P (trace ++ more) := by
  induction more using List.reverseRecOn with
  | nil => rwa [List.append_nil]
  | append_singleton more x ih =>
    rw [← List.append_assoc, justified_snoc]
    constructor
    · exact ih fun past y hy => hmore past y (List.mem_append_left _ hy)
    · exact hmore _ x (by simp)

theorem Justified.mono {P Q : List α → α → Prop} {trace : List α} (h : Justified P trace)
    (himp : ∀ past x, P past x → Q past x) : Justified Q trace :=
  fun past x rest hsplit => himp past x (h past x rest hsplit)

theorem Justified.of_append {P : List α → α → Prop} {trace more : List α}
    (h : Justified P (trace ++ more)) : Justified P trace :=
  fun past x rest hsplit => h past x (rest ++ more) (by simp [hsplit])

end Trace
