import Mathlib.Data.List.Induction
import Mathlib.Data.Option.Basic

/-! Finite runs of a partial step function, with the induction rules for state
invariants, history invariants and guarded runs. -/
namespace Runs

variable {σ ε : Type*}

/-- A step is refused with `none`. -/
abbrev Step (σ ε : Type*) := σ → ε → Option σ

/-- Take every listed event in order; refused as soon as one step is. -/
def run (step : Step σ ε) : σ → List ε → Option σ
  | s, [] => some s
  | s, e :: es => (step s e).bind fun t => run step t es

@[simp] theorem run_nil (step : Step σ ε) (s : σ) : run step s [] = some s := rfl

@[simp] theorem run_cons (step : Step σ ε) (s : σ) (e : ε) (es : List ε) :
    run step s (e :: es) = (step s e).bind fun t => run step t es := rfl

theorem run_append (step : Step σ ε) (s : σ) (es fs : List ε) :
    run step s (es ++ fs) = (run step s es).bind fun t => run step t fs := by
  induction es generalizing s with
  | nil => simp
  | cons e es ih => cases h : step s e with
    | none => simp [h]
    | some t => simp [h, ih]

theorem run_append_some {step : Step σ ε} {s u : σ} {es fs : List ε} :
    run step s (es ++ fs) = some u ↔
      ∃ t, run step s es = some t ∧ run step t fs = some u := by
  rw [run_append, Option.bind_eq_some_iff]

theorem run_cons_some {step : Step σ ε} {s u : σ} {e : ε} {es : List ε} :
    run step s (e :: es) = some u ↔
      ∃ t, step s e = some t ∧ run step t es = some u := by
  rw [run_cons, Option.bind_eq_some_iff]

theorem run_snoc_some {step : Step σ ε} {s u : σ} {es : List ε} {e : ε} :
    run step s (es ++ [e]) = some u ↔
      ∃ t, run step s es = some t ∧ step t e = some u := by
  rw [run_append_some]
  simp

/-- Every step of the run meets `ok` in the state it is taken from. -/
def Along (step : Step σ ε) (ok : σ → ε → Prop) (s : σ) (es : List ε) : Prop :=
  ∀ before e after t, es = before ++ e :: after → run step s before = some t → ok t e

theorem Along.of_append {step : Step σ ε} {ok : σ → ε → Prop} {s : σ} {es fs : List ε}
    (h : Along step ok s (es ++ fs)) : Along step ok s es := by
  intro before e after t hes hrun
  exact h before e (after ++ fs) t (by simp [hes]) hrun

theorem Along.last {step : Step σ ε} {ok : σ → ε → Prop} {s t : σ} {es : List ε} {e : ε}
    (h : Along step ok s (es ++ [e])) (hrun : run step s es = some t) : ok t e :=
  h es e [] t rfl hrun

theorem along_nil (step : Step σ ε) (ok : σ → ε → Prop) (s : σ) : Along step ok s [] := by
  intro before e after t hes
  simp at hes

/-- Guarding a run event by event. -/
theorem along_cons {step : Step σ ε} {ok : σ → ε → Prop} {s : σ} {e : ε} {es : List ε}
    (hfirst : ok s e) (hrest : ∀ t, step s e = some t → Along step ok t es) :
    Along step ok s (e :: es) := by
  intro before e' after u hes hrun
  cases before with
  | nil =>
    obtain ⟨rfl, rfl⟩ := List.cons.inj hes
    exact Option.some.inj hrun ▸ hfirst
  | cons d before =>
    obtain ⟨rfl, hes'⟩ := List.cons.inj hes
    obtain ⟨t, ht, hrun'⟩ := run_cons_some.mp hrun
    exact hrest t ht before e' after u hes' hrun'

/-- What holds at the start and is kept by every guarded step, with the events
so far in view, holds at the end of every guarded run. -/
theorem run_history {step : Step σ ε} {ok : σ → ε → Prop} {inv : List ε → σ → Prop} {s t : σ}
    {es : List ε} (hinit : inv [] s)
    (hstep : ∀ past u e v, inv past u → ok u e → step u e = some v → inv (past ++ [e]) v)
    (hok : Along step ok s es) (hrun : run step s es = some t) : inv es t := by
  induction es using List.reverseRecOn generalizing t with
  | nil => simp only [run_nil, Option.some.injEq] at hrun; exact hrun ▸ hinit
  | append_singleton es e ih =>
    obtain ⟨u, hu, hlast⟩ := run_snoc_some.mp hrun
    exact hstep es u e t (ih hok.of_append hu) (hok.last hu) hlast

/-- The invariant rule of a run: no guard and no history. -/
theorem run_invariant {step : Step σ ε} {inv : σ → Prop} {s t : σ} {es : List ε}
    (hinit : inv s) (hstep : ∀ u e v, inv u → step u e = some v → inv v)
    (hrun : run step s es = some t) : inv t :=
  @run_history σ ε step (fun _ _ => True) (fun _ => inv) s t es hinit
    (fun _ u e v hu _ => hstep u e v hu) (fun _ _ _ _ _ _ => trivial) hrun

/-- A step that is never refused. -/
def total (f : σ → ε → σ) : Step σ ε := fun s e => some (f s e)

theorem run_total (f : σ → ε → σ) (s : σ) (es : List ε) :
    run (total f) s es = some (es.foldl f s) := by
  induction es generalizing s with
  | nil => rfl
  | cons e es ih => simp [total, ← ih]

/-- The history rule for a step that is never refused. -/
theorem foldl_history {f : σ → ε → σ} {inv : List ε → σ → Prop} {s : σ} (es : List ε)
    (hinit : inv [] s) (hstep : ∀ past u e, inv past u → inv (past ++ [e]) (f u e)) :
    inv es (es.foldl f s) := by
  refine @run_history σ ε (total f) (fun _ _ => True) inv s _ es hinit ?_ ?_ (run_total f s es)
  · exact fun past u e v hu _ hv => Option.some.inj hv ▸ hstep past u e hu
  · exact fun _ _ _ _ _ _ => trivial

end Runs
