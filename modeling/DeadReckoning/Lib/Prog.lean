import Mathlib.Data.List.Basic

/-! Programs over a state that may stop with an error and keep the state they stopped in,
with the rules of their pre- and postconditions. -/

/-- A program that runs from a state to a result or an error, and the state it leaves. -/
def Prog (σ ε α : Type) : Type := σ → Except ε α × σ

namespace Prog

variable {σ ε δ α β : Type}

/-- What a program does after another has returned. -/
def andThen (x : Prog σ ε α) (f : α → Prog σ ε β) : Prog σ ε β := fun s =>
  match x s with
  | (.ok a, t) => f a t
  | (.error e, t) => (.error e, t)

instance : Monad (Prog σ ε) where
  pure a := fun s => (.ok a, s)
  bind := andThen

/-- Stop with an error. -/
def stop (e : ε) : Prog σ ε α := fun s => (.error e, s)

/-- Read the state. -/
def state : Prog σ ε σ := fun s => (.ok s, s)

/-- Change the state. -/
def update (f : σ → σ) : Prog σ ε Unit := fun s => (.ok (), f s)

/-- The same program under another name for its errors. -/
def mapError (f : ε → δ) (x : Prog σ ε α) : Prog σ δ α := fun s =>
  match x s with
  | (.ok a, t) => (.ok a, t)
  | (.error e, t) => (.error (f e), t)

/-- A result that was computed without the state. -/
def lift (r : Except ε α) : Prog σ ε α := fun s => (r, s)

/-- Run `cleanup` whether the program returns or stops; an error of its own takes the place of the
other. -/
def ensuring (x : Prog σ ε α) (cleanup : Prog σ ε Unit) : Prog σ ε α := fun s =>
  match x s with
  | (.ok a, t) => andThen cleanup (fun _ => pure a) t
  | (.error e, t) => andThen cleanup (fun _ => stop e) t

/-- Go on from an error. -/
def onError (x : Prog σ ε α) (handler : ε → Prog σ ε α) : Prog σ ε α := fun s =>
  match x s with
  | (.ok a, t) => (.ok a, t)
  | (.error e, t) => handler e t

/-- From every state in `P` the program returns into `Q` or stops into `E`. -/
def Triple (P : σ → Prop) (x : Prog σ ε α) (Q : α → σ → Prop) (E : ε → σ → Prop) : Prop :=
  ∀ s, P s → match x s with
    | (.ok a, t) => Q a t
    | (.error e, t) => E e t

section Rules

variable {P P' : σ → Prop} {Q Q' : α → σ → Prop} {R : β → σ → Prop} {E E' : ε → σ → Prop}
  {x : Prog σ ε α}

theorem Triple.ok (h : Triple P x Q E) {s t : σ} {a : α} (hs : P s) (hx : x s = (.ok a, t)) :
    Q a t := by
  have hres := h s hs
  rwa [hx] at hres

theorem Triple.error (h : Triple P x Q E) {s t : σ} {e : ε} (hs : P s)
    (hx : x s = (.error e, t)) : E e t := by
  have hres := h s hs
  rwa [hx] at hres

theorem Triple.pure (a : α) (h : ∀ s, P s → Q a s) : Triple P (Pure.pure a : Prog σ ε α) Q E :=
  fun s hs => h s hs

theorem Triple.stop (e : ε) (h : ∀ s, P s → E e s) : Triple P (Prog.stop e : Prog σ ε α) Q E :=
  fun s hs => h s hs

theorem Triple.state {Q : σ → σ → Prop} (h : ∀ s, P s → Q s s) :
    Triple P (Prog.state : Prog σ ε σ) Q E :=
  fun s hs => h s hs

theorem Triple.update {Q : Unit → σ → Prop} (f : σ → σ) (h : ∀ s, P s → Q () (f s)) :
    Triple P (Prog.update f : Prog σ ε Unit) Q E :=
  fun s hs => h s hs

theorem Triple.bind {f : α → Prog σ ε β} (hx : Triple P x Q E)
    (hf : ∀ a, Triple (Q a) (f a) R E) : Triple P (x >>= f) R E := by
  intro s hs
  have hres := hx s hs
  show match andThen x f s with
    | (.ok a, t) => R a t
    | (.error e, t) => E e t
  rw [andThen]
  rcases hxs : x s with ⟨a | a, t⟩
  · rw [hxs] at hres
    exact hres
  · rw [hxs] at hres
    exact hf a t hres

/-- Nothing runs after a stop. -/
theorem Triple.stop_bind (e : ε) {f : α → Prog σ ε β} (h : ∀ s, P s → E e s) :
    Triple P ((Prog.stop e : Prog σ ε α) >>= f) R E :=
  fun s hs => h s hs

/-- What holds between the two parts of a sequence. -/
theorem Triple.of_bind {f : α → Prog σ ε β} (h : Triple P (x >>= f) R E) :
    ∃ M : α → σ → Prop, Triple P x M E ∧ ∀ a, Triple (M a) (f a) R E := by
  refine ⟨fun a t => match f a t with
    | (.ok b, u) => R b u
    | (.error e, u) => E e u, ?_, fun a t ht => ht⟩
  intro s hs
  have hres : match andThen x f s with
    | (.ok b, u) => R b u
    | (.error e, u) => E e u := h s hs
  rw [andThen] at hres
  rcases hxs : x s with ⟨a | a, t⟩
  · rw [hxs] at hres
    exact hres
  · rw [hxs] at hres
    exact hres

theorem Triple.conseq (h : Triple P x Q E) (hpre : ∀ s, P' s → P s)
    (hpost : ∀ a s, Q a s → Q' a s) (herror : ∀ e s, E e s → E' e s) : Triple P' x Q' E' := by
  intro s hs
  have hres := h s (hpre s hs)
  rcases hxs : x s with ⟨a | a, t⟩
  · rw [hxs] at hres
    exact herror a t hres
  · rw [hxs] at hres
    exact hpost a t hres

theorem Triple.mono (h : Triple P x Q E) (hpost : ∀ a s, Q a s → Q' a s) : Triple P x Q' E :=
  h.conseq (fun _ hs => hs) hpost fun _ _ he => he

/-- A fact about no state may be moved out of the precondition. -/
theorem Triple.of_and_right {p : Prop} (h : p → Triple P x Q E) :
    Triple (fun s => P s ∧ p) x Q E :=
  fun s hs => h hs.2 s hs.1

theorem Triple.mapError {E : δ → σ → Prop} {f : ε → δ} (h : Triple P x Q (fun e => E (f e))) :
    Triple P (x.mapError f) Q E := by
  intro s hs
  have hres := h s hs
  rw [Prog.mapError]
  rcases hxs : x s with ⟨a | a, t⟩
  · rw [hxs] at hres
    exact hres
  · rw [hxs] at hres
    exact hres

theorem Triple.lift {r : Except ε α} (hok : ∀ a, r = .ok a → ∀ s, P s → Q a s)
    (herror : ∀ e, r = .error e → ∀ s, P s → E e s) :
    Triple P (Prog.lift r : Prog σ ε α) Q E := by
  intro s hs
  cases r with
  | ok a => exact hok a rfl s hs
  | error e => exact herror e rfl s hs

/-- The cleanup runs in the states of either end. -/
theorem Triple.ensuring {cleanup : Prog σ ε Unit} (hx : Triple P x Q E)
    (hok : ∀ a, Triple (Q a) cleanup (fun _ => Q' a) E')
    (herror : ∀ e, Triple (E e) cleanup (fun _ => E' e) E') :
    Triple P (x.ensuring cleanup) Q' E' := by
  intro s hs
  have hres := hx s hs
  rw [Prog.ensuring]
  rcases hxs : x s with ⟨e | a, t⟩
  · rw [hxs] at hres
    exact Triple.bind (herror e) (fun _ => Triple.stop e fun _ hu => hu) t hres
  · rw [hxs] at hres
    exact Triple.bind (hok a) (fun _ => Triple.pure a fun _ hu => hu) t hres

theorem Triple.onError {handler : ε → Prog σ ε α} (hx : Triple P x Q E)
    (hhandler : ∀ e, Triple (E e) (handler e) Q E') : Triple P (x.onError handler) Q E' := by
  intro s hs
  have hres := hx s hs
  rw [Prog.onError]
  rcases hxs : x s with ⟨e | a, t⟩
  · rw [hxs] at hres
    exact hhandler e t hres
  · rw [hxs] at hres
    exact hres

/-- The rule of a loop over a list: the invariant speaks of the elements already done. -/
theorem Triple.forM {l : List β} {f : β → Prog σ ε Unit} {I : List β → σ → Prop}
    (hbody : ∀ done b rest, l = done ++ b :: rest →
      Triple (I done) (f b) (fun _ => I (done ++ [b])) E) :
    Triple (I []) (l.forM f) (fun _ => I l) E := by
  suffices hrest : ∀ rest done, l = done ++ rest →
      Triple (I done) (rest.forM f) (fun _ => I l) E from hrest l [] rfl
  intro rest
  induction rest with
  | nil =>
    intro done hl
    rw [List.append_nil] at hl
    exact Triple.pure () fun s hs => hl ▸ hs
  | cons b rest ih =>
    intro done hl
    apply Triple.bind (hbody done b rest hl)
    intro _
    exact ih (done ++ [b]) (by rw [hl, List.append_assoc]; rfl)

/-- A loop over two lists is the loop over the first and then that over the second. -/
theorem Triple.forM_append {l₁ l₂ : List β} {body : β → Prog σ ε Unit} {P Q R : σ → Prop}
    (h₁ : Triple P (l₁.forM body) (fun _ => Q) E) (h₂ : Triple Q (l₂.forM body) (fun _ => R) E) :
    Triple P ((l₁ ++ l₂).forM body) (fun _ => R) E := by
  induction l₁ generalizing P with
  | nil => exact h₂.conseq (fun s hs => h₁ s hs) (fun _ _ hs => hs) fun _ _ he => he
  | cons b l₁ ih =>
    obtain ⟨M, hb, hl⟩ := Triple.of_bind (f := fun _ => l₁.forM body) h₁
    exact Triple.bind hb fun a => ih (hl a)

theorem Triple.forM_cons {b : β} {l : List β} {body : β → Prog σ ε Unit} {P Q R : σ → Prop}
    (hb : Triple P (body b) (fun _ => Q) E) (hl : Triple Q (l.forM body) (fun _ => R) E) :
    Triple P ((b :: l).forM body) (fun _ => R) E :=
  Triple.bind hb fun _ => hl

/-- A loop whose every turn keeps one and the same property. -/
theorem Triple.forM_const {l : List β} {body : β → Prog σ ε Unit}
    (hbody : ∀ b ∈ l, Triple P (body b) (fun _ => P) E) :
    Triple P (l.forM body) (fun _ => P) E := by
  refine Triple.forM (I := fun _ => P) ?_
  intro done b rest hl
  exact hbody b (by simp [hl])

end Rules

end Prog
