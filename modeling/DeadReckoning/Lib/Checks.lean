import Mathlib.Data.Option.Basic

/-! Checks that refuse with an error, and what they have established when they pass. -/
namespace Checks

/-- Refuses with `error` unless the condition holds. -/
def ensure {ε : Type} (condition : Bool) (error : ε) : Except ε Unit :=
  if condition then .ok () else .error error

@[simp] theorem ensure_eq_ok {ε : Type} {condition : Bool} {error : ε} {u : Unit} :
    ensure condition error = .ok u ↔ condition = true := by
  cases condition <;> simp [ensure]

theorem ensure_eq_error {ε : Type} {condition : Bool} {error e : ε} :
    ensure condition error = .error e ↔ condition = false ∧ error = e := by
  cases condition <;> simp [ensure]

/-- The value that must be there. -/
def required {ε α : Type} (error : ε) : Option α → Except ε α
  | some a => .ok a
  | none => .error error

@[simp] theorem required_eq_ok {ε α : Type} {error : ε} {o : Option α} {a : α} :
    required error o = .ok a ↔ o = some a := by
  cases o <;> simp [required]

theorem required_eq_error {ε α : Type} {error e : ε} {o : Option α} :
    required error o = .error e ↔ o = none ∧ error = e := by
  cases o <;> simp [required]

theorem bind_eq_ok {ε α β : Type} {x : Except ε α} {f : α → Except ε β} {b : β} :
    (x >>= f) = .ok b ↔ ∃ a, x = .ok a ∧ f a = .ok b := by
  cases x with
  | error e => exact ⟨nofun, nofun⟩
  | ok a => exact ⟨fun h => ⟨a, rfl, h⟩, fun ⟨_, ha, h⟩ => by cases ha; exact h⟩

theorem bind_eq_error {ε α β : Type} {x : Except ε α} {f : α → Except ε β} {e : ε} :
    (x >>= f) = .error e ↔ x = .error e ∨ ∃ a, x = .ok a ∧ f a = .error e := by
  cases x with
  | error d =>
    constructor
    · intro h
      exact .inl (congrArg Except.error (Except.error.inj h))
    · rintro (h | ⟨a, ha, -⟩)
      · exact congrArg Except.error (Except.error.inj h)
      · cases ha
  | ok a =>
    constructor
    · exact fun h => .inr ⟨a, rfl, h⟩
    · rintro (h | ⟨_, ha, h⟩)
      · cases h
      · cases ha
        exact h

theorem map_bind {ε α β γ : Type} (f : β → γ) (x : Except ε α) (next : α → Except ε β) :
    (x >>= next).map f = x >>= fun a => (next a).map f := by
  cases x <;> rfl

theorem mapError_eq_ok {ε δ α : Type} {f : ε → δ} {x : Except ε α} {a : α} :
    x.mapError f = .ok a ↔ x = .ok a := by
  cases x with
  | error e => exact ⟨nofun, nofun⟩
  | ok b => exact ⟨fun h => congrArg Except.ok (Except.ok.inj h),
      fun h => congrArg Except.ok (Except.ok.inj h)⟩

end Checks
