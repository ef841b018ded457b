import DeadReckoning.Lib.Numerals
import DeadReckoning.Lib.F64

/-! Coordinates of the four axes. -/
namespace DeadReckoning.Gcode

structure Axes (α : Type) where
  x : α
  y : α
  z : α
  e : α
  deriving DecidableEq

inductive Axis where
  | x
  | y
  | z
  | e
  deriving DecidableEq

namespace Axes

variable {α β : Type}

def all (p : α → Bool) (a : Axes α) : Bool := p a.x && p a.y && p a.z && p a.e

/-- The first four entries of a list. -/
def ofList? : List α → Option (Axes α)
  | x :: y :: z :: e :: _ => some ⟨x, y, z, e⟩
  | _ => none

def uniform (v : α) : Axes α := ⟨v, v, v, v⟩

def get (a : Axes α) : Axis → α
  | .x => a.x
  | .y => a.y
  | .z => a.z
  | .e => a.e

def set (a : Axes α) (axis : Axis) (v : α) : Axes α :=
  match axis with
  | .x => { a with x := v }
  | .y => { a with y := v }
  | .z => { a with z := v }
  | .e => { a with e := v }

@[simp] theorem get_set_self (a : Axes α) (axis : Axis) (v : α) : (a.set axis v).get axis = v := by
  cases axis <;> rfl

theorem get_set_of_ne (a : Axes α) {axis other : Axis} (v : α) (h : other ≠ axis) :
    (a.set axis v).get other = a.get other := by
  cases axis <;> cases other <;> first | rfl | exact absurd rfl h

theorem get_set (a : Axes α) (axis other : Axis) (v : α) :
    (a.set axis v).get other = if other = axis then v else a.get other := by
  split
  · rename_i h
    rw [h, get_set_self]
  · rename_i h
    exact get_set_of_ne a v h

@[simp] theorem set_get_self (a : Axes α) (axis : Axis) : a.set axis (a.get axis) = a := by
  cases axis <;> rfl

theorem ext_get {a b : Axes α} (h : ∀ axis, a.get axis = b.get axis) : a = b := by
  cases a
  cases b
  congr 1
  · exact h .x
  · exact h .y
  · exact h .z
  · exact h .e

@[simp] theorem get_uniform (v : α) (axis : Axis) : (uniform v).get axis = v := by
  cases axis <;> rfl

end Axes

/-- A point in space. -/
structure Point (α : Type) where
  x : α
  y : α
  z : α
  deriving DecidableEq

def Axes.point {α : Type} (a : Axes α) : Point α := ⟨a.x, a.y, a.z⟩

/-- Coordinates that agree in space, with the filament of the one in the other. -/
theorem Axes.with_e_of_point {α : Type} {a b : Axes α} (h : a.point = b.point) :
    ({ a with e := b.e } : Axes α) = b := by
  cases a
  cases b
  simp only [Axes.point, Point.mk.injEq] at h
  obtain ⟨rfl, rfl, rfl⟩ := h
  rfl

def Point.all {α : Type} (p : α → Bool) (a : Point α) : Bool := p a.x && p a.y && p a.z

end DeadReckoning.Gcode
