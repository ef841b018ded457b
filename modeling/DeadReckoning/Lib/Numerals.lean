import Mathlib.Data.Nat.Cast.Defs

/-! The numerals that the development uses over a field, each with its instance by name: a
definition names the instance where it would else carry a proof of its own. -/

instance atLeastTwo_2 : Nat.AtLeastTwo 2 := ⟨by decide⟩

instance atLeastTwo_3 : Nat.AtLeastTwo 3 := ⟨by decide⟩

instance atLeastTwo_4 : Nat.AtLeastTwo 4 := ⟨by decide⟩

instance atLeastTwo_5 : Nat.AtLeastTwo 5 := ⟨by decide⟩

instance atLeastTwo_7 : Nat.AtLeastTwo 7 := ⟨by decide⟩

instance atLeastTwo_8 : Nat.AtLeastTwo 8 := ⟨by decide⟩

instance atLeastTwo_10 : Nat.AtLeastTwo 10 := ⟨by decide⟩

instance atLeastTwo_15 : Nat.AtLeastTwo 15 := ⟨by decide⟩

instance atLeastTwo_20 : Nat.AtLeastTwo 20 := ⟨by decide⟩

instance atLeastTwo_30 : Nat.AtLeastTwo 30 := ⟨by decide⟩

instance atLeastTwo_50 : Nat.AtLeastTwo 50 := ⟨by decide⟩

instance atLeastTwo_100 : Nat.AtLeastTwo 100 := ⟨by decide⟩

instance atLeastTwo_1000 : Nat.AtLeastTwo 1000 := ⟨by decide⟩
