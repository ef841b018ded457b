import Mathlib.Data.Nat.Notation
import Mathlib.Data.Option.Basic

/-! The state files beside the log. -/
namespace DeadReckoning.Boot

/-- A state file on the disk: absent, present but torn, or read. -/
inductive StatePresence (α : Type) where
  | absent
  | unreadable
  | present (value : α)
  deriving DecidableEq

/-- What retention, recovery and the next start read of a pending recovery. -/
structure PendingRecovery where
  file : String
  filePosition : ℕ
  frameInvalid : Bool
  powerFailEdgeMonoNs : Option ℕ
  deriving DecidableEq

end DeadReckoning.Boot
