import DeadReckoning.Lib.F64
import DeadReckoning.Lib.Text
import DeadReckoning.Lib.Checks

/-! Refusals of the planner, with the field each of them names. -/
namespace DeadReckoning.Recovery

/-- One failed prerequisite of the machine. -/
inductive PrereqFailure where
  | forceMoveDisabled
  | zNotSelfLocking
  | noZSteppers
  | zStepperOffPrimaryMcu (stepper mcu : Text)
  | noTypeAnnotations
  | noProbe
  | multipleProbes (count : ℕ)
  | probeZOffsetNonFinite
  | probeActivateGcodeMoves
  | probeDeactivateGcodeMoves
  | positionMinUnknown
  | positionMinNonFinite
  | configNeverValidated
  | configChangedSinceValidation (validated current : Text)
  | sdcardRootUnknown
  | accelChipInvalid (chip : Text)
  | noiseFloorMissing
  | noiseFloorInvalid (value : F64)
  deriving DecidableEq

inductive ViolationKind where
  | axisLimit
  | contactMismatch
  | shiftedFrameZ
  deriving DecidableEq

structure BoundsViolation where
  stepId : ℕ
  axis : Char
  value : F64
  min : Option F64
  max : Option F64
  kind : ViolationKind
  deriving DecidableEq

inductive RecoveryError where
  | nonFinite (field : String)
  | invalidContext (field : String)
  | probeSpeedOutOfRange (speed : F64)
  | invalidPlanConfig (field : String)
  | accelOutOfRange (key : String) (value min max : F64)
  | probeTempHeadroomUnavailable (probeTempMin ceiling headroom : F64)
  | dragTempOutOfRange (dragNozzleTemp ceiling headroom : F64)
  | purgeMacroMissing (name : Text)
  | purgeZBelowBed (purgeZ : F64)
  | confirmTimeoutOutOfRange (value min max : F64)
  | gcodeBarrierTimeoutOutOfRange (value min max : F64)
  | machineRejected (failures : List PrereqFailure)
  | noContext
  | noVirtualSd
  | fileNotTopLevel (path : Text)
  | noZSpan
  | noProbeCandidates
  | noNozzleTarget
  | invalidName (field : String) (name : Text)
  | itineraryRejected (violations : List BoundsViolation)
  deriving DecidableEq

export Checks (ensure ensure_eq_ok required required_eq_ok bind_eq_ok)

/-- The value, refused when it is not finite. -/
def finite (field : String) (v : F64) : Except RecoveryError F64 :=
  if v.isFinite then .ok v else .error (.nonFinite field)

@[simp] theorem finite_eq_ok {field : String} {v z : F64} :
    finite field v = .ok z ↔ v.isFinite = true ∧ v = z := by
  cases h : v.isFinite <;> simp [finite, h]

@[simp] theorem finite_fin (field : String) (q : ℚ) : finite field (.fin q) = .ok (.fin q) := rfl

end DeadReckoning.Recovery
