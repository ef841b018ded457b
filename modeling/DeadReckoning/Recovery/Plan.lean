import DeadReckoning.Wal.Record
import DeadReckoning.Recovery.Error
import DeadReckoning.Recovery.Number

/-! The recovery plan as data: ordered steps with their commands, the predicates verified
before and after them, the values computed when they run and the commands that undo them. -/
namespace DeadReckoning.Recovery

open Wal (Point)

section Placeholders

def trueZPlaceholder : Text := lit "{true_z}"

def restoreAccelPlaceholder : Text := lit "{restore_accel}"

def machineAccelPlaceholder : Text := lit "{machine_accel}"

def parkZPlaceholder : Text := lit "{park_z}"

/-- No other placeholder exists. -/
def placeholders : List Text :=
  [trueZPlaceholder, restoreAccelPlaceholder, parkZPlaceholder, machineAccelPlaceholder]

end Placeholders

/-- The phase a step belongs to, in the order in which the builder emits them. -/
inductive Phase where
  | idleTimeout
  | stepperEnable
  | recoveryAccel
  | immediateBedHeat
  | believedZDeclare
  | homeXy
  | probeTempHold
  | cleanNozzle
  | transformFreeze
  | shiftedFrame
  | probeApproach
  | accelClamp
  | probe
  | accelRestore
  | trueZDeclare
  | zConfirmStandoff
  | resumePreview
  | meshLoad
  | finalDeclare
  | parkForReheat
  | restoreFrame
  | recoveryAccelRestore
  | recoveryFileSelect
  deriving DecidableEq, Repr

def Phase.name : Phase → String
  | idleTimeout => "idle-timeout"
  | stepperEnable => "stepper-enable"
  | recoveryAccel => "recovery-accel"
  | zConfirmStandoff => "z-confirm-standoff"
  | resumePreview => "resume-preview"
  | recoveryAccelRestore => "recovery-accel-restore"
  | immediateBedHeat => "immediate-bed-heat"
  | believedZDeclare => "believed-z-declare"
  | homeXy => "home-xy"
  | probeTempHold => "probe-temp-hold"
  | cleanNozzle => "clean-nozzle"
  | transformFreeze => "transform-freeze"
  | shiftedFrame => "shifted-frame"
  | probeApproach => "probe-approach"
  | accelClamp => "accel-clamp"
  | probe => "probe"
  | accelRestore => "accel-restore"
  | trueZDeclare => "true-z-declare"
  | meshLoad => "mesh-load"
  | finalDeclare => "final-declare"
  | parkForReheat => "park-for-reheat"
  | restoreFrame => "restore-frame"
  | recoveryFileSelect => "recovery-file-select"

/-- A predicate over one field of a status object. -/
inductive Predicate where
  | numWithin (expected epsilon : F64)
  | numAtLeast (min : F64)
  | numAtMost (max : F64)
  | tempWithin (min max : F64)
  | contains (needle : Text)
  | equals (value : Text)
  | boolTrue
  | boolFalse
  | finitePresent
  | nonEmptyMatrix
  | numWithinComputed (epsilon : F64)
  deriving DecidableEq

structure Verification where
  object : Text
  field : Text
  predicate : Predicate
  deriving DecidableEq

inductive AbortReason where
  | idleTimeoutNotApplied
  | stepperEnableFailed
  | recoveryAccelFailed
  | recoveryAccelRestoreFailed
  | zConfirmStandoffFailed
  | resumePreviewFailed
  | immediateBedHeatFailed
  | believedZDeclareFailed
  | homingFailed
  | probeTempHoldFailed
  | cleanNozzleFailed
  | transformFreezeFailed
  | shiftedFrameNotDeclared
  | approachFailed
  | accelClampFailed
  | accelRestoreFailed
  | probeNoTrigger
  | trueZDeclareFailed
  | meshLoadFailed
  | finalDeclareFailed
  | parkForReheatFailed
  | restoreFailed
  | recoveryFileSelectFailed
  deriving DecidableEq, Repr

def AbortReason.code : AbortReason → String
  | idleTimeoutNotApplied => "idle-timeout-not-applied"
  | stepperEnableFailed => "stepper-enable-failed"
  | recoveryAccelFailed => "recovery-accel-failed"
  | recoveryAccelRestoreFailed => "recovery-accel-restore-failed"
  | zConfirmStandoffFailed => "z-confirm-standoff-failed"
  | resumePreviewFailed => "resume-preview-failed"
  | immediateBedHeatFailed => "immediate-bed-heat-failed"
  | believedZDeclareFailed => "believed-z-declare-failed"
  | homingFailed => "homing-failed"
  | probeTempHoldFailed => "probe-temp-hold-failed"
  | cleanNozzleFailed => "clean-nozzle-failed"
  | transformFreezeFailed => "transform-freeze-failed"
  | shiftedFrameNotDeclared => "shifted-frame-not-declared"
  | approachFailed => "approach-failed"
  | accelClampFailed => "accel-clamp-failed"
  | accelRestoreFailed => "accel-restore-failed"
  | probeNoTrigger => "probe-no-trigger"
  | trueZDeclareFailed => "true-z-declare-failed"
  | meshLoadFailed => "mesh-load-failed"
  | finalDeclareFailed => "final-declare-failed"
  | parkForReheatFailed => "park-for-reheat-failed"
  | restoreFailed => "restore-failed"
  | recoveryFileSelectFailed => "recovery-file-select-failed"

/-- Where the trigger Z of the probe is read, and what must be added to it. -/
inductive TriggerSource where
  | rawLastZResult
  | bedZPlusOffset (zOffset : F64)
  | dragResult
  | touchResult (zOffset : F64)
  deriving DecidableEq

structure TrueZFormula where
  zPrevTop : F64
  triggerSource : TriggerSource
  frozenZAdjust : Option F64
  deriving DecidableEq

/-- The raw Z at the trigger, from what the source of the probe reports. -/
def TriggerSource.rawTrigger (triggerReading : F64) : TriggerSource → Except RecoveryError F64
  | rawLastZResult | dragResult => .ok triggerReading
  | bedZPlusOffset zOffset | touchResult zOffset => do
      let zOffset ← finite "z_offset" zOffset
      .ok (triggerReading + zOffset)

/-- `z_prev_top + (halt - trigger)`, refused when a number of it is not finite. -/
def trueZAtHalt (formula : TrueZFormula) (triggerReading haltZ : F64) :
    Except RecoveryError F64 := do
  let zPrevTop ← finite "z_prev_top" formula.zPrevTop
  let triggerReading ← finite "trigger_reading" triggerReading
  let haltZ ← finite "halt_z" haltZ
  let trigger ← formula.triggerSource.rawTrigger triggerReading
  finite "true_z" (zPrevTop + (haltZ - trigger))

/-- The value a step computes when it runs. -/
inductive RuntimeComputation where
  | trueZ (formula : TrueZFormula)
  | recordMaxAccel
  | recordMachineAccel
  | parkZ (deltaZ : F64) (zMax : Option F64)
  | hoverPlane (targetZ : F64) (zMax : Option F64)
  deriving DecidableEq

/-- The target lowered to the rail's limit when it is known, never below the current Z. -/
def clampToRail (currentZ target : F64) : Option F64 → Except RecoveryError F64
  | none => .ok target
  | some zMax => do
      let zMax ← finite "z_max" zMax
      .ok (F64.max (F64.min target zMax) currentZ)

/-- The absolute height of a lift by `deltaZ`. -/
def parkZAt (currentZ deltaZ : F64) (zMax : Option F64) : Except RecoveryError F64 := do
  let currentZ ← finite "current_z" currentZ
  let deltaZ ← finite "delta_z" deltaZ
  let target ← clampToRail currentZ (currentZ + deltaZ) zMax
  finite "park_z" target

/-- The height of the plane above every preview stop. -/
def hoverPlaneAt (currentZ targetZ : F64) (zMax : Option F64) : Except RecoveryError F64 := do
  let currentZ ← finite "current_z" currentZ
  let targetZ ← finite "target_z" targetZ
  let plane ← clampToRail currentZ (F64.max targetZ currentZ) zMax
  finite "hover_plane" plane

/-- One step of the plan. What happens when it fails is an abort with its reason. -/
structure RecoveryStep where
  id : ℕ
  phase : Phase
  commands : List Text
  preVerify : List Verification
  verify : List Verification
  compute : Option RuntimeComputation
  cleanupCommands : List Text
  onFailure : AbortReason
  deriving DecidableEq

/-- What the planner tells the operator without refusing. -/
inductive PlanWarning where
  | adaptiveMeshNotRestorable
  | skewProfileUnknown
  | noBedTarget
  | reheatParkComputed (point : Point)
  | reheatParkUnverified (point : Point)
  | purgeInsidePart (point : Point) (configured : Bool) (purgeZ : Option F64)
  | purgeZBelowResume (purgeZ resumeZ : F64)
  | reheatParkInsidePart (point : Point) (configured : Bool)
  | resumeNotOnInfill
  | unrestorableFan (name : Text)
  | noiseFloorSpeedMismatch (calibratedAt dragSpeed : F64)
  | dragTempBelowFloor (dragNozzleTemp floor : F64)
  | accelEntryNotAppliedToFile (accelEntry : F64)
  | unsafeOverrideActive (key permitted : String)
  | accelProbeIgnoredOnTouchPath (accelProbe : F64)
  | previewStandoffSqueezed (available requested : F64)
  deriving DecidableEq

inductive Tier where
  | advisory
  | confirmable
  | hard
  deriving DecidableEq

/-- The tier and the code of a warning's diagnosis. -/
def PlanWarning.diagnosis : PlanWarning → Tier × String
  | adaptiveMeshNotRestorable => (.advisory, "adaptive_mesh_not_restorable")
  | skewProfileUnknown => (.advisory, "skew_profile_unknown")
  | noBedTarget => (.advisory, "no_bed_target")
  | reheatParkComputed _ => (.advisory, "reheat_park_computed")
  | reheatParkUnverified _ => (.confirmable, "reheat_park_unverified")
  | purgeInsidePart _ _ purgeZ =>
      (if purgeZ.isSome then .confirmable else .advisory, "purge_inside_part")
  | purgeZBelowResume _ _ => (.confirmable, "purge_z_below_resume")
  | reheatParkInsidePart _ configured =>
      (if configured then .advisory else .confirmable, "reheat_park_inside_part")
  | resumeNotOnInfill => (.advisory, "resume_not_on_infill")
  | unrestorableFan _ => (.advisory, "unrestorable_fan")
  | noiseFloorSpeedMismatch _ _ => (.confirmable, "noise_floor_speed_mismatch")
  | dragTempBelowFloor _ _ => (.confirmable, "drag_temp_below_floor")
  | accelEntryNotAppliedToFile _ => (.advisory, "accel_entry_not_applied_to_file")
  | unsafeOverrideActive _ _ => (.advisory, "unsafe_override_active")
  | accelProbeIgnoredOnTouchPath _ => (.advisory, "accel_probe_ignored_on_touch_path")
  | previewStandoffSqueezed _ _ => (.advisory, "preview_standoff_squeezed")

/-- No warning of a plan is a refusal. -/
theorem PlanWarning.tier_ne_hard (w : PlanWarning) : w.diagnosis.1 ≠ .hard := by
  cases w <;> simp only [diagnosis] <;> try split
  all_goals decide

/-- A stop of the print that the operator may choose to resume after. -/
structure PreviewStop where
  offset : ℕ
  resumeOffset : ℕ
  xy : Point
  z : F64
  deriving DecidableEq

def previewMaxStops : ℕ := 2000

/-- The stops the analyzer found, no more than its bound. -/
structure PreviewSet where
  stops : List PreviewStop
  representatives : List ℕ
  firstIndex : ℕ
  midIndex : ℕ
  lastIndex : ℕ
  bounded : stops.length ≤ previewMaxStops

/-- What the recovery file of one preview stop begins with. -/
structure PreviewBinding where
  tailOffset : ℕ
  entryCommands : List Text
  deriving DecidableEq

structure PreviewSpec where
  stops : List PreviewStop
  representatives : List ℕ
  firstIndex : ℕ
  midIndex : ℕ
  lastIndex : ℕ
  defaultIndex : ℕ
  bindings : List PreviewBinding
  hoverTargetZ : F64
  zMax : Option F64
  coolNozzleTemp : F64
  travelFeed : F64
  deriving DecidableEq

def PreviewSpec.binding (spec : PreviewSpec) (index : ℕ) : Option PreviewBinding :=
  spec.bindings[index]?

inductive PurgePlan where
  | macroCall (call : Text)
  | builtIn (point : Point) (z : Option F64) (amount speed retract travelFeed : F64)
  deriving DecidableEq

def PurgePlan.builtInPoint : PurgePlan → Option Point
  | builtIn point _ _ _ _ _ => some point
  | macroCall _ => none

/-- What the generated recovery file is built from. -/
structure RecoveryFileSpec where
  name : Text
  sourceName : Text
  planId : Text
  tailOffset : ℕ
  bed : Option F64
  nozzle : F64
  purge : Option PurgePlan
  park : Point
  parkFeed : F64
  descendFeed : F64
  entryCommands : List Text
  entryAccel : Option (F64 × F64)
  headerCap : ℕ
  deriving DecidableEq

/-- How far the descent of the probe may go below the surface it looks for. -/
inductive OvershootTerm where
  | postTriggerTravel (probeSpeed : F64)
  | dragStep (dragZStep : F64)
  deriving DecidableEq

structure EnvelopeParams where
  expectedGap : F64
  overshoot : OvershootTerm
  margin : F64
  deriving DecidableEq

structure Envelope where
  params : EnvelopeParams
  envelope : F64
  positionMin : F64
  shiftedDeclareZ : F64
  deriving DecidableEq

structure RecoveryPlan where
  steps : List RecoveryStep
  envelope : Envelope
  resumeFile : Text
  resumeOffset : ℕ
  requiresCleanNozzleConfirmation : Bool
  recoveryFile : RecoveryFileSpec
  debugConfirmEachStep : Bool
  confirmTimeoutS : Option F64
  gcodeBarrierTimeoutS : Option F64
  preview : Option PreviewSpec
  warnings : List PlanWarning
  deriving DecidableEq

/-- The first word of a command, in upper case. -/
def firstWord (command : Text) : Text :=
  Text.upper ((Text.words command).headD [])

/-- The first step of a phase. -/
def RecoveryPlan.stepIn? (plan : RecoveryPlan) (phase : Phase) : Option RecoveryStep :=
  plan.steps.find? (fun step => step.phase = phase)

section Computed

theorem finite_of_finite_bind {α : Type} {x : Except RecoveryError α} {f : α → F64}
    {field : String} {z : F64} (h : (x >>= fun a => finite field (f a)) = .ok z) :
    z.isFinite = true := by
  obtain ⟨a, -, ha⟩ := bind_eq_ok.mp h
  obtain ⟨hfinite, rfl⟩ := finite_eq_ok.mp ha
  exact hfinite

theorem trueZAtHalt_ok {formula : TrueZFormula} {triggerReading haltZ z : F64}
    (h : trueZAtHalt formula triggerReading haltZ = .ok z) : z.isFinite = true := by
  obtain ⟨top, -, h⟩ := bind_eq_ok.mp h
  obtain ⟨reading, -, h⟩ := bind_eq_ok.mp h
  obtain ⟨halt, -, h⟩ := bind_eq_ok.mp h
  exact finite_of_finite_bind h

theorem parkZAt_ok {currentZ deltaZ z : F64} {zMax : Option F64}
    (h : parkZAt currentZ deltaZ zMax = .ok z) : z.isFinite = true := by
  obtain ⟨current, -, h⟩ := bind_eq_ok.mp h
  obtain ⟨delta, -, h⟩ := bind_eq_ok.mp h
  exact finite_of_finite_bind h

theorem hoverPlaneAt_ok {currentZ targetZ z : F64} {zMax : Option F64}
    (h : hoverPlaneAt currentZ targetZ zMax = .ok z) : z.isFinite = true := by
  obtain ⟨current, -, h⟩ := bind_eq_ok.mp h
  obtain ⟨target, -, h⟩ := bind_eq_ok.mp h
  exact finite_of_finite_bind h

/-- The offset that the formula adds back to a reading of the trigger. -/
def TriggerSource.offset : TriggerSource → F64
  | rawLastZResult | dragResult => 0
  | bedZPlusOffset zOffset | touchResult zOffset => zOffset

theorem TriggerSource.rawTrigger_fin {source : TriggerSource} {offset : ℚ}
    (hoffset : source.offset = .fin offset) (reading : ℚ) :
    source.rawTrigger (.fin reading) = .ok (.fin (reading + offset)) := by
  cases source with
  | rawLastZResult | dragResult =>
    have hzero : offset = 0 := (F64.fin.inj hoffset).symm.trans Nat.cast_zero
    rw [hzero, add_zero]
    rfl
  | bedZPlusOffset zOffset | touchResult zOffset =>
    have hz : zOffset = .fin offset := hoffset
    rw [hz]
    rfl

/-- On finite numbers the formula lifts the height of the last layer by the retraction. -/
theorem trueZAtHalt_fin {formula : TrueZFormula} {top offset : ℚ}
    (htop : formula.zPrevTop = .fin top) (hoffset : formula.triggerSource.offset = .fin offset)
    (reading halt : ℚ) :
    trueZAtHalt formula (.fin reading) (.fin halt) =
      .ok (.fin (top + (halt - (reading + offset)))) := by
  have htrigger := TriggerSource.rawTrigger_fin hoffset reading
  simp [trueZAtHalt, htop, htrigger, bind, Except.bind]

end Computed

end DeadReckoning.Recovery
