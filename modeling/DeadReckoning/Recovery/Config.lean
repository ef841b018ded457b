import DeadReckoning.Recovery.Machine

/-! The planner's tuning and the checks that refuse a value out of its band. -/
namespace DeadReckoning.Recovery

/-- Which stop of an ambiguous set becomes the resume point. -/
inductive ResumePolicy where
  | first
  | mid
  | last
  | ask
  deriving DecidableEq

structure PlanConfig where
  probeSpeed : F64
  margin : F64
  sagAllowance : F64
  idleTimeoutS : F64
  probeNozzleTemp : F64
  probeTempMin : F64
  probeTempMax : F64
  tempEpsilon : F64
  travelFeed : F64
  entryFeed : F64
  entryHop : F64
  primeMm : F64
  primeFeed : F64
  xyEpsilon : F64
  zEpsilon : F64
  dragSpeed : F64
  dragZStep : F64
  dragSensitivity : F64
  touchSamples : F64
  touchSampleRange : F64
  touchRetract : F64
  touchAccel : F64
  legacySingleProbe : Bool
  maxProbeNozzleTemp : F64
  reheatParkX : Option F64
  reheatParkY : Option F64
  reheatParkDeltaZ : F64
  preHomeZLift : F64
  purgeEnable : Bool
  purgeAmount : F64
  purgeMacro : Option Text
  purgeX : Option F64
  purgeY : Option F64
  purgeZ : Option F64
  purgeRetract : F64
  cleanNozzleMacro : Text
  dragNozzleTemp : F64
  purgeSpeed : F64
  recoveryAccel : Option F64
  accelHome : Option F64
  accelTravel : Option F64
  accelProbe : Option F64
  accelEntry : Option F64
  confirmZBeforeResume : Bool
  debugConfirmEachStep : Bool
  unsafeAllowPurgeZBelowBed : Bool
  confirmTimeoutS : Option F64
  gcodeBarrierTimeoutS : Option F64
  resumeCandidatePolicy : ResumePolicy
  previewStandoff : Option F64
  previewNozzleTemp : Option F64
  deriving DecidableEq

def confirmTimeoutMinS : F64 := 30
def confirmTimeoutMaxS : F64 := 3600
def gcodeBarrierTimeoutMinS : F64 := 5
def gcodeBarrierTimeoutMaxS : F64 := 600
def accelMin : F64 := 50
def accelMax : F64 := 20000
def probeTempHeadroom : F64 := 5
def probeTempMeasuredTolerance : F64 := 2
def dragTempFloor : F64 := 50
def probeHoldBand : F64 := 5

/-- `f64::clamp`, which is only called with `lo <= hi`. -/
def clamp (x lo hi : F64) : F64 :=
  if F64.lt x lo then lo else if F64.lt hi x then hi else x

/-- Whether the number has no fractional part. -/
def isWhole : F64 → Bool
  | .fin q => q.den = 1
  | _ => false

namespace PlanConfig

variable (cfg : PlanConfig)

/-- The values of a fresh configuration. -/
def default : PlanConfig where
  probeSpeed := 1
  margin := .fin (5 / 10)
  sagAllowance := .fin (2 / 10)
  idleTimeoutS := 86400
  probeNozzleTemp := 150
  probeTempMin := 140
  probeTempMax := 160
  tempEpsilon := 3
  travelFeed := 6000
  entryFeed := 1200
  entryHop := 1
  primeMm := .fin (4 / 10)
  primeFeed := 1800
  xyEpsilon := .fin (25 / 100)
  zEpsilon := .fin (5 / 100)
  dragSpeed := 20
  dragZStep := .fin (5 / 100)
  dragSensitivity := 30
  touchSamples := 3
  touchSampleRange := .fin (10 / 1000)
  touchRetract := 2
  touchAccel := 100
  legacySingleProbe := false
  maxProbeNozzleTemp := 150
  reheatParkX := none
  reheatParkY := none
  reheatParkDeltaZ := 2
  preHomeZLift := 5
  purgeEnable := true
  purgeAmount := 5
  purgeMacro := none
  purgeX := none
  purgeY := none
  purgeZ := none
  purgeRetract := 0
  cleanNozzleMacro := lit "CLEAN_NOZZLE"
  dragNozzleTemp := 145
  purgeSpeed := 300
  recoveryAccel := none
  accelHome := none
  accelTravel := none
  accelProbe := none
  accelEntry := none
  confirmZBeforeResume := false
  debugConfirmEachStep := false
  unsafeAllowPurgeZBelowBed := false
  confirmTimeoutS := none
  gcodeBarrierTimeoutS := none
  resumeCandidatePolicy := .ask
  previewStandoff := none
  previewNozzleTemp := none

def clampedProbeMax : F64 := F64.min cfg.probeTempMax cfg.maxProbeNozzleTemp

def commandedProbeTemp : F64 :=
  clamp cfg.probeNozzleTemp cfg.probeTempMin (cfg.clampedProbeMax - probeTempHeadroom)

/-- The temperature held before the probe, when one is. -/
def probeHoldTarget : ProbeKind → Option F64
  | .adxlDrag _ => if F64.lt 0 cfg.dragNozzleTemp then some cfg.dragNozzleTemp else none
  | .tap | .loadCell => some cfg.commandedProbeTemp

def previewStandoffMm : F64 := cfg.previewStandoff.getD cfg.entryHop

def previewNozzleTempC (kind : ProbeKind) : F64 :=
  cfg.previewNozzleTemp.getD ((cfg.probeHoldTarget kind).getD 0)

section Checks

/-- A field with its value and the band it must lie in. -/
structure FieldCheck where
  field : String
  value : F64
  inRange : Bool

def FieldCheck.run (check : FieldCheck) : Except RecoveryError Unit := do
  ensure check.value.isFinite (.nonFinite check.field)
  ensure check.inRange (.invalidPlanConfig check.field)

/-- The flat table of bands. -/
def fieldChecks : List FieldCheck := [
  ⟨"margin", cfg.margin, F64.le 0 cfg.margin⟩,
  ⟨"sag_allowance", cfg.sagAllowance, F64.le 0 cfg.sagAllowance⟩,
  ⟨"idle_timeout_s", cfg.idleTimeoutS, F64.le 600 cfg.idleTimeoutS⟩,
  ⟨"probe_temp_min", cfg.probeTempMin, F64.le 140 cfg.probeTempMin⟩,
  ⟨"probe_temp_max", cfg.probeTempMax,
    F64.le cfg.probeTempMax 160 && F64.lt cfg.probeTempMin cfg.probeTempMax⟩,
  ⟨"probe_nozzle_temp", cfg.probeNozzleTemp,
    F64.le cfg.probeTempMin cfg.probeNozzleTemp && F64.le cfg.probeNozzleTemp cfg.probeTempMax⟩,
  ⟨"temp_epsilon", cfg.tempEpsilon, F64.lt 0 cfg.tempEpsilon⟩,
  ⟨"travel_feed", cfg.travelFeed, F64.lt 0 cfg.travelFeed⟩,
  ⟨"entry_feed", cfg.entryFeed, F64.lt 0 cfg.entryFeed && F64.le cfg.entryFeed 1800⟩,
  ⟨"entry_hop", cfg.entryHop, F64.le 0 cfg.entryHop⟩,
  ⟨"prime_mm", cfg.primeMm, F64.le 0 cfg.primeMm⟩,
  ⟨"prime_feed", cfg.primeFeed, F64.lt 0 cfg.primeFeed⟩,
  ⟨"xy_epsilon", cfg.xyEpsilon, F64.lt 0 cfg.xyEpsilon⟩,
  ⟨"z_epsilon", cfg.zEpsilon, F64.lt 0 cfg.zEpsilon⟩,
  ⟨"drag_speed", cfg.dragSpeed, F64.lt 0 cfg.dragSpeed && F64.le cfg.dragSpeed 100⟩,
  ⟨"drag_z_step", cfg.dragZStep, F64.lt 0 cfg.dragZStep && F64.le cfg.dragZStep (.fin (2 / 10))⟩,
  ⟨"drag_sensitivity", cfg.dragSensitivity,
    F64.le 0 cfg.dragSensitivity && F64.le cfg.dragSensitivity 100⟩,
  ⟨"touch_samples", cfg.touchSamples,
    F64.le 3 cfg.touchSamples && F64.le cfg.touchSamples 7 && isWhole cfg.touchSamples⟩,
  ⟨"touch_sample_range", cfg.touchSampleRange,
    F64.lt 0 cfg.touchSampleRange && F64.le cfg.touchSampleRange (.fin (15 / 1000))⟩,
  ⟨"touch_retract", cfg.touchRetract, F64.le 1 cfg.touchRetract⟩,
  ⟨"touch_accel", cfg.touchAccel, F64.le 50 cfg.touchAccel && F64.le cfg.touchAccel 1000⟩,
  ⟨"max_probe_nozzle_temp", cfg.maxProbeNozzleTemp,
    F64.le 80 cfg.maxProbeNozzleTemp && F64.le cfg.maxProbeNozzleTemp 160⟩,
  ⟨"reheat_park_delta_z", cfg.reheatParkDeltaZ,
    F64.lt 0 cfg.reheatParkDeltaZ && F64.le cfg.reheatParkDeltaZ 10⟩,
  ⟨"pre_home_z_lift", cfg.preHomeZLift, F64.lt 0 cfg.preHomeZLift && F64.le cfg.preHomeZLift 20⟩,
  ⟨"purge_amount", cfg.purgeAmount, F64.le 0 cfg.purgeAmount && F64.le cfg.purgeAmount 100⟩,
  ⟨"purge_speed", cfg.purgeSpeed, F64.lt 0 cfg.purgeSpeed && F64.le cfg.purgeSpeed 3000⟩,
  ⟨"purge_retract", cfg.purgeRetract, F64.le 0 cfg.purgeRetract && F64.le cfg.purgeRetract 10⟩]

/-- The acceleration overrides under their keys. -/
def accelKeys : List (String × Option F64) :=
  [("recovery_accel", cfg.recoveryAccel), ("accel_home", cfg.accelHome),
    ("accel_travel", cfg.accelTravel), ("accel_probe", cfg.accelProbe),
    ("accel_entry", cfg.accelEntry)]

/-- A set option must lie in its band; `error` is what its absence from it raises. -/
def checkBand (lo hi : F64) (error : F64 → RecoveryError) : Option F64 → Except RecoveryError Unit
  | none => .ok ()
  | some v => ensure (v.isFinite && F64.le lo v && F64.le v hi) (error v)

def checkAccel (entry : String × Option F64) : Except RecoveryError Unit :=
  checkBand accelMin accelMax (fun v => .accelOutOfRange entry.1 v accelMin accelMax) entry.2

def checkFinite (entry : String × Option F64) : Except RecoveryError Unit :=
  match entry.2 with
  | none => .ok ()
  | some v => ensure v.isFinite (.nonFinite entry.1)

def checkPurgeZ : Except RecoveryError Unit :=
  match cfg.purgeZ with
  | none => .ok ()
  | some z =>
      ensure (!(z.isFinite && F64.lt z 0 && !cfg.unsafeAllowPurgeZBelowBed)) (.purgeZBelowBed z)

def checkPreviewStandoff : Except RecoveryError Unit :=
  match cfg.previewStandoff with
  | none => .ok ()
  | some s => do
      ensure s.isFinite (.nonFinite "preview_standoff")
      ensure (!F64.lt s 0) (.invalidPlanConfig "preview_standoff")

def checkPreviewNozzleTemp : Except RecoveryError Unit :=
  match cfg.previewNozzleTemp with
  | none => .ok ()
  | some t => do
      ensure t.isFinite (.nonFinite "preview_nozzle_temp")
      ensure (!(F64.lt t 0 || F64.lt cfg.maxProbeNozzleTemp t))
        (.invalidPlanConfig "preview_nozzle_temp")

def validate : Except RecoveryError Unit := do
  cfg.fieldChecks.forM FieldCheck.run
  ensure (!F64.le cfg.clampedProbeMax cfg.probeTempMin) (.invalidPlanConfig "max_probe_nozzle_temp")
  ensure (!F64.lt (cfg.clampedProbeMax - probeTempHeadroom) cfg.probeTempMin)
    (.probeTempHeadroomUnavailable cfg.probeTempMin cfg.clampedProbeMax probeTempHeadroom)
  ensure cfg.dragNozzleTemp.isFinite (.nonFinite "drag_nozzle_temp")
  cfg.accelKeys.forM checkAccel
  checkBand confirmTimeoutMinS confirmTimeoutMaxS
    (fun v => .confirmTimeoutOutOfRange v confirmTimeoutMinS confirmTimeoutMaxS)
    cfg.confirmTimeoutS
  checkBand gcodeBarrierTimeoutMinS gcodeBarrierTimeoutMaxS
    (fun v => .gcodeBarrierTimeoutOutOfRange v gcodeBarrierTimeoutMinS gcodeBarrierTimeoutMaxS)
    cfg.gcodeBarrierTimeoutS
  cfg.checkPurgeZ
  [("reheat_park_x", cfg.reheatParkX), ("reheat_park_y", cfg.reheatParkY),
    ("purge_x", cfg.purgeX), ("purge_y", cfg.purgeY), ("purge_z", cfg.purgeZ)].forM checkFinite
  cfg.checkPreviewStandoff
  cfg.checkPreviewNozzleTemp

/-- The checks that only bite on the drag path. -/
def validateForProbe : ProbeKind → Except RecoveryError Unit
  | .tap | .loadCell => .ok ()
  | .adxlDrag _ =>
      ensure (!(F64.lt cfg.dragNozzleTemp 0 ||
          F64.lt (cfg.clampedProbeMax - probeTempHeadroom) cfg.dragNozzleTemp))
        (.dragTempOutOfRange cfg.dragNozzleTemp cfg.clampedProbeMax probeTempHeadroom)

end Checks

section Facts

/-- A list of checks passes when each of them does. -/
theorem forM_eq_ok {α : Type} {check : α → Except RecoveryError Unit} {l : List α} :
    l.forM check = .ok () ↔ ∀ a ∈ l, check a = .ok () := by
  induction l with
  | nil => simp [List.forM, pure, Except.pure]
  | cons a l ih =>
    show (check a >>= fun _ => l.forM check) = .ok () ↔ _
    rw [bind_eq_ok]
    constructor
    · rintro ⟨⟨⟩, ha, hl⟩ b hb
      rcases List.mem_cons.mp hb with rfl | hmem
      · exact ha
      · exact ih.mp hl b hmem
    · intro h
      refine ⟨(), h a List.mem_cons_self, ih.mpr fun b hb => h b (List.mem_cons_of_mem _ hb)⟩

theorem FieldCheck.run_eq_ok {check : FieldCheck} :
    check.run = .ok () ↔ check.value.isFinite = true ∧ check.inRange = true := by
  simp [FieldCheck.run, bind_eq_ok]

variable {cfg}

/-- A validated configuration passes every entry of the table. -/
theorem validate_field (h : cfg.validate = .ok ()) {check : FieldCheck}
    (hmem : check ∈ cfg.fieldChecks) : check.value.isFinite = true ∧ check.inRange = true := by
  obtain ⟨⟨⟩, hfields, -⟩ := bind_eq_ok.mp h
  exact FieldCheck.run_eq_ok.mp (forM_eq_ok.mp hfields check hmem)

/-- A set acceleration override is a finite number in the band. -/
theorem validate_accel (h : cfg.validate = .ok ()) {key : String} {v : F64}
    (hmem : (key, some v) ∈ cfg.accelKeys) :
    v.isFinite = true ∧ F64.le accelMin v = true ∧ F64.le v accelMax = true := by
  simp only [validate, bind_eq_ok] at h
  obtain ⟨⟨⟩, -, ⟨⟩, -, ⟨⟩, -, ⟨⟩, -, ⟨⟩, haccel, -⟩ := h
  have hband := forM_eq_ok.mp haccel _ hmem
  simpa [checkAccel, checkBand, Bool.and_eq_true, and_assoc] using hband

/-- The fresh configuration passes its own checks. -/
theorem default_validate : default.validate = .ok () := by
  decide +kernel

end Facts

end PlanConfig

end DeadReckoning.Recovery
