import DeadReckoning.Recovery.Plan

/-! The machine's prerequisites, all of which are checked before anything is planned, and the
probe envelope they anchor. -/
namespace DeadReckoning.Recovery

inductive ProbeKind where
  | tap
  | loadCell
  | adxlDrag (chip : Text)
  deriving DecidableEq

structure ProbeConfig where
  kind : ProbeKind
  zOffset : F64
  activateGcodeNoMove : Bool
  deactivateGcodeNoMove : Bool
  deriving DecidableEq

/-- The travel limits that are known. -/
structure AxisLimits where
  x : Option (F64 × F64)
  y : Option (F64 × F64)
  zMax : Option F64
  deriving DecidableEq

structure ZStepper where
  name : Text
  mcu : Text
  deriving DecidableEq

structure MachineConfig where
  forceMoveEnabled : Bool
  zSelfLockingAttested : Bool
  zSteppers : List ZStepper
  primaryMcu : Text
  typeAnnotationsPresent : Bool
  probes : List ProbeConfig
  zPositionMin : Option F64
  configHash : Text
  validatedConfigHash : Option Text
  virtualSdcardRoot : Option Text
  noiseFloor : Option F64
  noiseFloorSpeed : Option F64
  axisLimits : AxisLimits
  maxAccel : Option F64
  deriving DecidableEq

structure ValidatedMachine where
  probe : ProbeConfig
  zPositionMin : F64
  zStepperNames : List Text
  sdcardRoot : Text
  axisLimits : AxisLimits
  maxAccel : Option F64
  deriving DecidableEq

/-- Whether a chip name survives being embedded between double quotes. -/
def chipEmbeddable (chip : Text) : Bool :=
  !chip.isEmpty && !chip.any (fun c => Text.isControl c || c = '"' || c = '\\')

section Validation

variable (config : MachineConfig)

def stepperFailures : List PrereqFailure :=
  (if config.zSteppers.isEmpty then [.noZSteppers] else []) ++
    (config.zSteppers.filter (fun s => s.mcu ≠ config.primaryMcu)).map
      fun s => .zStepperOffPrimaryMcu s.name s.mcu

def noiseFloorFailures : List PrereqFailure :=
  match config.noiseFloor with
  | none => [.noiseFloorMissing]
  | some value =>
      if value.isFinite && F64.lt 0 value then [] else [.noiseFloorInvalid value]

def probeFailures (probe : ProbeConfig) : List PrereqFailure :=
  (if probe.zOffset.isFinite then [] else [.probeZOffsetNonFinite]) ++
    (if probe.activateGcodeNoMove then [] else [.probeActivateGcodeMoves]) ++
    (if probe.deactivateGcodeNoMove then [] else [.probeDeactivateGcodeMoves]) ++
    match probe.kind with
    | .adxlDrag chip =>
        (if chipEmbeddable chip then [] else [.accelChipInvalid chip]) ++ noiseFloorFailures config
    | .tap | .loadCell => []

def probesFailures : List PrereqFailure :=
  (match config.probes.length with
    | 0 => [.noProbe]
    | 1 => []
    | count => [.multipleProbes count]) ++
  match config.probes with
  | [] => []
  | probe :: _ => probeFailures config probe

def configFailures : List PrereqFailure :=
  (match config.zPositionMin with
    | none => [.positionMinUnknown]
    | some v => if v.isFinite then [] else [.positionMinNonFinite]) ++
  (match config.validatedConfigHash with
    | none => [.configNeverValidated]
    | some validated =>
        if validated = config.configHash then []
        else [.configChangedSinceValidation validated config.configHash]) ++
  (if config.virtualSdcardRoot.isNone then [.sdcardRootUnknown] else [])

/-- Every failed prerequisite, in the order of the checks. -/
def machineFailures : List PrereqFailure :=
  (if config.forceMoveEnabled then [] else [.forceMoveDisabled]) ++
    (if config.zSelfLockingAttested then [] else [.zNotSelfLocking]) ++
    stepperFailures config ++
    (if config.typeAnnotationsPresent then [] else [.noTypeAnnotations]) ++
    probesFailures config ++ configFailures config

def validateMachine : Except (List PrereqFailure) ValidatedMachine :=
  if machineFailures config ≠ [] then .error (machineFailures config)
  else
    .ok {
      probe := config.probes.headD ⟨.tap, 0, true, true⟩
      zPositionMin := config.zPositionMin.getD 0
      zStepperNames := config.zSteppers.map (·.name)
      sdcardRoot := config.virtualSdcardRoot.getD []
      axisLimits := config.axisLimits
      maxAccel := config.maxAccel.filter (fun v => v.isFinite && F64.lt 0 v) }

variable {config}

theorem validateMachine_eq_ok {machine : ValidatedMachine}
    (h : validateMachine config = .ok machine) :
    machineFailures config = [] ∧ ∃ probe, config.probes = [probe] ∧ machine.probe = probe ∧
      machine.zPositionMin = config.zPositionMin.getD 0 ∧
      machine.zStepperNames = config.zSteppers.map (·.name) ∧
      machine.axisLimits = config.axisLimits ∧
      machine.maxAccel = config.maxAccel.filter (fun v => v.isFinite && F64.lt 0 v) := by
  rw [validateMachine] at h
  split at h
  · cases h
  · rename_i hnone
    rw [not_not] at hnone
    have hprobes : probesFailures config = [] := by
      simp only [machineFailures, List.append_eq_nil_iff] at hnone
      exact hnone.1.2
    obtain ⟨probe, hprobe⟩ : ∃ probe, config.probes = [probe] := by
      rw [probesFailures, List.append_eq_nil_iff] at hprobes
      rcases hlist : config.probes with _ | ⟨probe, _ | ⟨second, rest⟩⟩
      · simp [hlist] at hprobes
      · exact ⟨probe, rfl⟩
      · simp [hlist] at hprobes
    cases h
    exact ⟨hnone, probe, hprobe, by rw [hprobe]; rfl, rfl, rfl, rfl, rfl⟩

/-- The facts about the probe that a machine without failures has. -/
theorem validateMachine_probe {machine : ValidatedMachine}
    (h : validateMachine config = .ok machine) :
    machine.probe.zOffset.isFinite = true ∧
      ∀ chip, machine.probe.kind = .adxlDrag chip → chipEmbeddable chip = true := by
  obtain ⟨hnone, probe, hprobes, hprobe, -⟩ := validateMachine_eq_ok h
  have hfailures : probeFailures config probe = [] := by
    simp only [machineFailures, probesFailures, hprobes, List.append_eq_nil_iff] at hnone
    exact hnone.1.2.2
  rw [hprobe]
  simp only [probeFailures, List.append_eq_nil_iff] at hfailures
  constructor
  · have hoffset := hfailures.1.1.1
    split at hoffset
    · assumption
    · cases hoffset
  · intro chip hkind
    have hchip := hfailures.2
    rw [hkind] at hchip
    have hembed := (List.append_eq_nil_iff.mp hchip).1
    split at hembed
    · assumption
    · cases hembed

/-- The bottom of the rail is a finite number. -/
theorem validateMachine_positionMin {machine : ValidatedMachine}
    (h : validateMachine config = .ok machine) : machine.zPositionMin.isFinite = true := by
  obtain ⟨hnone, -, -, -, hmin, -⟩ := validateMachine_eq_ok h
  simp only [machineFailures, configFailures, List.append_eq_nil_iff] at hnone
  have hposition := hnone.2.1.1
  rw [hmin]
  cases hvalue : config.zPositionMin with
  | none => simp [hvalue] at hposition
  | some v =>
    rw [hvalue] at hposition
    dsimp only at hposition
    split at hposition
    · assumption
    · cases hposition

end Validation

section Envelope

def postTriggerTravelS : F64 := .fin (15 / 100)

def probeSpeedMin : F64 := 1

def probeSpeedMax : F64 := 2

def OvershootTerm.validate : OvershootTerm → Except RecoveryError F64
  | postTriggerTravel probeSpeed => do
      ensure (F64.le probeSpeedMin probeSpeed && F64.le probeSpeed probeSpeedMax)
        (.probeSpeedOutOfRange probeSpeed)
      .ok (postTriggerTravelS * probeSpeed)
  | dragStep dragZStep => do
      let dragZStep ← finite "drag_z_step" dragZStep
      ensure (!F64.le dragZStep 0) (.invalidPlanConfig "drag_z_step")
      .ok dragZStep

def computeEnvelope (params : EnvelopeParams) (positionMin : F64) :
    Except RecoveryError Envelope := do
  let overshoot ← params.overshoot.validate
  let expectedGap ← finite "expected_gap" params.expectedGap
  ensure (!F64.lt expectedGap 0) (.invalidPlanConfig "expected_gap")
  let margin ← finite "margin" params.margin
  ensure (!F64.lt margin 0) (.invalidPlanConfig "margin")
  let positionMin ← finite "position_min" positionMin
  let envelope := expectedGap + overshoot + margin
  let shiftedDeclareZ := positionMin + envelope
  ensure (envelope.isFinite && shiftedDeclareZ.isFinite) (.nonFinite "envelope")
  .ok ⟨params, envelope, positionMin, shiftedDeclareZ⟩

/-- The declaration of the shifted frame is a finite number. -/
theorem computeEnvelope_ok {params : EnvelopeParams} {positionMin : F64} {e : Envelope}
    (h : computeEnvelope params positionMin = .ok e) : e.shiftedDeclareZ.isFinite = true := by
  simp only [computeEnvelope, bind_eq_ok, ensure_eq_ok] at h
  obtain ⟨overshoot, -, gap, -, -, -, margin, -, -, -, low, -, -, hfinite, hok⟩ := h
  cases hok
  exact (Bool.and_eq_true_iff.mp hfinite).2

end Envelope

end DeadReckoning.Recovery
