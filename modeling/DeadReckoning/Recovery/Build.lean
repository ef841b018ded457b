import DeadReckoning.Recovery.Inputs

/-! The steps of a plan, one constructor for each phase, and their order. -/
namespace DeadReckoning.Recovery

open Wal (Point Context)
open Gcode (Axes)

/-- Where the preview hovers and how far it cools the nozzle. -/
structure PreviewEntry where
  targetZ : F64
  coolNozzleTemp : F64
  deriving DecidableEq

/-- Everything the step constructors need. -/
structure Ctx where
  cfg : PlanConfig
  machine : ValidatedMachine
  context : Context
  gcode : GcodeNumbers
  envelope : Envelope
  candidate : ProbeCandidate
  formula : TrueZFormula
  resume : ResumeTarget
  bed : Option F64
  otherHeaters : List (Text × F64)
  fanCmds : List Text
  excludes : List ExcludeObjectDef
  believedZ : F64
  park : Point
  cleanNozzlePresent : Bool
  recoveryFileName : Text
  previewEntry : Option PreviewEntry

def step (phase : Phase) (commands : List Text) (preVerify verify : List Verification)
    (compute : Option RuntimeComputation) (reason : AbortReason) : RecoveryStep where
  id := 0
  phase
  commands
  preVerify
  verify
  compute
  cleanupCommands := []
  onFailure := reason

/-- `f64::round`: the nearest integer, away from zero when two are equally near. -/
def roundAway : F64 → F64
  | .fin q => .fin (if 0 ≤ q then ⌊q + 1 / 2⌋ else -⌊-q + 1 / 2⌋)
  | v => v

/-- One more recorded fan: its restore command, a warning, or nothing for a managed one. -/
def addFan (out : List Text × List PlanWarning) (fan : Text × F64) :
    List Text × List PlanWarning :=
  let (name, speed) := fan
  if name = lit "fan" then (out.1 ++ [lit "M106 S" ++ fmtNum (roundAway (speed * 255))], out.2)
  else
    match Text.stripPrefix (lit "fan_generic ") name with
    | some suffix =>
        if commandNameIsBad suffix then (out.1, out.2 ++ [.unrestorableFan name])
        else
          (out.1 ++ [lit "SET_FAN_SPEED FAN=" ++ suffix ++ lit " SPEED=" ++ fmtNum speed], out.2)
    | none =>
        if (lit "heater_fan").isPrefixOf name || (lit "controller_fan").isPrefixOf name then out
        else (out.1, out.2 ++ [.unrestorableFan name])

/-- The restore commands for the recorded fans, with a warning for each that has none. -/
def fanCommands (fans : List (Text × F64)) : List Text × List PlanWarning :=
  fans.foldl addFan ([], [])

/-- The override that a phase prepends to its commands. -/
def accelPrefix (value : Option F64) : List Text :=
  (value.map fun v => lit "SET_VELOCITY_LIMIT ACCEL=" ++ fmtNum v).toList

def toolhead (field : Text) (predicate : Predicate) : Verification :=
  ⟨lit "toolhead", field, predicate⟩

def homed (axis : Text) : Verification := toolhead (lit "homed_axes") (.contains axis)

/-- The Z rail's reading is what the step computed. -/
def zWithinComputed (epsilon : F64) : Verification :=
  toolhead (lit "position.2") (.numWithinComputed epsilon)

section Steps

variable (ctx : Ctx)

def stepIdleTimeout : RecoveryStep :=
  step .idleTimeout [lit "SET_IDLE_TIMEOUT TIMEOUT=" ++ fmtNum ctx.cfg.idleTimeoutS] []
    [⟨lit "idle_timeout", lit "idle_timeout", .numWithin ctx.cfg.idleTimeoutS (.fin (5 / 10))⟩]
    none .idleTimeoutNotApplied

def stepStepperEnable : RecoveryStep :=
  step .stepperEnable
    (ctx.machine.zStepperNames.map fun name =>
      lit "SET_STEPPER_ENABLE STEPPER=" ++ name ++ lit " ENABLE=1")
    []
    (ctx.machine.zStepperNames.map fun name =>
      ⟨lit "stepper_enable", lit "steppers." ++ name, .boolTrue⟩)
    none .stepperEnableFailed

/-- The name of a heater without the words before it. -/
def shortName (name : Text) : Text := (name.splitOn ' ').getLastD name

def heaterCommands (heaters : List (Text × F64)) : List Text :=
  (heaters.filter fun h => !commandNameIsBad (shortName h.1)).map fun h =>
    lit "SET_HEATER_TEMPERATURE HEATER=" ++ shortName h.1 ++ lit " TARGET=" ++ fmtNum h.2

def stepImmediateBedHeat : RecoveryStep :=
  let hold := ctx.cfg.probeHoldTarget ctx.machine.probe.kind
  let targetWithin (object : Text) (target : F64) : Verification :=
    ⟨object, lit "target", .numWithin target 1⟩
  step .immediateBedHeat
    ((ctx.bed.map fun bed => lit "M140 S" ++ fmtNum bed).toList ++
      heaterCommands ctx.otherHeaters ++
      (hold.map fun target => lit "M104 S" ++ fmtNum target).toList)
    []
    ((ctx.bed.map (targetWithin (lit "heater_bed"))).toList ++
      (hold.map (targetWithin (lit "extruder"))).toList)
    none .immediateBedHeatFailed

/-- A lift that stays below the rail's limit when it is known. -/
def clampLift (lift base : F64) : Option F64 → F64
  | some zm => if F64.lt zm (base + lift) then F64.max (zm - base) 0 else lift
  | none => lift

def stepBelievedZDeclare : RecoveryStep :=
  let lift := clampLift ctx.cfg.preHomeZLift ctx.believedZ ctx.machine.axisLimits.zMax
  step .believedZDeclare
    [lit "SET_KINEMATIC_POSITION Z=" ++ fmtNum ctx.believedZ, lit "G91",
      lit "G1 Z" ++ fmtNum lift ++ lit " F" ++ fmtNum ctx.cfg.travelFeed, lit "G90"]
    []
    [homed (lit "z"),
      toolhead (lit "position.2") (.numWithin (ctx.believedZ + lift) ctx.cfg.zEpsilon)]
    none .believedZDeclareFailed

def stepProbeTempHold : Option RecoveryStep :=
  (ctx.cfg.probeHoldTarget ctx.machine.probe.kind).map fun target =>
    step .probeTempHold [lit "M109 S" ++ fmtNum target] []
      [⟨lit "extruder", lit "temperature",
        .tempWithin (target - probeHoldBand) (target + probeHoldBand)⟩]
      none .probeTempHoldFailed

def stepCleanNozzle : RecoveryStep :=
  step .cleanNozzle (if ctx.cleanNozzlePresent then [ctx.cfg.cleanNozzleMacro] else []) [] []
    none .cleanNozzleFailed

def stepHomeXy : RecoveryStep :=
  step .homeXy (accelPrefix ctx.cfg.accelHome ++ [lit "G28 X Y"]) []
    [homed (lit "x"), homed (lit "y")] none .homingFailed

def stepTransformFreeze : RecoveryStep :=
  step .transformFreeze [lit "SET_Z_THERMAL_ADJUST ENABLE=0"] []
    [⟨lit "z_thermal_adjust", lit "enabled", .boolFalse⟩,
      ⟨lit "z_thermal_adjust", lit "current_z_adjust", .finitePresent⟩]
    none .transformFreezeFailed

def stepShiftedFrame : RecoveryStep :=
  let z := ctx.envelope.shiftedDeclareZ
  step .shiftedFrame [lit "SET_KINEMATIC_POSITION Z=" ++ fmtNum z] []
    [homed (lit "z"), toolhead (lit "position.2") (.numWithin z ctx.cfg.zEpsilon)]
    none .shiftedFrameNotDeclared

/-- The travel to a point and what verifies that the toolhead is there. -/
def travelTo (point : Point) : Text :=
  lit "G0 X" ++ fmtNum point.1 ++ lit " Y" ++ fmtNum point.2 ++ lit " F" ++
    fmtNum ctx.cfg.travelFeed

def atPoint (point : Point) : List Verification :=
  [toolhead (lit "position.0") (.numWithin point.1 ctx.cfg.xyEpsilon),
    toolhead (lit "position.1") (.numWithin point.2 ctx.cfg.xyEpsilon)]

def stepProbeApproach : RecoveryStep :=
  step .probeApproach
    (accelPrefix ctx.cfg.accelTravel ++ [lit "G90", travelTo ctx ctx.candidate.point]) []
    (atPoint ctx ctx.candidate.point) none .approachFailed

/-- Whether the machine is probed with the consensus touch sequence. -/
def usesConsensusTouch (machine : ValidatedMachine) (cfg : PlanConfig) : Bool :=
  (match machine.probe.kind with
    | .tap | .loadCell => true
    | .adxlDrag _ => false) && !cfg.legacySingleProbe

def restoreAccel (placeholder : Text) : Text := lit "SET_VELOCITY_LIMIT ACCEL=" ++ placeholder

def maxAccelWithin (expected : F64) : Verification :=
  toolhead (lit "max_accel") (.numWithin expected 1)

def stepAccelClamp : RecoveryStep :=
  { step .accelClamp [lit "SET_VELOCITY_LIMIT ACCEL=" ++ fmtNum ctx.cfg.touchAccel] []
      [maxAccelWithin ctx.cfg.touchAccel] (some .recordMaxAccel) .accelClampFailed with
    cleanupCommands := [restoreAccel restoreAccelPlaceholder] }

def stepAccelRestore : RecoveryStep :=
  step .accelRestore [restoreAccel restoreAccelPlaceholder] []
    [toolhead (lit "max_accel") (.numWithinComputed 1)] none .accelRestoreFailed

/-- The object and the field that hold the trigger Z of a source. -/
def TriggerSource.reading : TriggerSource → Text × Text
  | rawLastZResult => (lit "probe", lit "last_z_result")
  | bedZPlusOffset _ => (lit "probe", lit "last_probe_position.2")
  | dragResult => (lit "plr", lit "last_drag_result.trigger_z")
  | touchResult _ => (lit "plr", lit "last_touch_result.median_z")

def touchCommand : Text :=
  lit "PLR_TOUCH SAMPLES=" ++ fmtNum ctx.cfg.touchSamples ++ lit " SAMPLE_RANGE=" ++
    fmtNum ctx.cfg.touchSampleRange ++ lit " SPEED=" ++ fmtNum ctx.cfg.probeSpeed ++
    lit " RETRACT=" ++ fmtNum ctx.cfg.touchRetract ++ lit " TOUCH_ACCEL=" ++
    fmtNum ctx.cfg.touchAccel

def dragCommand (chip : Text) : Text :=
  lit "PLR_DRAG_PROBE CHIP=\"" ++ chip ++ lit "\" SPEED=" ++ fmtNum ctx.cfg.dragSpeed ++
    lit " Z_STEP=" ++ fmtNum ctx.cfg.dragZStep ++ lit " SENSITIVITY=" ++
    fmtNum ctx.cfg.dragSensitivity

def probeCommand : Text :=
  match ctx.machine.probe.kind with
  | .adxlDrag chip => dragCommand ctx chip
  | .tap | .loadCell =>
      if usesConsensusTouch ctx.machine ctx.cfg then touchCommand ctx
      else lit "PROBE PROBE_SPEED=" ++ fmtNum ctx.cfg.probeSpeed ++ lit " SAMPLES=1"

def probeMethodVerify : List Verification :=
  if usesConsensusTouch ctx.machine ctx.cfg then
    [⟨lit "plr", lit "last_touch_result.range", .numAtMost ctx.cfg.touchSampleRange⟩,
      ⟨lit "plr", lit "last_touch_result.samples_used", .numAtLeast ctx.cfg.touchSamples⟩]
  else []

def probePreVerify : List Verification :=
  let ceiling := ctx.cfg.clampedProbeMax
  let measuredMax := ceiling + probeTempMeasuredTolerance
  let currentTemp : Predicate := match ctx.machine.probe.kind with
    | .adxlDrag _ => .numAtMost measuredMax
    | .tap | .loadCell => .tempWithin ctx.cfg.probeTempMin measuredMax
  [⟨lit "extruder", lit "temperature", currentTemp⟩,
    ⟨lit "extruder", lit "target", .numAtMost ceiling⟩,
    homed (lit "x"), homed (lit "y"), homed (lit "z")]

def stepProbe : RecoveryStep :=
  let reading := ctx.formula.triggerSource.reading
  step .probe
    ((if usesConsensusTouch ctx.machine ctx.cfg then [] else accelPrefix ctx.cfg.accelProbe) ++
      [probeCommand ctx])
    (probePreVerify ctx)
    (probeMethodVerify ctx ++ [⟨reading.1, reading.2, .finitePresent⟩])
    none .probeNoTrigger

def declareTrueZ : Text := lit "SET_KINEMATIC_POSITION Z=" ++ trueZPlaceholder

def stepTrueZDeclare : RecoveryStep :=
  step .trueZDeclare [declareTrueZ] [] [zWithinComputed ctx.cfg.zEpsilon]
    (some (.trueZ ctx.formula)) .trueZDeclareFailed

/-- Whether an acceleration override makes the plan record and restore the machine's own. -/
def usesAccelOverrides (cfg : PlanConfig) : Bool :=
  cfg.recoveryAccel.isSome || cfg.accelHome.isSome || cfg.accelTravel.isSome ||
    cfg.accelProbe.isSome || cfg.accelEntry.isSome

def stepRecoveryAccel : RecoveryStep :=
  { step .recoveryAccel (accelPrefix ctx.cfg.recoveryAccel) []
      (ctx.cfg.recoveryAccel.map maxAccelWithin).toList (some .recordMachineAccel)
      .recoveryAccelFailed with
    cleanupCommands := [restoreAccel machineAccelPlaceholder] }

def stepRecoveryAccelRestore : RecoveryStep :=
  step .recoveryAccelRestore [restoreAccel machineAccelPlaceholder] [] [] none
    .recoveryAccelRestoreFailed

/-- The move to the height the step computes. -/
def liftToComputed : Text :=
  lit "G1 Z" ++ parkZPlaceholder ++ lit " F" ++ fmtNum ctx.cfg.entryFeed

def stepZConfirmStandoff : RecoveryStep :=
  step .zConfirmStandoff
    (accelPrefix ctx.cfg.accelEntry ++ [lit "G90", liftToComputed ctx]) []
    [zWithinComputed ctx.cfg.zEpsilon]
    (some (.parkZ ctx.cfg.entryHop ctx.machine.axisLimits.zMax)) .zConfirmStandoffFailed

def stepResumePreview (entry : PreviewEntry) : RecoveryStep :=
  step .resumePreview
    (accelPrefix ctx.cfg.accelEntry ++
      [lit "G90", liftToComputed ctx, lit "M104 S" ++ fmtNum entry.coolNozzleTemp]) []
    [zWithinComputed ctx.cfg.zEpsilon]
    (some (.hoverPlane entry.targetZ ctx.machine.axisLimits.zMax)) .resumePreviewFailed

def stepMeshLoad (profile : Text) : RecoveryStep :=
  step .meshLoad [lit "BED_MESH_PROFILE LOAD=" ++ profile] []
    [⟨lit "bed_mesh", lit "mesh_matrix", .nonEmptyMatrix⟩] none .meshLoadFailed

def stepFinalDeclare : RecoveryStep :=
  step .finalDeclare [declareTrueZ] []
    [homed (lit "z"), zWithinComputed ctx.cfg.zEpsilon] (some (.trueZ ctx.formula))
    .finalDeclareFailed

def stepParkForReheat : RecoveryStep :=
  step .parkForReheat
    (accelPrefix ctx.cfg.accelEntry ++ [lit "G90", liftToComputed ctx, travelTo ctx ctx.park]) []
    (atPoint ctx ctx.park ++ [zWithinComputed ctx.cfg.zEpsilon])
    (some (.parkZ ctx.cfg.reheatParkDeltaZ ctx.machine.axisLimits.zMax)) .parkForReheatFailed

/-- A recorded profile name, unless it is empty. -/
def nonEmptyName (name : Option String) : Option Text :=
  (name.map String.toList).filter (fun n => !n.isEmpty)

def skewCommands (transforms : Wal.TransformObservations) : List Text :=
  if transforms.skewActive then
    ((nonEmptyName transforms.skewProfile).map fun profile =>
      lit "SKEW_PROFILE LOAD=" ++ profile).toList
  else []

def stepRestoreFrame : RecoveryStep :=
  let g := ctx.gcode
  step .restoreFrame
    ([lit "SET_GCODE_OFFSET X=" ++ fmtNum g.origin.x ++ lit " Y=" ++ fmtNum g.origin.y ++
        lit " Z=" ++ fmtNum g.origin.z,
      lit "M220 S" ++ fmtNum (g.speedFactor * 100),
      lit "M221 S" ++ fmtNum (g.extrudeFactor * 100)] ++
      skewCommands ctx.context.transforms ++ ctx.fanCmds)
    []
    [⟨lit "gcode_move", lit "speed_factor", .numWithin g.speedFactor (.fin (1 / 100))⟩,
      ⟨lit "gcode_move", lit "extrude_factor", .numWithin g.extrudeFactor (.fin (1 / 100))⟩]
    none .restoreFailed

/-- The moves from above the part to a resume position, as the recovery file makes them. -/
def buildEntryCommandsFor (position : Axes F64) : Except RecoveryError (List Text) := do
  let g := ctx.gcode
  let gcodeX ← finite "entry_x" (position.x - g.origin.x)
  let gcodeY ← finite "entry_y" (position.y - g.origin.y)
  let gcodeZ := position.z - g.origin.z
  let entryZ ← finite "entry_z" (gcodeZ + ctx.cfg.entryHop)
  let gcodeZ ← finite "resume_z" gcodeZ
  let fileE ← finite "file_e" ((position.e - g.origin.e) / g.extrudeFactor)
  let feed := fmtNum ctx.cfg.entryFeed
  .ok ([lit "G90", lit "M83", lit "G0 Z" ++ fmtNum entryZ ++ lit " F" ++ feed,
      lit "G0 X" ++ fmtNum gcodeX ++ lit " Y" ++ fmtNum gcodeY ++ lit " F" ++ feed,
      lit "G1 Z" ++ fmtNum gcodeZ ++ lit " F" ++ feed] ++
    (if F64.lt 0 ctx.cfg.primeMm then
      [lit "G1 E" ++ fmtNum ctx.cfg.primeMm ++ lit " F" ++ fmtNum ctx.cfg.primeFeed] else []) ++
    [lit "G92 E" ++ fmtNum fileE,
      if g.absoluteExtrude then lit "M82" else lit "M83",
      if g.absoluteCoordinates then lit "G90" else lit "G91",
      lit "G1 F" ++ fmtNum g.speedRaw])

def buildEntryCommands : Except RecoveryError (List Text) :=
  buildEntryCommandsFor ctx ctx.resume.position

def joinComma : List Text → Text
  | [] => []
  | [t] => t
  | t :: ts => t ++ lit "," ++ joinComma ts

def excludeDefine (d : ExcludeObjectDef) : Text :=
  lit "EXCLUDE_OBJECT_DEFINE NAME=" ++ d.name ++
    (match d.center with
      | some c => lit " CENTER=" ++ fmtNum c.1 ++ lit "," ++ fmtNum c.2
      | none => []) ++
    (if d.polygon.isEmpty then []
      else lit " POLYGON=[" ++
        joinComma (d.polygon.map fun p =>
          lit "[" ++ fmtNum p.1 ++ lit "," ++ fmtNum p.2 ++ lit "]") ++ lit "]")

def stepRecoveryFileSelect : RecoveryStep :=
  step .recoveryFileSelect
    ([lit "M23 " ++ ctx.recoveryFileName] ++ ctx.excludes.map excludeDefine ++
      ((ctx.excludes.filter (·.currentlyExcluded)).map fun d =>
        lit "EXCLUDE_OBJECT NAME=" ++ d.name) ++
      [lit "M24"])
    []
    [⟨lit "virtual_sdcard", lit "is_active", .boolTrue⟩,
      ⟨lit "idle_timeout", lit "state", .equals (lit "Printing")⟩]
    none .recoveryFileSelectFailed

end Steps

section Order

/-- The formula that turns the trigger of the machine's probe into a true Z. -/
def trueZFormula (machine : ValidatedMachine) (cfg : PlanConfig) (candidate : ProbeCandidate)
    (context : Context) : TrueZFormula where
  zPrevTop := candidate.z
  triggerSource :=
    if usesConsensusTouch machine cfg then .touchResult machine.probe.zOffset
    else match machine.probe.kind with
      | .tap => .rawLastZResult
      | .loadCell => .bedZPlusOffset machine.probe.zOffset
      | .adxlDrag _ => .dragResult
  frozenZAdjust := context.transforms.zThermalAdjustOffset

def orElse (condition : Bool) (steps : List RecoveryStep) : List RecoveryStep :=
  if condition then steps else []

/-- The mesh is loaded when one was active under a name. -/
def meshSteps (ctx : Ctx) : Except RecoveryError (List RecoveryStep) :=
  if ctx.context.transforms.bedMeshActive then
    match nonEmptyName ctx.context.transforms.bedMeshProfile with
    | some profile => do
        validateCommandName "bed_mesh profile" profile
        .ok [stepMeshLoad profile]
    | none => .ok []
  else .ok []

/-- The steps up to the declaration of the shifted frame. -/
def preparation (ctx : Ctx) : List RecoveryStep :=
  [stepIdleTimeout ctx, stepStepperEnable ctx] ++
    orElse (usesAccelOverrides ctx.cfg) [stepRecoveryAccel ctx] ++
    [stepImmediateBedHeat ctx, stepBelievedZDeclare ctx, stepHomeXy ctx] ++
    (stepProbeTempHold ctx).toList ++ [stepCleanNozzle ctx] ++
    orElse ctx.context.transforms.zThermalAdjustEnabled.isSome [stepTransformFreeze]

/-- The probing, inside the clamp of the acceleration when the consensus touch runs. -/
def probing (ctx : Ctx) : List RecoveryStep :=
  let clamp := usesConsensusTouch ctx.machine ctx.cfg
  [stepProbeApproach ctx] ++ orElse clamp [stepAccelClamp ctx] ++ [stepProbe ctx] ++
    orElse clamp [stepAccelRestore]

/-- The pause above the part: the preview, or the confirmation of Z. -/
def standoff (ctx : Ctx) : List RecoveryStep :=
  match ctx.previewEntry with
  | some entry => [stepResumePreview ctx entry]
  | none => orElse ctx.cfg.confirmZBeforeResume [stepZConfirmStandoff ctx]

def resumption (ctx : Ctx) : List RecoveryStep :=
  [stepParkForReheat ctx, stepRestoreFrame ctx] ++
    orElse (usesAccelOverrides ctx.cfg) [stepRecoveryAccelRestore] ++ [stepRecoveryFileSelect ctx]

/-- The steps in order, before they are numbered. -/
def stepsInOrder (ctx : Ctx) (mesh : List RecoveryStep) : List RecoveryStep :=
  preparation ctx ++ [stepShiftedFrame ctx] ++ probing ctx ++ [stepTrueZDeclare ctx] ++
    standoff ctx ++ mesh ++ [stepFinalDeclare ctx] ++ resumption ctx

/-- Gives each step its position in the plan, counted from one. -/
def renumber (steps : List RecoveryStep) : List RecoveryStep :=
  steps.mapIdx fun index s => { s with id := min (index + 1) (2 ^ 32 - 1) }

def buildSteps (ctx : Ctx) : Except RecoveryError (List RecoveryStep) := do
  let mesh ← meshSteps ctx
  .ok (renumber (stepsInOrder ctx mesh))

end Order

end DeadReckoning.Recovery
