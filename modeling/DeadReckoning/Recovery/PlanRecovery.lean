import DeadReckoning.Recovery.Preflight

/-! The planner: from the reconstruction, the model and the configuration to a plan, a refusal,
or a recovery that is left to the operator. -/
namespace DeadReckoning.Recovery

open Wal (Point Context)
open Gcode (Axes)

inductive PlanOutcome where
  | noRecoveryNeeded
  | plan (plan : RecoveryPlan)
  | manualFallback (reason : FallbackReason)
  deriving DecidableEq

section Geometry

def partMargin : F64 := 10

/-- The lower and upper corners of the part. -/
abbrev Bbox := Point × Point

def Bbox.grow (bbox : Option Bbox) (p : Point) : Option Bbox :=
  if !p.isFinite then bbox
  else match bbox with
    | none => some (p, p)
    | some (lo, hi) =>
        some ((F64.min lo.1 p.1, F64.min lo.2 p.2), (F64.max hi.1 p.1, F64.max hi.2 p.2))

def partBbox (model : LayerModel) : Option Bbox :=
  let points := model.layers.flatMap fun layer => layer.paths.flatMap fun path =>
    path.segments.flatMap fun seg => [seg.start, seg.finish]
  points.foldl Bbox.grow none

def insideBbox (p : Point) (bbox : Bbox) : Bool :=
  F64.le bbox.1.1 p.1 && F64.le p.1 bbox.2.1 && F64.le bbox.1.2 p.2 && F64.le p.2 bbox.2.2

def clampToLimits (limits : AxisLimits) (p : Point) : Point :=
  ((limits.x.map fun l => clamp p.1 l.1 l.2).getD p.1,
    (limits.y.map fun l => clamp p.2 l.1 l.2).getD p.2)

def half : F64 := .fin (1 / 2)

/-- One candidate beside each side of the part. -/
def parkCandidates (bbox : Bbox) : List Point :=
  let cx := (bbox.1.1 + bbox.2.1) * half
  let cy := (bbox.1.2 + bbox.2.2) * half
  [(bbox.2.1 + partMargin, cy), (bbox.1.1 - partMargin, cy), (cx, bbox.2.2 + partMargin),
    (cx, bbox.1.2 - partMargin)]

/-- The point where the nozzle reheats, with what the operator should know about it. -/
def reheatPark (config : PlanConfig) (model : LayerModel) (limits : AxisLimits) :
    Point × Option PlanWarning :=
  let bbox := partBbox model
  match config.reheatParkX, config.reheatParkY with
  | some x, some y =>
      ((x, y), (bbox.filter (insideBbox (x, y))).map fun _ => .reheatParkInsidePart (x, y) true)
  | _, _ =>
      match bbox with
      | none =>
          let point := clampToLimits limits (partMargin, partMargin)
          (point, some (.reheatParkUnverified point))
      | some bb =>
          match ((parkCandidates bb).map (clampToLimits limits)).find?
              (fun point => !insideBbox point bb) with
          | some point => (point, some (.reheatParkComputed point))
          | none =>
              let point := clampToLimits limits
                (bb.2.1 + partMargin, (bb.1.2 + bb.2.2) * half)
              (point, some (.reheatParkInsidePart point false))

end Geometry

section Warnings

def noiseFloorSpeedWarning (machine : ValidatedMachine) (noiseFloorSpeed : Option F64)
    (dragSpeed : F64) : Option PlanWarning :=
  match machine.probe.kind, noiseFloorSpeed with
  | .adxlDrag _, some calibratedAt =>
      if isPositive calibratedAt &&
          F64.lt (.fin (2 / 10) * calibratedAt) (F64.abs (dragSpeed - calibratedAt)) then
        some (.noiseFloorSpeedMismatch calibratedAt dragSpeed)
      else none
  | _, _ => none

def isDrag : ProbeKind → Bool
  | .adxlDrag _ => true
  | .tap | .loadCell => false

def configWarnings (machine : ValidatedMachine) (cfg : PlanConfig) : List PlanWarning :=
  (if cfg.unsafeAllowPurgeZBelowBed && cfg.purgeZ.any fun z => z.isFinite && F64.lt z 0 then
    [.unsafeOverrideActive "UNSAFE_allow_purge_z_below_bed" "purge_z_below_bed"] else []) ++
  (if isDrag machine.probe.kind && F64.lt 0 cfg.dragNozzleTemp &&
      F64.lt cfg.dragNozzleTemp dragTempFloor then
    [.dragTempBelowFloor cfg.dragNozzleTemp dragTempFloor] else []) ++
  (if usesConsensusTouch machine cfg then
    (cfg.accelProbe.map .accelProbeIgnoredOnTouchPath).toList else []) ++
  (if machine.maxAccel.isNone then
    (cfg.accelEntry.map .accelEntryNotAppliedToFile).toList else [])

def collectWarnings (context : Context) (bedUnknown onInfill : Bool) : List PlanWarning :=
  let t := context.transforms
  (if t.bedMeshActive && (nonEmptyName t.bedMeshProfile).isNone then
    [.adaptiveMeshNotRestorable] else []) ++
  (if t.skewActive && (nonEmptyName t.skewProfile).isNone then [.skewProfileUnknown] else []) ++
  (if bedUnknown then [.noBedTarget] else []) ++
  (if onInfill then [] else [.resumeNotOnInfill])

end Warnings

section Parts

def sizeEnvelope (machine : ValidatedMachine) (config : PlanConfig)
    (candidates : List ZCandidate) : Except RecoveryError Envelope :=
  match zSpan candidates with
  | none => .error .noZSpan
  | some span =>
      let overshoot : OvershootTerm := match machine.probe.kind with
        | .tap | .loadCell => .postTriggerTravel config.probeSpeed
        | .adxlDrag _ => .dragStep config.dragZStep
      computeEnvelope ⟨span.width + config.sagAllowance, overshoot, config.margin⟩
        machine.zPositionMin

/-- Disabled, handed to a macro, refused for a missing macro, or built in. -/
def resolvePurge (config : PlanConfig) (purgeMacroPresent : Bool) (park : Point) :
    Except RecoveryError (Option PurgePlan) :=
  if !config.purgeEnable then .ok none
  else match (config.purgeMacro.map Text.trim).filter (fun m => !m.isEmpty) with
    | some name =>
        if purgeMacroPresent then .ok (some (.macroCall name))
        else .error (.purgeMacroMissing name)
    | none =>
        .ok (some (.builtIn (config.purgeX.getD park.1, config.purgeY.getD park.2) config.purgeZ
          config.purgeAmount config.purgeSpeed config.purgeRetract config.travelFeed))

/-- The clamp of the file's entry moves and the value it restores: both or neither. -/
def entryAccelPair (machine : ValidatedMachine) (cfg : PlanConfig) : Option (F64 × F64) :=
  match cfg.accelEntry, machine.maxAccel with
  | some clamp, some restore => some (clamp, restore)
  | _, _ => none

def recoveryHeaderCap : ℕ := 200

/-- The hover plane above the highest stop, and the warning when the rail is too close. -/
def previewEntryOf (config : PlanConfig) (machine : ValidatedMachine) (set : PreviewSet) :
    Option PreviewEntry × List PlanWarning :=
  let maxStopZ := (set.stops.map (·.z)).foldl F64.max (.inf true)
  if !maxStopZ.isFinite then (none, [])
  else
    let requested := config.previewStandoffMm
    let squeezed := match machine.axisLimits.zMax with
      | some zMax =>
          if F64.lt (zMax - maxStopZ) requested then
            [.previewStandoffSqueezed (zMax - maxStopZ) requested] else []
      | none => []
    (some ⟨maxStopZ + requested, config.previewNozzleTempC machine.probe.kind⟩, squeezed)

/-- The recovery file of one stop: its own line when the model still resolves to it, otherwise
nothing to enter with. -/
def entryCommandsAt (ctx : Ctx) (model : LayerModel) (offset : ℕ) :
    Except RecoveryError (List Text) :=
  match resolveResumeFromOffset model offset with
  | .ok target =>
      if target.offset = offset then buildEntryCommandsFor ctx target.position else .ok []
  | .error _ => .ok []

def bindingFor (ctx : Ctx) (model : LayerModel) (stop : PreviewStop) :
    Except RecoveryError PreviewBinding := do
  let entryCommands ← entryCommandsAt ctx model stop.resumeOffset
  .ok ⟨stop.resumeOffset, entryCommands⟩

def buildPreviewSpec (ctx : Ctx) (model : LayerModel) (set : PreviewSet) (entry : PreviewEntry) :
    Except RecoveryError PreviewSpec := do
  let bindings ← set.stops.mapM (bindingFor ctx model)
  .ok {
    stops := set.stops
    representatives := set.representatives
    firstIndex := set.firstIndex
    midIndex := set.midIndex
    lastIndex := set.lastIndex
    defaultIndex := set.lastIndex
    bindings
    hoverTargetZ := entry.targetZ
    zMax := ctx.machine.axisLimits.zMax
    coolNozzleTemp := entry.coolNozzleTemp
    travelFeed := ctx.cfg.travelFeed }

def previewSpecOf (ctx : Ctx) (model : LayerModel) (set : Option PreviewSet) :
    Except RecoveryError (Option PreviewSpec) :=
  match set, ctx.previewEntry with
  | some set, some entry => do
      let spec ← buildPreviewSpec ctx model set entry
      .ok (some spec)
  | _, _ => .ok none

def runPreflight (plan : RecoveryPlan) (machine : ValidatedMachine) (contactPoint : Point) :
    Except RecoveryError Unit :=
  let bounds : ItineraryBounds := ⟨machine.axisLimits.x, machine.axisLimits.y,
    machine.axisLimits.zMax, machine.zPositionMin, contactPoint⟩
  match preflightItinerary bounds plan with
  | .ok () => .ok ()
  | .error violations => .error (.itineraryRejected violations)

def purgeWarnings (config : PlanConfig) (model : LayerModel) (purge : Option PurgePlan)
    (resumeZ : F64) : List PlanWarning :=
  (match purge.bind PurgePlan.builtInPoint with
    | some point =>
        if (partBbox model).any (insideBbox point) then
          [.purgeInsidePart point (config.purgeX.isSome || config.purgeY.isSome) config.purgeZ]
        else []
    | none => []) ++
  match config.purgeZ with
  | some z => if resumeZ.isFinite && F64.lt z resumeZ then [.purgeZBelowResume z resumeZ] else []
  | none => []

end Parts

/-- The plan, from everything that has been resolved. -/
def planOf (inputs : PlanInputs) (ctx : Ctx) (fileName : Text) (nozzle : F64)
    (warnings : List PlanWarning) (steps : List RecoveryStep) (entryCommands : List Text)
    (purge : Option PurgePlan) (preview : Option PreviewSpec) : RecoveryPlan where
  steps := steps
  envelope := ctx.envelope
  resumeFile := ctx.recoveryFileName
  resumeOffset := ctx.resume.offset
  requiresCleanNozzleConfirmation := !inputs.cleanNozzleMacroPresent
  recoveryFile := {
    name := ctx.recoveryFileName
    sourceName := fileName
    planId := lit "plr-" ++ Nat.toDigits 10 ctx.resume.offset
    tailOffset := ctx.resume.offset
    bed := ctx.bed
    nozzle
    purge
    park := ctx.park
    parkFeed := ctx.cfg.travelFeed
    descendFeed := ctx.cfg.entryFeed
    entryCommands
    entryAccel := entryAccelPair ctx.machine ctx.cfg
    headerCap := recoveryHeaderCap }
  debugConfirmEachStep := ctx.cfg.debugConfirmEachStep
  confirmTimeoutS := ctx.cfg.confirmTimeoutS
  gcodeBarrierTimeoutS := ctx.cfg.gcodeBarrierTimeoutS
  preview := preview
  warnings := warnings ++ purgeWarnings ctx.cfg inputs.model purge
    (ctx.resume.position.z - ctx.gcode.origin.z)

/-- The last step of planning, once everything it reads has been resolved. -/
def assemble (inputs : PlanInputs) (ctx : Ctx) (fileName : Text) (nozzle : F64)
    (previewSet : Option PreviewSet) (warnings : List PlanWarning) :
    Except RecoveryError RecoveryPlan := do
  let steps ← buildSteps ctx
  let entryCommands ← buildEntryCommands ctx
  let purge ← resolvePurge ctx.cfg inputs.purgeMacroPresent ctx.park
  let preview ← previewSpecOf ctx inputs.model previewSet
  let plan := planOf inputs ctx fileName nozzle warnings steps entryCommands purge preview
  runPreflight plan ctx.machine ctx.candidate.point
  .ok plan

/-- What every step constructor reads. -/
def ctxOf (inputs : PlanInputs) (config : PlanConfig) (machine : ValidatedMachine)
    (context : Context) (gcode : GcodeNumbers) (fileName : Text) (envelope : Envelope)
    (candidate : ProbeCandidate) (resume : ResumeTarget) (believedZ : F64) (park : Point)
    (previewEntry : Option PreviewEntry) : Ctx where
  cfg := config
  machine := machine
  context := context
  gcode := gcode
  envelope := envelope
  candidate := candidate
  formula := trueZFormula machine config candidate context
  resume := resume
  bed := (derivePreheat context inputs.fileTemps).bed
  otherHeaters := (derivePreheat context inputs.fileTemps).otherHeaters
  fanCmds := (fanCommands (derivePreheat context inputs.fileTemps).fans).1
  excludes := inputs.excludeObjects
  believedZ := believedZ
  park := park
  cleanNozzlePresent := inputs.cleanNozzleMacroPresent
  recoveryFileName := recoveryFileName fileName
  previewEntry := previewEntry

/-- The set of stops the operator is shown under the policy. -/
def previewSetOf (inputs : PlanInputs) (config : PlanConfig) : Option PreviewSet :=
  if config.resumeCandidatePolicy = .ask then inputs.preview else none

/-- Everything after the resume target is known. -/
def planFrom (inputs : PlanInputs) (config : PlanConfig) (machine : ValidatedMachine)
    (context : Context) (candidates : List ZCandidate) (gcode : GcodeNumbers) (fileName : Text)
    (envelope : Envelope) (candidate : ProbeCandidate) (resume : ResumeTarget) :
    Except RecoveryError RecoveryPlan := do
  let preheat := derivePreheat context inputs.fileTemps
  let nozzle ← required .noNozzleTarget preheat.nozzle
  inputs.excludeObjects.forM validateExclude
  let span ← required .noZSpan (zSpan candidates)
  let believedZ ← finite "believed_z" span.hi
  let (park, parkWarning) := reheatPark config inputs.model machine.axisLimits
  ensure park.isFinite (.nonFinite "reheat_park")
  let set := previewSetOf inputs config
  let preview := (set.map (previewEntryOf config machine)).getD (none, [])
  let warnings := (fanCommands preheat.fans).2 ++
    collectWarnings context preheat.bed.isNone resume.onInfill ++
    (noiseFloorSpeedWarning machine inputs.machine.noiseFloorSpeed config.dragSpeed).toList ++
    configWarnings machine config ++ parkWarning.toList ++ preview.2
  let ctx := ctxOf inputs config machine context gcode fileName envelope candidate resume believedZ
    park preview.1
  assemble inputs ctx fileName nozzle set warnings

/-- A step of planning that may end it with an outcome. -/
def withCandidate (contact : ContactOutcome)
    (k : ProbeCandidate → Except RecoveryError PlanOutcome) : Except RecoveryError PlanOutcome :=
  match contact with
  | .declined reason => .ok (.manualFallback (.contactDeclined reason))
  | .candidates [] => .error .noProbeCandidates
  | .candidates (candidate :: _) => do
      ensure (candidate.point.isFinite && candidate.z.isFinite) (.nonFinite "contact_candidate")
      k candidate

/-- Builds the strictly ordered plan, or a typed outcome without one. -/
def planRecovery (inputs : PlanInputs) (config : PlanConfig) : Except RecoveryError PlanOutcome := do
  config.validate
  let machine ← (validateMachine inputs.machine).mapError .machineRejected
  config.validateForProbe machine.probe.kind
  match inputs.reconstruction with
  | .cleanShutdown => .ok .noRecoveryNeeded
  | .recovery contexts candidates => do
      let context ← required .noContext contexts.getLast?
      ensure (context.valuesAreFinite) (.nonFinite "context")
      let gcode ← validateGcodeState context.gcode
      let vsd ← required .noVirtualSd context.virtualSdcard
      let fileName ← topLevelFileName vsd.filePath.toList machine.sdcardRoot
      let envelope ← sizeEnvelope machine config candidates
      withCandidate inputs.contact fun candidate =>
        match resolveResumeWithPreview inputs.model inputs.matchConfidence
            config.resumeCandidatePolicy inputs.preview with
        | .error reason => .ok (.manualFallback reason)
        | .ok resume => do
            let plan ← planFrom inputs config machine context candidates gcode fileName envelope
              candidate resume
            .ok (.plan plan)

section Inversion

/-- What planning has established when it returns a plan. -/
structure Planned (inputs : PlanInputs) (config : PlanConfig) (plan : RecoveryPlan) (ctx : Ctx)
    (mesh : List RecoveryStep) : Prop where
  cfg : ctx.cfg = config
  validated : config.validate = .ok ()
  machine : validateMachine inputs.machine = .ok ctx.machine
  contextFinite : ctx.context.valuesAreFinite = true
  gcode : validateGcodeState ctx.context.gcode = .ok ctx.gcode
  envelope : ctx.envelope.shiftedDeclareZ.isFinite = true
  candidate : ctx.candidate.point.isFinite = true ∧ ctx.candidate.z.isFinite = true
  formula : ctx.formula = trueZFormula ctx.machine config ctx.candidate ctx.context
  believed : ctx.believedZ.isFinite = true
  park : ctx.park.isFinite = true
  preheat : ctx.bed = (derivePreheat ctx.context inputs.fileTemps).bed ∧
    ctx.otherHeaters = (derivePreheat ctx.context inputs.fileTemps).otherHeaters
  fans : ctx.fanCmds = (fanCommands (derivePreheat ctx.context inputs.fileTemps).fans).1
  excludes : ctx.excludes = inputs.excludeObjects ∧
    inputs.excludeObjects.forM validateExclude = .ok ()
  clean : ctx.cleanNozzlePresent = inputs.cleanNozzleMacroPresent
  fileName : ∃ name, ctx.recoveryFileName = recoveryFileName name
  meshSteps : meshSteps ctx = .ok mesh
  steps : plan.steps = renumber (stepsInOrder ctx mesh)
  preview : previewSpecOf ctx inputs.model (previewSetOf inputs config) = .ok plan.preview
  debug : plan.debugConfirmEachStep = config.debugConfirmEachStep
  planEnvelope : plan.envelope = ctx.envelope
  preflight : runPreflight plan ctx.machine ctx.candidate.point = .ok ()

theorem sizeEnvelope_ok {machine : ValidatedMachine} {config : PlanConfig}
    {candidates : List ZCandidate} {e : Envelope}
    (h : sizeEnvelope machine config candidates = .ok e) : e.shiftedDeclareZ.isFinite = true := by
  rw [sizeEnvelope] at h
  split at h
  · cases h
  · exact computeEnvelope_ok h

theorem assemble_ok {inputs : PlanInputs} {ctx : Ctx} {fileName : Text} {nozzle : F64}
    {previewSet : Option PreviewSet} {warnings : List PlanWarning} {plan : RecoveryPlan}
    (h : assemble inputs ctx fileName nozzle previewSet warnings = .ok plan) :
    ∃ mesh, meshSteps ctx = .ok mesh ∧ plan.steps = renumber (stepsInOrder ctx mesh) ∧
      previewSpecOf ctx inputs.model previewSet = .ok plan.preview ∧
      plan.debugConfirmEachStep = ctx.cfg.debugConfirmEachStep ∧ plan.envelope = ctx.envelope ∧
      runPreflight plan ctx.machine ctx.candidate.point = .ok () := by
  simp only [assemble, buildSteps, bind_eq_ok, Except.ok.injEq] at h
  obtain ⟨steps, ⟨mesh, hmesh, hsteps⟩, entry, -, purge, -, preview, hpreview, ⟨⟩, hpreflight,
    rfl⟩ := h
  exact ⟨mesh, hmesh, hsteps.symm, hpreview, rfl, rfl, hpreflight⟩

theorem withCandidate_plan {contact : ContactOutcome} {plan : RecoveryPlan}
    {k : ProbeCandidate → Except RecoveryError PlanOutcome}
    (h : withCandidate contact k = .ok (.plan plan)) :
    ∃ candidate : ProbeCandidate, candidate.point.isFinite = true ∧
      candidate.z.isFinite = true ∧ k candidate = .ok (.plan plan) := by
  rw [withCandidate.eq_def] at h
  split at h
  · cases h
  · cases h
  · rename_i candidate rest
    obtain ⟨⟨⟩, hfinite, h⟩ := bind_eq_ok.mp h
    rw [ensure_eq_ok, Bool.and_eq_true] at hfinite
    exact ⟨candidate, hfinite.1, hfinite.2, h⟩

theorem mapError_eq_ok {ε δ α : Type} {x : Except ε α} {f : ε → δ} {a : α} :
    x.mapError f = .ok a ↔ x = .ok a := by
  cases x <;> simp [Except.mapError]

/-- The last recorded context, from which a recovery is planned. -/
def PlanInputs.lastContext (inputs : PlanInputs) : Option Context :=
  match inputs.reconstruction with
  | .cleanShutdown => none
  | .recovery contexts _ => contexts.getLast?

/-- The name of the printed file, when it lies at the top of the card. -/
def PlanInputs.printedFile (inputs : PlanInputs) (context : Context) : Option Text :=
  context.virtualSdcard.bind fun vsd =>
    (topLevelFileName vsd.filePath.toList (inputs.machine.virtualSdcardRoot.getD [])).toOption

/-- Where a plan's context comes from, and how the plan is made from it. -/
structure Sources (inputs : PlanInputs) (config : PlanConfig) (plan : RecoveryPlan) (ctx : Ctx) :
    Prop where
  context : inputs.lastContext = some ctx.context
  resume : resolveResumeWithPreview inputs.model inputs.matchConfidence
    config.resumeCandidatePolicy inputs.preview = .ok ctx.resume
  assembled : ∃ fileName nozzle warnings, inputs.printedFile ctx.context = some fileName ∧
    ctx.recoveryFileName = recoveryFileName fileName ∧
    assemble inputs ctx fileName nozzle (previewSetOf inputs config) warnings = .ok plan

/-- The entry of the preview, when there is something to show. -/
def previewEntryFor (inputs : PlanInputs) (config : PlanConfig) (machine : ValidatedMachine) :
    Option PreviewEntry :=
  (((previewSetOf inputs config).map (previewEntryOf config machine)).getD (none, [])).1

theorem planFrom_ok {inputs : PlanInputs} {config : PlanConfig} {machine : ValidatedMachine}
    {context : Context} {candidates : List ZCandidate} {gcode : GcodeNumbers} {fileName : Text}
    {envelope : Envelope} {candidate : ProbeCandidate} {resume : ResumeTarget}
    {plan : RecoveryPlan}
    (h : planFrom inputs config machine context candidates gcode fileName envelope candidate
      resume = .ok plan) :
    ∃ believedZ park nozzle warnings, believedZ.isFinite = true ∧
      Point.isFinite park = true ∧ inputs.excludeObjects.forM validateExclude = .ok () ∧
      assemble inputs (ctxOf inputs config machine context gcode fileName envelope candidate
        resume believedZ park (previewEntryFor inputs config machine)) fileName nozzle
        (previewSetOf inputs config) warnings = .ok plan := by
  simp only [planFrom, bind_eq_ok, ensure_eq_ok, finite_eq_ok] at h
  obtain ⟨nozzle, -, ⟨⟩, hexcludes, span, -, _, ⟨hfinite, rfl⟩, ⟨⟩, hpark, h⟩ := h
  exact ⟨span.hi, (reheatPark config inputs.model machine.axisLimits).1, nozzle, _, hfinite, hpark,
    hexcludes, h⟩

theorem validateMachine_sdcardRoot {config : MachineConfig} {machine : ValidatedMachine}
    (h : validateMachine config = .ok machine) :
    machine.sdcardRoot = config.virtualSdcardRoot.getD [] := by
  rw [validateMachine] at h
  split at h
  · cases h
  · cases h
    rfl

theorem planRecovery_planFrom {inputs : PlanInputs} {config : PlanConfig} {plan : RecoveryPlan}
    (h : planRecovery inputs config = .ok (.plan plan)) :
    ∃ machine context candidates gcode fileName envelope candidate resume,
      config.validate = .ok () ∧ validateMachine inputs.machine = .ok machine ∧
      inputs.lastContext = some context ∧ inputs.printedFile context = some fileName ∧
      context.valuesAreFinite = true ∧ validateGcodeState context.gcode = .ok gcode ∧
      sizeEnvelope machine config candidates = .ok envelope ∧
      (Point.isFinite candidate.point = true ∧ candidate.z.isFinite = true) ∧
      resolveResumeWithPreview inputs.model inputs.matchConfidence
        config.resumeCandidatePolicy inputs.preview = .ok resume ∧
      planFrom inputs config machine context candidates gcode fileName envelope candidate
        resume = .ok plan := by
  simp only [planRecovery, bind_eq_ok] at h
  obtain ⟨⟨⟩, hvalid, machine, hmachine, ⟨⟩, -, h⟩ := h
  split at h
  · cases h
  rename_i contexts candidates hrecovery
  simp only [bind_eq_ok, ensure_eq_ok] at h
  obtain ⟨context, hcontext, ⟨⟩, hfinite, gcode, hgcode, vsd, hvsd, fileName, hname, envelope,
    henvelope, h⟩ := h
  obtain ⟨candidate, hpoint, hz, h⟩ := withCandidate_plan h
  split at h
  · cases h
  rename_i resume hresume
  obtain ⟨plan', hfrom, hplan⟩ := bind_eq_ok.mp h
  obtain rfl : plan' = plan := PlanOutcome.plan.inj (Except.ok.inj hplan)
  have hmachine := mapError_eq_ok.mp hmachine
  have hlast : inputs.lastContext = some context := by
    rw [PlanInputs.lastContext, hrecovery]
    exact required_eq_ok.mp hcontext
  have hfile : inputs.printedFile context = some fileName := by
    rw [PlanInputs.printedFile, required_eq_ok.mp hvsd, Option.bind_some,
      ← validateMachine_sdcardRoot hmachine, hname]
    rfl
  exact ⟨machine, context, candidates, gcode, fileName, envelope, candidate, resume, hvalid,
    hmachine, hlast, hfile, hfinite, hgcode, henvelope, ⟨hpoint, hz⟩, hresume, hfrom⟩

/-- What a returned plan was made from, where that comes from, and what it previews. -/
theorem planRecovery_context {inputs : PlanInputs} {config : PlanConfig} {plan : RecoveryPlan}
    (h : planRecovery inputs config = .ok (.plan plan)) :
    ∃ ctx mesh, Planned inputs config plan ctx mesh ∧ Sources inputs config plan ctx ∧
      ctx.previewEntry = previewEntryFor inputs config ctx.machine := by
  obtain ⟨machine, context, candidates, gcode, fileName, envelope, candidate, resume, hvalid,
    hmachine, hlast, hfile, hfinite, hgcode, henvelope, hcandidate, hresume, hfrom⟩ :=
    planRecovery_planFrom h
  obtain ⟨believedZ, park, nozzle, warnings, hbelieved, hpark, hexcludes, hassemble⟩ :=
    planFrom_ok hfrom
  obtain ⟨mesh, hmesh, hsteps, hpreview, hdebug, henv, hpreflight⟩ := assemble_ok hassemble
  refine ⟨ctxOf inputs config machine context gcode fileName envelope candidate resume believedZ
    park (previewEntryFor inputs config machine), mesh, {
    cfg := rfl
    validated := hvalid
    machine := hmachine
    contextFinite := hfinite
    gcode := hgcode
    envelope := sizeEnvelope_ok henvelope
    candidate := hcandidate
    formula := rfl
    believed := hbelieved
    park := hpark
    preheat := ⟨rfl, rfl⟩
    fans := rfl
    excludes := ⟨rfl, hexcludes⟩
    clean := rfl
    fileName := ⟨fileName, rfl⟩
    meshSteps := hmesh
    steps := hsteps
    preview := hpreview
    debug := hdebug
    planEnvelope := henv
    preflight := hpreflight }, ?_, rfl⟩
  exact ⟨hlast, hresume, fileName, nozzle, warnings, hfile, rfl, hassemble⟩

/-- What a returned plan was made from, and where that comes from. -/
theorem planRecovery_sources {inputs : PlanInputs} {config : PlanConfig} {plan : RecoveryPlan}
    (h : planRecovery inputs config = .ok (.plan plan)) :
    ∃ ctx mesh, Planned inputs config plan ctx mesh ∧ Sources inputs config plan ctx := by
  obtain ⟨ctx, mesh, hplanned, hsources, -⟩ := planRecovery_context h
  exact ⟨ctx, mesh, hplanned, hsources⟩

/-- What a returned plan was made from. -/
theorem planRecovery_plan {inputs : PlanInputs} {config : PlanConfig} {plan : RecoveryPlan}
    (h : planRecovery inputs config = .ok (.plan plan)) :
    ∃ ctx mesh, Planned inputs config plan ctx mesh := by
  obtain ⟨ctx, mesh, hplanned, -⟩ := planRecovery_sources h
  exact ⟨ctx, mesh, hplanned⟩

end Inversion

section Example

/-- A printer with a tap probe and self-locking Z. -/
def exampleMachine : MachineConfig where
  forceMoveEnabled := true
  zSelfLockingAttested := true
  zSteppers := [⟨lit "stepper_z", lit "mcu"⟩]
  primaryMcu := lit "mcu"
  typeAnnotationsPresent := true
  probes := [⟨.tap, 0, true, true⟩]
  zPositionMin := some 0
  configHash := lit "h"
  validatedConfigHash := some (lit "h")
  virtualSdcardRoot := some (lit "/g")
  noiseFloor := none
  noiseFloorSpeed := none
  axisLimits := ⟨some (0, 200), some (0, 200), some 200⟩
  maxAccel := none

def exampleContext : Context where
  monoNs := 0
  virtualSdcard := some ⟨"/g/a.gcode", 10, none⟩
  gcode := ⟨1, 1500, 1, true, true, [0, 0, 0, 0], [50, 50, 2, 7], [50, 50, 2, 7]⟩
  transforms := ⟨false, none, none, none, false, none⟩
  heaters := [⟨"extruder", 200⟩, ⟨"heater_bed", 60⟩]
  fans := []
  exclude := none
  printState := none
  currentLayer := none
  totalLayer := none
  printTime := none

def exampleModel : LayerModel where
  layers := [⟨[⟨.internalInfill, [⟨(50, 50), (60, 50), 10⟩]⟩]⟩]
  moves := [⟨⟨50, 50, 2, 7⟩, ⟨60, 50, 2, 8⟩, 10, .extrusion, some 0, ⟨true, true, true, true⟩⟩]

/-- A print that stopped in its first layer, with one surface to probe. -/
def exampleInputs : PlanInputs where
  machine := exampleMachine
  reconstruction := .recovery [exampleContext] [⟨⟨.fin (19/10), .fin (21/10)⟩, true⟩]
  contact := .candidates [⟨(55, 50), 2⟩]
  matchConfidence := .uniqueLine 10
  model := exampleModel
  fileTemps := ⟨none, none⟩
  excludeObjects := []
  cleanNozzleMacroPresent := true
  purgeMacroPresent := false
  preview := none

def isPlan : Except RecoveryError PlanOutcome → Bool
  | .ok (.plan _) => true
  | _ => false

theorem eq_plan_of_isPlan {r : Except RecoveryError PlanOutcome} (h : isPlan r = true) :
    ∃ plan, r = .ok (.plan plan) := by
  rw [isPlan.eq_def] at h
  split at h
  · exact ⟨_, rfl⟩
  · cases h

theorem exampleInputs_plan : ∃ plan, planRecovery exampleInputs .default = .ok (.plan plan) :=
  eq_plan_of_isPlan (by decide +kernel)

end Example

end DeadReckoning.Recovery
