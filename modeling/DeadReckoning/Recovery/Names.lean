import DeadReckoning.Recovery.Readback

/-! The names that the commands of a plan embed, and which of them survive. -/
namespace DeadReckoning.Recovery

open Wal (Point Context)
open Gcode (CaseMapping parseLine)

section Embeddings

def meshProfile (context : Context) : Option Text :=
  if context.transforms.bedMeshActive then nonEmptyName context.transforms.bedMeshProfile else none

def skewProfile (context : Context) : Option Text :=
  if context.transforms.skewActive then nonEmptyName context.transforms.skewProfile else none

/-- A heater whose name may stand in a command. -/
def restoredHeaters (inputs : PlanInputs) (context : Context) : List (Text × F64) :=
  (derivePreheat context inputs.fileTemps).otherHeaters.filter fun h =>
    !commandNameIsBad (shortName h.1)

/-- The generic fans whose names may stand in a command. -/
def restoredFans (inputs : PlanInputs) (context : Context) : List (Text × F64) :=
  (derivePreheat context inputs.fileTemps).fans.filterMap fun fan =>
    if fan.1 = lit "fan" then none
    else ((Text.stripPrefix (lit "fan_generic ") fan.1).filter (!commandNameIsBad ·)).map (·, fan.2)

/-- The commands that embed a recorded or configured name, and what each is to be read as. -/
inductive Embeds (inputs : PlanInputs) (config : PlanConfig) (context : Context) :
    Text → Reading → Prop
  | stepper (s : ZStepper) (h : s ∈ inputs.machine.zSteppers) :
      Embeds inputs config context (lit "SET_STEPPER_ENABLE STEPPER=" ++ s.name ++ lit " ENABLE=1")
        (.extended (lit "SET_STEPPER_ENABLE") [(lit "STEPPER", s.name), (lit "ENABLE", lit "1")])
  | heater (name : Text) (target : F64) (h : (name, target) ∈ restoredHeaters inputs context) :
      Embeds inputs config context
        (lit "SET_HEATER_TEMPERATURE HEATER=" ++ shortName name ++ lit " TARGET=" ++ fmtNum target)
        (.extended (lit "SET_HEATER_TEMPERATURE")
          [(lit "HEATER", shortName name), (lit "TARGET", fmtNum target)])
  | mesh (profile : Text) (h : meshProfile context = some profile) :
      Embeds inputs config context (lit "BED_MESH_PROFILE LOAD=" ++ profile)
        (.extended (lit "BED_MESH_PROFILE") [(lit "LOAD", profile)])
  | skew (profile : Text) (h : skewProfile context = some profile) :
      Embeds inputs config context (lit "SKEW_PROFILE LOAD=" ++ profile)
        (.extended (lit "SKEW_PROFILE") [(lit "LOAD", profile)])
  | fan (name : Text) (speed : F64) (h : (name, speed) ∈ restoredFans inputs context) :
      Embeds inputs config context
        (lit "SET_FAN_SPEED FAN=" ++ name ++ lit " SPEED=" ++ fmtNum speed)
        (.extended (lit "SET_FAN_SPEED") [(lit "FAN", name), (lit "SPEED", fmtNum speed)])
  | define (d : ExcludeObjectDef) (h : d ∈ inputs.excludeObjects) :
      Embeds inputs config context (excludeDefine d)
        (.extended (lit "EXCLUDE_OBJECT_DEFINE") ((lit "NAME", d.name) :: geometryParams d))
  | exclude (d : ExcludeObjectDef) (h : d ∈ inputs.excludeObjects) (hex : d.currentlyExcluded) :
      Embeds inputs config context (lit "EXCLUDE_OBJECT NAME=" ++ d.name)
        (.extended (lit "EXCLUDE_OBJECT") [(lit "NAME", d.name)])
  | chip (probe : ProbeConfig) (chip : Text) (h : probe ∈ inputs.machine.probes)
      (hkind : probe.kind = .adxlDrag chip) :
      Embeds inputs config context
        (lit "PLR_DRAG_PROBE CHIP=\"" ++ chip ++ lit "\" SPEED=" ++ fmtNum config.dragSpeed ++
          lit " Z_STEP=" ++ fmtNum config.dragZStep ++ lit " SENSITIVITY=" ++
          fmtNum config.dragSensitivity)
        (.extended (lit "PLR_DRAG_PROBE")
          [(lit "CHIP", chip), (lit "SPEED", fmtNum config.dragSpeed),
            (lit "Z_STEP", fmtNum config.dragZStep),
            (lit "SENSITIVITY", fmtNum config.dragSensitivity)])
  | file (name : Text) (h : inputs.printedFile context = some name) :
      Embeds inputs config context (lit "M23 " ++ recoveryFileName name)
        (.rest (lit "M23") (recoveryFileName name))

/-- The names that stand in a command without quotes around them. -/
def unquotedNames (inputs : PlanInputs) (context : Context) : List Text :=
  inputs.machine.zSteppers.map (·.name) ++
    (restoredHeaters inputs context).map (fun h => shortName h.1) ++
    (meshProfile context).toList ++ (skewProfile context).toList ++
    (restoredFans inputs context).map (·.1) ++ inputs.excludeObjects.map (·.name)

/-- Every name can be written the way the planner writes it: nothing in an unquoted name has to be
quoted, the file's name begins with a letter, and the configured macro is one line. -/
structure NamesPlain (inputs : PlanInputs) (config : PlanConfig) (context : Context) : Prop where
  unquoted : ∀ name ∈ unquotedNames inputs context, ∀ c ∈ name, Shell.isPlain c = true
  file : ∀ name, inputs.printedFile context = some name →
    startsWithWord (recoveryFileName name) = true
  macroLine : inputs.cleanNozzleMacroPresent = true → '\n' ∉ config.cleanNozzleMacro

end Embeddings

section Lines

/-- The command is one line. -/
def IsLine (command : Text) : Prop := '\n' ∉ command

theorem isLine_fmtNum (v : F64) : IsLine (fmtNum v) := by
  intro h
  exact absurd (isWhitespace_of_mem_fmtNum h) (by decide)

theorem isLine_append {a b : Text} : IsLine (a ++ b) ↔ IsLine a ∧ IsLine b := by
  rw [IsLine, List.mem_append, not_or]
  rfl

theorem isLine_of_isPlain {t : Text} (h : ∀ c ∈ t, Shell.isPlain c = true) : IsLine t :=
  fun hmem => absurd (h _ hmem) (by decide)

theorem isLine_of_not_bad {t : Text} (h : commandNameIsBad t = false) : IsLine t := by
  intro hmem
  simp only [commandNameIsBad, Bool.or_eq_false_iff, List.any_eq_false] at h
  exact h.2 _ hmem (by decide)

theorem isLine_accelPrefix {value : Option F64} : ∀ c ∈ accelPrefix value, IsLine c := by
  intro c hc
  obtain ⟨v, -, rfl⟩ := Option.map_eq_some_iff.mp (Option.mem_toList.mp hc)
  exact isLine_append.mpr ⟨by simp [IsLine, lit], isLine_fmtNum v⟩

theorem FanCommand.line {command : Text} (h : FanCommand command) : IsLine command := by
  have hnum (v : F64) : '\n' ∉ fmtNum v := isLine_fmtNum v
  cases h with
  | part speed => simp [IsLine, lit, hnum]
  | named suffix speed hgood =>
    have hname := isLine_of_not_bad hgood
    rw [IsLine] at hname
    simp [IsLine, lit, hnum, hname]

theorem isLine_heaterCommands (heaters : List (Text × F64)) :
    ∀ c ∈ heaterCommands heaters, IsLine c := by
  intro c hc
  obtain ⟨heater, hheater, rfl⟩ := List.mem_map.mp hc
  have hgood := (List.mem_filter.mp hheater).2
  have hname := isLine_of_not_bad ((Bool.not_eq_true' _).mp hgood)
  have hnum := isLine_fmtNum heater.2
  rw [IsLine] at hname hnum
  simp [IsLine, lit, hname, hnum]

theorem isLine_excludeDefine {d : ExcludeObjectDef} (hname : IsLine d.name) :
    IsLine (excludeDefine d) := by
  have hparams : IsLine (Shell.spaced ((geometryParams d).map Gcode.paramWord)) := by
    intro hmem
    obtain ⟨w, hw, hc⟩ := List.mem_flatMap.mp hmem
    obtain ⟨p, hp, rfl⟩ := List.mem_map.mp hw
    rcases List.mem_cons.mp hc with hc | hc
    · exact absurd hc (by decide)
    · exact absurd ((isParam_geometry hp).word.2 _ hc) (by decide)
  rw [excludeDefine_eq, namedCommand, Gcode.paramWord]
  rw [IsLine] at hparams hname
  simp [IsLine, lit, hname, hparams]

theorem isLine_probeCommand {ctx : Ctx}
    (hchip : ∀ chip, ctx.machine.probe.kind = .adxlDrag chip → chipEmbeddable chip = true) :
    IsLine (probeCommand ctx) := by
  have hnum (v : F64) : '\n' ∉ fmtNum v := isLine_fmtNum v
  unfold probeCommand
  split
  · rename_i chip hkind
    have hgood := hchip chip hkind
    simp only [chipEmbeddable, Bool.and_eq_true, Bool.not_eq_true', List.any_eq_false] at hgood
    have hname : '\n' ∉ chip := fun hmem => hgood.2 _ hmem (by decide)
    simp [dragCommand, IsLine, lit, hnum, hname]
  all_goals
    split
    · simp [touchCommand, IsLine, lit, hnum]
    · simp [IsLine, lit, hnum]

/-- Every command of a step is one line when the names in it are. -/
theorem Built.line {ctx : Ctx} {s : RecoveryStep} (h : Built ctx s) {fans : List (Text × F64)}
    (hfans : ctx.fanCmds = (fanCommands fans).1)
    (hsteppers : ∀ name ∈ ctx.machine.zStepperNames, IsLine name)
    (hcleanName : ctx.cleanNozzlePresent = true → IsLine ctx.cfg.cleanNozzleMacro)
    (hskew : ∀ c ∈ skewCommands ctx.context.transforms, IsLine c)
    (hchip : IsLine (probeCommand ctx)) (hfile : IsLine ctx.recoveryFileName)
    (hexcludes : ∀ d ∈ ctx.excludes, IsLine d.name) : ∀ c ∈ s.commands, IsLine c := by
  have hnum (v : F64) : '\n' ∉ fmtNum v := isLine_fmtNum v
  have haccel (value : Option F64) : ∀ c ∈ accelPrefix value, '\n' ∉ c := isLine_accelPrefix
  have hlift : '\n' ∉ liftToComputed ctx := by
    simp [liftToComputed, parkZPlaceholder, lit, hnum]
  have htravel (p : Point) : '\n' ∉ travelTo ctx p := by
    simp [travelTo, lit, hnum]
  cases h with
  | idleTimeout => simp [stepIdleTimeout, step, IsLine, lit, hnum]
  | stepperEnable =>
    simp only [stepStepperEnable, step, List.forall_mem_map]
    intro name hname
    have hline := hsteppers name hname
    rw [IsLine] at hline
    simp [IsLine, lit, hline]
  | recoveryAccel _ => exact haccel _
  | immediateBedHeat =>
    have hheaters := isLine_heaterCommands ctx.otherHeaters
    simp only [stepImmediateBedHeat, step, List.mem_append, or_imp, forall_and]
    refine ⟨⟨?_, hheaters⟩, ?_⟩
    · simp [IsLine, lit, hnum]
    · simp [IsLine, lit, hnum]
  | believedZDeclare => simp [stepBelievedZDeclare, step, IsLine, lit, hnum]
  | homeXy =>
    simp only [stepHomeXy, step, List.mem_append, or_imp, forall_and]
    exact ⟨haccel _, by simp [IsLine, lit]⟩
  | probeTempHold s hhold =>
    obtain ⟨target, -, rfl⟩ := Option.map_eq_some_iff.mp hhold
    simp [step, IsLine, lit, hnum]
  | cleanNozzle =>
    simp only [stepCleanNozzle, step]
    split
    · simpa using hcleanName ‹_›
    · simp
  | transformFreeze => simp [stepTransformFreeze, step, IsLine, lit]
  | shiftedFrame => simp [stepShiftedFrame, step, IsLine, lit, hnum]
  | probeApproach =>
    simp only [stepProbeApproach, step, List.mem_append, or_imp, forall_and]
    exact ⟨haccel _, by simp [IsLine, lit, htravel]⟩
  | accelClamp _ => simp [stepAccelClamp, step, IsLine, lit, hnum]
  | probe =>
    simp only [stepProbe, step, List.mem_append, or_imp, forall_and]
    constructor
    · split
      · simp
      · exact haccel _
    · simpa using hchip
  | accelRestore _ => simp [stepAccelRestore, restoreAccel, restoreAccelPlaceholder, step, IsLine, lit]
  | trueZDeclare => simp [stepTrueZDeclare, declareTrueZ, trueZPlaceholder, step, IsLine, lit]
  | zConfirmStandoff =>
    simp only [stepZConfirmStandoff, step, List.mem_append, or_imp, forall_and]
    exact ⟨haccel _, by simp [IsLine, lit, hlift]⟩
  | resumePreview entry _ =>
    simp only [stepResumePreview, step, List.mem_append, or_imp, forall_and]
    exact ⟨haccel _, by simp [IsLine, lit, hlift, hnum]⟩
  | meshLoad profile hgood =>
    have hname := isLine_of_not_bad hgood
    rw [IsLine] at hname
    simp [stepMeshLoad, step, IsLine, lit, hname]
  | finalDeclare => simp [stepFinalDeclare, declareTrueZ, trueZPlaceholder, step, IsLine, lit]
  | parkForReheat =>
    simp only [stepParkForReheat, step, List.mem_append, or_imp, forall_and]
    exact ⟨haccel _, by simp [IsLine, lit, hlift, htravel]⟩
  | restoreFrame =>
    simp only [stepRestoreFrame, step, List.mem_append, or_imp, forall_and]
    refine ⟨⟨by simp [IsLine, lit, hnum], hskew⟩, fun c hc => ?_⟩
    rw [hfans] at hc
    exact (fanCommands_mem hc).line
  | recoveryAccelRestore _ =>
    simp [stepRecoveryAccelRestore, restoreAccel, machineAccelPlaceholder, step, IsLine, lit]
  | recoveryFileSelect =>
    simp only [stepRecoveryFileSelect, step, List.mem_append, or_imp, forall_and,
      List.forall_mem_map]
    rw [IsLine] at hfile
    refine ⟨⟨⟨by simp [IsLine, lit, hfile], fun d hd => isLine_excludeDefine (hexcludes d hd)⟩,
      fun d hd => ?_⟩, by simp [IsLine, lit]⟩
    have hline := hexcludes d (List.mem_of_mem_filter hd)
    rw [IsLine] at hline
    simp [IsLine, lit, hline]

end Lines

section Unquoted

open Gcode (IsParam isRun)

variable {cases : CaseMapping} {inputs : PlanInputs} {config : PlanConfig} {context : Context}

/-- The parts of a command around the name in it. -/
structure IsNaming (word key : Text) (params : List (Text × Text)) : Prop where
  head : IsHead word
  nonempty : key ≠ []
  run : ∀ c ∈ key, isRun c = true
  params : ∀ p ∈ params, IsParam p

/-- The command embeds the name without quotes. -/
def EmbedsName (name command : Text) (r : Reading) : Prop :=
  ∃ word key params, IsNaming word key params ∧ command = namedCommand word key name params ∧
    r = .extended word ((key, name) :: params)

theorem EmbedsName.reads_iff {name command : Text} {r : Reading} (h : EmbedsName name command r) :
    Reads cases command r ↔ ∀ c ∈ name, Shell.isPlain c = true := by
  obtain ⟨word, key, params, hnaming, rfl, rfl⟩ := h
  exact reads_namedCommand_iff hnaming.head hnaming.nonempty hnaming.run hnaming.params

theorem naming_stepper : IsNaming (lit "SET_STEPPER_ENABLE") (lit "STEPPER")
    [(lit "ENABLE", lit "1")] := by
  refine ⟨by decide, by decide, by decide, fun p hp => ?_⟩
  obtain rfl := List.mem_singleton.mp hp
  exact ⟨by decide, by decide, by decide⟩

theorem naming_load (word : Text) (hword : IsHead word) : IsNaming word (lit "LOAD") [] :=
  ⟨hword, by decide, by decide, nofun⟩

theorem naming_number {word key param : Text} (v : F64) (hword : IsHead word) (hkey : IsHead key)
    (hparam : IsHead param) : IsNaming word key [(param, fmtNum v)] := by
  refine ⟨hword, hkey.nonempty, hkey.run, fun p hp => ?_⟩
  obtain rfl := List.mem_singleton.mp hp
  exact isParam_number hparam.nonempty hparam.run

theorem embedsName_stepper (name : Text) :
    EmbedsName name (lit "SET_STEPPER_ENABLE STEPPER=" ++ name ++ lit " ENABLE=1")
      (.extended (lit "SET_STEPPER_ENABLE") [(lit "STEPPER", name), (lit "ENABLE", lit "1")]) :=
  ⟨_, _, _, naming_stepper, by simp [namedCommand, Gcode.paramWord, Shell.spaced, lit], rfl⟩

theorem embedsName_heater (name : Text) (target : F64) :
    EmbedsName name
      (lit "SET_HEATER_TEMPERATURE HEATER=" ++ name ++ lit " TARGET=" ++ fmtNum target)
      (.extended (lit "SET_HEATER_TEMPERATURE")
        [(lit "HEATER", name), (lit "TARGET", fmtNum target)]) :=
  ⟨_, _, _, naming_number target (by decide) (by decide) (by decide),
    by simp [namedCommand, Gcode.paramWord, Shell.spaced, lit], rfl⟩

theorem embedsName_fan (name : Text) (speed : F64) :
    EmbedsName name (lit "SET_FAN_SPEED FAN=" ++ name ++ lit " SPEED=" ++ fmtNum speed)
      (.extended (lit "SET_FAN_SPEED") [(lit "FAN", name), (lit "SPEED", fmtNum speed)]) :=
  ⟨_, _, _, naming_number speed (by decide) (by decide) (by decide),
    by simp [namedCommand, Gcode.paramWord, Shell.spaced, lit], rfl⟩

theorem embedsName_mesh (name : Text) :
    EmbedsName name (lit "BED_MESH_PROFILE LOAD=" ++ name)
      (.extended (lit "BED_MESH_PROFILE") [(lit "LOAD", name)]) :=
  ⟨_, _, _, naming_load _ (by decide), by simp [namedCommand, Gcode.paramWord, Shell.spaced, lit],
    rfl⟩

theorem embedsName_skew (name : Text) :
    EmbedsName name (lit "SKEW_PROFILE LOAD=" ++ name)
      (.extended (lit "SKEW_PROFILE") [(lit "LOAD", name)]) :=
  ⟨_, _, _, naming_load _ (by decide), by simp [namedCommand, Gcode.paramWord, Shell.spaced, lit],
    rfl⟩

theorem embedsName_define (d : ExcludeObjectDef) :
    EmbedsName d.name (excludeDefine d)
      (.extended (lit "EXCLUDE_OBJECT_DEFINE") ((lit "NAME", d.name) :: geometryParams d)) :=
  ⟨_, _, _, ⟨by decide, by decide, by decide, fun _ hp => isParam_geometry hp⟩, excludeDefine_eq d,
    rfl⟩

theorem embedsName_exclude (name : Text) :
    EmbedsName name (lit "EXCLUDE_OBJECT NAME=" ++ name)
      (.extended (lit "EXCLUDE_OBJECT") [(lit "NAME", name)]) :=
  ⟨lit "EXCLUDE_OBJECT", lit "NAME", [], ⟨by decide, by decide, by decide, nofun⟩,
    by simp [namedCommand, Gcode.paramWord, Shell.spaced, lit], rfl⟩

end Unquoted

section Plan

variable {cases : CaseMapping} {inputs : PlanInputs} {config : PlanConfig} {plan : RecoveryPlan}
  {ctx : Ctx} {mesh : List RecoveryStep} {command : Text} {r : Reading}

theorem reads_chip {chip : Text} (speed zStep sensitivity : F64) (hchip : chipEmbeddable chip = true) :
    Reads cases (lit "PLR_DRAG_PROBE CHIP=\"" ++ chip ++ lit "\" SPEED=" ++ fmtNum speed ++
      lit " Z_STEP=" ++ fmtNum zStep ++ lit " SENSITIVITY=" ++ fmtNum sensitivity)
      (.extended (lit "PLR_DRAG_PROBE") [(lit "CHIP", chip), (lit "SPEED", fmtNum speed),
        (lit "Z_STEP", fmtNum zStep), (lit "SENSITIVITY", fmtNum sensitivity)]) := by
  have hkeys : IsHead (lit "SPEED") ∧ IsHead (lit "Z_STEP") ∧ IsHead (lit "SENSITIVITY") := by decide
  have hparams : ∀ p ∈ [(lit "SPEED", fmtNum speed), (lit "Z_STEP", fmtNum zStep),
      (lit "SENSITIVITY", fmtNum sensitivity)], Gcode.IsParam p := by
    intro p hp
    simp only [List.mem_cons, List.not_mem_nil, or_false] at hp
    rcases hp with rfl | rfl | rfl
    · exact isParam_number hkeys.1.nonempty hkeys.1.run
    · exact isParam_number hkeys.2.1.nonempty hkeys.2.1.run
    · exact isParam_number hkeys.2.2.nonempty hkeys.2.2.run
  have hname : ∀ c ∈ chip, c ≠ '"' ∧ c ≠ '\\' := by
    intro c hc
    simp only [chipEmbeddable, Bool.and_eq_true, Bool.not_eq_true', List.any_eq_false] at hchip
    have hgood := hchip.2 c hc
    simp only [Bool.or_eq_true, decide_eq_true_eq, not_or] at hgood
    exact ⟨hgood.1.2, hgood.2⟩
  have hread := @reads_quoted cases (lit "PLR_DRAG_PROBE") (lit "CHIP") chip _ (by decide) (by decide)
    (by decide) hparams (by simp) hname
  simpa [lit, Gcode.paramWord, Shell.spaced] using hread

theorem mem_addFan {out : List Text × List PlanWarning} {fan : Text × F64} {c : Text}
    (h : c ∈ out.1) : c ∈ (addFan out fan).1 := by
  obtain ⟨name, speed⟩ := fan
  unfold addFan
  dsimp only
  split
  · exact List.mem_append_left _ h
  · split
    · split
      · exact h
      · exact List.mem_append_left _ h
    · split
      · exact h
      · exact h

theorem mem_foldl_addFan {fans : List (Text × F64)} {out : List Text × List PlanWarning} {c : Text}
    (h : c ∈ out.1) : c ∈ (fans.foldl addFan out).1 := by
  induction fans generalizing out with
  | nil => exact h
  | cons fan fans ih => exact ih (mem_addFan h)

/-- A fan with a name that may stand in a command is restored. -/
theorem mem_fanCommands {fans : List (Text × F64)} {name suffix : Text} {speed : F64}
    (hmem : (name, speed) ∈ fans) (hfan : name ≠ lit "fan")
    (hsuffix : Text.stripPrefix (lit "fan_generic ") name = some suffix)
    (hgood : commandNameIsBad suffix = false) :
    lit "SET_FAN_SPEED FAN=" ++ suffix ++ lit " SPEED=" ++ fmtNum speed ∈ (fanCommands fans).1 := by
  obtain ⟨before, after, rfl⟩ := List.append_of_mem hmem
  rw [fanCommands, List.foldl_append, List.foldl_cons]
  apply mem_foldl_addFan
  simp [addFan, hfan, hsuffix, hgood]

/-- A command that embeds a name is a command of the plan. -/
theorem Embeds.emitted (hplanned : Planned inputs config plan ctx mesh)
    (hsources : Sources inputs config plan ctx) (h : Embeds inputs config ctx.context command r) :
    ∃ s ∈ plan.steps, command ∈ s.commands := by
  obtain ⟨-, probe, hprobes, hprobe, -, hnames, -⟩ := validateMachine_eq_ok hplanned.machine
  have hemit (s₀ : RecoveryStep) (hs₀ : s₀ ∈ stepsInOrder ctx mesh) (hc : command ∈ s₀.commands) :
      ∃ s ∈ plan.steps, command ∈ s.commands := by
    obtain ⟨s, hs, hnumbered⟩ := hplanned.mem_steps hs₀
    exact ⟨s, hs, by rw [hnumbered]; exact hc⟩
  cases h with
  | stepper s hs =>
    refine hemit (stepStepperEnable ctx) (by simp [stepsInOrder, preparation]) ?_
    refine List.mem_map.mpr ⟨s.name, ?_, rfl⟩
    rw [hnames]
    exact List.mem_map_of_mem hs
  | heater name target hheater =>
    refine hemit (stepImmediateBedHeat ctx) (by simp [stepsInOrder, preparation]) ?_
    rw [restoredHeaters, ← hplanned.preheat.2] at hheater
    exact List.mem_append_left _ (List.mem_append_right _ (List.mem_map.mpr ⟨_, hheater, rfl⟩))
  | mesh profile hprofile =>
    have hmesh := hplanned.meshSteps
    refine hemit (stepMeshLoad profile) ?_ (List.mem_singleton.mpr rfl)
    rw [meshProfile] at hprofile
    split at hprofile
    · rename_i hactive
      rw [DeadReckoning.Recovery.meshSteps, if_pos hactive, hprofile] at hmesh
      obtain ⟨⟨⟩, -, hok⟩ := bind_eq_ok.mp hmesh
      obtain rfl := Except.ok.inj hok
      simp [stepsInOrder]
    · cases hprofile
  | skew profile hprofile =>
    refine hemit (stepRestoreFrame ctx) (by simp [stepsInOrder, resumption]) ?_
    refine List.mem_append_left _ (List.mem_append_right _ ?_)
    rw [skewProfile] at hprofile
    split at hprofile
    · rename_i hactive
      simp [skewCommands, hactive, hprofile]
    · cases hprofile
  | fan name speed hfan =>
    refine hemit (stepRestoreFrame ctx) (by simp [stepsInOrder, resumption]) ?_
    refine List.mem_append_right _ ?_
    rw [hplanned.fans]
    obtain ⟨⟨full, speed'⟩, hmem, hname⟩ := List.mem_filterMap.mp hfan
    split at hname
    · cases hname
    · rename_i hne
      simp only [Option.map_eq_some_iff, Option.filter_eq_some_iff, Prod.mk.injEq] at hname
      obtain ⟨suffix, ⟨hsuffix, hgood⟩, rfl, rfl⟩ := hname
      exact mem_fanCommands hmem hne hsuffix (by simpa using hgood)
  | define d hd =>
    refine hemit (stepRecoveryFileSelect ctx) (by simp [stepsInOrder, resumption]) ?_
    rw [← hplanned.excludes.1] at hd
    exact List.mem_append_left _ (List.mem_append_left _ (List.mem_append_right _
      (List.mem_map_of_mem hd)))
  | exclude d hd hexcluded =>
    refine hemit (stepRecoveryFileSelect ctx) (by simp [stepsInOrder, resumption]) ?_
    rw [← hplanned.excludes.1] at hd
    refine List.mem_append_left _ (List.mem_append_right _ (List.mem_map.mpr ⟨d, ?_, rfl⟩))
    exact List.mem_filter.mpr ⟨hd, hexcluded⟩
  | chip probe' chip hmem hkind =>
    refine hemit (stepProbe ctx) (by simp [stepsInOrder, probing]) ?_
    rw [hprobes, List.mem_singleton] at hmem
    subst hmem
    refine List.mem_append_right _ (List.mem_singleton.mpr ?_)
    rw [probeCommand, hprobe, hkind]
    simp only [dragCommand, hplanned.cfg]
  | file name hname =>
    refine hemit (stepRecoveryFileSelect ctx) (by simp [stepsInOrder, resumption]) ?_
    obtain ⟨fileName, nozzle, warnings, hfile, hrecovery, -⟩ := hsources.assembled
    obtain rfl := Option.some.inj (hname.symm.trans hfile)
    exact List.mem_append_left _ (List.mem_append_left _ (List.mem_append_left _
      (List.mem_singleton.mpr (by rw [hrecovery]))))

/-- Every command is one line, and every command that embeds a name is read back with that name as
the value of its parameter, with the parameters that were meant and no others. -/
def NamesSurvive (cases : CaseMapping) (inputs : PlanInputs) (config : PlanConfig)
    (plan : RecoveryPlan) (context : Context) : Prop :=
  ∀ s ∈ plan.steps, ∀ command ∈ s.commands,
    IsLine command ∧ ∀ r, Embeds inputs config context command r → Reads cases command r

theorem isNameChar_lit : (∀ c ∈ lit "recovery", isNameChar c = true) ∧
    ∀ c ∈ lit "_RECOVERY.gcode", isNameChar c = true := by decide

theorem isNameChar_recoveryFileName {name : Text} :
    (∀ c ∈ recoveryFileName name, isNameChar c = true) ∧ recoveryFileName name ≠ [] := by
  constructor
  · intro c hc
    rcases List.mem_append.mp hc with hc | hc
    · unfold sanitizeName at hc
      dsimp only at hc
      split at hc
      · exact isNameChar_lit.1 c hc
      · obtain ⟨d, -, rfl⟩ := List.mem_map.mp hc
        split
        · assumption
        · decide
    · exact isNameChar_lit.2 c hc
  · simp [recoveryFileName, lit]

/-- A name without quotes around it is in some command. -/
theorem exists_embedsName {context : Context} {name : Text}
    (h : name ∈ unquotedNames inputs context) :
    ∃ command r, Embeds inputs config context command r ∧ EmbedsName name command r := by
  simp only [unquotedNames, List.mem_append, List.mem_map, Option.mem_toList] at h
  rcases h with ((((⟨s, hs, rfl⟩ | ⟨heater, hheater, rfl⟩) | hmesh) | hskew) | ⟨fan, hfan, rfl⟩) |
    ⟨d, hd, rfl⟩
  · exact ⟨_, _, .stepper s hs, embedsName_stepper _⟩
  · exact ⟨_, _, .heater heater.1 heater.2 hheater, embedsName_heater _ _⟩
  · exact ⟨_, _, .mesh name hmesh, embedsName_mesh _⟩
  · exact ⟨_, _, .skew name hskew, embedsName_skew _⟩
  · exact ⟨_, _, .fan fan.1 fan.2 hfan, embedsName_fan _ _⟩
  · exact ⟨_, _, .define d hd, embedsName_define d⟩

/-- Names that have nothing to quote are read back. -/
theorem Embeds.reads {context : Context} (hplain : NamesPlain inputs config context)
    {machine : ValidatedMachine} (hmachine : validateMachine inputs.machine = .ok machine)
    (h : Embeds inputs config context command r) : Reads cases command r := by
  have hunquoted : ∀ name ∈ unquotedNames inputs context, EmbedsName name command r →
      Reads cases command r := fun name hname hembeds =>
    hembeds.reads_iff.mpr (hplain.unquoted name hname)
  simp only [unquotedNames, List.mem_append, List.mem_map, Option.mem_toList] at hunquoted
  cases h with
  | stepper s hs =>
    exact hunquoted s.name (.inl (.inl (.inl (.inl (.inl ⟨s, hs, rfl⟩))))) (embedsName_stepper _)
  | heater name target hheater =>
    exact hunquoted _ (.inl (.inl (.inl (.inl (.inr ⟨_, hheater, rfl⟩))))) (embedsName_heater _ _)
  | mesh profile hprofile =>
    exact hunquoted _ (.inl (.inl (.inl (.inr hprofile)))) (embedsName_mesh _)
  | skew profile hprofile =>
    exact hunquoted _ (.inl (.inl (.inr hprofile))) (embedsName_skew _)
  | fan name speed hfan =>
    exact hunquoted _ (.inl (.inr ⟨_, hfan, rfl⟩)) (embedsName_fan _ _)
  | define d hd => exact hunquoted _ (.inr ⟨d, hd, rfl⟩) (embedsName_define d)
  | exclude d hd hexcluded => exact hunquoted _ (.inr ⟨d, hd, rfl⟩) (embedsName_exclude _)
  | chip probe chip hmem hkind =>
    obtain ⟨-, probe', hprobes, hprobe, -⟩ := validateMachine_eq_ok hmachine
    rw [hprobes, List.mem_singleton] at hmem
    subst hmem
    exact reads_chip _ _ _ ((validateMachine_probe hmachine).2 chip (by rw [hprobe, hkind]))
  | file name hname =>
    obtain ⟨hchars, hne⟩ := @isNameChar_recoveryFileName name
    exact (reads_select_iff hchars hne).mpr (hplain.file name hname)

end Plan

section Example

/-- The default print with an object whose name has a hash in it. -/
def hashInputs : PlanInputs :=
  { exampleInputs with excludeObjects := [⟨lit "part#1", none, [], false⟩] }

example : parseLine Gcode.asciiCase (lit "EXCLUDE_OBJECT NAME=part#1") =
    .command ⟨lit "EXCLUDE_OBJECT", .extended (lit "NAME=part#1")
      (some [(lit "NAME", lit "part")])⟩ none := by
  decide +kernel

end Example

end DeadReckoning.Recovery
