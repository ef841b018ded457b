import DeadReckoning.Recovery.Shape

/-! The first word of every command of a plan, which no number in it can change. -/
namespace DeadReckoning.Recovery

open Wal (Point)

section Heads

/-- The command is the word, alone or before a blank. -/
def Headed (word command : Text) : Prop :=
  command = word ∨ ∃ rest, command = word ++ ' ' :: rest

/-- A word that stands at the head of a command. -/
structure IsWord (word : Text) : Prop where
  nonempty : word ≠ []
  solid : ∀ c ∈ word, Text.isWhitespace c = false
  plain : '{' ∉ word

instance (word : Text) : Decidable (IsWord word) :=
  decidable_of_iff (word ≠ [] ∧ (∀ c ∈ word, Text.isWhitespace c = false) ∧ '{' ∉ word)
    ⟨fun h => ⟨h.1, h.2.1, h.2.2⟩, fun h => ⟨h.nonempty, h.solid, h.plain⟩⟩

variable {word command : Text}

theorem Headed.words (hword : IsWord word) (h : Headed word command) :
    ∃ rest, Text.words command = word :: rest := by
  have hself := Text.words_of_forall hword.solid hword.nonempty
  rcases h with rfl | ⟨rest, rfl⟩
  · exact ⟨[], hself⟩
  · refine ⟨Text.words rest, ?_⟩
    rw [Text.words_append_cons (by decide), hself]
    rfl

theorem Headed.firstWord_eq (hword : IsWord word) (h : Headed word command) :
    firstWord command = Text.upper word := by
  obtain ⟨rest, hwords⟩ := h.words hword
  rw [firstWord, hwords]
  rfl

/-- Replacing something that begins with a brace leaves the head. -/
theorem Headed.replace (hword : IsWord word) (h : Headed word command) (p : Text) (rep : Text) :
    Headed word (Text.replace command ('{' :: p) rep) := by
  rcases h with rfl | ⟨rest, rfl⟩
  · exact .inl (Text.replace_of_notMem hword.plain)
  · have hblank : '{' ∉ word ++ [' '] := by
      rw [List.mem_append, not_or]
      exact ⟨hword.plain, by decide⟩
    refine .inr ⟨Text.replace rest ('{' :: p) rep, ?_⟩
    have hcopy := @Text.replace_append rep (word ++ [' ']) rest '{' p hblank
    simpa using hcopy

end Heads

/-- The words that the commands of a phase begin with, without the override of the
acceleration and the macro that cleans the nozzle. -/
def phaseWords : Phase → List Text
  | .idleTimeout => [lit "SET_IDLE_TIMEOUT"]
  | .stepperEnable => [lit "SET_STEPPER_ENABLE"]
  | .immediateBedHeat => [lit "M140", lit "SET_HEATER_TEMPERATURE", lit "M104"]
  | .believedZDeclare => [lit "SET_KINEMATIC_POSITION", lit "G91", lit "G1", lit "G90"]
  | .homeXy => [lit "G28"]
  | .probeTempHold => [lit "M109"]
  | .transformFreeze => [lit "SET_Z_THERMAL_ADJUST"]
  | .shiftedFrame | .trueZDeclare | .finalDeclare => [lit "SET_KINEMATIC_POSITION"]
  | .probeApproach => [lit "G90", lit "G0"]
  | .accelClamp | .accelRestore | .recoveryAccelRestore => [lit "SET_VELOCITY_LIMIT"]
  | .probe => [lit "PLR_DRAG_PROBE", lit "PLR_TOUCH", lit "PROBE"]
  | .zConfirmStandoff => [lit "G90", lit "G1"]
  | .resumePreview => [lit "G90", lit "G1", lit "M104"]
  | .meshLoad => [lit "BED_MESH_PROFILE"]
  | .parkForReheat => [lit "G90", lit "G1", lit "G0"]
  | .restoreFrame => [lit "SET_GCODE_OFFSET", lit "M220", lit "M221", lit "SKEW_PROFILE",
      lit "M106", lit "SET_FAN_SPEED"]
  | .recoveryFileSelect => [lit "M23", lit "EXCLUDE_OBJECT_DEFINE", lit "EXCLUDE_OBJECT",
      lit "M24"]
  | .recoveryAccel | .cleanNozzle => []

theorem isWord_of_mem_phaseWords {phase : Phase} {word : Text} (h : word ∈ phaseWords phase) :
    IsWord word := by
  revert word
  cases phase <;> decide

section Fans

/-- A fan is restored by its speed, the part fan under no name and the others under theirs. -/
inductive FanCommand : Text → Prop
  | part (speed : F64) : FanCommand (lit "M106 S" ++ fmtNum speed)
  | named (suffix : Text) (speed : F64) (h : commandNameIsBad suffix = false) :
      FanCommand (lit "SET_FAN_SPEED FAN=" ++ suffix ++ lit " SPEED=" ++ fmtNum speed)

theorem addFan_mem {out : List Text × List PlanWarning} {fan : Text × F64}
    (hout : ∀ c ∈ out.1, FanCommand c) : ∀ c ∈ (addFan out fan).1, FanCommand c := by
  obtain ⟨name, speed⟩ := fan
  have hsnoc {c : Text} (hc : FanCommand c) : ∀ d ∈ out.1 ++ [c], FanCommand d := by
    intro d hd
    rcases List.mem_append.mp hd with hd | hd
    · exact hout d hd
    · exact List.mem_singleton.mp hd ▸ hc
  unfold addFan
  dsimp only
  split
  · exact hsnoc (.part _)
  · split
    · split
      · exact hout
      · rename_i hgood
        exact hsnoc (.named _ _ (Bool.not_eq_true _ ▸ hgood))
    · split
      · exact hout
      · exact hout

theorem foldl_addFan_mem {fans : List (Text × F64)} {out : List Text × List PlanWarning}
    (hout : ∀ c ∈ out.1, FanCommand c) : ∀ c ∈ (fans.foldl addFan out).1, FanCommand c := by
  induction fans generalizing out with
  | nil => exact hout
  | cons fan fans ih => exact ih (addFan_mem hout)

theorem fanCommands_mem {fans : List (Text × F64)} {command : Text}
    (h : command ∈ (fanCommands fans).1) : FanCommand command :=
  foldl_addFan_mem (fun _ hc => absurd hc List.not_mem_nil) command h

theorem FanCommand.headed {command : Text} (h : FanCommand command) :
    Headed (lit "M106") command ∨ Headed (lit "SET_FAN_SPEED") command := by
  cases h with
  | part speed => exact .inl (.inr ⟨_, rfl⟩)
  | named suffix speed _ => exact .inr (.inr ⟨_, rfl⟩)

end Fans

section Commands

variable {ctx : Ctx}

/-- The override of the acceleration stands in front of a phase only when one is configured. -/
theorem accelPrefix_mem {command : Text} {value : Option F64} (h : command ∈ accelPrefix value) :
    value.isSome = true ∧ Headed (lit "SET_VELOCITY_LIMIT") command := by
  rw [accelPrefix, Option.mem_toList, Option.map_eq_some_iff] at h
  obtain ⟨v, rfl, rfl⟩ := h
  exact ⟨rfl, .inr ⟨_, rfl⟩⟩

/-- The phases that an override of the acceleration may stand in front of. -/
def accelPhases : List Phase :=
  [.recoveryAccel, .homeXy, .probeApproach, .probe, .zConfirmStandoff, .resumePreview,
    .parkForReheat]

/-- A command of a step begins with a word of its phase, is the override of the acceleration, or
is the macro that cleans the nozzle. -/
def Known (ctx : Ctx) (phase : Phase) (command : Text) : Prop :=
  (phase = .cleanNozzle ∧ ctx.cleanNozzlePresent = true ∧ command = ctx.cfg.cleanNozzleMacro) ∨
    (phase ∈ accelPhases ∧ usesAccelOverrides ctx.cfg = true ∧
      Headed (lit "SET_VELOCITY_LIMIT") command) ∨
    ∃ word ∈ phaseWords phase, Headed word command

theorem Known.word (phase : Phase) (word : Text) {command : Text} (hword : word ∈ phaseWords phase)
    (h : Headed word command) : Known ctx phase command :=
  .inr (.inr ⟨word, hword, h⟩)

theorem Known.accel (phase : Phase) {command : Text} {value : Option F64}
    (hphase : phase ∈ accelPhases) (h : command ∈ accelPrefix value)
    (huses : value.isSome = true → usesAccelOverrides ctx.cfg = true) :
    Known ctx phase command :=
  .inr (.inl ⟨hphase, huses (accelPrefix_mem h).1, (accelPrefix_mem h).2⟩)

theorem usesAccelOverrides_of {cfg : PlanConfig} :
    (cfg.recoveryAccel.isSome = true → usesAccelOverrides cfg = true) ∧
    (cfg.accelHome.isSome = true → usesAccelOverrides cfg = true) ∧
    (cfg.accelTravel.isSome = true → usesAccelOverrides cfg = true) ∧
    (cfg.accelProbe.isSome = true → usesAccelOverrides cfg = true) ∧
    (cfg.accelEntry.isSome = true → usesAccelOverrides cfg = true) := by
  simp only [usesAccelOverrides, Bool.or_eq_true]
  tauto

theorem Built.known {s : RecoveryStep} (h : Built ctx s) {fans : List (Text × F64)}
    (hfans : ctx.fanCmds = (fanCommands fans).1) {command : Text} (hc : command ∈ s.commands) :
    Known ctx s.phase command := by
  obtain ⟨hrecovery, hhome, htravel, hprobe, hentry⟩ := @usesAccelOverrides_of ctx.cfg
  cases h with
  | idleTimeout =>
    obtain rfl := List.mem_singleton.mp hc
    exact Known.word .idleTimeout (lit "SET_IDLE_TIMEOUT") (by decide) (.inr ⟨_, rfl⟩)
  | stepperEnable =>
    obtain ⟨name, -, rfl⟩ := List.mem_map.mp hc
    have hword : lit "SET_STEPPER_ENABLE" ∈ phaseWords .stepperEnable := by decide
    exact Known.word .stepperEnable _ hword (.inr ⟨lit "STEPPER=" ++ name ++ lit " ENABLE=1", rfl⟩)
  | recoveryAccel _ => exact Known.accel .recoveryAccel (by decide) hc hrecovery
  | immediateBedHeat =>
    rcases List.mem_append.mp hc with hc | hc
    · rcases List.mem_append.mp hc with hc | hc
      · obtain ⟨bed, -, rfl⟩ := Option.map_eq_some_iff.mp (Option.mem_toList.mp hc)
        exact Known.word .immediateBedHeat (lit "M140") (by decide) (.inr ⟨_, rfl⟩)
      · obtain ⟨heater, -, rfl⟩ := List.mem_map.mp hc
        exact Known.word .immediateBedHeat (lit "SET_HEATER_TEMPERATURE") (by decide)
          (.inr ⟨_, rfl⟩)
    · obtain ⟨target, -, rfl⟩ := Option.map_eq_some_iff.mp (Option.mem_toList.mp hc)
      exact Known.word .immediateBedHeat (lit "M104") (by decide) (.inr ⟨_, rfl⟩)
  | believedZDeclare =>
    rcases List.mem_cons.mp hc with rfl | hc
    · exact Known.word .believedZDeclare (lit "SET_KINEMATIC_POSITION") (by decide) (.inr ⟨_, rfl⟩)
    rcases List.mem_cons.mp hc with rfl | hc
    · exact Known.word .believedZDeclare (lit "G91") (by decide) (.inl rfl)
    rcases List.mem_cons.mp hc with rfl | hc
    · exact Known.word .believedZDeclare (lit "G1") (by decide) (.inr ⟨_, rfl⟩)
    · obtain rfl := List.mem_singleton.mp hc
      exact Known.word .believedZDeclare (lit "G90") (by decide) (.inl rfl)
  | homeXy =>
    rcases List.mem_append.mp hc with hc | hc
    · exact Known.accel .homeXy (by decide) hc hhome
    · obtain rfl := List.mem_singleton.mp hc
      exact Known.word .homeXy (lit "G28") (by decide) (.inr ⟨_, rfl⟩)
  | probeTempHold s hhold =>
    rw [stepProbeTempHold, Option.map_eq_some_iff] at hhold
    obtain ⟨target, -, rfl⟩ := hhold
    obtain rfl := List.mem_singleton.mp hc
    exact Known.word .probeTempHold (lit "M109") (by decide) (.inr ⟨_, rfl⟩)
  | cleanNozzle =>
    change command ∈ (if ctx.cleanNozzlePresent then [ctx.cfg.cleanNozzleMacro] else []) at hc
    split at hc
    · rename_i hpresent
      exact .inl ⟨rfl, hpresent, List.mem_singleton.mp hc⟩
    · cases hc
  | transformFreeze =>
    obtain rfl := List.mem_singleton.mp hc
    exact Known.word .transformFreeze (lit "SET_Z_THERMAL_ADJUST") (by decide) (.inr ⟨_, rfl⟩)
  | shiftedFrame =>
    obtain rfl := List.mem_singleton.mp hc
    exact Known.word .shiftedFrame (lit "SET_KINEMATIC_POSITION") (by decide) (.inr ⟨_, rfl⟩)
  | probeApproach =>
    rcases List.mem_append.mp hc with hc | hc
    · exact Known.accel .probeApproach (by decide) hc htravel
    rcases List.mem_cons.mp hc with rfl | hc
    · exact Known.word .probeApproach (lit "G90") (by decide) (.inl rfl)
    · obtain rfl := List.mem_singleton.mp hc
      exact Known.word .probeApproach (lit "G0") (by decide) (.inr ⟨_, rfl⟩)
  | accelClamp _ =>
    obtain rfl := List.mem_singleton.mp hc
    exact Known.word .accelClamp (lit "SET_VELOCITY_LIMIT") (by decide) (.inr ⟨_, rfl⟩)
  | probe =>
    rcases List.mem_append.mp hc with hc | hc
    · split at hc
      · cases hc
      · exact Known.accel .probe (by decide) hc hprobe
    · obtain rfl := List.mem_singleton.mp hc
      show Known ctx .probe (probeCommand ctx)
      unfold probeCommand
      split
      · exact Known.word .probe (lit "PLR_DRAG_PROBE") (by decide) (.inr ⟨_, rfl⟩)
      all_goals
        split
        · exact Known.word .probe (lit "PLR_TOUCH") (by decide) (.inr ⟨_, rfl⟩)
        · have hword : lit "PROBE" ∈ phaseWords .probe := by decide
          exact Known.word .probe _ hword
            (.inr ⟨lit "PROBE_SPEED=" ++ fmtNum ctx.cfg.probeSpeed ++ lit " SAMPLES=1", rfl⟩)
  | accelRestore _ =>
    obtain rfl := List.mem_singleton.mp hc
    exact Known.word .accelRestore (lit "SET_VELOCITY_LIMIT") (by decide) (.inr ⟨_, rfl⟩)
  | trueZDeclare =>
    obtain rfl := List.mem_singleton.mp hc
    exact Known.word .trueZDeclare (lit "SET_KINEMATIC_POSITION") (by decide) (.inr ⟨_, rfl⟩)
  | zConfirmStandoff =>
    rcases List.mem_append.mp hc with hc | hc
    · exact Known.accel .zConfirmStandoff (by decide) hc hentry
    rcases List.mem_cons.mp hc with rfl | hc
    · exact Known.word .zConfirmStandoff (lit "G90") (by decide) (.inl rfl)
    · obtain rfl := List.mem_singleton.mp hc
      exact Known.word .zConfirmStandoff (lit "G1") (by decide) (.inr ⟨_, rfl⟩)
  | resumePreview entry _ =>
    rcases List.mem_append.mp hc with hc | hc
    · exact Known.accel .resumePreview (by decide) hc hentry
    rcases List.mem_cons.mp hc with rfl | hc
    · exact Known.word .resumePreview (lit "G90") (by decide) (.inl rfl)
    rcases List.mem_cons.mp hc with rfl | hc
    · exact Known.word .resumePreview (lit "G1") (by decide) (.inr ⟨_, rfl⟩)
    · obtain rfl := List.mem_singleton.mp hc
      exact Known.word .resumePreview (lit "M104") (by decide) (.inr ⟨_, rfl⟩)
  | meshLoad profile _ =>
    obtain rfl := List.mem_singleton.mp hc
    exact Known.word .meshLoad (lit "BED_MESH_PROFILE") (by decide) (.inr ⟨_, rfl⟩)
  | finalDeclare =>
    obtain rfl := List.mem_singleton.mp hc
    exact Known.word .finalDeclare (lit "SET_KINEMATIC_POSITION") (by decide) (.inr ⟨_, rfl⟩)
  | parkForReheat =>
    rcases List.mem_append.mp hc with hc | hc
    · exact Known.accel .parkForReheat (by decide) hc hentry
    rcases List.mem_cons.mp hc with rfl | hc
    · exact Known.word .parkForReheat (lit "G90") (by decide) (.inl rfl)
    rcases List.mem_cons.mp hc with rfl | hc
    · exact Known.word .parkForReheat (lit "G1") (by decide) (.inr ⟨_, rfl⟩)
    · obtain rfl := List.mem_singleton.mp hc
      exact Known.word .parkForReheat (lit "G0") (by decide) (.inr ⟨_, rfl⟩)
  | restoreFrame =>
    rcases List.mem_append.mp hc with hc | hc
    · rcases List.mem_append.mp hc with hc | hc
      · rcases List.mem_cons.mp hc with rfl | hc
        · exact Known.word .restoreFrame (lit "SET_GCODE_OFFSET") (by decide) (.inr ⟨_, rfl⟩)
        rcases List.mem_cons.mp hc with rfl | hc
        · exact Known.word .restoreFrame (lit "M220") (by decide) (.inr ⟨_, rfl⟩)
        · obtain rfl := List.mem_singleton.mp hc
          exact Known.word .restoreFrame (lit "M221") (by decide) (.inr ⟨_, rfl⟩)
      · unfold skewCommands at hc
        split at hc
        · obtain ⟨profile, -, rfl⟩ := Option.map_eq_some_iff.mp (Option.mem_toList.mp hc)
          exact Known.word .restoreFrame (lit "SKEW_PROFILE") (by decide) (.inr ⟨_, rfl⟩)
        · cases hc
    · rw [hfans] at hc
      rcases (fanCommands_mem hc).headed with hhead | hhead
      · exact Known.word .restoreFrame (lit "M106") (by decide) hhead
      · exact Known.word .restoreFrame (lit "SET_FAN_SPEED") (by decide) hhead
  | recoveryAccelRestore _ =>
    obtain rfl := List.mem_singleton.mp hc
    exact Known.word .recoveryAccelRestore (lit "SET_VELOCITY_LIMIT") (by decide) (.inr ⟨_, rfl⟩)
  | recoveryFileSelect =>
    rcases List.mem_append.mp hc with hc | hc
    · rcases List.mem_append.mp hc with hc | hc
      · rcases List.mem_append.mp hc with hc | hc
        · obtain rfl := List.mem_singleton.mp hc
          exact Known.word .recoveryFileSelect (lit "M23") (by decide) (.inr ⟨_, rfl⟩)
        · obtain ⟨d, -, rfl⟩ := List.mem_map.mp hc
          exact Known.word .recoveryFileSelect (lit "EXCLUDE_OBJECT_DEFINE") (by decide)
            (.inr ⟨_, rfl⟩)
      · obtain ⟨d, -, rfl⟩ := List.mem_map.mp hc
        exact Known.word .recoveryFileSelect (lit "EXCLUDE_OBJECT") (by decide) (.inr ⟨_, rfl⟩)
    · obtain rfl := List.mem_singleton.mp hc
      exact Known.word .recoveryFileSelect (lit "M24") (by decide) (.inl rfl)

end Commands

end DeadReckoning.Recovery
