import DeadReckoning.Recovery.Vocabulary
import DeadReckoning.Recovery.ResumeFile

/-! What an attempt is made of: a plan, the file that it is going to select, and the name of that
file among those that are there already. -/
namespace DeadReckoning.Attempt
open Recovery Gcode

section Names

/-- The name of the file that a numbered attempt would write. -/
def numberedName (stem : Text) (n : ℕ) : Text :=
  stem ++ lit "_RECOVERY-" ++ Nat.toDigits 10 n ++ lit ".gcode"

/-- The first numbered name from `n` on that is free, the last resort when none of them is. -/
def firstFree (taken : Text → Bool) (stem : Text) : ℕ → ℕ → Text
  | _, 0 => stem ++ lit "_RECOVERY-x.gcode"
  | n, left + 1 =>
      let candidate := numberedName stem n
      if taken candidate then firstFree taken stem (n + 1) left else candidate

/-- The name for the generated file beside the names in use. -/
def recoveryFileNameAmong (originalName : Text) (taken : Text → Bool) : Text :=
  let base := (originalName.splitOnP isSeparator).getLastD originalName
  let stem := sanitizeName (fileStem base)
  let candidate := stem ++ lit "_RECOVERY.gcode"
  if taken candidate then firstFree taken stem 2 (2 ^ 32 - 1 - 2) else candidate

/-- The planner's name is the one among no others. -/
theorem recoveryFileNameAmong_none (originalName : Text) :
    recoveryFileNameAmong originalName (fun _ => false) = recoveryFileName originalName := rfl

/-- What is chosen is free, or every numbered name is in use. -/
theorem firstFree_free {taken : Text → Bool} {stem : Text} (left n : ℕ) :
    taken (firstFree taken stem n left) = false ∨
      ∀ k, n ≤ k → k < n + left → taken (numberedName stem k) = true := by
  induction left generalizing n with
  | zero =>
    right
    intro k hlo hhi
    omega
  | succ left ih =>
    rw [firstFree]
    by_cases htaken : taken (numberedName stem n) = true
    · rw [if_pos htaken]
      refine (ih (n + 1)).imp id fun hrest k hlo hhi => ?_
      rcases Nat.eq_or_lt_of_le hlo with rfl | hlo
      · exact htaken
      · exact hrest k hlo (by omega)
    · rw [if_neg htaken]
      exact .inl (by simpa using htaken)

/-- The command that selects the file of a name. -/
def selectCommand (name : Text) : Text := lit "M23 " ++ name

def isSelect (command : Text) : Bool := (Text.stripPrefix (lit "M23 ") command).isSome

theorem isSelect_iff {command : Text} :
    isSelect command = true ↔ ∃ name, command = selectCommand name := by
  rw [isSelect, Option.isSome_iff_exists]
  exact exists_congr fun name => Text.stripPrefix_eq_some

@[simp] theorem isSelect_selectCommand (name : Text) : isSelect (selectCommand name) = true :=
  isSelect_iff.mpr ⟨name, rfl⟩

theorem stripPrefix_selectCommand (name : Text) :
    Text.stripPrefix (lit "M23 ") (selectCommand name) = some name :=
  Text.stripPrefix_eq_some.mpr rfl

/-- A command with a first word selects a file only when that is the word. -/
theorem isSelect_headed {word command : Text} (hword : IsWord word) (hhead : Headed word command)
    (hselect : isSelect command = true) : word = lit "M23" := by
  obtain ⟨name, rfl⟩ := isSelect_iff.mp hselect
  obtain ⟨rest, hrest⟩ := hhead.words hword
  have hm23 : Headed (lit "M23") (selectCommand name) := .inr ⟨name, rfl⟩
  obtain ⟨rest', hrest'⟩ := hm23.words (by decide)
  rw [hrest] at hrest'
  exact (List.cons.inj hrest').1

end Names

section Plans

/-- A plan selects the one file, and a plan with a preview asks for a stop before that. -/
structure Selects (plan : RecoveryPlan) (name : Text) : Prop where
  named : ∀ s ∈ plan.steps, ∀ c ∈ s.commands, isSelect c = true → c = selectCommand name
  previewed : ∀ spec, plan.preview = some spec → spec.stops ≠ [] ∧
    ∃ before step after, plan.steps = before ++ step :: after ∧ step.phase = .resumePreview ∧
      ∀ s ∈ before ++ [step], ∀ c ∈ s.commands, isSelect c = false

/-- A plan under another name for its file, whose commands are changed one by one. -/
def renamePlan (plan : RecoveryPlan) (change : Text → Text) (name : Text) : RecoveryPlan :=
  { plan with
    steps := plan.steps.map fun step => { step with commands := step.commands.map change }
    recoveryFile := { plan.recoveryFile with name := name }
    resumeFile := name }

/-- A change that turns the old selection into the new one and leaves the other commands. -/
theorem Selects.rename {plan : RecoveryPlan} {old name : Text} {change : Text → Text}
    (h : Selects plan old) (hold : change (selectCommand old) = selectCommand name)
    (hother : ∀ c, isSelect c = false → change c = c) :
    Selects (renamePlan plan change name) name := by
  constructor
  · intro s hs c hc hselect
    obtain ⟨t, ht, rfl⟩ := List.mem_map.mp hs
    obtain ⟨d, hd, rfl⟩ := List.mem_map.mp hc
    by_cases hd' : isSelect d = true
    · rw [h.named t ht d hd hd', hold]
    · have hd' : isSelect d = false := by simpa using hd'
      rw [hother d hd', hd'] at hselect
      cases hselect
  · intro spec hspec
    obtain ⟨hstops, before, step, after, hsteps, hphase, hnone⟩ := h.previewed spec hspec
    let changed (s : RecoveryStep) : RecoveryStep := { s with commands := s.commands.map change }
    refine ⟨hstops, before.map changed, changed step, after.map changed, ?_, hphase, ?_⟩
    · show plan.steps.map changed = _
      rw [hsteps, List.map_append, List.map_cons]
    · intro s hs c hc
      have hs' : s ∈ (before ++ [step]).map changed := by rwa [List.map_append]
      obtain ⟨t, ht, rfl⟩ := List.mem_map.mp hs'
      obtain ⟨d, hd, rfl⟩ := List.mem_map.mp hc
      have hd' := hnone t ht d hd
      rwa [hother d hd']

/-- The planner's command, when it selects the name that collided. -/
def patchCommand (old name command : Text) : Text :=
  match Text.stripPrefix (lit "M23 ") command with
  | some rest => if rest = old then selectCommand name else command
  | none => command

/-- The plan for the name beside those in use. -/
def resolvePlan (plan : RecoveryPlan) (resolved : Text) : RecoveryPlan :=
  if resolved = plan.recoveryFile.name then plan
  else renamePlan plan (patchCommand plan.recoveryFile.name resolved) resolved

/-- Any command that selects a file. -/
def retargetCommand (name command : Text) : Text :=
  if isSelect command then selectCommand name else command

theorem patchCommand_selectCommand (old name : Text) :
    patchCommand old name (selectCommand old) = selectCommand name := by
  simp [patchCommand, stripPrefix_selectCommand]

theorem patchCommand_of_not_select {old name c : Text} (h : isSelect c = false) :
    patchCommand old name c = c := by
  have hnone : Text.stripPrefix (lit "M23 ") c = none := by simpa [isSelect] using h
  rw [patchCommand, hnone]

theorem Selects.resolve {plan : RecoveryPlan} (h : Selects plan plan.recoveryFile.name)
    (resolved : Text) :
    Selects (resolvePlan plan resolved) (resolvePlan plan resolved).recoveryFile.name := by
  unfold resolvePlan
  split
  · exact h
  · exact h.rename (patchCommand_selectCommand _ _) fun _ => patchCommand_of_not_select

/-- What the attempt works on. A plan with a preview carries the printed file along. -/
structure PlanBundle where
  plan : RecoveryPlan
  recoveryFileContent : Bytes
  sdcardRoot : Text
  recoveryFilePath : Text
  recoverySourceName : Text
  originalFileBytes : Option Bytes
  selects : Selects plan recoveryFilePath
  captured : originalFileBytes.isSome = plan.preview.isSome

/-- Points every selection at the new name. -/
def retargetRecoveryFile (bundle : PlanBundle) (newName : Text) : PlanBundle where
  plan := renamePlan bundle.plan (retargetCommand newName) newName
  recoveryFileContent := bundle.recoveryFileContent
  sdcardRoot := bundle.sdcardRoot
  recoveryFilePath := newName
  recoverySourceName := bundle.recoverySourceName
  originalFileBytes := bundle.originalFileBytes
  selects := by
    apply bundle.selects.rename
    · rw [retargetCommand, if_pos (isSelect_selectCommand _)]
    · intro c hc
      rw [retargetCommand, hc]
      rfl
  captured := bundle.captured

/-- Chooses the name beside those in use, and makes the file for it. Nothing is written yet. -/
def finalizeRecoveryFile (heatingGate : GeneratedRecoveryFile → RecoveryFileSpec → Except Text Unit)
    (preflight : GeneratedRecoveryFile → Except Text Unit) (cases : CaseMapping)
    (taken : Text → Bool) (timestamp : Text) (machine : MachineConfig) (plan : RecoveryPlan)
    (hplan : Selects plan plan.recoveryFile.name) (fileBytes : Bytes) : Except Text PlanBundle :=
  match machine.virtualSdcardRoot with
  | none => .error (lit "virtual_sdcard root unknown; cannot place the recovery file")
  | some root => do
      let patched := resolvePlan plan (recoveryFileNameAmong plan.recoveryFile.sourceName taken)
      let generated := buildRecoveryFile patched.recoveryFile cases fileBytes timestamp
      (heatingGate generated patched.recoveryFile).mapError
        (lit "generated recovery file violates the heating gate: " ++ ·)
      (preflight generated).mapError (lit "generated recovery file failed pre-flight: " ++ ·)
      .ok {
        plan := patched
        recoveryFileContent := generated.content
        sdcardRoot := root.rdropWhile isSeparator
        recoveryFilePath := patched.recoveryFile.name
        recoverySourceName := patched.recoveryFile.sourceName
        originalFileBytes := if patched.preview.isSome then some fileBytes else none
        selects := hplan.resolve _
        captured := by cases patched.preview <;> rfl }

end Plans

section Planned

variable {inputs : PlanInputs} {config : PlanConfig} {plan : RecoveryPlan} {ctx : Ctx}
  {mesh : List RecoveryStep}

theorem phase_of_select {phase : Phase} (h : lit "M23" ∈ phaseWords phase) :
    phase = .recoveryFileSelect := by
  revert h
  cases phase <;> decide

/-- Only the last step selects a file, and that is the file of the plan. -/
theorem select_of_built {s : RecoveryStep} (h : Built ctx s) {fans : List (Text × F64)}
    (hfans : ctx.fanCmds = (fanCommands fans).1)
    (hclean : ctx.cleanNozzlePresent = true →
      ∀ c ∈ ctx.cfg.cleanNozzleMacro, Text.isWhitespace c = false)
    {command : Text} (hc : command ∈ s.commands) (hselect : isSelect command = true) :
    s.phase = .recoveryFileSelect ∧ command = selectCommand ctx.recoveryFileName := by
  have hphase : s.phase = .recoveryFileSelect := by
    rcases h.known hfans hc with ⟨-, hpresent, rfl⟩ | ⟨-, -, hhead⟩ | ⟨word, hmem, hhead⟩
    · obtain ⟨name, hname⟩ := isSelect_iff.mp hselect
      have hblank := hclean hpresent ' ' (by simp [hname, selectCommand, lit])
      exact absurd hblank (by decide)
    · have hword := isSelect_headed (by decide) hhead hselect
      exact absurd hword (by decide)
    · have hword := isSelect_headed (isWord_of_mem_phaseWords hmem) hhead hselect
      exact phase_of_select (hword ▸ hmem)
  refine ⟨hphase, ?_⟩
  have hnot (name rest : Text) (hhead : Headed name rest) (hname : IsWord name)
      (hne : name ≠ lit "M23") : isSelect rest ≠ true :=
    fun hrest => hne (isSelect_headed hname hhead hrest)
  cases h with
  | recoveryFileSelect =>
    rcases List.mem_append.mp hc with hc | hc
    · rcases List.mem_append.mp hc with hc | hc
      · rcases List.mem_append.mp hc with hc | hc
        · exact List.mem_singleton.mp hc
        · obtain ⟨d, -, rfl⟩ := List.mem_map.mp hc
          exact absurd hselect (hnot (lit "EXCLUDE_OBJECT_DEFINE") _ (.inr ⟨_, rfl⟩) (by decide)
            (by decide))
      · obtain ⟨d, -, rfl⟩ := List.mem_map.mp hc
        exact absurd hselect (hnot (lit "EXCLUDE_OBJECT") _ (.inr ⟨_, rfl⟩) (by decide)
          (by decide))
    · obtain rfl := List.mem_singleton.mp hc
      exact absurd hselect (by decide)
  | probeTempHold s hhold =>
    rw [stepProbeTempHold, Option.map_eq_some_iff] at hhold
    obtain ⟨target, -, rfl⟩ := hhold
    cases hphase
  | _ => cases hphase

theorem previewEntryFor_stops {machine : ValidatedMachine} {set : PreviewSet}
    {entry : PreviewEntry} (hset : previewSetOf inputs config = some set)
    (h : previewEntryFor inputs config machine = some entry) : set.stops ≠ [] := by
  intro hnil
  rw [previewEntryFor, hset] at h
  change (previewEntryOf config machine set).1 = some entry at h
  rw [previewEntryOf, hnil] at h
  cases h

/-- The planner's plans select their own file, and preview stops that are there. -/
theorem planRecovery_selects (h : planRecovery inputs config = .ok (.plan plan))
    (hclean : inputs.cleanNozzleMacroPresent = true →
      ∀ c ∈ config.cleanNozzleMacro, Text.isWhitespace c = false) :
    Selects plan plan.recoveryFile.name := by
  obtain ⟨ctx, mesh, hplanned, hsources, hentry⟩ := planRecovery_context h
  obtain ⟨fileName, nozzle, warnings, -, -, hassemble⟩ := hsources.assembled
  have hname : plan.recoveryFile.name = ctx.recoveryFileName := by
    simp only [assemble, bind_eq_ok] at hassemble
    obtain ⟨steps, -, entry, -, purge, -, preview, -, ⟨⟩, -, hplan⟩ := hassemble
    rw [← Except.ok.inj hplan]
    rfl
  rw [← hplanned.cfg] at hclean
  rw [← hplanned.clean] at hclean
  have hselect {s : RecoveryStep} (hs : s ∈ plan.steps) {c : Text} (hc : c ∈ s.commands)
      (hc' : isSelect c = true) :
      s.phase = .recoveryFileSelect ∧ c = selectCommand ctx.recoveryFileName := by
    obtain ⟨s₀, hbuilt, hnumbered⟩ := hplanned.built hs
    rw [hnumbered] at hc ⊢
    exact select_of_built hbuilt hplanned.fans hclean hc hc'
  constructor
  · intro s hs c hc hc'
    rw [hname]
    exact (hselect hs hc hc').2
  · intro spec hspec
    have hpreview := hplanned.preview
    rw [hspec] at hpreview
    unfold previewSpecOf at hpreview
    split at hpreview
    · rename_i set entry hset hentry'
      simp only [buildPreviewSpec, bind_eq_ok, Except.ok.injEq, Option.some.injEq] at hpreview
      obtain ⟨_, ⟨bindings, -, rfl⟩, rfl⟩ := hpreview
      refine ⟨previewEntryFor_stops hset (hentry ▸ hentry'), ?_⟩
      have hstandoff : stepResumePreview ctx entry ∈ stepsInOrder ctx mesh := by
        simp [stepsInOrder, standoff, hentry']
      obtain ⟨s, hs, hnumbered⟩ := hplanned.mem_steps hstandoff
      have hphase : s.phase = .resumePreview := by rw [hnumbered]; rfl
      obtain ⟨before, after, hsteps, hbefore, -⟩ := ordered_split hplanned.ordered hs
      refine ⟨before, s, after, hsteps, hphase, fun t ht c hc => ?_⟩
      by_contra hc'
      have hmem : t ∈ plan.steps := by
        rw [hsteps]
        rcases List.mem_append.mp ht with ht | ht
        · exact List.mem_append_left _ ht
        · rw [List.mem_singleton.mp ht]
          simp
      have hselected := (hselect hmem hc (by simpa using hc')).1
      rcases List.mem_append.mp ht with ht | ht
      · have hearlier := hbefore t ht
        rw [hphase, hselected] at hearlier
        exact absurd hearlier (by decide)
      · rw [List.mem_singleton.mp ht, hphase] at hselected
        cases hselected
    · cases hpreview

end Planned

end DeadReckoning.Attempt
