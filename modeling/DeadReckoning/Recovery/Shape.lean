import DeadReckoning.Recovery.PlanRecovery

/-! The shape of a plan: which steps it is built from, in which order, and what its preview
binds. -/
namespace DeadReckoning.Recovery

open Wal (Point Context)

/-- The phases in the order in which the builder emits them. -/
def phaseOrder : List Phase :=
  [.idleTimeout, .stepperEnable, .recoveryAccel, .immediateBedHeat, .believedZDeclare, .homeXy,
    .probeTempHold, .cleanNozzle, .transformFreeze, .shiftedFrame, .probeApproach, .accelClamp,
    .probe, .accelRestore, .trueZDeclare, .zConfirmStandoff, .resumePreview, .meshLoad,
    .finalDeclare, .parkForReheat, .restoreFrame, .recoveryAccelRestore, .recoveryFileSelect]

/-- The place of a phase in the order. -/
def Phase.index (phase : Phase) : ℕ := phaseOrder.idxOf phase

theorem phaseOrder_increasing : phaseOrder.Pairwise (·.index < ·.index) := by
  decide

/-- A step that the builder makes from a context, with what it was made for. -/
inductive Built (ctx : Ctx) : RecoveryStep → Prop
  | idleTimeout : Built ctx (stepIdleTimeout ctx)
  | stepperEnable : Built ctx (stepStepperEnable ctx)
  | recoveryAccel (h : usesAccelOverrides ctx.cfg = true) : Built ctx (stepRecoveryAccel ctx)
  | immediateBedHeat : Built ctx (stepImmediateBedHeat ctx)
  | believedZDeclare : Built ctx (stepBelievedZDeclare ctx)
  | homeXy : Built ctx (stepHomeXy ctx)
  | probeTempHold (s : RecoveryStep) (h : stepProbeTempHold ctx = some s) : Built ctx s
  | cleanNozzle : Built ctx (stepCleanNozzle ctx)
  | transformFreeze : Built ctx stepTransformFreeze
  | shiftedFrame : Built ctx (stepShiftedFrame ctx)
  | probeApproach : Built ctx (stepProbeApproach ctx)
  | accelClamp (h : usesConsensusTouch ctx.machine ctx.cfg = true) : Built ctx (stepAccelClamp ctx)
  | probe : Built ctx (stepProbe ctx)
  | accelRestore (h : usesConsensusTouch ctx.machine ctx.cfg = true) : Built ctx stepAccelRestore
  | trueZDeclare : Built ctx (stepTrueZDeclare ctx)
  | zConfirmStandoff : Built ctx (stepZConfirmStandoff ctx)
  | resumePreview (entry : PreviewEntry) (h : ctx.previewEntry = some entry) :
      Built ctx (stepResumePreview ctx entry)
  | meshLoad (profile : Text) (h : commandNameIsBad profile = false) :
      Built ctx (stepMeshLoad profile)
  | finalDeclare : Built ctx (stepFinalDeclare ctx)
  | parkForReheat : Built ctx (stepParkForReheat ctx)
  | restoreFrame : Built ctx (stepRestoreFrame ctx)
  | recoveryAccelRestore (h : usesAccelOverrides ctx.cfg = true) :
      Built ctx stepRecoveryAccelRestore
  | recoveryFileSelect : Built ctx (stepRecoveryFileSelect ctx)

section Order

variable {ctx : Ctx} {mesh : List RecoveryStep}

theorem orElse_sublist {β : Type} {f : RecoveryStep → β} {condition : Bool} {s : RecoveryStep} :
    ((orElse condition [s]).map f).Sublist [f s] := by
  cases condition
  · exact List.nil_sublist _
  · exact List.Sublist.refl _

theorem mem_orElse {condition : Bool} {s t : RecoveryStep} :
    t ∈ orElse condition [s] ↔ condition = true ∧ t = s := by
  cases condition <;> simp [orElse]

/-- The mesh is no step or the load of a name that may stand in a command. -/
theorem meshSteps_ok (h : meshSteps ctx = .ok mesh) :
    mesh = [] ∨ ∃ profile, nonEmptyName ctx.context.transforms.bedMeshProfile = some profile ∧
      commandNameIsBad profile = false ∧ mesh = [stepMeshLoad profile] := by
  rw [meshSteps] at h
  split at h
  · split at h
    · rename_i profile hprofile
      obtain ⟨⟨⟩, hname, hmesh⟩ := bind_eq_ok.mp h
      rw [validateCommandName, ensure_eq_ok, Bool.not_eq_true'] at hname
      exact .inr ⟨profile, hprofile, hname, (Except.ok.inj hmesh).symm⟩
    · exact .inl (Except.ok.inj h).symm
  · exact .inl (Except.ok.inj h).symm

theorem meshSteps_phases (h : meshSteps ctx = .ok mesh) :
    (mesh.map (·.phase)).Sublist [.meshLoad] := by
  obtain rfl | ⟨profile, -, -, rfl⟩ := meshSteps_ok h
  · exact List.nil_sublist _
  · exact List.Sublist.refl _

theorem probeTempHold_phases :
    ((stepProbeTempHold ctx).toList.map (·.phase)).Sublist [.probeTempHold] := by
  rw [stepProbeTempHold]
  cases ctx.cfg.probeHoldTarget ctx.machine.probe.kind
  · exact List.nil_sublist _
  · exact List.Sublist.refl _

theorem standoff_phases :
    ((standoff ctx).map (·.phase)).Sublist [.zConfirmStandoff, .resumePreview] := by
  rw [standoff]
  cases ctx.previewEntry with
  | none => exact orElse_sublist.trans (List.sublist_append_left _ [Phase.resumePreview])
  | some entry => exact List.sublist_cons_self _ _

theorem preparation_phases :
    ((preparation ctx).map (·.phase)).Sublist
      [.idleTimeout, .stepperEnable, .recoveryAccel, .immediateBedHeat, .believedZDeclare,
        .homeXy, .probeTempHold, .cleanNozzle, .transformFreeze] := by
  have haccel := @orElse_sublist _ (·.phase) (usesAccelOverrides ctx.cfg) (stepRecoveryAccel ctx)
  have hhold := @probeTempHold_phases ctx
  have hfreeze := @orElse_sublist _ (·.phase) ctx.context.transforms.zThermalAdjustEnabled.isSome
    stepTransformFreeze
  simp only [preparation, List.map_append]
  exact (((((List.Sublist.refl [.idleTimeout, .stepperEnable]).append haccel).append
    (List.Sublist.refl [.immediateBedHeat, .believedZDeclare, .homeXy])).append hhold).append
    (List.Sublist.refl [.cleanNozzle])).append hfreeze

theorem probing_phases :
    ((probing ctx).map (·.phase)).Sublist [.probeApproach, .accelClamp, .probe, .accelRestore] := by
  have hclamp (s : RecoveryStep) :=
    @orElse_sublist _ (·.phase) (usesConsensusTouch ctx.machine ctx.cfg) s
  simp only [probing, List.map_append]
  exact (((List.Sublist.refl [.probeApproach]).append (hclamp (stepAccelClamp ctx))).append
    (List.Sublist.refl [.probe])).append (hclamp stepAccelRestore)

theorem resumption_phases :
    ((resumption ctx).map (·.phase)).Sublist
      [.parkForReheat, .restoreFrame, .recoveryAccelRestore, .recoveryFileSelect] := by
  have hrestore := @orElse_sublist _ (·.phase) (usesAccelOverrides ctx.cfg) stepRecoveryAccelRestore
  simp only [resumption, List.map_append]
  exact ((List.Sublist.refl [.parkForReheat, .restoreFrame]).append hrestore).append
    (List.Sublist.refl [.recoveryFileSelect])

/-- The steps come in the order of the phases, each phase at most once. -/
theorem stepsInOrder_phases (h : meshSteps ctx = .ok mesh) :
    ((stepsInOrder ctx mesh).map (·.phase)).Sublist phaseOrder := by
  have hfirst := (@preparation_phases ctx).append (List.Sublist.refl [.shiftedFrame])
  have hprobed := (hfirst.append (@probing_phases ctx)).append (List.Sublist.refl [.trueZDeclare])
  have hmesh := (hprobed.append (@standoff_phases ctx)).append (meshSteps_phases h)
  have horder := (hmesh.append (List.Sublist.refl [.finalDeclare])).append (@resumption_phases ctx)
  rw [stepsInOrder]
  simp only [List.map_append]
  exact horder

/-- Every step of the order was built from the context. -/
theorem built_of_mem (h : meshSteps ctx = .ok mesh) {s : RecoveryStep}
    (hs : s ∈ stepsInOrder ctx mesh) : Built ctx s := by
  simp only [stepsInOrder, preparation, probing, resumption, List.mem_append, List.mem_cons,
    List.not_mem_nil, or_false, mem_orElse, Option.mem_toList] at hs
  rcases hs with ((((((hs | rfl) | hs) | rfl) | hs) | hs) | rfl) | hs
  · rcases hs with (((((rfl | rfl) | ⟨hu, rfl⟩) | rfl | rfl | rfl) | hhold) | rfl) | ⟨-, rfl⟩
    · exact .idleTimeout
    · exact .stepperEnable
    · exact .recoveryAccel hu
    · exact .immediateBedHeat
    · exact .believedZDeclare
    · exact .homeXy
    · exact .probeTempHold s hhold
    · exact .cleanNozzle
    · exact .transformFreeze
  · exact .shiftedFrame
  · rcases hs with ((rfl | ⟨hc, rfl⟩) | rfl) | ⟨hc, rfl⟩
    · exact .probeApproach
    · exact .accelClamp hc
    · exact .probe
    · exact .accelRestore hc
  · exact .trueZDeclare
  · rw [standoff] at hs
    cases hentry : ctx.previewEntry with
    | none =>
      rw [hentry] at hs
      obtain ⟨-, rfl⟩ := mem_orElse.mp hs
      exact .zConfirmStandoff
    | some entry =>
      rw [hentry] at hs
      rw [List.mem_singleton.mp hs]
      exact .resumePreview entry hentry
  · obtain rfl | ⟨profile, -, hname, rfl⟩ := meshSteps_ok h
    · cases hs
    · rw [List.mem_singleton.mp hs]
      exact .meshLoad profile hname
  · exact .finalDeclare
  · rcases hs with ((rfl | rfl) | ⟨hu, rfl⟩) | rfl
    · exact .parkForReheat
    · exact .restoreFrame
    · exact .recoveryAccelRestore hu
    · exact .recoveryFileSelect

end Order

section Numbering

/-- The step under another number. -/
def RecoveryStep.numbered (s : RecoveryStep) (id : ℕ) : RecoveryStep := { s with id := id }

@[simp] theorem RecoveryStep.numbered_id (s : RecoveryStep) (id : ℕ) : (s.numbered id).id = id := rfl
@[simp] theorem RecoveryStep.numbered_phase (s : RecoveryStep) (id : ℕ) :
    (s.numbered id).phase = s.phase := rfl

theorem renumber_eq (steps : List RecoveryStep) :
    renumber steps = steps.mapIdx fun index s => s.numbered (min (index + 1) (2 ^ 32 - 1)) := rfl

theorem mem_renumber {steps : List RecoveryStep} {s : RecoveryStep} (hs : s ∈ renumber steps) :
    ∃ s₀ ∈ steps, s = s₀.numbered s.id := by
  rw [renumber_eq, List.mem_mapIdx] at hs
  obtain ⟨index, hindex, rfl⟩ := hs
  exact ⟨steps[index], List.getElem_mem hindex, rfl⟩

theorem mem_renumber_of_mem {steps : List RecoveryStep} {s₀ : RecoveryStep} (hs : s₀ ∈ steps) :
    ∃ s ∈ renumber steps, s = s₀.numbered s.id := by
  obtain ⟨index, hindex, rfl⟩ := List.mem_iff_getElem.mp hs
  refine ⟨steps[index].numbered (min (index + 1) (2 ^ 32 - 1)), ?_, rfl⟩
  rw [renumber_eq, List.mem_mapIdx]
  exact ⟨index, hindex, rfl⟩

theorem renumber_phases (steps : List RecoveryStep) :
    (renumber steps).map (·.phase) = steps.map (·.phase) := by
  apply List.ext_getElem
  · simp [renumber_eq]
  · intro i _ _
    simp [renumber_eq]

/-- The numbers increase along the plan. -/
theorem renumber_pairwise {steps : List RecoveryStep} (hlength : steps.length < 2 ^ 32) :
    (renumber steps).Pairwise (·.id < ·.id) := by
  rw [List.pairwise_iff_getElem]
  intro i j hi hj hij
  rw [renumber_eq, List.length_mapIdx] at hi hj
  simp only [renumber_eq, List.getElem_mapIdx, RecoveryStep.numbered_id]
  omega

/-- A step is found again from its number. -/
theorem eq_of_id {steps : List RecoveryStep} (hsteps : steps.Pairwise (·.id < ·.id))
    {s t : RecoveryStep} (hs : s ∈ steps) (ht : t ∈ steps) (hid : s.id = t.id) : s = t := by
  have hnodup : (steps.map (·.id)).Nodup := List.pairwise_map.mpr (hsteps.imp fun h => ne_of_lt h)
  exact List.inj_on_of_nodup_map hnodup hs ht hid

end Numbering

section Preview

theorem mapM_eq_ok {α β : Type} {f : α → Except RecoveryError β} {l : List α} {bs : List β} :
    l.mapM f = .ok bs → List.Forall₂ (fun a b => f a = .ok b) l bs := by
  induction l generalizing bs with
  | nil =>
    intro h
    obtain rfl : [] = bs := Except.ok.inj h
    exact .nil
  | cons a l ih =>
    intro h
    rw [List.mapM_cons] at h
    obtain ⟨b, hb, h⟩ := bind_eq_ok.mp h
    obtain ⟨rest, hrest, h⟩ := bind_eq_ok.mp h
    obtain rfl : b :: rest = bs := Except.ok.inj h
    exact .cons hb (ih hrest)

/-- Each stop of a preview has the binding that was made for it, and there are no more stops
than a 32-bit index reaches. -/
structure BindsStops (ctx : Ctx) (model : LayerModel) (spec : PreviewSpec) : Prop where
  bounded : spec.stops.length ≤ previewMaxStops
  bindings : List.Forall₂ (fun stop b => bindingFor ctx model stop = .ok b) spec.stops
    spec.bindings

theorem previewSpecOf_ok {ctx : Ctx} {model : LayerModel} {set : Option PreviewSet}
    {spec : PreviewSpec} (h : previewSpecOf ctx model set = .ok (some spec)) :
    BindsStops ctx model spec := by
  unfold previewSpecOf at h
  split at h
  · rename_i set entry _
    simp only [buildPreviewSpec, bind_eq_ok, Except.ok.injEq, Option.some.injEq] at h
    obtain ⟨_, ⟨bindings, hbindings, rfl⟩, rfl⟩ := h
    exact ⟨set.bounded, mapM_eq_ok hbindings⟩
  · cases h

/-- The binding of a stop resumes at the line of the stop. -/
theorem bindingFor_ok {ctx : Ctx} {model : LayerModel} {stop : PreviewStop} {b : PreviewBinding}
    (h : bindingFor ctx model stop = .ok b) :
    b.tailOffset = stop.resumeOffset ∧
      entryCommandsAt ctx model stop.resumeOffset = .ok b.entryCommands := by
  rw [bindingFor] at h
  obtain ⟨entry, hentry, hb⟩ := bind_eq_ok.mp h
  obtain rfl := Except.ok.inj hb
  exact ⟨rfl, hentry⟩

end Preview

/-- Steps in order, split at one of them: the earlier phases before it, the later ones behind. -/
theorem ordered_split {steps : List RecoveryStep}
    (hordered : steps.Pairwise (fun s t => s.phase.index < t.phase.index)) {s : RecoveryStep}
    (hs : s ∈ steps) :
    ∃ before after, steps = before ++ s :: after ∧
      (∀ t ∈ before, t.phase.index < s.phase.index) ∧
      (∀ t ∈ after, s.phase.index < t.phase.index) ∧
      after.Pairwise (fun s t => s.phase.index < t.phase.index) ∧
      ∀ t ∈ steps, s.phase.index < t.phase.index → t ∈ after := by
  obtain ⟨before, after, rfl⟩ := List.append_of_mem hs
  rw [List.pairwise_append, List.pairwise_cons] at hordered
  obtain ⟨-, ⟨hafter, hrest⟩, hacross⟩ := hordered
  have hbefore : ∀ t ∈ before, t.phase.index < s.phase.index :=
    fun t ht => hacross t ht s List.mem_cons_self
  refine ⟨before, after, rfl, hbefore, hafter, hrest, fun t ht hlt => ?_⟩
  rcases List.mem_append.mp ht with ht | ht
  · have := hbefore t ht
    omega
  · rcases List.mem_cons.mp ht with rfl | ht
    · omega
    · exact ht

section Plans

variable {inputs : PlanInputs} {config : PlanConfig} {plan : RecoveryPlan} {ctx : Ctx}
  {mesh : List RecoveryStep}

/-- Every step of a plan is a numbered step of the builder. -/
theorem Planned.built (h : Planned inputs config plan ctx mesh) {s : RecoveryStep}
    (hs : s ∈ plan.steps) : ∃ s₀, Built ctx s₀ ∧ s = s₀.numbered s.id := by
  rw [h.steps] at hs
  obtain ⟨s₀, hmem, hnumbered⟩ := mem_renumber hs
  exact ⟨s₀, built_of_mem h.meshSteps hmem, hnumbered⟩

theorem Planned.phases (h : Planned inputs config plan ctx mesh) :
    (plan.steps.map (·.phase)).Sublist phaseOrder := by
  rw [h.steps, renumber_phases]
  exact stepsInOrder_phases h.meshSteps

theorem Planned.phases_nodup (h : Planned inputs config plan ctx mesh) :
    (plan.steps.map (·.phase)).Nodup :=
  h.phases.nodup (by decide)

/-- The steps come in the order of their phases. -/
theorem Planned.ordered (h : Planned inputs config plan ctx mesh) :
    plan.steps.Pairwise (fun s t => s.phase.index < t.phase.index) := by
  have hphases : (plan.steps.map (·.phase)).Pairwise (·.index < ·.index) :=
    phaseOrder_increasing.sublist h.phases
  rwa [List.pairwise_map] at hphases

/-- What the builder emits is a step of the plan. -/
theorem Planned.mem_steps (h : Planned inputs config plan ctx mesh) {s₀ : RecoveryStep}
    (hs : s₀ ∈ stepsInOrder ctx mesh) : ∃ s ∈ plan.steps, s = s₀.numbered s.id := by
  rw [h.steps]
  exact mem_renumber_of_mem hs

theorem Planned.increasing (h : Planned inputs config plan ctx mesh) :
    plan.steps.Pairwise (·.id < ·.id) := by
  have hlength := (stepsInOrder_phases h.meshSteps).length_le
  rw [List.length_map] at hlength
  rw [h.steps]
  exact renumber_pairwise (hlength.trans_lt (by decide))

/-- A step is found under its phase. -/
theorem Planned.stepIn?_eq (h : Planned inputs config plan ctx mesh) {s : RecoveryStep}
    (hs : s ∈ plan.steps) : plan.stepIn? s.phase = some s := by
  have hfound : (plan.stepIn? s.phase).isSome := by
    rw [RecoveryPlan.stepIn?, List.find?_isSome]
    exact ⟨s, hs, by simp⟩
  obtain ⟨t, ht⟩ := Option.isSome_iff_exists.mp hfound
  have hphase : t.phase = s.phase := by simpa using List.find?_some ht
  rw [ht, List.inj_on_of_nodup_map h.phases_nodup (List.mem_of_find?_eq_some ht) hs hphase]

end Plans

end DeadReckoning.Recovery
