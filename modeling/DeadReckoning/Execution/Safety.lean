import DeadReckoning.Lib.Trace
import DeadReckoning.Recovery.Shape
import DeadReckoning.Execution.Rules

/-! What every event of a run is justified by: the verifications before a command, the
exclusivity before a send, the interlock before the shifted frame, the numbers in a text and the
binding of an accepted stop. -/
namespace DeadReckoning.Execution

open Recovery Prog

section Justification

/-- Neither a pause of the operator nor another check of exclusivity. -/
def Event.keepsExclusive : Event → Bool
  | .gate .. | .confirm .. | .preview .. | .recheck .. => false
  | .query .. | .arm .. | .verify .. | .register .. | .send .. | .write .. => true

/-- The last check of exclusivity succeeded, and the operator has not been asked since. -/
def Exclusive (trace : Events) : Prop :=
  ∃ before after, trace = before ++ .recheck (.ok ()) :: after ∧
    ∀ e ∈ after, e.keepsExclusive = true

/-- Everything the step verifies was read and held. -/
structure Verified (trace : Events) (s : RecoveryStep) : Prop where
  pre : ∀ v ∈ s.preVerify, Held trace .pre s.id v none
  post : ∃ computed, ∀ v ∈ s.verify, Held trace .post s.id v computed

/-- The last command that was sent is the move to a stop of the preview. -/
def LastVisited (trace : Events) (cursor : ℕ) (text : Text) : Prop :=
  ∃ before after, trace = before ++ .send (.preview cursor) text text none :: after ∧
    ∀ e ∈ after, ∀ source template text error, e ≠ .send source template text error

/-- What must have happened before a command of a step is sent. -/
structure StepSend (plan : RecoveryPlan) (past : Events) (id : ℕ) (template : Text) : Prop where
  place : ∃ earlier step later, plan.steps = earlier ++ step :: later ∧ step.id = id ∧
    template ∈ step.commands ∧ (∀ s ∈ earlier, Verified past s) ∧
    (∀ v ∈ step.preVerify, Held past .pre id v none) ∧
    (step.phase = .shiftedFrame → .arm id (.ok ()) ∈ past)
  exclusive : Exclusive past

/-- What must have happened before the toolhead is sent to a stop. -/
structure PreviewSend (plan : RecoveryPlan) (past : Events) (cursor : ℕ) (text : Text) : Prop where
  stop : ∃ spec stop, plan.preview = some spec ∧ spec.stops[cursor]? = some stop ∧
    text = reposition spec stop
  exclusive : Exclusive past

/-- The binding is that of the stop where the toolhead stands, which was just accepted. -/
def BindsVisited (plan : RecoveryPlan) (past : Events) (binding : PreviewBinding) : Prop :=
  ∃ spec stop stepId cursor before, plan.preview = some spec ∧ spec.stops[cursor]? = some stop ∧
    spec.bindings[cursor]? = some binding ∧ binding.tailOffset = stop.resumeOffset ∧
    past = before ++ [.preview stepId cursor .accept] ∧
    LastVisited past cursor (reposition spec stop)

/-- What justifies a send of a source. -/
def SourceSend (plan : RecoveryPlan) (past : Events) (template text : Text) : Source → Prop
  | .step id => StepSend plan past id template
  | .preview cursor => PreviewSend plan past cursor text
  | .cleanup _ => True

/-- What justifies an event. -/
def Permitted (w : World) (plan : RecoveryPlan) (past : Events) : Event → Prop
  | .query object answer => answer = w.query past object
  | .send source template text _ =>
      Substituted template text ∧ SourceSend plan past template text source
  | .preview _ cursor _ => ∃ spec, plan.preview = some spec ∧ cursor < spec.stops.length
  | .write binding _ => BindsVisited plan past binding
  | .gate .. | .confirm .. | .recheck .. | .arm .. | .verify .. | .register .. => True

theorem Exclusive.snoc {trace : Events} {e : Event} (h : Exclusive trace)
    (he : e.keepsExclusive = true) : Exclusive (trace ++ [e]) := by
  obtain ⟨before, after, rfl, hafter⟩ := h
  refine ⟨before, after ++ [e], by simp, fun x hx => ?_⟩
  rcases List.mem_append.mp hx with hx | hx
  · exact hafter x hx
  · exact List.mem_singleton.mp hx ▸ he

theorem exclusive_recheck (trace : Events) : Exclusive (trace ++ [.recheck (.ok ())]) :=
  ⟨trace, [], rfl, by simp⟩

theorem Verified.append {trace : Events} {s : RecoveryStep} (h : Verified trace s)
    (more : Events) : Verified (trace ++ more) s := by
  obtain ⟨computed, hpost⟩ := h.post
  exact ⟨fun v hv => (h.pre v hv).append more,
    computed, fun v hv => (hpost v hv).append more⟩

end Justification

/-- What the safety of a run needs of its plan. -/
structure Sound (plan : RecoveryPlan) : Prop where
  increasing : plan.steps.Pairwise (·.id < ·.id)
  shifted : ∀ s ∈ plan.steps, s.phase = .shiftedFrame → shiftedId plan = some s.id
  cleanups : ∀ s ∈ plan.steps, ∀ c ∈ s.cleanupCommands,
    c = restoreAccel restoreAccelPlaceholder ∨ c = restoreAccel machineAccelPlaceholder
  preview : ∀ spec, plan.preview = some spec → spec.stops.length ≤ previewMaxStops ∧
    List.Forall₂ (fun stop (b : PreviewBinding) => b.tailOffset = stop.resumeOffset) spec.stops
      spec.bindings

/-- The planner's plans are sound. -/
theorem sound_of_planned {inputs : PlanInputs} {config : PlanConfig} {plan : RecoveryPlan}
    {ctx : Ctx} {mesh : List RecoveryStep} (h : Planned inputs config plan ctx mesh) :
    Sound plan where
  increasing := h.increasing
  shifted := by
    intro s hs hphase
    have hfound := h.stepIn?_eq hs
    rw [hphase] at hfound
    rw [shiftedId, hfound]
    rfl
  cleanups := by
    intro s hs c hc
    obtain ⟨s₀, hbuilt, hnumbered⟩ := h.built hs
    rw [hnumbered] at hc
    cases hbuilt with
    | recoveryAccel _ => exact .inr (List.mem_singleton.mp hc)
    | accelClamp _ => exact .inl (List.mem_singleton.mp hc)
    | probeTempHold s₀ hhold =>
      rw [stepProbeTempHold, Option.map_eq_some_iff] at hhold
      obtain ⟨target, -, rfl⟩ := hhold
      cases hc
    | _ => cases hc
  preview := by
    intro spec hspec
    have hbinds := h.preview
    rw [hspec] at hbinds
    obtain ⟨hbounded, hbindings⟩ := previewSpecOf_ok hbinds
    exact ⟨hbounded, hbindings.imp fun _ _ hbinding => (bindingFor_ok hbinding).1⟩

section Invariants

variable (w : World) (plan : RecoveryPlan)

def IsStepSend (id : ℕ) : Event → Prop
  | .send (.step other) _ _ _ => other = id
  | _ => False

/-- What holds between the steps of a run: `earlier` have been verified, and only commands of
`begun` have been sent. -/
structure Invariant (earlier begun : List RecoveryStep) (st : State) : Prop where
  permitted : Trace.Justified (Permitted w plan) st.trace
  verified : ∀ s ∈ earlier, Verified st.trace s
  phase : AllFinite st.accel.phase
  machine : AllFinite st.accel.machine
  cleanups : ∀ entry ∈ st.cleanups, ∀ c ∈ entry.2,
    c = restoreAccel restoreAccelPlaceholder ∨ c = restoreAccel machineAccelPlaceholder
  sent : ∀ e ∈ st.trace, ∀ id, IsStepSend id e → ∃ s ∈ begun, s.id = id

variable {w plan} {earlier begun : List RecoveryStep} {st : State}

theorem invariant_start : Invariant w plan [] [] .start where
  permitted := Trace.justified_nil _
  verified := fun _ hs => absurd hs List.not_mem_nil
  phase := allFinite_none
  machine := allFinite_none
  cleanups := fun _ hentry => absurd hentry List.not_mem_nil
  sent := fun _ he => absurd he List.not_mem_nil

theorem Invariant.push (h : Invariant w plan earlier begun st) {e : Event}
    (he : Permitted w plan st.trace e)
    (hsent : ∀ id, IsStepSend id e → ∃ s ∈ begun, s.id = id) :
    Invariant w plan earlier begun (st.push e) where
  permitted := Trace.justified_snoc.mpr ⟨h.permitted, he⟩
  verified := fun s hs => (h.verified s hs).append [e]
  phase := h.phase
  machine := h.machine
  cleanups := h.cleanups
  sent := by
    intro x hx id hid
    rcases List.mem_append.mp hx with hx | hx
    · exact h.sent x hx id hid
    · exact hsent id (List.mem_singleton.mp hx ▸ hid)

theorem Invariant.begin (h : Invariant w plan earlier begun st) (more : List RecoveryStep) :
    Invariant w plan earlier (begun ++ more) st where
  permitted := h.permitted
  verified := h.verified
  phase := h.phase
  machine := h.machine
  cleanups := h.cleanups
  sent := fun e he id hid =>
    let ⟨s, hs, hsid⟩ := h.sent e he id hid
    ⟨s, List.mem_append_left _ hs, hsid⟩

theorem Invariant.finish (h : Invariant w plan earlier begun st) {step : RecoveryStep}
    (hstep : Verified st.trace step) : Invariant w plan (earlier ++ [step]) begun st where
  permitted := h.permitted
  verified := by
    intro s hs
    rcases List.mem_append.mp hs with hs | hs
    · exact h.verified s hs
    · exact List.mem_singleton.mp hs ▸ hstep
  phase := h.phase
  machine := h.machine
  cleanups := h.cleanups
  sent := h.sent

theorem Invariant.forget {more : List RecoveryStep} (h : Invariant w plan (earlier ++ more) begun st) :
    Invariant w plan earlier begun st where
  permitted := h.permitted
  verified := fun s hs => h.verified s (List.mem_append_left _ hs)
  phase := h.phase
  machine := h.machine
  cleanups := h.cleanups
  sent := h.sent

theorem Reading.permitted {past : Events} {e : Event} (he : Reading w past e) :
    Permitted w plan past e := by
  cases e with
  | query object answer => exact he
  | verify => exact trivial
  | gate | confirm | preview | recheck | arm | register | send | write => exact he.elim

theorem Reading.keepsExclusive {past : Events} {e : Event} (he : Reading w past e) :
    e.keepsExclusive = true := by
  cases e with
  | query | verify => rfl
  | gate | confirm | preview | recheck | arm | register | send | write => exact he.elim

theorem Reading.not_isStepSend {past : Events} {e : Event} (he : Reading w past e) (id : ℕ) :
    ¬ IsStepSend id e := by
  cases e with
  | query | verify => exact fun h => h
  | gate | confirm | preview | recheck | arm | register | send | write => exact he.elim

theorem Invariant.reading (h : Invariant w plan earlier begun st) {e : Event} (he : Reading w st.trace e) :
    Invariant w plan earlier begun (st.push e) :=
  h.push he.permitted fun id hid => (he.not_isStepSend id hid).elim

end Invariants

section Stops

variable (w : World) (plan : RecoveryPlan)

/-- The states a run may stop in at a step: the refusal of the interlock comes before any
command of the step, and no index leaves its list. -/
structure Stopped (earlier : List RecoveryStep) (step : RecoveryStep) (cause : StopCause)
    (st : State) : Prop where
  inv : Invariant w plan earlier (earlier ++ [step]) st
  refused : ∀ reason, cause = .frameGuardUnwritable reason →
    shiftedId plan = some step.id ∧ Invariant w plan earlier earlier st
  inside : cause ≠ .panicked

variable {w plan} {earlier : List RecoveryStep} {step : RecoveryStep} {cause : StopCause}
  {st : State}

/-- A stop before the step has sent anything. -/
theorem Invariant.stopBefore (h : Invariant w plan earlier earlier st) (hcause : cause ≠ .panicked)
    (hguard : ∀ reason, cause ≠ .frameGuardUnwritable reason) :
    Stopped w plan earlier step cause st :=
  ⟨h.begin [step], fun reason hreason => (hguard reason hreason).elim, hcause⟩

/-- A stop in the step for any other reason than the refused interlock. -/
theorem Invariant.stopIn (h : Invariant w plan earlier (earlier ++ [step]) st)
    (hcause : cause ≠ .panicked) (hguard : ∀ reason, cause ≠ .frameGuardUnwritable reason) :
    Stopped w plan earlier step cause st :=
  ⟨h, fun reason hreason => (hguard reason hreason).elim, hcause⟩

theorem Invariant.fail (h : Invariant w plan earlier (earlier ++ [step]) st)
    (hcause : cause.inStep = true) : Stopped w plan earlier step cause st := by
  cases cause with
  | verificationFailed | transport | commandFailed | computeFailed => exact h.stopIn nofun nofun
  | operatorDeclined | frameGuardUnwritable | hardDiagnosis | confirmationDeclined
  | confirmationTimedOut | exclusivityLost | panicked => cases hcause

end Stops

section Turns

variable {w : World} {plan : RecoveryPlan} {earlier later : List RecoveryStep} {step : RecoveryStep}

theorem Invariant.quiet {begun : List RecoveryStep} {st : State}
    (h : Invariant w plan earlier begun st) {e : Event} (he : Permitted w plan st.trace e)
    (hsend : ∀ id, ¬ IsStepSend id e) : Invariant w plan earlier begun (st.push e) :=
  h.push he fun id hid => (hsend id hid).elim

/-- What holds while a step is prepared: exclusivity, and the interlock when it is needed. -/
structure Prepared (w : World) (plan : RecoveryPlan) (earlier begun : List RecoveryStep)
    (step : RecoveryStep) (st : State) : Prop where
  inv : Invariant w plan earlier begun st
  exclusive : Exclusive st.trace
  armed : step.phase = .shiftedFrame → .arm step.id (.ok ()) ∈ st.trace

theorem Prepared.quiet {begun : List RecoveryStep} {st : State}
    (h : Prepared w plan earlier begun step st) {e : Event} (he : Permitted w plan st.trace e)
    (hexclusive : e.keepsExclusive = true) (hsend : ∀ id, ¬ IsStepSend id e) :
    Prepared w plan earlier begun step (st.push e) where
  inv := h.inv.quiet he hsend
  exclusive := h.exclusive.snoc hexclusive
  armed := fun hphase => List.mem_append_left _ (h.armed hphase)

/-- The questions and checks before a step prepare it. -/
theorem prepareStep_safe (hsound : Sound plan) (hstep : step ∈ plan.steps) :
    Triple (Invariant w plan earlier earlier) (prepareStep w plan step)
      (fun _ => Prepared w plan earlier earlier step) (Stopped w plan earlier step) := by
  apply Triple.bind (Q := fun _ => Invariant w plan earlier earlier)
  · apply passGate_triple
    · intro st allowed hst
      exact hst.quiet trivial fun _ => id
    · exact fun st hst => hst.stopBefore nofun nofun
  intro _
  apply Triple.bind (Q := fun _ => Invariant w plan earlier earlier)
  · unfold confirmDebug
    split
    · apply ask_triple
      · intro st answer hst
        exact hst.quiet trivial fun _ => id
      · exact fun st hst => hst.stopBefore nofun nofun
      · exact fun st hst => hst.stopBefore nofun nofun
    · exact Triple.pure () fun _ hst => hst
  intro _
  apply Triple.bind
    (Q := fun _ st => Invariant w plan earlier earlier st ∧ Exclusive st.trace)
  · apply reassertExclusivity_triple
    · intro st hst
      exact ⟨hst.quiet trivial fun _ => id, exclusive_recheck st.trace⟩
    · intro st reason hst
      exact Invariant.stopBefore (hst.quiet trivial fun _ => id) nofun nofun
  intro _
  apply armFrameIfEntering_triple
  · rintro st - ⟨hst, hexclusive⟩
    exact ⟨hst.quiet trivial fun _ => id, hexclusive.snoc rfl, fun _ => by simp⟩
  · rintro st hother ⟨hst, hexclusive⟩
    exact ⟨hst, hexclusive, fun hphase => (hother (hsound.shifted step hstep hphase).symm).elim⟩
  · rintro st reason hentering ⟨hst, -⟩
    have hrefused : Invariant w plan earlier earlier (st.push (.arm step.id (.error reason))) :=
      hst.quiet trivial fun _ => id
    exact ⟨hrefused.begin [step], fun _ _ => ⟨hentering.symm, hrefused⟩, nofun⟩

/-- A step whose verifications before its commands have held. -/
structure Ready (w : World) (plan : RecoveryPlan) (earlier begun : List RecoveryStep)
    (step : RecoveryStep) (st : State) : Prop where
  prepared : Prepared w plan earlier begun step st
  pre : ∀ v ∈ step.preVerify, Held st.trace .pre step.id v none

theorem Ready.quiet {begun : List RecoveryStep} {st : State}
    (h : Ready w plan earlier begun step st) {e : Event} (he : Permitted w plan st.trace e)
    (hexclusive : e.keepsExclusive = true) (hsend : ∀ id, ¬ IsStepSend id e) :
    Ready w plan earlier begun step (st.push e) :=
  ⟨h.prepared.quiet he hexclusive hsend, fun v hv => (h.pre v hv).append [e]⟩

theorem Ready.begin {st : State} (h : Ready w plan earlier earlier step st) :
    Ready w plan earlier (earlier ++ [step]) step st :=
  ⟨⟨h.prepared.inv.begin [step], h.prepared.exclusive, h.prepared.armed⟩, h.pre⟩

/-- A command of a ready step may be sent. -/
theorem Ready.send {st : State} (h : Ready w plan earlier (earlier ++ [step]) step st)
    (hsplit : plan.steps = earlier ++ step :: later) {template text : Text} {error : Option Text}
    (htemplate : template ∈ step.commands) (htext : Substituted template text) :
    Ready w plan earlier (earlier ++ [step]) step
      (st.push (.send (.step step.id) template text error)) := by
  have hsend : StepSend plan st.trace step.id template :=
    ⟨⟨earlier, step, later, hsplit, rfl, htemplate, h.prepared.inv.verified, h.pre,
      h.prepared.armed⟩, h.prepared.exclusive⟩
  refine ⟨⟨h.prepared.inv.push ⟨htext, hsend⟩ ?_, h.prepared.exclusive.snoc rfl, ?_⟩, ?_⟩
  · intro id hid
    exact ⟨step, by simp, hid⟩
  · exact fun hphase => List.mem_append_left _ (h.prepared.armed hphase)
  · exact fun v hv => (h.pre v hv).append _

/-- Reading keeps every property that quiet events keep. -/
theorem keeps_prepared {begun : List RecoveryStep} :
    Keeps (Reading w) (Prepared w plan earlier begun step) :=
  fun _ _ he hst => hst.quiet he.permitted he.keepsExclusive he.not_isStepSend

theorem keeps_ready {begun : List RecoveryStep} :
    Keeps (Reading w) (Ready w plan earlier begun step) :=
  fun _ _ he hst => hst.quiet he.permitted he.keepsExclusive he.not_isStepSend

theorem Ready.setPhase {begun : List RecoveryStep} {st : State} {v : F64}
    (h : Ready w plan earlier begun step st) (hv : v.isFinite = true) :
    Ready w plan earlier begun step (st.setPhase v) :=
  ⟨⟨⟨h.prepared.inv.permitted, h.prepared.inv.verified, allFinite_some hv,
    h.prepared.inv.machine, h.prepared.inv.cleanups, h.prepared.inv.sent⟩,
    h.prepared.exclusive, h.prepared.armed⟩, h.pre⟩

theorem Ready.setMachine {begun : List RecoveryStep} {st : State} {v : F64}
    (h : Ready w plan earlier begun step st) (hv : v.isFinite = true) :
    Ready w plan earlier begun step (st.setMachine v) :=
  ⟨⟨⟨h.prepared.inv.permitted, h.prepared.inv.verified, h.prepared.inv.phase,
    allFinite_some hv, h.prepared.inv.cleanups, h.prepared.inv.sent⟩,
    h.prepared.exclusive, h.prepared.armed⟩, h.pre⟩

theorem Ready.register {begun : List RecoveryStep} {st : State}
    (h : Ready w plan earlier begun step st)
    (hcleanups : ∀ c ∈ step.cleanupCommands,
      c = restoreAccel restoreAccelPlaceholder ∨ c = restoreAccel machineAccelPlaceholder) :
    Ready w plan earlier begun step (st.register step.id step.cleanupCommands) := by
  have hquiet := @Ready.quiet _ _ _ _ _ _ h (.register step.id step.cleanupCommands) trivial rfl
    fun _ => id
  refine ⟨⟨⟨hquiet.prepared.inv.permitted, hquiet.prepared.inv.verified, h.prepared.inv.phase,
    h.prepared.inv.machine, ?_, hquiet.prepared.inv.sent⟩, hquiet.prepared.exclusive,
    hquiet.prepared.armed⟩, hquiet.pre⟩
  intro entry hentry
  rcases List.mem_append.mp hentry with hentry | hentry
  · exact h.prepared.inv.cleanups entry hentry
  · rw [List.mem_singleton.mp hentry]
    exact hcleanups

/-- A prepared step verifies, sends and verifies, or stops with nothing unjustified. -/
theorem runStep_safe (hsound : Sound plan) (hsplit : plan.steps = earlier ++ step :: later) :
    Triple (Prepared w plan earlier earlier step) (runStep w step)
      (fun _ => Invariant w plan (earlier ++ [step]) (earlier ++ [step]))
      (Stopped w plan earlier step) := by
  have hmem : step ∈ plan.steps := by simp [hsplit]
  have hbefore : ∀ cause st, Fails (Ready w plan earlier earlier step) cause st →
      Stopped w plan earlier step cause st :=
    fun cause st hst => Invariant.fail hst.1.begin.prepared.inv hst.2
  have hafter : ∀ cause st, Fails (Ready w plan earlier (earlier ++ [step]) step) cause st →
      Stopped w plan earlier step cause st :=
    fun cause st hst => hst.1.prepared.inv.fail hst.2
  unfold runStep
  apply Triple.bind (Q := fun _ => Ready w plan earlier earlier step)
  · apply (pollAll_triple keeps_prepared step.preVerify).conseq (fun _ hst => hst)
    · rintro _ st ⟨hst, hpre⟩
      exact ⟨hst, hpre⟩
    · rintro cause st ⟨hst, hcause⟩
      exact (hst.inv.begin [step]).fail hcause
  intro _
  apply Triple.bind (Q := fun computed st => Ready w plan earlier earlier step st ∧
    AllFinite computed)
  · apply (resolveCompute_finite keeps_ready ?_ ?_ ?_).conseq (fun _ hst => hst)
      (fun _ _ hst => hst) hbefore
    · exact fun st v hv hst => hst.setPhase hv
    · exact fun st v hv hst => hst.setMachine hv
    · exact fun st hst => hst.prepared.inv.phase
  intro computed
  apply Triple.of_and_right
  intro hcomputed
  apply Triple.bind (Q := fun _ => Ready w plan earlier earlier step)
  · apply registerCleanup_triple
    · exact fun st _ hst => hst
    · exact fun st _ hst => hst.register (hsound.cleanups step hmem)
  intro _
  apply Triple.bind (Q := fun st₀ st => Ready w plan earlier (earlier ++ [step]) step st ∧
    AllFinite st₀.accel.machine)
  · exact Triple.state fun st hst => ⟨hst.begin, hst.prepared.inv.machine⟩
  intro st₀
  apply Triple.of_and_right
  intro hmachine
  apply Triple.bind (Q := fun _ => Ready w plan earlier (earlier ++ [step]) step)
  · apply Triple.forM_const
    intro command hcommand
    apply sendCommand_triple
    · intro st text hst htext _
      exact hst.send hsplit hcommand (commandText_substituted hcomputed hmachine htext)
    · intro st text m hst htext _
      have hsent : Ready w plan earlier (earlier ++ [step]) step
          (st.push (.send (.step step.id) command text (some m))) :=
        hst.send hsplit hcommand (commandText_substituted hcomputed hmachine htext)
      exact hsent.prepared.inv.fail rfl
    · exact fun st message hst => hst.prepared.inv.fail rfl
  intro _
  apply Triple.bind (Q := fun _ => Invariant w plan (earlier ++ [step]) (earlier ++ [step]))
  · apply (pollAll_triple keeps_ready step.verify).conseq (fun _ hst => hst) ?_ hafter
    rintro _ st ⟨hst, hpost⟩
    exact hst.prepared.inv.finish ⟨hst.pre, computed, hpost⟩
  intro _
  exact Triple.pure _ fun _ hst => hst

end Turns

section Previews

variable {w : World} {plan : RecoveryPlan} {earlier : List RecoveryStep} {step : RecoveryStep}
  {spec : PreviewSpec}

/-- What holds after a step has run, and in every turn of its preview. -/
abbrev Ran (w : World) (plan : RecoveryPlan) (earlier : List RecoveryStep) (step : RecoveryStep) :
    State → Prop :=
  Invariant w plan (earlier ++ [step]) (earlier ++ [step])

theorem Invariant.stopAfter {st : State} {cause : StopCause} (h : Ran w plan earlier step st)
    (hcause : cause ≠ .panicked) (hguard : ∀ reason, cause ≠ .frameGuardUnwritable reason) :
    Stopped w plan earlier step cause st :=
  h.forget.stopIn hcause hguard

theorem confirmZ_safe :
    Triple (Ran w plan earlier step) (confirmZ w step) (fun _ => Ran w plan earlier step)
      (Stopped w plan earlier step) := by
  unfold confirmZ
  split
  · apply Triple.bind (Q := fun _ => Ran w plan earlier step)
    · apply answered_triple
      intro st hst
      exact hst.reading rfl
    intro _
    apply ask_triple
    · intro st answer hst
      exact hst.quiet trivial fun _ => id
    · exact fun st hst => Invariant.stopAfter hst nofun nofun
    · exact fun st hst => Invariant.stopAfter hst nofun nofun
  · exact Triple.pure () fun _ hst => hst

/-- A cursor that stands at a stop, which was the last place the toolhead was sent to. -/
def AtStop (w : World) (plan : RecoveryPlan) (earlier : List RecoveryStep) (step : RecoveryStep)
    (spec : PreviewSpec) (cursor : ℕ) (st : State) : Prop :=
  Ran w plan earlier step st ∧ ∃ stop, spec.stops[cursor]? = some stop ∧
    LastVisited st.trace cursor (reposition spec stop)

/-- The move to a stop has nothing to substitute. -/
theorem reposition_substituted (spec : PreviewSpec) (stop : PreviewStop) :
    Substituted (reposition spec stop) (reposition spec stop) := by
  have hbrace : '{' ∉ reposition spec stop := by
    simp only [reposition, List.mem_append, not_or]
    exact ⟨⟨⟨⟨⟨by decide, brace_notMem_fmtNum _⟩, by decide⟩, brace_notMem_fmtNum _⟩, by decide⟩,
      brace_notMem_fmtNum _⟩
  have hnone : ∀ p ∈ placeholders, Text.contains (reposition spec stop) p = false := by
    intro p hp
    simp only [placeholders, List.mem_cons, List.not_mem_nil, or_false] at hp
    rcases hp with rfl | rfl | rfl | rfl <;> exact Text.contains_eq_false_of_notMem hbrace
  refine ⟨⟨0, 0, rfl, rfl, (substitute_of_not ?_ ?_ 0 0).symm⟩, hnone⟩
  · simp only [carriesComputed, hnone _ trueZ_mem, hnone _ restoreAccel_mem, hnone _ parkZ_mem,
      Bool.or_self]
  · exact hnone _ machineAccel_mem

theorem visit_safe (hspec : plan.preview = some spec) {cursor : ℕ}
    (hcursor : cursor < spec.stops.length) :
    Triple (Ran w plan earlier step) (visit w spec cursor)
      (fun _ => AtStop w plan earlier step spec cursor) (Stopped w plan earlier step) := by
  have hstop : spec.stops[cursor]? = some spec.stops[cursor] := List.getElem?_eq_getElem hcursor
  have hsend (st : State) (error : Option Text)
      (hst : Ran w plan earlier step st ∧ Exclusive st.trace) :
      Ran w plan earlier step (st.push (.send (.preview cursor)
        (reposition spec spec.stops[cursor]) (reposition spec spec.stops[cursor]) error)) :=
    hst.1.quiet ⟨reposition_substituted _ _, ⟨spec, _, hspec, hstop, rfl⟩, hst.2⟩ fun _ => id
  unfold visit
  apply Triple.bind (Q := fun _ st => Ran w plan earlier step st ∧ Exclusive st.trace)
  · apply reassertExclusivity_triple
    · intro st hst
      exact ⟨hst.quiet trivial fun _ => id, exclusive_recheck st.trace⟩
    · intro st reason hst
      exact Invariant.stopAfter (hst.quiet trivial fun _ => id) nofun nofun
  intro _
  rw [hstop]
  apply sendScript_triple
  · intro st hst _
    exact ⟨hsend st none hst, _, hstop, st.trace, [], rfl, by simp⟩
  · intro st m hst _
    exact Invariant.stopAfter (hsend st (some m) hst) nofun nofun

theorem acceptStop_safe (hsound : Sound plan) (hspec : plan.preview = some spec) {cursor : ℕ} :
    Triple (fun st => AtStop w plan earlier step spec cursor st ∧
        ∃ before, st.trace = before ++ [.preview step.id cursor .accept])
      (acceptStop w spec cursor) (fun _ => Ran w plan earlier step)
      (Stopped w plan earlier step) := by
  unfold acceptStop
  split
  · exact Triple.stop _ fun st hst => Invariant.stopAfter hst.1.1 nofun nofun
  rename_i binding hbinding
  split
  · exact Triple.stop _ fun st hst => Invariant.stopAfter hst.1.1 nofun nofun
  have hpush (st : State) (answer : Except Text Unit)
      (hst : AtStop w plan earlier step spec cursor st ∧
        ∃ before, st.trace = before ++ [.preview step.id cursor .accept]) :
      Ran w plan earlier step (st.push (.write binding answer)) := by
    obtain ⟨⟨hran, stop, hstop, hvisited⟩, before, htrace⟩ := hst
    obtain ⟨hbounded, hbinds⟩ := hsound.preview spec hspec
    obtain ⟨hlt, rfl⟩ := List.getElem?_eq_some_iff.mp hstop
    have hindex : cursorU32 cursor = cursor := by
      have hmax : previewMaxStops < 2 ^ 32 - 1 := by decide
      exact min_eq_left (by omega)
    rw [hindex, PreviewSpec.binding] at hbinding
    have htail := (List.forall₂_iff_get.mp hbinds).2 cursor hlt
      (List.getElem?_eq_some_iff.mp hbinding).1
    obtain ⟨hlt', rfl⟩ := List.getElem?_eq_some_iff.mp hbinding
    exact hran.quiet ⟨spec, _, step.id, cursor, before, hspec, hstop, hbinding, htail, htrace,
      hvisited⟩ fun _ => id
  apply Triple.bind (Q := fun _ => Ran w plan earlier step)
  · exact answered_triple fun st hst => hpush st _ hst
  intro answer
  apply orStop_triple
  · exact fun _ st _ hst => hst
  · exact fun _ st _ hst => Invariant.stopAfter hst nofun nofun

/-- The answer to a preview question leaves the toolhead where it is. -/
theorem answer_safe (hspec : plan.preview = some spec) {cursor : ℕ} {answer : PreviewAnswer}
    (hcursor : cursor < spec.stops.length) {E : StopCause → State → Prop} :
    Triple (AtStop w plan earlier step spec cursor)
      (emit (.preview step.id cursor answer))
      (fun _ st => AtStop w plan earlier step spec cursor st ∧
        ∃ before, st.trace = before ++ [.preview step.id cursor answer]) E := by
  apply emit_triple
  rintro st ⟨hst, stop, hstop, before, after, htrace, hafter⟩
  refine ⟨⟨hst.quiet ⟨spec, hspec, hcursor⟩ fun _ => id, stop, hstop, before,
    after ++ [.preview step.id cursor answer], by simp [htrace], ?_⟩, st.trace, rfl⟩
  intro e he source template text error
  rcases List.mem_append.mp he with he | he
  · exact hafter e he source template text error
  · rw [List.mem_singleton.mp he]
    exact nofun

/-- Every move of the cursor ends at a stop. -/
theorem Cursor.start_lt (h : spec.stops ≠ []) :
    (Cursor.start spec).cursor < spec.stops.length := by
  have hpos := List.length_pos_iff.mpr h
  show min spec.defaultIndex (spec.stops.length - 1) < spec.stops.length
  omega

theorem Cursor.atRepresentative_lt {c : Cursor} (h : c.cursor < spec.stops.length)
    (repPtr : ℕ) : (c.atRepresentative spec repPtr).cursor < spec.stops.length := by
  unfold Cursor.atRepresentative
  split
  · rename_i rep _
    show min rep (spec.stops.length - 1) < spec.stops.length
    omega
  · exact h

theorem Cursor.nudge_lt {c : Cursor} (h : c.cursor < spec.stops.length) (delta : ℤ) :
    (c.nudge spec delta).cursor < spec.stops.length := by
  unfold Cursor.nudge
  dsimp only
  split
  · omega
  · omega

/-- Whatever the operator answers, the loop ends with the binding of the stop it is at. -/
theorem previewLoop_safe (hsound : Sound plan) (hspec : plan.preview = some spec)
    (answers : List PreviewAnswer) (c : Cursor) (hc : c.cursor < spec.stops.length) :
    Triple (Ran w plan earlier step) (previewLoop w spec step c answers)
      (fun _ => Ran w plan earlier step) (Stopped w plan earlier step) := by
  induction answers generalizing c with
  | nil =>
    apply Triple.bind (visit_safe hspec hc)
    intro _
    apply Triple.bind (answer_safe hspec hc)
    intro _
    exact Triple.stop _ fun st hst => Invariant.stopAfter hst.1.1 nofun nofun
  | cons answer answers ih =>
    apply Triple.bind (visit_safe hspec hc)
    intro _
    apply Triple.bind (answer_safe hspec hc)
    intro _
    have hnext (c' : Cursor) (hc' : c'.cursor < spec.stops.length) :=
      (ih c' hc').conseq
        (fun st (hst : AtStop w plan earlier step spec c.cursor st ∧
          ∃ before, st.trace = before ++ [.preview step.id c.cursor answer]) => hst.1.1)
        (fun _ _ hst => hst) fun _ _ hst => hst
    cases answer with
    | accept => exact acceptStop_safe hsound hspec
    | nextRep => exact hnext _ (Cursor.atRepresentative_lt hc _)
    | prevRep => exact hnext _ (Cursor.atRepresentative_lt hc _)
    | nudge delta => exact hnext _ (Cursor.nudge_lt hc delta)
    | abort => exact Triple.stop _ fun st hst => Invariant.stopAfter hst.1.1 nofun nofun
    | timedOut => exact Triple.stop _ fun st hst => Invariant.stopAfter hst.1.1 nofun nofun

theorem confirmPreview_safe (hsound : Sound plan) :
    Triple (Ran w plan earlier step) (confirmPreview w plan step)
      (fun _ => Ran w plan earlier step) (Stopped w plan earlier step) := by
  unfold confirmPreview
  split
  · unfold runPreviewLoop
    split
    · exact Triple.pure () fun _ hst => hst
    · rename_i spec hspec
      split
      · exact Triple.pure () fun _ hst => hst
      · rename_i hstops
        apply previewLoop_safe hsound hspec
        exact Cursor.start_lt fun h => hstops (List.isEmpty_iff.mpr h)
  · exact Triple.pure () fun _ hst => hst

end Previews

section Executions

variable {w : World} {plan : RecoveryPlan}

/-- One turn of the step loop. -/
theorem executeStep_safe (hsound : Sound plan) {earlier later : List RecoveryStep}
    {step : RecoveryStep} (hsplit : plan.steps = earlier ++ step :: later) :
    Triple (Invariant w plan earlier earlier) (executeStep w plan step)
      (fun _ => Invariant w plan (earlier ++ [step]) (earlier ++ [step]))
      (Stopped w plan earlier step) := by
  have hmem : step ∈ plan.steps := by simp [hsplit]
  apply Triple.bind (prepareStep_safe hsound hmem)
  intro _
  apply Triple.bind (runStep_safe hsound hsplit)
  intro _
  apply Triple.bind confirmZ_safe
  intro _
  exact confirmPreview_safe hsound

/-- Where a run stops: at a step of the plan, with the steps before it done. -/
def StoppedAt (w : World) (plan : RecoveryPlan) (stop : RecoveryStep × StopCause) (st : State) :
    Prop :=
  ∃ earlier later, plan.steps = earlier ++ stop.1 :: later ∧ Stopped w plan earlier stop.1 stop.2 st

theorem preflightConfirmations_safe {anchor : RecoveryStep} :
    Triple (Invariant w plan [] []) (preflightConfirmations w plan anchor)
      (fun _ => Invariant w plan [] []) (Stopped w plan [] anchor) := by
  apply Triple.forM_const
  intro warning _
  unfold confirmWarning
  split
  · exact Triple.pure () fun _ hst => hst
  · apply ask_triple
    · intro st answer hst
      exact hst.quiet trivial fun _ => id
    · exact fun st hst => hst.stopBefore nofun nofun
    · exact fun st hst => hst.stopBefore nofun nofun
  · exact Triple.stop _ fun st hst => hst.stopBefore nofun nofun

theorem program_safe (hsound : Sound plan) {anchor : RecoveryStep} {rest : List RecoveryStep}
    (hsteps : plan.steps = anchor :: rest) :
    Triple (Invariant w plan [] []) (program w plan anchor)
      (fun _ => Invariant w plan plan.steps plan.steps) (StoppedAt w plan) := by
  apply Triple.bind (Q := fun _ => Invariant w plan [] [])
  · apply Triple.mapError
    apply preflightConfirmations_safe.conseq (fun _ hst => hst) (fun _ _ hst => hst)
    exact fun cause st hst => ⟨[], rest, hsteps, hst⟩
  intro _
  refine Triple.forM (I := fun done => Invariant w plan done done) ?_
  intro earlier step later hsplit
  apply Triple.mapError
  apply (executeStep_safe hsound hsplit).conseq (fun _ hst => hst) (fun _ _ hst => hst)
  exact fun cause st hst => ⟨earlier, later, hsplit, hst⟩

/-- The cleanups send nothing but numbers in their placeholders, and no command of a step. -/
theorem runCleanups_safe {earlier begun : List RecoveryStep} {st : State}
    (h : Invariant w plan earlier begun st) : Invariant w plan earlier begun (runCleanups w st) := by
  have hcommand : ∀ c ∈ cleanupOrder st.cleanups, c.2 = restoreAccel restoreAccelPlaceholder ∨
      c.2 = restoreAccel machineAccelPlaceholder := by
    rintro ⟨id, command⟩ hc
    simp only [cleanupOrder, List.mem_flatMap, List.mem_reverse, List.mem_map,
      Prod.mk.injEq] at hc
    obtain ⟨entry, hentry, _, hmem, -, rfl⟩ := hc
    exact h.cleanups entry hentry _ hmem
  unfold runCleanups
  generalize cleanupOrder st.cleanups = commands at hcommand
  induction commands generalizing st with
  | nil => exact h
  | cons c commands ih =>
    apply ih
    · unfold runCleanup
      split
      · exact h
      · rename_i text htext
        have hsubstituted := cleanupText_substituted h.phase h.machine
          (hcommand c List.mem_cons_self) htext
        exact h.quiet ⟨hsubstituted, trivial⟩ fun _ => id
    · exact fun d hd => hcommand d (List.mem_cons_of_mem _ hd)

end Executions

section Claims

/-- What an execution guarantees about everything it did and how it ended. -/
structure ExecutionSafe (w : World) (plan : RecoveryPlan) (outcome : ExecOutcome)
    (trace : Events) : Prop where
  /-- Every answer of the printer is the printer's. -/
  answers : ∀ past object answer rest, trace = past ++ .query object answer :: rest →
    answer = w.query past object
  /-- A command of a step follows the verifications of every earlier step and those before it. -/
  verified : ∀ past id template text error rest,
    trace = past ++ .send (.step id) template text error :: rest →
    ∃ earlier step later, plan.steps = earlier ++ step :: later ∧ step.id = id ∧
      template ∈ step.commands ∧ (∀ s ∈ earlier, Verified past s) ∧
      ∀ v ∈ step.preVerify, Held past .pre id v none
  /-- A command of a step and a move of the preview follow a check of exclusivity. -/
  exclusive : ∀ past source template text error rest,
    trace = past ++ .send source template text error :: rest →
    (∀ id, source ≠ .cleanup id) → Exclusive past
  /-- The shifted frame is declared with the interlock armed. -/
  armed : ∀ past s template text error rest, s ∈ plan.steps → s.phase = .shiftedFrame →
    trace = past ++ .send (.step s.id) template text error :: rest →
    .arm s.id (.ok ()) ∈ past
  /-- Every placeholder is sent as a finite number. -/
  substituted : ∀ source template text error, .send source template text error ∈ trace →
    Substituted template text
  /-- A run that stops after the declaration was sent reports the frame invalid. -/
  invalid : ∀ stepId phase reason cause frameInvalid s template text error,
    outcome = .aborted stepId phase reason cause frameInvalid → s ∈ plan.steps →
    s.phase = .shiftedFrame → .send (.step s.id) template text error ∈ trace → frameInvalid = true
  /-- What is written is the binding of the stop the toolhead was last sent to. -/
  written : ∀ past binding answer rest, trace = past ++ .write binding answer :: rest →
    BindsVisited plan past binding
  /-- The cursor of the preview stands at a stop. -/
  cursor : ∀ stepId cursor answer, .preview stepId cursor answer ∈ trace →
    ∃ spec, plan.preview = some spec ∧ cursor < spec.stops.length
  /-- No index leaves its list. -/
  inside : ∀ stepId phase reason cause frameInvalid,
    outcome = .aborted stepId phase reason cause frameInvalid → cause ≠ .panicked

variable {w : World} {plan : RecoveryPlan}

/-- A step of the invariant's justification is the step with the number. -/
theorem StepSend.of_mem {past : Events} {s : RecoveryStep} {template : Text}
    (hsound : Sound plan) (hs : s ∈ plan.steps) (h : StepSend plan past s.id template)
    (hphase : s.phase = .shiftedFrame) : .arm s.id (.ok ()) ∈ past := by
  obtain ⟨earlier, step, later, hsplit, hid, -, -, -, harmed⟩ := h.place
  have hstep : step ∈ plan.steps := by simp [hsplit]
  obtain rfl := eq_of_id hsound.increasing hstep hs hid
  exact harmed hphase

/-- The invariant at the end of a run gives everything but the facts about the outcome. -/
theorem Invariant.safe {earlier begun : List RecoveryStep} {st : State} {outcome : ExecOutcome}
    (hsound : Sound plan) (h : Invariant w plan earlier begun st)
    (hinvalid : ∀ stepId phase reason cause frameInvalid s,
      outcome = .aborted stepId phase reason cause frameInvalid → s ∈ plan.steps →
      s.phase = .shiftedFrame → (∃ e ∈ st.trace, IsStepSend s.id e) → frameInvalid = true)
    (hinside : ∀ stepId phase reason cause frameInvalid,
      outcome = .aborted stepId phase reason cause frameInvalid → cause ≠ .panicked) :
    ExecutionSafe w plan outcome st.trace where
  answers := fun past object answer rest htrace => h.permitted past _ rest htrace
  verified := by
    intro past id template text error rest htrace
    have hsend : StepSend plan past id template := (h.permitted past _ rest htrace).2
    obtain ⟨earlier, step, later, hsplit, hid, hmem, hearlier, hpre, -⟩ := hsend.place
    exact ⟨earlier, step, later, hsplit, hid, hmem, hearlier, hpre⟩
  exclusive := by
    intro past source template text error rest htrace hsource
    have hsend : SourceSend plan past template text source := (h.permitted past _ rest htrace).2
    cases source with
    | step id => exact StepSend.exclusive hsend
    | preview cursor => exact PreviewSend.exclusive hsend
    | cleanup id => exact (hsource id rfl).elim
  armed := by
    intro past s template text error rest hs hphase htrace
    have hsend : StepSend plan past s.id template := (h.permitted past _ rest htrace).2
    exact hsend.of_mem hsound hs hphase
  substituted := by
    intro source template text error hmem
    obtain ⟨past, rest, htrace⟩ := List.append_of_mem hmem
    exact (h.permitted past _ rest htrace).1
  invalid := by
    intro stepId phase reason cause frameInvalid s template text error houtcome hs hphase hmem
    exact hinvalid stepId phase reason cause frameInvalid s houtcome hs hphase ⟨_, hmem, rfl⟩
  written := fun past binding answer rest htrace => h.permitted past _ rest htrace
  cursor := by
    intro stepId cursor answer hmem
    obtain ⟨past, rest, htrace⟩ := List.append_of_mem hmem
    exact h.permitted past _ rest htrace
  inside := hinside

/-- A run that stops at or after the shifted frame reports it. -/
theorem Stopped.frameInvalid {earlier later : List RecoveryStep} {step s : RecoveryStep}
    {cause : StopCause} {st : State} (hsound : Sound plan) (h : Stopped w plan earlier step cause st)
    (hsplit : plan.steps = earlier ++ step :: later) (hs : s ∈ plan.steps)
    (hphase : s.phase = .shiftedFrame) (hsent : ∃ e ∈ st.trace, IsStepSend s.id e) :
    frameInvalid plan step cause = true := by
  obtain ⟨e, he, hid⟩ := hsent
  have hlt : ∀ t ∈ earlier, t.id < step.id := by
    have hsteps := hsound.increasing
    rw [hsplit] at hsteps
    exact fun t ht => (List.pairwise_append.mp hsteps).2.2 t ht step List.mem_cons_self
  have hshifted := hsound.shifted s hs hphase
  have hle : s.id ≤ step.id := by
    obtain ⟨t, ht, htid⟩ := h.inv.sent e he s.id hid
    rcases List.mem_append.mp ht with ht | ht
    · exact htid ▸ (hlt t ht).le
    · rw [← htid, List.mem_singleton.mp ht]
  have hcause : ∀ reason, cause ≠ .frameGuardUnwritable reason := by
    intro reason hreason
    obtain ⟨hstep, hinv⟩ := h.refused reason hreason
    obtain ⟨t, ht, htid⟩ := hinv.sent e he s.id hid
    have hsame : s.id = step.id := Option.some.inj (hshifted.symm.trans hstep)
    have := hlt t ht
    omega
  cases cause with
  | frameGuardUnwritable reason => exact (hcause reason rfl).elim
  | _ => simp [Execution.frameInvalid, hshifted, hle]

theorem Invariant.safe_completed {earlier begun : List RecoveryStep} {st : State} {n : ℕ}
    (hsound : Sound plan) (h : Invariant w plan earlier begun st) :
    ExecutionSafe w plan (.completed n) st.trace := by
  apply h.safe hsound
  · intro _ _ _ _ _ _ houtcome
    cases houtcome
  · intro _ _ _ _ _ houtcome
    cases houtcome

/-- A run that ends, however it ends, was safe. -/
theorem execute_safe (hsound : Sound plan) :
    ExecutionSafe w plan (execute w plan).1 (execute w plan).2.trace := by
  unfold execute
  split
  · exact Invariant.safe_completed hsound invariant_start
  · rename_i anchor rest hsteps
    have hprogram := program_safe (w := w) hsound hsteps State.start invariant_start
    split
    · rename_i st hrun
      rw [hrun] at hprogram
      exact Invariant.safe_completed hsound hprogram
    · rename_i step cause st hrun
      rw [hrun] at hprogram
      obtain ⟨earlier, later, hsplit, hstopped⟩ := hprogram
      have hfinal : Stopped w plan earlier step cause (runCleanups w st) :=
        ⟨runCleanups_safe hstopped.inv, fun reason hreason =>
          ⟨(hstopped.refused reason hreason).1,
            runCleanups_safe (hstopped.refused reason hreason).2⟩, hstopped.inside⟩
      apply Invariant.safe hsound hfinal.inv
      · rintro _ _ _ _ _ s ⟨⟩ hs hphase hsent
        exact hfinal.frameInvalid hsound hsplit hs hphase hsent
      · rintro _ _ _ _ _ ⟨⟩
        exact hfinal.inside

end Claims

end DeadReckoning.Execution
