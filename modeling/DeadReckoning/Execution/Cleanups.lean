import DeadReckoning.Lib.Trace
import DeadReckoning.Execution.Acceleration

/-! The registered cleanups: a step's is registered before its commands, and an abort runs each
of them once, the last registered first. -/
namespace DeadReckoning.Execution

open Recovery Prog

section Books

/-- The cleanups that the events register, in order. -/
def registered (trace : Events) : List (ℕ × List Text) :=
  trace.filterMap fun e => match e with
    | .register id commands => some (id, commands)
    | _ => none

/-- The command of a cleanup that an event sends. -/
def cleanupOf : Event → Option (ℕ × Text)
  | .send (.cleanup id) template _ _ => some (id, template)
  | _ => none

theorem registered_append (trace more : Events) :
    registered (trace ++ more) = registered trace ++ registered more :=
  List.filterMap_append

/-- What must be registered before a command of a step is sent. -/
def SentRegistered (plan : RecoveryPlan) (past : Events) : Event → Prop
  | .send (.step id) _ _ _ => ∀ s ∈ plan.steps, s.id = id → s.cleanupCommands ≠ [] →
      (id, s.cleanupCommands) ∈ registered past
  | _ => True

/-- The list of cleanups is what was registered, each by a step begun, each with its record. -/
structure Booked (plan : RecoveryPlan) (begun : List RecoveryStep) (st : State) : Prop where
  same : registered st.trace = st.cleanups
  running : ∀ e ∈ st.trace, cleanupOf e = none
  numbers : ∀ entry ∈ st.cleanups, ∃ s ∈ begun, s.id = entry.1
  once : (st.cleanups.map (·.1)).Nodup
  slots : ∀ entry ∈ st.cleanups, ∀ c ∈ entry.2,
    ∃ slot : Slot, c = restoreAccel slot.placeholder ∧ (slot.value st.accel).isSome = true
  sends : Trace.Justified (SentRegistered plan) st.trace

variable {plan : RecoveryPlan} {begun : List RecoveryStep} {st : State}

theorem booked_start : Booked plan [] .start where
  same := rfl
  running := fun _ he => absurd he List.not_mem_nil
  numbers := fun _ hentry => absurd hentry List.not_mem_nil
  once := List.nodup_nil
  slots := fun _ hentry => absurd hentry List.not_mem_nil
  sends := Trace.justified_nil _

theorem Booked.push (h : Booked plan begun st) {e : Event} (hregister : registered [e] = [])
    (hcleanup : cleanupOf e = none) (hsend : SentRegistered plan st.trace e) :
    Booked plan begun (st.push e) where
  same := by rw [State.push_trace, registered_append, hregister, List.append_nil]; exact h.same
  running := by
    intro x hx
    rcases List.mem_append.mp hx with hx | hx
    · exact h.running x hx
    · exact List.mem_singleton.mp hx ▸ hcleanup
  numbers := h.numbers
  once := h.once
  slots := h.slots
  sends := Trace.justified_snoc.mpr ⟨h.sends, hsend⟩

theorem keeps_booked : Keeps Silent (Booked plan begun) := by
  intro st e he hst
  cases e with
  | send | register => exact he.elim
  | query | gate | confirm | preview | recheck | arm | verify | write =>
    exact hst.push rfl rfl trivial

/-- A record that is set stays set. -/
theorem Booked.set (h : Booked plan begun st) {st' : State} (htrace : st'.trace = st.trace)
    (hcleanups : st'.cleanups = st.cleanups)
    (hslots : ∀ slot : Slot, (slot.value st.accel).isSome = true →
      (slot.value st'.accel).isSome = true) : Booked plan begun st' where
  same := by rw [htrace, hcleanups]; exact h.same
  running := by rw [htrace]; exact h.running
  numbers := by rw [hcleanups]; exact h.numbers
  once := by rw [hcleanups]; exact h.once
  slots := by
    rw [hcleanups]
    intro entry hentry c hc
    obtain ⟨slot, hslot, hsome⟩ := h.slots entry hentry c hc
    exact ⟨slot, hslot, hslots slot hsome⟩
  sends := by rw [htrace]; exact h.sends

theorem Booked.setPhase (h : Booked plan begun st) (v : F64) : Booked plan begun (st.setPhase v) := by
  refine @Booked.set _ _ _ h _ rfl rfl fun slot hsome => ?_
  cases slot with
  | phase => rfl
  | machine => exact hsome

theorem Booked.setMachine (h : Booked plan begun st) (v : F64) :
    Booked plan begun (st.setMachine v) := by
  refine @Booked.set _ _ _ h _ rfl rfl fun slot hsome => ?_
  cases slot with
  | phase => exact hsome
  | machine => rfl

theorem Booked.begin (h : Booked plan begun st) (more : List RecoveryStep) :
    Booked plan (begun ++ more) st where
  same := h.same
  running := h.running
  numbers := fun entry hentry =>
    let ⟨s, hs, hid⟩ := h.numbers entry hentry
    ⟨s, List.mem_append_left _ hs, hid⟩
  once := h.once
  slots := h.slots
  sends := h.sends

/-- A step that has not begun registers its commands, whose record is taken. -/
theorem Booked.register (h : Booked plan begun st) {step : RecoveryStep}
    (hnew : ∀ s ∈ begun, s.id ≠ step.id)
    (hslots : ∀ c ∈ step.cleanupCommands,
      ∃ slot : Slot, c = restoreAccel slot.placeholder ∧ (slot.value st.accel).isSome = true) :
    Booked plan (begun ++ [step]) (st.register step.id step.cleanupCommands) where
  same := by
    rw [State.register_trace, registered_append, h.same]
    rfl
  running := by
    intro x hx
    rcases List.mem_append.mp hx with hx | hx
    · exact h.running x hx
    · rw [List.mem_singleton.mp hx]
      rfl
  numbers := by
    intro entry hentry
    rcases List.mem_append.mp hentry with hentry | hentry
    · exact (h.begin [step]).numbers entry hentry
    · rw [List.mem_singleton.mp hentry]
      exact ⟨step, by simp, rfl⟩
  once := by
    rw [State.register_cleanups, List.map_append, List.nodup_append]
    refine ⟨h.once, List.nodup_singleton _, ?_⟩
    rintro id hid _ hid' rfl
    obtain ⟨entry, hentry, rfl⟩ := List.mem_map.mp hid
    obtain ⟨s, hs, hsid⟩ := h.numbers entry hentry
    exact hnew s hs (hsid.trans (List.mem_singleton.mp hid'))
  slots := by
    intro entry hentry c hc
    rcases List.mem_append.mp hentry with hentry | hentry
    · exact h.slots entry hentry c hc
    · rw [List.mem_singleton.mp hentry] at hc
      exact hslots c hc
  sends := Trace.justified_snoc.mpr ⟨h.sends, trivial⟩

end Books

section Runs

variable {w : World} {plan : RecoveryPlan} {earlier later : List RecoveryStep}
  {step : RecoveryStep}

/-- What the cleanups of a run need of its plan. -/
structure Bracketed (plan : RecoveryPlan) : Prop where
  increasing : plan.steps.Pairwise (·.id < ·.id)
  records : ∀ s ∈ plan.steps, s.cleanupCommands = [] ∨ ∃ slot, Records slot s

/-- The step's cleanup is registered. -/
def OnBooks (plan : RecoveryPlan) (begun : List RecoveryStep) (step : RecoveryStep) (st : State) :
    Prop :=
  Booked plan begun st ∧
    (step.cleanupCommands ≠ [] → (step.id, step.cleanupCommands) ∈ registered st.trace)

theorem keeps_onBooks {begun : List RecoveryStep} : Keeps Silent (OnBooks plan begun step) := by
  rintro st e he ⟨hst, hmem⟩
  refine ⟨keeps_booked st e he hst, fun hsome => ?_⟩
  rw [State.push_trace, registered_append]
  exact List.mem_append_left _ (hmem hsome)

theorem OnBooks.send {begun : List RecoveryStep} {st : State} (h : OnBooks plan begun step st)
    (hincreasing : plan.steps.Pairwise (·.id < ·.id)) (hstep : step ∈ plan.steps)
    (template text : Text) (error : Option Text) :
    OnBooks plan begun step (st.push (.send (.step step.id) template text error)) := by
  constructor
  · apply h.1.push rfl rfl
    intro s hs hid hsome
    obtain rfl := eq_of_id hincreasing hs hstep hid
    exact h.2 hsome
  · intro hsome
    rw [State.push_trace, registered_append]
    exact List.mem_append_left _ (h.2 hsome)

theorem runStep_books (hplan : Bracketed plan) (hsplit : plan.steps = earlier ++ step :: later) :
    Triple (Booked plan earlier) (runStep w step) (fun _ => Booked plan (earlier ++ [step]))
      fun _ => Booked plan (earlier ++ [step]) := by
  have hmem : step ∈ plan.steps := by simp [hsplit]
  have hnew : ∀ s ∈ earlier, s.id ≠ step.id := by
    have hincreasing := hplan.increasing
    rw [hsplit, List.pairwise_append] at hincreasing
    exact fun s hs => ne_of_lt (hincreasing.2.2 s hs step List.mem_cons_self)
  have hearly : ∀ cause st, Fails (Booked plan earlier) cause st →
      Booked plan (earlier ++ [step]) st := fun _ _ hst => hst.1.begin [step]
  unfold runStep
  apply Triple.bind (Q := fun _ => Booked plan earlier)
  · exact (pollAll_triple keeps_booked.reading step.preVerify).conseq (fun _ hst => hst)
      (fun _ _ hst => hst.1) hearly
  intro _
  apply Triple.bind (Q := fun _ st => Booked plan earlier st ∧ ∀ c ∈ step.cleanupCommands,
    ∃ slot : Slot, c = restoreAccel slot.placeholder ∧ (slot.value st.accel).isSome = true)
  · rcases hplan.records step hmem with hnone | ⟨slot, hrecords⟩
    · apply (resolveCompute_keeps keeps_booked ?_ ?_).conseq (fun _ hst => hst)
        (fun _ _ hst => ⟨hst, by simp [hnone]⟩) hearly
      · exact fun _ st v hst => hst.setPhase v
      · exact fun _ st v hst => hst.setMachine v
    · apply (resolveCompute_slot keeps_booked.reading slot hrecords.compute).conseq
        (fun _ hst => hst) ?_ hearly
      rintro _ _ ⟨v, st, -, hst, rfl, -⟩
      have hset : Booked plan earlier (slot.set v st) := by
        cases slot with
        | phase => exact hst.setPhase v
        | machine => exact hst.setMachine v
      refine ⟨hset, fun c hc => ⟨slot, ?_, by simp⟩⟩
      rw [hrecords.cleanup] at hc
      exact List.mem_singleton.mp hc
  intro computed
  apply Triple.bind (Q := fun _ => OnBooks plan (earlier ++ [step]) step)
  · apply registerCleanup_triple
    · rintro st hnone ⟨hst, -⟩
      exact ⟨hst.begin [step], fun hsome => (hsome hnone).elim⟩
    · rintro st - ⟨hst, hslots⟩
      refine ⟨hst.register hnew hslots, fun _ => ?_⟩
      rw [State.register_trace, registered_append]
      exact List.mem_append_right _ List.mem_cons_self
  intro _
  apply Triple.bind (Triple.state (Q := fun _ => OnBooks plan (earlier ++ [step]) step)
    fun st hst => hst)
  intro st₀
  apply Triple.bind (Q := fun _ => OnBooks plan (earlier ++ [step]) step)
  · apply Triple.forM_const
    intro command _
    apply sendCommand_triple
    · exact fun st text hst _ _ => hst.send hplan.increasing hmem command text none
    · exact fun st text m hst _ _ => (hst.send hplan.increasing hmem command text (some m)).1
    · exact fun st message hst => hst.1
  intro _
  apply Triple.bind (Q := fun _ => Booked plan (earlier ++ [step]))
  · exact (pollAll_triple keeps_onBooks.reading step.verify).conseq (fun _ hst => hst)
      (fun _ _ hst => hst.1.1) fun _ _ hst => hst.1.1
  intro _
  exact Triple.pure _ fun _ hst => hst

/-- The confirmations and the steps keep the books. -/
theorem program_books (hplan : Bracketed plan) (anchor : RecoveryStep) :
    Triple (Booked plan []) (program w plan anchor) (fun _ => Booked plan plan.steps)
      fun _ st => ∃ begun, Booked plan begun st := by
  apply program_rule keeps_booked fun st hst => ⟨[], hst⟩
  refine Triple.forM (I := Booked plan) ?_
  intro earlier step later hsplit
  apply Triple.mapError
  apply executeStep_rule keeps_booked keeps_booked
  · exact (runStep_books hplan hsplit).conseq (fun _ hst => hst) (fun _ _ hst => hst)
      fun _ st hst => ⟨earlier ++ [step], hst⟩
  · exact fun st hst => ⟨earlier, hst⟩
  · exact fun st hst => ⟨earlier ++ [step], hst⟩
  · exact fun spec st cursor stop error hst => hst.push rfl rfl trivial

/-- An abort sends every registered cleanup once, and nothing else. -/
theorem runCleanups_books {begun : List RecoveryStep} {st : State} (h : Booked plan begun st) :
    ∃ undone, (runCleanups w st).trace = st.trace ++ undone ∧
      undone.map cleanupOf = (cleanupOrder st.cleanups).map some := by
  have hslots : ∀ c ∈ cleanupOrder st.cleanups, ∃ slot : Slot,
      c.2 = restoreAccel slot.placeholder ∧ (slot.value st.accel).isSome = true := by
    rintro ⟨id, command⟩ hc
    simp only [cleanupOrder, List.mem_flatMap, List.mem_reverse, List.mem_map,
      Prod.mk.injEq] at hc
    obtain ⟨entry, hentry, _, hmem, -, rfl⟩ := hc
    exact h.slots entry hentry _ hmem
  unfold runCleanups
  generalize cleanupOrder st.cleanups = commands at hslots ⊢
  clear h
  induction commands generalizing st with
  | nil => exact ⟨[], by simp, rfl⟩
  | cons c commands ih =>
    obtain ⟨slot, hcommand, hsome⟩ := hslots c List.mem_cons_self
    obtain ⟨v, hvalue⟩ := Option.isSome_iff_exists.mp hsome
    have htext := cleanupText_slot hvalue
    rw [← hcommand] at htext
    have hstep : runCleanup w st c = st.push (.send (.cleanup c.1) c.2 (restoreAccel (fmtNum v))
        (w.script st.trace (restoreAccel (fmtNum v)))) := by
      rw [runCleanup, htext]
    obtain ⟨undone, htrace, hundone⟩ := @ih (runCleanup w st c) (by
      rw [hstep]
      exact fun d hd => hslots d (List.mem_cons_of_mem _ hd))
    rw [List.foldl_cons, htrace, hstep, State.push_trace, List.append_assoc]
    exact ⟨_, rfl, congrArg (some c :: ·) hundone⟩

end Runs

section Claims

/-- How a run treats what its steps registered to undo them. -/
structure CleanupsRun (plan : RecoveryPlan) (outcome : ExecOutcome) (trace : Events) : Prop where
  /-- What undoes a step is registered before a command of the step is sent. -/
  registered : ∀ past id template text error rest,
    trace = past ++ .send (.step id) template text error :: rest →
    ∀ s ∈ plan.steps, s.id = id → s.cleanupCommands ≠ [] →
      (id, s.cleanupCommands) ∈ registered past
  /-- No step registers twice. -/
  once : ((Execution.registered trace).map (·.1)).Nodup
  /-- A run that completes undoes nothing. -/
  completed : ∀ n, outcome = .completed n → ∀ e ∈ trace, cleanupOf e = none
  /-- A run that stops ends with every registered cleanup, the last registered first. -/
  aborted : ∀ stepId phase reason cause frameInvalid,
    outcome = .aborted stepId phase reason cause frameInvalid →
    ∃ ran undone, trace = ran ++ undone ∧ (∀ e ∈ ran, cleanupOf e = none) ∧
      undone.map cleanupOf = (cleanupOrder (Execution.registered ran)).map some

variable {w : World} {plan : RecoveryPlan}

theorem cleanupOf_of_cleanups {undone : Events} {commands : List (ℕ × Text)}
    (h : undone.map cleanupOf = commands.map some) {e : Event} (he : e ∈ undone) :
    ∃ id command, cleanupOf e = some (id, command) := by
  have hsome : cleanupOf e ∈ commands.map some := h ▸ List.mem_map_of_mem he
  obtain ⟨⟨id, command⟩, -, hc⟩ := List.mem_map.mp hsome
  exact ⟨id, command, hc.symm⟩

theorem registered_of_cleanups {undone : Events} {commands : List (ℕ × Text)}
    (h : undone.map cleanupOf = commands.map some) : registered undone = [] := by
  rw [registered, List.filterMap_eq_nil_iff]
  intro e he
  obtain ⟨id, command, hc⟩ := cleanupOf_of_cleanups h he
  cases e with
  | register => cases hc
  | _ => rfl

theorem Booked.completed {begun : List RecoveryStep} {st : State} {n : ℕ}
    (h : Booked plan begun st) : CleanupsRun plan (.completed n) st.trace where
  registered := fun past id template text error rest htrace => h.sends past _ rest htrace
  once := by rw [h.same]; exact h.once
  completed := fun _ _ => h.running
  aborted := by
    intro _ _ _ _ _ houtcome
    cases houtcome

theorem Booked.aborted {begun : List RecoveryStep} {st : State} {outcome : ExecOutcome}
    (h : Booked plan begun st) (houtcome : ∀ n, outcome ≠ .completed n) :
    CleanupsRun plan outcome (runCleanups w st).trace := by
  obtain ⟨undone, htrace, hundone⟩ := @runCleanups_books w plan begun st h
  have hnone : registered undone = [] := registered_of_cleanups hundone
  have hsends : Trace.Justified (SentRegistered plan) (st.trace ++ undone) := by
    apply h.sends.append
    intro past e he
    obtain ⟨id, command, hcleanup⟩ := cleanupOf_of_cleanups hundone he
    cases e with
    | send source => cases source with
      | cleanup => exact trivial
      | step | preview => cases hcleanup
    | query | gate | confirm | preview | recheck | arm | verify | register | write => exact trivial
  rw [htrace]
  refine ⟨fun past id template text error rest hsplit => hsends past _ rest hsplit, ?_,
    fun n hn => (houtcome n hn).elim, ?_⟩
  · rw [registered_append, hnone, List.append_nil, h.same]
    exact h.once
  · intro _ _ _ _ _ _
    refine ⟨st.trace, undone, rfl, h.running, ?_⟩
    rw [h.same]
    exact hundone

/-- However a run ends, what its steps registered is undone exactly when it stops. -/
theorem execute_cleanups (hplan : Bracketed plan) :
    CleanupsRun plan (execute w plan).1 (execute w plan).2.trace := by
  unfold execute
  split
  · exact Booked.completed booked_start
  · rename_i anchor rest _
    have hprogram := program_books (w := w) hplan anchor State.start booked_start
    split
    · rename_i st hrun
      rw [hrun] at hprogram
      exact hprogram.completed
    · rename_i step cause st hrun
      rw [hrun] at hprogram
      obtain ⟨begun, hbooked⟩ := hprogram
      exact hbooked.aborted nofun

/-- The steps of the planner register what undoes them. -/
theorem planned_bracketed {inputs : PlanInputs} {config : PlanConfig} {plan : RecoveryPlan}
    {ctx : Ctx} {mesh : List RecoveryStep} (h : Planned inputs config plan ctx mesh) :
    Bracketed plan where
  increasing := h.increasing
  records := by
    intro s hs
    obtain ⟨s₀, hbuilt, hnumbered⟩ := h.built hs
    have hcompute : s.compute = s₀.compute := by rw [hnumbered]; rfl
    have hcleanup : s.cleanupCommands = s₀.cleanupCommands := by rw [hnumbered]; rfl
    by_cases hrecovery : s₀.phase = .recoveryAccel ∨ s₀.phase = .accelClamp
    · right
      cases hbuilt with
      | recoveryAccel _ => exact ⟨.machine, hcompute, hcleanup⟩
      | accelClamp _ => exact ⟨.phase, hcompute, hcleanup⟩
      | probeTempHold s₀ hhold =>
        rw [stepProbeTempHold, Option.map_eq_some_iff] at hhold
        obtain ⟨target, -, rfl⟩ := hhold
        rcases hrecovery with hphase | hphase <;> cases hphase
      | _ => rcases hrecovery with hphase | hphase <;> cases hphase
    · left
      rw [hcleanup]
      exact cleanup_of_built hbuilt (fun hphase => hrecovery (.inl hphase))
        fun hphase => hrecovery (.inr hphase)

theorem mem_gcodeMacroNames {sections : List Text} {name : Text}
    (h : name ∈ gcodeMacroNames sections) :
    ∃ macroName, lit "gcode_macro " ++ macroName ∈ sections ∧
      name = Text.upper (Text.trim macroName) := by
  obtain ⟨macroName, hmem, rfl⟩ := List.mem_map.mp h
  obtain ⟨sectionName, hsection, hname⟩ := List.mem_filterMap.mp hmem
  obtain rfl := Text.stripPrefix_eq_some.mp hname
  exact ⟨macroName, hsection, rfl⟩

/-- A printer whose acceleration the commands set, and that answers nothing else. -/
def accelWorld (m : ℚ) : World where
  query past _ := .ok (.obj [(lit "toolhead",
    .obj [(lit "max_accel", .num (accelAfter (fun _ => false) (.fin m) past))])])
  polls _ _ := 0
  gate _ _ := true
  confirm _ _ := .continue
  previewAnswers := []
  recheck _ := .ok ()
  arm _ _ := .ok ()
  script _ _ := none
  writeFor _ _ := .ok ()

theorem reportsAccel_accelWorld (m : ℚ) : ReportsAccel (accelWorld m) (fun _ => false) m := by
  rintro past v ⟨status, value, hquery, hlookup, hnum⟩
  obtain rfl := Except.ok.inj hquery
  have hfound : ∀ a : F64, Value.lookup (.obj [(lit "toolhead", .obj [(lit "max_accel", .num a)])])
      (lit "toolhead") (lit "max_accel") = some (.num a) := fun _ => rfl
  rw [hfound, Option.some.injEq] at hlookup
  subst hlookup
  rw [Value.asNum] at hnum
  split at hnum
  · exact (Option.some.inj hnum).symm
  · cases hnum

end Claims

end DeadReckoning.Execution
