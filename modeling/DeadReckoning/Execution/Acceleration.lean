import DeadReckoning.Recovery.Vocabulary
import DeadReckoning.Execution.Rules

/-! The acceleration of the machine through a run: what changes it, and that it is put back
wherever the run ends. -/
namespace DeadReckoning.Execution

open Recovery Prog

section Printer

/-- The number of the first `ACCEL=` word. -/
def accelWord : List Text → Option F64
  | [] => none
  | word :: rest =>
      match Text.stripPrefix (lit "ACCEL=") (Text.upper word) with
      | some value => Decimal.parseF64 value
      | none => accelWord rest

/-- The acceleration that a command sets. -/
def accelSet (text : Text) : Option F64 :=
  if firstWord text = lit "SET_VELOCITY_LIMIT" then accelWord ((Text.words text).drop 1) else none

/-- Whether a sent command takes effect. A command that was refused may have taken effect all
the same, as `refused` says; what is sent to undo a step takes effect. -/
def takesEffect (refused : Bool) : Source → Option Text → Bool
  | .cleanup _, _ | _, none => true
  | _, some _ => refused

/-- One more event of a run: the past, and the acceleration in force. -/
def accelStep (refused : Events → Bool) (acc : Events × F64) (e : Event) : Events × F64 :=
  (acc.1 ++ [e],
    match e with
    | .send source _ text error =>
        if takesEffect (refused acc.1) source error then (accelSet text).getD acc.2 else acc.2
    | _ => acc.2)

/-- The acceleration in force after the events, when it was `initial` before them. -/
def accelAfter (refused : Events → Bool) (initial : F64) (trace : Events) : F64 :=
  (trace.foldl (accelStep refused) ([], initial)).2

variable {refused : Events → Bool} {initial : F64}

theorem foldl_accelStep_fst (trace : Events) (acc : Events × F64) :
    (trace.foldl (accelStep refused) acc).1 = acc.1 ++ trace := by
  induction trace generalizing acc with
  | nil => simp
  | cons e trace ih => simp [ih, accelStep]

theorem accelAfter_snoc (trace : Events) (e : Event) :
    accelAfter refused initial (trace ++ [e]) =
      (accelStep refused (trace, accelAfter refused initial trace) e).2 := by
  have hpair : trace.foldl (accelStep refused) ([], initial) =
      (trace, accelAfter refused initial trace) :=
    Prod.ext (foldl_accelStep_fst trace ([], initial)) rfl
  rw [accelAfter, List.foldl_append, hpair]
  rfl

theorem accelAfter_silent {trace : Events} {e : Event}
    (h : ∀ source template text error, e ≠ .send source template text error) :
    accelAfter refused initial (trace ++ [e]) = accelAfter refused initial trace := by
  rw [accelAfter_snoc]
  cases e with
  | send source template text error => exact (h source template text error rfl).elim
  | _ => rfl

theorem accelAfter_send {trace : Events} {source : Source} {template text : Text}
    {error : Option Text} (h : accelSet text = none) :
    accelAfter refused initial (trace ++ [.send source template text error]) =
      accelAfter refused initial trace := by
  rw [accelAfter_snoc]
  simp [accelStep, h]

theorem accelAfter_set {trace : Events} {source : Source} {template text : Text}
    {error : Option Text} {v : F64} (h : accelSet text = some v)
    (heffect : takesEffect (refused trace) source error = true) :
    accelAfter refused initial (trace ++ [.send source template text error]) = v := by
  rw [accelAfter_snoc]
  simp [accelStep, h, heffect]

end Printer

section Texts

theorem Headed.substitute {word command : Text} (hword : IsWord word) (h : Headed word command)
    (v m : F64) : Headed word (substitute v m command) := by
  have htrueZ := h.replace hword (lit "true_z\x7d") (fmtNum v)
  have hrestore := htrueZ.replace hword (lit "restore_accel\x7d") (fmtNum v)
  have hpark := hrestore.replace hword (lit "park_z\x7d") (fmtNum v)
  exact hpark.replace hword (lit "machine_accel\x7d") (fmtNum m)

/-- A command under another word sets no acceleration. -/
theorem accelSet_of_headed {word command : Text} (hword : IsWord word) (h : Headed word command)
    (hother : Text.upper word ≠ lit "SET_VELOCITY_LIMIT") : accelSet command = none := by
  rw [accelSet, h.firstWord_eq hword, if_neg hother]

/-- A command of one word sets no acceleration. -/
theorem accelSet_of_solid {command : Text} (h : ∀ c ∈ command, Text.isWhitespace c = false) :
    accelSet command = none := by
  rcases eq_or_ne command [] with rfl | hne
  · decide
  · rw [accelSet, Text.words_of_forall h hne]
    split <;> rfl

theorem solid_replace {s p : Text} {v : F64} (h : ∀ c ∈ s, Text.isWhitespace c = false) :
    ∀ c ∈ Text.replace s p (fmtNum v), Text.isWhitespace c = false := by
  intro c hc
  rcases Text.mem_replace hc with hc | hc
  · exact h c hc
  · exact isWhitespace_of_mem_fmtNum hc

theorem solid_substitute {command : Text} (h : ∀ c ∈ command, Text.isWhitespace c = false)
    (v m : F64) : ∀ c ∈ substitute v m command, Text.isWhitespace c = false :=
  solid_replace (solid_replace (solid_replace (solid_replace h)))

/-- The restored acceleration is the number to five decimal places. -/
theorem accelSet_restore (q : ℚ) :
    accelSet (restoreAccel (fmtNum (.fin q))) = some (.fin (quantized q)) := by
  have hhead : Text.words (restoreAccel (fmtNum (.fin q))) =
      [lit "SET_VELOCITY_LIMIT", lit "ACCEL=" ++ fmtNum (.fin q)] := by
    have hsplit : restoreAccel (fmtNum (.fin q)) =
        lit "SET_VELOCITY_LIMIT" ++ ' ' :: (lit "ACCEL=" ++ fmtNum (.fin q)) := rfl
    rw [hsplit, Text.words_append_cons (by decide), Text.words_of_forall (by decide) (by decide),
      Text.words_of_forall]
    · rfl
    · intro c hc
      have hliteral : ∀ c ∈ lit "ACCEL=", Text.isWhitespace c = false := by decide
      rcases List.mem_append.mp hc with hc | hc
      · exact hliteral c hc
      · exact isWhitespace_of_mem_fmtNum hc
    · simp [lit]
  have hupper : Text.upper (lit "ACCEL=" ++ fmtNum (.fin q)) = lit "ACCEL=" ++ fmtNum (.fin q) := by
    have hnumber : Text.upper (fmtNum (.fin q)) = fmtNum (.fin q) :=
      (List.map_congr_left fun c hc => toUpper_of_isNumberChar
        (isNumberChar_of_mem_fmtNum hc)).trans (List.map_id _)
    rw [Text.upper, List.map_append]
    exact congrArg (lit "ACCEL=" ++ ·) hnumber
  have hvalue : Text.stripPrefix (lit "ACCEL=") (lit "ACCEL=" ++ fmtNum (.fin q)) =
      some (fmtNum (.fin q)) := rfl
  rw [accelSet, firstWord, hhead]
  simp only [List.headD_cons, List.drop_succ_cons, List.drop_zero, accelWord, hupper, hvalue,
    parseF64_fmtNum]
  rw [if_pos (by decide)]

end Texts

section Slots

/-- The two recorded accelerations. -/
inductive Slot where
  | phase
  | machine
  deriving DecidableEq

def Slot.placeholder : Slot → Text
  | phase => restoreAccelPlaceholder
  | machine => machineAccelPlaceholder

def Slot.record : Slot → RuntimeComputation
  | phase => .recordMaxAccel
  | machine => .recordMachineAccel

def Slot.value (accel : AccelSlots) : Slot → Option F64
  | phase => accel.phase
  | machine => accel.machine

def Slot.set (v : F64) (st : State) : Slot → State
  | phase => st.setPhase v
  | machine => st.setMachine v

@[simp] theorem Slot.set_trace (v : F64) (st : State) (slot : Slot) :
    (slot.set v st).trace = st.trace := by
  cases slot <;> rfl

@[simp] theorem Slot.set_cleanups (v : F64) (st : State) (slot : Slot) :
    (slot.set v st).cleanups = st.cleanups := by
  cases slot <;> rfl

@[simp] theorem Slot.value_set (v : F64) (st : State) (slot : Slot) :
    slot.value (slot.set v st).accel = some v := by
  cases slot <;> rfl

variable {w : World} {K : State → Prop}

theorem resolveCompute_slot (hK : Keeps (Reading w) K) (slot : Slot) {step : RecoveryStep}
    (hstep : step.compute = some slot.record) :
    Triple K (resolveCompute w step)
      (fun computed st => ∃ v st₁, computed = some v ∧ K st₁ ∧ st = slot.set v st₁ ∧
        ∃ st₀, K st₀ ∧ Reports w st₀.trace (lit "toolhead") (lit "max_accel") v)
      (Fails K) := by
  cases slot with
  | phase => exact resolveCompute_recordMax hK hstep
  | machine => exact resolveCompute_recordMachine hK hstep

theorem brace_notMem_restoreAccel (v : F64) : '{' ∉ restoreAccel (fmtNum v) := by
  have hliteral : '{' ∉ lit "SET_VELOCITY_LIMIT ACCEL=" := by decide
  rw [restoreAccel, List.mem_append, not_or]
  exact ⟨hliteral, brace_notMem_fmtNum v⟩

theorem replace_slot (slot : Slot) (v : F64) :
    Text.replace (restoreAccel slot.placeholder) slot.placeholder (fmtNum v) =
      restoreAccel (fmtNum v) := by
  have hliteral : '{' ∉ lit "SET_VELOCITY_LIMIT ACCEL=" := by decide
  cases slot with
  | phase => exact Text.replace_end hliteral
  | machine => exact Text.replace_end hliteral

/-- What undoes a clamp is sent with the number of its slot. -/
theorem cleanupText_slot {accel : AccelSlots} {slot : Slot} {v : F64}
    (h : slot.value accel = some v) :
    cleanupText accel (restoreAccel slot.placeholder) = some (restoreAccel (fmtNum v)) := by
  have hreplace := replace_slot slot v
  cases slot with
  | phase =>
    have hphase : accel.phase = some v := h
    have hcontains : Text.contains (restoreAccel restoreAccelPlaceholder)
        restoreAccelPlaceholder = true := by decide
    simp only [cleanupText, Slot.placeholder, if_pos hcontains, hphase, Option.map_some]
    exact congrArg some hreplace
  | machine =>
    have hmachine : accel.machine = some v := h
    have hother : Text.contains (restoreAccel machineAccelPlaceholder)
        restoreAccelPlaceholder = false := by decide
    have hcontains : Text.contains (restoreAccel machineAccelPlaceholder)
        machineAccelPlaceholder = true := by decide
    simp only [cleanupText, Slot.placeholder, hother, Bool.false_eq_true, if_false,
      if_pos hcontains, hmachine, Option.map_some]
    exact congrArg some hreplace

/-- A step that restores a slot sends the number of the slot. -/
theorem commandText_slot {computed machineAccel : Option F64} {slot : Slot} {v : F64}
    {text : Text} (hphase : slot = .phase → computed = some v)
    (hmachine : slot = .machine → machineAccel = some v)
    (h : commandText computed machineAccel (restoreAccel slot.placeholder) = some text) :
    text = restoreAccel (fmtNum v) := by
  have hreplace := replace_slot slot v
  have hplain {p : Text} : Text.contains (restoreAccel (fmtNum v)) ('{' :: p) = false :=
    Text.contains_eq_false_of_notMem (brace_notMem_restoreAccel v)
  cases slot with
  | phase =>
    have hcarries : carriesComputed (restoreAccel restoreAccelPlaceholder) = true := by decide
    have htrueZ : Text.replace (restoreAccel restoreAccelPlaceholder) trueZPlaceholder (fmtNum v) =
        restoreAccel restoreAccelPlaceholder := Text.replace_of_not_contains (by decide)
    have hresolved : substituteComputed v (restoreAccel restoreAccelPlaceholder) =
        restoreAccel (fmtNum v) := by
      rw [substituteComputed, htrueZ]
      exact (congrArg (Text.replace · parkZPlaceholder (fmtNum v)) hreplace).trans
        (Text.replace_of_not_contains hplain)
    rw [Slot.placeholder, commandText, if_pos hcarries, hphase rfl] at h
    simp only [Option.map_some, hresolved, Option.bind_eq_bind, Option.bind_some] at h
    have hmachineFree : Text.contains (restoreAccel (fmtNum v)) machineAccelPlaceholder = false :=
      hplain
    simp only [hmachineFree, Bool.false_eq_true, if_false] at h
    exact (Option.some.inj h).symm
  | machine =>
    have hcarries : carriesComputed (restoreAccel machineAccelPlaceholder) = false := by decide
    have hcontains : Text.contains (restoreAccel machineAccelPlaceholder)
        machineAccelPlaceholder = true := by decide
    rw [Slot.placeholder, commandText, hcarries, hmachine rfl] at h
    simp only [Bool.false_eq_true, if_false, Option.bind_eq_bind, Option.bind_some,
      if_pos hcontains, Option.map_some] at h
    exact (Option.some.inj h).symm.trans hreplace

end Slots

section Phases

variable (refused : Events → Bool) (m : ℚ)

/-- The acceleration in force in a state of a run that began at `m`. -/
def accelIn (st : State) : F64 := accelAfter refused (.fin m) st.trace

/-- Nothing has changed the acceleration, and there is nothing to undo. -/
structure Untouched (st : State) : Prop where
  accel : accelIn refused m st = .fin m
  cleanups : st.cleanups = []

/-- The machine's own acceleration is in the slot, and putting it back is what an abort does
last. -/
structure Holding (slot : Slot) (st : State) : Prop where
  cleanups : ∃ id rest, st.cleanups = (id, [restoreAccel slot.placeholder]) :: rest
  value : slot.value st.accel = some (.fin m)

/-- The machine's own acceleration is in force again. -/
structure Restored (slot : Slot) (st : State) : Prop where
  holding : Holding m slot st
  accel : accelIn refused m st = .fin (quantized m)

/-- Where a run may stop: an abort ends at the machine's own acceleration. -/
def Undoable (slot : Slot) (st : State) : Prop := Untouched refused m st ∨ Holding m slot st

variable {refused m} {slot : Slot} {st : State}

theorem accelIn_silent {e : Event} (he : Silent st.trace e) :
    accelIn refused m (st.push e) = accelIn refused m st := by
  apply accelAfter_silent
  rintro source template text error rfl
  exact he

theorem keeps_untouched : Keeps Silent (Untouched refused m) :=
  fun _ _ he hst => ⟨(accelIn_silent he).trans hst.accel, hst.cleanups⟩

theorem keeps_holding : Keeps Silent (Holding m slot) :=
  fun _ _ _ hst => ⟨hst.cleanups, hst.value⟩

theorem keeps_restored : Keeps Silent (Restored refused m slot) :=
  fun st e he hst => ⟨keeps_holding st e he hst.holding, (accelIn_silent he).trans hst.accel⟩

theorem Holding.push (h : Holding m slot st) (e : Event) : Holding m slot (st.push e) :=
  ⟨h.cleanups, h.value⟩

theorem Holding.register (h : Holding m slot st) (id : ℕ) (commands : List Text) :
    Holding m slot (st.register id commands) := by
  obtain ⟨first, rest, hcleanups⟩ := h.cleanups
  exact ⟨⟨first, rest ++ [(id, commands)], by simp [hcleanups]⟩, h.value⟩

end Phases

section Discipline

/-- No command of the step sets the acceleration, whatever numbers stand in it. -/
def AccelFree (s : RecoveryStep) : Prop :=
  ∀ command ∈ s.commands, ∀ v n, accelSet (substitute v n command) = none

/-- The step records the acceleration, and undoes what it does with the record. -/
structure Records (slot : Slot) (s : RecoveryStep) : Prop where
  compute : s.compute = some slot.record
  cleanup : s.cleanupCommands = [restoreAccel slot.placeholder]

/-- The step puts the recorded acceleration back. -/
structure Restores (slot : Slot) (s : RecoveryStep) : Prop where
  compute : s.compute = none
  commands : s.commands = [restoreAccel slot.placeholder]
  cleanup : s.cleanupCommands = []

/-- How the steps of a plan treat the acceleration: they leave it alone, or one step records it
before any other changes it and one puts it back after the last change. -/
inductive Disciplined (slot : Slot) : List RecoveryStep → Prop
  | free (steps : List RecoveryStep)
      (h : ∀ s ∈ steps, AccelFree s ∧ s.cleanupCommands = []) : Disciplined slot steps
  | bracketed (before inside after : List RecoveryStep) (record restore : RecoveryStep)
      (hbefore : ∀ s ∈ before, AccelFree s ∧ s.cleanupCommands = [])
      (hrecord : Records slot record)
      (hinside : ∀ s ∈ inside, s.compute ≠ some slot.record)
      (hrestore : Restores slot restore)
      (hafter : ∀ s ∈ after, AccelFree s ∧ s.cleanupCommands = [] ∧ s.compute ≠ some slot.record) :
      Disciplined slot (before ++ record :: (inside ++ restore :: after))

variable {w : World} {refused : Events → Bool} {m : ℚ} {slot : Slot} {step : RecoveryStep}

/-- Every report of the printer is the acceleration in force. -/
def ReportsAccel (w : World) (refused : Events → Bool) (m : ℚ) : Prop :=
  ∀ past v, Reports w past (lit "toolhead") (lit "max_accel") v →
    v = accelAfter refused (.fin m) past

/-- A step that leaves the acceleration alone. -/
theorem untouched_step (hfree : AccelFree step) (hcleanup : step.cleanupCommands = []) :
    Triple (Untouched refused m) (runStep w step) (fun _ => Untouched refused m)
      (Fails (Untouched refused m)) := by
  apply runStep_keeps keeps_untouched
  · exact fun _ st v hst => ⟨hst.accel, hst.cleanups⟩
  · exact fun _ st v hst => ⟨hst.accel, hst.cleanups⟩
  · exact fun hsome => (hsome hcleanup).elim
  · intro st command v n error hcommand hst
    exact ⟨(accelAfter_send (hfree command hcommand v n)).trans hst.accel, hst.cleanups⟩

/-- The record is taken while the machine's own acceleration is in force. -/
theorem record_step (hreports : ReportsAccel w refused m) (h : Records slot step) :
    Triple (Untouched refused m) (runStep w step) (fun _ => Holding m slot)
      fun _ => Undoable refused m slot := by
  have hholding : ∀ cause st, Fails (Holding m slot) cause st → Undoable refused m slot st :=
    fun _ _ hst => .inr hst.1
  unfold runStep
  apply Triple.bind (Q := fun _ => Untouched refused m)
  · exact (pollAll_triple keeps_untouched.reading step.preVerify).conseq (fun _ hst => hst)
      (fun _ _ hst => hst.1) fun _ _ hst => .inl hst.1
  intro _
  apply Triple.bind (Q := fun _ st => st.cleanups = [] ∧ slot.value st.accel = some (.fin m))
  · apply (resolveCompute_slot keeps_untouched.reading slot h.compute).conseq (fun _ hst => hst)
      ?_ fun _ _ hst => .inl hst.1
    rintro computed _ ⟨v, st, -, hst, rfl, st₀, hst₀, hread⟩
    obtain rfl : v = .fin m := (hreports st₀.trace v hread).trans hst₀.accel
    exact ⟨by simp [hst.cleanups], Slot.value_set _ st slot⟩
  intro computed
  apply Triple.bind (Q := fun _ => Holding m slot)
  · apply registerCleanup_triple
    · intro st hnone
      rw [h.cleanup] at hnone
      cases hnone
    · rintro st - ⟨hcleanups, hvalue⟩
      exact ⟨⟨step.id, [], by simp [hcleanups, h.cleanup]⟩, hvalue⟩
  intro _
  apply Triple.bind (Triple.state (Q := fun _ => Holding m slot) fun st hst => hst)
  intro st₀
  apply Triple.bind (Q := fun _ => Holding m slot)
  · apply Triple.forM_const
    intro command _
    apply sendCommand_triple
    · exact fun st text hst _ _ => hst.push _
    · exact fun st text message hst _ _ => .inr (hst.push _)
    · exact fun st message hst => .inr hst
  intro _
  apply Triple.bind (Q := fun _ => Holding m slot)
  · exact (pollAll_triple keeps_holding.reading step.verify).conseq (fun _ hst => hst)
      (fun _ _ hst => hst.1) hholding
  intro _
  exact Triple.pure _ fun _ hst => hst

/-- A step between the record and the restoration may do anything but record again. -/
theorem holding_step (hcompute : step.compute ≠ some slot.record) :
    Triple (Holding m slot) (runStep w step) (fun _ => Holding m slot) (Fails (Holding m slot)) := by
  apply runStep_keeps keeps_holding
  · intro hmax st v hst
    cases slot with
    | phase => exact (hcompute hmax).elim
    | machine => exact ⟨hst.cleanups, hst.value⟩
  · intro hmax st v hst
    cases slot with
    | phase => exact ⟨hst.cleanups, hst.value⟩
    | machine => exact (hcompute hmax).elim
  · exact fun _ st hst => hst.register _ _
  · exact fun st command v n error _ hst => hst.push _

/-- The restoration puts the recorded acceleration back in force. -/
theorem restore_step (h : Restores slot step) :
    Triple (Holding m slot) (runStep w step) (fun _ => Restored refused m slot)
      (Fails (Holding m slot)) := by
  unfold runStep
  apply Triple.bind ((pollAll_triple keeps_holding.reading step.preVerify).mono
    fun _ _ hst => hst.1)
  intro _
  apply Triple.bind (Q := fun computed st => Holding m slot st ∧ computed = st.accel.phase)
  · exact resolveCompute_none h.compute
  intro computed
  apply Triple.bind (Q := fun _ st => Holding m slot st ∧ computed = st.accel.phase)
  · apply registerCleanup_triple
    · exact fun st _ hst => hst
    · exact fun st hsome => (hsome h.cleanup).elim
  intro _
  apply Triple.bind (Q := fun st₀ st => Holding m slot st ∧
    ((slot = .phase → computed = some (.fin m)) ∧
      (slot = .machine → st₀.accel.machine = some (.fin m))))
  · apply Triple.state
    rintro st ⟨hst, rfl⟩
    refine ⟨hst, fun hslot => ?_, fun hslot => ?_⟩
    · have hvalue := hst.value
      rw [hslot] at hvalue
      exact hvalue
    · have hvalue := hst.value
      rw [hslot] at hvalue
      exact hvalue
  intro st₀
  apply Triple.of_and_right
  rintro ⟨hphase, hmachine⟩
  apply Triple.bind (Q := fun _ => Restored refused m slot)
  · unfold sendStepCommands
    rw [h.commands]
    apply Triple.forM_cons ?_ (Triple.pure () fun st hst => hst)
    apply sendCommand_triple
    · intro st text hst htext _
      obtain rfl := commandText_slot hphase hmachine htext
      exact ⟨hst.push _, accelAfter_set (accelSet_restore m) rfl⟩
    · exact fun st text message hst _ _ => ⟨hst.push _, rfl⟩
    · exact fun st message hst => ⟨hst, rfl⟩
  intro _
  apply Triple.bind (Q := fun _ => Restored refused m slot)
  · exact (pollAll_triple keeps_restored.reading step.verify).conseq (fun _ hst => hst)
      (fun _ _ hst => hst.1) fun _ _ hst => ⟨hst.1.holding, hst.2⟩
  intro _
  exact Triple.pure _ fun _ hst => hst

/-- A step after the restoration leaves the acceleration alone. -/
theorem restored_step (hfree : AccelFree step) (hcleanup : step.cleanupCommands = [])
    (hcompute : step.compute ≠ some slot.record) :
    Triple (Restored refused m slot) (runStep w step) (fun _ => Restored refused m slot)
      (Fails (Restored refused m slot)) := by
  apply runStep_keeps keeps_restored
  · intro hmax st v hst
    cases slot with
    | phase => exact (hcompute hmax).elim
    | machine => exact ⟨⟨hst.holding.cleanups, hst.holding.value⟩, hst.accel⟩
  · intro hmax st v hst
    cases slot with
    | phase => exact ⟨⟨hst.holding.cleanups, hst.holding.value⟩, hst.accel⟩
    | machine => exact (hcompute hmax).elim
  · exact fun hsome => (hsome hcleanup).elim
  · intro st command v n error hcommand hst
    exact ⟨hst.holding.push _, (accelAfter_send (hfree command hcommand v n)).trans hst.accel⟩

end Discipline

section Runs

variable {w : World} {refused : Events → Bool} {m : ℚ} {slot : Slot} {plan : RecoveryPlan}

theorem accelSet_reposition (spec : PreviewSpec) (stop : PreviewStop) :
    accelSet (reposition spec stop) = none := by
  have hword : IsWord (lit "G1") := by decide
  exact accelSet_of_headed hword (.inr ⟨_, rfl⟩) (by decide)

theorem Untouched.move {st : State} (h : Untouched refused m st) (spec : PreviewSpec)
    (cursor : ℕ) (stop : PreviewStop) (error : Option Text) :
    Untouched refused m (st.push (.send (.preview cursor) (reposition spec stop)
      (reposition spec stop) error)) :=
  ⟨(accelAfter_send (accelSet_reposition spec stop)).trans h.accel, h.cleanups⟩

theorem Restored.move {st : State} (h : Restored refused m slot st) (spec : PreviewSpec)
    (cursor : ℕ) (stop : PreviewStop) (error : Option Text) :
    Restored refused m slot (st.push (.send (.preview cursor) (reposition spec stop)
      (reposition spec stop) error)) :=
  ⟨h.holding.push _, (accelAfter_send (accelSet_reposition spec stop)).trans h.accel⟩

/-- A turn of the loop as the loop makes it, with the step it stops at. -/
abbrev turn (w : World) (plan : RecoveryPlan) (step : RecoveryStep) :
    Prog State (RecoveryStep × StopCause) Unit :=
  (executeStep w plan step).mapError (step, ·)

theorem turn_untouched {step : RecoveryStep} (hfree : AccelFree step)
    (hcleanup : step.cleanupCommands = []) :
    Triple (Untouched refused m) (turn w plan step) (fun _ => Untouched refused m)
      fun _ => Undoable refused m slot := by
  apply Triple.mapError
  apply executeStep_rule keeps_untouched keeps_untouched
  · exact (untouched_step hfree hcleanup).conseq (fun _ hst => hst) (fun _ _ hst => hst)
      fun _ _ hst => .inl hst.1
  · exact fun _ hst => .inl hst
  · exact fun _ hst => .inl hst
  · exact fun spec st cursor stop error hst => hst.move spec cursor stop error

theorem turn_record {step : RecoveryStep} (hreports : ReportsAccel w refused m)
    (h : Records slot step) :
    Triple (Untouched refused m) (turn w plan step) (fun _ => Holding m slot)
      fun _ => Undoable refused m slot := by
  apply Triple.mapError
  apply executeStep_rule keeps_untouched keeps_holding (record_step hreports h)
  · exact fun _ hst => .inl hst
  · exact fun _ hst => .inr hst
  · exact fun spec st cursor stop error hst => hst.push _

theorem turn_holding {step : RecoveryStep} (hcompute : step.compute ≠ some slot.record) :
    Triple (Holding m slot) (turn w plan step) (fun _ => Holding m slot)
      fun _ => Undoable refused m slot := by
  apply Triple.mapError
  apply executeStep_rule keeps_holding keeps_holding
  · exact (holding_step hcompute).conseq (fun _ hst => hst) (fun _ _ hst => hst)
      fun _ _ hst => .inr hst.1
  · exact fun _ hst => .inr hst
  · exact fun _ hst => .inr hst
  · exact fun spec st cursor stop error hst => hst.push _

theorem turn_restore {step : RecoveryStep} (h : Restores slot step) :
    Triple (Holding m slot) (turn w plan step) (fun _ => Restored refused m slot)
      fun _ => Undoable refused m slot := by
  apply Triple.mapError
  apply executeStep_rule keeps_holding keeps_restored
  · exact (restore_step h).conseq (fun _ hst => hst) (fun _ _ hst => hst)
      fun _ _ hst => .inr hst.1
  · exact fun _ hst => .inr hst
  · exact fun _ hst => .inr hst.holding
  · exact fun spec st cursor stop error hst => hst.move spec cursor stop error

theorem turn_restored {step : RecoveryStep} (hfree : AccelFree step)
    (hcleanup : step.cleanupCommands = []) (hcompute : step.compute ≠ some slot.record) :
    Triple (Restored refused m slot) (turn w plan step) (fun _ => Restored refused m slot)
      fun _ => Undoable refused m slot := by
  apply Triple.mapError
  apply executeStep_rule keeps_restored keeps_restored
  · exact (restored_step hfree hcleanup hcompute).conseq (fun _ hst => hst) (fun _ _ hst => hst)
      fun _ _ hst => .inr hst.1.holding
  · exact fun _ hst => .inr hst.holding
  · exact fun _ hst => .inr hst.holding
  · exact fun spec st cursor stop error hst => hst.move spec cursor stop error

/-- The acceleration at the end of all steps is the machine's own. -/
def AtOwn (refused : Events → Bool) (m : ℚ) (slot : Slot) (st : State) : Prop :=
  Untouched refused m st ∨ Restored refused m slot st

/-- The steps of a disciplined plan end at the machine's own acceleration, or where an abort
still puts it back. -/
theorem turns_accel (hreports : ReportsAccel w refused m) {steps : List RecoveryStep}
    (h : Disciplined slot steps) :
    Triple (Untouched refused m) (steps.forM (turn w plan)) (fun _ => AtOwn refused m slot)
      fun _ => Undoable refused m slot := by
  cases h with
  | free steps hfree =>
    apply (Triple.forM_const fun step hstep =>
      turn_untouched (hfree step hstep).1 (hfree step hstep).2).mono
    exact fun _ _ hst => .inl hst
  | bracketed before inside after record restore hbefore hrecord hinside hrestore hafter =>
    apply Triple.forM_append (Triple.forM_const fun step hstep =>
      turn_untouched (hbefore step hstep).1 (hbefore step hstep).2)
    apply Triple.forM_cons (turn_record hreports hrecord)
    apply Triple.forM_append (Triple.forM_const fun step hstep => turn_holding (hinside step hstep))
    apply Triple.forM_cons (turn_restore hrestore)
    apply (Triple.forM_const fun step hstep => turn_restored (hafter step hstep).1
      (hafter step hstep).2.1 (hafter step hstep).2.2).mono
    exact fun _ _ hst => .inr hst

/-- A cleanup changes neither the slots nor the list of cleanups. -/
theorem runCleanup_kept (st : State) (c : ℕ × Text) :
    (runCleanup w st c).accel = st.accel ∧ (runCleanup w st c).cleanups = st.cleanups := by
  unfold runCleanup
  split <;> exact ⟨rfl, rfl⟩

theorem foldl_runCleanup_kept (commands : List (ℕ × Text)) (st : State) :
    (commands.foldl (runCleanup w) st).accel = st.accel := by
  induction commands generalizing st with
  | nil => rfl
  | cons c commands ih => exact (ih _).trans (runCleanup_kept st c).1

/-- The cleanup that was registered first is run last. -/
theorem cleanupOrder_cons (id : ℕ) (command : Text) (rest : List (ℕ × List Text)) :
    cleanupOrder ((id, [command]) :: rest) = cleanupOrder rest ++ [(id, command)] := by
  simp [cleanupOrder]

/-- Wherever a disciplined run stops, the cleanups leave the machine's own acceleration. -/
theorem runCleanups_accel {st : State} (h : Undoable refused m slot st) :
    accelIn refused m (runCleanups w st) = .fin m ∨
      accelIn refused m (runCleanups w st) = .fin (quantized m) := by
  rcases h with h | h
  · left
    rw [runCleanups, h.cleanups]
    exact h.accel
  · right
    obtain ⟨id, rest, hcleanups⟩ := h.cleanups
    rw [runCleanups, hcleanups, cleanupOrder_cons, List.foldl_append, List.foldl_cons,
      List.foldl_nil]
    have hvalue := h.value
    rw [← foldl_runCleanup_kept (cleanupOrder rest) st] at hvalue
    rw [runCleanup, cleanupText_slot hvalue]
    exact accelAfter_set (accelSet_restore m) rfl

/-- However a disciplined run ends, the acceleration is that from before it. -/
theorem execute_accel (hreports : ReportsAccel w refused m) (h : Disciplined slot plan.steps) :
    accelIn refused m (execute w plan).2 = .fin m ∨
      accelIn refused m (execute w plan).2 = .fin (quantized m) := by
  have hstart : Untouched refused m .start := ⟨rfl, rfl⟩
  unfold execute
  split
  · exact .inl rfl
  · rename_i anchor rest _
    have hprogram : Triple (Untouched refused m) (program w plan anchor)
        (fun _ => AtOwn refused m slot) fun _ => Undoable refused m slot :=
      program_rule keeps_untouched (fun _ hst => .inl hst) (turns_accel hreports h)
    replace hprogram := hprogram State.start hstart
    split
    · rename_i st hrun
      rw [hrun] at hprogram
      exact hprogram.imp Untouched.accel Restored.accel
    · rename_i step cause st hrun
      rw [hrun] at hprogram
      exact runCleanups_accel hprogram

end Runs

section Plans

/-- The phase that records a slot, and the phase that puts it back. -/
def Slot.recordPhase : Slot → Phase
  | phase => .accelClamp
  | machine => .recoveryAccel

def Slot.restorePhase : Slot → Phase
  | phase => .accelRestore
  | machine => .recoveryAccelRestore

/-- The phases whose own commands set the acceleration. -/
def settingPhases : List Phase := [.accelClamp, .accelRestore, .recoveryAccelRestore]

variable {ctx : Ctx} {s : RecoveryStep}

theorem upper_phaseWords {phase : Phase} (h : phase ∉ settingPhases) {word : Text}
    (hword : word ∈ phaseWords phase) : Text.upper word ≠ lit "SET_VELOCITY_LIMIT" := by
  revert word
  cases phase <;> first | decide | exact absurd (by decide) h

/-- A step of the builder that is neither an override nor a clamp leaves the acceleration alone. -/
theorem accelFree_of_built (h : Built ctx s) {fans : List (Text × F64)}
    (hfans : ctx.fanCmds = (fanCommands fans).1)
    (hclean : ctx.cleanNozzlePresent = true →
      ∀ c ∈ ctx.cfg.cleanNozzleMacro, Text.isWhitespace c = false)
    (hbegins : s.phase ∈ accelPhases → usesAccelOverrides ctx.cfg = false)
    (hphase : s.phase ∉ settingPhases) : AccelFree s := by
  intro command hcommand v n
  rcases h.known hfans hcommand with ⟨-, hpresent, rfl⟩ | ⟨hphases, huses, -⟩ | ⟨word, hword, hhead⟩
  · exact accelSet_of_solid (solid_substitute (hclean hpresent) v n)
  · rw [hbegins hphases] at huses
    cases huses
  · have hisWord := isWord_of_mem_phaseWords hword
    exact accelSet_of_headed hisWord (Headed.substitute hisWord hhead v n)
      (upper_phaseWords hphase hword)

theorem cleanup_of_built (h : Built ctx s) (hrecovery : s.phase ≠ .recoveryAccel)
    (hclamp : s.phase ≠ .accelClamp) : s.cleanupCommands = [] := by
  cases h with
  | recoveryAccel _ => exact (hrecovery rfl).elim
  | accelClamp _ => exact (hclamp rfl).elim
  | probeTempHold s hhold =>
    rw [stepProbeTempHold, Option.map_eq_some_iff] at hhold
    obtain ⟨target, -, rfl⟩ := hhold
    rfl
  | _ => rfl

theorem compute_of_built (h : Built ctx s) (slot : Slot) (hphase : s.phase ≠ slot.recordPhase) :
    s.compute ≠ some slot.record := by
  cases h with
  | recoveryAccel _ => cases slot with
    | phase => rintro ⟨⟩
    | machine => exact (hphase rfl).elim
  | accelClamp _ => cases slot with
    | phase => exact (hphase rfl).elim
    | machine => rintro ⟨⟩
  | probeTempHold s hhold =>
    rw [stepProbeTempHold, Option.map_eq_some_iff] at hhold
    obtain ⟨target, -, rfl⟩ := hhold
    rintro ⟨⟩
  | _ => cases slot <;> rintro ⟨⟩

variable {inputs : PlanInputs} {config : PlanConfig} {plan : RecoveryPlan}
  {mesh : List RecoveryStep}

/-- A record and its restoration bracket what changes the acceleration between them. -/
theorem disciplined_of_bracket (h : Planned inputs config plan ctx mesh) (slot : Slot)
    {record restore : RecoveryStep} (hrecord : record ∈ plan.steps) (hrestore : restore ∈ plan.steps)
    (hrecords : Records slot record) (hrestores : Restores slot restore)
    (hrecordPhase : record.phase = slot.recordPhase)
    (hrestorePhase : restore.phase = slot.restorePhase)
    (houtside : ∀ s ∈ plan.steps, s.phase.index < slot.recordPhase.index ∨
      slot.restorePhase.index < s.phase.index → AccelFree s ∧ s.cleanupCommands = []) :
    Disciplined slot plan.steps := by
  have hlt : slot.recordPhase.index < slot.restorePhase.index := by cases slot <;> decide
  obtain ⟨before, rest, hsplit, hbefore, hrest, hordered, hlater⟩ := ordered_split h.ordered hrecord
  have hmem : restore ∈ rest := hlater restore hrestore (by rwa [hrecordPhase, hrestorePhase])
  obtain ⟨inside, after, hsplitRest, -, hafter, -, -⟩ := ordered_split hordered hmem
  have hin : ∀ s ∈ rest, s ∈ plan.steps := fun s hs => by simp [hsplit, hs]
  have hcompute : ∀ s ∈ rest, s.compute ≠ some slot.record := by
    intro s hs
    obtain ⟨s₀, hbuilt, hnumbered⟩ := h.built (hin s hs)
    have hphase : s₀.phase = s.phase := by rw [hnumbered]; rfl
    rw [hnumbered]
    apply compute_of_built hbuilt slot
    rw [hphase, ← hrecordPhase]
    intro hsame
    have hless := hrest s hs
    rw [hsame] at hless
    omega
  rw [hsplit, hsplitRest]
  rw [hsplitRest] at hcompute hin
  apply Disciplined.bracketed before inside after record restore
  · intro s hs
    exact houtside s (by simp [hsplit, hs]) (.inl (hrecordPhase ▸ hbefore s hs))
  · exact hrecords
  · exact fun s hs => hcompute s (List.mem_append_left _ hs)
  · exact hrestores
  · intro s hs
    have hmemAfter : s ∈ inside ++ restore :: after := by simp [hs]
    obtain ⟨hfree, hcleanup⟩ := houtside s (hin s hmemAfter)
      (.inr (hrestorePhase ▸ hafter s hs))
    exact ⟨hfree, hcleanup, hcompute s hmemAfter⟩

/-- The phases that are only there for the overrides. -/
theorem uses_of_built (h : Built ctx s)
    (hphase : s.phase = .recoveryAccel ∨ s.phase = .recoveryAccelRestore) :
    usesAccelOverrides ctx.cfg = true := by
  cases h with
  | recoveryAccel huses => exact huses
  | recoveryAccelRestore huses => exact huses
  | probeTempHold s hhold =>
    rw [stepProbeTempHold, Option.map_eq_some_iff] at hhold
    obtain ⟨target, -, rfl⟩ := hhold
    rcases hphase with hphase | hphase <;> cases hphase
  | _ => rcases hphase with hphase | hphase <;> cases hphase

/-- The phases that are only there for the consensus touch. -/
theorem touch_of_built (h : Built ctx s)
    (hphase : s.phase = .accelClamp ∨ s.phase = .accelRestore) :
    usesConsensusTouch ctx.machine ctx.cfg = true := by
  cases h with
  | accelClamp htouch => exact htouch
  | accelRestore htouch => exact htouch
  | probeTempHold s hhold =>
    rw [stepProbeTempHold, Option.map_eq_some_iff] at hhold
    obtain ⟨target, -, rfl⟩ := hhold
    rcases hphase with hphase | hphase <;> cases hphase
  | _ => rcases hphase with hphase | hphase <;> cases hphase

/-- A step of a plan away from the clamps leaves the acceleration alone and has nothing to undo. -/
theorem planned_free (h : Planned inputs config plan ctx mesh)
    (hclean : inputs.cleanNozzleMacroPresent = true →
      ∀ c ∈ config.cleanNozzleMacro, Text.isWhitespace c = false)
    {s : RecoveryStep} (hs : s ∈ plan.steps)
    (hbegins : s.phase ∈ accelPhases → usesAccelOverrides config = false)
    (hset : s.phase ∉ settingPhases) (hrecovery : s.phase ≠ .recoveryAccel) :
    AccelFree s ∧ s.cleanupCommands = [] := by
  obtain ⟨s₀, hbuilt, hnumbered⟩ := h.built hs
  have hphase : s₀.phase = s.phase := by rw [hnumbered]; rfl
  rw [← hphase] at hbegins hset hrecovery
  rw [← h.cfg] at hbegins hclean
  rw [← h.clean] at hclean
  have hfree := accelFree_of_built hbuilt h.fans hclean hbegins hset
  have hcleanup := cleanup_of_built hbuilt hrecovery fun hclamp => hset (by rw [hclamp]; decide)
  rw [hnumbered]
  exact ⟨hfree, hcleanup⟩

/-- The planner's plans treat the acceleration with discipline. -/
theorem planned_disciplined (h : Planned inputs config plan ctx mesh)
    (hclean : inputs.cleanNozzleMacroPresent = true →
      ∀ c ∈ config.cleanNozzleMacro, Text.isWhitespace c = false) :
    ∃ slot, Disciplined slot plan.steps := by
  have hreason : ∀ s ∈ plan.steps, (s.phase = .recoveryAccel ∨ s.phase = .recoveryAccelRestore →
      usesAccelOverrides config = true) ∧ (s.phase = .accelClamp ∨ s.phase = .accelRestore →
      usesConsensusTouch ctx.machine config = true) := by
    intro s hs
    obtain ⟨s₀, hbuilt, hnumbered⟩ := h.built hs
    have hphase : s₀.phase = s.phase := by rw [hnumbered]; rfl
    rw [← hphase, ← h.cfg]
    exact ⟨uses_of_built hbuilt, touch_of_built hbuilt⟩
  by_cases huses : usesAccelOverrides config = true
  · obtain ⟨record, hrecord, hrecordEq⟩ := @Planned.mem_steps _ _ _ _ _ h (stepRecoveryAccel ctx) (by
      simp [stepsInOrder, preparation, orElse, h.cfg, huses])
    obtain ⟨restore, hrestore, hrestoreEq⟩ := @Planned.mem_steps _ _ _ _ _ h stepRecoveryAccelRestore (by
      simp [stepsInOrder, resumption, orElse, h.cfg, huses])
    refine ⟨.machine, disciplined_of_bracket h .machine hrecord hrestore ?_ ?_ ?_ ?_ ?_⟩
    · rw [hrecordEq]
      exact ⟨rfl, rfl⟩
    · rw [hrestoreEq]
      exact ⟨rfl, rfl, rfl⟩
    · rw [hrecordEq]
      rfl
    · rw [hrestoreEq]
      rfl
    · intro s hs houtside
      have hphases : ∀ phase : Phase, phase.index < Phase.recoveryAccel.index ∨
          Phase.recoveryAccelRestore.index < phase.index →
          phase ∉ accelPhases ∧ phase ∉ settingPhases ∧ phase ≠ .recoveryAccel := by
        intro phase
        cases phase <;> decide
      obtain ⟨hbegins, hset, hrecovery⟩ := hphases s.phase houtside
      exact planned_free h hclean hs (fun hmem => (hbegins hmem).elim) hset hrecovery
  · have hnone : usesAccelOverrides config = false := by simpa using huses
    by_cases htouch : usesConsensusTouch ctx.machine config = true
    · obtain ⟨record, hrecord, hrecordEq⟩ := @Planned.mem_steps _ _ _ _ _ h (stepAccelClamp ctx) (by
        simp [stepsInOrder, probing, orElse, h.cfg, htouch])
      obtain ⟨restore, hrestore, hrestoreEq⟩ := @Planned.mem_steps _ _ _ _ _ h stepAccelRestore (by
        simp [stepsInOrder, probing, orElse, h.cfg, htouch])
      refine ⟨.phase, disciplined_of_bracket h .phase hrecord hrestore ?_ ?_ ?_ ?_ ?_⟩
      · rw [hrecordEq]
        exact ⟨rfl, rfl⟩
      · rw [hrestoreEq]
        exact ⟨rfl, rfl, rfl⟩
      · rw [hrecordEq]
        rfl
      · rw [hrestoreEq]
        rfl
      · intro s hs houtside
        have hphases : ∀ phase : Phase, phase.index < Phase.accelClamp.index ∨
            Phase.accelRestore.index < phase.index → phase ≠ .recoveryAccelRestore →
            phase ∉ settingPhases := by
          intro phase
          cases phase <;> decide
        have hrestored : s.phase ≠ .recoveryAccelRestore := fun hphase =>
          huses ((hreason s hs).1 (.inr hphase))
        exact planned_free h hclean hs (fun _ => hnone) (hphases s.phase houtside hrestored)
          fun hphase => huses ((hreason s hs).1 (.inl hphase))
    · refine ⟨.phase, .free plan.steps fun s hs => ?_⟩
      apply planned_free h hclean hs fun _ => hnone
      · intro hset
        simp only [settingPhases, List.mem_cons, List.not_mem_nil, or_false] at hset
        rcases hset with hphase | hphase | hphase
        · exact htouch ((hreason s hs).2 (.inl hphase))
        · exact htouch ((hreason s hs).2 (.inr hphase))
        · exact huses ((hreason s hs).1 (.inr hphase))
      · exact fun hphase => huses ((hreason s hs).1 (.inl hphase))

end Plans

end DeadReckoning.Execution
