import DeadReckoning.Execution.World

/-! The executor: every step of a plan in order, each gated, re-checked, verified, sent and
verified again, with the cleanups of the steps already begun when it stops. -/
namespace DeadReckoning.Execution

open Recovery

/-- The two accelerations that are carried across steps: the one in force before the touch
clamp, and the machine's own. -/
structure AccelSlots where
  phase : Option F64
  machine : Option F64
  deriving DecidableEq

structure State where
  trace : Events
  accel : AccelSlots
  cleanups : List (ℕ × List Text)

def State.start : State := ⟨[], ⟨none, none⟩, []⟩

/-- The state after one more event. -/
def State.push (st : State) (e : Event) : State := { st with trace := st.trace ++ [e] }

@[simp] theorem State.push_trace (st : State) (e : Event) :
    (st.push e).trace = st.trace ++ [e] := rfl
@[simp] theorem State.push_accel (st : State) (e : Event) : (st.push e).accel = st.accel := rfl
@[simp] theorem State.push_cleanups (st : State) (e : Event) :
    (st.push e).cleanups = st.cleanups := rfl

def State.setPhase (v : F64) (st : State) : State :=
  { st with accel := { st.accel with phase := some v } }

def State.setMachine (v : F64) (st : State) : State :=
  { st with accel := { st.accel with machine := some v } }

@[simp] theorem State.setPhase_trace (v : F64) (st : State) :
    (st.setPhase v).trace = st.trace := rfl
@[simp] theorem State.setPhase_cleanups (v : F64) (st : State) :
    (st.setPhase v).cleanups = st.cleanups := rfl
@[simp] theorem State.setMachine_trace (v : F64) (st : State) :
    (st.setMachine v).trace = st.trace := rfl
@[simp] theorem State.setMachine_cleanups (v : F64) (st : State) :
    (st.setMachine v).cleanups = st.cleanups := rfl

/-- The state once the commands that undo a step are known. -/
def State.register (st : State) (id : ℕ) (commands : List Text) : State :=
  { st.push (.register id commands) with cleanups := st.cleanups ++ [(id, commands)] }

@[simp] theorem State.register_trace (st : State) (id : ℕ) (commands : List Text) :
    (st.register id commands).trace = st.trace ++ [.register id commands] := rfl
@[simp] theorem State.register_accel (st : State) (id : ℕ) (commands : List Text) :
    (st.register id commands).accel = st.accel := rfl
@[simp] theorem State.register_cleanups (st : State) (id : ℕ) (commands : List Text) :
    (st.register id commands).cleanups = st.cleanups ++ [(id, commands)] := rfl

abbrev Exec := Prog State StopCause

def emit (e : Event) : Exec Unit := Prog.update (·.push e)

/-- Leaves the event of a collaborator's answer. -/
def answered {α : Type} (answer : Events → α) (event : α → Event) : Exec α := do
  let st ← Prog.state
  emit (event (answer st.trace))
  pure (answer st.trace)

/-- Goes on when there was no error. -/
def orStop {α : Type} (cause : Text → StopCause) : Except Text α → Exec α
  | .ok a => pure a
  | .error message => Prog.stop (cause message)

section Reads

variable (w : World)

def queryObjects (object : Text) : Exec Value := do
  let answer ← answered (w.query · object) (.query object)
  orStop .transport answer

def queryNumber (object field : Text) : Exec F64 := do
  let status ← queryObjects w object
  match status.lookup object field with
  | none => Prog.stop (.computeFailed "absent from status")
  | some value =>
      match value.asNum with
      | some v => pure v
      | none => Prog.stop (.computeFailed "not a finite number")

/-- Reads the object of a verification and evaluates it. -/
def observe (v : Verification) (computed : Option F64) : Exec Bool := do
  let status ← queryObjects w v.object
  pure (evaluate v.predicate (status.lookup v.object v.field) computed)

def settle (stage : Stage) (stepId : ℕ) (v : Verification) (computed : Option F64)
    (holds : Bool) : Exec Unit := do
  emit (.verify stage stepId v computed holds)
  if holds then pure () else Prog.stop (.verificationFailed v)

/-- Polls one verification until it holds or its deadline passes. -/
def pollUntil (stage : Stage) (stepId : ℕ) (v : Verification) (computed : Option F64) :
    ℕ → Exec Unit
  | 0 => do
      let holds ← observe w v computed
      settle stage stepId v computed holds
  | polls + 1 => do
      let holds ← observe w v computed
      if holds then settle stage stepId v computed true
      else pollUntil stage stepId v computed polls

def pollVerification (stage : Stage) (stepId : ℕ) (v : Verification) (computed : Option F64) :
    Exec Unit := do
  let st ← Prog.state
  pollUntil w stage stepId v computed (w.polls st.trace v)

/-- A computation that was refused is never substituted. -/
def orComputeFailed : Except RecoveryError F64 → Exec F64
  | .ok v => pure v
  | .error _ => Prog.stop (.computeFailed "the runtime computation was refused")

/-- The value of a step: the true-Z formula, a height, one of the two records, or for a plain
step the acceleration of the phase. -/
def resolveCompute (step : RecoveryStep) : Exec (Option F64) :=
  match step.compute with
  | some (.trueZ formula) => do
      let reading := formula.triggerSource.reading
      let triggerReading ← queryNumber w reading.1 reading.2
      let haltZ ← queryNumber w (lit "toolhead") (lit "position.2")
      let v ← orComputeFailed (trueZAtHalt formula triggerReading haltZ)
      pure (some v)
  | some (.parkZ deltaZ zMax) => do
      let currentZ ← queryNumber w (lit "toolhead") (lit "position.2")
      let v ← orComputeFailed (parkZAt currentZ deltaZ zMax)
      pure (some v)
  | some (.hoverPlane targetZ zMax) => do
      let currentZ ← queryNumber w (lit "toolhead") (lit "position.2")
      let v ← orComputeFailed (hoverPlaneAt currentZ targetZ zMax)
      pure (some v)
  | some .recordMaxAccel => do
      let v ← queryNumber w (lit "toolhead") (lit "max_accel")
      Prog.update (State.setPhase v)
      pure (some v)
  | some .recordMachineAccel => do
      let v ← queryNumber w (lit "toolhead") (lit "max_accel")
      Prog.update (State.setMachine v)
      pure (some v)
  | none => do
      let st ← Prog.state
      pure st.accel.phase

end Reads

section Sends

variable (w : World)

def sendScript (source : Source) (template text : Text) : Exec Unit := do
  let error ← answered (w.script · text) (.send source template text)
  match error with
  | none => pure ()
  | some message => Prog.stop (.commandFailed (.classify message) message)

def carriesComputed (command : Text) : Bool :=
  Text.contains command trueZPlaceholder || Text.contains command restoreAccelPlaceholder ||
    Text.contains command parkZPlaceholder

def substituteComputed (v : F64) (command : Text) : Text :=
  let withTrueZ := Text.replace command trueZPlaceholder (fmtNum v)
  let withAccel := Text.replace withTrueZ restoreAccelPlaceholder (fmtNum v)
  Text.replace withAccel parkZPlaceholder (fmtNum v)

def resolveComputed (computed : Option F64) (command : Text) : Exec Text :=
  if carriesComputed command then
    match computed with
    | none => Prog.stop (.computeFailed
        "command carries a runtime placeholder but the step has no computed value")
    | some v => pure (substituteComputed v command)
  else pure command

def resolveMachine (machineAccel : Option F64) (command : Text) : Exec Text :=
  if Text.contains command machineAccelPlaceholder then
    match machineAccel with
    | none => Prog.stop (.computeFailed
        "command carries \x7bmachine_accel\x7d but no machine accel was recorded")
    | some v => pure (Text.replace command machineAccelPlaceholder (fmtNum v))
  else pure command

def sendCommand (stepId : ℕ) (computed machineAccel : Option F64) (command : Text) :
    Exec Unit := do
  let resolved ← resolveComputed computed command
  let text ← resolveMachine machineAccel resolved
  sendScript w (.step stepId) command text

/-- The only place that sends the commands of a step. -/
def sendStepCommands (step : RecoveryStep) (computed machineAccel : Option F64) : Exec Unit :=
  step.commands.forM (sendCommand w step.id computed machineAccel)

/-- Registers the commands that undo the step, before its own are sent. -/
def registerCleanup (step : RecoveryStep) : Exec Unit :=
  if step.cleanupCommands.isEmpty then pure ()
  else Prog.update (·.register step.id step.cleanupCommands)

/-- Verifies, computes, sends and verifies one step. -/
def runStep (step : RecoveryStep) : Exec (Option F64) := do
  step.preVerify.forM fun v => pollVerification w .pre step.id v none
  let computed ← resolveCompute w step
  registerCleanup step
  let st ← Prog.state
  sendStepCommands w step computed st.accel.machine
  step.verify.forM fun v => pollVerification w .post step.id v computed
  pure computed

end Sends

section Questions

variable (w : World)

/-- Puts one question to the operator. -/
def ask (point : ConfirmPoint) : Exec Unit := do
  let answer ← answered (w.confirm · point) (.confirm point)
  match answer with
  | .continue => pure ()
  | .abort => Prog.stop (.confirmationDeclined point.kind point.code)
  | .timedOut => Prog.stop (.confirmationTimedOut point.kind point.code)

def confirmWarning (anchor : RecoveryStep) (warning : PlanWarning) : Exec Unit :=
  match warning.diagnosis with
  | (.advisory, _) => pure ()
  | (.confirmable, code) => ask w ⟨.diagnosis, anchor.id, anchor.phase, code⟩
  | (.hard, code) => Prog.stop (.hardDiagnosis code)

def preflightConfirmations (plan : RecoveryPlan) (anchor : RecoveryStep) : Exec Unit :=
  plan.warnings.forM (confirmWarning w anchor)

def reassertExclusivity : Exec Unit := do
  let answer ← answered w.recheck .recheck
  orStop .exclusivityLost answer

/-- Arms the frame interlock when the step declares the shifted frame. -/
def armFrameIfEntering (step : RecoveryStep) (shiftedId : Option ℕ) : Exec Unit :=
  if some step.id = shiftedId then do
    let answer ← answered (w.arm · step) (.arm step.id)
    orStop .frameGuardUnwritable answer
  else pure ()

def passGate (step : RecoveryStep) : Exec Unit := do
  let allowed ← answered (w.gate · step) (.gate step.id)
  if allowed then pure () else Prog.stop .operatorDeclined

def confirmDebug (plan : RecoveryPlan) (step : RecoveryStep) : Exec Unit :=
  if plan.debugConfirmEachStep then
    ask w ⟨.stepDebug, step.id, step.phase, "step_debug_pause"⟩
  else pure ()

/-- The Z is read for the question, and a failure to read it is left out of it. -/
def confirmZ (step : RecoveryStep) : Exec Unit :=
  if step.phase = .zConfirmStandoff then do
    let _ ← answered (w.query · (lit "toolhead")) (.query (lit "toolhead"))
    ask w ⟨.zHeight, step.id, step.phase, "z_confirm_before_resume"⟩
  else pure ()

end Questions

section Preview

def previewCode : String := "resume_preview"

def absDiff (a b : ℕ) : ℕ := (a - b) + (b - a)

/-- The first representative among those nearest to the cursor. -/
def nearestRepPtr (reps : List ℕ) (cursor : ℕ) : ℕ :=
  let distances := reps.map (absDiff · cursor)
  match distances.min? with
  | none => 0
  | some distance => distances.idxOf distance

/-- A cursor as a 32-bit stop index, saturating. -/
def cursorU32 (cursor : ℕ) : ℕ := min cursor (2 ^ 32 - 1)

/-- The stop the loop is at, and the representative it would step from. -/
structure Cursor where
  cursor : ℕ
  repPtr : ℕ
  deriving DecidableEq

namespace Cursor

variable (spec : PreviewSpec)

def start : Cursor :=
  let cursor := min spec.defaultIndex (spec.stops.length - 1)
  ⟨cursor, nearestRepPtr spec.representatives cursor⟩

/-- The cursor at a representative, unchanged when there is none. -/
def atRepresentative (c : Cursor) (repPtr : ℕ) : Cursor :=
  match spec.representatives[repPtr]? with
  | some rep => ⟨min rep (spec.stops.length - 1), repPtr⟩
  | none => c

def next (c : Cursor) : Cursor :=
  c.atRepresentative spec (min (c.repPtr + 1) (spec.representatives.length - 1))

def prev (c : Cursor) : Cursor := c.atRepresentative spec (c.repPtr - 1)

def nudge (c : Cursor) (delta : ℤ) : Cursor :=
  let cursor :=
    if delta < 0 then c.cursor - delta.natAbs
    else min (c.cursor + delta.natAbs) (spec.stops.length - 1)
  ⟨cursor, nearestRepPtr spec.representatives cursor⟩

end Cursor

variable (w : World)

/-- The move above a stop, in the plane where the nozzle hovers. -/
def reposition (spec : PreviewSpec) (stop : PreviewStop) : Text :=
  lit "G1 X" ++ fmtNum stop.xy.1 ++ lit " Y" ++ fmtNum stop.xy.2 ++ lit " F" ++
    fmtNum spec.travelFeed

/-- Re-checks exclusivity and goes to the stop at the cursor. -/
def visit (spec : PreviewSpec) (cursor : ℕ) : Exec Unit := do
  reassertExclusivity w
  match spec.stops[cursor]? with
  | none => Prog.stop .panicked
  | some stop => sendScript w (.preview cursor) (reposition spec stop) (reposition spec stop)

/-- Writes the recovery file of the accepted stop. -/
def acceptStop (spec : PreviewSpec) (cursor : ℕ) : Exec Unit :=
  match spec.binding (cursorU32 cursor) with
  | none => Prog.stop (.computeFailed "accepted preview stop has no recovery binding")
  | some binding =>
      if binding.entryCommands.isEmpty then
        Prog.stop (.computeFailed "the accepted preview stop has no resumable line after it")
      else do
        let answer ← answered (w.writeFor · binding) (.write binding)
        orStop (fun _ => .computeFailed "recovery file write failed on accept") answer

/-- Goes to the stop at the cursor and asks, until the operator accepts or ends it. Once the
answers are used up the deadline passes. -/
def previewLoop (spec : PreviewSpec) (step : RecoveryStep) : Cursor → List PreviewAnswer → Exec Unit
  | c, [] => do
      visit w spec c.cursor
      emit (.preview step.id c.cursor .timedOut)
      Prog.stop (.confirmationTimedOut .preview previewCode)
  | c, answer :: answers => do
      visit w spec c.cursor
      emit (.preview step.id c.cursor answer)
      match answer with
      | .accept => acceptStop w spec c.cursor
      | .nextRep => previewLoop spec step (c.next spec) answers
      | .prevRep => previewLoop spec step (c.prev spec) answers
      | .nudge delta => previewLoop spec step (c.nudge spec delta) answers
      | .abort => Prog.stop (.confirmationDeclined .preview previewCode)
      | .timedOut => Prog.stop (.confirmationTimedOut .preview previewCode)

/-- The loop of a preview step; a plan without stops has nothing to drive. -/
def runPreviewLoop (plan : RecoveryPlan) (step : RecoveryStep) : Exec Unit :=
  match plan.preview with
  | none => pure ()
  | some spec =>
      if spec.stops.isEmpty then pure ()
      else previewLoop w spec step (.start spec) w.previewAnswers

def confirmPreview (plan : RecoveryPlan) (step : RecoveryStep) : Exec Unit :=
  if step.phase = .resumePreview then runPreviewLoop w plan step else pure ()

end Preview

section Runs

variable (w : World) (plan : RecoveryPlan)

/-- The id of the step that declares the shifted frame. -/
def shiftedId : Option ℕ := (plan.stepIn? .shiftedFrame).map (·.id)

/-- What stands between a step and its first command: the gate, the pause, and last the checks
that nobody may come between. -/
def prepareStep (step : RecoveryStep) : Exec Unit := do
  passGate w step
  confirmDebug w plan step
  reassertExclusivity w
  armFrameIfEntering w step (shiftedId plan)

/-- One turn of the step loop. -/
def executeStep (step : RecoveryStep) : Exec Unit := do
  prepareStep w plan step
  let _ ← runStep w step
  confirmZ w step
  confirmPreview w plan step

/-- The command of a cleanup with its slot, `none` when nothing was recorded for it. -/
def cleanupText (accel : AccelSlots) (command : Text) : Option Text :=
  if Text.contains command restoreAccelPlaceholder then
    accel.phase.map fun v => Text.replace command restoreAccelPlaceholder (fmtNum v)
  else if Text.contains command machineAccelPlaceholder then
    accel.machine.map fun v => Text.replace command machineAccelPlaceholder (fmtNum v)
  else some command

/-- An error of a cleanup is logged and does not stop the next. -/
def runCleanup (st : State) (cleanup : ℕ × Text) : State :=
  match cleanupText st.accel cleanup.2 with
  | none => st
  | some text => st.push (.send (.cleanup cleanup.1) cleanup.2 text (w.script st.trace text))

/-- The registered cleanups, the last registered first. -/
def cleanupOrder (cleanups : List (ℕ × List Text)) : List (ℕ × Text) :=
  cleanups.reverse.flatMap fun entry => entry.2.map (entry.1, ·)

def runCleanups (st : State) : State := (cleanupOrder st.cleanups).foldl (runCleanup w) st

def abortReason (step : RecoveryStep) : StopCause → String
  | .confirmationDeclined _ _ => "confirmation-declined"
  | .confirmationTimedOut _ _ => "confirmation-timeout"
  | .frameGuardUnwritable _ => "frame-interlock-unwritable"
  | .exclusivityLost _ => "exclusive-gcode-access-lost"
  | .hardDiagnosis code => code
  | .verificationFailed _ | .transport _ | .commandFailed _ _ | .computeFailed _
  | .operatorDeclined | .panicked => step.onFailure.code

/-- The frame is invalid from the shifted frame on, unless entering it was refused. -/
def frameInvalid (step : RecoveryStep) (cause : StopCause) : Bool :=
  (match cause with
    | .frameGuardUnwritable _ => false
    | _ => true) && (shiftedId plan).any (· ≤ step.id)

def finishAbort (step : RecoveryStep) (cause : StopCause) (st : State) : ExecOutcome × State :=
  (.aborted step.id step.phase (abortReason step cause) cause (frameInvalid plan step cause),
    runCleanups w st)

/-- The confirmations and the steps, with the step at which they stopped. -/
def program (anchor : RecoveryStep) : Prog State (RecoveryStep × StopCause) Unit := do
  (preflightConfirmations w plan anchor).mapError (anchor, ·)
  plan.steps.forM fun step => (executeStep w plan step).mapError (step, ·)

/-- Executes a plan: its outcome and everything that happened. -/
def execute : ExecOutcome × State :=
  match plan.steps with
  | [] => (.completed 0, .start)
  | anchor :: _ =>
      match program w plan anchor .start with
      | (.ok (), st) => (.completed plan.steps.length, st)
      | (.error (step, cause), st) => finishAbort w plan step cause st

end Runs

end DeadReckoning.Execution
