import DeadReckoning.Execution.Substitution

/-! What each part of the executor leaves behind, as triples over a property of the state that
the events in question keep. -/
namespace DeadReckoning.Execution

open Recovery Prog

section Answers

variable {α : Type} {P : State → Prop} {E : StopCause → State → Prop}

theorem emit_triple {Q : Unit → State → Prop} {e : Event} (h : ∀ st, P st → Q () (st.push e)) :
    Triple P (emit e) Q E :=
  Triple.update _ h

theorem answered_triple {answer : Events → α} {event : α → Event} {Q : α → State → Prop}
    (h : ∀ st, P st → Q (answer st.trace) (st.push (event (answer st.trace)))) :
    Triple P (answered answer event) Q E := by
  intro st hst
  exact h st hst

theorem orStop_triple {cause : Text → StopCause} {answer : Except Text α} {Q : α → State → Prop}
    (hok : ∀ a st, answer = .ok a → P st → Q a st)
    (herror : ∀ m st, answer = .error m → P st → E (cause m) st) :
    Triple P (orStop cause answer) Q E := by
  cases answer with
  | ok a => exact Triple.pure a fun st hst => hok a st rfl hst
  | error m => exact Triple.stop _ fun st hst => herror m st rfl hst

end Answers

/-- The property survives one more event of a kind. -/
def Keeps (p : Events → Event → Prop) (K : State → Prop) : Prop :=
  ∀ st e, p st.trace e → K st → K (st.push e)

/-- The events of reading: a query with the printer's answer, or a verification. -/
def Reading (w : World) (past : Events) : Event → Prop
  | .query object answer => answer = w.query past object
  | .verify .. => True
  | _ => False

/-- The causes that are found while a step runs. -/
def StopCause.inStep : StopCause → Bool
  | .verificationFailed _ | .transport _ | .commandFailed _ _ | .computeFailed _ => true
  | .operatorDeclined | .frameGuardUnwritable _ | .hardDiagnosis _ | .confirmationDeclined _ _
  | .confirmationTimedOut _ _ | .exclusivityLost _ | .panicked => false

/-- A step fails where the property holds. -/
def Fails (K : State → Prop) (cause : StopCause) (st : State) : Prop :=
  K st ∧ cause.inStep = true

/-- The printer reports the number under the field. -/
def Reports (w : World) (past : Events) (object field : Text) (v : F64) : Prop :=
  ∃ status value, w.query past object = .ok status ∧ status.lookup object field = some value ∧
    value.asNum = some v

/-- A verification was evaluated on what the printer had just answered, and held. -/
def Held (trace : Events) (stage : Stage) (stepId : ℕ) (v : Verification)
    (computed : Option F64) : Prop :=
  ∃ before status after, trace = before ++ .query v.object (.ok status) ::
      .verify stage stepId v computed true :: after ∧
    evaluate v.predicate (status.lookup v.object v.field) computed = true

theorem Held.append {trace : Events} {stage : Stage} {stepId : ℕ} {v : Verification}
    {computed : Option F64} (h : Held trace stage stepId v computed) (more : Events) :
    Held (trace ++ more) stage stepId v computed := by
  obtain ⟨before, status, after, rfl, hholds⟩ := h
  exact ⟨before, status, after ++ more, by simp, hholds⟩

theorem asNum_finite {value : Value} {v : F64} (h : value.asNum = some v) :
    v.isFinite = true := by
  cases value with
  | num x =>
    rw [Value.asNum] at h
    split at h
    · rename_i hfinite
      cases h
      exact hfinite
    · cases h
  | null | bool _ | str _ | arr _ | obj _ => cases h

theorem Reports.finite {w : World} {past : Events} {object field : Text} {v : F64}
    (h : Reports w past object field v) : v.isFinite = true := by
  obtain ⟨_, _, _, _, hv⟩ := h
  exact asNum_finite hv

section Reads

variable {w : World} {K : State → Prop} (hK : Keeps (Reading w) K)

include hK

theorem queryObjects_triple {object : Text} {Q : Value → State → Prop}
    (h : ∀ st status, K st → w.query st.trace object = .ok status →
      Q status (st.push (.query object (.ok status)))) :
    Triple K (queryObjects w object) Q (Fails K) := by
  apply Triple.bind (Q := fun answer st => ∃ before, K before ∧
    answer = w.query before.trace object ∧ st = before.push (.query object answer))
  · exact answered_triple fun st hst => ⟨st, hst, rfl, rfl⟩
  · intro answer
    apply orStop_triple
    · rintro status _ rfl ⟨st, hst, hanswer, rfl⟩
      exact h st status hst hanswer.symm
    · rintro _ _ rfl ⟨st, hst, hanswer, rfl⟩
      exact ⟨hK st _ hanswer hst, rfl⟩

theorem queryNumber_triple (object field : Text) :
    Triple K (queryNumber w object field)
      (fun v st => K st ∧ ∃ st₀, K st₀ ∧ Reports w st₀.trace object field v) (Fails K) := by
  apply Triple.bind (queryObjects_triple hK (Q := fun status st => K st ∧ ∃ st₀, K st₀ ∧
    w.query st₀.trace object = .ok status)
    fun st status hst hquery => ⟨hK st _ hquery.symm hst, st, hst, hquery⟩)
  intro status
  split
  · exact Triple.stop _ fun st hst => ⟨hst.1, rfl⟩
  · rename_i value hvalue
    split
    · rename_i v hv
      apply Triple.pure
      rintro st ⟨hst, st₀, hst₀, hquery⟩
      exact ⟨hst, st₀, hst₀, status, value, hquery, hvalue, hv⟩
    · exact Triple.stop _ fun st hst => ⟨hst.1, rfl⟩

/-- The last event of a state is the answer that a verification is evaluated on. -/
theorem observe_triple (v : Verification) (computed : Option F64) :
    Triple K (observe w v computed)
      (fun holds st => K st ∧ (holds = true → ∃ before status,
        st.trace = before ++ [.query v.object (.ok status)] ∧
        evaluate v.predicate (status.lookup v.object v.field) computed = true)) (Fails K) := by
  apply Triple.bind (queryObjects_triple hK (Q := fun status st => K st ∧ ∃ before,
    st.trace = before ++ [.query v.object (.ok status)])
    fun st status hst hquery => ⟨hK st _ hquery.symm hst, st.trace, rfl⟩)
  intro status
  apply Triple.pure
  rintro st ⟨hst, before, htrace⟩
  exact ⟨hst, fun hholds => ⟨before, status, htrace, hholds⟩⟩

theorem settle_triple {stage : Stage} {stepId : ℕ} {v : Verification} {computed : Option F64}
    {holds : Bool} :
    Triple (fun st => K st ∧ (holds = true → ∃ before status,
        st.trace = before ++ [.query v.object (.ok status)] ∧
        evaluate v.predicate (status.lookup v.object v.field) computed = true))
      (settle stage stepId v computed holds)
      (fun _ st => K st ∧ Held st.trace stage stepId v computed) (Fails K) := by
  apply Triple.bind (emit_triple (Q := fun _ st => K st ∧
    (holds = true → Held st.trace stage stepId v computed)) ?_)
  · intro _
    cases holds with
    | true => exact Triple.pure () fun st hst => ⟨hst.1, hst.2 rfl⟩
    | false => exact Triple.stop _ fun st hst => ⟨hst.1, rfl⟩
  · rintro st ⟨hst, hanswer⟩
    refine ⟨hK st _ trivial hst, fun hholds => ?_⟩
    obtain ⟨before, status, htrace, heval⟩ := hanswer hholds
    exact ⟨before, status, [], by simp [htrace, hholds], heval⟩

theorem pollUntil_triple {stage : Stage} {stepId : ℕ} {v : Verification} {computed : Option F64}
    (polls : ℕ) :
    Triple K (pollUntil w stage stepId v computed polls)
      (fun _ st => K st ∧ Held st.trace stage stepId v computed) (Fails K) := by
  induction polls with
  | zero => exact Triple.bind (observe_triple hK v computed) fun _ => settle_triple hK
  | succ polls ih =>
    apply Triple.bind (observe_triple hK v computed)
    intro holds
    cases holds with
    | true => exact settle_triple hK
    | false => exact ih.conseq (fun _ hst => hst.1) (fun _ _ hst => hst) fun _ _ hst => hst

theorem pollVerification_triple {stage : Stage} {stepId : ℕ} {v : Verification}
    {computed : Option F64} :
    Triple K (pollVerification w stage stepId v computed)
      (fun _ st => K st ∧ Held st.trace stage stepId v computed) (Fails K) := by
  apply Triple.bind (Triple.state fun st hst => hst)
  intro st₀
  exact pollUntil_triple hK _

/-- Polling verifications one after the other: afterwards each of them has held. -/
theorem pollAll_triple {stage : Stage} {stepId : ℕ} {computed : Option F64}
    (verifications : List Verification) :
    Triple K (verifications.forM fun v => pollVerification w stage stepId v computed)
      (fun _ st => K st ∧ ∀ v ∈ verifications, Held st.trace stage stepId v computed)
      (Fails K) := by
  let poll (v : Verification) := pollVerification w stage stepId v computed
  have hloop := Triple.forM (f := poll) (l := verifications)
    (I := fun done st => K st ∧ ∀ v ∈ done, Held st.trace stage stepId v computed)
    (E := Fails K) ?_
  · exact hloop.conseq (fun st hst => ⟨hst, by simp⟩) (fun _ _ hst => hst) fun _ _ hst => hst
  · intro done v rest _
    have hkeeps : Keeps (Reading w) fun st => K st ∧
        ∀ u ∈ done, Held st.trace stage stepId u computed := by
      rintro st e he ⟨hst, hdone⟩
      exact ⟨hK st e he hst, fun u hu => (hdone u hu).append [e]⟩
    have hone := @pollVerification_triple w _ hkeeps stage stepId v computed
    refine hone.conseq (fun _ hst => hst) ?_ fun _ _ hst => ⟨hst.1.1, hst.2⟩
    rintro _ st ⟨⟨hst, hdone⟩, hv⟩
    refine ⟨hst, fun u hu => ?_⟩
    rcases List.mem_append.mp hu with hu | hu
    · exact hdone u hu
    · rw [List.mem_singleton.mp hu]
      exact hv

/-- The height of the nozzle that a step computes with. -/
theorem resolveCompute_trueZ {step : RecoveryStep} {formula : TrueZFormula}
    (hstep : step.compute = some (.trueZ formula)) :
    Triple K (resolveCompute w step)
      (fun computed st => K st ∧ ∃ reading halt v, computed = some v ∧
        trueZAtHalt formula reading halt = .ok v ∧
        (∃ st₀, K st₀ ∧ Reports w st₀.trace formula.triggerSource.reading.1
          formula.triggerSource.reading.2 reading) ∧
        ∃ st₀, K st₀ ∧ Reports w st₀.trace (lit "toolhead") (lit "position.2") halt)
      (Fails K) := by
  rw [resolveCompute, hstep]
  apply Triple.bind (queryNumber_triple hK _ _)
  intro reading
  apply Triple.of_and_right
  intro hreading
  apply Triple.bind (queryNumber_triple hK _ _)
  intro halt
  apply Triple.of_and_right
  intro hhalt
  rcases hcomputed : trueZAtHalt formula reading halt with _ | v
  · exact Triple.stop _ fun st hst => ⟨hst, rfl⟩
  · exact Triple.pure _ fun st hst => ⟨hst, reading, halt, v, rfl, hcomputed, hreading, hhalt⟩

/-- A computed lift is a finite height. -/
theorem height_triple {compute : F64 → Except RecoveryError F64}
    (hfinite : ∀ z v, compute z = .ok v → v.isFinite = true) :
    Triple K (do
        let currentZ ← queryNumber w (lit "toolhead") (lit "position.2")
        let v ← orComputeFailed (compute currentZ)
        pure (some v) : Exec (Option F64))
      (fun computed st => K st ∧ AllFinite computed) (Fails K) := by
  apply Triple.bind (queryNumber_triple hK _ _)
  intro currentZ
  rcases hcomputed : compute currentZ with _ | v
  · exact Triple.stop _ fun st hst => ⟨hst.1, rfl⟩
  · exact Triple.pure _ fun st hst => ⟨hst.1, allFinite_some (hfinite _ _ hcomputed)⟩

/-- A record reads the acceleration in force and keeps it in its slot. -/
theorem record_triple (slot : F64 → State → State) :
    Triple K (do
        let v ← queryNumber w (lit "toolhead") (lit "max_accel")
        Prog.update (slot v)
        pure (some v) : Exec (Option F64))
      (fun computed st => ∃ v st₁, computed = some v ∧ K st₁ ∧ st = slot v st₁ ∧
        ∃ st₀, K st₀ ∧ Reports w st₀.trace (lit "toolhead") (lit "max_accel") v)
      (Fails K) := by
  apply Triple.bind (queryNumber_triple hK _ _)
  intro v
  apply Triple.bind (Triple.update (slot v) (Q := fun _ st => ∃ st₁, K st₁ ∧ st = slot v st₁ ∧
    ∃ st₀, K st₀ ∧ Reports w st₀.trace (lit "toolhead") (lit "max_accel") v)
    fun st hst => ⟨st, hst.1, rfl, hst.2⟩)
  intro _
  apply Triple.pure
  rintro st ⟨st₁, hst₁, hst, hread⟩
  exact ⟨v, st₁, rfl, hst₁, hst, hread⟩

theorem resolveCompute_recordMax {step : RecoveryStep}
    (hstep : step.compute = some .recordMaxAccel) :
    Triple K (resolveCompute w step)
      (fun computed st => ∃ v st₁, computed = some v ∧ K st₁ ∧ st = st₁.setPhase v ∧
        ∃ st₀, K st₀ ∧ Reports w st₀.trace (lit "toolhead") (lit "max_accel") v)
      (Fails K) := by
  rw [resolveCompute, hstep]
  exact record_triple hK State.setPhase

theorem resolveCompute_recordMachine {step : RecoveryStep}
    (hstep : step.compute = some .recordMachineAccel) :
    Triple K (resolveCompute w step)
      (fun computed st => ∃ v st₁, computed = some v ∧ K st₁ ∧ st = st₁.setMachine v ∧
        ∃ st₀, K st₀ ∧ Reports w st₀.trace (lit "toolhead") (lit "max_accel") v)
      (Fails K) := by
  rw [resolveCompute, hstep]
  exact record_triple hK State.setMachine

omit hK in
theorem resolveCompute_none {step : RecoveryStep} (hstep : step.compute = none) :
    Triple K (resolveCompute w step) (fun computed st => K st ∧ computed = st.accel.phase)
      (Fails K) := by
  rw [resolveCompute, hstep]
  apply Triple.bind (Triple.state (Q := fun st₀ st => K st ∧ st₀ = st) fun st hst => ⟨hst, rfl⟩)
  intro st₀
  exact Triple.pure _ fun st hst => ⟨hst.1, by rw [hst.2]⟩

/-- Whatever a step computes is finite, for a property that lets the slots take finite values. -/
theorem resolveCompute_finite {step : RecoveryStep}
    (hphase : ∀ st v, v.isFinite = true → K st → K (st.setPhase v))
    (hmachine : ∀ st v, v.isFinite = true → K st → K (st.setMachine v))
    (hslot : ∀ st, K st → AllFinite st.accel.phase) :
    Triple K (resolveCompute w step) (fun computed st => K st ∧ AllFinite computed) (Fails K) := by
  rcases hcompute : step.compute with _ | (formula | _ | _ | ⟨deltaZ, zMax⟩ | ⟨targetZ, zMax⟩)
  · apply (resolveCompute_none hcompute).mono
    rintro computed st ⟨hst, rfl⟩
    exact ⟨hst, hslot st hst⟩
  · apply (resolveCompute_trueZ hK hcompute).mono
    rintro computed st ⟨hst, _, _, v, rfl, hv, -, -⟩
    exact ⟨hst, allFinite_some (trueZAtHalt_ok hv)⟩
  · apply (resolveCompute_recordMax hK hcompute).mono
    rintro computed st ⟨v, st₁, rfl, hst, rfl, _, -, hreports⟩
    exact ⟨hphase st₁ v hreports.finite hst, allFinite_some hreports.finite⟩
  · apply (resolveCompute_recordMachine hK hcompute).mono
    rintro computed st ⟨v, st₁, rfl, hst, rfl, _, -, hreports⟩
    exact ⟨hmachine st₁ v hreports.finite hst, allFinite_some hreports.finite⟩
  · rw [resolveCompute, hcompute]
    exact height_triple hK fun _ _ => parkZAt_ok
  · rw [resolveCompute, hcompute]
    exact height_triple hK fun _ _ => hoverPlaneAt_ok

end Reads

section Questions

variable {w : World} {K : State → Prop} {E : StopCause → State → Prop}

theorem passGate_triple {step : RecoveryStep}
    (hpush : ∀ st allowed, K st → K (st.push (.gate step.id allowed)))
    (hstop : ∀ st, K st → E .operatorDeclined st) :
    Triple K (passGate w step) (fun _ => K) E := by
  apply Triple.bind (answered_triple (Q := fun _ => K) fun st hst => hpush st _ hst)
  intro allowed
  cases allowed with
  | true => exact Triple.pure () fun _ hst => hst
  | false => exact Triple.stop _ hstop

theorem ask_triple {point : ConfirmPoint}
    (hpush : ∀ st answer, K st → K (st.push (.confirm point answer)))
    (hdeclined : ∀ st, K st → E (.confirmationDeclined point.kind point.code) st)
    (htimedOut : ∀ st, K st → E (.confirmationTimedOut point.kind point.code) st) :
    Triple K (ask w point) (fun _ => K) E := by
  apply Triple.bind (answered_triple (Q := fun _ => K) fun st hst => hpush st _ hst)
  intro answer
  cases answer with
  | «continue» => exact Triple.pure () fun _ hst => hst
  | abort => exact Triple.stop _ hdeclined
  | timedOut => exact Triple.stop _ htimedOut

/-- After the check exclusivity has just been confirmed. -/
theorem reassertExclusivity_triple {Q : Unit → State → Prop}
    (hok : ∀ st, K st → Q () (st.push (.recheck (.ok ()))))
    (hstop : ∀ st reason, K st → E (.exclusivityLost reason) (st.push (.recheck (.error reason)))) :
    Triple K (reassertExclusivity w) Q E := by
  apply Triple.bind (answered_triple (Q := fun answer st => ∃ st₀, K st₀ ∧
    st = st₀.push (.recheck answer)) fun st hst => ⟨st, hst, rfl⟩)
  intro answer
  apply orStop_triple
  · rintro ⟨⟩ _ rfl ⟨st, hst, rfl⟩
    exact hok st hst
  · rintro reason _ rfl ⟨st, hst, rfl⟩
    exact hstop st reason hst

/-- The interlock is armed at the step that enters the shifted frame, and nowhere else. -/
theorem armFrameIfEntering_triple {step : RecoveryStep} {shiftedId : Option ℕ}
    {Q : Unit → State → Prop}
    (harmed : ∀ st, some step.id = shiftedId → K st → Q () (st.push (.arm step.id (.ok ()))))
    (hother : ∀ st, some step.id ≠ shiftedId → K st → Q () st)
    (hstop : ∀ st reason, some step.id = shiftedId → K st →
      E (.frameGuardUnwritable reason) (st.push (.arm step.id (.error reason)))) :
    Triple K (armFrameIfEntering w step shiftedId) Q E := by
  unfold armFrameIfEntering
  split
  · rename_i hentering
    apply Triple.bind (answered_triple (Q := fun answer st => ∃ st₀, K st₀ ∧
      st = st₀.push (.arm step.id answer)) fun st hst => ⟨st, hst, rfl⟩)
    intro answer
    apply orStop_triple
    · rintro ⟨⟩ _ rfl ⟨st, hst, rfl⟩
      exact harmed st hentering hst
    · rintro reason _ rfl ⟨st, hst, rfl⟩
      exact hstop st reason hentering hst
  · rename_i hother'
    exact Triple.pure () fun st hst => hother st hother' hst

theorem registerCleanup_triple {step : RecoveryStep} {Q : Unit → State → Prop}
    (hnone : ∀ st, step.cleanupCommands = [] → K st → Q () st)
    (hsome : ∀ st, step.cleanupCommands ≠ [] → K st →
      Q () (st.register step.id step.cleanupCommands)) :
    Triple K (registerCleanup step) Q E := by
  unfold registerCleanup
  split
  · rename_i hempty
    exact Triple.pure () fun st hst => hnone st (List.isEmpty_iff.mp hempty) hst
  · rename_i hempty
    exact Triple.update _ fun st hst => hsome st (fun h => hempty (List.isEmpty_iff.mpr h)) hst

end Questions

section Sends

variable {w : World} {P : State → Prop}

theorem sendScript_triple {source : Source} {template text : Text}
    {Q : Unit → State → Prop} {E : StopCause → State → Prop}
    (hsent : ∀ st, P st → w.script st.trace text = none →
      Q () (st.push (.send source template text none)))
    (herror : ∀ st m, P st → w.script st.trace text = some m →
      E (.commandFailed (.classify m) m) (st.push (.send source template text (some m)))) :
    Triple P (sendScript w source template text) Q E := by
  apply Triple.bind (answered_triple (Q := fun error st => ∃ st₀, P st₀ ∧
    w.script st₀.trace text = error ∧ st = st₀.push (.send source template text error))
    fun st hst => ⟨st, hst, rfl, rfl⟩)
  intro error
  cases error with
  | none =>
    apply Triple.pure
    rintro _ ⟨st, hst, hscript, rfl⟩
    exact hsent st hst hscript
  | some m =>
    apply Triple.stop
    rintro _ ⟨st, hst, hscript, rfl⟩
    exact herror st m hst hscript

/-- A command is sent as its text, or not at all. -/
theorem sendCommand_triple {stepId : ℕ} {computed machineAccel : Option F64} {command : Text}
    {Q : Unit → State → Prop} {E : StopCause → State → Prop}
    (hsent : ∀ st text, P st → commandText computed machineAccel command = some text →
      w.script st.trace text = none → Q () (st.push (.send (.step stepId) command text none)))
    (herror : ∀ st text m, P st → commandText computed machineAccel command = some text →
      w.script st.trace text = some m →
      E (.commandFailed (.classify m) m) (st.push (.send (.step stepId) command text (some m))))
    (hunsent : ∀ st message, P st → E (.computeFailed message) st) :
    Triple P (sendCommand w stepId computed machineAccel command) Q E := by
  have hlast (text : Text) (htext : commandText computed machineAccel command = some text) :
      Triple P (sendScript w (.step stepId) command text) Q E :=
    sendScript_triple (fun st hst hscript => hsent st text hst htext hscript)
      fun st m hst hscript => herror st text m hst htext hscript
  have hmachine (resolved : Text) (hresolved : commandText computed machineAccel command =
      if Text.contains resolved machineAccelPlaceholder then
        machineAccel.map fun v => Text.replace resolved machineAccelPlaceholder (fmtNum v)
      else some resolved) :
      Triple P (resolveMachine machineAccel resolved >>= sendScript w (.step stepId) command)
        Q E := by
    unfold resolveMachine
    split at hresolved
    · rename_i hcontains
      rw [if_pos hcontains]
      cases machineAccel with
      | none =>
        exact Triple.stop_bind _ fun st hst => hunsent st _ hst
      | some v => exact hlast _ hresolved
    · rename_i hcontains
      rw [if_neg hcontains]
      exact hlast _ hresolved
  unfold sendCommand resolveComputed
  by_cases hcarries : carriesComputed command = true
  · rw [if_pos hcarries]
    cases hvalue : computed with
    | none =>
      exact Triple.stop_bind _ fun st hst => hunsent st _ hst
    | some v => exact hmachine _ (by rw [commandText, if_pos hcarries, hvalue]; rfl)
  · rw [if_neg hcarries]
    exact hmachine _ (by rw [commandText, if_neg hcarries]; rfl)

end Sends

section Turns

variable {w : World} {K : State → Prop}

/-- The events that send nothing and register nothing. -/
def Silent (_ : Events) : Event → Prop
  | .send .. | .register .. => False
  | .query .. | .gate .. | .confirm .. | .preview .. | .recheck .. | .arm .. | .verify ..
  | .write .. => True

theorem Keeps.reading (h : Keeps Silent K) : Keeps (Reading w) K := by
  intro st e he hst
  apply h st e _ hst
  cases e with
  | query | verify => exact trivial
  | gate | confirm | preview | recheck | arm | register | send | write => exact he.elim

theorem Keeps.answered {α : Type} {answer : Events → α} {event : α → Event}
    {E : StopCause → State → Prop} (h : Keeps Silent K)
    (hevent : ∀ past a, Silent past (event a)) :
    Triple K (answered answer event) (fun _ => K) E :=
  answered_triple fun st hst => h st _ (hevent st.trace _) hst

theorem resolveCompute_keeps {step : RecoveryStep} (hK : Keeps Silent K)
    (hphase : step.compute = some .recordMaxAccel → ∀ st v, K st → K (st.setPhase v))
    (hmachine : step.compute = some .recordMachineAccel → ∀ st v, K st → K (st.setMachine v)) :
    Triple K (resolveCompute w step) (fun _ => K) (Fails K) := by
  rcases hcompute : step.compute with _ | (formula | _ | _ | ⟨deltaZ, zMax⟩ | ⟨targetZ, zMax⟩)
  · exact (resolveCompute_none hcompute).mono fun _ _ hst => hst.1
  · exact (resolveCompute_trueZ hK.reading hcompute).mono fun _ _ hst => hst.1
  · apply (resolveCompute_recordMax hK.reading hcompute).mono
    rintro _ _ ⟨v, st, -, hst, rfl, -⟩
    exact hphase hcompute st v hst
  · apply (resolveCompute_recordMachine hK.reading hcompute).mono
    rintro _ _ ⟨v, st, -, hst, rfl, -⟩
    exact hmachine hcompute st v hst
  · rw [resolveCompute, hcompute]
    exact (height_triple hK.reading fun _ _ => parkZAt_ok).mono fun _ _ hst => hst.1
  · rw [resolveCompute, hcompute]
    exact (height_triple hK.reading fun _ _ => hoverPlaneAt_ok).mono fun _ _ hst => hst.1

/-- A property that the sends of a step keep, with whatever else it does, is kept by the step. -/
theorem runStep_keeps {step : RecoveryStep} (hK : Keeps Silent K)
    (hphase : step.compute = some .recordMaxAccel → ∀ st v, K st → K (st.setPhase v))
    (hmachine : step.compute = some .recordMachineAccel → ∀ st v, K st → K (st.setMachine v))
    (hregister : step.cleanupCommands ≠ [] → ∀ st, K st →
      K (st.register step.id step.cleanupCommands))
    (hsend : ∀ st command v m error, command ∈ step.commands → K st →
      K (st.push (.send (.step step.id) command (substitute v m command) error))) :
    Triple K (runStep w step) (fun _ => K) (Fails K) := by
  unfold runStep
  apply Triple.bind ((pollAll_triple hK.reading step.preVerify).mono fun _ _ hst => hst.1)
  intro _
  apply Triple.bind (resolveCompute_keeps hK hphase hmachine)
  intro computed
  apply Triple.bind (Q := fun _ => K)
  · exact registerCleanup_triple (fun st _ hst => hst) fun st hcleanups hst =>
      hregister hcleanups st hst
  intro _
  apply Triple.bind (Triple.state (Q := fun _ => K) fun st hst => hst)
  intro st₀
  apply Triple.bind (Q := fun _ => K)
  · apply Triple.forM_const
    intro command hcommand
    apply sendCommand_triple
    · intro st text hst htext _
      obtain ⟨v, m, rfl, -⟩ := commandText_eq htext
      exact hsend st command v m none hcommand hst
    · intro st text message hst htext _
      obtain ⟨v, m, rfl, -⟩ := commandText_eq htext
      exact ⟨hsend st command v m (some message) hcommand hst, rfl⟩
    · exact fun st _ hst => ⟨hst, rfl⟩
  intro _
  apply Triple.bind ((pollAll_triple hK.reading step.verify).mono fun _ _ hst => hst.1)
  intro _
  exact Triple.pure _ fun _ hst => hst

theorem visit_keeps {spec : PreviewSpec} {cursor : ℕ} (hK : Keeps Silent K)
    (hsend : ∀ st cursor stop error, K st → K (st.push (.send (.preview cursor)
      (reposition spec stop) (reposition spec stop) error))) :
    Triple K (visit w spec cursor) (fun _ => K) fun _ => K := by
  unfold visit
  apply Triple.bind (Q := fun _ => K)
  · apply reassertExclusivity_triple
    · exact fun st hst => hK st _ trivial hst
    · exact fun st _ hst => hK st _ trivial hst
  intro _
  split
  · exact Triple.stop _ fun _ hst => hst
  · apply sendScript_triple
    · exact fun st hst _ => hsend st cursor _ none hst
    · exact fun st m hst _ => hsend st cursor _ (some m) hst

theorem acceptStop_keeps {spec : PreviewSpec} {cursor : ℕ} (hK : Keeps Silent K) :
    Triple K (acceptStop w spec cursor) (fun _ => K) fun _ => K := by
  unfold acceptStop
  split
  · exact Triple.stop _ fun _ hst => hst
  split
  · exact Triple.stop _ fun _ hst => hst
  apply Triple.bind (Q := fun _ => K)
  · exact hK.answered fun _ _ => trivial
  intro _
  exact orStop_triple (fun _ _ _ hst => hst) fun _ _ _ hst => hst

/-- The rule of the loop over the stops: it ends well only where a stop is accepted. -/
theorem previewLoop_rule {spec : PreviewSpec} {step : RecoveryStep} {K' : State → Prop}
    (hK : Keeps Silent K)
    (hsend : ∀ st cursor stop error, K st → K (st.push (.send (.preview cursor)
      (reposition spec stop) (reposition spec stop) error)))
    (haccept : ∀ cursor, Triple K (acceptStop w spec cursor) (fun _ => K') fun _ => K)
    (answers : List PreviewAnswer) (c : Cursor) :
    Triple K (previewLoop w spec step c answers) (fun _ => K') fun _ => K := by
  have hask (cursor : ℕ) (answer : PreviewAnswer) :
      Triple K (emit (.preview step.id cursor answer)) (fun _ => K) fun _ => K :=
    emit_triple fun st hst => hK st _ trivial hst
  induction answers generalizing c with
  | nil =>
    apply Triple.bind (visit_keeps hK hsend)
    intro _
    apply Triple.bind (hask c.cursor _)
    intro _
    exact Triple.stop _ fun _ hst => hst
  | cons answer answers ih =>
    apply Triple.bind (visit_keeps hK hsend)
    intro _
    apply Triple.bind (hask c.cursor _)
    intro _
    cases answer with
    | accept => exact haccept c.cursor
    | nextRep => exact ih _
    | prevRep => exact ih _
    | nudge delta => exact ih _
    | abort => exact Triple.stop _ fun _ hst => hst
    | timedOut => exact Triple.stop _ fun _ hst => hst

theorem ask_keeps (hK : Keeps Silent K) (point : ConfirmPoint) :
    Triple K (ask w point) (fun _ => K) fun _ => K :=
  ask_triple (fun st _ hst => hK st _ trivial hst) (fun _ hst => hst) fun _ hst => hst

theorem prepareStep_keeps {plan : RecoveryPlan} {step : RecoveryStep} (hK : Keeps Silent K) :
    Triple K (prepareStep w plan step) (fun _ => K) fun _ => K := by
  apply Triple.bind (passGate_triple (fun st _ hst => hK st _ trivial hst) fun _ hst => hst)
  intro _
  apply Triple.bind (Q := fun _ => K)
  · unfold confirmDebug
    split
    · exact ask_keeps hK _
    · exact Triple.pure () fun _ hst => hst
  intro _
  apply Triple.bind (Q := fun _ => K)
  · exact reassertExclusivity_triple (fun st hst => hK st _ trivial hst)
      fun st _ hst => hK st _ trivial hst
  intro _
  exact armFrameIfEntering_triple (fun st _ hst => hK st _ trivial hst) (fun st _ hst => hst)
    fun st _ _ hst => hK st _ trivial hst

theorem confirmZ_keeps {step : RecoveryStep} (hK : Keeps Silent K) :
    Triple K (confirmZ w step) (fun _ => K) fun _ => K := by
  unfold confirmZ
  split
  · apply Triple.bind (Q := fun _ => K)
    · exact hK.answered fun _ _ => trivial
    intro _
    exact ask_keeps hK _
  · exact Triple.pure () fun _ hst => hst

theorem confirmPreview_keeps {plan : RecoveryPlan} {step : RecoveryStep} (hK : Keeps Silent K)
    (hsend : ∀ spec st cursor stop error, K st → K (st.push (.send (.preview cursor)
      (reposition spec stop) (reposition spec stop) error))) :
    Triple K (confirmPreview w plan step) (fun _ => K) fun _ => K := by
  unfold confirmPreview
  split
  · unfold runPreviewLoop
    split
    · exact Triple.pure () fun _ hst => hst
    · rename_i spec _
      split
      · exact Triple.pure () fun _ hst => hst
      · exact previewLoop_rule hK (hsend spec) (fun _ => acceptStop_keeps hK) _ _
  · exact Triple.pure () fun _ hst => hst

/-- The rule of a turn: what a step makes of a property survives the rest of its turn. -/
theorem executeStep_rule {plan : RecoveryPlan} {step : RecoveryStep} {K' E : State → Prop}
    (hK : Keeps Silent K) (hK' : Keeps Silent K')
    (hrun : Triple K (runStep w step) (fun _ => K') fun _ => E) (hE : ∀ st, K st → E st)
    (hE' : ∀ st, K' st → E st)
    (hsend : ∀ spec st cursor stop error, K' st → K' (st.push (.send (.preview cursor)
      (reposition spec stop) (reposition spec stop) error))) :
    Triple K (executeStep w plan step) (fun _ => K') fun _ => E := by
  apply Triple.bind ((prepareStep_keeps hK).conseq (fun _ hst => hst) (fun _ _ hst => hst)
    fun _ => hE)
  intro _
  apply Triple.bind hrun
  intro _
  apply Triple.bind ((confirmZ_keeps hK').conseq (fun _ hst => hst) (fun _ _ hst => hst)
    fun _ => hE')
  intro _
  exact (confirmPreview_keeps hK' hsend).conseq (fun _ hst => hst) (fun _ _ hst => hst)
    fun _ => hE'

/-- The confirmations before the first step send nothing. -/
theorem preflightConfirmations_keeps {plan : RecoveryPlan} {anchor : RecoveryStep}
    (hK : Keeps Silent K) :
    Triple K (preflightConfirmations w plan anchor) (fun _ => K) fun _ => K := by
  apply Triple.forM_const
  intro warning _
  unfold confirmWarning
  split
  · exact Triple.pure () fun _ hst => hst
  · exact ask_triple (fun st _ hst => hK st _ trivial hst) (fun _ hst => hst) fun _ hst => hst
  · exact Triple.stop _ fun _ hst => hst

/-- The rule of a whole run: the confirmations keep what holds at the start, and the steps make
of it what holds at the end. -/
theorem program_rule {plan : RecoveryPlan} {anchor : RecoveryStep} {K' E : State → Prop}
    (hK : Keeps Silent K) (hE : ∀ st, K st → E st)
    (hsteps : Triple K (plan.steps.forM fun step => (executeStep w plan step).mapError (step, ·))
      (fun _ => K') fun _ => E) :
    Triple K (program w plan anchor) (fun _ => K') fun _ => E := by
  apply Triple.bind (Q := fun _ => K)
  · apply Triple.mapError
    exact (preflightConfirmations_keeps hK).conseq (fun _ hst => hst) (fun _ _ hst => hst)
      fun _ => hE
  · exact fun _ => hsteps

end Turns

end DeadReckoning.Execution
