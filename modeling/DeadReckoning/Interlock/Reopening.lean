import DeadReckoning.Interlock.Model

/-! The interlock stays closed in every run whose clearings keep out of the danger zone of
every execution and whose gates meet a readable marker file. -/
namespace DeadReckoning.Interlock

/-- Between arming the marker and its end. -/
def Execution.InDanger (e : Execution) : Prop :=
  e.phase = .armed ∨ e.phase = .declared ∨ e.phase = .aborting

/-- It ended with the declare sent, and nothing has settled it. -/
def Execution.EndedUnsettled (e : Execution) : Prop := e.hasEnded = true ∧ e.unsettled

/-- A dry run clears only when no execution is in the danger zone or ended there after the
dry run began; an execution clears only when no other one is or ended there; and gates never
meet an undecodable file. -/
def Undisturbed (s : State) : Event → Prop
  | .gates _ _ => s.marker ≠ .torn
  | .clearCompleted i _ =>
      ∀ k, k ≠ i → ¬ (s.executions k).InDanger ∧ ¬ (s.executions k).EndedUnsettled
  | .dryClear j _ =>
      ∀ i, ¬ (s.executions i).InDanger ∧
        ((s.executions i).EndedUnsettled → (s.dryRuns j).beganAfter i = true)
  | _ => True

/-! ### The invariant -/

/-- The marker must be there for this execution. -/
def Execution.AtStake (e : Execution) : Prop := e.phase = .armed ∨ e.unsettled

/-- What every state an execution can be in meets. -/
structure Execution.WellFormed (e : Execution) : Prop where
  fresh : e.phase = .idle → e.sent = false ∧ e.declared = false ∧ e.gatedByMarker = false
  refused : e.gatedByMarker = true → e.phase = .ended ∧ e.sent = false
  declared : e.declared = true → e.phase ≠ .running ∧ e.phase ≠ .armed
  completed : e.phase = .completed → e.resolved = true

structure Inv (s : State) : Prop where
  wellFormed : ∀ i, (s.executions i).WellFormed
  stake : ∀ i, (s.executions i).AtStake → s.pinned = true
  present : s.pinned = true → s.marker ≠ .absent
  planned : ∀ j seen, (s.dryRuns j).phase = .planned seen → ∀ i,
    (s.dryRuns j).beganAfter i = true → (s.executions i).resolved = true

/-- An unsettled execution is in the danger zone or ended there. -/
theorem Execution.WellFormed.unsettled_cases {e : Execution} (h : e.WellFormed)
    (hu : e.unsettled) : e.InDanger ∨ e.EndedUnsettled := by
  obtain ⟨hrunning, harmed⟩ := h.declared hu.1
  cases hp : e.phase with
  | idle => exact absurd (h.fresh hp).2.1 (by simp [hu.1])
  | running => exact absurd hp hrunning
  | armed => exact absurd hp harmed
  | declared => exact .inl (.inr (.inl hp))
  | aborting => exact .inl (.inr (.inr hp))
  | completed => exact absurd (h.completed hp) (by simp [hu.2])
  | ended => exact .inr ⟨by simp [Execution.hasEnded, hp], hu⟩

theorem Inv.closed {s : State} (h : Inv s) : Closed s where
  marked i hu := h.present (h.stake i (.inr hu))
  refused i hgated := ((h.wellFormed i).refused hgated).2

theorem inv_init (marker : MarkerFile) : Inv (init marker) := by
  refine ⟨?_, ?_, nofun, nofun⟩
  · intro i
    exact ⟨fun _ => ⟨rfl, rfl, rfl⟩, nofun, nofun, nofun⟩
  · rintro i (hp | hu)
    · cases hp
    · cases hu.1

/-- Replacing one execution. -/
theorem Inv.setExecution {s : State} (h : Inv s) {i : ℕ} {e : Execution} (hwf : e.WellFormed)
    (hstake : e.AtStake → s.pinned = true)
    (hresolved : (s.executions i).resolved = true → e.resolved = true) :
    Inv (s.setExecution i e) := by
  refine ⟨?_, ?_, h.present, ?_⟩
  · intro k
    by_cases hk : k = i
    · subst hk; simpa [State.setExecution] using hwf
    · simpa [State.setExecution, hk] using h.wellFormed k
  · intro k hk'
    by_cases hk : k = i
    · subst hk; exact hstake (by simpa [State.setExecution] using hk')
    · exact h.stake k (by simpa [State.setExecution, hk] using hk')
  · intro j seen hplanned k hbegan
    have hold := h.planned j seen hplanned k hbegan
    by_cases hk : k = i
    · subst hk; simpa [State.setExecution] using hresolved hold
    · simpa [State.setExecution, hk] using hold

/-- Replacing one dry run by one that has no plan yet. -/
theorem Inv.setDryRun {s : State} (h : Inv s) {j : ℕ} {d : DryRun}
    (hplanned : ∀ seen, d.phase = .planned seen → ∀ i, d.beganAfter i = true →
      (s.executions i).resolved = true) : Inv (s.setDryRun j d) := by
  refine ⟨h.wellFormed, h.stake, h.present, ?_⟩
  intro k seen hp i hbegan
  by_cases hk : k = j
  · subst hk
    simp only [State.setDryRun, Function.update_self] at hp hbegan
    exact hplanned seen hp i hbegan
  · simp only [State.setDryRun, Function.update_of_ne hk] at hp hbegan
    exact h.planned k seen hp i hbegan

theorem Inv.write {s : State} (h : Inv s) (result : WriteResult) :
    Inv (s.writeFrameInvalid result) := by
  cases result with
  | ok => exact ⟨h.wellFormed, fun _ _ => rfl, fun _ => nofun, h.planned⟩
  | errBefore => exact h
  | errAfter => exact ⟨h.wellFormed, h.stake, fun _ => nofun, h.planned⟩

/-- With nothing at stake the marker may go. -/
theorem Inv.clear {s : State} (h : Inv s) (hfree : ∀ i, ¬ (s.executions i).AtStake)
    (removed : Bool) : Inv (s.clearFrameInvalid removed) := by
  cases removed with
  | false => exact h
  | true => exact ⟨h.wellFormed, fun i hi => absurd hi (hfree i), nofun, h.planned⟩

theorem Inv.resolve {s : State} (h : Inv s) (beganAfter : ℕ → Bool) :
    Inv (s.resolve beganAfter) := by
  refine ⟨?_, ?_, h.present, ?_⟩
  · intro i
    have hwf := h.wellFormed i
    exact ⟨hwf.fresh, hwf.refused, hwf.declared, fun hp => by simp [State.resolve, hwf.completed hp]⟩
  · rintro i (hp | hu)
    · exact h.stake i (.inl hp)
    · refine h.stake i (.inr ⟨hu.1, ?_⟩)
      have hresolved := hu.2
      simp only [State.resolve, Bool.or_eq_false_iff] at hresolved
      exact hresolved.1
  · intro j seen hp i hbegan
    simp [State.resolve, h.planned j seen hp i hbegan]

theorem Execution.WellFormed.kill {e : Execution} (h : e.WellFormed) : e.kill.WellFormed := by
  unfold Execution.kill
  split
  · exact h
  · exact ⟨nofun, fun hg => ⟨rfl, (h.refused hg).2⟩, fun _ => ⟨nofun, nofun⟩, nofun⟩

theorem Execution.AtStake.of_kill {e : Execution} (h : e.kill.AtStake) : e.AtStake := by
  unfold Execution.kill at h
  split at h
  · exact h
  · rcases h with hp | hu
    · cases hp
    · exact .inr hu

@[simp] theorem Execution.kill_resolved (e : Execution) : e.kill.resolved = e.resolved := by
  unfold Execution.kill
  split <;> rfl

/-- A live execution moves on: its gates met no marker. -/
theorem Execution.WellFormed.move {e e' : Execution} (h : e.WellFormed)
    (hlive : e.phase ≠ .ended) (hgated : e'.gatedByMarker = e.gatedByMarker)
    (hidle : e'.phase ≠ .idle)
    (hdeclared : e'.declared = true → e'.phase ≠ .running ∧ e'.phase ≠ .armed)
    (hcompleted : e'.phase = .completed → e'.resolved = true) : e'.WellFormed :=
  ⟨fun hp => absurd hp hidle, fun hg => absurd (h.refused (hgated ▸ hg)).1 hlive, hdeclared,
    hcompleted⟩

/-! ### One step -/

theorem Inv.gates {s t : State} (h : Inv s) {i : ℕ} {pass : Bool} (hmarker : s.marker ≠ .torn)
    (hstep : step s (.gates i pass) = some t) : Inv t := by
  simp only [step] at hstep
  split at hstep
  case isFalse => cases hstep
  next hidle =>
  obtain ⟨hsent, hdeclared, hgated⟩ := (h.wellFormed i).fresh hidle
  split at hstep
  · obtain rfl := Option.some.inj hstep
    refine h.setExecution ⟨nofun, fun _ => ⟨rfl, hsent⟩, ?_, nofun⟩ ?_ id
    · exact fun hd => absurd hd (by simp [hdeclared])
    · rintro (hp | hu)
      · cases hp
      · exact absurd hu.1 (by simp [hdeclared])
  · next hopen =>
    obtain rfl := Option.some.inj hstep
    have habsent : s.marker = .absent := by
      cases hm : s.marker with
      | absent => rfl
      | torn => exact absurd hm hmarker
      | valid => simp [hm, readFrameInvalid] at hopen
    refine h.setExecution ⟨nofun, ?_, ?_, nofun⟩ ?_ id
    · exact fun hg => absurd hg (by simp [habsent])
    · exact fun hd => absurd hd (by simp [hdeclared])
    · rintro (hp | hu)
      · cases hp
      · exact absurd hu.1 (by simp [hdeclared])

/-- Replacing a live execution by one that is at stake only if it was. -/
theorem Inv.moveExecution {s : State} (h : Inv s) {i : ℕ} {e' : Execution}
    (hlive : (s.executions i).phase ≠ .ended)
    (hgated : e'.gatedByMarker = (s.executions i).gatedByMarker) (hidle : e'.phase ≠ .idle)
    (hdeclared : e'.declared = true → e'.phase ≠ .running ∧ e'.phase ≠ .armed)
    (hcompleted : e'.phase = .completed → e'.resolved = true)
    (hstake : e'.AtStake → (s.executions i).AtStake)
    (hresolved : (s.executions i).resolved = true → e'.resolved = true) :
    Inv (s.setExecution i e') :=
  h.setExecution ((h.wellFormed i).move hlive hgated hidle hdeclared hcompleted)
    (fun he => h.stake i (hstake he)) hresolved

theorem Inv.send {s t : State} (h : Inv s) {i : ℕ} (hstep : step s (.send i) = some t) :
    Inv t := by
  simp only [step] at hstep
  split at hstep
  case isFalse => cases hstep
  next hphase =>
  obtain rfl := Option.some.inj hstep
  have hwf := h.wellFormed i
  refine h.moveExecution ?_ rfl ?_ hwf.declared hwf.completed id id
  · rcases hphase with hp | hp | hp <;> simp [hp]
  · rcases hphase with hp | hp | hp <;> simp [hp]

theorem Inv.arm {s t : State} (h : Inv s) {i : ℕ} {result : WriteResult}
    (hstep : step s (.arm i result) = some t) : Inv t := by
  simp only [step] at hstep
  split at hstep
  case isFalse => cases hstep
  next hphase =>
  have hlive : (s.executions i).phase ≠ .ended := by simp [hphase]
  have hundeclared : (s.executions i).declared ≠ true :=
    fun hd => ((h.wellFormed i).declared hd).1 hphase
  have hsame : (s.writeFrameInvalid result).executions = s.executions := by
    cases result <;> rfl
  split at hstep
  · next hok =>
    obtain rfl := Option.some.inj hstep
    subst hok
    refine (h.write .ok).setExecution ?_ (fun _ => rfl) id
    exact (h.wellFormed i).move hlive rfl nofun (fun hd => absurd hd hundeclared) nofun
  · obtain rfl := Option.some.inj hstep
    refine (h.write result).setExecution ?_ ?_ (by rw [hsame]; exact id)
    · exact (h.wellFormed i).move hlive rfl nofun (fun _ => ⟨nofun, nofun⟩) nofun
    · rintro (hp | hu)
      · cases hp
      · exact absurd hu.1 hundeclared

theorem Inv.declare {s t : State} (h : Inv s) {i : ℕ} (hstep : step s (.declare i) = some t) :
    Inv t := by
  simp only [step] at hstep
  split at hstep
  case isFalse => cases hstep
  next hphase =>
  obtain rfl := Option.some.inj hstep
  have hframe : Inv { s with frameShifted := true } :=
    ⟨h.wellFormed, h.stake, h.present, h.planned⟩
  refine hframe.moveExecution (by simp [hphase]) rfl nofun (fun _ => ⟨nofun, nofun⟩) nofun
    (fun _ => .inl hphase) id

theorem Inv.declareTrue {s t : State} (h : Inv s) {i : ℕ}
    (hstep : step s (.declareTrue i) = some t) : Inv t := by
  simp only [step] at hstep
  split at hstep
  case isFalse => cases hstep
  next hphase =>
  obtain rfl := Option.some.inj hstep
  have hframe : Inv { s with frameShifted := false } :=
    ⟨h.wellFormed, h.stake, h.present, h.planned⟩
  exact hframe.moveExecution (by simp [hphase]) rfl (by simp [hphase])
    (h.wellFormed i).declared (h.wellFormed i).completed id id

theorem Inv.complete {s t : State} (h : Inv s) {i : ℕ} (hstep : step s (.complete i) = some t) :
    Inv t := by
  simp only [step] at hstep
  split at hstep
  case isFalse => cases hstep
  next hphase =>
  obtain rfl := Option.some.inj hstep
  refine h.moveExecution (by simp [hphase]) rfl nofun (fun _ => ⟨nofun, nofun⟩) (fun _ => rfl) ?_
    fun _ => rfl
  rintro (hp | hu)
  · cases hp
  · cases hu.2

theorem Inv.clearCompleted {s t : State} (h : Inv s) {i : ℕ} {removed : Bool}
    (hundisturbed : Undisturbed s (.clearCompleted i removed))
    (hstep : step s (.clearCompleted i removed) = some t) : Inv t := by
  simp only [step] at hstep
  split at hstep
  case isFalse => cases hstep
  next hphase =>
  obtain rfl := Option.some.inj hstep
  have hresolved : (s.executions i).resolved = true := (h.wellFormed i).completed hphase
  have hfree : ∀ k, ¬ (s.executions k).AtStake := by
    rintro k (harmed | hu)
    · by_cases hk : k = i
      · subst hk; rw [hphase] at harmed; cases harmed
      · exact (hundisturbed k hk).1 (.inl harmed)
    · by_cases hk : k = i
      · subst hk; exact absurd hu.2 (by simp [hresolved])
      · rcases (h.wellFormed k).unsettled_cases hu with hdanger | hended
        · exact (hundisturbed k hk).1 hdanger
        · exact (hundisturbed k hk).2 hended
  have hsame : (s.clearFrameInvalid removed).executions = s.executions := by
    cases removed <;> rfl
  refine (h.clear hfree removed).setExecution ?_ ?_ (by rw [hsame]; exact id)
  · exact (h.wellFormed i).move (by simp [hphase]) rfl nofun (fun _ => ⟨nofun, nofun⟩) nofun
  · rintro (hp | hu)
    · cases hp
    · exact absurd hu.2 (by simp [hresolved])

theorem Inv.abort {s t : State} (h : Inv s) {i : ℕ} (hstep : step s (.abort i) = some t) :
    Inv t := by
  simp only [step] at hstep
  split at hstep
  · next hphase =>
    obtain rfl := Option.some.inj hstep
    refine h.moveExecution (by simp [hphase]) rfl nofun (fun _ => ⟨nofun, nofun⟩) nofun ?_ id
    rintro (hp | hu)
    · cases hp
    · exact .inr hu
  · split at hstep
    case isFalse => cases hstep
    next hphase =>
    obtain rfl := Option.some.inj hstep
    refine h.moveExecution ?_ rfl nofun (fun _ => ⟨nofun, nofun⟩) nofun ?_ id
    · rcases hphase with hp | hp <;> simp [hp]
    · rintro (hp | hu)
      · cases hp
      · exact .inr hu

theorem Inv.recordAbort {s t : State} (h : Inv s) {i : ℕ} {result : WriteResult}
    (hstep : step s (.recordAbort i result) = some t) : Inv t := by
  simp only [step] at hstep
  split at hstep
  case isFalse => cases hstep
  next hphase =>
  obtain rfl := Option.some.inj hstep
  have hsame : (s.writeFrameInvalid result).executions = s.executions := by
    cases result <;> rfl
  refine (h.write result).moveExecution (by simp [hsame, hphase]) (by rw [hsame]) nofun
    (fun _ => ⟨nofun, nofun⟩) nofun ?_ (by rw [hsame]; exact id)
  rw [hsame]
  rintro (hp | hu)
  · cases hp
  · exact .inr hu

theorem Inv.dryPlan {s t : State} (h : Inv s) {j : ℕ} (hstep : step s (.dryPlan j) = some t) :
    Inv t := by
  simp only [step] at hstep
  split at hstep
  case isFalse => cases hstep
  obtain rfl := Option.some.inj hstep
  refine (h.resolve (s.dryRuns j).beganAfter).setDryRun fun seen _ i hbegan => ?_
  have hbegan' : (s.dryRuns j).beganAfter i = true := hbegan
  simp [State.resolve, hbegan']

theorem Inv.dryClear {s t : State} (h : Inv s) {j : ℕ} {removed : Bool}
    (hundisturbed : Undisturbed s (.dryClear j removed))
    (hstep : step s (.dryClear j removed) = some t) : Inv t := by
  simp only [step] at hstep
  split at hstep
  case h_2 => cases hstep
  next seen hphase =>
  obtain rfl := Option.some.inj hstep
  have hfree : ∀ i, ¬ (s.executions i).AtStake := by
    rintro i (harmed | hu)
    · exact (hundisturbed i).1 (.inl harmed)
    · rcases (h.wellFormed i).unsettled_cases hu with hdanger | hended
      · exact (hundisturbed i).1 hdanger
      · have hresolved := h.planned j seen hphase i ((hundisturbed i).2 hended)
        exact absurd hu.2 (by simp [hresolved])
  exact (h.clear hfree _).setDryRun nofun

theorem Inv.powerCut {s : State} (h : Inv s) (survivor : MarkerFile) :
    Inv
      { s with
        marker := if s.pinned then s.marker else survivor
        frameShifted := false
        executions := fun i => (s.executions i).kill
        dryRuns := fun _ => {} } := by
  refine ⟨fun i => (h.wellFormed i).kill, fun i hi => h.stake i hi.of_kill, ?_, nofun⟩
  intro hpinned
  have hpinned' : s.pinned = true := hpinned
  simp only [hpinned', if_true]
  exact h.present hpinned'

theorem step_inv {s t : State} {event : Event} (h : Inv s) (hundisturbed : Undisturbed s event)
    (hstep : step s event = some t) : Inv t := by
  cases event with
  | gates i pass => exact h.gates hundisturbed hstep
  | send i => exact h.send hstep
  | arm i result => exact h.arm hstep
  | declare i => exact h.declare hstep
  | declareTrue i => exact h.declareTrue hstep
  | complete i => exact h.complete hstep
  | clearCompleted i removed => exact h.clearCompleted hundisturbed hstep
  | abort i => exact h.abort hstep
  | recordAbort i result => exact h.recordAbort hstep
  | killExecution i =>
    obtain rfl := Option.some.inj hstep
    exact h.setExecution (h.wellFormed i).kill (fun hi => h.stake i hi.of_kill) (by simp)
  | dryBegin j =>
    simp only [step] at hstep
    split at hstep
    · obtain rfl := Option.some.inj hstep
      exact h.setDryRun nofun
    · cases hstep
  | dryPlan j => exact h.dryPlan hstep
  | dryNoPlan j =>
    simp only [step] at hstep
    split at hstep
    · obtain rfl := Option.some.inj hstep
      exact h.setDryRun nofun
    · cases hstep
  | dryClear j removed => exact h.dryClear hundisturbed hstep
  | killDryRun j =>
    obtain rfl := Option.some.inj hstep
    exact h.setDryRun nofun
  | boot => exact Option.some.inj hstep ▸ h
  | powerCut survivor => exact Option.some.inj hstep ▸ h.powerCut survivor
  | tear =>
    obtain rfl := Option.some.inj hstep
    refine ⟨h.wellFormed, h.stake, fun hpinned => ?_, h.planned⟩
    have hpresent := h.present hpinned
    simp [hpresent]

/-! ### Whole runs -/

/-- An execution aborts past its declare; a later dry run reviews the machine and re-enables
the next execution. -/
def reviewedAbort : List Event :=
  [.gates 0 true, .send 0, .arm 0 .ok, .declare 0, .abort 0, .recordAbort 0 .ok, .dryBegin 0,
    .dryPlan 0, .dryClear 0 true, .gates 1 true]

theorem reviewedAbort_undisturbed : Runs.Along step Undisturbed (init .absent) reviewedAbort := by
  refine Runs.along_cons nofun fun _ h => ?_
  cases h
  refine Runs.along_cons trivial fun _ h => ?_
  cases h
  refine Runs.along_cons trivial fun _ h => ?_
  cases h
  refine Runs.along_cons trivial fun _ h => ?_
  cases h
  refine Runs.along_cons trivial fun _ h => ?_
  cases h
  refine Runs.along_cons trivial fun _ h => ?_
  cases h
  refine Runs.along_cons trivial fun _ h => ?_
  cases h
  refine Runs.along_cons trivial fun _ h => ?_
  cases h
  refine Runs.along_cons ?_ fun _ h => ?_
  · intro i
    cases i with
    | zero => exact ⟨fun h => (by rcases h with h | h | h <;> cases h), fun _ => rfl⟩
    | succ i => exact ⟨fun h => (by rcases h with h | h | h <;> cases h), fun h => nomatch h.1⟩
  cases h
  exact Runs.along_cons nofun fun _ _ => Runs.along_nil _ _ _

/-- A dry run during an execution that is paused past its declare. -/
def dryRunDuringPause : List Event :=
  [.gates 0 true, .send 0, .arm 0 .ok, .declare 0, .dryBegin 0, .dryPlan 0, .dryClear 0 true]

end DeadReckoning.Interlock
