import DeadReckoning.Recording.Convert
import DeadReckoning.Lib.Runs

/-! The clean-shutdown detector over whole sessions. The verdict depends on five fields of
the recorder only; those fields are the merged view of everything reported so far. -/
namespace DeadReckoning.Recording

/-- Everything that reaches the recorder between its creation and now. -/
inductive SessionEvent where
  | heaterNames (names : List String)
  | status (update : StatusUpdate) (monoNs : ℕ) (forceContext : Bool)
  | trapq (queue : String) (batch : TrapqBatch) (monoNs : ℕ)
  | stepper (stepper : String) (batch : StepperBatch) (monoNs : ℕ)
  | reset

def Recorder.handle (r : Recorder) : SessionEvent → Recorder
  | .heaterNames names => r.setHeaterNames names
  | .status update monoNs forceContext => (r.onStatus update monoNs forceContext).1
  | .trapq queue batch monoNs => (r.onTrapq queue batch monoNs).1
  | .stepper stepper batch monoNs => (r.onStepper stepper batch monoNs).1
  | .reset => r.resetSession

def recorderAfter (es : List SessionEvent) : Recorder := es.foldl Recorder.handle Recorder.new

/-! ### What an update reports -/

def StatusUpdate.printState? (u : StatusUpdate) : Option PrintState :=
  u.printStats.read?.bind fun stats => stats.state.map PrintState.parse

def StatusUpdate.card (u : StatusUpdate) : VirtualSdcardStatus :=
  u.virtualSdcard.read?.getD {}

/-- A print is positively observed running. -/
def StatusUpdate.observesPrint (u : StatusUpdate) : Prop :=
  u.card.isActive = some true ∨ ∃ s, u.printState? = some s ∧ s.isInProgress = true

def StatusUpdate.reportsFinished (u : StatusUpdate) : Prop :=
  ∃ s, u.printState? = some s ∧ s.isFinished = true

/-- The newest report of a `virtual_sdcard` field, if there was one. -/
def latest {α : Type} (field : VirtualSdcardStatus → Option α) (es : List SessionEvent) :
    Option α :=
  es.reverse.findSome? fun
    | .status u _ _ => field u.card
    | _ => none

def mergedPath (es : List SessionEvent) : Option String :=
  (latest VirtualSdcardStatus.filePath es).join

def mergedPosition (es : List SessionEvent) : ℕ :=
  (latest VirtualSdcardStatus.filePosition es).getD 0

def mergedSize (es : List SessionEvent) : ℕ :=
  (latest VirtualSdcardStatus.fileSize es).getD 0

def isReset : SessionEvent → Bool
  | .reset => true
  | _ => false

/-- The events since the newest reset. -/
def session (es : List SessionEvent) : List SessionEvent :=
  (es.reverse.takeWhile fun e => !isReset e).reverse

/-- The newest `is_active` of the session; a session starts inactive. -/
def mergedActive (es : List SessionEvent) : Bool :=
  (latest VirtualSdcardStatus.isActive (session es)).getD false

/-- The current session has positively observed a print. -/
def PrintObserved (es : List SessionEvent) : Prop :=
  ∃ u monoNs force, .status u monoNs force ∈ session es ∧ u.observesPrint

def FileCloses (past : List SessionEvent) (u : StatusUpdate) : Prop :=
  u.card.filePath = some none ∧ mergedPath past ≠ none

/-- The file is closed, or read to its end. -/
def FileDone (es : List SessionEvent) : Prop :=
  mergedPath es = none ∨ (0 < mergedSize es ∧ mergedSize es ≤ mergedPosition es)

def StopsAtEnd (past : List SessionEvent) (u : StatusUpdate) (monoNs : ℕ) (force : Bool) :
    Prop :=
  u.card.isActive = some false ∧ mergedActive past = true ∧
    FileDone (past ++ [.status u monoNs force])

@[simp] theorem latest_nil {α : Type} (field : VirtualSdcardStatus → Option α) :
    latest field [] = none := rfl

theorem latest_status {α : Type} (field : VirtualSdcardStatus → Option α)
    (es : List SessionEvent) (u : StatusUpdate) (monoNs : ℕ) (force : Bool) :
    latest field (es ++ [.status u monoNs force]) = (field u.card).or (latest field es) := by
  simp only [latest, List.reverse_append, List.reverse_singleton, List.singleton_append,
    List.findSome?_cons]
  cases field u.card <;> rfl

theorem latest_other {α : Type} (field : VirtualSdcardStatus → Option α)
    (es : List SessionEvent) {e : SessionEvent} (he : ∀ u n f, e ≠ .status u n f) :
    latest field (es ++ [e]) = latest field es := by
  cases e with
  | status u n f => exact absurd rfl (he u n f)
  | _ => simp [latest]

@[simp] theorem session_reset (es : List SessionEvent) : session (es ++ [.reset]) = [] := by
  simp [session, isReset]

theorem session_snoc (es : List SessionEvent) {e : SessionEvent} (he : isReset e = false) :
    session (es ++ [e]) = session es ++ [e] := by
  simp [session, he]

/-! ### The five fields the verdict depends on -/

structure PrintView where
  filePath : Option String
  filePosition : ℕ
  fileSize : ℕ
  isActive : Bool
  printInProgress : Bool

def Recorder.view (r : Recorder) : PrintView :=
  { filePath := r.filePath
    filePosition := r.filePosition
    fileSize := r.fileSize
    isActive := r.isActive
    printInProgress := r.printInProgress }

@[simp] theorem mergeToolhead_view (r : Recorder) (u : StatusUpdate) :
    (r.mergeToolhead u).view = r.view := by
  unfold Recorder.mergeToolhead
  split
  · rfl
  · split <;> split <;> repeat' split
    all_goals rfl

@[simp] theorem observeReceiveSeq_view (r : Recorder) (u : StatusUpdate) (monoNs : ℕ) :
    (r.observeReceiveSeq u monoNs).1.view = r.view := by
  unfold Recorder.observeReceiveSeq
  split <;> rfl

@[simp] theorem mergeGcodeMove_view (r : Recorder) (u : StatusUpdate) :
    (r.mergeGcodeMove u).1.view = r.view := by
  unfold Recorder.mergeGcodeMove Recorder.mergeGcode
  split
  · split <;> rfl
  · rfl

@[simp] theorem mergeExcludeObject_view (r : Recorder) (u : StatusUpdate) :
    (r.mergeExcludeObject u).1.view = r.view := by
  unfold Recorder.mergeExcludeObject
  split <;> rfl

@[simp] theorem emitContext_view (r : Recorder) (monoNs : ℕ) (changed advanced : Bool) :
    (r.emitContext monoNs changed advanced).1.view = r.view := by
  unfold Recorder.emitContext
  dsimp only
  split
  · split <;> rfl
  · rfl

@[simp] theorem raisePrintTime_view (r : Recorder) (time : F64) :
    (r.raisePrintTime time).view = r.view := by
  unfold Recorder.raisePrintTime
  split <;> rfl

@[simp] theorem setHeaterNames_view (r : Recorder) (names : List String) :
    (r.setHeaterNames names).view = r.view := rfl

theorem foldl_raisePrintTime_view (r : Recorder) (segments : List Wal.TrapqSegment) :
    (segments.foldl (fun r segment => r.raisePrintTime segment.endTime) r).view = r.view := by
  induction segments generalizing r with
  | nil => rfl
  | cons segment segments ih => rw [List.foldl_cons, ih, raisePrintTime_view]

@[simp] theorem onTrapq_view (r : Recorder) (queue : String) (batch : TrapqBatch)
    (monoNs : ℕ) : (r.onTrapq queue batch monoNs).1.view = r.view := by
  unfold Recorder.onTrapq
  dsimp only [Recorder.noteRegime]
  split
  · exact foldl_raisePrintTime_view r _
  · exact foldl_raisePrintTime_view r _

@[simp] theorem onStepper_view (r : Recorder) (stepper : String) (batch : StepperBatch)
    (monoNs : ℕ) : (r.onStepper stepper batch monoNs).1.view = r.view :=
  raisePrintTime_view r batch.lastStepTime

/-! ### The detector as a function of the view -/

namespace PrintView

/-- Merging a reported print state. -/
def afterState (v : PrintView) (state : Option PrintState) : PrintView :=
  { v with
    printInProgress :=
      state.any PrintState.isInProgress || (v.printInProgress && !state.any PrintState.isFinished) }

/-- A finished state ends a print that was in progress. -/
def finishes (v : PrintView) (state : Option PrintState) : Bool :=
  state.any PrintState.isFinished && v.printInProgress

/-- The file closes under a print in progress. -/
def closes (v : PrintView) (card : VirtualSdcardStatus) : Bool :=
  decide (card.filePath = some none) && v.filePath.isSome && v.printInProgress

/-- The file is closed, or read to its end. -/
def done (v : PrintView) : Bool :=
  (decide (v.fileSize > 0) && decide (v.filePosition ≥ v.fileSize)) || v.filePath.isNone

/-- Merging a `virtual_sdcard` diff. -/
def afterCard (v : PrintView) (card : VirtualSdcardStatus) : PrintView :=
  { filePath := card.filePath.getD v.filePath
    filePosition := card.filePosition.getD v.filePosition
    fileSize := card.fileSize.getD v.fileSize
    isActive := card.isActive.getD v.isActive
    printInProgress := decide (card.isActive = some true) || (v.printInProgress && !v.closes card) }

/-- The reader goes idle with nothing left to read. -/
def stops (v : PrintView) (card : VirtualSdcardStatus) : Bool :=
  decide (card.isActive = some false) && v.isActive && (v.afterCard card).done

/-- Merging one update. -/
def observe (v : PrintView) (u : StatusUpdate) : PrintView :=
  (v.afterState u.printState?).afterCard u.card

/-- The verdict on one update. -/
def ends (v : PrintView) (u : StatusUpdate) : Bool :=
  v.finishes u.printState? ||
    ((v.afterState u.printState?).closes u.card || (v.afterState u.printState?).stops u.card)

end PrintView

theorem isInProgress_not_isFinished {s : PrintState} (h : s.isInProgress = true) :
    s.isFinished = false := by
  cases s <;> simp_all [PrintState.isInProgress, PrintState.isFinished]

theorem mergeLayers_view (r : Recorder) (info : Option PrintStatsInfo) :
    (r.mergeLayers info).1.view = r.view := by
  unfold Recorder.mergeLayers
  split
  · rfl
  · split <;> rfl

theorem afterState_none (v : PrintView) : v.afterState none = v := by
  simp [PrintView.afterState]

theorem mergePrintStats_spec (r : Recorder) (u : StatusUpdate) :
    (r.mergePrintStats u).1.view = r.view.afterState u.printState? ∧
      (r.mergePrintStats u).2.cleanShutdown = r.view.finishes u.printState? := by
  unfold Recorder.mergePrintStats StatusUpdate.printState?
  cases u.printStats.read? with
  | none => exact ⟨(afterState_none _).symm, rfl⟩
  | some stats =>
    have hlayers := mergeLayers_view r stats.info
    simp only [Option.bind_some]
    generalize r.mergeLayers stats.info = merged at hlayers ⊢
    cases stats.state with
    | none => exact ⟨hlayers.trans (afterState_none _).symm, rfl⟩
    | some text =>
      simp only [Option.map_some, ← hlayers]
      cases PrintState.parse text <;> cases hp : merged.1.printInProgress <;>
        simp [PrintState.isInProgress, PrintState.isFinished, PrintView.afterState,
          PrintView.finishes, Recorder.view, hp]

theorem mergeFilePath_spec (r : Recorder) (card : VirtualSdcardStatus) :
    (r.mergeFilePath card.filePath).1.view =
        { r.view with
          filePath := card.filePath.getD r.filePath
          printInProgress := r.printInProgress && !r.view.closes card } ∧
      (r.mergeFilePath card.filePath).2.cleanShutdown = r.view.closes card := by
  unfold Recorder.mergeFilePath PrintView.closes
  cases card.filePath with
  | none => simp [Recorder.view]
  | some path =>
    dsimp only
    split
    · next h => subst h; cases hf : r.filePath <;> simp [Recorder.view, hf]
    · split
      · next hclose => simp_all [Recorder.view]
      · next hopen =>
        cases path with
        | some _ => simp [Recorder.view]
        | none => cases hf : r.filePath <;> simp_all [Recorder.view]

theorem mergeIsActive_spec (r : Recorder) (isActive : Option Bool) :
    (r.mergeIsActive isActive).1.view =
        { r.view with
          isActive := isActive.getD r.isActive
          printInProgress := decide (isActive = some true) || r.printInProgress } ∧
      (r.mergeIsActive isActive).2 =
        (decide (isActive = some false) && r.isActive && r.view.done) := by
  unfold Recorder.mergeIsActive
  split
  · simp [Recorder.view]
  · simp [Recorder.view]
  · exact ⟨by simp [Recorder.view], by simp; rfl⟩

theorem mergeVirtualSdcard_spec (r : Recorder) (card : VirtualSdcardStatus) :
    (r.mergeVirtualSdcard card).1.view = r.view.afterCard card ∧
      (r.mergeVirtualSdcard card).2.cleanShutdown =
        (r.view.closes card || r.view.stops card) := by
  obtain ⟨hpath, hcloses⟩ := mergeFilePath_spec r card
  unfold Recorder.mergeVirtualSdcard
  generalize r.mergeFilePath card.filePath = merged at hpath hcloses ⊢
  simp only [Recorder.view, PrintView.mk.injEq] at hpath
  obtain ⟨hfile, hpos, hsize, hactive, hprogress⟩ := hpath
  dsimp only
  refine ⟨(mergeIsActive_spec _ _).1.trans ?_, ?_⟩
  · simp [Recorder.view, PrintView.afterCard, hfile, hpos, hsize, hactive, hprogress]
  · rw [(mergeIsActive_spec _ _).2, hcloses]
    simp only [Recorder.view, PrintView.stops, PrintView.done, PrintView.afterCard, hfile, hpos,
      hsize, hactive]
    rfl

@[simp] theorem mergeHeatersAndFans_view (r : Recorder) (u : StatusUpdate) :
    (r.mergeHeatersAndFans u).1.view = r.view := rfl

@[simp] theorem mergeTransforms_view (r : Recorder) (u : StatusUpdate) :
    (r.mergeTransforms u).1.view = r.view := rfl

@[simp] theorem noteRegime_view (r : Recorder) (monoNs : ℕ) :
    (r.noteRegime monoNs).1.view = r.view := rfl

theorem afterCard_empty (v : PrintView) : v.afterCard {} = v := by
  simp [PrintView.afterCard, PrintView.closes]

theorem mergeCard_spec (r : Recorder) (u : StatusUpdate) :
    (r.mergeCard u).1.view = r.view.afterCard u.card ∧
      (r.mergeCard u).2.cleanShutdown = (r.view.closes u.card || r.view.stops u.card) := by
  unfold Recorder.mergeCard StatusUpdate.card
  cases u.virtualSdcard.read? with
  | some vsd => exact mergeVirtualSdcard_spec r vsd
  | none => exact ⟨(afterCard_empty _).symm, by simp [PrintView.closes, PrintView.stops]⟩

/-- The recorder's verdict is the detector's, on the recorder's view. -/
theorem onStatus_detector (r : Recorder) (u : StatusUpdate) (monoNs : ℕ) (force : Bool) :
    (r.onStatus u monoNs force).1.view = r.view.observe u ∧
      (r.onStatus u monoNs force).2.cleanShutdown = r.view.ends u := by
  let before := (((r.mergeToolhead u).observeReceiveSeq u monoNs).1.mergeGcodeMove u).1
  have hbefore : before.view = r.view := by simp [before]
  have hview : (r.onStatus u monoNs force).1.view =
      ((before.mergePrintStats u).1.mergeCard u).1.view := by
    unfold Recorder.onStatus
    simp only [noteRegime_view, emitContext_view, mergeExcludeObject_view, mergeTransforms_view,
      mergeHeatersAndFans_view, before]
  have hclean : (r.onStatus u monoNs force).2.cleanShutdown =
      ((before.mergePrintStats u).2.cleanShutdown ||
        ((before.mergePrintStats u).1.mergeCard u).2.cleanShutdown) := rfl
  obtain ⟨hstate, hfinish⟩ := mergePrintStats_spec before u
  obtain ⟨hcard, hend⟩ := mergeCard_spec (before.mergePrintStats u).1 u
  rw [hview, hclean, hcard, hend, hstate, hfinish, hbefore]
  exact ⟨rfl, rfl⟩

/-- The view after any event. -/
def PrintView.handle (v : PrintView) : SessionEvent → PrintView
  | .status u _ _ => v.observe u
  | .reset => { v with isActive := false, printInProgress := false }
  | _ => v

theorem handle_view (r : Recorder) (e : SessionEvent) :
    (r.handle e).view = r.view.handle e := by
  cases e with
  | heaterNames names => exact setHeaterNames_view r names
  | status u monoNs force => exact (onStatus_detector r u monoNs force).1
  | trapq queue batch monoNs => exact onTrapq_view r queue batch monoNs
  | stepper stepper batch monoNs => exact onStepper_view r stepper batch monoNs
  | reset => rfl

/-! ### The view is the merged history -/

/-- The view agrees with everything reported, and its two session flags are only up when a
print has been observed. -/
structure Tracks (es : List SessionEvent) (v : PrintView) : Prop where
  path : v.filePath = mergedPath es
  position : v.filePosition = mergedPosition es
  size : v.fileSize = mergedSize es
  active : v.isActive = mergedActive es
  activeObserved : v.isActive = true → PrintObserved es
  inProgressObserved : v.printInProgress = true → PrintObserved es

theorem PrintObserved.snoc {es : List SessionEvent} (h : PrintObserved es) {e : SessionEvent}
    (he : isReset e = false) : PrintObserved (es ++ [e]) := by
  obtain ⟨u, monoNs, force, hmem, hu⟩ := h
  refine ⟨u, monoNs, force, ?_, hu⟩
  rw [session_snoc es he]
  exact List.mem_append_left _ hmem

theorem printObserved_now (es : List SessionEvent) {u : StatusUpdate} (monoNs : ℕ)
    (force : Bool) (hu : u.observesPrint) : PrintObserved (es ++ [.status u monoNs force]) := by
  refine ⟨u, monoNs, force, ?_, hu⟩
  rw [session_snoc es rfl]
  exact List.mem_append_right _ (List.mem_singleton_self _)

theorem any_isInProgress {u : StatusUpdate}
    (h : u.printState?.any PrintState.isInProgress = true) : u.observesPrint :=
  .inr (by simpa [Option.any_eq_true] using h)

theorem afterState_inProgress {v : PrintView} {u : StatusUpdate}
    (h : (v.afterState u.printState?).printInProgress = true) :
    u.observesPrint ∨ v.printInProgress = true := by
  simp only [PrintView.afterState, Bool.or_eq_true, Bool.and_eq_true] at h
  exact h.imp any_isInProgress And.left

theorem observe_printInProgress (v : PrintView) (u : StatusUpdate) :
    (v.observe u).printInProgress =
      (decide (u.card.isActive = some true) ||
        ((v.afterState u.printState?).printInProgress &&
          !(v.afterState u.printState?).closes u.card)) := rfl

theorem observe_inProgress {v : PrintView} {u : StatusUpdate}
    (h : (v.observe u).printInProgress = true) :
    u.observesPrint ∨ v.printInProgress = true := by
  simp only [observe_printInProgress, Bool.or_eq_true, Bool.and_eq_true,
    decide_eq_true_eq] at h
  rcases h with hactive | hstate
  · exact .inl (.inl hactive)
  · exact afterState_inProgress hstate.1

theorem tracks_status {es : List SessionEvent} {v : PrintView} (h : Tracks es v)
    (u : StatusUpdate) (monoNs : ℕ) (force : Bool) :
    Tracks (es ++ [.status u monoNs force]) (v.observe u) := by
  have hobserved : ∀ {p : Prop}, (u.observesPrint ∨ p) → (p → PrintObserved es) →
      PrintObserved (es ++ [.status u monoNs force]) := by
    intro p hor hp
    exact hor.elim (printObserved_now es monoNs force) fun hv => (hp hv).snoc rfl
  refine ⟨?_, ?_, ?_, ?_, ?_, ?_⟩
  · have hpath : (v.observe u).filePath = u.card.filePath.getD v.filePath := rfl
    rw [hpath, h.path, mergedPath, mergedPath, latest_status]
    cases u.card.filePath <;> rfl
  · have hposition : (v.observe u).filePosition = u.card.filePosition.getD v.filePosition := rfl
    rw [hposition, h.position, mergedPosition, mergedPosition, latest_status]
    cases u.card.filePosition <;> rfl
  · have hsize : (v.observe u).fileSize = u.card.fileSize.getD v.fileSize := rfl
    rw [hsize, h.size, mergedSize, mergedSize, latest_status]
    cases u.card.fileSize <;> rfl
  · have hactive : (v.observe u).isActive = u.card.isActive.getD v.isActive := rfl
    rw [hactive, h.active, mergedActive, mergedActive, session_snoc es rfl, latest_status]
    cases u.card.isActive <;> rfl
  · intro hactive
    refine hobserved (p := v.isActive = true) ?_ h.activeObserved
    have hcase : u.card.isActive.getD v.isActive = true := hactive
    cases hu : u.card.isActive with
    | none => exact .inr (by simpa [hu] using hcase)
    | some b => exact .inl (.inl (by simp_all))
  · exact fun hprogress => hobserved (observe_inProgress hprogress) h.inProgressObserved

theorem tracks_reset {es : List SessionEvent} {v : PrintView} (h : Tracks es v) :
    Tracks (es ++ [.reset]) { v with isActive := false, printInProgress := false } := by
  have hkeep : ∀ {α : Type} (field : VirtualSdcardStatus → Option α),
      latest field (es ++ [.reset]) = latest field es :=
    fun field => latest_other field es fun _ _ _ => SessionEvent.noConfusion
  refine ⟨?_, ?_, ?_, ?_, nofun, nofun⟩
  · rw [mergedPath, hkeep]; exact h.path
  · rw [mergedPosition, hkeep]; exact h.position
  · rw [mergedSize, hkeep]; exact h.size
  · simp [mergedActive]

theorem tracks_silent {es : List SessionEvent} {v : PrintView} (h : Tracks es v)
    {e : SessionEvent} (he : ∀ u n f, e ≠ .status u n f) (hreset : isReset e = false) :
    Tracks (es ++ [e]) v := by
  refine ⟨?_, ?_, ?_, ?_, ?_, ?_⟩
  · rw [mergedPath, latest_other _ _ he]; exact h.path
  · rw [mergedPosition, latest_other _ _ he]; exact h.position
  · rw [mergedSize, latest_other _ _ he]; exact h.size
  · rw [mergedActive, session_snoc es hreset, latest_other _ _ he]; exact h.active
  · exact fun hactive => (h.activeObserved hactive).snoc hreset
  · exact fun hprogress => (h.inProgressObserved hprogress).snoc hreset

theorem tracks_step {es : List SessionEvent} {v : PrintView} (h : Tracks es v)
    (e : SessionEvent) : Tracks (es ++ [e]) (v.handle e) := by
  cases e with
  | status u monoNs force => exact tracks_status h u monoNs force
  | reset => exact tracks_reset h
  | heaterNames names => exact tracks_silent h (fun _ _ _ => SessionEvent.noConfusion) rfl
  | trapq queue batch monoNs => exact tracks_silent h (fun _ _ _ => SessionEvent.noConfusion) rfl
  | stepper stepper batch monoNs =>
    exact tracks_silent h (fun _ _ _ => SessionEvent.noConfusion) rfl

/-- After any history the recorder holds exactly the merged view of it. -/
theorem recorderAfter_tracks (es : List SessionEvent) : Tracks es (recorderAfter es).view := by
  refine @Runs.foldl_history _ _ Recorder.handle (fun es r => Tracks es r.view) _ es ?_ ?_
  · exact ⟨rfl, rfl, rfl, rfl, nofun, nofun⟩
  · intro past r e h
    rw [handle_view]
    exact tracks_step h e

theorem recorderAfter_snoc (es : List SessionEvent) (e : SessionEvent) :
    recorderAfter (es ++ [e]) = (recorderAfter es).handle e := by
  simp [recorderAfter]

/-! ### The verdict -/

/-- The verdict on an update that arrives after `past`. -/
def reportsEnd (past : List SessionEvent) (u : StatusUpdate) (monoNs : ℕ) (force : Bool) : Bool :=
  ((recorderAfter past).onStatus u monoNs force).2.cleanShutdown

theorem reportsEnd_eq (past : List SessionEvent) (u : StatusUpdate) (monoNs : ℕ)
    (force : Bool) : reportsEnd past u monoNs force = (recorderAfter past).view.ends u :=
  (onStatus_detector _ u monoNs force).2

theorem fileDone_iff {es : List SessionEvent} {v : PrintView} (h : Tracks es v) :
    v.done = true ↔ FileDone es := by
  simp only [PrintView.done, FileDone, ← h.path, ← h.position, ← h.size, Bool.or_eq_true,
    Bool.and_eq_true, decide_eq_true_eq, Option.isNone_iff_eq_none, gt_iff_lt, ge_iff_le]
  exact or_comm

/-- What a true verdict rests on: a print observed in this session, and one of the three
signals on the update itself. -/
theorem ends_sound {past : List SessionEvent} {v : PrintView} (h : Tracks past v)
    (u : StatusUpdate) (monoNs : ℕ) (force : Bool) (hends : v.ends u = true) :
    PrintObserved (past ++ [.status u monoNs force]) ∧
      (u.reportsFinished ∨ FileCloses past u ∨ StopsAtEnd past u monoNs force) := by
  simp only [PrintView.ends, Bool.or_eq_true] at hends
  rcases hends with hfinish | hclose | hstop
  · simp only [PrintView.finishes, Bool.and_eq_true] at hfinish
    refine ⟨(h.inProgressObserved hfinish.2).snoc rfl, .inl ?_⟩
    simpa [StatusUpdate.reportsFinished, Option.any_eq_true] using hfinish.1
  · simp only [PrintView.closes, Bool.and_eq_true, decide_eq_true_eq] at hclose
    obtain ⟨⟨hnull, hopen⟩, hprogress⟩ := hclose
    refine ⟨?_, .inr (.inl ⟨hnull, ?_⟩)⟩
    · exact (afterState_inProgress hprogress).elim (printObserved_now past monoNs force)
        fun hv => (h.inProgressObserved hv).snoc rfl
    · rw [← h.path]
      exact Option.isSome_iff_ne_none.mp hopen
  · simp only [PrintView.stops, Bool.and_eq_true, decide_eq_true_eq] at hstop
    obtain ⟨⟨hfalse, hactive⟩, hdone⟩ := hstop
    refine ⟨(h.activeObserved hactive).snoc rfl, .inr (.inr ⟨hfalse, ?_, ?_⟩)⟩
    · rw [← h.active]; exact hactive
    · exact (fileDone_iff (tracks_status h u monoNs force)).mp hdone

/-- A positive observation leaves the gate open, unless that very update reports an end. -/
theorem observesPrint_opens (v : PrintView) {u : StatusUpdate} (hu : u.observesPrint) :
    v.ends u = true ∨ (v.observe u).printInProgress = true := by
  by_cases hclose : (v.afterState u.printState?).closes u.card = true
  · exact .inl (by simp [PrintView.ends, hclose])
  · right
    rw [observe_printInProgress]
    rcases hu with hactive | ⟨s, hs, hprogress⟩
    · simp [hactive]
    · have hopen : (v.afterState u.printState?).printInProgress = true := by
        simp [PrintView.afterState, hs, hprogress]
      simp [hopen, hclose]

/-- Only a reported end or a reset closes an open gate. -/
theorem handle_keeps_open {v : PrintView} (hv : v.printInProgress = true) {e : SessionEvent}
    (he : isReset e = false) :
    (∃ u monoNs force, e = .status u monoNs force ∧ v.ends u = true) ∨
      (v.handle e).printInProgress = true := by
  cases e with
  | reset => cases he
  | heaterNames names => exact .inr hv
  | trapq queue batch monoNs => exact .inr hv
  | stepper stepper batch monoNs => exact .inr hv
  | status u monoNs force =>
    by_cases hends : v.ends u = true
    · exact .inl ⟨u, monoNs, force, rfl, hends⟩
    · right
      simp only [PrintView.ends, PrintView.finishes, hv, Bool.and_true, Bool.or_eq_true,
        not_or, Bool.not_eq_true] at hends
      have hopen : (v.afterState u.printState?).printInProgress = true := by
        simp [PrintView.afterState, hv, hends.1]
      rw [PrintView.handle, observe_printInProgress]
      simp [hopen, hends.2.1]

/-- With the gate open, a finished state or the file closing is reported. -/
theorem open_gate_reports {past : List SessionEvent} {v : PrintView} (h : Tracks past v)
    (hv : v.printInProgress = true) {u : StatusUpdate}
    (hu : u.reportsFinished ∨ FileCloses past u) : v.ends u = true := by
  by_cases hfinish : u.printState?.any PrintState.isFinished = true
  · simp [PrintView.ends, PrintView.finishes, hfinish, hv]
  · rcases hu with ⟨s, hs, hfinished⟩ | ⟨hnull, hopen⟩
    · exact absurd (by simp [hs, hfinished]) hfinish
    · rw [← h.path, ← Option.isSome_iff_ne_none] at hopen
      simp [PrintView.ends, PrintView.closes, hnull, PrintView.afterState, hopen, hv, hfinish]

/-- An end that the gate is open for is reported, by it or by an update on the way. -/
theorem open_gate_run {past : List SessionEvent} (mid : List SessionEvent)
    (hmid : ∀ e ∈ mid, isReset e = false)
    (hopen : (recorderAfter past).view.printInProgress = true) {last : StatusUpdate}
    (monoNs : ℕ) (force : Bool) (hlast : last.reportsFinished ∨ FileCloses (past ++ mid) last) :
    ∃ before u n f after, mid ++ [.status last monoNs force] = before ++ .status u n f :: after ∧
      reportsEnd (past ++ before) u n f = true := by
  induction mid generalizing past with
  | nil =>
    refine ⟨[], last, monoNs, force, [], rfl, ?_⟩
    rw [reportsEnd_eq, List.append_nil]
    rw [List.append_nil] at hlast
    exact open_gate_reports (recorderAfter_tracks past) hopen hlast
  | cons e mid ih =>
    rcases handle_keeps_open hopen (hmid e List.mem_cons_self) with ⟨u, n, f, rfl, hends⟩ | hkeeps
    · refine ⟨[], u, n, f, mid ++ [.status last monoNs force], rfl, ?_⟩
      rw [reportsEnd_eq, List.append_nil]
      exact hends
    · have hnext : (recorderAfter (past ++ [e])).view.printInProgress = true := by
        rw [recorderAfter_snoc, handle_view]
        exact hkeeps
      obtain ⟨before, u, n, f, after, hsplit, hreport⟩ :=
        ih (fun e' he' => hmid e' (List.mem_cons_of_mem _ he')) hnext (by simpa using hlast)
      refine ⟨e :: before, u, n, f, after, by simp [hsplit], ?_⟩
      simpa using hreport

/-- The detector is sound and complete over every history: a verdict rests on a print
observed since the newest reset and on a signal of the update itself; an update that
pauses or fails without such a signal never causes one; and an observed print that later
finishes, or loses its file, in the same session is reported in between. -/
theorem cleanShutdown_sound_complete :
    (∀ past u monoNs force, reportsEnd past u monoNs force = true →
      PrintObserved (past ++ [.status u monoNs force]) ∧
        (u.reportsFinished ∨ FileCloses past u ∨ StopsAtEnd past u monoNs force)) ∧
    (∀ past u monoNs force,
      (∀ s, u.printState? = some s → s = .paused ∨ s = .error) →
      ¬ FileCloses past u →
      (u.card.isActive = some false → ¬ FileDone (past ++ [.status u monoNs force])) →
      reportsEnd past u monoNs force = false) ∧
    (∀ past first n f mid last monoNs force, first.observesPrint →
      (∀ e ∈ mid, isReset e = false) →
      last.reportsFinished ∨ FileCloses (past ++ .status first n f :: mid) last →
      ∃ before u n' f' after,
        .status first n f :: mid ++ [.status last monoNs force] =
          before ++ .status u n' f' :: after ∧
        reportsEnd (past ++ before) u n' f' = true) := by
  refine ⟨?_, ?_, ?_⟩
  · intro past u monoNs force hreport
    rw [reportsEnd_eq] at hreport
    exact ends_sound (recorderAfter_tracks past) u monoNs force hreport
  · intro past u monoNs force hstate hpath hidle
    rw [reportsEnd_eq, ← Bool.not_eq_true]
    intro hends
    rcases (ends_sound (recorderAfter_tracks past) u monoNs force hends).2 with
      ⟨s, hs, hfinished⟩ | hclose | hstop
    · rcases hstate s hs with rfl | rfl <;> cases hfinished
    · exact hpath hclose
    · exact hidle hstop.1 hstop.2.2
  · intro past first n f mid last monoNs force hfirst hmid hlast
    rcases observesPrint_opens (recorderAfter past).view hfirst with hends | hopen
    · refine ⟨[], first, n, f, mid ++ [.status last monoNs force], rfl, ?_⟩
      rw [reportsEnd_eq, List.append_nil]
      exact hends
    · have hgate : (recorderAfter (past ++ [.status first n f])).view.printInProgress = true := by
        rw [recorderAfter_snoc, handle_view]
        exact hopen
      obtain ⟨before, u, n', f', after, hsplit, hreport⟩ :=
        open_gate_run mid hmid hgate monoNs force (by simpa using hlast)
      refine ⟨.status first n f :: before, u, n', f', after, by simp [hsplit], ?_⟩
      simpa using hreport

/-- A pause followed by a cancel, the file closing in an update of its own. -/
theorem cleanShutdown_sound_complete_cancel :
    let printing : StatusUpdate :=
      { eventtime := 0
        printStats := .present { state := some "printing" }
        virtualSdcard := .present { filePath := some (some "part.gcode"), isActive := some true } }
    let paused : StatusUpdate :=
      { eventtime := 1
        printStats := .present { state := some "paused" }
        virtualSdcard := .present { isActive := some false } }
    let closed : StatusUpdate :=
      { eventtime := 2, virtualSdcard := .present { filePath := some none } }
    ∃ before u n f after,
      [.status printing 0 true, .status paused 1 false, .status closed 2 false] =
        before ++ .status u n f :: after ∧ reportsEnd before u n f = true := by
  intro printing paused closed
  have hreport := cleanShutdown_sound_complete.2.2 [] printing 0 true [.status paused 1 false]
    closed 2 false (.inl rfl) (by simp [isReset])
    (.inr ⟨rfl, by simp [mergedPath, latest, printing, paused, StatusUpdate.card, Decoded.read?]⟩)
  exact hreport

end DeadReckoning.Recording
