import DeadReckoning.Reconstruct.Candidates
import DeadReckoning.Reconstruct.FileWindow
import DeadReckoning.Reconstruct.Narrowing

/-! An extension that ends earlier contributes less. -/
set_option linter.unusedSectionVars false

namespace DeadReckoning.Reconstruct

open Checks (ensure_eq_ok)
open Gcode (Arithmetic CaseMapping Contiguous Line SimConfig SimLoop lineIter offsetMax saturatingAdd
  simulate stopOf)
open Wal (Context)

section Simulation

variable {K : Type} [Field K] [LinearOrder K] {arith : Arithmetic K} {sim : SimConfig K}
  {short long : K}

/-- A shorter simulation is the beginning of a longer one. -/
theorem run_shorter (hle : short ≤ long) (lines : List Line) (loop : SimLoop K) :
    (loop.run arith { sim with maxDuration := some short } lines).linesConsumed ≤
        (loop.run arith { sim with maxDuration := some long } lines).linesConsumed ∧
      (loop.run arith { sim with maxDuration := some short } lines).planned <+:
        (loop.run arith { sim with maxDuration := some long } lines).planned := by
  induction lines generalizing loop with
  | nil => exact ⟨le_rfl, List.prefix_rfl⟩
  | cons line lines ih =>
    unfold SimLoop.run
    dsimp only
    split
    · exact ⟨le_rfl, List.prefix_rfl⟩
    · cases happly : loop.state.apply arith line with
      | mk result state =>
        cases result with
        | error error => exact ⟨le_rfl, List.prefix_rfl⟩
        | ok outcome =>
          dsimp only
          have hsame : loop.consume arith { sim with maxDuration := some short } line outcome.moves
              state = loop.consume arith { sim with maxDuration := some long } line outcome.moves
              state := rfl
          rw [hsame]
          set next := loop.consume arith { sim with maxDuration := some long } line outcome.moves state
          rw [Option.any_some, Option.any_some]
          by_cases hshort : short ≤ next.lowerBoundTime
          · -- The shorter one stops here; the longer one may go on.
            rw [if_pos (decide_eq_true hshort)]
            split
            · exact ⟨le_rfl, List.prefix_rfl⟩
            · exact run_extends lines next
          · have hlong : ¬ long ≤ next.lowerBoundTime := fun h => hshort (hle.trans h)
            rw [if_neg (by simpa using hshort), if_neg (by simpa using hlong)]
            exact ih next

theorem simulate_shorter (arith : Arithmetic K) (sim : SimConfig K) (hle : short ≤ long) (state : Gcode.GcodeState K) (lines : List Line) :
    (simulate arith { sim with maxDuration := some short } state lines).linesConsumed ≤
      (simulate arith { sim with maxDuration := some long } state lines).linesConsumed :=
  (run_shorter hle lines (SimLoop.start state)).1

/-- The simulation goes on where the lines that it consumed end. -/
theorem simulate_resume (config : SimConfig K) (state : Gcode.GcodeState K) (lines : List Line)
    (offset : ℕ) : (simulate arith config state lines).resumeOffset.getD offset =
      stopOf offset (lines.take (simulate arith config state lines).linesConsumed) := by
  obtain ⟨-, hresume⟩ := simulate_consumed arith config state lines
  have hsame : (simulate arith config state lines).resumeOffset =
      (lines.take (simulate arith config state lines).linesConsumed).getLast?.map (·.span.stop) :=
    hresume
  rw [hsame]
  rfl

end Simulation

section Planning

variable {K : Type} [Field K] [LinearOrder K] {arith : Arithmetic K}

theorem timeMoves_planned {t : K} {kmoves : List (Gcode.KMove K)}
    {moves : List (Gcode.PlannedMove K)} {plans : List (Gcode.SpeedPlan K)}
    (hkmoves : kmoves.length = moves.length) (hplans : plans.length = moves.length) :
    (Gcode.timeMoves arith t kmoves moves plans).1.map (·.planned) = moves := by
  induction moves generalizing t kmoves plans with
  | nil =>
    obtain rfl := List.length_eq_zero_iff.mp hkmoves
    rfl
  | cons m moves ih =>
    cases kmoves with
    | nil => cases hkmoves
    | cons km kmoves =>
      cases plans with
      | nil => cases hplans
      | cons plan plans =>
        rw [Gcode.timeMoves]
        exact congrArg (m :: ·) (ih (Nat.succ.inj hkmoves) (Nat.succ.inj hplans))

/-- The moves with their times are the moves that were planned. -/
theorem planTimes_planned (config : SimConfig K) (moves : List (Gcode.PlannedMove K)) :
    (Gcode.planTimes arith config moves).1.map (·.planned) = moves := by
  have hkmoves := Gcode.kinematics_length arith config none moves
  exact timeMoves_planned hkmoves ((Gcode.speedPlans_length _).trans hkmoves)

/-- The box and the filament with one more move. -/
def growBy (arith : Arithmetic K) (e : XyRegion K × Interval K) (m : Gcode.PlannedMove K) :
    XyRegion K × Interval K :=
  let stop := m.kinematicEnd arith
  ((e.1.expand m.start.x m.start.y).expand stop.x stop.y, (e.2.expand m.start.e).expand stop.e)

theorem extensionXyE_eq (state : Gcode.GcodeState K) (moves : List (Gcode.TimedMove K))
    (d : Degradation) :
    ((extensionXyE arith state moves d).1, (extensionXyE arith state moves d).2.1) =
      (moves.map (·.planned)).foldl (growBy arith)
        (⟨.point state.lastPosition.x, .point state.lastPosition.y⟩, .point state.lastPosition.e) := by
  rw [List.foldl_map]
  rfl

theorem growBy_grows (moves : List (Gcode.PlannedMove K)) (e : XyRegion K × Interval K) :
    e.1 ⊆ (moves.foldl (growBy arith) e).1 ∧ e.2 ⊆ (moves.foldl (growBy arith) e).2 := by
  induction moves generalizing e with
  | nil => exact ⟨XyRegion.subset_refl _, Interval.subset_refl _⟩
  | cons m moves ih =>
    obtain ⟨hxy, he⟩ := ih (growBy arith e m)
    have hbox : e.1 ⊆ (growBy arith e m).1 :=
      XyRegion.subset_trans XyRegion.subset_expand XyRegion.subset_expand
    have hfilament : e.2 ⊆ (growBy arith e m).2 :=
      Interval.subset_trans Interval.subset_expand Interval.subset_expand
    exact ⟨XyRegion.subset_trans hbox hxy, Interval.subset_trans hfilament he⟩

/-- The first moves fill a smaller box, and less filament. -/
theorem growBy_shorter (arith : Arithmetic K) {moves' moves : List (Gcode.PlannedMove K)} (h : moves' <+: moves)
    (e : XyRegion K × Interval K) :
    (moves'.foldl (growBy arith) e).1 ⊆ (moves.foldl (growBy arith) e).1 ∧
      (moves'.foldl (growBy arith) e).2 ⊆ (moves.foldl (growBy arith) e).2 := by
  obtain ⟨rest, rfl⟩ := h
  rw [List.foldl_append]
  exact growBy_grows rest _

end Planning

section Replay

variable {K : Type} [Field K] [LinearOrder K] {arith : Arithmetic K}

theorem replayE_grows (lines : List Line) (state : Gcode.GcodeState K) (e : Interval K)
    (shifted : Bool) : e ⊆ (replayE arith state e shifted lines).1 := by
  induction lines generalizing state e shifted with
  | nil => exact Interval.subset_refl e
  | cons line lines ih =>
    unfold replayE
    split
    · exact Interval.subset_refl e
    · exact Interval.subset_trans Interval.subset_expand (ih _ _ _)

theorem replayE_shorter {lines' lines : List Line} (h : lines' <+: lines)
    (state : Gcode.GcodeState K) (e : Interval K) (shifted : Bool) :
    (replayE arith state e shifted lines').1 ⊆ (replayE arith state e shifted lines).1 := by
  induction lines generalizing lines' state e shifted with
  | nil =>
    obtain rfl := List.prefix_nil.mp h
    exact Interval.subset_refl _
  | cons line lines ih =>
    cases lines' with
    | nil => exact replayE_grows _ _ _ _
    | cons line' lines' =>
      obtain ⟨rfl, hrest⟩ := List.cons_prefix_cons.mp h
      unfold replayE
      split
      · exact Interval.subset_refl e
      · exact ih hrest _ _ _

/-- Without a budget every event is collected. -/
theorem collectEvents_all (events more : List (Gcode.ZEvent K)) :
    Gcode.collectEvents ⟨none, none⟩ events more = (events ++ more, true) := by
  induction more generalizing events with
  | nil => rw [List.append_nil]; rfl
  | cons event more ih =>
    rw [Gcode.collectEvents, Option.any_none]
    simp only [Bool.false_eq_true, if_false]
    rw [ih, List.append_assoc, List.singleton_append]

theorem scanZEventsFrom_grows (lines : List Line) (state : Gcode.GcodeState K)
    (scan : Gcode.ZScan K) :
    scan.events <+: (Gcode.scanZEventsFrom arith ⟨none, none⟩ state scan lines).events := by
  induction lines generalizing state scan with
  | nil => exact List.prefix_rfl
  | cons line lines ih =>
    unfold Gcode.scanZEventsFrom
    rw [if_neg (by simp)]
    split
    · exact List.prefix_rfl
    · rename_i outcome next happly
      rw [collectEvents_all]
      dsimp only
      rw [if_pos rfl]
      have hfirst := List.prefix_append scan.events
        (outcome.moves.filterMap (Gcode.zEventOf arith))
      exact hfirst.trans (ih next
        ⟨scan.events ++ outcome.moves.filterMap (Gcode.zEventOf arith), scan.stop,
          scan.linesConsumed + 1⟩)

/-- The events of the first lines come first. -/
theorem scanZEventsFrom_shorter (arith : Arithmetic K) {lines' lines : List Line} (h : lines' <+: lines)
    (state : Gcode.GcodeState K) (scan : Gcode.ZScan K) :
    (Gcode.scanZEventsFrom arith ⟨none, none⟩ state scan lines').events <+:
      (Gcode.scanZEventsFrom arith ⟨none, none⟩ state scan lines).events := by
  induction lines generalizing lines' state scan with
  | nil =>
    obtain rfl := List.prefix_nil.mp h
    exact List.prefix_rfl
  | cons line lines ih =>
    cases lines' with
    | nil => exact scanZEventsFrom_grows _ _ _
    | cons line' lines' =>
      obtain ⟨rfl, hrest⟩ := List.cons_prefix_cons.mp h
      unfold Gcode.scanZEventsFrom
      rw [if_neg (by simp), if_neg (by simp)]
      split
      · exact List.prefix_rfl
      · rw [collectEvents_all]
        dsimp only
        rw [if_pos rfl, if_pos rfl]
        exact ih hrest _ _

theorem extensionZCandidates_shorter {lines' lines : List Line} (h : lines' <+: lines)
    (state : Gcode.GcodeState K) (d' d : Degradation) :
    ∀ c ∈ (extensionZCandidates arith state lines' d').1,
      c ∈ (extensionZCandidates arith state lines d).1 := by
  have hevents := scanZEventsFrom_shorter arith h state ⟨[], .endOfInput, 0⟩
  intro c hc
  rcases List.mem_cons.mp hc with rfl | hc
  · exact List.mem_cons_self
  · obtain ⟨event, hevent, hc⟩ := List.mem_flatMap.mp hc
    exact List.mem_cons_of_mem _ (List.mem_flatMap.mpr ⟨event, hevents.mem hevent, hc⟩)

end Replay

section Extension

variable {K : Type} [Field K] [LinearOrder K] {arith : Arithmetic K} {cases : CaseMapping}
  {timeline : WalTimeline K} {window : StopWindow K} {anchor : Context} {config : ReconstructConfig K}
  {markers : List Marker}

/-- What the extension contributes lies in what another one contributes. -/
structure ExtensionResult.Inside (r' r : ExtensionResult K) (frontier : ℕ) : Prop where
  z : ∀ c ∈ r'.z, c ∈ r.z
  xy : WithinXy r'.xy r.xy
  eInternal : Within r'.eInternal r.eInternal
  eFile : Within r'.eFile r.eFile
  resume : r'.summary.resumeOffset.getD frontier ≤ r.summary.resumeOffset.getD frontier
  cap : ∀ c ∈ r.summary.frontierCap, ∃ c' ∈ r'.summary.frontierCap, c' ≤ c

theorem collectLines_contiguous {tail : FileTail} {frontier : ℕ} {maxLines : Option ℕ}
    (h : frontier ≤ tail.tailEnd) : Contiguous frontier (collectLines cases tail frontier maxLines) := by
  have hsame : saturatingAdd frontier 0 = frontier := by
    have hmax : tail.tailEnd ≤ offsetMax := min_le_right _ _
    exact min_eq_left (h.trans hmax)
  have hall : Contiguous frontier (lineIter cases (tail.bytes.drop (frontier - tail.baseOffset))
      frontier) := by
    have hlines := Gcode.linesFrom_contiguous cases frontier 0 []
      (tail.bytes.drop (frontier - tail.baseOffset))
    rwa [hsame] at hlines
  unfold collectLines
  cases maxLines with
  | none => exact hall
  | some cap => exact hall.take cap

/-- The end of a line is where the lines up to it end. -/
theorem stopOf_take_succ {lines : List Line} {n : ℕ} {line : Line} (offset : ℕ)
    (h : lines[n]? = some line) : stopOf offset (lines.take (n + 1)) = line.span.stop := by
  unfold stopOf
  rw [List.take_add_one, h, Option.toList_some, List.getLast?_concat]
  rfl

/-- With more lines behind it the machine is farther, one line of slack included. -/
theorem reach_mono {lines : List Line} {frontier tailEnd n' n : ℕ} (hlines : Contiguous frontier lines)
    (hle : n' ≤ n) :
    min (max (max (stopOf frontier (lines.take n')) frontier)
        ((lines[n']?.map (·.span.stop)).getD tailEnd)) tailEnd ≤
      min (max (max (stopOf frontier (lines.take n)) frontier)
        ((lines[n]?.map (·.span.stop)).getD tailEnd)) tailEnd := by
  cases hnext : lines[n]? with
  | none => exact (min_le_right _ _).trans (le_min (le_max_right _ _) le_rfl)
  | some line =>
    obtain ⟨hn, -⟩ := List.getElem?_eq_some_iff.mp hnext
    have hnext' := List.getElem?_eq_getElem (hle.trans_lt hn)
    have hslack := hlines.stopOf_mono (Nat.succ_le_succ hle)
    rw [stopOf_take_succ frontier hnext, stopOf_take_succ frontier hnext'] at hslack
    rw [hnext']
    have hraw := hlines.stopOf_mono hle
    exact min_le_min_right _ (max_le_max (max_le_max_right _ hraw) hslack)

/-- With less time the machine gets less far. -/
theorem frontierCapOffset_shorter {timeline' : WalTimeline K} {anchorPt : Option K}
    {state : Gcode.GcodeState K} {lines : List Line} {frontier tailEnd cap : ℕ} {gap : Bool}
    (hlines : Contiguous frontier lines)
    (hspacing : heartbeatTailSpacingNs arith timeline' config =
      heartbeatTailSpacingNs arith timeline config)
    (hdt : ∀ pt spacing, frontierDt timeline' window pt config spacing ≤
      frontierDt timeline window pt config spacing)
    (h : frontierCapOffset arith timeline window anchorPt state lines frontier tailEnd config gap =
      some cap) :
    ∃ cap', frontierCapOffset arith timeline' window anchorPt state lines frontier tailEnd config
      gap = some cap' ∧ cap' ≤ cap := by
  unfold frontierCapOffset at h ⊢
  rw [hspacing]
  simp only [Option.bind_eq_bind, Option.bind_eq_some_iff, Option.pure_def, Option.some.injEq] at h
  obtain ⟨pt, rfl, _, hgap, spacing, hsome, rfl⟩ := h
  rw [hsome]
  refine ⟨_, by rw [Option.bind_eq_bind, Option.bind_some, hgap]; rfl, ?_⟩
  dsimp only
  have hle := simulate_shorter arith config.sim (hdt pt spacing) state lines
  rw [simulate_resume, simulate_resume]
  exact reach_mono hlines hle

/-! ### The contribution of the extension -/

@[simp] theorem extensionZCandidates_gap (state : Gcode.GcodeState K) (consumed : List Line)
    (d : Degradation) :
    (extensionZCandidates arith state consumed d).2.observationGap = d.observationGap := by
  unfold extensionZCandidates
  dsimp only
  split <;> rfl

@[simp] theorem extensionXyE_gap (state : Gcode.GcodeState K) (moves : List (Gcode.TimedMove K))
    (d : Degradation) :
    (extensionXyE arith state moves d).2.2.observationGap = d.observationGap := by
  unfold extensionXyE
  dsimp only
  split <;> rfl

@[simp] theorem extensionFileE_gap (state : Gcode.GcodeState K) (consumed : List Line)
    (d : Degradation) :
    (extensionFileE arith state consumed d).2.observationGap = d.observationGap := by
  unfold extensionFileE
  dsimp only
  split <;> rfl

@[simp] theorem extensionStartTime_gap (anchorPt : Option K) (d : Degradation) :
    (extensionStartTime timeline window anchor anchorPt config d).2.observationGap =
      d.observationGap := by
  unfold extensionStartTime
  dsimp only
  split <;> rfl

theorem extensionStartTime_fst (anchorPt : Option K) (d : Degradation) :
    (extensionStartTime timeline window anchor anchorPt config d).1 =
      (extensionStartTime timeline window anchor anchorPt config .none).1 := by
  unfold extensionStartTime
  dsimp only
  split <;> rfl

/-- How far the extension goes. -/
def extensionSpan (timeline : WalTimeline K) (window : StopWindow K) (anchor : Context)
    (walEvalEnd : K) (config : ReconstructConfig K) : K :=
  config.extensionHorizon + max (walEvalEnd - (extensionStartTime timeline window anchor
    (window.monoNsToPrintTime anchor.monoNs) config .none).1) 0

/-- What the extension contributes, from the lines that it consumed. -/
structure Contribution (arith : Arithmetic K) (timeline : WalTimeline K) (window : StopWindow K)
    (anchor : Context) (config : ReconstructConfig K) (state : Gcode.GcodeState K)
    (lines : List Line) (frontier tailEnd : ℕ) (gap : Bool) (walEvalEnd : K)
    (r : ExtensionResult K) : Prop where
  simulated : ∃ sim : Gcode.Simulation K, sim = simulate arith { config.sim with
      maxDuration := some (extensionSpan timeline window anchor walEvalEnd config) } state lines ∧
    r.z = (extensionZCandidates arith state (lines.take sim.linesConsumed) .none).1 ∧
    r.xy = some (extensionXyE arith state sim.moves .none).1 ∧
    r.eInternal = some (extensionXyE arith state sim.moves .none).2.1 ∧
    r.eFile = some (extensionFileE arith state (lines.take sim.linesConsumed) .none).1 ∧
    r.summary.resumeOffset = sim.resumeOffset
  cap : r.summary.frontierCap = frontierCapOffset arith timeline window
    (window.monoNsToPrintTime anchor.monoNs) state lines frontier tailEnd config gap

theorem extendFrom_contribution (arith : Arithmetic K) (cases : CaseMapping)
    (timeline : WalTimeline K) (anchor : Context) (frontier : ℕ) (state : Gcode.GcodeState K)
    (window : StopWindow K) (walEvalEnd : K) (tail : FileTail) (config : ReconstructConfig K)
    (d : Degradation) :
    Contribution arith timeline window anchor config state
      (collectLines cases tail frontier config.sim.maxLines) frontier tail.tailEnd d.observationGap
      walEvalEnd
      (extendFrom arith cases timeline anchor frontier state window walEvalEnd tail config d).1 := by
  unfold extendFrom
  dsimp only
  rw [extensionStartTime_fst]
  refine ⟨⟨_, rfl, rfl, rfl, rfl, rfl, rfl⟩, ?_⟩
  dsimp only
  congr 1
  rw [extensionFileE_gap, extensionXyE_gap, extensionZCandidates_gap]
  dsimp only
  rw [extensionStartTime_gap]
  split <;> rfl

theorem Contribution.inside {timeline' : WalTimeline K} {frontier tailEnd : ℕ}
    {state : Gcode.GcodeState K} {walEvalEnd' walEvalEnd : K} {lines : List Line} {gap : Bool}
    {r' r : ExtensionResult K}
    (h' : Contribution arith timeline' window anchor config state lines frontier tailEnd gap
      walEvalEnd' r')
    (h : Contribution arith timeline window anchor config state lines frontier tailEnd gap
      walEvalEnd r)
    (hlines : Contiguous frontier lines)
    (hspan : extensionSpan timeline' window anchor walEvalEnd' config ≤
      extensionSpan timeline window anchor walEvalEnd config)
    (hspacing : heartbeatTailSpacingNs arith timeline' config =
      heartbeatTailSpacingNs arith timeline config)
    (hdt : ∀ pt spacing, frontierDt timeline' window pt config spacing ≤
      frontierDt timeline window pt config spacing) : r'.Inside r frontier := by
  obtain ⟨sim', hsim', hz', hxy', hinternal', hfile', hresume'⟩ := h'.simulated
  obtain ⟨sim, hsim, hz, hxy, hinternal, hfile, hresume⟩ := h.simulated
  have hle : sim'.linesConsumed ≤ sim.linesConsumed := by
    rw [hsim', hsim]
    exact simulate_shorter arith config.sim hspan state lines
  have hconsumed : lines.take sim'.linesConsumed <+: lines.take sim.linesConsumed :=
    List.take_prefix_take_left hle
  have hmoves : sim'.moves.map (·.planned) <+: sim.moves.map (·.planned) := by
    rw [hsim', hsim]
    unfold simulate
    dsimp only
    rw [planTimes_planned, planTimes_planned]
    exact (run_shorter hspan lines (SimLoop.start state)).2
  have hgrown := growBy_shorter arith hmoves
    (⟨.point state.lastPosition.x, .point state.lastPosition.y⟩, .point state.lastPosition.e)
  rw [← extensionXyE_eq state sim'.moves .none, ← extensionXyE_eq state sim.moves .none] at hgrown
  refine ⟨?_, ?_, ?_, ?_, ?_, ?_⟩
  · rw [hz', hz]
    exact extensionZCandidates_shorter hconsumed state _ _
  · rw [hxy', hxy, withinXy_some]
    exact hgrown.1
  · rw [hinternal', hinternal, within_some]
    exact hgrown.2
  · rw [hfile', hfile, within_some]
    exact replayE_shorter hconsumed state _ _
  · rw [hresume', hresume, hsim', hsim, simulate_resume, simulate_resume, ← hsim', ← hsim]
    exact hlines.stopOf_mono hle
  · rw [h.cap, h'.cap]
    exact fun c hc => frontierCapOffset_shorter hlines hspacing hdt hc

end Extension

section FileFrame

variable {K : Type} [Field K] [LinearOrder K] {arith : Arithmetic K} {cases : CaseMapping}
  {config : ReconstructConfig K} {stop' stop : ℕ}

theorem replayLines_grows (lines : List Line) (state : Gcode.GcodeState K) (e : Interval K)
    (position : ℕ) (budget : Option ℕ) :
    e ⊆ (replayLines arith stop state e position budget lines).1 := by
  induction lines generalizing state e position budget with
  | nil => exact Interval.subset_refl e
  | cons line lines ih =>
    unfold replayLines
    split
    · exact Interval.subset_refl e
    · split
      · exact Interval.subset_refl e
      · split
        · exact Interval.subset_refl e
        · exact Interval.subset_trans Interval.subset_expand (ih _ _ _ _)

/-- The replay came to the offset, or to the end of the file. -/
def ReachedEnd (stop tailEnd : ℕ) (r : Interval K × ℕ × Bool) : Prop :=
  r.2.2 = false ∧ (stop ≤ r.2.1 ∨ tailEnd ≤ r.2.1)

/-- A replay to an earlier offset fills less, and reaches its end when the longer one does. -/
theorem replayLines_shorter (arith : Arithmetic K) (tailEnd : ℕ) (hle : stop' ≤ stop) (lines : List Line) (state : Gcode.GcodeState K)
    (e : Interval K) {position : ℕ} (budget : Option ℕ) (hlines : Contiguous position lines) :
    (replayLines arith stop' state e position budget lines).1 ⊆
        (replayLines arith stop state e position budget lines).1 ∧
      (ReachedEnd stop tailEnd (replayLines arith stop state e position budget lines) →
        ReachedEnd stop' tailEnd (replayLines arith stop' state e position budget lines)) := by
  induction lines generalizing state e position budget with
  | nil =>
    refine ⟨Interval.subset_refl e, ?_⟩
    rintro ⟨htruncated, hend⟩
    exact ⟨htruncated, hend.imp_left hle.trans⟩
  | cons line lines ih =>
    obtain ⟨hstart, -, hrest⟩ := hlines
    by_cases hshort : stop' ≤ line.span.start
    · -- The shorter replay stops here, at its end.
      have hstopped : replayLines arith stop' state e position budget (line :: lines) =
          (e, position, false) := by
        unfold replayLines
        rw [if_pos hshort]
      rw [hstopped]
      exact ⟨replayLines_grows _ _ _ _ _, fun _ => ⟨rfl, .inl (hshort.trans_eq hstart)⟩⟩
    · have hlong : ¬ stop ≤ line.span.start := fun h => hshort (hle.trans h)
      unfold replayLines
      rw [if_neg hshort, if_neg hlong]
      split
      · exact ⟨Interval.subset_refl e, fun h => by cases h.1⟩
      · split
        · exact ⟨Interval.subset_refl e, fun h => by cases h.1⟩
        · exact ih _ _ _ hrest

theorem replayFileE_shorter (arith : Arithmetic K) (cases : CaseMapping) (floor : FloorContext)
    (tail : FileTail) (config : ReconstructConfig K) (hle : stop' ≤ stop) :
    (replayFileE arith cases floor stop' tail config = none ∧
        replayFileE arith cases floor stop tail config = none) ∨
      ∃ r' r, replayFileE arith cases floor stop' tail config = some r' ∧
        replayFileE arith cases floor stop tail config = some r ∧ r'.file ⊆ r.file ∧
        (r.reachedEnd = true → r'.reachedEnd = true) := by
  unfold replayFileE
  split
  · exact .inl ⟨rfl, rfl⟩
  · rename_i hcovered
    cases (anchorState floor.ctx.gcode : Except ReconstructError (Gcode.GcodeState K)) with
    | error error => exact .inl ⟨rfl, rfl⟩
    | ok state =>
      right
      rw [not_or, not_lt, not_lt] at hcovered
      have hlines : Contiguous floor.filePosition
          (collectLines cases tail floor.filePosition none) := collectLines_contiguous hcovered.2
      obtain ⟨hsub, hreached⟩ := replayLines_shorter arith tail.tailEnd hle _ state
        (.point state.gcodePosition.e) config.sim.maxLines hlines
      refine ⟨_, _, rfl, rfl, hsub, ?_⟩
      intro h
      dsimp only at h ⊢
      rw [Bool.and_eq_true, Bool.not_eq_true', Bool.or_eq_true, decide_eq_true_eq,
        decide_eq_true_eq] at h ⊢
      exact hreached h

end FileFrame

section FileFrameConversion

variable {K : Type} [Field K] [LinearOrder K] [IsStrictOrderedRing K] {arith : Arithmetic K}
  {cases : CaseMapping} {timeline : WalTimeline K} {window : StopWindow K} {anchor : Context}
  {config : ReconstructConfig K}

/-- The factor of a frame is positive. -/
theorem eFrameOf_pos {gcode : Wal.GcodeState} {frame : K × K} (h : eFrameOf gcode = some frame) :
    0 < frame.2 := by
  unfold eFrameOf at h
  simp only [Option.bind_eq_bind, Option.bind_eq_some_iff, Option.pure_def, Option.some.injEq,
    Option.guard_eq_some', Bool.and_eq_true, decide_eq_true_eq] at h
  obtain ⟨posE, -, gposE, -, _, ⟨⟨⟨-, hpos⟩, -⟩, -⟩, rfl⟩ := h
  exact Rat.cast_pos.mpr hpos

theorem foldl_union_within {α : Type} {f' f : α → Interval K} {items : List α}
    (h : ∀ a ∈ items, f' a ⊆ f a) {out' out : Option (Interval K)} (hout : Within out' out) :
    Within (items.foldl (fun out a => unionOption out (some (f' a))) out')
      (items.foldl (fun out a => unionOption out (some (f a))) out) := by
  induction items generalizing out' out with
  | nil => exact hout
  | cons a items ih =>
    apply ih (fun b hb => h b (List.mem_cons_of_mem _ hb))
    exact hout.union_mono (within_some.mpr (h a List.mem_cons_self))

theorem convertEToFileFrame_within {i' i : Interval K} (hi' : i'.lo ≤ i'.hi) (h : i' ⊆ i) :
    Within (convertEToFileFrame i' timeline window anchor config)
      (convertEToFileFrame i timeline window anchor config) := by
  unfold convertEToFileFrame
  apply foldl_union_within
  · intro frame hframe
    obtain ⟨ctx, -, hctx⟩ := List.mem_filterMap.mp hframe
    have hpos := eFrameOf_pos hctx
    have hscale : ∀ {v w : K}, v ≤ w → (v - frame.1) / frame.2 ≤ (w - frame.1) / frame.2 :=
      fun hvw => div_le_div_of_nonneg_right (sub_le_sub_right hvw _) hpos.le
    have hwhole := hscale (h.1.trans (hi'.trans h.2))
    unfold Interval.fromPair
    rw [min_eq_left (hscale hi'), max_eq_right (hscale hi'), min_eq_left hwhole, max_eq_right hwhole]
    exact ⟨hscale h.1, hscale h.2⟩
  · exact within_none

end FileFrameConversion

section Assembly

variable {K : Type} [Field K] [LinearOrder K] [IsStrictOrderedRing K] {arith : Arithmetic K}
  {cases : CaseMapping} {timeline timeline' : WalTimeline K} {window : StopWindow K}
  {anchor : Context} {config : ReconstructConfig K} {fileTail : Option FileTail}
  {ext' ext : Option (ExtensionResult K)} {walEvalEnd' walEvalEnd : K} {d' d : Degradation}

/-- Two runs of the extension: neither contributes, or the first one contributes less. -/
inductive ExtensionsInside (anchor : Context) :
    Option (ExtensionResult K) → Option (ExtensionResult K) → Prop
  | unavailable : ExtensionsInside anchor none none
  | available {vsd r' r} (hvsd : anchor.virtualSdcard = some vsd)
      (h : r'.Inside r vsd.filePosition) : ExtensionsInside anchor (some r') (some r)

theorem runExtension_inside
    (hspan : extensionSpan timeline' window anchor walEvalEnd' config ≤
      extensionSpan timeline window anchor walEvalEnd config)
    (hspacing : heartbeatTailSpacingNs arith timeline' config =
      heartbeatTailSpacingNs arith timeline config)
    (hdt : ∀ pt spacing, frontierDt timeline' window pt config spacing ≤
      frontierDt timeline window pt config spacing)
    (hgap : d'.observationGap = d.observationGap) {next : Degradation}
    (h : runExtension arith cases timeline anchor window walEvalEnd fileTail config d =
      .ok (ext, next)) :
    ∃ ext' next', runExtension arith cases timeline' anchor window walEvalEnd' fileTail config d' =
      .ok (ext', next') ∧ ExtensionsInside anchor ext' ext := by
  rcases runExtension_cases h with ⟨rfl, -, hnone⟩ |
    ⟨vsd, tail, state, hvsd, rfl, hbase, hend, hstate, rfl, -⟩
  · exact ⟨none, _, runExtension_none hnone, .unavailable⟩
  · refine ⟨_, _, runExtension_some hvsd hbase hend hstate, .available hvsd ?_⟩
    have hshort := extendFrom_contribution arith cases timeline' anchor vsd.filePosition state
      window walEvalEnd' tail config d'
    have hlong := extendFrom_contribution arith cases timeline anchor vsd.filePosition state
      window walEvalEnd tail config d
    rw [hgap] at hshort
    exact hshort.inside hlong (collectLines_contiguous hend) hspan hspacing hdt

/-- Where the replay of the file ends. -/
theorem ExtensionsInside.stop (h : ExtensionsInside anchor ext' ext) :
    ((ext'.bind (·.summary.resumeOffset)).or (anchor.virtualSdcard.map (·.filePosition)) = none ∧
        (ext.bind (·.summary.resumeOffset)).or (anchor.virtualSdcard.map (·.filePosition)) = none) ∨
      ∃ stop' stop, stop' ≤ stop ∧
        (ext'.bind (·.summary.resumeOffset)).or (anchor.virtualSdcard.map (·.filePosition)) =
          some stop' ∧
        (ext.bind (·.summary.resumeOffset)).or (anchor.virtualSdcard.map (·.filePosition)) =
          some stop := by
  cases h with
  | unavailable =>
    cases hvsd : anchor.virtualSdcard with
    | none => exact .inl ⟨rfl, rfl⟩
    | some vsd => exact .inr ⟨vsd.filePosition, vsd.filePosition, le_rfl, rfl, rfl⟩
  | @available vsd r' r hvsd h =>
    have hor : ∀ o : Option ℕ, o.or (some vsd.filePosition) = some (o.getD vsd.filePosition) := by
      intro o
      cases o <;> rfl
    refine .inr ⟨_, _, h.resume, ?_, ?_⟩
    · rw [hvsd]
      exact hor _
    · rw [hvsd]
      exact hor _

theorem fileFrameE_within {walE' walE : Option (Interval K)} {floor : Option FloorContext}
    (hnonempty : ∀ i ∈ walE', i.lo ≤ i.hi) (hwal : Within walE' walE)
    (hgap : timeline'.contexts = timeline.contexts) (h : ExtensionsInside anchor ext' ext) :
    Within (fileFrameE arith cases timeline' window anchor floor ext' fileTail walE' config d').1
      (fileFrameE arith cases timeline window anchor floor ext fileTail walE config d).1 := by
  have hfallback : Within (walE'.bind fun i => convertEToFileFrame i timeline' window anchor config)
      (walE.bind fun i => convertEToFileFrame i timeline window anchor config) := by
    have hsame : ∀ i : Interval K, convertEToFileFrame i timeline' window anchor config =
        convertEToFileFrame i timeline window anchor config := by
      intro i
      unfold convertEToFileFrame
      rw [hgap]
    cases walE' with
    | none => exact within_none
    | some i' =>
      obtain ⟨i, hi, hsub⟩ := hwal i' rfl
      obtain rfl : walE = some i := hi
      rw [Option.bind_some, Option.bind_some, hsame]
      exact convertEToFileFrame_within (hnonempty i' rfl) hsub
  unfold fileFrameE
  dsimp only
  rcases h.stop with ⟨hstop', hstop⟩ | ⟨stop', stop, hle, hstop', hstop⟩
  · rw [hstop', hstop]
    cases floor with
    | none => exact hfallback
    | some floor =>
      cases fileTail with
      | none => exact hfallback
      | some tail => exact hfallback
  · rw [hstop', hstop]
    cases floor with
    | none => exact hfallback
    | some floor =>
      cases fileTail with
      | none => exact hfallback
      | some tail =>
        dsimp only
        rcases replayFileE_shorter arith cases floor tail config hle with
          ⟨hnone', hnone⟩ | ⟨r', r, hr', hr, hsub, hreached⟩
        · rw [hnone', hnone]
          exact hfallback
        · rw [hr', hr]
          dsimp only
          by_cases hexact : (r.reachedEnd && (some floor).any fun f => !f.uncertain) = true
          · -- The longer replay is exact, so is the shorter one.
            rw [Bool.and_eq_true] at hexact
            rw [if_pos (by rw [hreached hexact.1, hexact.2]; rfl),
              if_pos (by rw [hexact.1, hexact.2]; rfl)]
            exact within_some.mpr hsub
          · rw [if_neg hexact]
            split
            · exact (within_some.mpr hsub).trans within_union_left
            · exact (within_some.mpr hsub).union_mono hfallback

/-- Where the window of the file ends. -/
def windowStop (frontier : ℕ) (resume cap : Option ℕ) : ℕ :=
  let uncapped := max (resume.getD frontier) frontier
  match cap with
  | some cap => min uncapped (max cap frontier)
  | none => uncapped

theorem le_windowStop (frontier : ℕ) (resume cap : Option ℕ) :
    frontier ≤ windowStop frontier resume cap := by
  unfold windowStop
  cases cap with
  | none => exact le_max_right _ _
  | some cap => exact le_min (le_max_right _ _) (le_max_right _ _)

theorem windowStop_mono {frontier : ℕ} {resume' resume cap' cap : Option ℕ}
    (hresume : resume'.getD frontier ≤ resume.getD frontier)
    (hcap : ∀ c ∈ cap, ∃ c' ∈ cap', c' ≤ c) :
    windowStop frontier resume' cap' ≤ windowStop frontier resume cap := by
  have huncapped := max_le_max_right frontier hresume
  unfold windowStop
  cases cap with
  | none =>
    cases cap' with
    | none => exact huncapped
    | some cap' => exact (min_le_left _ _).trans huncapped
  | some cap =>
    obtain ⟨c', hc', hle⟩ := hcap cap rfl
    obtain rfl : cap' = some c' := hc'
    exact min_le_min huncapped (max_le_max_right frontier hle)

theorem offsetWindow_eq (floor : Option FloorContext) {vsd : Wal.VirtualSdState}
    (hvsd : anchor.virtualSdcard = some vsd) :
    offsetWindow anchor floor ext =
      some ⟨min ((floor.map (·.filePosition)).getD vsd.filePosition)
          (windowStop vsd.filePosition (ext.bind (·.summary.resumeOffset))
            (ext.bind (·.summary.frontierCap))),
        windowStop vsd.filePosition (ext.bind (·.summary.resumeOffset))
          (ext.bind (·.summary.frontierCap))⟩ := by
  unfold offsetWindow
  rw [hvsd]
  rfl

/-- The window of the file is smaller when both start with the floor. -/
theorem offsetWindow_within {floor : Option FloorContext} {vsd : Wal.VirtualSdState}
    (hvsd : anchor.virtualSdcard = some vsd) (h : ExtensionsInside anchor ext' ext)
    (hfloor : (floor.map (·.filePosition)).getD vsd.filePosition ≤ vsd.filePosition) :
    ∃ w' w, offsetWindow anchor floor ext' = some w' ∧ offsetWindow anchor floor ext = some w ∧
      w.start ≤ w'.start ∧ w'.stop ≤ w.stop := by
  refine ⟨_, _, offsetWindow_eq floor hvsd, offsetWindow_eq floor hvsd, ?_⟩
  dsimp only
  rw [min_eq_left (hfloor.trans (le_windowStop _ _ _)),
    min_eq_left (hfloor.trans (le_windowStop _ _ _))]
  refine ⟨le_rfl, ?_⟩
  cases h with
  | unavailable => exact le_rfl
  | @available vsd' r' r hvsd' hinside =>
    obtain rfl : vsd = vsd' := Option.some.inj (hvsd.symm.trans hvsd')
    exact windowStop_mono hinside.resume hinside.cap

end Assembly

end DeadReckoning.Reconstruct
