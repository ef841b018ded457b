import DeadReckoning.Gcode.Course
import DeadReckoning.Reconstruct.EdgeNarrows
import DeadReckoning.Reconstruct.ExtensionHeights
import DeadReckoning.Reconstruct.Pipeline
import DeadReckoning.Reconstruct.WindowSound

/-! The stop set of a recovery has the machine wherever it stopped: on the journaled motion, however
long it went on behind the last sign of life, and along the lines of the file behind that. -/
set_option linter.unusedSectionVars false

namespace DeadReckoning.Reconstruct

open Checks (bind_eq_ok ensure_eq_ok)
open Gcode (Arithmetic Axes CaseMapping GcodeState Line PlannedMove Point SimConfig TimedMove
  simulate zEventOf)
open Gcode.GcodeState (Applies SqrtLaws kept legs replay replay_onRoute route stateAfter travel)
open Wal (Context)

section Places

variable {K : Type} [Field K] [LinearOrder K]

/-- The toolhead is in the box, and in a height candidate within the tolerance. -/
def PossibleStopSet.HasPlace (S : PossibleStopSet K) (tol : K) (p : Point K) : Prop :=
  (∃ r, S.xy = some r ∧ p.x ∈ r.x ∧ p.y ∈ r.y) ∧ ∃ c ∈ S.zCandidates, c.z.contains p.z tol

def PossibleStopSet.HasFilament (S : PossibleStopSet K) (e : K) : Prop :=
  ∃ i, S.eInternal = some i ∧ e ∈ i

/-- The same in the frame of the file. -/
def PossibleStopSet.HasFileFilament (S : PossibleStopSet K) (e : K) : Prop :=
  ∃ i, S.eFile = some i ∧ e ∈ i

/-- A part of the way from one point to another. -/
def partWay (a b : Axes K) (u : K) : Axes K :=
  ⟨a.x + (b.x - a.x) * u, a.y + (b.y - a.y) * u, a.z + (b.z - a.z) * u, a.e + (b.e - a.e) * u⟩

/-- The machine has not left the first point yet, or is somewhere on a leg. -/
inductive OnWay (p : Axes K) (points : List (Axes K)) : Axes K → Prop
  | waiting : OnWay p points p
  | moving {leg : Axes K × Axes K} {u : K} (hleg : leg ∈ legs p points) (hu : 0 ≤ u) (hu' : u ≤ 1) :
      OnWay p points (partWay leg.1 leg.2 u)

end Places

section Settled

variable {K : Type} [Field K] [LinearOrder K] [IsStrictOrderedRing K] {segments : List (Segment K)}
  {stop t : K} {p : Point K}

/-- Behind the end of all the motion the machine stays where it was. -/
theorem MachineAt.settled (hduration : ∀ s ∈ segments, 0 ≤ s.duration)
    (hends : ∀ s ∈ segments, s.endTime ≤ stop) (hlate : stop ≤ t) (h : MachineAt segments t p) :
    MachineAt segments stop p := by
  cases h with
  | @moving s hs hstart hend =>
    have hnow : t = stop := le_antisymm (hend.trans (hends s hs)) hlate
    rw [← hnow]
    exact .moving hs hstart hend
  | @dwelling s hidle hs =>
    have hprint : s.printTime ≤ s.endTime := le_add_of_nonneg_right (hduration s hs.mem)
    have hended : ∀ r ∈ segments, r.endTime < t := by
      intro r hr
      by_contra hrunning
      have hnow : r.endTime = t := le_antisymm ((hends r hr).trans hlate) (not_lt.mp hrunning)
      exact hidle r hr ⟨hnow ▸ le_add_of_nonneg_right (hduration r hr), hnow.ge⟩
    have hlast : ∀ r ∈ segments, r.endTime ≤ s.endTime := fun r hr => hs.le hr (hended r hr)
    rcases (hends s hs.mem).lt_or_eq with hbefore | hnow
    · refine .dwelling ?_ ?_
      · rintro r hr ⟨-, hrunning⟩
        exact (hrunning.trans (hlast r hr)).not_gt hbefore
      · obtain ⟨before, after, hsplit, -, hfirst, hsecond⟩ := hs
        exact ⟨before, after, hsplit, hbefore, fun r hr hrt => hfirst r hr (hrt.trans_le hlate),
          fun r hr hrt => hsecond r hr (hrt.trans_le hlate)⟩
    · rw [hnow]
      exact .moving hs.mem (hnow ▸ hprint) hnow.ge

end Settled

section Joined

variable {K : Type} [Field K] [LinearOrder K] {wal : ToolheadSpan K}
  {walE eFile : Option (Interval K)} {ext : Option (ExtensionResult K)}

/-- Joining the extension keeps the evidence of the journal. -/
theorem joinExtension_wal {p : Point K} (h : wal.Covers p) :
    (∃ r, (joinExtension wal walE eFile ext).2.1 = some r ∧ p.x ∈ r.x ∧ p.y ∈ r.y) ∧
      ∃ c ∈ (joinExtension wal walE eFile ext).1, p.z ∈ c.z := by
  obtain ⟨⟨r, hr, hx, hy⟩, c, hc, hz⟩ := h
  cases ext with
  | none => exact ⟨⟨r, hr, hx, hy⟩, c, hc, hz⟩
  | some ext =>
    refine ⟨?_, c, List.mem_append_left _ hc, hz⟩
    unfold joinExtension
    dsimp only
    rw [hr]
    cases ext.xy with
    | none => exact ⟨r, rfl, hx, hy⟩
    | some extXy =>
      exact ⟨r.union extXy, rfl, Interval.mem_of_subset Interval.subset_union_left hx,
        Interval.mem_of_subset Interval.subset_union_left hy⟩

theorem joinExtension_filament {e : K} (h : ∃ i, walE = some i ∧ e ∈ i) :
    ∃ i, (joinExtension wal walE eFile ext).2.2.1 = some i ∧ e ∈ i := by
  cases ext with
  | none => exact h
  | some ext =>
    obtain ⟨i, rfl, hi⟩ := h
    have hwithin : Within (some i) (unionOption (some i) ext.eInternal) := within_union_left
    obtain ⟨j, hj, hsub⟩ := hwithin i rfl
    exact ⟨j, hj, Interval.mem_of_subset hsub hi⟩

/-- Joining keeps the evidence of the extension. -/
theorem joinExtension_ext (wal : ToolheadSpan K) (walE eFile : Option (Interval K))
    {result : ExtensionResult K} {box : XyRegion K} {i j : Interval K} (hxy : result.xy = some box)
    (hinternal : result.eInternal = some i)
    (hfile : result.eFile = some j) :
    (∃ r, (joinExtension wal walE eFile (some result)).2.1 = some r ∧ box ⊆ r) ∧
      (∀ c ∈ result.z, c ∈ (joinExtension wal walE eFile (some result)).1) ∧
      (∃ i', (joinExtension wal walE eFile (some result)).2.2.1 = some i' ∧ i ⊆ i') ∧
      ∃ j', (joinExtension wal walE eFile (some result)).2.2.2 = some j' ∧ j ⊆ j' := by
  refine ⟨?_, fun c hc => List.mem_append_right _ hc, ?_, ?_⟩
  · unfold joinExtension
    dsimp only
    rw [hxy]
    cases wal.xy with
    | none => exact ⟨box, rfl, XyRegion.subset_refl box⟩
    | some r => exact ⟨r.union box, rfl, XyRegion.subset_union_right⟩
  · have hwithin : Within (some i) (unionOption walE (some i)) := within_union_right
    obtain ⟨i', hi', hsub⟩ := hwithin i rfl
    refine ⟨i', ?_, hsub⟩
    unfold joinExtension
    dsimp only
    rw [hinternal]
    exact hi'
  · have hwithin : Within (some j) (unionOption eFile (some j)) := within_union_right
    obtain ⟨j', hj', hsub⟩ := hwithin j rfl
    refine ⟨j', ?_, hsub⟩
    unfold joinExtension
    dsimp only
    rw [hfile]
    exact hj'

end Joined

section Ahead

variable {K : Type} [Field K] [LinearOrder K] {arith : Arithmetic K} {state : GcodeState K}

/-- The box and the interval of the filament have the start, and both ends of every move. -/
theorem extensionXyE_spec (arith : Arithmetic K) (state : GcodeState K)
    (moves : List (TimedMove K)) (d : Degradation) :
    (state.lastPosition.x ∈ (extensionXyE arith state moves d).1.x ∧
      state.lastPosition.y ∈ (extensionXyE arith state moves d).1.y ∧
      state.lastPosition.e ∈ (extensionXyE arith state moves d).2.1) ∧
    ∀ tm ∈ moves, (tm.planned.kinematicEnd arith).x ∈ (extensionXyE arith state moves d).1.x ∧
      (tm.planned.kinematicEnd arith).y ∈ (extensionXyE arith state moves d).1.y ∧
      (tm.planned.kinematicEnd arith).e ∈ (extensionXyE arith state moves d).2.1 := by
  unfold extensionXyE
  dsimp only
  induction moves using List.reverseRecOn with
  | nil => exact ⟨⟨Interval.mem_point, Interval.mem_point, Interval.mem_point⟩, by simp⟩
  | append_singleton moves last ih =>
    obtain ⟨⟨hx, hy, he⟩, hmoves⟩ := ih
    rw [List.foldl_append, List.foldl_cons, List.foldl_nil]
    have hkeep : ∀ {i : Interval K} {v a b : K}, v ∈ i → v ∈ (i.expand a).expand b := fun h =>
      Interval.mem_of_subset (Interval.subset_trans Interval.subset_expand Interval.subset_expand) h
    refine ⟨⟨hkeep hx, hkeep hy, hkeep he⟩, ?_⟩
    intro tm htm
    rcases List.mem_append.mp htm with htm | htm
    · obtain ⟨hx, hy, he⟩ := hmoves tm htm
      exact ⟨hkeep hx, hkeep hy, hkeep he⟩
    · rw [List.mem_singleton.mp htm]
      exact ⟨Interval.mem_expand, Interval.mem_expand, Interval.mem_expand⟩

/-- The interval of the file has the filament after each line. -/
theorem replayE_spec (lines : List Line) (state : GcodeState K) (e : Interval K) (shifted : Bool)
    (happlies : Applies arith state lines) (hstart : state.gcodePosition.e ∈ e) (n : ℕ) :
    (stateAfter arith state (lines.take n)).gcodePosition.e ∈
      (replayE arith state e shifted lines).1 ∧ e ⊆ (replayE arith state e shifted lines).1 := by
  induction lines generalizing state e shifted n with
  | nil =>
    rw [List.take_nil]
    exact ⟨hstart, Interval.subset_refl e⟩
  | cons line lines ih =>
    obtain ⟨⟨outcome, hok⟩, hrest⟩ := happlies
    cases happly : state.apply arith line with
    | mk result next =>
      rw [happly] at hok hrest
      dsimp only at hok
      subst hok
      unfold replayE
      rw [happly]
      dsimp only
      have hsub := fun shifted => (ih next (e.expand next.gcodePosition.e) shifted hrest
        Interval.mem_expand 0).2
      refine ⟨?_, Interval.subset_trans Interval.subset_expand (hsub _)⟩
      cases n with
      | zero =>
        exact Interval.mem_of_subset (Interval.subset_trans Interval.subset_expand (hsub _)) hstart
      | succ n =>
        rw [List.take_succ_cons]
        have hnext : stateAfter arith state (line :: lines.take n) =
            stateAfter arith next (lines.take n) := by
          unfold stateAfter
          rw [List.foldl_cons, happly]
        rw [hnext]
        exact (ih next _ _ hrest Interval.mem_expand n).1

variable [IsStrictOrderedRing K]

/-- What holds at the start and is kept by each leg holds at the ends of all legs. -/
theorem legs_carry {P : Axes K → Prop} {p : Axes K} {points : List (Axes K)} (hp : P p)
    (hstep : ∀ leg ∈ legs p points, P leg.1 → P leg.2) :
    ∀ leg ∈ legs p points, P leg.1 ∧ P leg.2 := by
  induction points generalizing p with
  | nil => exact fun leg hleg => by cases hleg
  | cons q points ih =>
    intro leg hleg
    have hq : P q := hstep (p, q) List.mem_cons_self hp
    rcases List.mem_cons.mp hleg with rfl | hleg
    · exact ⟨hp, hq⟩
    · exact ih hq (fun leg hleg => hstep leg (List.mem_cons_of_mem _ hleg)) leg hleg

/-- A leg of no length stays in place. -/
theorem point_of_travel (hsqrt : SqrtLaws arith) {leg : Axes K × Axes K}
    (hshort : travel arith leg < GcodeState.minKinematicMove)
    (hlong : ¬(0 < travel arith leg ∧ travel arith leg < GcodeState.minKinematicMove)) :
    leg.2.point = leg.1.point := by
  have hzero : travel arith leg = 0 := by
    by_contra hne
    exact hlong ⟨lt_of_le_of_ne (hsqrt.nonneg _) (Ne.symm hne), hshort⟩
  have hx := mul_self_nonneg (leg.2.x - leg.1.x)
  have hy := mul_self_nonneg (leg.2.y - leg.1.y)
  have hz := mul_self_nonneg (leg.2.z - leg.1.z)
  have hsum := hsqrt.eq_zero _ (add_nonneg (add_nonneg hx hy) hz) hzero
  have hdx : (leg.2.x - leg.1.x) * (leg.2.x - leg.1.x) = 0 := by linarith
  have hdy : (leg.2.y - leg.1.y) * (leg.2.y - leg.1.y) = 0 := by linarith
  have hdz : (leg.2.z - leg.1.z) * (leg.2.z - leg.1.z) = 0 := by linarith
  unfold Axes.point
  rw [sub_eq_zero.mp (mul_self_eq_zero.mp hdx), sub_eq_zero.mp (mul_self_eq_zero.mp hdy),
    sub_eq_zero.mp (mul_self_eq_zero.mp hdz)]

/-- A leg that is dropped goes nowhere, and the filament neither. -/
theorem dropped_stays (hsqrt : SqrtLaws arith) {leg : Axes K × Axes K}
    (hzero : Gcode.GcodeState.kinematicDistance arith leg.1 leg.2 = 0)
    (hlong : ¬(0 < travel arith leg ∧ travel arith leg < GcodeState.minKinematicMove)) :
    leg.2 = leg.1 := by
  obtain ⟨hshort, he⟩ := Gcode.GcodeState.still_of_dropped hzero
  have hwith := Gcode.Axes.with_e_of_point (point_of_travel hsqrt hshort hlong)
  rw [← he] at hwith
  exact hwith

/-- The toolhead and the filament go where the move ends. -/
theorem kinematicEnd_eq (hsqrt : SqrtLaws arith) {m : PlannedMove K}
    (hlong : ¬(0 < travel arith (m.start, m.stop) ∧
      travel arith (m.start, m.stop) < GcodeState.minKinematicMove)) :
    m.kinematicEnd arith = m.stop := by
  unfold Gcode.PlannedMove.kinematicEnd
  split_ifs with hextrude
  · have hshort : travel arith (m.start, m.stop) < GcodeState.minKinematicMove :=
      of_decide_eq_true hextrude
    exact Gcode.Axes.with_e_of_point (point_of_travel hsqrt hshort hlong).symm
  · rfl

/-- A part of the way between two values of an interval is in it. -/
theorem partWay_mem {i : Interval K} {a b u : K} (ha : a ∈ i) (hb : b ∈ i) (hu : 0 ≤ u)
    (hu' : u ≤ 1) : a + (b - a) * u ∈ i := by
  have hsplit : a + (b - a) * u = (1 - u) * a + u * b := by ring
  have hrest : 0 ≤ 1 - u := sub_nonneg.mpr hu'
  rw [hsplit]
  constructor
  · have hlow := add_le_add (mul_le_mul_of_nonneg_left ha.1 hrest)
      (mul_le_mul_of_nonneg_left hb.1 hu)
    linarith
  · have hhigh := add_le_add (mul_le_mul_of_nonneg_left ha.2 hrest)
      (mul_le_mul_of_nonneg_left hb.2 hu)
    linarith

/-- A leg of the way through the consumed lines goes nowhere, or is a move of the simulation that
ends where it says. -/
theorem leg_simulated (hsqrt : SqrtLaws arith) (config : SimConfig K) (state : GcodeState K)
    (lines : List Line) {leg : Axes K × Axes K}
    (hleg : leg ∈ legs state.lastPosition (route arith state
      (lines.take (simulate arith config state lines).linesConsumed)))
    (hlong : ¬(0 < travel arith leg ∧ travel arith leg < GcodeState.minKinematicMove)) :
    leg.2 = leg.1 ∨ ∃ tm ∈ (simulate arith config state lines).moves,
      tm.planned.start = leg.1 ∧ tm.planned.stop = leg.2 ∧
        tm.planned.kinematicEnd arith = leg.2 := by
  have hsimulated := (simulate_replay arith config state lines).1
  set consumed := lines.take (simulate arith config state lines).linesConsumed with hconsumed
  by_cases hzero : Gcode.GcodeState.kinematicDistance arith leg.1 leg.2 = 0
  · exact .inl (dropped_stays hsqrt hzero hlong)
  · have hkept : leg ∈ kept arith (legs state.lastPosition (route arith state consumed)) :=
      List.mem_filter.mpr ⟨hleg, decide_eq_true hzero⟩
    rw [← (replay_onRoute hsqrt consumed).ends, ← hsimulated] at hkept
    obtain ⟨m, hm, rfl⟩ := List.mem_map.mp hkept
    obtain ⟨tm, htm, rfl⟩ := List.mem_map.mp hm
    exact .inr ⟨tm, htm, rfl, rfl, kinematicEnd_eq hsqrt hlong⟩

/-- The way through the consumed lines, in the box and the intervals of the extension. -/
theorem extension_has (hsqrt : SqrtLaws arith) (config : SimConfig K) (state : GcodeState K)
    (lines : List Line) (d : Degradation)
    (hlong : NoShortTravel arith (legs state.lastPosition (route arith state
      (lines.take (simulate arith config state lines).linesConsumed)))) {q : Axes K}
    (hq : OnWay state.lastPosition (route arith state
      (lines.take (simulate arith config state lines).linesConsumed)) q) :
    q.x ∈ (extensionXyE arith state (simulate arith config state lines).moves d).1.x ∧
      q.y ∈ (extensionXyE arith state (simulate arith config state lines).moves d).1.y ∧
      q.e ∈ (extensionXyE arith state (simulate arith config state lines).moves d).2.1 ∧
      Covered (extensionZCandidates arith state
        (lines.take (simulate arith config state lines).linesConsumed) d).1 q.z := by
  obtain ⟨hsimulated, happlies⟩ := simulate_replay arith config state lines
  obtain ⟨⟨hx, hy, he⟩, hbox⟩ := extensionXyE_spec arith state
    (simulate arith config state lines).moves d
  have hmem := mem_candidates happlies d
  set consumed := lines.take (simulate arith config state lines).linesConsumed with hconsumed
  set box := extensionXyE arith state (simulate arith config state lines).moves d with hboxdef
  set candidates := (extensionZCandidates arith state consumed d).1 with hcandidates
  have hleg : ∀ leg ∈ legs state.lastPosition (route arith state consumed), leg.2 = leg.1 ∨
      (leg.2.x ∈ box.1.x ∧ leg.2.y ∈ box.1.y ∧ leg.2.e ∈ box.2.1) ∧ (leg.2.z ≠ leg.1.z →
        ∀ z ∈ Interval.fromPair leg.1.z leg.2.z, Covered candidates z) := by
    intro leg hleg
    rcases leg_simulated hsqrt config state lines hleg (hlong leg hleg) with
      hsame | ⟨tm, htm, hstart, -, hend⟩
    · exact .inl hsame
    · refine .inr ⟨hend ▸ hbox tm htm, ?_⟩
      intro hne z hz
      obtain ⟨event, hevent, hfrom, hto⟩ := zEventOf_some (m := tm.planned)
        (hend.symm ▸ hstart.symm ▸ hne)
      have hplanned : tm.planned ∈ replay arith state consumed :=
        hsimulated ▸ List.mem_map_of_mem htm
      refine ⟨_, (hmem _).mpr (.inr ⟨tm.planned, hplanned, event, hevent, .inl rfl⟩), ?_⟩
      rw [hfrom, hto, hend, hstart]
      exact hz
  have hcarried := legs_carry (P := fun q => q.x ∈ box.1.x ∧ q.y ∈ box.1.y ∧ q.e ∈ box.2.1 ∧
      Covered candidates q.z)
    ⟨hx, hy, he, _, (hmem _).mpr (.inl rfl), Interval.mem_point⟩ (by
      rintro leg hmemleg ⟨hx, hy, he, hz⟩
      rcases hleg leg hmemleg with hsame | ⟨⟨hx', hy', he'⟩, hramp⟩
      · rw [hsame]
        exact ⟨hx, hy, he, hz⟩
      · refine ⟨hx', hy', he', ?_⟩
        by_cases hheight : leg.2.z = leg.1.z
        · rw [hheight]
          exact hz
        · exact hramp hheight _ ⟨min_le_right _ _, le_max_right _ _⟩)
  cases hq with
  | waiting => exact ⟨hx, hy, he, _, (hmem _).mpr (.inl rfl), Interval.mem_point⟩
  | @moving leg u hmemleg hu hu' =>
    obtain ⟨⟨hx, hy, he, hz⟩, hx', hy', he', -⟩ := hcarried leg hmemleg
    refine ⟨partWay_mem hx hx' hu hu', partWay_mem hy hy' hu hu', partWay_mem he he' hu hu', ?_⟩
    by_cases hheight : leg.2.z = leg.1.z
    · have hflat : (partWay leg.1 leg.2 u).z = leg.1.z := by
        show leg.1.z + (leg.2.z - leg.1.z) * u = leg.1.z
        rw [hheight, sub_self, zero_mul, add_zero]
      rw [hflat]
      exact hz
    · rcases hleg leg hmemleg with hsame | ⟨-, hramp⟩
      · exact absurd (congrArg Axes.z hsame) hheight
      · exact hramp hheight _ (partWay_mem (i := Interval.fromPair leg.1.z leg.2.z)
          ⟨min_le_left _ _, le_max_left _ _⟩ ⟨min_le_right _ _, le_max_right _ _⟩ hu hu')

end Ahead

section Recovery

variable {K : Type} [Field K] [LinearOrder K] {arith : Arithmetic K} {cases : CaseMapping}
  {json : JsonNumbers} {inputs : ReconstructInputs} {config : ReconstructConfig K}
  {r : RecoveryReconstruction K}

/-- The time is not before the window, and not behind the power cut that it was narrowed by. -/
def RecoveryReconstruction.MayStopAt (r : RecoveryReconstruction K) (t : K) : Prop :=
  r.window.tA ≤ t ∧ ∀ cut ∈ r.stopSet.powerFailWindowCut, t ≤ cut

/-- The extension plays these lines of the file, from the state of the last context. -/
def RecoveryReconstruction.Plays (r : RecoveryReconstruction K) (cases : CaseMapping)
    (inputs : ReconstructInputs) (config : ReconstructConfig K) (state : GcodeState K)
    (lines : List Line) : Prop :=
  ∃ anchor vsd tail summary, r.timeline.contexts.getLast? = some anchor ∧
    anchor.virtualSdcard = some vsd ∧ inputs.fileTail = some tail ∧
    (anchorState anchor.gcode : Except ReconstructError (GcodeState K)) = .ok state ∧
    r.stopSet.extension = some summary ∧
    lines = (collectLines cases tail vsd.filePosition config.sim.maxLines).take
      summary.linesConsumed

/-- Where a recovery may have stopped is in its stop set. -/
structure RecoveryReconstruction.Contains (r : RecoveryReconstruction K) (arith : Arithmetic K)
    (cases : CaseMapping) (inputs : ReconstructInputs) (config : ReconstructConfig K) : Prop where
  /-- The window starts no later than the last sign of life. -/
  alive : ∃ heartbeat, r.timeline.heartbeat = some heartbeat ∧
    r.window.tA ≤ exact (bitsValue heartbeat.printTime)
  toolhead : ∀ t p, r.MayStopAt t → MachineAt r.timeline.toolheadSegments t p →
    r.stopSet.HasPlace config.zMergeTolerance p
  filament : ∀ t p, r.MayStopAt t → MachineAt r.timeline.extruderSegments t p →
    r.stopSet.HasFilament p.x
  /-- The lines behind the last context are played when the file is at hand. -/
  played : ∀ anchor vsd tail, r.timeline.contexts.getLast? = some anchor →
    anchor.virtualSdcard = some vsd → inputs.fileTail = some tail →
    ∃ state lines, r.Plays cases inputs config state lines
  ahead : ∀ state lines, r.Plays cases inputs config state lines →
    NoShortTravel arith (legs state.lastPosition (route arith state lines)) → ∀ q,
    OnWay state.lastPosition (route arith state lines) q →
    r.stopSet.HasPlace config.zMergeTolerance q.point ∧ r.stopSet.HasFilament q.e
  aheadFile : ∀ state lines, r.Plays cases inputs config state lines → ∀ n,
    r.stopSet.HasFileFilament (stateAfter arith state (lines.take n)).gcodePosition.e

/-- A recovery is made of a window and a stop set of its timeline. -/
theorem reconstruct_recovery
    (h : reconstruct arith cases json inputs config = .ok (.recovery r)) :
    0 ≤ config.zMergeTolerance ∧
      computeStopWindow r.timeline inputs.admittedReceiveSeq config = .ok r.window ∧
      ∃ S, computeStopSet arith cases r.timeline r.window inputs.fileTail config = .ok S ∧
        r.stopSet = { S with degradation := r.stopSet.degradation } := by
  unfold reconstruct at h
  obtain ⟨_, hvalid, h⟩ := bind_eq_ok.mp h
  dsimp only at h
  split at h
  · cases h
  · obtain ⟨window, hwindow, h⟩ := bind_eq_ok.mp h
    obtain ⟨S, hset, h⟩ := bind_eq_ok.mp h
    cases h
    refine ⟨?_, hwindow, S, hset, rfl⟩
    unfold ReconstructConfig.validate at hvalid
    obtain ⟨_, -, hvalid⟩ := bind_eq_ok.mp hvalid
    obtain ⟨_, -, hvalid⟩ := bind_eq_ok.mp hvalid
    obtain ⟨_, -, hvalid⟩ := bind_eq_ok.mp hvalid
    obtain ⟨_, -, hvalid⟩ := bind_eq_ok.mp hvalid
    obtain ⟨_, -, hvalid⟩ := bind_eq_ok.mp hvalid
    obtain ⟨_, htol, -⟩ := bind_eq_ok.mp hvalid
    exact of_decide_eq_true (ensure_eq_ok.mp htol)

variable [IsStrictOrderedRing K]

/-- The evidence of a span covers what comes behind its end, unless it was cut. -/
theorem covers_settled {σ : Type} {covers : σ → Point K → Prop} {visit : σ → Segment K → K → K → σ}
    {hold : σ → Point K → σ} (hg : Gathers covers visit hold) {found : σ} {tA tEnd planned t : K}
    {segments : List (Segment K)} (hduration : ∀ s ∈ segments, 0 ≤ s.duration)
    (hplanned : ∀ s ∈ segments, s.endTime ≤ planned) (hstart : tA ≤ tEnd) (hlo : tA ≤ t)
    (hhi : t ≤ tEnd ∨ tEnd = planned) {p : Point K} (hp : MachineAt segments t p)
    (collapseActive : Bool) :
    covers ((SpanScan.sweep visit tA tEnd found segments).finish hold tA collapseActive) p := by
  by_cases hinside : t ≤ tEnd
  · exact hg.covers_machine hduration hlo hinside hp
  · have hend := hhi.resolve_left hinside
    have hsettled := hp.settled hduration (hend ▸ hplanned) (not_le.mp hinside).le
    exact hg.covers_machine hduration hstart le_rfl hsettled

/-- A time that the recovery may have stopped at is inside the span, or the span has all the
motion. -/
theorem mayStop_span {timeline : WalTimeline K} {window : StopWindow K} {t : K}
    (hcut : ∀ cut ∈ (evalEnd timeline window).2.1, t ≤ cut) :
    t ≤ (evalEnd timeline window).1 ∨
      (evalEnd timeline window).1 = plannedEnd timeline window := by
  cases hpower : powerFailCutPt timeline window with
  | none => exact .inr (by rw [evalEnd_none hpower])
  | some cut =>
    rcases le_or_gt window.tB cut with hle | hlt
    · rw [evalEnd_cut hpower hle] at hcut ⊢
      rcases le_total (plannedEnd timeline window) cut with hplanned | hplanned
      · exact .inr (min_eq_left hplanned)
      · exact .inl ((hcut cut rfl).trans_eq (min_eq_right hplanned).symm)
    · exact .inr (by rw [evalEnd_degenerate hpower hlt])

/-- What the extension contributes is what its simulation of the lines gives. -/
structure ExtensionResult.Played (arith : Arithmetic K) (sim : SimConfig K) (state : GcodeState K)
    (lines : List Line) (result : ExtensionResult K) : Prop where
  count : result.summary.linesConsumed = (simulate arith sim state lines).linesConsumed
  z : result.z =
    (extensionZCandidates arith state (lines.take result.summary.linesConsumed) .none).1
  xy : result.xy =
    some (extensionXyE arith state (simulate arith sim state lines).moves .none).1
  eInternal : result.eInternal =
    some (extensionXyE arith state (simulate arith sim state lines).moves .none).2.1
  eFile : result.eFile = some (replayE arith state (.point state.gcodePosition.e) false
    (lines.take result.summary.linesConsumed)).1

theorem extendFrom_played (arith : Arithmetic K) (cases : CaseMapping) (timeline : WalTimeline K)
    (anchor : Context) (filePosition : ℕ) (state : GcodeState K) (window : StopWindow K)
    (walEvalEnd : K) (tail : FileTail) (config : ReconstructConfig K) (d : Degradation) :
    ∃ sim, (extendFrom arith cases timeline anchor filePosition state window walEvalEnd tail config
      d).1.Played arith sim state (collectLines cases tail filePosition config.sim.maxLines) :=
  ⟨_, { count := rfl, z := rfl, xy := rfl, eInternal := rfl, eFile := rfl }⟩

/-- The extension of a stop set plays the lines behind the last context. -/
theorem plays_extension {S : PossibleStopSet K} {anchor : Context} {vsd : Wal.VirtualSdState}
    {tail : FileTail}
    (hset : computeStopSet arith cases r.timeline r.window inputs.fileTail config = .ok S)
    (hanchor : r.timeline.contexts.getLast? = some anchor)
    (hvsd : anchor.virtualSdcard = some vsd) (htail : inputs.fileTail = some tail) :
    ∃ state result sim, (anchorState anchor.gcode : Except ReconstructError (GcodeState K)) =
        .ok state ∧ S.extension = some result.summary ∧
      result.Played arith sim state (collectLines cases tail vsd.filePosition config.sim.maxLines) ∧
      ∃ wal walE eFile, S.xy = (joinExtension wal walE eFile (some result)).2.1 ∧
        S.zCandidates = mergeZCandidates (joinExtension wal walE eFile (some result)).1
          config.zMergeTolerance ∧
        S.eInternal = (joinExtension wal walE eFile (some result)).2.2.1 ∧
        S.eFile = (joinExtension wal walE eFile (some result)).2.2.2 := by
  obtain ⟨anchor', ext, d, hanchor', hrun, rfl⟩ := computeStopSet_ok_iff.mp hset
  obtain rfl : anchor = anchor' := Option.some.inj (hanchor.symm.trans hanchor')
  rcases runExtension_cases hrun with ⟨-, -, hnone | hnone⟩ |
    ⟨vsd', tail', state, hvsd', htail', -, -, hstate, rfl, -⟩
  · rw [hvsd] at hnone
    cases hnone
  · rw [htail] at hnone
    cases hnone
  · obtain rfl : vsd = vsd' := Option.some.inj (hvsd.symm.trans hvsd')
    obtain rfl : tail = tail' := Option.some.inj (htail.symm.trans htail')
    obtain ⟨sim, hplayed⟩ := extendFrom_played arith cases r.timeline anchor vsd.filePosition state
      r.window (evalEnd r.timeline r.window).1 tail config
      (firstFlags r.timeline r.window config)
    exact ⟨state, _, sim, hstate, rfl, hplayed, _, _, _, rfl, rfl, rfl, rfl⟩

/-- A window is computed from a heartbeat, and begins no later. -/
theorem window_alive {timeline : WalTimeline K} {window : StopWindow K}
    {receiveSeq : Option ReceiveSeqObservation}
    (hwindow : computeStopWindow timeline receiveSeq config = .ok window) :
    (∃ heartbeat, timeline.heartbeat = some heartbeat ∧
      window.tA ≤ exact (bitsValue heartbeat.printTime)) ∧ window.tA ≤ window.tB := by
  obtain ⟨heartbeat, hheartbeat⟩ : ∃ heartbeat, timeline.heartbeat = some heartbeat := by
    cases hbeat : timeline.heartbeat with
    | some heartbeat => exact ⟨heartbeat, rfl⟩
    | none =>
      unfold computeStopWindow at hwindow
      rw [hbeat] at hwindow
      cases hwindow
  obtain ⟨w, hw, htA, htB, -⟩ := computeStopWindow_bounds receiveSeq config hheartbeat
  obtain rfl : window = w := Except.ok.inj (hwindow.symm.trans hw)
  exact ⟨⟨heartbeat, hheartbeat, htA ▸ min_le_left _ _⟩, htB ▸ le_max_left _ _⟩

section StopSet

variable {timeline : WalTimeline K} {window : StopWindow K} {fileTail : Option FileTail}
  {S : PossibleStopSet K}

/-- On its journaled motion, the toolhead and the filament are in the stop set. -/
theorem stopSet_journaled
    (hset : computeStopSet arith cases timeline window fileTail config = .ok S)
    (htol : 0 ≤ config.zMergeTolerance) (hordered : window.tA ≤ window.tB)
    (hsegments : ∀ s ∈ timeline.toolheadSegments ++ timeline.extruderSegments,
      0 ≤ s.duration ∧ s.monoNs < 2 ^ 64) {t : K} (hlo : window.tA ≤ t)
    (hcut : ∀ cut ∈ S.powerFailWindowCut, t ≤ cut) {p : Point K} :
    (MachineAt timeline.toolheadSegments t p → S.HasPlace config.zMergeTolerance p) ∧
      (MachineAt timeline.extruderSegments t p → S.HasFilament p.x) := by
  obtain ⟨anchor, ext, d, hanchor, hrun, rfl⟩ := computeStopSet_ok_iff.mp hset
  have hstart : window.tA ≤ (evalEnd timeline window).1 :=
    hordered.trans (evalEnd_between timeline window).1
  have hspan := mayStop_span hcut
  constructor
  · intro hp
    have hcovered : (evalToolheadSpan timeline.toolheadSegments window.tA
        (evalEnd timeline window).1 (evalEnd timeline window).2.1.isSome).Covers p :=
      covers_settled toolhead_gathers
        (fun s hs => (hsegments s (List.mem_append_left _ hs)).1)
        (fun s hs => endTime_le_plannedEnd (List.mem_append_left _ hs)
          (hsegments s (List.mem_append_left _ hs)).2) hstart hlo hspan hp _
    obtain ⟨hxy, c, hc, hz⟩ := joinExtension_wal hcovered
    exact ⟨hxy, mergeZCandidates_contains htol hc hz⟩
  · intro hp
    have hcovered : CoversFilament (evalExtruderSpan timeline.extruderSegments window.tA
        (evalEnd timeline window).1 (evalEnd timeline window).2.1.isSome) p :=
      covers_settled extruder_gathers
        (fun s hs => (hsegments s (List.mem_append_right _ hs)).1)
        (fun s hs => endTime_le_plannedEnd (List.mem_append_right _ hs)
          (hsegments s (List.mem_append_right _ hs)).2) hstart hlo hspan hp _
    exact joinExtension_filament hcovered

end StopSet

/-- The lines that a recovery plays are those of the simulation behind its extension. -/
theorem plays_sim {S : PossibleStopSet K} {state : GcodeState K} {lines : List Line}
    (hset : computeStopSet arith cases r.timeline r.window inputs.fileTail config = .ok S)
    (hsummary : r.stopSet.extension = S.extension)
    (hplays : r.Plays cases inputs config state lines) :
    ∃ result sim all, result.Played arith sim state all ∧
      lines = all.take (simulate arith sim state all).linesConsumed ∧
      ∃ wal walE eFile, S.xy = (joinExtension wal walE eFile (some result)).2.1 ∧
        S.zCandidates = mergeZCandidates (joinExtension wal walE eFile (some result)).1
          config.zMergeTolerance ∧
        S.eInternal = (joinExtension wal walE eFile (some result)).2.2.1 ∧
        S.eFile = (joinExtension wal walE eFile (some result)).2.2.2 := by
  obtain ⟨anchor, vsd, tail, summary, hanchor, hvsd, htail, hstate, hextension, rfl⟩ := hplays
  obtain ⟨state', result, sim, hstate', hextension', hplayed, hjoined⟩ :=
    plays_extension hset hanchor hvsd htail
  obtain rfl : state = state' := Except.ok.inj (hstate.symm.trans hstate')
  obtain rfl : summary = result.summary :=
    Option.some.inj (hextension.symm.trans (hsummary.trans hextension'))
  exact ⟨result, sim, _, hplayed, hplayed.count ▸ rfl, hjoined⟩

/-- Wherever the machine is from the last sign of life on, the stop set of the recovery has it,
within the tolerance in which heights are merged. -/
theorem reconstruct_contains (hsqrt : SqrtLaws arith)
    (h : reconstruct arith cases json inputs config = .ok (.recovery r))
    (hsegments : ∀ s ∈ r.timeline.toolheadSegments ++ r.timeline.extruderSegments,
      0 ≤ s.duration ∧ s.monoNs < 2 ^ 64) :
    r.Contains arith cases inputs config := by
  obtain ⟨htol, hwindow, S, hset, hS⟩ := reconstruct_recovery h
  obtain ⟨halive, hordered⟩ := window_alive hwindow
  have hextension : r.stopSet.extension = S.extension := by rw [hS]
  constructor
  · exact halive
  · rintro t p ⟨hlo, hcut⟩ hp
    rw [hS] at hcut ⊢
    exact (stopSet_journaled hset htol hordered hsegments hlo hcut).1 hp
  · rintro t p ⟨hlo, hcut⟩ hp
    rw [hS] at hcut ⊢
    exact (stopSet_journaled hset htol hordered hsegments hlo hcut).2 hp
  · intro anchor vsd tail hanchor hvsd htail
    obtain ⟨state, result, sim, hstate, hplayed, -⟩ := plays_extension hset hanchor hvsd htail
    exact ⟨state, _, anchor, vsd, tail, result.summary, hanchor, hvsd, htail, hstate,
      hextension.trans hplayed, rfl⟩
  · intro state lines hplays hlong q hq
    obtain ⟨result, sim, all, hplayed, rfl, wal, walE, eFile, hSxy, hSz, hSinternal, -⟩ :=
      plays_sim hset hextension hplays
    obtain ⟨hqx, hqy, hqe, c, hc, hqz⟩ := extension_has hsqrt sim state all .none hlong hq
    rw [← hplayed.count, ← hplayed.z] at hc
    obtain ⟨⟨box, hbox, hsub⟩, hcandidates, ⟨i, hi, hsubE⟩, -⟩ :=
      joinExtension_ext wal walE eFile hplayed.xy hplayed.eInternal hplayed.eFile
    have hheight : ∃ c ∈ S.zCandidates, c.z.contains q.z config.zMergeTolerance := by
      rw [hSz]
      exact mergeZCandidates_contains htol (hcandidates c hc) hqz
    rw [hS]
    exact ⟨⟨⟨box, hSxy.trans hbox, Interval.mem_of_subset hsub.1 hqx,
      Interval.mem_of_subset hsub.2 hqy⟩, hheight⟩, i, hSinternal.trans hi,
      Interval.mem_of_subset hsubE hqe⟩
  · intro state lines hplays n
    obtain ⟨result, sim, all, hplayed, rfl, wal, walE, eFile, -, -, -, hSfile⟩ :=
      plays_sim hset hextension hplays
    obtain ⟨-, -, -, j, hj, hsub⟩ :=
      joinExtension_ext wal walE eFile hplayed.xy hplayed.eInternal hplayed.eFile
    have happlies := (simulate_replay arith sim state all).2
    rw [hplayed.count] at hsub
    rw [hS]
    exact ⟨j, hSfile.trans hj, Interval.mem_of_subset hsub
      (replayE_spec _ state _ false happlies Interval.mem_point n).1⟩

end Recovery

section Example

def Reconstruction.recovered {K : Type} : Reconstruction K → Option (RecoveryReconstruction K)
  | .cleanShutdown _ => none
  | .recovery r => some r

/-- A print dies at thirty seconds, with ten seconds of motion planned. -/
def dyingInputs : ReconstructInputs where
  scan := ⟨none, [(28, .context (contextAt (28 * 10 ^ 9) 5)),
    (90, .trapqSegment ⟨28 * 10 ^ 9, "toolhead", .fin 29, .fin 10, .fin 5, .fin 0, .fin 0, .fin 0,
      .fin 2, .fin 1, .fin 0, .fin 0⟩)], 0, .truncatedPayload⟩
  heartbeat := some
    ⟨⟨1, 30000000000, 0, 0x403E000000000000, 30000000000, 0x403E000000000000, 0⟩, .a, none⟩
  receiveSeq := none
  fileTail := some exampleTail
  powerFailEdgeMonoNs := none

def dyingPrint : Except ReconstructError (Reconstruction ℚ) :=
  reconstruct Gcode.rationals Gcode.asciiCase ⟨fun _ => none, fun _ => none⟩ dyingInputs
    exampleConfig

/-- The state of the last context, and the one line behind it. -/
def dyingState : GcodeState ℚ :=
  (anchorState (contextAt (28 * 10 ^ 9) 5).gcode).toOption.getD GcodeState.new

def dyingLines : List Line := collectLines Gcode.asciiCase exampleTail 5 none

/-- Half way through the line behind the last context. -/
theorem reconstruct_contains_dying : ∃ r, dyingPrint = .ok (.recovery r) ∧
    r.Contains Gcode.rationals Gcode.asciiCase dyingInputs exampleConfig ∧
    r.stopSet.HasPlace (1 / 100) ⟨55, 50, 2⟩ := by
  have hrecovers : ((dyingPrint.toOption.bind Reconstruction.recovered).map fun r =>
      (decide (∀ s ∈ r.timeline.toolheadSegments ++ r.timeline.extruderSegments,
        0 ≤ s.duration ∧ s.monoNs < 2 ^ 64),
        r.timeline.contexts, r.stopSet.extension.map (·.linesConsumed))) =
      some (true, [contextAt (28 * 10 ^ 9) 5], some 1) := by
    decide +kernel
  obtain ⟨r, hr, hfacts⟩ := Option.map_eq_some_iff.mp hrecovers
  obtain ⟨outcome, houtcome, hrecovered⟩ := Option.bind_eq_some_iff.mp hr
  simp only [Prod.mk.injEq, decide_eq_true_eq] at hfacts
  obtain ⟨hsegments, hcontexts, hcount⟩ := hfacts
  have hok : dyingPrint = .ok (.recovery r) := by
    cases hprint : dyingPrint with
    | error e =>
      rw [hprint] at houtcome
      cases houtcome
    | ok found =>
      rw [hprint] at houtcome
      obtain rfl : found = outcome := Option.some.inj houtcome
      cases found with
      | cleanShutdown t => cases hrecovered
      | recovery r' =>
        obtain rfl : r' = r := Option.some.inj hrecovered
        rfl
  have hcontains : r.Contains Gcode.rationals Gcode.asciiCase dyingInputs exampleConfig :=
    reconstruct_contains sqrtLaws_rationals hok hsegments
  refine ⟨r, hok, hcontains, ?_⟩
  obtain ⟨summary, hsummary, hone⟩ := Option.map_eq_some_iff.mp hcount
  have hstate : (anchorState (contextAt (28 * 10 ^ 9) 5).gcode : Except ReconstructError
      (GcodeState ℚ)) = .ok dyingState := by
    have hruns : (anchorState (contextAt (28 * 10 ^ 9) 5).gcode : Except ReconstructError
        (GcodeState ℚ)).toOption.isSome = true := by
      decide +kernel
    unfold dyingState
    cases hanchor : (anchorState (contextAt (28 * 10 ^ 9) 5).gcode : Except ReconstructError
        (GcodeState ℚ)) with
    | error e =>
      rw [hanchor] at hruns
      cases hruns
    | ok state => rfl
  have hplays : r.Plays Gcode.asciiCase dyingInputs exampleConfig dyingState dyingLines := by
    refine ⟨contextAt (28 * 10 ^ 9) 5, ⟨"/g/a.gcode", 5, none⟩, exampleTail, summary, ?_, rfl, rfl,
      hstate, hsummary, ?_⟩
    · rw [hcontexts]
      rfl
    · rw [hone]
      exact (List.take_of_length_le (by decide +kernel)).symm
  have hlegs : legs dyingState.lastPosition (route Gcode.rationals dyingState dyingLines) =
      [(⟨50, 50, 2, 7⟩, ⟨60, 50, 2, 7⟩)] := by
    decide +kernel
  have hlong : NoShortTravel Gcode.rationals (legs dyingState.lastPosition
      (route Gcode.rationals dyingState dyingLines)) := by
    have hroot : Nat.sqrt 100 = 10 := Nat.sqrt_eq 10
    have hten : ¬travel Gcode.rationals (⟨50, 50, 2, 7⟩, ⟨60, 50, 2, 7⟩) <
        GcodeState.minKinematicMove := by
      norm_num [travel, Gcode.rationals, GcodeState.minKinematicMove, hroot]
    rw [hlegs]
    rintro leg hleg ⟨-, hshort⟩
    rw [List.mem_singleton.mp hleg] at hshort
    exact hten hshort
  have hway : OnWay dyingState.lastPosition (route Gcode.rationals dyingState dyingLines)
      (partWay ⟨50, 50, 2, 7⟩ ⟨60, 50, 2, 7⟩ (1 / 2)) := by
    have hfirst : (⟨50, 50, 2, 7⟩, ⟨60, 50, 2, 7⟩) ∈
        legs dyingState.lastPosition (route Gcode.rationals dyingState dyingLines) :=
      hlegs ▸ List.mem_cons_self
    exact .moving hfirst (by norm_num) (by norm_num)
  have hplace := (hcontains.ahead dyingState dyingLines hplays hlong _ hway).1
  have hpoint : (partWay (⟨50, 50, 2, 7⟩ : Axes ℚ) ⟨60, 50, 2, 7⟩ (1 / 2)).point = ⟨55, 50, 2⟩ := by
    decide +kernel
  rw [hpoint] at hplace
  exact hplace

end Example

end DeadReckoning.Reconstruct
