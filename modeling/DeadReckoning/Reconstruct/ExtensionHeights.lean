import DeadReckoning.Gcode.Waypoints
import DeadReckoning.Reconstruct.Shorter

/-! The heights of the extension: the lines are replayed twice, once with times and once for the
changes of height, and every height that the toolhead can have is among the candidates. -/
namespace DeadReckoning.Reconstruct

open Gcode (Arithmetic Axes GcodeState Line PlannedMove SimConfig SimLoop ZEvent scanZEvents
  simulate zEventOf)
open Gcode.GcodeState (Applies SqrtLaws kept legs replay replay_onRoute route stateAfter travel)

section Replays

variable {K : Type} [Field K] [LinearOrder K] {arith : Arithmetic K}

/-- The moves that the loop plans are those of the lines that it consumes, and none of these
fails. -/
theorem run_replay (config : SimConfig K) (lines : List Line) (loop : SimLoop K) :
    ∃ n, (loop.run arith config lines).linesConsumed = loop.linesConsumed + n ∧
      (loop.run arith config lines).planned =
        loop.planned ++ replay arith loop.state (lines.take n) ∧
      Applies arith loop.state (lines.take n) := by
  induction lines generalizing loop with
  | nil => exact ⟨0, rfl, (List.append_nil _).symm, trivial⟩
  | cons line lines ih =>
    have hnone : ∃ n, loop.linesConsumed = loop.linesConsumed + n ∧
        loop.planned = loop.planned ++ replay arith loop.state ((line :: lines).take n) ∧
        Applies arith loop.state ((line :: lines).take n) :=
      ⟨0, rfl, (List.append_nil _).symm, trivial⟩
    unfold SimLoop.run
    split
    · exact hnone
    · split
      · exact hnone
      · rename_i outcome state happly
        have hmoves : (loop.state.apply arith line).moves = outcome.moves := by rw [happly]; rfl
        have hnext : (loop.state.apply arith line).2 = state := by rw [happly]
        have hok : ∃ o, (loop.state.apply arith line).1 = .ok o := ⟨outcome, by rw [happly]⟩
        dsimp only
        split
        · refine ⟨1, rfl, ?_, hok, trivial⟩
          simp only [List.take_succ_cons, List.take_zero, replay, hmoves, List.append_nil]
          rfl
        · obtain ⟨n, hcount, hplanned, happlies⟩ :=
            ih (loop.consume arith config line outcome.moves state)
          refine ⟨n + 1, hcount.trans (by simp [SimLoop.consume]; omega), ?_, hok, ?_⟩
          · rw [hplanned, List.take_succ_cons, replay, hmoves, hnext, ← List.append_assoc]
            rfl
          · rw [hnext]
            exact happlies

/-- What a simulation plans is what the interpreter makes of the lines that it consumes. -/
theorem simulate_replay (arith : Arithmetic K) (config : SimConfig K) (state : GcodeState K)
    (lines : List Line) :
    (simulate arith config state lines).moves.map (·.planned) =
        replay arith state (lines.take (simulate arith config state lines).linesConsumed) ∧
      Applies arith state (lines.take (simulate arith config state lines).linesConsumed) := by
  obtain ⟨n, hcount, hplanned, happlies⟩ : ∃ n, _ ∧ _ ∧ _ :=
    run_replay config lines (SimLoop.start state)
  have hlines : (simulate arith config state lines).linesConsumed = n := by
    have hsame : (simulate arith config state lines).linesConsumed =
        ((SimLoop.start state).run arith config lines).linesConsumed := rfl
    rw [hsame, hcount]
    exact Nat.zero_add n
  rw [hlines]
  exact ⟨(planTimes_planned config _).trans hplanned, happlies⟩

/-- The scan of lines that all apply goes to their end. -/
theorem scanZEventsFrom_replay (lines : List Line) (state : GcodeState K) (scan : Gcode.ZScan K)
    (happlies : Applies arith state lines) :
    Gcode.scanZEventsFrom arith ⟨none, none⟩ state scan lines =
      { scan with
        events := scan.events ++ (replay arith state lines).filterMap (zEventOf arith)
        linesConsumed := scan.linesConsumed + lines.length } := by
  induction lines generalizing state scan with
  | nil => simp [Gcode.scanZEventsFrom, replay]
  | cons line lines ih =>
    obtain ⟨⟨outcome, hok⟩, hrest⟩ := happlies
    cases happly : state.apply arith line with
    | mk result next =>
      rw [happly] at hok hrest
      dsimp only at hok
      subst hok
      have hmoves : (state.apply arith line).moves = outcome.moves := by rw [happly]; rfl
      have hnext : (state.apply arith line).2 = next := by rw [happly]
      unfold Gcode.scanZEventsFrom
      rw [if_neg (by simp), happly]
      dsimp only
      rw [collectEvents_all, if_pos rfl, ih next _ hrest]
      rw [replay, hmoves, hnext, List.filterMap_append, List.append_assoc, List.length_cons]
      have hlen : scan.linesConsumed + 1 + lines.length =
          scan.linesConsumed + (lines.length + 1) := by
        omega
      rw [hlen]

theorem scanZEvents_replay {lines : List Line} {state : GcodeState K}
    (happlies : Applies arith state lines) :
    scanZEvents arith ⟨none, none⟩ state lines =
      ⟨(replay arith state lines).filterMap (zEventOf arith), .endOfInput, lines.length⟩ := by
  unfold scanZEvents
  rw [scanZEventsFrom_replay lines state _ happlies]
  simp

theorem mem_candidates {state : GcodeState K} {lines : List Line}
    (happlies : Applies arith state lines) (d : Degradation) (c : ZCandidate K) :
    c ∈ (extensionZCandidates arith state lines d).1 ↔
      c = ⟨.point state.lastPosition.z, .extension, true, .plateau⟩ ∨
      ∃ m ∈ replay arith state lines, ∃ event, zEventOf arith m = some event ∧
        (c = ⟨.fromPair event.zFrom event.zTo, .extension, event.zKnown, .ramp⟩ ∨
          c = ⟨.point event.zTo, .extension, event.zKnown, .plateau⟩) := by
  unfold extensionZCandidates
  rw [scanZEvents_replay happlies]
  simp only [List.mem_cons, List.mem_flatMap, List.mem_filterMap, List.not_mem_nil, or_false]
  constructor
  · rintro (hanchor | ⟨event, ⟨m, hm, hevent⟩, hc⟩)
    · exact .inl hanchor
    · exact .inr ⟨m, hm, event, hevent, hc⟩
  · rintro (hanchor | ⟨m, hm, event, hevent, hc⟩)
    · exact .inl hanchor
    · exact .inr ⟨event, ⟨m, hm, hevent⟩, hc⟩

theorem zEventOf_some {m : PlannedMove K} (h : (m.kinematicEnd arith).z ≠ m.start.z) :
    ∃ event, zEventOf arith m = some event ∧ event.zFrom = m.start.z ∧
      event.zTo = (m.kinematicEnd arith).z :=
  ⟨_, if_neg h, rfl, rfl⟩

theorem zEventOf_eq {m : PlannedMove K} {event : ZEvent K} (h : zEventOf arith m = some event) :
    (m.kinematicEnd arith).z ≠ m.start.z ∧ event.zFrom = m.start.z ∧
      event.zTo = (m.kinematicEnd arith).z ∧
      event.zKnown = (m.startKnown.z && m.stopKnown.z) := by
  unfold zEventOf at h
  dsimp only at h
  split_ifs at h with hsame
  cases h
  exact ⟨hsame, rfl, rfl, rfl⟩

end Replays

section Heights

variable {K : Type} [Field K] [LinearOrder K] [IsStrictOrderedRing K] {arith : Arithmetic K}
  {state : GcodeState K}

/-- No leg is shorter than what the kinematics take for a move, unless it goes nowhere. -/
def NoShortTravel (arith : Arithmetic K) (ways : List (Axes K × Axes K)) : Prop :=
  ∀ leg ∈ ways, ¬(0 < travel arith leg ∧ travel arith leg < GcodeState.minKinematicMove)

/-- Some candidate covers the height. -/
def Covered (candidates : List (ZCandidate K)) (z : K) : Prop := ∃ c ∈ candidates, z ∈ c.z

theorem height_of_travel (hsqrt : SqrtLaws arith) {leg : Axes K × Axes K}
    (hshort : travel arith leg < GcodeState.minKinematicMove)
    (hlong : ¬(0 < travel arith leg ∧ travel arith leg < GcodeState.minKinematicMove)) :
    leg.2.z = leg.1.z := by
  have hzero : travel arith leg = 0 := by
    by_contra hne
    exact hlong ⟨lt_of_le_of_ne (hsqrt.nonneg _) (Ne.symm hne), hshort⟩
  have hx := mul_self_nonneg (leg.2.x - leg.1.x)
  have hy := mul_self_nonneg (leg.2.y - leg.1.y)
  have hz := mul_self_nonneg (leg.2.z - leg.1.z)
  have hsum := hsqrt.eq_zero _ (add_nonneg (add_nonneg hx hy) hz) hzero
  have hdz : (leg.2.z - leg.1.z) * (leg.2.z - leg.1.z) = 0 := by linarith
  exact sub_eq_zero.mp (mul_self_eq_zero.mp hdz)

/-- A leg that is dropped goes nowhere. -/
theorem height_of_dropped (hsqrt : SqrtLaws arith) (leg : Axes K × Axes K)
    (hzero : Gcode.GcodeState.kinematicDistance arith leg.1 leg.2 = 0)
    (hlong : ¬(0 < travel arith leg ∧ travel arith leg < GcodeState.minKinematicMove)) :
    leg.2.z = leg.1.z := by
  by_cases hshort : travel arith leg < GcodeState.minKinematicMove
  · exact height_of_travel hsqrt hshort hlong
  · have hdistance : Gcode.GcodeState.kinematicDistance arith leg.1 leg.2 = travel arith leg :=
      if_neg hshort
    have hpos : (0 : K) < GcodeState.minKinematicMove := by
      unfold Gcode.GcodeState.minKinematicMove
      positivity
    rw [hdistance] at hzero
    exact absurd (hzero ▸ hpos) hshort

/-- The toolhead goes where the move ends. -/
theorem kinematicEnd_height (hsqrt : SqrtLaws arith) {m : PlannedMove K}
    (hlong : ¬(0 < travel arith (m.start, m.stop) ∧
      travel arith (m.start, m.stop) < GcodeState.minKinematicMove)) :
    (m.kinematicEnd arith).z = m.stop.z := by
  unfold Gcode.PlannedMove.kinematicEnd
  split_ifs with hextrude
  · have hshort : travel arith (m.start, m.stop) < GcodeState.minKinematicMove :=
      of_decide_eq_true hextrude
    exact (height_of_travel hsqrt hshort hlong).symm
  · rfl

/-- Along the legs the height stays covered when every move that is made of one is. -/
theorem legs_covered (hsqrt : SqrtLaws arith) {candidates : List (ZCandidate K)} (p : Axes K)
    (points : List (Axes K)) (hlong : NoShortTravel arith (legs p points))
    (hstart : Covered candidates p.z)
    (hmoves : ∀ leg ∈ kept arith (legs p points), leg.2.z ≠ leg.1.z →
      Covered candidates leg.2.z) :
    (∀ leg ∈ legs p points, Covered candidates leg.1.z ∧ Covered candidates leg.2.z) ∧
      Covered candidates (points.getLastD p).z := by
  induction points generalizing p with
  | nil => exact ⟨nofun, hstart⟩
  | cons q points ih =>
    have hleg := hlong (p, q) List.mem_cons_self
    have hq : Covered candidates q.z := by
      by_cases hsame : q.z = p.z
      · rw [hsame]
        exact hstart
      · refine hmoves (p, q) (List.mem_filter.mpr ⟨List.mem_cons_self, ?_⟩) hsame
        refine decide_eq_true fun hzero => hsame ?_
        exact height_of_dropped hsqrt (p, q) hzero hleg
    obtain ⟨hrest, hlast⟩ := ih q (fun leg h => hlong leg (List.mem_cons_of_mem _ h)) hq
      fun leg h => hmoves leg (by
        unfold Gcode.GcodeState.kept at h ⊢
        rw [List.mem_filter] at h ⊢
        exact ⟨List.mem_cons_of_mem _ h.1, h.2⟩)
    refine ⟨?_, ?_⟩
    · rintro leg hmem
      rcases List.mem_cons.mp hmem with rfl | hmem
      · exact ⟨hstart, hq⟩
      · exact hrest leg hmem
    · rw [List.getLastD_cons]
      exact hlast

/-- The heights that the candidates give for the lines that a simulation consumes. -/
structure ExactHeights (arith : Arithmetic K) (config : SimConfig K) (state : GcodeState K)
    (lines : List Line) (d : Degradation) : Prop where
  /-- Both replays see the moves of the interpreter. -/
  simulated : (simulate arith config state lines).moves.map (·.planned) =
    replay arith state (lines.take (simulate arith config state lines).linesConsumed)
  scanned : scanZEvents arith ⟨none, none⟩ state
      (lines.take (simulate arith config state lines).linesConsumed) =
    ⟨((simulate arith config state lines).moves.map (·.planned)).filterMap (zEventOf arith),
      .endOfInput,
      (lines.take (simulate arith config state lines).linesConsumed).length⟩
  before : Covered (extensionZCandidates arith state
    (lines.take (simulate arith config state lines).linesConsumed) d).1 state.lastPosition.z
  along : ∀ tm ∈ (simulate arith config state lines).moves, ∀ z,
    z ∈ Interval.fromPair tm.planned.start.z (tm.planned.kinematicEnd arith).z →
    Covered (extensionZCandidates arith state
      (lines.take (simulate arith config state lines).linesConsumed) d).1 z
  after : Covered (extensionZCandidates arith state
      (lines.take (simulate arith config state lines).linesConsumed) d).1
    (stateAfter arith state
      (lines.take (simulate arith config state lines).linesConsumed)).lastPosition.z
  /-- No candidate is made up. -/
  only : ∀ c ∈ (extensionZCandidates arith state
      (lines.take (simulate arith config state lines).linesConsumed) d).1,
    c = ⟨.point state.lastPosition.z, .extension, true, .plateau⟩ ∨
    ∃ tm ∈ (simulate arith config state lines).moves,
      (tm.planned.kinematicEnd arith).z ≠ tm.planned.start.z ∧
      (c.z = .fromPair tm.planned.start.z (tm.planned.kinematicEnd arith).z ∨
        c.z = .point (tm.planned.kinematicEnd arith).z)

theorem extensionZCandidates_exact (hsqrt : SqrtLaws arith) (config : SimConfig K)
    (state : GcodeState K) (lines : List Line) (d : Degradation)
    (hlong : NoShortTravel arith (legs state.lastPosition (route arith state
      (lines.take (simulate arith config state lines).linesConsumed)))) :
    ExactHeights arith config state lines d := by
  obtain ⟨hsimulated, happlies⟩ := simulate_replay arith config state lines
  set consumed := lines.take (simulate arith config state lines).linesConsumed with hconsumed
  have hroute := replay_onRoute (s := state) hsqrt consumed
  have hmem := mem_candidates happlies d
  set candidates := (extensionZCandidates arith state consumed d).1 with hcandidates
  have hplanned : ∀ m, m ∈ replay arith state consumed ↔
      ∃ tm ∈ (simulate arith config state lines).moves, tm.planned = m := by
    intro m
    rw [← hsimulated, List.mem_map]
  have hanchor : Covered candidates state.lastPosition.z :=
    ⟨_, (hmem _).mpr (.inl rfl), Interval.mem_point⟩
  -- a move that changes the height has its ramp and its plateau
  have hchange : ∀ m ∈ replay arith state consumed, (m.kinematicEnd arith).z ≠ m.start.z →
      ∀ z ∈ Interval.fromPair m.start.z (m.kinematicEnd arith).z, Covered candidates z := by
    intro m hm hne z hz
    obtain ⟨event, hevent, hfrom, hto⟩ := zEventOf_some hne
    exact ⟨_, (hmem _).mpr (.inr ⟨m, hm, event, hevent, .inl rfl⟩), by rwa [hfrom, hto]⟩
  have hlegs : ∀ m ∈ replay arith state consumed,
      (m.start, m.stop) ∈ kept arith (legs state.lastPosition (route arith state consumed)) := by
    intro m hm
    rw [← hroute.ends]
    exact List.mem_map_of_mem hm
  have hends : ∀ m ∈ replay arith state consumed, (m.kinematicEnd arith).z = m.stop.z := fun m hm =>
    kinematicEnd_height hsqrt (hlong _ (List.mem_filter.mp (hlegs m hm)).1)
  obtain ⟨hcovered, hlast⟩ := legs_covered hsqrt state.lastPosition (route arith state consumed)
    hlong hanchor (by
      intro leg hleg hne
      rw [← hroute.ends] at hleg
      obtain ⟨m, hm, rfl⟩ := List.mem_map.mp hleg
      have hend := hends m hm
      refine hchange m hm (hend ▸ hne) _ ?_
      rw [hend]
      exact ⟨min_le_right _ _, le_max_right _ _⟩)
  constructor
  · exact hsimulated
  · rw [hsimulated]
    exact scanZEvents_replay happlies
  · exact hanchor
  · intro tm htm z hz
    have hm := (hplanned _).mpr ⟨tm, htm, rfl⟩
    by_cases hne : (tm.planned.kinematicEnd arith).z ≠ tm.planned.start.z
    · exact hchange _ hm hne z hz
    · rw [not_not.mp hne] at hz
      have hsame : z = tm.planned.start.z :=
        le_antisymm (hz.2.trans_eq (max_self _)) ((min_self _).symm.trans_le hz.1)
      rw [hsame]
      exact (hcovered _ (List.mem_filter.mp (hlegs _ hm)).1).1
  · rw [← hroute.last]
    exact hlast
  · intro c hc
    rcases (hmem c).mp hc with hanchor | ⟨m, hm, event, hevent, hc⟩
    · exact .inl hanchor
    · obtain ⟨tm, htm, rfl⟩ := (hplanned m).mp hm
      obtain ⟨hne, hfrom, hto, -⟩ := zEventOf_eq hevent
      refine .inr ⟨tm, htm, hne, ?_⟩
      rw [← hfrom, ← hto]
      rcases hc with rfl | rfl
      · exact .inl rfl
      · exact .inr rfl

end Heights

section Homing

variable {K : Type} [Field K] [LinearOrder K] {arith : Arithmetic K} {state : GcodeState K}
  {lines : List Line}

/-- The line homes the height. -/
def homesZ (line : Line) : Bool :=
  match line.body with
  | .command cmd _ =>
      Gcode.GcodeState.kindOf cmd.name = .home && (Gcode.GcodeState.homedAxes cmd).z
  | _ => false

/-- The move changes the height. -/
def changesZ (arith : Arithmetic K) (m : PlannedMove K) : Bool :=
  (m.kinematicEnd arith).z ≠ m.start.z

/-- The levels behind the anchor. -/
def plateaus (candidates : List (ZCandidate K)) : List (ZCandidate K) :=
  candidates.tail.filter (·.kind = .plateau)

/-- The level behind a move, as far as the interpreter knows it. -/
def levelBehind (arith : Arithmetic K) (m : PlannedMove K) : ZCandidate K :=
  ⟨.point (m.kinematicEnd arith).z, .extension, m.stopKnown.z, .plateau⟩

/-- A line that homes the height degrades the extension, and a level is trusted as far as the
interpreter trusts it. -/
structure HomingHonest (arith : Arithmetic K) (state : GcodeState K) (consumed : List Line) :
    Prop where
  degrades : (∃ line ∈ consumed, homesZ line) →
    ∀ d, (extensionZCandidates arith state consumed d).2.unknownZInExtension = true
  levels : ∀ d, plateaus (extensionZCandidates arith state consumed d).1 =
    ((replay arith state consumed).filter (changesZ arith)).map (levelBehind arith)

/-- Behind a line that homes the height there is a move that changes it from or to an unknown one,
and no such move makes it known. -/
structure EvidenceMoves (arith : Arithmetic K) (state : GcodeState K) (consumed : List Line) :
    Prop where
  unknown : (∃ line ∈ consumed, homesZ line) →
    ∃ m ∈ replay arith state consumed, changesZ arith m = true ∧
      (m.startKnown.z = false ∨ m.stopKnown.z = false)
  kept : ∀ m ∈ replay arith state consumed, changesZ arith m = true →
    m.stopKnown.z = true → m.startKnown.z = true

theorem plateaus_eq (happlies : Applies arith state lines) (d : Degradation) :
    plateaus (extensionZCandidates arith state lines d).1 =
      ((replay arith state lines).filter (changesZ arith)).map fun m =>
        { levelBehind arith m with zKnown := m.startKnown.z && m.stopKnown.z } := by
  unfold extensionZCandidates plateaus
  rw [scanZEvents_replay happlies]
  dsimp only [List.tail_cons]
  induction replay arith state lines with
  | nil => rfl
  | cons m moves ih =>
    by_cases hchange : (m.kinematicEnd arith).z = m.start.z
    · have hevent : zEventOf arith m = none := if_pos hchange
      have hstays : changesZ arith m = false := by simp [changesZ, hchange]
      rw [List.filterMap_cons_none hevent, List.filter_cons_of_neg (by simp [hstays])]
      exact ih
    · have hevent : zEventOf arith m = some _ := if_neg hchange
      have hmoves : changesZ arith m = true := by simp [changesZ, hchange]
      rw [List.filterMap_cons_some hevent, List.filter_cons_of_pos hmoves, List.flatMap_cons,
        List.filter_append, ih]
      rfl

theorem degrades_iff (happlies : Applies arith state lines) :
    (∀ d, (extensionZCandidates arith state lines d).2.unknownZInExtension = true) ↔
      ∃ m ∈ replay arith state lines, changesZ arith m = true ∧
        (m.startKnown.z = false ∨ m.stopKnown.z = false) := by
  have hevents : (∃ event ∈ (replay arith state lines).filterMap (zEventOf arith),
      event.zKnown = false) ↔ ∃ m ∈ replay arith state lines, changesZ arith m = true ∧
        (m.startKnown.z = false ∨ m.stopKnown.z = false) := by
    constructor
    · rintro ⟨event, hevent, hunknown⟩
      obtain ⟨m, hm, heq⟩ := List.mem_filterMap.mp hevent
      obtain ⟨hne, -, -, hknown⟩ := zEventOf_eq heq
      rw [hknown, Bool.and_eq_false_iff] at hunknown
      exact ⟨m, hm, by simpa [changesZ] using hne, hunknown⟩
    · rintro ⟨m, hm, hchange, hunknown⟩
      have hne : (m.kinematicEnd arith).z ≠ m.start.z := by simpa [changesZ] using hchange
      exact ⟨_, List.mem_filterMap.mpr ⟨m, hm, if_neg hne⟩, Bool.and_eq_false_iff.mpr hunknown⟩
  rw [← hevents]
  unfold extensionZCandidates
  rw [scanZEvents_replay happlies]
  dsimp only
  constructor
  · intro h
    have hnone := h .none
    split_ifs at hnone with hany
    · obtain ⟨event, hevent, hunknown⟩ := List.any_eq_true.mp hany
      exact ⟨event, hevent, by simpa using hunknown⟩
    · cases hnone
  · rintro ⟨event, hevent, hunknown⟩ d
    rw [if_pos (List.any_eq_true.mpr ⟨event, hevent, by simp [hunknown]⟩)]

def homed : Line := ⟨⟨0, 4⟩, Gcode.parseLine Gcode.asciiCase (lit "G28")⟩

def raised : Line := ⟨⟨4, 15⟩, Gcode.parseLine Gcode.asciiCase (lit "G1 Z1 F600")⟩

end Homing

section Rationals

theorem sqrtLaws_rationals : SqrtLaws Gcode.rationals where
  zero := Rat.sqrt_ofNat 0
  nonneg x := Rat.sqrt_nonneg x
  eq_zero x hx hzero := by
    have hden : Nat.sqrt x.den ≠ 0 := (Nat.sqrt_pos.mpr x.den_pos).ne'
    have hroot : Int.sqrt x.num = 0 := by
      have hzero : Rat.sqrt x = 0 := hzero
      rwa [Rat.sqrt, Rat.mkRat_eq_zero hden] at hzero
    have hnat : Nat.sqrt x.num.toNat = 0 := Int.natCast_eq_zero.mp hroot
    have hle : x.num.toNat = 0 := Nat.sqrt_eq_zero.mp hnat
    have hnonneg : 0 ≤ x.num := Rat.num_nonneg.mpr hx
    exact Rat.num_eq_zero.mp (by omega)

def wholeFile : SimConfig ℚ := ⟨300, 3000, 5, none, none⟩

/-- One millimetre up, then five to the side. -/
def hopLines : List Line :=
  [⟨⟨0, 11⟩, Gcode.parseLine Gcode.asciiCase (lit "G1 Z1 F600")⟩,
    ⟨⟨11, 17⟩, Gcode.parseLine Gcode.asciiCase (lit "G1 X5")⟩]

theorem extensionZCandidates_exact_hop :
    ExactHeights Gcode.rationals wholeFile GcodeState.new hopLines .none := by
  refine extensionZCandidates_exact sqrtLaws_rationals _ _ _ _ ?_
  have hlegs : legs (GcodeState.new : GcodeState ℚ).lastPosition (route Gcode.rationals .new
      (hopLines.take (simulate Gcode.rationals wholeFile .new hopLines).linesConsumed)) =
      [(⟨0, 0, 0, 0⟩, ⟨0, 0, 1, 0⟩), (⟨0, 0, 1, 0⟩, ⟨5, 0, 1, 0⟩)] := by
    decide +kernel
  rw [hlegs]
  have hroot : Nat.sqrt 25 = 5 := Nat.sqrt_eq 5
  have hone : ¬travel Gcode.rationals (⟨0, 0, 0, 0⟩, ⟨0, 0, 1, 0⟩) <
      GcodeState.minKinematicMove := by
    norm_num [travel, Gcode.rationals, GcodeState.minKinematicMove]
  have hfive : ¬travel Gcode.rationals (⟨0, 0, 1, 0⟩, ⟨5, 0, 1, 0⟩) <
      GcodeState.minKinematicMove := by
    norm_num [travel, Gcode.rationals, GcodeState.minKinematicMove, hroot]
  rintro leg hleg ⟨-, hshort⟩
  rcases List.mem_cons.mp hleg with rfl | hleg
  · exact hone hshort
  · rw [List.mem_singleton] at hleg
    subst hleg
    exact hfive hshort

end Rationals

end DeadReckoning.Reconstruct
