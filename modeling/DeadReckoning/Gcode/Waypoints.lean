import DeadReckoning.Gcode.Laws

/-! The way of the toolhead through a program: every point that a move goes to, whether the move is
kept or dropped, and the moves as the legs of that way. -/
namespace DeadReckoning.Gcode.GcodeState

open Applied

section Route

variable {K : Type} [Field K] [LinearOrder K] (arith : Arithmetic K)

/-- The legs from a point through others. -/
def legs {α : Type} : α → List α → List (α × α)
  | _, [] => []
  | p, q :: rest => (p, q) :: legs q rest

/-- The ends of the chords of an arc. -/
def chordEnds : List (ArcSegment K) → GcodeState K → List (Axes K)
  | [], _ => []
  | segment :: segments, s =>
      let after := s.moveTo
        ⟨some segment.target.x, some segment.target.y, some segment.target.z, segment.e⟩ segment.f
      after.lastPosition :: chordEnds segments after

def commandPoints (s : GcodeState K) (cmd : Command) (span : ByteSpan) : List (Axes K) :=
  match kindOf cmd.name with
  | .arc clockwise =>
      match s.arcSegments arith cmd clockwise with
      | .error _ => []
      | .ok segments => chordEnds segments s
  | _ => [(s.applyCommand arith cmd span).2.lastPosition]

/-- The points that a line goes to; only an arc goes to several. -/
def waypoints (s : GcodeState K) (line : Line) : List (Axes K) :=
  match line.body with
  | .command cmd _ => s.commandPoints arith cmd line.span
  | _ => []

def route : GcodeState K → List Line → List (Axes K)
  | _, [] => []
  | s, line :: lines => s.waypoints arith line ++ route (s.apply arith line).2 lines

/-- The moves of the lines. -/
def replay : GcodeState K → List Line → List (PlannedMove K)
  | _, [] => []
  | s, line :: lines => (s.apply arith line).moves ++ replay (s.apply arith line).2 lines

/-- No line fails. -/
def Applies : GcodeState K → List Line → Prop
  | _, [] => True
  | s, line :: lines =>
      (∃ outcome, (s.apply arith line).1 = .ok outcome) ∧ Applies (s.apply arith line).2 lines

/-- The length of the way between two points. -/
def travel (leg : Axes K × Axes K) : K :=
  let dx := leg.2.x - leg.1.x
  let dy := leg.2.y - leg.1.y
  let dz := leg.2.z - leg.1.z
  arith.sqrt (dx * dx + dy * dy + dz * dz)

/-- The legs that are long enough to be moves. -/
def kept (ways : List (Axes K × Axes K)) : List (Axes K × Axes K) :=
  ways.filter fun leg => kinematicDistance arith leg.1 leg.2 ≠ 0

end Route

section Legs

variable {α : Type}

theorem legs_append (p : α) (first rest : List α) :
    legs p (first ++ rest) = legs p first ++ legs (first.getLastD p) rest := by
  induction first generalizing p with
  | nil => rfl
  | cons q first ih =>
    simp only [List.cons_append, legs, ih]
    cases first <;> rfl

theorem getLastD_append (p : α) (first rest : List α) :
    (first ++ rest).getLastD p = rest.getLastD (first.getLastD p) := by
  induction first generalizing p with
  | nil => rfl
  | cons q first ih =>
    simp only [List.cons_append, List.getLastD_cons, ih]

theorem legs_range (P : ℕ → α) (n : ℕ) :
    legs (P 0) ((List.range n).map fun k => P (k + 1)) =
      (List.range n).map fun k => (P k, P (k + 1)) := by
  induction n generalizing P with
  | zero => rfl
  | succ n ih =>
    simp only [List.range_succ_eq_map, List.map_cons, List.map_map, legs, Function.comp_def]
    exact congrArg _ (ih fun k => P (k + 1))

end Legs

section Moves

variable {K : Type} [Field K] [LinearOrder K] {arith : Arithmetic K} {s : GcodeState K}
  {span : ByteSpan}

/-- The square root is zero exactly at zero. -/
structure SqrtLaws (arith : Arithmetic K) : Prop where
  zero : arith.sqrt 0 = 0
  nonneg : ∀ x, 0 ≤ arith.sqrt x
  eq_zero : ∀ x, 0 ≤ x → arith.sqrt x = 0 → x = 0

/-- The start and the end of a move. -/
def ends (m : PlannedMove K) : Axes K × Axes K := (m.start, m.stop)

/-- The moves of a line are its legs that are kept. -/
structure OnRoute (arith : Arithmetic K) (p : Axes K) (points : List (Axes K))
    (moves : List (PlannedMove K)) (q : Axes K) : Prop where
  ends : moves.map ends = kept arith (legs p points)
  last : points.getLastD p = q

theorem OnRoute.nil (p : Axes K) : OnRoute arith p [] [] p := ⟨rfl, rfl⟩

theorem OnRoute.append {p q r : Axes K} {points points' : List (Axes K)}
    {moves moves' : List (PlannedMove K)} (h : OnRoute arith p points moves q)
    (h' : OnRoute arith q points' moves' r) :
    OnRoute arith p (points ++ points') (moves ++ moves') r where
  ends := by
    rw [List.map_append, h.ends, h'.ends, legs_append, h.last, kept, kept, kept, List.filter_append]
  last := by rw [getLastD_append, h.last, h'.last]

theorem emitMove_onRoute (start : Axes K) (startKnown : Axes Bool) (speed : K)
    (info : Option ArcSegmentInfo) :
    OnRoute arith start [s.lastPosition]
      (s.emitMove arith start startKnown speed span info).toList s.lastPosition := by
  refine ⟨?_, rfl⟩
  unfold emitMove
  split
  · rename_i hzero
    simp [kept, legs, hzero]
  · rename_i hdistance
    simp [kept, legs, hdistance, GcodeState.ends]

theorem applyChords_onRoute (count index : ℕ) (segments : List (ArcSegment K)) :
    OnRoute arith s.lastPosition (chordEnds segments s)
      (applyChords arith span count index segments s).1
      (applyChords arith span count index segments s).2.lastPosition := by
  induction segments generalizing index s with
  | nil => exact .nil _
  | cons segment segments ih => exact (emitMove_onRoute _ _ _ _).append (ih _)

variable [IsStrictOrderedRing K] (hsqrt : SqrtLaws arith)
include hsqrt

theorem kinematicDistance_self (p : Axes K) :
    kinematicDistance arith p p = 0 := by
  have hpos : (0 : K) < minKinematicMove := by
    unfold minKinematicMove
    positivity
  simp [kinematicDistance, hsqrt.zero, hpos, magnitude]

/-- A line without a move stays where it is. -/
theorem onRoute_stay (p : Axes K) : OnRoute arith p [p] [] p := by
  refine ⟨?_, rfl⟩
  simp [kept, legs, kinematicDistance_self hsqrt]

/-- A command goes to one point at most, the one where it ends. -/
def OneLeg (arith : Arithmetic K) (s : GcodeState K) (x : Applied K (ApplyOutcome K)) : Prop :=
  OnRoute arith s.lastPosition [x.2.lastPosition] x.moves x.2.lastPosition

theorem OneLeg.quiet {x : Applied K (ApplyOutcome K)} (hmoves : x.moves = [])
    (hlast : x.2.lastPosition = s.lastPosition) : OneLeg arith s x := by
  unfold OneLeg
  rw [hmoves, hlast]
  exact onRoute_stay hsqrt _

theorem oneLeg_andThen {α : Type} {x : Except (StateError K) α}
    {next : α → GcodeState K → Applied K (ApplyOutcome K)} (h : ∀ a, OneLeg arith s (next a s)) :
    OneLeg arith s (andThen (x, s) next) := by
  cases x with
  | error e => exact .quiet hsqrt rfl rfl
  | ok a => exact h a

theorem applyCommand_oneLeg {cmd : Command}
    (hkind : ∀ clockwise, kindOf cmd.name ≠ .arc clockwise) :
    OneLeg arith s (s.applyCommand arith cmd span) := by
  unfold applyCommand
  cases h : kindOf cmd.name with
  | arc clockwise => exact absurd h (hkind clockwise)
  | linear => exact oneLeg_andThen hsqrt fun words => emitMove_onRoute _ _ _ _
  | home => exact .quiet hsqrt rfl (cmdG28_last s cmd)
  | position =>
    exact oneLeg_andThen hsqrt fun words => .quiet hsqrt rfl (rebaseAll_same s words).2
  | acceleration => exact oneLeg_andThen hsqrt fun _ => .quiet hsqrt rfl rfl
  | speedFactor => exact oneLeg_andThen hsqrt fun _ => .quiet hsqrt rfl rfl
  | extrudeFactor => exact oneLeg_andThen hsqrt fun _ => .quiet hsqrt rfl rfl
  | saveState => exact oneLeg_andThen hsqrt fun _ => .quiet hsqrt rfl rfl
  | setOffset =>
    refine oneLeg_andThen hsqrt fun _ => ?_
    obtain ⟨-, hlast⟩ := shiftOrigins_same arith cmd offsetAxes (.uniform 0) s
    generalize shiftOrigins arith cmd offsetAxes (.uniform 0) s = shifted at hlast ⊢
    obtain ⟨result, t⟩ := shifted
    cases result with
    | error e => exact .quiet hsqrt rfl hlast
    | ok delta =>
      rw [andThen_ok]
      cases requestedMove arith cmd t.speed with
      | error e => exact .quiet hsqrt rfl hlast
      | ok speed =>
        cases speed with
        | none => exact .quiet hsqrt rfl hlast
        | some speed =>
          unfold OneLeg
          rw [← hlast]
          exact emitMove_onRoute _ _ _ _
  | restoreState =>
    refine oneLeg_andThen hsqrt fun _ => ?_
    cases s.savedStates (stateName cmd) with
    | none => exact .quiet hsqrt rfl rfl
    | some saved =>
      dsimp only
      cases requestedMove arith cmd (s.restore saved).speed with
      | error e => exact .quiet hsqrt rfl rfl
      | ok speed =>
        cases speed with
        | none => exact .quiet hsqrt rfl rfl
        | some speed => exact emitMove_onRoute _ _ _ _
  | _ => exact .quiet hsqrt rfl rfl

/-- A line follows its way. -/
theorem apply_onRoute (line : Line) :
    OnRoute arith s.lastPosition (s.waypoints arith line) (s.apply arith line).moves
      (s.apply arith line).2.lastPosition := by
  unfold waypoints apply
  cases line.body with
  | blank => exact .nil _
  | comment text => exact .nil _
  | command cmd comment =>
    dsimp only
    unfold commandPoints
    cases hkind : kindOf cmd.name with
    | arc clockwise =>
      have happly : s.applyCommand arith cmd line.span =
          s.cmdArc arith cmd line.span clockwise := by
        unfold applyCommand
        rw [hkind]
      rw [happly, cmdArc]
      dsimp only
      cases s.arcSegments arith cmd clockwise with
      | error e => exact .nil s.lastPosition
      | ok segments => exact applyChords_onRoute segments.length 1 segments
    | _ => exact applyCommand_oneLeg hsqrt (by simp [hkind])

/-- The moves of a program are the legs of its way that are kept. -/
theorem replay_onRoute (lines : List Line) :
    OnRoute arith s.lastPosition (route arith s lines) (replay arith s lines)
      (stateAfter arith s lines).lastPosition := by
  induction lines generalizing s with
  | nil => exact .nil _
  | cons line lines ih => exact (apply_onRoute hsqrt line).append ih

end Moves

end DeadReckoning.Gcode.GcodeState
