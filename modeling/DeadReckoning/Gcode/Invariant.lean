import DeadReckoning.Gcode.Atomicity
import Mathlib.Algebra.Order.Field.Basic
import Mathlib.Tactic.FieldSimp
import Mathlib.Tactic.Ring

/-! What holds along every program over exact arithmetic: the factors stay positive, and the
position changes through the moves only. -/
namespace DeadReckoning.Gcode

set_option linter.unusedSectionVars false

/-- The moves that a line made, none when it failed. -/
def Applied.moves {K : Type} (x : Applied K (ApplyOutcome K)) : List (PlannedMove K) :=
  match x.1 with
  | .ok outcome => outcome.moves
  | .error _ => []

namespace GcodeState

open Applied
open Checks (bind_eq_ok)

variable {K : Type} [Field K] [LinearOrder K] [IsStrictOrderedRing K]
  {arith : Arithmetic K} {s t : GcodeState K} {cmd : Command}

/-- From the one position to the other without a move, with a move that has no distance and is
dropped, or with one move. -/
inductive Stretch (arith : Arithmetic K) : Axes K → List (PlannedMove K) → Axes K → Prop
  | stay (p : Axes K) : Stretch arith p [] p
  | drop {p q : Axes K} : kinematicDistance arith p q = 0 → Stretch arith p [] q
  | move (m : PlannedMove K) : Stretch arith m.start [m] m.stop

/-- One stretch after the other. -/
inductive Travels (arith : Arithmetic K) : Axes K → List (PlannedMove K) → Axes K → Prop
  | done (p : Axes K) : Travels arith p [] p
  | onward {p q r : Axes K} {first rest : List (PlannedMove K)} :
      Stretch arith p first q → Travels arith q rest r → Travels arith p (first ++ rest) r

theorem Stretch.travels {p q : Axes K} {moves : List (PlannedMove K)}
    (h : Stretch arith p moves q) : Travels arith p moves q := by
  have htravels := Travels.onward h (.done q)
  rwa [List.append_nil] at htravels

/-- A move that a printer can plan. -/
structure Plannable (arith : Arithmetic K) (m : PlannedMove K) : Prop where
  speed : 0 < m.speed
  accel : ∀ a, m.accelOverride = some a → 0 < a
  distance : kinematicDistance arith m.start m.stop ≠ 0

/-- The factors, those of the saved states and the acceleration are positive. -/
structure Sound (s : GcodeState K) : Prop where
  speed : 0 < s.speed
  speedFactor : 0 < s.speedFactor
  extrudeFactor : 0 < s.extrudeFactor
  accel : ∀ a, s.accelOverride = some a → 0 < a
  saved : ∀ name saved, s.savedStates name = some saved →
    0 < saved.speed ∧ 0 < saved.speedFactor ∧ 0 < saved.extrudeFactor

/-- What a line may do to a sound state, with the paths that its moves may take. -/
structure Proper (arith : Arithmetic K)
    (path : Axes K → List (PlannedMove K) → Axes K → Prop) (s : GcodeState K)
    (x : Applied K (ApplyOutcome K)) : Prop where
  sound : Sound x.2
  path : path s.lastPosition x.moves x.2.lastPosition
  plannable : ∀ m ∈ x.moves, Plannable arith m

section Moves

/-- The state afterwards has the factors of the one before. -/
structure SameFactors (s t : GcodeState K) : Prop where
  speed : t.speed = s.speed
  speedFactor : t.speedFactor = s.speedFactor
  extrudeFactor : t.extrudeFactor = s.extrudeFactor
  accel : t.accelOverride = s.accelOverride
  saved : t.savedStates = s.savedStates

theorem SameFactors.refl (s : GcodeState K) : SameFactors s s := ⟨rfl, rfl, rfl, rfl, rfl⟩

theorem SameFactors.trans {u : GcodeState K} (h : SameFactors s t) (h' : SameFactors t u) :
    SameFactors s u where
  speed := h'.speed.trans h.speed
  speedFactor := h'.speedFactor.trans h.speedFactor
  extrudeFactor := h'.extrudeFactor.trans h.extrudeFactor
  accel := h'.accel.trans h.accel
  saved := h'.saved.trans h.saved

theorem Sound.of_same (hs : Sound s) (h : SameFactors s t) : Sound t where
  speed := h.speed ▸ hs.speed
  speedFactor := h.speedFactor ▸ hs.speedFactor
  extrudeFactor := h.extrudeFactor ▸ hs.extrudeFactor
  accel a ha := hs.accel a (h.accel ▸ ha)
  saved name saved hsaved := hs.saved name saved (h.saved ▸ hsaved)

theorem applyWord_same (s : GcodeState K) (axis : Axis) (value : Option K) (absolute : Bool) :
    SameFactors s (s.applyWord axis value absolute) := by
  cases value with
  | none => exact .refl s
  | some v => cases absolute <;> exact ⟨rfl, rfl, rfl, rfl, rfl⟩

theorem moveWords_same (s : GcodeState K) (values : Axes (Option K)) :
    SameFactors s (s.moveWords values) :=
  ((applyWord_same _ _ _ _).trans (applyWord_same _ _ _ _)).trans
    ((applyWord_same _ _ _ _).trans (applyWord_same _ _ _ _))

/-- A linear move changes the speed, and none of the factors. -/
theorem Sound.moveTo (hs : Sound s) (values : Axes (Option K)) {feed : Option K}
    (hfeed : ∀ f, feed = some f → 0 < f) : Sound (s.moveTo values feed) := by
  have hwords := hs.of_same (moveWords_same s values)
  unfold GcodeState.moveTo
  cases feed with
  | none => exact hwords
  | some f =>
    exact
      { speed := mul_pos (hfeed f rfl) hwords.speedFactor
        speedFactor := hwords.speedFactor
        extrudeFactor := hwords.extrudeFactor
        accel := hwords.accel
        saved := hwords.saved }

theorem emitMove_stretch (start : Axes K) (startKnown : Axes Bool) (speed : K) (span : ByteSpan)
    (info : Option ArcSegmentInfo) :
    Stretch arith start (s.emitMove arith start startKnown speed span info).toList
      s.lastPosition := by
  unfold emitMove
  split
  · rename_i hzero
    exact .drop hzero
  · exact .move ⟨start, s.lastPosition, speed, _, _, _, _, _⟩

theorem emitMove_plannable (hs : Sound s) {start : Axes K} {startKnown : Axes Bool} {speed : K}
    (hspeed : 0 < speed) {span : ByteSpan} {info : Option ArcSegmentInfo} {m : PlannedMove K}
    (hm : m ∈ (s.emitMove arith start startKnown speed span info).toList) : Plannable arith m := by
  unfold emitMove at hm
  split at hm
  · cases hm
  · rename_i hdistance
    rw [Option.toList_some, List.mem_singleton] at hm
    subst hm
    exact ⟨hspeed, hs.accel, hdistance⟩

theorem applyG1Values_stretch (values : Axes (Option K)) (feed : Option K) (span : ByteSpan)
    (info : Option ArcSegmentInfo) :
    Stretch arith s.lastPosition (s.applyG1Values arith values feed span info).1.toList
      (s.applyG1Values arith values feed span info).2.lastPosition :=
  emitMove_stretch _ _ _ _ _

theorem applyG1Values_plannable (hs : Sound s) (values : Axes (Option K)) {feed : Option K}
    (hfeed : ∀ f, feed = some f → 0 < f) {span : ByteSpan} {info : Option ArcSegmentInfo}
    {m : PlannedMove K} (hm : m ∈ (s.applyG1Values arith values feed span info).1.toList) :
    Plannable arith m :=
  emitMove_plannable (hs.moveTo values hfeed) (hs.moveTo values hfeed).speed hm

end Moves

section Parameters

theorem pos_of_getFloatAbove {key : Text} {min v : K}
    (h : getFloatAbove arith cmd key min = .ok (some v)) : min < v := by
  unfold getFloatAbove at h
  obtain ⟨value, -, h⟩ := bind_eq_ok.mp h
  cases value with
  | none => cases h
  | some w =>
    dsimp only at h
    split at h
    · cases h
    · rename_i habove
      cases h
      exact not_le.mp habove

theorem pos_of_readFeed {feed : Option K} (h : readFeed arith cmd = .ok feed) :
    ∀ f, feed = some f → 0 < f := by
  unfold readFeed at h
  obtain ⟨value, -, h⟩ := bind_eq_ok.mp h
  rintro f rfl
  cases value with
  | none => cases h
  | some w =>
    dsimp only at h
    split at h
    · cases h
    · rename_i habove
      cases h
      exact not_le.mp habove

theorem pos_of_g1Words {words : Axes (Option K) × Option K} (h : g1Words arith cmd = .ok words) :
    ∀ f, words.2 = some f → 0 < f := by
  unfold g1Words at h
  obtain ⟨_, -, h⟩ := bind_eq_ok.mp h
  obtain ⟨_, -, h⟩ := bind_eq_ok.mp h
  obtain ⟨_, -, h⟩ := bind_eq_ok.mp h
  obtain ⟨_, -, h⟩ := bind_eq_ok.mp h
  obtain ⟨feed, hfeed, h⟩ := bind_eq_ok.mp h
  cases h
  exact pos_of_readFeed hfeed

theorem pos_of_arcRequest {clockwise : Bool} {request : ArcRequest K}
    (h : s.arcRequest arith cmd clockwise = .ok request) :
    ∀ f, request.fParam = some f → 0 < f := by
  unfold arcRequest at h
  obtain ⟨_, -, h⟩ := bind_eq_ok.mp h
  obtain ⟨_, -, h⟩ := bind_eq_ok.mp h
  obtain ⟨_, -, h⟩ := bind_eq_ok.mp h
  obtain ⟨_, -, h⟩ := bind_eq_ok.mp h
  obtain ⟨_, -, h⟩ := bind_eq_ok.mp h
  obtain ⟨_, -, h⟩ := bind_eq_ok.mp h
  obtain ⟨_, -, h⟩ := bind_eq_ok.mp h
  obtain ⟨_, -, h⟩ := bind_eq_ok.mp h
  obtain ⟨_, -, h⟩ := bind_eq_ok.mp h
  obtain ⟨feed, hfeed, h⟩ := bind_eq_ok.mp h
  cases h
  exact pos_of_readFeed hfeed

theorem pos_of_arcSegments {clockwise : Bool} {segments : List (ArcSegment K)}
    (h : s.arcSegments arith cmd clockwise = .ok segments) :
    ∀ segment ∈ segments, ∀ f, segment.f = some f → 0 < f := by
  unfold arcSegments at h
  obtain ⟨request, hrequest, h⟩ := bind_eq_ok.mp h
  cases hplan : planArc arith request with
  | error e =>
    rw [hplan] at h
    cases h
  | ok planned =>
    rw [hplan] at h
    cases h
    intro segment hmem f hf
    rw [feed_of_mem_planArc hplan hmem] at hf
    exact pos_of_arcRequest hrequest f hf

theorem pos_of_m204Accel {accel : Option K} (h : m204Accel arith cmd = .ok accel) :
    ∀ a, accel = some a → 0 < a := by
  unfold m204Accel at h
  obtain ⟨value, hvalue, h⟩ := bind_eq_ok.mp h
  rintro a rfl
  cases value with
  | some v =>
    cases h
    exact pos_of_getFloatAbove hvalue
  | none =>
    obtain ⟨p, hp, h⟩ := bind_eq_ok.mp h
    obtain ⟨t, ht, h⟩ := bind_eq_ok.mp h
    cases p with
    | none => cases h
    | some p =>
      cases t with
      | none => cases h
      | some t =>
        cases h
        unfold smaller
        split
        · exact pos_of_getFloatAbove ht
        · exact pos_of_getFloatAbove hp

theorem pos_of_percentage {percent : K} (h : percentage arith cmd = .ok percent) : 0 < percent := by
  unfold percentage at h
  obtain ⟨value, hvalue, h⟩ := bind_eq_ok.mp h
  cases h
  cases value with
  | none => exact Nat.cast_pos.mpr (by decide)
  | some v => exact pos_of_getFloatAbove hvalue

theorem pos_of_requestedMove {speed v : K} (hspeed : 0 < speed)
    (h : requestedMove arith cmd speed = .ok (some v)) : 0 < v := by
  unfold requestedMove at h
  obtain ⟨flag, -, h⟩ := bind_eq_ok.mp h
  split at h
  · obtain ⟨value, hvalue, h⟩ := bind_eq_ok.mp h
    cases h
    cases value with
    | none => exact hspeed
    | some w => exact pos_of_getFloatAbove hvalue
  · cases h

end Parameters

section Handlers

/-- A result without moves leaves the position alone. -/
theorem Proper.quiet {x : Applied K (ApplyOutcome K)} (hsound : Sound x.2) (hmoves : x.moves = [])
    (hlast : x.2.lastPosition = s.lastPosition) : Proper arith (Stretch arith) s x where
  sound := hsound
  path := by
    rw [hmoves, hlast]
    exact .stay _
  plannable := by
    rw [hmoves]
    exact fun m hm => by cases hm

/-- Parameters that are read before anything changes. -/
theorem proper_andThen {α : Type}
    {path : Axes K → List (PlannedMove K) → Axes K → Prop} (hpath : ∀ p, path p [] p) (hs : Sound s) {x : Except (StateError K) α}
    {next : α → GcodeState K → Applied K (ApplyOutcome K)}
    (h : ∀ a, x = .ok a → Proper arith path s (next a s)) :
    Proper arith path s (andThen (x, s) next) := by
  cases x with
  | error e => exact ⟨hs, hpath _, fun m hm => by cases hm⟩
  | ok a => exact h a rfl

theorem cmdG1_proper (hs : Sound s) (span : ByteSpan) : 
    Proper arith (Stretch arith) s (s.cmdG1 arith cmd span) :=
  proper_andThen .stay hs fun words hwords =>
    { sound := hs.moveTo words.1 (pos_of_g1Words hwords)
      path := applyG1Values_stretch _ _ _ _
      plannable := fun _ hm => applyG1Values_plannable hs _ (pos_of_g1Words hwords) hm }

/-- The chords of an arc one after the other. -/
theorem applyChords_proper {span : ByteSpan} {count : ℕ} {segments : List (ArcSegment K)}
    (hfeed : ∀ segment ∈ segments, ∀ f, segment.f = some f → 0 < f) (index : ℕ) (hs : Sound s) :
    Sound (applyChords arith span count index segments s).2 ∧
      Travels arith s.lastPosition (applyChords arith span count index segments s).1
        (applyChords arith span count index segments s).2.lastPosition ∧
      ∀ m ∈ (applyChords arith span count index segments s).1, Plannable arith m := by
  induction segments generalizing index s with
  | nil => exact ⟨hs, .done _, fun m hm => by cases hm⟩
  | cons segment segments ih =>
    have hhead := hfeed segment List.mem_cons_self
    simp only [applyChords]
    obtain ⟨hsound, htravels, hplannable⟩ := ih
      (fun other hother => hfeed other (List.mem_cons_of_mem _ hother)) (index + 1)
      (hs.moveTo ⟨some segment.target.x, some segment.target.y, some segment.target.z, segment.e⟩
        hhead)
    refine ⟨hsound, .onward (applyG1Values_stretch _ _ _ _) htravels, fun m hm => ?_⟩
    rcases List.mem_append.mp hm with hm | hm
    · exact applyG1Values_plannable hs _ hhead hm
    · exact hplannable m hm

theorem cmdArc_proper (hs : Sound s) (span : ByteSpan) (clockwise : Bool) :
    Proper arith (Travels arith) s (s.cmdArc arith cmd span clockwise) :=
  proper_andThen .done hs fun _ hsegments =>
    let ⟨hsound, htravels, hplannable⟩ :=
      applyChords_proper (pos_of_arcSegments hsegments) 1 hs
    { sound := hsound, path := htravels, plannable := hplannable }

theorem homeAxis_same (s : GcodeState K) (homed : Bool) (axis : Axis) :
    SameFactors s (if homed then s.homeAxis axis else s) := by
  cases homed <;> exact ⟨rfl, rfl, rfl, rfl, rfl⟩

theorem homeAxis_last (s : GcodeState K) (homed : Bool) (axis : Axis) :
    (if homed then s.homeAxis axis else s).lastPosition = s.lastPosition := by
  cases homed <;> rfl

theorem cmdG28_same (s : GcodeState K) (cmd : Command) : SameFactors s (s.cmdG28 cmd) :=
  ((homeAxis_same _ _ _).trans (homeAxis_same _ _ _)).trans (homeAxis_same _ _ _)

theorem cmdG28_last (s : GcodeState K) (cmd : Command) :
    (s.cmdG28 cmd).lastPosition = s.lastPosition := by
  unfold cmdG28
  simp only [homeAxis_last]

theorem rebase_same (s : GcodeState K) (axis : Axis) (value : Option K) :
    SameFactors s (s.rebase axis value) ∧ (s.rebase axis value).lastPosition = s.lastPosition := by
  cases value <;> exact ⟨⟨rfl, rfl, rfl, rfl, rfl⟩, rfl⟩

theorem rebaseAll_same (s : GcodeState K) (words : Axes (Option K)) :
    SameFactors s (s.rebaseAll words) ∧ (s.rebaseAll words).lastPosition = s.lastPosition := by
  unfold rebaseAll
  split
  · exact ⟨⟨rfl, rfl, rfl, rfl, rfl⟩, rfl⟩
  · constructor
    · exact ((rebase_same _ _ _).1.trans (rebase_same _ _ _).1).trans
        ((rebase_same _ _ _).1.trans (rebase_same _ _ _).1)
    · simp only [(rebase_same _ _ _).2]

theorem cmdG92_proper (hs : Sound s) : Proper arith (Stretch arith) s (s.cmdG92 arith cmd) :=
  proper_andThen .stay hs fun words _ =>
    .quiet (hs.of_same (rebaseAll_same s words).1) rfl (rebaseAll_same s words).2

theorem cmdM204_proper (hs : Sound s) : Proper arith (Stretch arith) s (s.cmdM204 arith cmd) := by
  refine proper_andThen .stay hs fun accel haccel => .quiet ?_ rfl rfl
  refine ⟨hs.speed, hs.speedFactor, hs.extrudeFactor, fun a ha => ?_, hs.saved⟩
  cases accel with
  | none => exact hs.accel a ha
  | some b => exact pos_of_m204Accel haccel a ha

theorem cmdM220_proper (hs : Sound s) : Proper arith (Stretch arith) s (s.cmdM220 arith cmd) := by
  refine proper_andThen .stay hs fun percent hpercent => .quiet ?_ rfl rfl
  have hvalue : 0 < percent / (((60 : ℕ) : K) * ((100 : ℕ) : K)) :=
    div_pos (pos_of_percentage hpercent) (by positivity)
  exact
    { speed := mul_pos (div_pos hs.speed hs.speedFactor) hvalue
      speedFactor := hvalue
      extrudeFactor := hs.extrudeFactor
      accel := hs.accel
      saved := hs.saved }

theorem cmdM221_proper (hs : Sound s) : Proper arith (Stretch arith) s (s.cmdM221 arith cmd) := by
  refine proper_andThen .stay hs fun percent hpercent => .quiet ?_ rfl rfl
  exact
    { speed := hs.speed
      speedFactor := hs.speedFactor
      extrudeFactor := div_pos (pos_of_percentage hpercent) (by positivity)
      accel := hs.accel
      saved := hs.saved }

variable (arith cmd) in
theorem shiftOrigins_same (axes : List Axis) (delta : Axes K) (s : GcodeState K) :
    SameFactors s (shiftOrigins arith cmd axes delta s).2 ∧
      (shiftOrigins arith cmd axes delta s).2.lastPosition = s.lastPosition := by
  induction axes generalizing delta s with
  | nil => exact ⟨.refl s, rfl⟩
  | cons axis axes ih =>
    simp only [shiftOrigins]
    cases requestedOffset arith cmd axis (s.homingPosition.get axis) with
    | error e => exact ⟨.refl s, rfl⟩
    | ok requested =>
      rw [andThen_ok]
      cases requested with
      | none => exact ih delta s
      | some offset =>
        obtain ⟨hsame, hlast⟩ := ih (delta.set axis (offset - s.homingPosition.get axis))
          (s.shiftOrigin axis offset)
        have hshift : SameFactors s (s.shiftOrigin axis offset) := ⟨rfl, rfl, rfl, rfl, rfl⟩
        exact ⟨hshift.trans hsame, hlast⟩

theorem cmdSetGcodeOffset_proper (hs : Sound s) (span : ByteSpan) :
    Proper arith (Stretch arith) s (s.cmdSetGcodeOffset arith cmd span) := by
  refine proper_andThen .stay hs fun _ _ => ?_
  obtain ⟨hsame, hlast⟩ := shiftOrigins_same arith cmd offsetAxes (.uniform 0) s
  generalize shiftOrigins arith cmd offsetAxes (.uniform 0) s = shifted at hsame hlast ⊢
  obtain ⟨result, t⟩ := shifted
  have ht : Sound t := hs.of_same hsame
  cases result with
  | error e => exact .quiet ht rfl hlast
  | ok delta =>
    rw [andThen_ok]
    cases hmove : requestedMove arith cmd t.speed with
    | error e => exact .quiet ht rfl hlast
    | ok speed =>
      rw [andThen_ok]
      cases speed with
      | none => exact .quiet ht rfl hlast
      | some speed =>
        have hmoved : Sound (t.moveBy arith delta speed span).2 :=
          ht.of_same ⟨rfl, rfl, rfl, rfl, rfl⟩
        constructor
        · exact hmoved
        · rw [← hlast]
          exact emitMove_stretch _ _ _ _ _
        · exact fun m hm => emitMove_plannable hmoved (pos_of_requestedMove ht.speed hmove) hm

theorem Sound.save (hs : Sound s) (name : Text) : Sound (s.save name) where
  speed := hs.speed
  speedFactor := hs.speedFactor
  extrudeFactor := hs.extrudeFactor
  accel := hs.accel
  saved other saved h := by
    by_cases heq : other = name
    · subst heq
      have hsnapshot : some s.snapshot = some saved := by
        simpa only [GcodeState.save, Function.update_self] using h
      cases hsnapshot
      exact ⟨hs.speed, hs.speedFactor, hs.extrudeFactor⟩
    · refine hs.saved other saved ?_
      simpa only [GcodeState.save, Function.update_of_ne heq] using h

theorem cmdSaveGcodeState_proper (hs : Sound s) : Proper arith (Stretch arith) s (s.cmdSaveGcodeState cmd) :=
  proper_andThen .stay hs fun _ _ => .quiet (hs.save _) rfl rfl

theorem cmdRestoreGcodeState_proper (hs : Sound s) (span : ByteSpan) :
    Proper arith (Stretch arith) s (s.cmdRestoreGcodeState arith cmd span) := by
  refine proper_andThen .stay hs fun _ _ => ?_
  cases hsaved : s.savedStates (stateName cmd) with
  | none => exact .quiet hs rfl rfl
  | some saved =>
    obtain ⟨hspeed, hfactor, hscale⟩ := hs.saved _ saved hsaved
    have ht : Sound (s.restore saved) := ⟨hspeed, hfactor, hscale, hs.accel, hs.saved⟩
    dsimp only
    cases hmove : requestedMove arith cmd (s.restore saved).speed with
    | error e => exact .quiet ht rfl rfl
    | ok speed =>
      rw [andThen_ok]
      cases speed with
      | none => exact .quiet ht rfl rfl
      | some speed =>
        have hmoved : Sound ((s.restore saved).moveBack arith saved speed span).2 :=
          ht.of_same ⟨rfl, rfl, rfl, rfl, rfl⟩
        constructor
        · exact hmoved
        · exact emitMove_stretch _ _ _ _ _
        · exact fun m hm => emitMove_plannable hmoved (pos_of_requestedMove ht.speed hmove) hm

variable (arith) in
/-- A command that is no arc makes one move at most. -/
theorem applyCommand_stretch (hs : Sound s) (span : ByteSpan)
    (hkind : ∀ clockwise, kindOf cmd.name ≠ .arc clockwise) :
    Proper arith (Stretch arith) s (s.applyCommand arith cmd span) := by
  unfold applyCommand
  cases h : kindOf cmd.name with
  | arc clockwise => exact absurd h (hkind clockwise)
  | linear => exact cmdG1_proper hs span
  | plane plane => exact .quiet (hs.of_same ⟨rfl, rfl, rfl, rfl, rfl⟩) rfl rfl
  | inches => exact .quiet hs rfl rfl
  | query => exact .quiet hs rfl rfl
  | home => exact .quiet (hs.of_same (cmdG28_same s cmd)) rfl (cmdG28_last s cmd)
  | coordMode absolute => exact .quiet (hs.of_same ⟨rfl, rfl, rfl, rfl, rfl⟩) rfl rfl
  | position => exact cmdG92_proper hs
  | extrudeMode absolute => exact .quiet (hs.of_same ⟨rfl, rfl, rfl, rfl, rfl⟩) rfl rfl
  | acceleration => exact cmdM204_proper hs
  | speedFactor => exact cmdM220_proper hs
  | extrudeFactor => exact cmdM221_proper hs
  | setOffset => exact cmdSetGcodeOffset_proper hs span
  | saveState => exact cmdSaveGcodeState_proper hs
  | restoreState => exact cmdRestoreGcodeState_proper hs span
  | passThrough => exact .quiet hs rfl rfl

/-- Every command does to a sound state what it may. -/
theorem applyCommand_proper (hs : Sound s) (span : ByteSpan) :
    Proper arith (Travels arith) s (s.applyCommand arith cmd span) := by
  by_cases harc : ∃ clockwise, kindOf cmd.name = .arc clockwise
  · obtain ⟨clockwise, h⟩ := harc
    unfold applyCommand
    rw [h]
    exact cmdArc_proper hs span clockwise
  · have hproper := applyCommand_stretch arith hs span fun c h => harc ⟨c, h⟩
    exact ⟨hproper.sound, hproper.path.travels, hproper.plannable⟩

theorem apply_proper (hs : Sound s) (line : Line) :
    Proper arith (Travels arith) s (s.apply arith line) := by
  unfold apply
  cases line.body with
  | blank => exact ⟨hs, .done _, fun m hm => by cases hm⟩
  | comment text => exact ⟨hs, .done _, fun m hm => by cases hm⟩
  | command cmd comment => exact applyCommand_proper hs line.span

end Handlers

section Spans

variable {span : ByteSpan}

/-- All moves come from one line. -/
def OfLine (span : ByteSpan) (moves : List (PlannedMove K)) : Prop := ∀ m ∈ moves, m.span = span

theorem OfLine.nil : OfLine span ([] : List (PlannedMove K)) := fun m hm => by cases hm

theorem emitMove_ofLine (start : Axes K) (startKnown : Axes Bool) (speed : K)
    (info : Option ArcSegmentInfo) :
    OfLine span (s.emitMove arith start startKnown speed span info).toList := by
  intro m hm
  unfold emitMove at hm
  split at hm
  · cases hm
  · rw [Option.toList_some, List.mem_singleton] at hm
    rw [hm]

theorem applyChords_ofLine (count index : ℕ) (segments : List (ArcSegment K)) :
    OfLine span (applyChords arith span count index segments s).1 := by
  induction segments generalizing index s with
  | nil => exact .nil
  | cons segment segments ih =>
    simp only [applyChords]
    intro m hm
    rcases List.mem_append.mp hm with hm | hm
    · exact emitMove_ofLine _ _ _ _ m hm
    · exact ih _ m hm

/-- Parameters that cannot be read make no move. -/
theorem ofLine_andThen {α : Type} {x : Applied K α}
    {next : α → GcodeState K → Applied K (ApplyOutcome K)}
    (h : ∀ a t, OfLine span (next a t).moves) : OfLine span (andThen x next).moves := by
  obtain ⟨result, t⟩ := x
  cases result with
  | error e => exact .nil
  | ok a => exact h a t

theorem applyCommand_ofLine : OfLine span (s.applyCommand arith cmd span).moves := by
  unfold applyCommand
  cases kindOf cmd.name with
  | linear => exact ofLine_andThen fun words t => emitMove_ofLine _ _ _ _
  | arc clockwise => exact ofLine_andThen fun segments t => applyChords_ofLine _ _ _
  | setOffset =>
    refine ofLine_andThen fun _ _ => ofLine_andThen fun delta t => ofLine_andThen fun speed u => ?_
    cases speed with
    | none => exact .nil
    | some speed => exact emitMove_ofLine _ _ _ _
  | restoreState =>
    refine ofLine_andThen fun _ t => ?_
    cases t.savedStates (stateName cmd) with
    | none => exact .nil
    | some saved =>
      refine ofLine_andThen fun speed u => ?_
      cases speed with
      | none => exact .nil
      | some speed => exact emitMove_ofLine _ _ _ _
  | position => exact ofLine_andThen fun _ _ => .nil
  | acceleration => exact ofLine_andThen fun _ _ => .nil
  | speedFactor => exact ofLine_andThen fun _ _ => .nil
  | extrudeFactor => exact ofLine_andThen fun _ _ => .nil
  | saveState => exact ofLine_andThen fun _ _ => .nil
  | _ => exact .nil

/-- The moves of a line have its bytes. -/
theorem apply_ofLine (line : Line) : OfLine line.span (s.apply arith line).moves := by
  unfold apply
  cases line.body with
  | command cmd comment => exact applyCommand_ofLine
  | _ => exact .nil

end Spans

end GcodeState

end DeadReckoning.Gcode
