import DeadReckoning.Gcode.State

/-! The two modes of the interpreter. A line that does not use a mode does the same whatever the
mode is, and leaves two states that still differ in nothing else. -/
namespace DeadReckoning.Gcode

set_option linter.unusedSectionVars false

open Checks (bind_eq_ok ensure)

/-- The modes that decide how a word is read. -/
inductive ModeAxis where
  | coordinates
  | extrusion
  deriving DecidableEq

section Words

variable {K : Type} {arith : Arithmetic K} {cmd : Command}

/-- A word is read exactly when it is there. -/
theorem isSome_of_getFloat {key : Text} {value : Option K}
    (h : getFloat arith cmd key = .ok value) : value.isSome = (cmd.get key).isSome := by
  unfold getFloat at h
  cases hget : cmd.get key with
  | none =>
    rw [hget] at h
    cases h
    rfl
  | some raw =>
    rw [hget] at h
    dsimp only at h
    split at h
    · cases h
    · cases h
    · cases h
      rfl

end Words

namespace GcodeState

section Uses

variable {K : Type}

def mode (s : GcodeState K) : ModeAxis → Bool
  | .coordinates => s.absoluteCoord
  | .extrusion => s.absoluteExtrude

/-- The state, with another mode in force. -/
def withMode (s : GcodeState K) (axis : ModeAxis) (absolute : Bool) : GcodeState K :=
  match axis with
  | .coordinates => { s with absoluteCoord := absolute }
  | .extrusion => { s with absoluteExtrude := absolute }

theorem withMode_withMode (s : GcodeState K) (axis : ModeAxis) (first second : Bool) :
    (s.withMode axis first).withMode axis second = s.withMode axis second := by
  cases axis <;> rfl

theorem withMode_mode (s : GcodeState K) (axis : ModeAxis) : s.withMode axis (s.mode axis) = s := by
  cases axis <;> rfl

theorem withMode_absoluteExtrude (s : GcodeState K) (absolute : Bool) :
    (s.withMode .coordinates absolute).absoluteExtrude = s.absoluteExtrude := rfl

theorem withMode_absoluteCoord (s : GcodeState K) (absolute : Bool) :
    (s.withMode .extrusion absolute).absoluteCoord = s.absoluteCoord := rfl

theorem withMode_extrudeFactor (s : GcodeState K) (axis : ModeAxis) (absolute : Bool) :
    (s.withMode axis absolute).extrudeFactor = s.extrudeFactor := by
  cases axis <;> rfl

/-- One of the words is read in the mode. The filament is absolute only when both modes are, so
that either of them alone can settle it. -/
def readsWords (s : GcodeState K) (axis : ModeAxis) (x y z e : Bool) : Bool :=
  match axis with
  | .coordinates => x || y || z || (e && s.absoluteExtrude)
  | .extrusion => e && s.absoluteCoord

/-- What the command does depends on the mode: it reads a word in it, it is an arc, which is
refused in relative coordinates, or it saves the modes. -/
def usesMode (s : GcodeState K) (axis : ModeAxis) (cmd : Command) : Bool :=
  let reads := s.readsWords axis (cmd.get (lit "X")).isSome (cmd.get (lit "Y")).isSome
    (cmd.get (lit "Z")).isSome (cmd.get (lit "E")).isSome
  match kindOf cmd.name with
  | .linear => reads
  | .arc _ => axis = .coordinates || reads
  | .saveState => true
  | _ => false

/-- A line uses a mode when its command does. -/
def lineUsesMode (s : GcodeState K) (axis : ModeAxis) (line : Line) : Bool :=
  line.body.command?.any (s.usesMode axis)

/-- The states differ in the mode at most. -/
def SameBut (axis : ModeAxis) (s t : GcodeState K) : Prop :=
  ∃ absolute, t = s.withMode axis absolute

theorem SameBut.refl (axis : ModeAxis) (s : GcodeState K) : SameBut axis s s :=
  ⟨s.mode axis, (withMode_mode s axis).symm⟩

/-- The results are the same, and the states differ in the mode at most. -/
structure Alike {α : Type} (axis : ModeAxis) (x y : Applied K α) : Prop where
  result : y.1 = x.1
  state : SameBut axis x.2 y.2

theorem Alike.refl {α : Type} (axis : ModeAxis) (x : Applied K α) : Alike axis x x :=
  ⟨rfl, .refl axis x.2⟩

theorem Alike.same {α : Type} {axis : ModeAxis} (r : Except (StateError K) α) (s : GcodeState K)
    (absolute : Bool) : Alike axis (r, s) (r, s.withMode axis absolute) := ⟨rfl, absolute, rfl⟩

/-- What follows on the same result is alike when it is alike on states that are. -/
theorem Alike.andThen {α β : Type} {axis : ModeAxis} {x y : Applied K α}
    {next : α → GcodeState K → Applied K β} (h : Alike axis x y)
    (hnext : ∀ a absolute, x.1 = .ok a →
      Alike axis (next a x.2) (next a (x.2.withMode axis absolute))) :
    Alike axis (x.andThen next) (y.andThen next) := by
  obtain ⟨r, s⟩ := x
  obtain ⟨r', t⟩ := y
  obtain ⟨hresult, absolute, hstate⟩ := h
  obtain rfl : r' = r := hresult
  obtain rfl : t = s.withMode axis absolute := hstate
  cases r' with
  | error e => exact .same _ _ _
  | ok a => exact hnext a absolute rfl

end Uses

section Moves

variable {K : Type} [Add K] [Sub K] [Mul K] [Div K] [Neg K] [Zero K] [One K] [NatCast K]
  [LT K] [LE K] [DecidableEq K] [DecidableLT K] [DecidableLE K]
  {arith : Arithmetic K} {s : GcodeState K} {axis : ModeAxis} {cmd : Command} {span : ByteSpan}

theorem applyWord_withMode (s : GcodeState K) (axis : ModeAxis) (mode : Bool) (word : Axis)
    (value : Option K) (absolute : Bool) :
    (s.withMode axis mode).applyWord word value absolute =
      (s.applyWord word value absolute).withMode axis mode := by
  cases value with
  | none => rfl
  | some v => cases axis <;> cases absolute <;> rfl

theorem applyWord_none (s : GcodeState K) (word : Axis) (absolute : Bool) :
    s.applyWord word none absolute = s := rfl

theorem applyWord_absoluteCoord (s : GcodeState K) (word : Axis) (value : Option K)
    (absolute : Bool) : (s.applyWord word value absolute).absoluteCoord = s.absoluteCoord := by
  cases value with
  | none => rfl
  | some v => cases absolute <;> rfl

theorem applyWord_absoluteExtrude (s : GcodeState K) (word : Axis) (value : Option K)
    (absolute : Bool) : (s.applyWord word value absolute).absoluteExtrude = s.absoluteExtrude := by
  cases value with
  | none => rfl
  | some v => cases absolute <;> rfl

/-- The words that no mode governs lead to the same place. -/
theorem moveWords_withMode {values : Axes (Option K)} (absolute : Bool)
    (h : s.readsWords axis values.x.isSome values.y.isSome values.z.isSome
      values.e.isSome = false) :
    (s.withMode axis absolute).moveWords values = (s.moveWords values).withMode axis absolute := by
  obtain ⟨x, y, z, e⟩ := values
  cases axis with
  | coordinates =>
    simp only [readsWords, Bool.or_eq_false_iff, Option.isSome_eq_false_iff,
      Option.isNone_iff_eq_none, Bool.and_eq_false_iff] at h
    obtain ⟨⟨⟨rfl, rfl⟩, rfl⟩, he⟩ := h
    simp only [moveWords, applyWord_none]
    rcases he with rfl | he
    · rfl
    · rw [applyWord_withMode, withMode_absoluteExtrude, withMode_extrudeFactor, he, Bool.and_false,
        Bool.and_false]
  | extrusion =>
    simp only [readsWords, Bool.and_eq_false_iff, Option.isSome_eq_false_iff,
      Option.isNone_iff_eq_none] at h
    simp only [moveWords, applyWord_withMode, applyWord_absoluteCoord, withMode_absoluteCoord,
      withMode_extrudeFactor]
    rcases h with rfl | hcoord
    · rfl
    · rw [hcoord, Bool.false_and, Bool.false_and]

theorem moveTo_withMode {values : Axes (Option K)} (feed : Option K) (absolute : Bool)
    (h : s.readsWords axis values.x.isSome values.y.isSome values.z.isSome
      values.e.isSome = false) :
    (s.withMode axis absolute).moveTo values feed =
      (s.moveTo values feed).withMode axis absolute := by
  unfold moveTo
  rw [moveWords_withMode absolute h]
  cases feed with
  | none => rfl
  | some f => cases axis <;> rfl

theorem emitMove_withMode (start : Axes K) (startKnown : Axes Bool) (speed : K)
    (info : Option ArcSegmentInfo) (absolute : Bool) :
    (s.withMode axis absolute).emitMove arith start startKnown speed span info =
      s.emitMove arith start startKnown speed span info := by
  cases axis <;> rfl

theorem applyG1Values_withMode {values : Axes (Option K)} (feed : Option K)
    (info : Option ArcSegmentInfo) (absolute : Bool)
    (h : s.readsWords axis values.x.isSome values.y.isSome values.z.isSome
      values.e.isSome = false) :
    (s.withMode axis absolute).applyG1Values arith values feed span info =
      ((s.applyG1Values arith values feed span info).1,
        (s.applyG1Values arith values feed span info).2.withMode axis absolute) := by
  simp only [applyG1Values, moveTo_withMode feed absolute h, emitMove_withMode]
  cases axis <;> rfl

/-- Without words that the mode governs a linear move is the same. -/
theorem cmdG1_alike (absolute : Bool)
    (h : s.readsWords axis (cmd.get (lit "X")).isSome (cmd.get (lit "Y")).isSome
      (cmd.get (lit "Z")).isSome (cmd.get (lit "E")).isSome = false) :
    Alike axis (s.cmdG1 arith cmd span) ((s.withMode axis absolute).cmdG1 arith cmd span) := by
  refine Alike.andThen (.same _ _ _) fun words absolute hwords => ?_
  have hpresent : s.readsWords axis words.1.x.isSome words.1.y.isSome words.1.z.isSome
      words.1.e.isSome = false := by
    simp only [g1Words] at hwords
    obtain ⟨x, hx, hwords⟩ := bind_eq_ok.mp hwords
    obtain ⟨y, hy, hwords⟩ := bind_eq_ok.mp hwords
    obtain ⟨z, hz, hwords⟩ := bind_eq_ok.mp hwords
    obtain ⟨e, he, hwords⟩ := bind_eq_ok.mp hwords
    obtain ⟨f, -, hwords⟩ := bind_eq_ok.mp hwords
    cases hwords
    rwa [isSome_of_getFloat hx, isSome_of_getFloat hy, isSome_of_getFloat hz, isSome_of_getFloat he]
  dsimp only
  rw [applyG1Values_withMode _ _ _ hpresent]
  exact .same _ _ _

end Moves

section Arcs

variable {K : Type} [Add K] [Sub K] [Mul K] [Div K] [Neg K] [Zero K] [One K] [NatCast K]
  [LT K] [LE K] [DecidableEq K] [DecidableLT K] [DecidableLE K]
  {arith : Arithmetic K} {s : GcodeState K} {cmd : Command} {span : ByteSpan}

/-- Without filament the chords do not depend on the mode. -/
theorem chordsFrom_mode {req other : ArcRequest K} (htarget : other.target = req.target)
    (hfeed : other.fParam = req.fParam) (endOf : ℕ → Point K) (count remaining : ℕ) (eBase : K) :
    chordsFrom other endOf 0 count remaining eBase =
      chordsFrom req endOf 0 count remaining eBase := by
  induction remaining with
  | zero => rfl
  | succ remaining ih => simp only [chordsFrom, if_true, ih, htarget, hfeed]

theorem e_of_chordsFrom (req : ArcRequest K) (endOf : ℕ → Point K) (count remaining : ℕ)
    (eBase : K) : ∀ segment ∈ chordsFrom req endOf 0 count remaining eBase, segment.e = none := by
  induction remaining with
  | zero => simp [chordsFrom]
  | succ remaining ih => simpa [chordsFrom] using ih

theorem planArc_mode {req : ArcRequest K} (h : req.eParam = none) (absolute : Bool) :
    planArc arith { req with absoluteExtrude := absolute } = planArc arith req := by
  obtain ⟨current, target, offset, plane, clockwise, mode, e, f, resolution⟩ := req
  obtain rfl : e = none := h
  have hchords := @chordsFrom_mode K _ _ _ _ _ _ _ _ _ _ _ _ _
    ⟨current, target, offset, plane, clockwise, mode, none, f, resolution⟩
    ⟨current, target, offset, plane, clockwise, absolute, none, f, resolution⟩ rfl rfl
  simp only [planArc, hchords]
  rfl

theorem e_of_planArc {req : ArcRequest K} (h : req.eParam = none) {segments : List (ArcSegment K)}
    (hplan : planArc arith req = .ok segments) : ∀ segment ∈ segments, segment.e = none := by
  simp only [planArc, h] at hplan
  obtain ⟨_, -, hplan⟩ := bind_eq_ok.mp hplan
  obtain ⟨_, -, hplan⟩ := bind_eq_ok.mp hplan
  obtain ⟨_, -, hplan⟩ := bind_eq_ok.mp hplan
  cases hplan
  exact e_of_chordsFrom _ _ _ _ _

/-- An arc in relative coordinates is refused. -/
theorem arcSegments_relative {clockwise : Bool} (h : s.absoluteCoord = false) :
    s.arcSegments arith cmd clockwise = .error (.arc .relativeMode) := by
  simp only [arcSegments, arcRequest, h]
  rfl

/-- What is read of an arc differs in the mode only. -/
theorem arcRequest_withMode {clockwise : Bool} (absolute : Bool) :
    (s.withMode .extrusion absolute).arcRequest arith cmd clockwise =
      (s.arcRequest arith cmd clockwise).map fun req =>
        { req with absoluteExtrude := absolute } := by
  simp only [arcRequest, Checks.map_bind]
  rfl

theorem eParam_of_arcRequest {clockwise : Bool} (he : cmd.get (lit "E") = none) {req : ArcRequest K}
    (h : s.arcRequest arith cmd clockwise = .ok req) : req.eParam = none := by
  simp only [arcRequest] at h
  obtain ⟨_, -, h⟩ := bind_eq_ok.mp h
  obtain ⟨_, -, h⟩ := bind_eq_ok.mp h
  obtain ⟨_, -, h⟩ := bind_eq_ok.mp h
  obtain ⟨_, -, h⟩ := bind_eq_ok.mp h
  obtain ⟨_, -, h⟩ := bind_eq_ok.mp h
  obtain ⟨_, -, h⟩ := bind_eq_ok.mp h
  obtain ⟨_, -, h⟩ := bind_eq_ok.mp h
  obtain ⟨_, -, h⟩ := bind_eq_ok.mp h
  obtain ⟨e, heq, h⟩ := bind_eq_ok.mp h
  obtain ⟨_, -, h⟩ := bind_eq_ok.mp h
  cases h
  have hpresent := isSome_of_getFloat heq
  rw [he] at hpresent
  exact Option.isNone_iff_eq_none.mp (Option.isSome_eq_false_iff.mp hpresent)

theorem applyChords_withMode {segments : List (ArcSegment K)}
    (h : ∀ segment ∈ segments, segment.e = none) (count index : ℕ) (absolute : Bool) :
    applyChords arith span count index segments (s.withMode .extrusion absolute) =
      ((applyChords arith span count index segments s).1,
        (applyChords arith span count index segments s).2.withMode .extrusion absolute) := by
  induction segments generalizing index s with
  | nil => rfl
  | cons segment segments ih =>
    simp only [List.forall_mem_cons] at h
    have hmove := @applyG1Values_withMode K _ _ _ _ _ _ _ _ _ _ _ _ _ arith s .extrusion span
      ⟨some segment.target.x, some segment.target.y, some segment.target.z, segment.e⟩ segment.f
      (some ⟨index, count⟩) absolute (by rw [h.1]; rfl)
    simp only [applyChords, hmove, ih h.2]

/-- An arc that is refused, or that has no `E` word, is the same in both modes of the filament. -/
theorem cmdArc_alike {clockwise : Bool} (absolute : Bool)
    (h : ((cmd.get (lit "E")).isSome && s.absoluteCoord) = false) :
    Alike .extrusion (s.cmdArc arith cmd span clockwise)
      ((s.withMode .extrusion absolute).cmdArc arith cmd span clockwise) := by
  rcases Bool.and_eq_false_iff.mp h with he | hcoord
  · have he : cmd.get (lit "E") = none := Option.isNone_iff_eq_none.mp (by simpa using he)
    have hsegments : (s.withMode .extrusion absolute).arcSegments arith cmd clockwise =
        s.arcSegments arith cmd clockwise := by
      unfold arcSegments
      rw [arcRequest_withMode]
      cases hreq : s.arcRequest arith cmd clockwise with
      | error e => rfl
      | ok req =>
        exact congrArg (Except.mapError StateError.arc)
          (planArc_mode (eParam_of_arcRequest he hreq) absolute)
    unfold cmdArc
    rw [hsegments]
    refine Alike.andThen (.same _ _ _) fun segments absolute hread => ?_
    obtain ⟨req, hreq, hplan⟩ := bind_eq_ok.mp hread
    have hfilament := e_of_planArc (eParam_of_arcRequest he hreq) (Checks.mapError_eq_ok.mp hplan)
    dsimp only
    rw [applyChords_withMode hfilament]
    exact .same _ _ _
  · unfold cmdArc
    have hother : (s.withMode .extrusion absolute).absoluteCoord = false := hcoord
    rw [arcSegments_relative hcoord, arcSegments_relative hother]
    exact .same _ _ _

end Arcs

section Lines

variable {K : Type} [Add K] [Sub K] [Mul K] [Div K] [Neg K] [Zero K] [One K] [NatCast K]
  [LT K] [LE K] [DecidableEq K] [DecidableLT K] [DecidableLE K]
  {arith : Arithmetic K} {s : GcodeState K} {axis : ModeAxis} {cmd : Command} {span : ByteSpan}

theorem shiftOrigins_alike (axes : List Axis) (delta : Axes K) (absolute : Bool) :
    Alike axis (shiftOrigins arith cmd axes delta s)
      (shiftOrigins arith cmd axes delta (s.withMode axis absolute)) := by
  induction axes generalizing delta s absolute with
  | nil => exact .same _ _ _
  | cons word axes ih =>
    have hhoming : (s.withMode axis absolute).homingPosition = s.homingPosition := by
      cases axis <;> rfl
    simp only [shiftOrigins, hhoming]
    refine Alike.andThen (.same _ _ _) fun requested absolute _ => ?_
    cases requested with
    | none => exact ih delta absolute
    | some offset =>
      have hshift : (s.withMode axis absolute).shiftOrigin word offset =
          (s.shiftOrigin word offset).withMode axis absolute := by
        cases axis <;> rfl
      have hhoming : (s.withMode axis absolute).homingPosition = s.homingPosition := by
        cases axis <;> rfl
      dsimp only
      rw [hshift, hhoming]
      exact ih _ absolute

theorem cmdSetGcodeOffset_alike (absolute : Bool) :
    Alike axis (s.cmdSetGcodeOffset arith cmd span)
      ((s.withMode axis absolute).cmdSetGcodeOffset arith cmd span) := by
  refine Alike.andThen (.same _ _ _) fun _ absolute _ => ?_
  refine Alike.andThen (shiftOrigins_alike _ _ _) fun delta absolute _ => ?_
  generalize (shiftOrigins arith cmd offsetAxes (.uniform 0) s).2 = s
  have hspeed : (s.withMode axis absolute).speed = s.speed := by cases axis <;> rfl
  dsimp only
  rw [hspeed]
  refine Alike.andThen (.same _ _ _) fun speed absolute _ => ?_
  cases speed with
  | none => exact .same _ _ _
  | some speed => cases axis <;> exact ⟨rfl, absolute, rfl⟩

/-- A saved frame brings its own modes with it. -/
theorem cmdRestoreGcodeState_alike (absolute : Bool) :
    Alike axis (s.cmdRestoreGcodeState arith cmd span)
      ((s.withMode axis absolute).cmdRestoreGcodeState arith cmd span) := by
  refine Alike.andThen (.same _ _ _) fun _ absolute _ => ?_
  have hsaved : (s.withMode axis absolute).savedStates = s.savedStates := by cases axis <;> rfl
  dsimp only
  rw [hsaved]
  cases s.savedStates (stateName cmd) with
  | none => exact .same _ _ _
  | some saved =>
    have hrestore : (s.withMode axis absolute).restore saved = s.restore saved := by
      cases axis <;> rfl
    dsimp only
    rw [hrestore]
    exact .refl _ _

theorem cmdG28_withMode (absolute : Bool) :
    (s.withMode axis absolute).cmdG28 cmd = (s.cmdG28 cmd).withMode axis absolute := by
  unfold cmdG28
  cases axis <;> (dsimp only; split_ifs <;> rfl)

theorem rebaseAll_withMode (words : Axes (Option K)) (absolute : Bool) :
    (s.withMode axis absolute).rebaseAll words = (s.rebaseAll words).withMode axis absolute := by
  have hrebase (s : GcodeState K) (word : Axis) (value : Option K) :
      (s.withMode axis absolute).rebase word value =
        (s.rebase word value).withMode axis absolute := by
    cases value with
    | none => rfl
    | some v => cases axis <;> rfl
  unfold rebaseAll
  split
  · cases axis <;> rfl
  · simp only [hrebase, withMode_extrudeFactor]

/-- A command that does not use the mode does the same in both. -/
theorem applyCommand_alike (absolute : Bool) (h : s.usesMode axis cmd = false) :
    Alike axis (s.applyCommand arith cmd span)
      ((s.withMode axis absolute).applyCommand arith cmd span) := by
  unfold usesMode at h
  unfold applyCommand
  cases hkind : kindOf cmd.name with
  | linear =>
    rw [hkind] at h
    exact cmdG1_alike absolute h
  | arc clockwise =>
    rw [hkind] at h
    cases axis with
    | coordinates => cases h
    | extrusion => exact cmdArc_alike absolute h
  | saveState =>
    rw [hkind] at h
    cases h
  | setOffset => exact cmdSetGcodeOffset_alike absolute
  | restoreState => exact cmdRestoreGcodeState_alike absolute
  | home => exact ⟨rfl, absolute, cmdG28_withMode absolute⟩
  | position =>
    exact .andThen (.same _ _ _) fun words absolute _ =>
      ⟨rfl, absolute, rebaseAll_withMode words absolute⟩
  | acceleration =>
    exact .andThen (.same _ _ _) fun _ absolute _ => by cases axis <;> exact ⟨rfl, absolute, rfl⟩
  | speedFactor =>
    exact .andThen (.same _ _ _) fun _ absolute _ => by cases axis <;> exact ⟨rfl, absolute, rfl⟩
  | extrudeFactor =>
    exact .andThen (.same _ _ _) fun _ absolute _ => by cases axis <;> exact ⟨rfl, absolute, rfl⟩
  | plane plane => cases axis <;> exact ⟨rfl, absolute, rfl⟩
  | inches => exact .same _ _ _
  | query => exact .same _ _ _
  | coordMode mode =>
    cases axis with
    | coordinates => exact ⟨rfl, mode, rfl⟩
    | extrusion => exact ⟨rfl, absolute, rfl⟩
  | extrudeMode mode =>
    cases axis with
    | coordinates => exact ⟨rfl, absolute, rfl⟩
    | extrusion => exact ⟨rfl, mode, rfl⟩
  | passThrough => exact .same _ _ _

/-- A line that does not use the mode does the same in both. -/
theorem apply_alike {line : Line} (absolute : Bool) (h : s.lineUsesMode axis line = false) :
    Alike axis (s.apply arith line) ((s.withMode axis absolute).apply arith line) := by
  unfold apply
  cases hbody : line.body with
  | blank => exact .same _ _ _
  | comment text => exact .same _ _ _
  | command cmd comment =>
    simp only [lineUsesMode, hbody, LineBody.command?, Option.any_some] at h
    exact applyCommand_alike absolute h

/-- The mode that a command sets. -/
def modeOf (cmd : Command) : Option (ModeAxis × Bool) :=
  match kindOf cmd.name with
  | .coordMode absolute => some (.coordinates, absolute)
  | .extrudeMode absolute => some (.extrusion, absolute)
  | _ => none

/-- A command that sets the mode does not ask for the one in force. -/
theorem applyCommand_modeOf {mode : Bool} (h : modeOf cmd = some (axis, mode)) (absolute : Bool) :
    (s.withMode axis absolute).applyCommand arith cmd span = s.applyCommand arith cmd span := by
  unfold modeOf at h
  unfold applyCommand
  cases hkind : kindOf cmd.name <;> rw [hkind] at h <;> cases h <;> rfl

end Lines

end GcodeState

end DeadReckoning.Gcode
