import DeadReckoning.Gcode.State

/-! What a failed line leaves behind. Most handlers read all their parameters before they change
anything; the two commands with a `MOVE` parameter do not. -/
namespace DeadReckoning.Gcode

set_option linter.unusedSectionVars false

namespace Applied

variable {K α β : Type}

/-- An error leaves the state as it was. -/
def Atomic (x : Applied K α) (s : GcodeState K) : Prop := ∀ error, x.1 = .error error → x.2 = s

@[simp] theorem andThen_error (e : StateError K) (s : GcodeState K)
    (next : α → GcodeState K → Applied K β) : andThen (.error e, s) next = (.error e, s) := rfl

@[simp] theorem andThen_ok (a : α) (s : GcodeState K) (next : α → GcodeState K → Applied K β) :
    andThen (.ok a, s) next = next a s := rfl

theorem atomic_ok (a : α) (s t : GcodeState K) : Atomic ((.ok a, t) : Applied K α) s := by
  intro error h
  cases h

theorem atomic_self (x : Except (StateError K) α) (s : GcodeState K) :
    Atomic ((x, s) : Applied K α) s :=
  fun _ _ => rfl

/-- Parameters that are read before anything changes. -/
theorem atomic_andThen {x : Except (StateError K) α} {s : GcodeState K}
    {next : α → GcodeState K → Applied K β} (h : ∀ a, x = .ok a → Atomic (next a s) s) :
    Atomic (andThen (x, s) next) s := by
  cases x with
  | error e => exact atomic_self _ s
  | ok a => exact h a rfl

end Applied

namespace GcodeState

open Applied

variable {K : Type} [Add K] [Sub K] [Mul K] [Div K] [Neg K] [Zero K] [One K] [NatCast K]
  [LT K] [LE K] [DecidableEq K] [DecidableLT K] [DecidableLE K]
  {arith : Arithmetic K} {s : GcodeState K} {cmd : Command}

theorem cmdG1_atomic (span : ByteSpan) : Atomic (s.cmdG1 arith cmd span) s :=
  atomic_andThen fun _ _ => atomic_ok _ _ _

theorem cmdArc_atomic (span : ByteSpan) (clockwise : Bool) :
    Atomic (s.cmdArc arith cmd span clockwise) s :=
  atomic_andThen fun _ _ => atomic_ok _ _ _

theorem cmdG92_atomic : Atomic (s.cmdG92 arith cmd) s := atomic_andThen fun _ _ => atomic_ok _ _ _

theorem cmdM204_atomic : Atomic (s.cmdM204 arith cmd) s := atomic_andThen fun _ _ => atomic_ok _ _ _

theorem cmdM220_atomic : Atomic (s.cmdM220 arith cmd) s := atomic_andThen fun _ _ => atomic_ok _ _ _

theorem cmdM221_atomic : Atomic (s.cmdM221 arith cmd) s := atomic_andThen fun _ _ => atomic_ok _ _ _

theorem cmdSaveGcodeState_atomic : Atomic (s.cmdSaveGcodeState cmd) s :=
  atomic_andThen fun _ _ => atomic_ok _ _ _

section Offset

/-- The words of the axis can be read. -/
def offsetReadable (arith : Arithmetic K) (s : GcodeState K) (cmd : Command) (axis : Axis) : Bool :=
  match requestedOffset arith cmd axis (s.homingPosition.get axis) with
  | .ok _ => true
  | .error _ => false

/-- The words of the axis ask for the offset that is in force. -/
def Unshifted (arith : Arithmetic K) (s : GcodeState K) (cmd : Command) (axis : Axis) : Prop :=
  ∀ offset, requestedOffset arith cmd axis (s.homingPosition.get axis) = .ok (some offset) →
    offset = s.homingPosition.get axis ∧
      s.basePosition.get axis + (offset - s.homingPosition.get axis) = s.basePosition.get axis

@[simp] theorem shiftOrigin_homing (axis other : Axis) (offset : K) :
    (s.shiftOrigin axis offset).homingPosition.get other =
      if other = axis then offset else s.homingPosition.get other :=
  Axes.get_set _ _ _ _

@[simp] theorem shiftOrigin_base (axis other : Axis) (offset : K) :
    (s.shiftOrigin axis offset).basePosition.get other =
      if other = axis then s.basePosition.get axis + (offset - s.homingPosition.get axis)
      else s.basePosition.get other :=
  Axes.get_set _ _ _ _

/-- A shift that changes nothing. -/
theorem shiftOrigin_eq_self {axis : Axis} {offset : K} (hhoming : offset = s.homingPosition.get axis)
    (hbase : s.basePosition.get axis + (offset - s.homingPosition.get axis) =
      s.basePosition.get axis) : s.shiftOrigin axis offset = s := by
  unfold shiftOrigin
  rw [hbase, hhoming, Axes.set_get_self, Axes.set_get_self]

variable (arith cmd) in
/-- What the loop over the axes does not read it does not touch. -/
theorem shiftOrigins_frame (axes : List Axis) (delta : Axes K) (s : GcodeState K) :
    (shiftOrigins arith cmd axes delta s).2.speed = s.speed ∧
      ∀ axis ∉ axes,
        (shiftOrigins arith cmd axes delta s).2.homingPosition.get axis =
            s.homingPosition.get axis ∧
          (shiftOrigins arith cmd axes delta s).2.basePosition.get axis =
            s.basePosition.get axis := by
  induction axes generalizing delta s with
  | nil => exact ⟨rfl, fun axis _ => ⟨rfl, rfl⟩⟩
  | cons first axes ih =>
    simp only [shiftOrigins]
    cases requestedOffset arith cmd first (s.homingPosition.get first) with
    | error e => exact ⟨rfl, fun axis _ => ⟨rfl, rfl⟩⟩
    | ok requested =>
      rw [andThen_ok]
      cases requested with
      | none =>
        obtain ⟨hspeed, hkept⟩ := ih delta s
        exact ⟨hspeed, fun axis h => hkept axis fun hmem => h (List.mem_cons_of_mem _ hmem)⟩
      | some offset =>
        obtain ⟨hspeed, hkept⟩ := ih (delta.set first (offset - s.homingPosition.get first))
          (s.shiftOrigin first offset)
        refine ⟨hspeed, fun axis h => ?_⟩
        have hne : axis ≠ first := fun heq => h (heq ▸ List.mem_cons_self)
        obtain ⟨hhoming, hbase⟩ := hkept axis fun hmem => h (List.mem_cons_of_mem _ hmem)
        constructor
        · rw [hhoming, shiftOrigin_homing, if_neg hne]
        · rw [hbase, shiftOrigin_base, if_neg hne]

theorem offsetReadable_shiftOrigin {axis other : Axis} (offset : K) (h : other ≠ axis) :
    offsetReadable arith (s.shiftOrigin axis offset) cmd other =
      offsetReadable arith s cmd other := by
  unfold offsetReadable
  rw [shiftOrigin_homing, if_neg h]

variable (arith cmd) in
/-- The loop fails exactly when the words of an axis cannot be read. -/
theorem shiftOrigins_fails_iff {axes : List Axis} (hnodup : axes.Nodup) (delta : Axes K)
    (s : GcodeState K) :
    (∃ error, (shiftOrigins arith cmd axes delta s).1 = .error error) ↔
      ∃ axis ∈ axes, offsetReadable arith s cmd axis = false := by
  induction axes generalizing delta s with
  | nil => simp [shiftOrigins]
  | cons first axes ih =>
    obtain ⟨hfirst, hrest⟩ := List.nodup_cons.mp hnodup
    have hreadable : offsetReadable arith s cmd first =
        match requestedOffset arith cmd first (s.homingPosition.get first) with
        | .ok _ => true
        | .error _ => false := rfl
    simp only [shiftOrigins, List.exists_mem_cons_iff]
    cases hrequested : requestedOffset arith cmd first (s.homingPosition.get first) with
    | error e =>
      rw [hrequested] at hreadable
      simp [hreadable]
    | ok requested =>
      rw [hrequested] at hreadable
      rw [andThen_ok, hreadable]
      simp only [Bool.true_eq_false, false_or]
      cases requested with
      | none => exact ih hrest delta s
      | some offset =>
        refine (ih hrest _ (s.shiftOrigin first offset)).trans ?_
        refine exists_congr fun axis => and_congr_right fun hmem => ?_
        have hne : axis ≠ first := by
          rintro rfl
          exact hfirst hmem
        rw [offsetReadable_shiftOrigin offset hne]

variable (arith cmd) in
/-- The loop leaves the state alone exactly when the axes that it reads ask for nothing new. -/
theorem shiftOrigins_state_eq_iff {axes : List Axis} (hnodup : axes.Nodup) (delta : Axes K)
    (s : GcodeState K) :
    (shiftOrigins arith cmd axes delta s).2 = s ↔
      ∀ axis ∈ axes.takeWhile (offsetReadable arith s cmd), Unshifted arith s cmd axis := by
  induction axes generalizing delta s with
  | nil => simp [shiftOrigins]
  | cons first axes ih =>
    obtain ⟨hfirst, hrest⟩ := List.nodup_cons.mp hnodup
    have hreadable : offsetReadable arith s cmd first =
        match requestedOffset arith cmd first (s.homingPosition.get first) with
        | .ok _ => true
        | .error _ => false := rfl
    cases hrequested : requestedOffset arith cmd first (s.homingPosition.get first) with
    | error e =>
      rw [hrequested] at hreadable
      simp [shiftOrigins, hrequested, hreadable]
    | ok requested =>
      rw [hrequested] at hreadable
      rw [List.takeWhile_cons_of_pos hreadable, List.forall_mem_cons]
      simp only [shiftOrigins, hrequested, andThen_ok]
      cases requested with
      | none =>
        have hunshifted : Unshifted arith s cmd first := by
          intro offset h
          rw [hrequested] at h
          cases h
        exact (ih hrest delta s).trans (and_iff_right hunshifted).symm
      | some offset =>
        constructor
        · intro h
          dsimp only at h
          -- the axes behind this one do not touch it
          obtain ⟨hhoming, hbase⟩ := (shiftOrigins_frame arith cmd axes
            (delta.set first (offset - s.homingPosition.get first))
            (s.shiftOrigin first offset)).2 first hfirst
          rw [h, shiftOrigin_homing, if_pos rfl] at hhoming
          rw [h, shiftOrigin_base, if_pos rfl] at hbase
          have hunshifted : Unshifted arith s cmd first := by
            intro other hother
            rw [hrequested] at hother
            cases hother
            exact ⟨hhoming.symm, hbase.symm⟩
          rw [shiftOrigin_eq_self hhoming.symm hbase.symm] at h
          exact ⟨hunshifted, (ih hrest _ s).mp h⟩
        · rintro ⟨hunshifted, hothers⟩
          obtain ⟨hhoming, hbase⟩ := hunshifted offset hrequested
          dsimp only
          rw [shiftOrigin_eq_self hhoming hbase]
          exact (ih hrest _ s).mpr hothers

/-- If the command fails, the axes before the word that cannot be read ask for nothing new. -/
def OffsetKept (arith : Arithmetic K) (s : GcodeState K) (cmd : Command) : Prop :=
  ((∃ axis ∈ offsetAxes, offsetReadable arith s cmd axis = false) ∨
      ∃ error, requestedMove arith cmd s.speed = .error error) →
    ∀ axis ∈ offsetAxes.takeWhile (offsetReadable arith s cmd), Unshifted arith s cmd axis

/-- A malformed command has no parameters, so that nothing in it can fail. -/
theorem get_of_malformed {error : StateError K} (h : ensureWellformedExtended cmd = .error error)
    (key : Text) : cmd.get key = none := by
  unfold ensureWellformedExtended at h
  unfold Command.get Command.pairs
  split at h <;> rename_i hparams
  · rw [hparams]
    rfl
  · cases h

theorem offsetKept_of_malformed {error : StateError K} (h : ensureWellformedExtended cmd = .error error) :
    OffsetKept arith s cmd := by
  have hget := get_of_malformed h
  have hfloat : ∀ key, getFloat arith cmd key = .ok none := by
    intro key
    rw [getFloat, hget key]
  rintro (⟨axis, -, hbad⟩ | ⟨e, hmove⟩)
  · simp [offsetReadable, requestedOffset, hfloat, bind, Except.bind, pure, Except.pure] at hbad
  · simp [requestedMove, getInt, hget, bind, Except.bind, pure, Except.pure] at hmove

theorem nodup_offsetAxes : offsetAxes.Nodup := by decide

theorem cmdSetGcodeOffset_atomic_iff (span : ByteSpan) :
    Atomic (s.cmdSetGcodeOffset arith cmd span) s ↔ OffsetKept arith s cmd := by
  unfold cmdSetGcodeOffset
  cases hformed : ensureWellformedExtended (K := K) cmd with
  | error e =>
    rw [andThen_error]
    exact iff_of_true (atomic_self _ s) (offsetKept_of_malformed hformed)
  | ok _ =>
    rw [andThen_ok]
    have hfails := shiftOrigins_fails_iff arith cmd nodup_offsetAxes (.uniform 0) s
    have hkept := shiftOrigins_state_eq_iff arith cmd nodup_offsetAxes (.uniform 0) s
    have hspeed := (shiftOrigins_frame arith cmd offsetAxes (.uniform 0) s).1
    unfold OffsetKept
    rw [← hfails, ← hkept]
    rw [← hspeed]
    generalize shiftOrigins arith cmd offsetAxes (.uniform 0) s = shifted
    obtain ⟨result, t⟩ := shifted
    dsimp only
    cases result with
    | error e =>
      constructor
      · intro h _
        exact h e rfl
      · intro h _ _
        exact h (.inl ⟨e, rfl⟩)
    | ok delta =>
      rw [andThen_ok]
      cases hmove : requestedMove arith cmd t.speed with
      | error e =>
        rw [andThen_error]
        constructor
        · intro h _
          exact h e rfl
        · intro h _ _
          exact h (.inr ⟨e, rfl⟩)
      | ok speed =>
        refine iff_of_true ?_ ?_
        · cases speed with
          | none => exact atomic_ok _ _ _
          | some speed => exact atomic_ok _ _ _
        · rintro (⟨_, h⟩ | ⟨_, h⟩)
          · cases h
          · cases h

end Offset

section Restore

/-- The saved frame is the one in force. -/
structure InForce (s : GcodeState K) (saved : SavedGcodeState K) : Prop where
  absoluteCoord : saved.absoluteCoord = s.absoluteCoord
  absoluteExtrude : saved.absoluteExtrude = s.absoluteExtrude
  base : saved.basePosition.point = s.basePosition.point
  filament : saved.basePosition.e + (s.lastPosition.e - saved.lastPosition.e) = s.basePosition.e
  homing : saved.homingPosition = s.homingPosition
  speed : saved.speed = s.speed
  speedFactor : saved.speedFactor = s.speedFactor
  extrudeFactor : saved.extrudeFactor = s.extrudeFactor
  baseKnown : saved.baseKnown.point = s.baseKnown.point
  filamentKnown : (saved.baseKnown.e && s.positionKnown.e && saved.positionKnown.e) = s.baseKnown.e

theorem restore_eq_self_iff {saved : SavedGcodeState K} :
    s.restore saved = s ↔ InForce s saved := by
  constructor
  · intro h
    have hfields := fun {α : Type} (f : GcodeState K → α) => congrArg f h
    exact
      { absoluteCoord := hfields (·.absoluteCoord)
        absoluteExtrude := hfields (·.absoluteExtrude)
        base := hfields (·.basePosition.point)
        filament := hfields (·.basePosition.e)
        homing := hfields (·.homingPosition)
        speed := hfields (·.speed)
        speedFactor := hfields (·.speedFactor)
        extrudeFactor := hfields (·.extrudeFactor)
        baseKnown := hfields (·.baseKnown.point)
        filamentKnown := hfields (·.baseKnown.e) }
  · intro h
    obtain ⟨hcoord, hextrude, hbase, hfilament, hhoming, hspeed, hfactor, hscale, hknown, hflag⟩ := h
    unfold restore
    rw [hfilament, hflag, Axes.with_e_of_point hbase, Axes.with_e_of_point hknown, hcoord, hextrude,
      hhoming, hspeed, hfactor, hscale]

/-- If the move behind the restoration fails, the saved frame is the one in force. -/
def RestoreKept (arith : Arithmetic K) (s : GcodeState K) (cmd : Command) : Prop :=
  ∀ saved, s.savedStates (stateName cmd) = some saved →
    (∃ error, requestedMove arith cmd saved.speed = .error error) → InForce s saved

theorem restoreKept_of_malformed {error : StateError K}
    (h : ensureWellformedExtended cmd = .error error) : RestoreKept arith s cmd := by
  rintro saved - ⟨e, hmove⟩
  exfalso
  have hget := get_of_malformed h
  simp [requestedMove, getInt, hget, bind, Except.bind, pure, Except.pure] at hmove

theorem cmdRestoreGcodeState_atomic_iff (span : ByteSpan) :
    Atomic (s.cmdRestoreGcodeState arith cmd span) s ↔ RestoreKept arith s cmd := by
  unfold cmdRestoreGcodeState
  cases hformed : ensureWellformedExtended (K := K) cmd with
  | error e =>
    rw [andThen_error]
    exact iff_of_true (atomic_self _ s) (restoreKept_of_malformed hformed)
  | ok _ =>
    rw [andThen_ok]
    unfold RestoreKept
    cases hsaved : s.savedStates (stateName cmd) with
    | none =>
      refine iff_of_true (atomic_self _ s) ?_
      intro saved h
      cases h
    | some saved =>
      dsimp only
      rw [show (s.restore saved).speed = saved.speed from rfl]
      cases hmove : requestedMove arith cmd saved.speed with
      | error e =>
        rw [andThen_error]
        constructor
        · intro h other hother _
          cases hother
          exact restore_eq_self_iff.mp (h e rfl)
        · intro h _ _
          exact restore_eq_self_iff.mpr (h saved rfl ⟨e, hmove⟩)
      | ok speed =>
        refine iff_of_true ?_ ?_
        · cases speed with
          | none => exact atomic_ok _ _ _
          | some speed => exact atomic_ok _ _ _
        · rintro other hother ⟨e, h⟩
          cases hother
          rw [hmove] at h
          cases h

end Restore

/-- The two commands that change the state before they have read all of their parameters have
changed nothing when they fail. -/
def KeptOnError (arith : Arithmetic K) (s : GcodeState K) (line : Line) : Prop :=
  ∀ cmd comment, line.body = .command cmd comment →
    (kindOf cmd.name = .setOffset → OffsetKept arith s cmd) ∧
      (kindOf cmd.name = .restoreState → RestoreKept arith s cmd)

/-- A line that fails leaves the state as it was, exactly when an offset command asks for nothing
new on the axes before the parameter that cannot be read, and a restoration whose move cannot be
read restores what is in force. -/
theorem apply_atomic_iff (arith : Arithmetic K) (s : GcodeState K) (line : Line) :
    (∀ error, (s.apply arith line).1 = .error error → (s.apply arith line).2 = s) ↔
      KeptOnError arith s line := by
  change Atomic (s.apply arith line) s ↔ _
  unfold KeptOnError apply
  cases line.body with
  | blank => exact iff_of_true (atomic_ok _ _ _) (fun _ _ h => by cases h)
  | comment text => exact iff_of_true (atomic_ok _ _ _) (fun _ _ h => by cases h)
  | command cmd comment =>
    have hcommand : (∀ c (k : Option Text), LineBody.command cmd comment = .command c k →
        (kindOf c.name = .setOffset → OffsetKept arith s c) ∧
          (kindOf c.name = .restoreState → RestoreKept arith s c)) ↔
        (kindOf cmd.name = .setOffset → OffsetKept arith s cmd) ∧
          (kindOf cmd.name = .restoreState → RestoreKept arith s cmd) := by
      constructor
      · exact fun h => h cmd comment rfl
      · rintro h c k heq
        cases heq
        exact h
    rw [hcommand]
    dsimp only [applyCommand]
    cases kindOf cmd.name with
    | setOffset => simpa using cmdSetGcodeOffset_atomic_iff line.span
    | restoreState => simpa using cmdRestoreGcodeState_atomic_iff line.span
    | linear => simpa using cmdG1_atomic line.span
    | arc clockwise => simpa using cmdArc_atomic line.span clockwise
    | position => simpa using cmdG92_atomic
    | acceleration => simpa using cmdM204_atomic
    | speedFactor => simpa using cmdM220_atomic
    | extrudeFactor => simpa using cmdM221_atomic
    | saveState => simpa using cmdSaveGcodeState_atomic
    | inches => simpa using atomic_self _ s
    | plane plane => simpa using atomic_ok _ s _
    | query => simpa using atomic_ok _ s _
    | home => simpa using atomic_ok _ s _
    | coordMode absolute => simpa using atomic_ok _ s _
    | extrudeMode absolute => simpa using atomic_ok _ s _
    | passThrough => simpa using atomic_ok _ s _

/-- The speed of the move is refused after the origin has moved. -/
theorem failed_offset_moves_origin :
    ¬ ∀ (s : GcodeState ℚ) (line : Line) (error : StateError ℚ),
      (s.apply rationals line).1 = .error error → (s.apply rationals line).2 = s := by
  intro h
  let line : Line :=
    { span := ⟨0, 43⟩
      body := parseLine asciiCase (lit "SET_GCODE_OFFSET Z=0.2 MOVE=1 MOVE_SPEED=0") }
  have hfails : (new.apply rationals line).1.toOption.isSome = false := by decide +kernel
  have hmoved : (new.apply rationals line).2.homingPosition.z ≠ (new : GcodeState ℚ).homingPosition.z := by
    decide +kernel
  cases hresult : (new.apply rationals line).1 with
  | error e => exact hmoved (by rw [h new line e hresult])
  | ok outcome =>
    rw [hresult] at hfails
    cases hfails

end GcodeState

end DeadReckoning.Gcode
