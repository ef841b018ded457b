import DeadReckoning.Gcode.Invariant

/-! The laws of the single commands in g-code coordinates, and of whole programs. -/
namespace DeadReckoning.Gcode

set_option linter.unusedSectionVars false

namespace GcodeState

open Applied

variable {K : Type} [Field K] [LinearOrder K] [IsStrictOrderedRing K]
  {arith : Arithmetic K} {s t : GcodeState K} {cmd : Command}

section Commands

theorem gcodeSpeed_scaleSpeed {percent : K} (hpercent : 0 < percent) :
    (s.scaleSpeed percent).gcodeSpeed = s.gcodeSpeed := by
  have hvalue : percent / (((60 : ℕ) : K) * ((100 : ℕ) : K)) ≠ 0 :=
    (div_pos hpercent (by positivity)).ne'
  exact mul_div_cancel_right₀ _ hvalue

theorem gcodePosition_scaleExtrusion {percent : K} (hpercent : 0 < percent) :
    (s.scaleExtrusion percent).gcodePosition = s.gcodePosition := by
  have hfactor : percent / ((100 : ℕ) : K) ≠ 0 := (div_pos hpercent (by positivity)).ne'
  unfold gcodePosition scaleExtrusion
  simp only [sub_sub_cancel, Axes.mk.injEq, true_and]
  exact mul_div_cancel_right₀ _ hfactor

/-- The position that a rebased axis reads as, with the filament scaled. -/
theorem gcodePosition_get (s : GcodeState K) (axis : Axis) :
    s.gcodePosition.get axis =
      (s.lastPosition.get axis - s.basePosition.get axis) /
        (if axis = .e then s.extrudeFactor else 1) := by
  cases axis
  · exact (div_one _).symm
  · exact (div_one _).symm
  · exact (div_one _).symm
  · rfl

theorem rebase_base (s : GcodeState K) (axis other : Axis) (value : Option K) :
    (s.rebase axis value).basePosition.get other =
      if other = axis then value.elim (s.basePosition.get axis) (s.lastPosition.get axis - ·)
      else s.basePosition.get other := by
  cases value with
  | none =>
    change s.basePosition.get other = _
    split
    · rename_i h
      rw [h]
      rfl
    · rfl
  | some v => exact Axes.get_set _ _ _ _

/-- After `G92` with words the named coordinates read as the words, the others as before. -/
theorem gcodePosition_rebaseAll (hs : Sound s) {words : Axes (Option K)}
    (hwords : words ≠ .uniform none) (axis : Axis) :
    (s.rebaseAll words).gcodePosition.get axis =
      (words.get axis).getD (s.gcodePosition.get axis) := by
  have hfactor : (if axis = .e then s.extrudeFactor else 1) ≠ 0 := by
    split
    · exact hs.extrudeFactor.ne'
    · exact one_ne_zero
  rw [gcodePosition_get, gcodePosition_get, (rebaseAll_same s words).2,
    (rebaseAll_same s words).1.extrudeFactor]
  unfold rebaseAll
  rw [if_neg hwords]
  have hlast : ∀ (t : GcodeState K) (a : Axis) (v : Option K),
      (t.rebase a v).lastPosition = t.lastPosition := fun t a v => (rebase_same t a v).2
  have hscale : ∀ (t : GcodeState K) (a : Axis) (v : Option K),
      (t.rebase a v).extrudeFactor = t.extrudeFactor :=
    fun t a v => (rebase_same t a v).1.extrudeFactor
  simp only [rebase_base, hlast, hscale]
  cases axis with
  | e =>
    cases hword : words.e with
    | none => simp [Axes.get, hword]
    | some v => simp [Axes.get, hword, hs.extrudeFactor.ne']
  | x => cases hword : words.x <;> simp [Axes.get, hword]
  | y => cases hword : words.y <;> simp [Axes.get, hword]
  | z => cases hword : words.z <;> simp [Axes.get, hword]

/-- A restored frame reads as it did when it was saved, wherever the filament has gone. -/
theorem gcodePosition_restore {saved : SavedGcodeState K}
    (hpoint : s.lastPosition.point = saved.lastPosition.point) :
    (s.restore saved).gcodePosition =
      { x := saved.lastPosition.x - saved.basePosition.x
        y := saved.lastPosition.y - saved.basePosition.y
        z := saved.lastPosition.z - saved.basePosition.z
        e := (saved.lastPosition.e - saved.basePosition.e) / saved.extrudeFactor } := by
  simp only [Axes.point, Point.mk.injEq] at hpoint
  obtain ⟨hx, hy, hz⟩ := hpoint
  unfold gcodePosition restore
  simp only [hx, hy, hz, Axes.mk.injEq, true_and]
  ring

end Commands

section Saved

theorem andThen_savedStates {α : Type} {x : Except (StateError K) α} {name : Text}
    {next : α → GcodeState K → Applied K (ApplyOutcome K)}
    (h : ∀ a, (next a s).2.savedStates name = s.savedStates name) :
    (andThen (x, s) next).2.savedStates name = s.savedStates name := by
  cases x with
  | error e => rfl
  | ok a => exact h a

theorem moveTo_savedStates (s : GcodeState K) (values : Axes (Option K)) (feed : Option K) :
    (s.moveTo values feed).savedStates = s.savedStates := by
  unfold GcodeState.moveTo
  cases feed <;> exact (moveWords_same s values).saved

theorem applyChords_savedStates (span : ByteSpan) (count index : ℕ)
    (segments : List (ArcSegment K)) (s : GcodeState K) :
    (applyChords arith span count index segments s).2.savedStates = s.savedStates := by
  induction segments generalizing index s with
  | nil => rfl
  | cons segment segments ih =>
    simp only [applyChords]
    rw [ih]
    exact moveTo_savedStates _ _ _

/-- The line saves the state under the name. -/
def SavesAs (line : Line) (name : Text) : Prop :=
  ∃ cmd comment, line.body = .command cmd comment ∧ kindOf cmd.name = .saveState ∧
    stateName cmd = name

/-- A saved state is replaced only by saving under its name. -/
theorem apply_savedStates {line : Line} {name : Text} (h : ¬ SavesAs line name) :
    (s.apply arith line).2.savedStates name = s.savedStates name := by
  unfold apply
  cases hbody : line.body with
  | blank => rfl
  | comment text => rfl
  | command cmd comment =>
    dsimp only [applyCommand]
    cases hkind : kindOf cmd.name with
    | saveState =>
      refine andThen_savedStates fun _ => Function.update_of_ne ?_ _ _
      rintro rfl
      exact h ⟨cmd, comment, hbody, hkind, rfl⟩
    | linear => exact andThen_savedStates fun _ => congrFun (moveTo_savedStates _ _ _) name
    | arc clockwise =>
      exact andThen_savedStates fun _ => congrFun (applyChords_savedStates _ _ _ _ _) name
    | home => exact congrFun (cmdG28_same s cmd).saved name
    | position =>
      exact andThen_savedStates fun words => congrFun (rebaseAll_same s words).1.saved name
    | setOffset =>
      refine andThen_savedStates fun _ => ?_
      have hsame := (shiftOrigins_same arith cmd offsetAxes (.uniform 0) s).1
      generalize shiftOrigins arith cmd offsetAxes (.uniform 0) s = shifted at hsame ⊢
      obtain ⟨result, t⟩ := shifted
      rw [← hsame.saved]
      cases result with
      | error e => rfl
      | ok delta =>
        rw [andThen_ok]
        exact andThen_savedStates fun speed => by cases speed <;> rfl
    | restoreState =>
      refine andThen_savedStates fun _ => ?_
      cases s.savedStates (stateName cmd) with
      | none => rfl
      | some saved =>
        exact andThen_savedStates (s := s.restore saved) fun speed => by cases speed <;> rfl
    | acceleration => exact andThen_savedStates fun _ => rfl
    | speedFactor => exact andThen_savedStates fun _ => rfl
    | extrudeFactor => exact andThen_savedStates fun _ => rfl
    | plane plane => rfl
    | inches => rfl
    | query => rfl
    | coordMode absolute => rfl
    | extrudeMode absolute => rfl
    | passThrough => rfl

end Saved

section Programs

/-- The state after the lines; a line that fails leaves behind what it has changed. -/
def stateAfter (arith : Arithmetic K) (s : GcodeState K) (lines : List Line) : GcodeState K :=
  lines.foldl (fun s line => (s.apply arith line).2) s

/-- Every program keeps a state sound. -/
theorem stateAfter_sound (hs : Sound s) (lines : List Line) : Sound (stateAfter arith s lines) := by
  unfold stateAfter
  induction lines generalizing s with
  | nil => exact hs
  | cons line lines ih => exact ih (apply_proper hs line).sound

theorem stateAfter_savedStates {lines : List Line} {name : Text}
    (h : ∀ line ∈ lines, ¬ SavesAs line name) :
    (stateAfter arith s lines).savedStates name = s.savedStates name := by
  unfold stateAfter
  induction lines generalizing s with
  | nil => rfl
  | cons line lines ih =>
    rw [List.foldl_cons, ih fun l hl => h l (List.mem_cons_of_mem _ hl)]
    exact apply_savedStates (h line List.mem_cons_self)

/-- The laws of one command. -/
structure CommandLaws (arith : Arithmetic K) (s : GcodeState K) (cmd : Command) (span : ByteSpan) :
    Prop where
  plannable : ∀ m ∈ (s.applyCommand arith cmd span).moves, Plannable arith m
  travels : Travels arith s.lastPosition (s.applyCommand arith cmd span).moves
    (s.applyCommand arith cmd span).2.lastPosition
  single : (∀ clockwise, kindOf cmd.name ≠ .arc clockwise) →
    Stretch arith s.lastPosition (s.applyCommand arith cmd span).moves
      (s.applyCommand arith cmd span).2.lastPosition
  speedFactor : kindOf cmd.name = .speedFactor →
    (s.applyCommand arith cmd span).2.gcodeSpeed = s.gcodeSpeed ∧
      (s.applyCommand arith cmd span).2.lastPosition = s.lastPosition ∧
      (s.applyCommand arith cmd span).2.basePosition = s.basePosition ∧
      (s.applyCommand arith cmd span).2.homingPosition = s.homingPosition ∧
      (s.applyCommand arith cmd span).2.gcodePosition = s.gcodePosition
  extrudeFactor : kindOf cmd.name = .extrudeFactor →
    (s.applyCommand arith cmd span).2.gcodePosition = s.gcodePosition
  position : kindOf cmd.name = .position → ∀ words, g92Words arith cmd = .ok words →
    words ≠ .uniform none →
      (∀ axis, (s.applyCommand arith cmd span).2.gcodePosition.get axis =
        (words.get axis).getD (s.gcodePosition.get axis)) ∧
      (s.applyCommand arith cmd span).2.lastPosition = s.lastPosition

theorem commandLaws (hs : Sound s) (cmd : Command) (span : ByteSpan) :
    CommandLaws arith s cmd span where
  plannable := (applyCommand_proper hs span).plannable
  travels := (applyCommand_proper hs span).path
  single hkind := (applyCommand_stretch _ hs span hkind).path
  speedFactor hkind := by
    unfold applyCommand
    rw [hkind]
    dsimp only [cmdM220]
    cases hpercent : percentage arith cmd with
    | error e => exact ⟨rfl, rfl, rfl, rfl, rfl⟩
    | ok percent =>
      exact ⟨gcodeSpeed_scaleSpeed (pos_of_percentage hpercent), rfl, rfl, rfl, rfl⟩
  extrudeFactor hkind := by
    unfold applyCommand
    rw [hkind]
    dsimp only [cmdM221]
    cases hpercent : percentage arith cmd with
    | error e => rfl
    | ok percent => exact gcodePosition_scaleExtrusion (pos_of_percentage hpercent)
  position hkind words hwords hsome := by
    unfold applyCommand
    rw [hkind]
    dsimp only [cmdG92]
    rw [hwords]
    exact ⟨gcodePosition_rebaseAll hs hsome, (rebaseAll_same s words).2⟩

/-- A frame that is saved and later restored, at the same point of space and without a move. -/
theorem gcodePosition_save_restore {between : List Line} {save restore : Command} (span : ByteSpan)
    (hsave : kindOf save.name = .saveState)
    (hsaved : ensureWellformedExtended (K := K) save = .ok ())
    (hrestore : kindOf restore.name = .restoreState)
    (hrestored : ensureWellformedExtended (K := K) restore = .ok ())
    (hname : stateName restore = stateName save)
    (hmove : ∀ speed, requestedMove arith restore speed = .ok none)
    (hbetween : ∀ line ∈ between, ¬ SavesAs line (stateName save))
    (hpoint : (stateAfter arith (s.applyCommand arith save span).2 between).lastPosition.point =
      s.lastPosition.point) :
    ((stateAfter arith (s.applyCommand arith save span).2 between).applyCommand arith restore
      span).2.gcodePosition = s.gcodePosition := by
  have hafter : (s.applyCommand arith save span).2 = s.save (stateName save) := by
    unfold applyCommand
    rw [hsave]
    dsimp only [cmdSaveGcodeState]
    rw [hsaved]
    rfl
  rw [hafter] at hpoint ⊢
  generalize ht : stateAfter arith (s.save (stateName save)) between = t at hpoint ⊢
  have hstate : t.savedStates (stateName restore) = some s.snapshot := by
    rw [← ht, hname, stateAfter_savedStates hbetween]
    exact Function.update_self _ _ _
  unfold applyCommand
  rw [hrestore]
  dsimp only [cmdRestoreGcodeState]
  rw [hrestored, andThen_ok, hstate]
  dsimp only
  rw [hmove]
  exact gcodePosition_restore hpoint

/-- Along every program that starts from a sound state the state stays sound, and every command
keeps its laws. -/
theorem program_laws (arith : Arithmetic K) (s : GcodeState K) (hs : Sound s)
    (lines : List Line) :
    Sound (stateAfter arith s lines) ∧
      (∀ line, Proper arith (Travels arith) (stateAfter arith s lines)
        ((stateAfter arith s lines).apply arith line)) ∧
      (∀ cmd span, CommandLaws arith (stateAfter arith s lines) cmd span) ∧
      ∀ (save restore : Command) (between : List Line) (span : ByteSpan),
        kindOf save.name = .saveState → ensureWellformedExtended (K := K) save = .ok () →
        kindOf restore.name = .restoreState → ensureWellformedExtended (K := K) restore = .ok () →
        stateName restore = stateName save →
        (∀ speed, requestedMove arith restore speed = .ok none) →
        (∀ line ∈ between, ¬ SavesAs line (stateName save)) →
        let saved := ((stateAfter arith s lines).applyCommand arith save span).2
        (stateAfter arith saved between).lastPosition.point =
          (stateAfter arith s lines).lastPosition.point →
        ((stateAfter arith saved between).applyCommand arith restore span).2.gcodePosition =
          (stateAfter arith s lines).gcodePosition := by
  have hafter : Sound (stateAfter arith s lines) := stateAfter_sound hs lines
  refine ⟨hafter, fun line => apply_proper hafter line, fun cmd span => commandLaws hafter cmd span, ?_⟩
  intro save restore between span hsave hsaved hrestore hrestored hname hmove hbetween saved hpoint
  exact gcodePosition_save_restore span hsave hsaved hrestore hrestored hname hmove hbetween hpoint

theorem sound_new : Sound (new : GcodeState K) where
  speed := Nat.cast_pos.mpr (by decide)
  speedFactor := div_pos one_pos (by positivity)
  extrudeFactor := one_pos
  accel a h := by cases h
  saved name saved h := by cases h

theorem program_laws_new :
    Sound (new : GcodeState ℚ) ∧
      0 < (stateAfter rationals new
        [⟨⟨0, 9⟩, parseLine asciiCase (lit "M221 S90")⟩,
          ⟨⟨9, 23⟩, parseLine asciiCase (lit "G1 X10 E1 F600")⟩]).speed :=
  ⟨sound_new, (program_laws rationals new sound_new _).1.speed⟩

/-- A saved state that was not sound comes back. -/
theorem restored_speed_not_positive :
    ¬ ∀ (s : GcodeState ℚ), 0 < s.speed → 0 < s.speedFactor → 0 < s.extrudeFactor →
      ∀ lines : List Line, 0 < (stateAfter rationals s lines).speed := by
  intro h
  let saved : SavedGcodeState ℚ := { (new : GcodeState ℚ).snapshot with speed := -1 }
  let s : GcodeState ℚ := { new with savedStates := fun _ => some saved }
  have hspeed := h s sound_new.speed sound_new.speedFactor sound_new.extrudeFactor
    [⟨⟨0, 19⟩, parseLine asciiCase (lit "RESTORE_GCODE_STATE")⟩]
  have hnegative : ¬ 0 < (stateAfter rationals s
      [⟨⟨0, 19⟩, parseLine asciiCase (lit "RESTORE_GCODE_STATE")⟩]).speed := by
    decide +kernel
  exact hnegative hspeed

end Programs

end GcodeState

end DeadReckoning.Gcode
