import DeadReckoning.Analyzer.Preview
import DeadReckoning.Gcode.Modes
import DeadReckoning.Gcode.Reading
import DeadReckoning.Gcode.Waypoints

/-! Whether a print file has work left behind an offset. The answer that it has none suppresses a
recovery, so it rests on a replay of the rest of the file and is refused when that cannot be
trusted. -/
namespace DeadReckoning.Analyzer
open Checks (ensure bind_eq_ok ensure_eq_ok)
open Gcode (Arithmetic CaseMapping Command GcodeState Line ModeAxis lineIter saturatingAdd)
open Recovery (MoveKind)

section Types

def maxNamedCommands : ℕ := 32

/-- What is left to print. -/
inductive RemainingWork where
  | extrusion (firstOffset moves layers : ℕ)
  | endSequenceOnly (commands : List Text)
  | nothing
  deriving DecidableEq

def RemainingWork.isComplete : RemainingWork → Bool
  | .extrusion .. => false
  | .endSequenceOnly _ | .nothing => true

/-- Why it is not known what is left. -/
inductive WorkUnknown where
  | replayFailed (offset : ℕ)
  | offsetOutsideWindow (offset windowEnd : ℕ)
  | unintelligibleRemainder (offset commands : ℕ)
  | extrudeModeContradiction (offset : ℕ) (axis : ModeAxis) (fileAbsolute : Bool)
  deriving DecidableEq

/-- The modes in which the replay began. -/
structure AnchorFrame where
  absoluteCoordinates : Bool
  absoluteExtrude : Bool

def AnchorFrame.claim (anchor : AnchorFrame) : ModeAxis → Bool
  | .coordinates => anchor.absoluteCoordinates
  | .extrusion => anchor.absoluteExtrude

/-- The modes of an interpreter. -/
def frameOf (state : GcodeState ℚ) : AnchorFrame := ⟨state.absoluteCoord, state.absoluteExtrude⟩

structure ModeCommand where
  offset : ℕ
  axis : ModeAxis
  absolute : Bool
  deriving DecidableEq

end Types

section Modes

def modeCommand (line : Line) : Option ModeCommand :=
  line.body.command?.bind fun command =>
    if command.name = lit "G90" then some ⟨line.span.start, .coordinates, true⟩
    else if command.name = lit "G91" then some ⟨line.span.start, .coordinates, false⟩
    else if command.name = lit "M82" then some ⟨line.span.start, .extrusion, true⟩
    else if command.name = lit "M83" then some ⟨line.span.start, .extrusion, false⟩
    else none

variable (model : LayerModel) (offset : ℕ) (anchor : AnchorFrame)

/-- Some move lies between the tested offset and the command. -/
def doubtfulSpanHasMoves (mode : ModeCommand) : Bool :=
  model.moves.any fun m => offset ≤ m.span.start && m.span.start < mode.offset

/-- Only the first command of an axis counts: one at the offset or before it settles the axis, one
behind it must not contradict the anchor over moves. -/
def checkModes : (ModeAxis → Bool) → List Line → Except WorkUnknown Unit
  | _, [] => .ok ()
  | settled, line :: lines =>
      match modeCommand line with
      | none => checkModes settled lines
      | some mode =>
          if settled mode.axis then checkModes settled lines
          else if mode.offset ≤ offset || mode.absolute = anchor.claim mode.axis ||
              !doubtfulSpanHasMoves model offset mode then
            checkModes (Function.update settled mode.axis true) lines
          else .error (.extrudeModeContradiction mode.offset mode.axis mode.absolute)

/-- The trust in the modes of the anchor over a part of a file. -/
def checkExtrudeMode (lines : List Line) : Except WorkUnknown Unit :=
  checkModes model offset anchor (fun _ => false) lines

end Modes

section Census

/-- The commands of the remainder. -/
structure Census where
  names : List Text
  commandLines : ℕ
  sawTraditional : Bool

def isTraditional (command : Command) : Bool :=
  match command.params with
  | .traditional _ => true
  | .extended _ _ => false

def Census.add (found : Census) (command : Command) : Census where
  names :=
    if found.names.length < maxNamedCommands then found.names ++ [command.name] else found.names
  commandLines := min (found.commandLines + 1) u32Max
  sawTraditional := found.sawTraditional || isTraditional command

def census (lines : List Line) (offset : ℕ) : Census :=
  lines.foldl (fun found line =>
    if line.span.start < offset then found
    else
      match line.body.command? with
      | none => found
      | some command => if command.name = [] then found else found.add command) ⟨[], 0, false⟩

end Census

section Work

/-- A deposition counts unless it belongs to an object that is known to be cancelled. -/
def countsAsWork (exclusions : Option ExclusionOracle) (m : SimMove) : Bool :=
  match exclusions with
  | none => true
  | some oracle =>
      if !oracle.isConclusive then true
      else
        match m.object with
        | none => true
        | some object => !oracle.isExcluded object

/-- The depositions behind the offset that count. -/
def counted (model : LayerModel) (offset : ℕ) (exclusions : Option ExclusionOracle) :
    List SimMove :=
  model.moves.filter fun m =>
    m.kind = .extrusion && offset ≤ m.span.start && countsAsWork exclusions m

/-- The replay reached the end. -/
def checkStop : ModelStop → Except WorkUnknown Unit
  | .endOfInput => .ok ()
  | .lineError offset _ => .error (.replayFailed offset)

def remainingWork (cases : CaseMapping) (model : LayerModel) (tail : Bytes)
    (baseOffset offset : ℕ) (anchor : AnchorFrame) (exclusions : Option ExclusionOracle) :
    Except WorkUnknown RemainingWork := do
  checkStop model.stop
  let windowEnd := saturatingAdd baseOffset tail.length
  ensure (offset ≤ windowEnd) (.offsetOutsideWindow offset windowEnd)
  let lines := lineIter cases tail baseOffset
  checkExtrudeMode model offset anchor lines
  match counted model offset exclusions with
  | first :: others =>
      let layers := ((first :: others).filterMap (·.layer)).insertionSort (· ≤ ·) |>.dedup
      pure (.extrusion first.span.start (min (others.length + 1) u32Max) (min layers.length u32Max))
  | [] =>
      let found := census lines offset
      if found.names = [] then pure .nothing
      else do
        ensure found.sawTraditional (.unintelligibleRemainder offset found.commandLines)
        pure (.endSequenceOnly found.names)

end Work

section Replay

variable {cases : CaseMapping} {arith : Arithmetic ℚ} {config : ModelConfig} {state : GcodeState ℚ}
  {lines : List Line} {b : Builder}

/-- A model that does not end in an error is one of lines that all apply. -/
theorem applies_of_checkStop
    (h : checkStop (buildFrom cases arith config state lines b).stop = .ok ()) :
    GcodeState.Applies arith state lines := by
  induction lines generalizing state b with
  | nil => trivial
  | cons line lines ih =>
    rw [buildFrom] at h
    unfold GcodeState.Applies
    generalize state.apply arith line = applied at h ⊢
    obtain ⟨result, after⟩ := applied
    cases result with
    | error error => cases h
    | ok outcome => exact ⟨⟨outcome, rfl⟩, ih h⟩

/-- The filament of the move goes forward. -/
def SimMove.pushesFilament (m : SimMove) : Bool := F64.lt 0 (m.finish.e - m.start.e)

/-- A move that goes somewhere and pushes filament is a deposition. -/
def Labelled (m : SimMove) : Prop :=
  m.pushesFilament = true → m.kind ≠ .extrudeOnly → m.kind = .extrusion

theorem recordMove_labelled (planned : Gcode.PlannedMove ℚ)
    (h : ∀ m ∈ b.model.moves, Labelled m) :
    ∀ m ∈ (recordMove arith config planned b).model.moves, Labelled m := by
  intro m hm
  rcases List.mem_append.mp hm with hm | hm
  · exact h m hm
  · obtain rfl := List.mem_singleton.mp hm
    intro hpushes hkind
    have hforward : 0 < (planned.kinematicEnd arith).e - planned.start.e := by
      have hlt := of_decide_eq_true hpushes
      rwa [sub_eq_add_neg]
    dsimp only [kindOfMove] at hkind ⊢
    split_ifs at hkind ⊢ with hstays <;> first | rfl | exact absurd rfl hkind

theorem foldl_recordMove_labelled (moves : List (Gcode.PlannedMove ℚ))
    (h : ∀ m ∈ b.model.moves, Labelled m) :
    ∀ m ∈ (moves.foldl (fun b planned => recordMove arith config planned b) b).model.moves,
      Labelled m := by
  induction moves generalizing b with
  | nil => exact h
  | cons planned moves ih => exact ih (recordMove_labelled planned h)

theorem buildFrom_labelled (h : ∀ m ∈ b.model.moves, Labelled m) :
    ∀ m ∈ (buildFrom cases arith config state lines b).moves, Labelled m := by
  induction lines generalizing state b with
  | nil => exact h
  | cons line lines ih =>
    have hmarks : ∀ m ∈ (readMarks cases line b).model.moves, Labelled m := by
      rwa [readMarks_moves]
    rw [buildFrom]
    generalize state.apply arith line = applied
    obtain ⟨result, after⟩ := applied
    cases result with
    | error error => exact hmarks
    | ok outcome => exact ih (foldl_recordMove_labelled outcome.moves hmarks)

end Replay

section TwoRuns

variable {cases : CaseMapping} {arith : Arithmetic ℚ} {config : ModelConfig} {state : GcodeState ℚ}
  {lines : List Line} {line : Line} {axis : ModeAxis}

theorem modeCommand_eq_some {mode : ModeCommand} (h : modeCommand line = some mode) :
    ∃ command, line.body.command? = some command ∧
      GcodeState.modeOf command = some (mode.axis, mode.absolute) ∧
        mode.offset = line.span.start := by
  obtain ⟨command, hcommand, h⟩ := Option.bind_eq_some_iff.mp h
  refine ⟨command, hcommand, ?_⟩
  unfold GcodeState.modeOf
  split_ifs at h with hname hname hname hname <;> cases h <;> rw [hname] <;> exact ⟨rfl, rfl⟩

/-- The line sets the mode. -/
def setsMode (axis : ModeAxis) (line : Line) : Bool :=
  (modeCommand line).any fun mode => mode.axis = axis

/-- Some line sets the mode, and none before it uses it. -/
def declares (arith : Arithmetic ℚ) (axis : ModeAxis) : GcodeState ℚ → List Line → Bool
  | _, [] => false
  | state, line :: lines =>
      setsMode axis line ||
        (!state.lineUsesMode axis line && declares arith axis (state.apply arith line).2 lines)

/-- Where a line sets the mode, the one in force before it does not matter. -/
theorem apply_of_setsMode (h : setsMode axis line = true) (absolute : Bool) :
    (state.withMode axis absolute).apply arith line = state.apply arith line := by
  obtain ⟨mode, hmode, haxis⟩ := (Option.any_eq_true _ _).mp h
  obtain ⟨command, hcommand, hsets, -⟩ := modeCommand_eq_some hmode
  obtain rfl : mode.axis = axis := of_decide_eq_true haxis
  unfold GcodeState.apply
  cases hbody : line.body with
  | blank =>
    rw [hbody] at hcommand
    cases hcommand
  | comment text =>
    rw [hbody] at hcommand
    cases hcommand
  | command cmd comment =>
    rw [hbody] at hcommand
    obtain rfl : cmd = command := Option.some.inj hcommand
    exact GcodeState.applyCommand_modeOf hsets absolute

/-- A file that declares the mode is replayed alike from both. -/
theorem buildFrom_withMode (h : declares arith axis state lines = true) (absolute : Bool)
    (b : Builder) : buildFrom cases arith config (state.withMode axis absolute) lines b =
      buildFrom cases arith config state lines b := by
  induction lines generalizing state absolute b with
  | nil => cases h
  | cons line lines ih =>
    rw [declares, Bool.or_eq_true, Bool.and_eq_true, Bool.not_eq_true'] at h
    rw [buildFrom, buildFrom]
    rcases h with hsets | ⟨hunused, hlater⟩
    · rw [apply_of_setsMode hsets]
    · have halike : GcodeState.Alike axis (state.apply arith line)
          ((state.withMode axis absolute).apply arith line) :=
        GcodeState.apply_alike absolute hunused
      obtain ⟨hresult, mode, hstate⟩ := halike
      generalize (state.withMode axis absolute).apply arith line = other at hresult hstate
      generalize state.apply arith line = applied at hresult hstate hlater ⊢
      obtain ⟨result, after⟩ := applied
      obtain ⟨result', after'⟩ := other
      obtain rfl : result' = result := hresult
      obtain rfl : after' = after.withMode axis mode := hstate
      cases result' with
      | error error => rfl
      | ok outcome => exact ih hlater mode _

end TwoRuns

section Guard

variable {model : LayerModel} {offset : ℕ} {anchor : AnchorFrame} {lines : List Line}

/-- The first command of the file that sets the mode. -/
def firstMode (axis : ModeAxis) (lines : List Line) : Option ModeCommand :=
  (lines.filterMap modeCommand).find? fun mode => mode.axis = axis

/-- The first command of an axis was looked at when the check passes. -/
theorem checkModes_first {settled : ModeAxis → Bool} {mode : ModeCommand}
    (h : checkModes model offset anchor settled lines = .ok ())
    (hsettled : settled mode.axis = false)
    (hfirst : firstMode mode.axis lines = some mode) :
    mode.offset ≤ offset ∨ mode.absolute = anchor.claim mode.axis ∨
      doubtfulSpanHasMoves model offset mode = false := by
  induction lines generalizing settled with
  | nil => cases hfirst
  | cons line lines ih =>
    rw [checkModes] at h
    cases hmode : modeCommand line with
    | none =>
      rw [hmode] at h
      rw [firstMode, List.filterMap_cons_none hmode] at hfirst
      exact ih h hsettled hfirst
    | some found =>
      rw [hmode] at h
      rw [firstMode, List.filterMap_cons_some hmode] at hfirst
      dsimp only at h
      by_cases haxis : found.axis = mode.axis
      · rw [List.find?_cons_of_pos (by simpa using haxis)] at hfirst
        obtain rfl : found = mode := Option.some.inj hfirst
        rw [hsettled] at h
        split at h
        · rename_i hfalse
          cases hfalse
        · split at h
          · rename_i hpassed
            simpa [Bool.or_eq_true, or_assoc] using hpassed
          · cases h
      · rw [List.find?_cons_of_neg (by simpa using haxis)] at hfirst
        split at h
        · exact ih h hsettled hfirst
        · split at h
          · exact ih h (by rwa [Function.update_of_ne (Ne.symm haxis)]) hfirst
          · cases h

end Guard

section Gate

variable (cases : CaseMapping) (arith : Arithmetic ℚ) (config : ModelConfig)

/-- What is left behind the offset in a replay from a state. -/
def workLeft (state : GcodeState ℚ) (tail : Bytes) (baseOffset offset : ℕ)
    (exclusions : Option ExclusionOracle) : Except WorkUnknown RemainingWork :=
  remainingWork cases (buildLayerModel cases arith config state tail baseOffset) tail baseOffset
    offset (frameOf state) exclusions

/-- The move belongs to an object that is known to be cancelled. -/
def Cancelled (exclusions : Option ExclusionOracle) (m : SimMove) : Prop :=
  ∃ oracle object, exclusions = some oracle ∧ oracle.isConclusive = true ∧
    m.object = some object ∧ oracle.isExcluded object = true

theorem countsAsWork_eq_false {exclusions : Option ExclusionOracle} {m : SimMove}
    (h : countsAsWork exclusions m = false) : Cancelled exclusions m := by
  unfold countsAsWork at h
  cases exclusions with
  | none => cases h
  | some oracle =>
    cases hconclusive : oracle.isConclusive with
    | false => simp [hconclusive] at h
    | true =>
      cases hobject : m.object with
      | none => simp [hconclusive, hobject] at h
      | some object =>
        refine ⟨oracle, object, rfl, hconclusive, hobject, ?_⟩
        simpa [hconclusive, hobject] using h

/-- What a verdict that the print is complete rests on. -/
structure ProvenComplete (state : GcodeState ℚ) (tail : Bytes) (baseOffset offset : ℕ)
    (exclusions : Option ExclusionOracle) : Prop where
  applied : GcodeState.Applies arith state (lineIter cases tail baseOffset)
  cancelled : ∀ m ∈ (buildLayerModel cases arith config state tail baseOffset).moves,
    offset ≤ m.span.start → m.pushesFilament = true → m.kind ≠ .extrudeOnly → Cancelled exclusions m
  uncontradicted : ∀ mode, firstMode mode.axis (lineIter cases tail baseOffset) = some mode →
    offset < mode.offset → mode.absolute ≠ state.mode mode.axis →
      ∀ m ∈ (buildLayerModel cases arith config state tail baseOffset).moves,
        offset ≤ m.span.start → mode.offset ≤ m.span.start
  declared : ∀ axis, declares arith axis state (lineIter cases tail baseOffset) = true →
    ∀ absolute, counted (buildLayerModel cases arith config (state.withMode axis absolute) tail
      baseOffset) offset exclusions = []

/-- A verdict that the print is complete comes from the replay of the whole rest of the file. -/
theorem remainingWork_complete {model : LayerModel} {tail : Bytes} {baseOffset offset : ℕ}
    {anchor : AnchorFrame} {exclusions : Option ExclusionOracle} {work : RemainingWork}
    (h : remainingWork cases model tail baseOffset offset anchor exclusions = .ok work)
    (hcomplete : work.isComplete = true) :
    checkStop model.stop = .ok () ∧
      checkExtrudeMode model offset anchor (lineIter cases tail baseOffset) = .ok () ∧
      counted model offset exclusions = [] := by
  unfold remainingWork at h
  obtain ⟨_, hstop, h⟩ := bind_eq_ok.mp h
  obtain ⟨_, -, h⟩ := bind_eq_ok.mp h
  obtain ⟨_, hmodes, h⟩ := bind_eq_ok.mp h
  refine ⟨hstop, hmodes, ?_⟩
  cases hcounted : counted model offset exclusions with
  | nil => rfl
  | cons first others =>
    rw [hcounted] at h
    cases h
    cases hcomplete

/-- The print is called complete on proof. Every line applies, and what goes somewhere and pushes
filament belongs to a cancelled object. The modes of the anchor are not contradicted over moves,
and one that the file declares before it uses it does not matter at all. -/
theorem workLeft_proven (state : GcodeState ℚ) (tail : Bytes) (baseOffset offset : ℕ)
    (exclusions : Option ExclusionOracle) {work : RemainingWork}
    (h : workLeft cases arith config state tail baseOffset offset exclusions = .ok work)
    (hcomplete : work.isComplete = true) :
    ProvenComplete cases arith config state tail baseOffset offset exclusions := by
  obtain ⟨hstop, hmodes, hcounted⟩ := remainingWork_complete cases h hcomplete
  refine ⟨applies_of_checkStop hstop, ?_, ?_, ?_⟩
  · intro m hm hbehind hpushes hkind
    have hdeposits : m.kind = .extrusion := buildFrom_labelled (by simp) m hm hpushes hkind
    have hleft := List.filter_eq_nil_iff.mp hcounted m hm
    refine countsAsWork_eq_false ?_
    simpa [hdeposits, hbehind] using hleft
  · intro mode hfirst hlate hcontradicts m hm hbehind
    have hclaim : (frameOf state).claim mode.axis = state.mode mode.axis := by
      cases mode.axis <;> rfl
    have hspan : doubtfulSpanHasMoves
        (buildLayerModel cases arith config state tail baseOffset) offset mode = false := by
      rcases checkModes_first hmodes rfl hfirst with hearly | hagrees | hspan
      · omega
      · exact absurd (hagrees.trans hclaim) hcontradicts
      · exact hspan
    have hnot := List.any_eq_false.mp hspan m hm
    simpa [hbehind] using hnot
  · intro axis hdeclares absolute
    rw [buildLayerModel, buildFrom_withMode hdeclares]
    exact hcounted

end Gate

section Examples

/-- A file that declares relative filament before its one deposition, of a cancelled object. -/
def cancelledTail : Bytes :=
  Gcode.encode (lit "M83\nEXCLUDE_OBJECT_START NAME=A\nG1 X1 E1\nEXCLUDE_OBJECT_END\nM84\n")

def cancelsA : ExclusionOracle := ⟨true, fun object => object = lit "A"⟩

theorem workLeft_proven_cancelled :
    workLeft Gcode.asciiCase Gcode.rationals ⟨1⟩ .new cancelledTail 0 0 (some cancelsA) =
        .ok (.endSequenceOnly [lit "M83", lit "EXCLUDE_OBJECT_START", lit "G1",
          lit "EXCLUDE_OBJECT_END", lit "M84"]) ∧
      ProvenComplete Gcode.asciiCase Gcode.rationals ⟨1⟩ .new cancelledTail 0 0
        (some cancelsA) := by
  have h : workLeft Gcode.asciiCase Gcode.rationals ⟨1⟩ .new cancelledTail 0 0 (some cancelsA) =
      .ok (.endSequenceOnly [lit "M83", lit "EXCLUDE_OBJECT_START", lit "G1",
        lit "EXCLUDE_OBJECT_END", lit "M84"]) := by
    decide +kernel
  exact ⟨h, workLeft_proven _ _ _ _ _ _ _ _ h rfl⟩

/-- Five millimetres of filament have been fed. -/
def fed (absolute : Bool) : GcodeState ℚ :=
  { (GcodeState.new) with lastPosition := ⟨0, 0, 0, 5⟩, absoluteExtrude := absolute }

/-- Files that set the mode of the filament, with the mode of the anchor and the tested offset. The
baseline hangs on the anchor where a move comes before the command, also one that the replay drops;
a command behind the offset that agrees with the anchor says nothing against it; and a saved mode
comes back behind the command. -/
def anchoredTails : List (Bool × Text × ℕ) :=
  [(false, lit "G1 E9\nM82\nG1 X1 E12\n", 10),
    (false, lit "G1 E0\nM82\nG1 X1 E3\n", 0),
    (true, lit "G1 X1 E4\nM82\n", 0),
    (true, lit "SAVE_GCODE_STATE\nM83\nRESTORE_GCODE_STATE\nG1 X1 E4\n", 21)]

/-- A prime is not work, and in the other mode the file still deposits. -/
theorem workLeft_hangs_on_anchor :
    (workLeft Gcode.asciiCase Gcode.rationals ⟨1⟩ .new (Gcode.encode (lit "G1 E5\n")) 0 0 none =
        .ok (.endSequenceOnly [lit "G1"]) ∧
      ∃ m ∈ (buildLayerModel Gcode.asciiCase Gcode.rationals ⟨1⟩ .new
          (Gcode.encode (lit "G1 E5\n")) 0).moves,
        0 ≤ m.span.start ∧ m.pushesFilament = true ∧ ¬ Cancelled none m) ∧
    ∀ run ∈ anchoredTails,
      (∃ commands, workLeft Gcode.asciiCase Gcode.rationals ⟨1⟩ (fed run.1)
        (Gcode.encode run.2.1) 0 run.2.2 none = .ok (.endSequenceOnly commands)) ∧
      firstMode .extrusion (lineIter Gcode.asciiCase (Gcode.encode run.2.1) 0) ≠ none ∧
      counted (buildLayerModel Gcode.asciiCase Gcode.rationals ⟨1⟩
        ((fed run.1).withMode .extrusion (!run.1)) (Gcode.encode run.2.1) 0) run.2.2 none ≠ [] := by
  refine ⟨⟨by decide +kernel, ?_⟩, ?_⟩
  · have hprime : ∃ m ∈ (buildLayerModel Gcode.asciiCase Gcode.rationals ⟨1⟩ .new
        (Gcode.encode (lit "G1 E5\n")) 0).moves, m.pushesFilament = true := by
      decide +kernel
    obtain ⟨m, hm, hpushes⟩ := hprime
    exact ⟨m, hm, Nat.zero_le _, hpushes, fun ⟨_, _, hnone, _⟩ => nomatch hnone⟩
  · unfold anchoredTails
    simp only [List.forall_mem_cons, List.not_mem_nil, false_implies, implies_true, and_true]
    refine ⟨⟨⟨[lit "G1"], ?_⟩, ?_, ?_⟩, ⟨⟨[lit "G1", lit "M82", lit "G1"], ?_⟩, ?_, ?_⟩,
      ⟨⟨[lit "G1", lit "M82"], ?_⟩, ?_, ?_⟩,
      ⟨⟨[lit "RESTORE_GCODE_STATE", lit "G1"], ?_⟩, ?_, ?_⟩⟩ <;> decide +kernel

end Examples

end DeadReckoning.Analyzer
