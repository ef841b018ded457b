import DeadReckoning.Gcode.Circle

/-! What a command leaves alone: the words that it does not have do not move their axes, and only a
motion command moves at all. -/
namespace DeadReckoning.Gcode

set_option linter.unusedSectionVars false

open Checks (bind_eq_ok)

/-- A command that may move the toolhead, or change the mode, without a motion word. -/
def Wanders (cmd : Command) : Prop :=
  GcodeState.kindOf cmd.name = .setOffset ∨ GcodeState.kindOf cmd.name = .restoreState

/-- The line is an arc. -/
def IsArc (line : Line) : Prop :=
  ∃ cmd, line.body.command? = some cmd ∧ ∃ clockwise, GcodeState.kindOf cmd.name = .arc clockwise

namespace GcodeState

open Applied

section Modes

variable {K : Type} [Field K] [LinearOrder K] {arith : Arithmetic K} {s : GcodeState K}
  {cmd : Command} {span : ByteSpan}

theorem andThen_mode {α β : Type} {x : Except (StateError K) α}
    {next : α → GcodeState K → Applied K β} {absolute : Bool} (hs : s.absoluteCoord = absolute)
    (h : ∀ a, (next a s).2.absoluteCoord = absolute) :
    (andThen (x, s) next).2.absoluteCoord = absolute := by
  cases x with
  | error e => exact hs
  | ok a => exact h a

theorem moveTo_mode (values : Axes (Option K)) (feed : Option K) :
    (s.moveTo values feed).absoluteCoord = s.absoluteCoord := by
  unfold moveTo
  cases feed with
  | none => simp only [moveWords, applyWord_absoluteCoord]
  | some f => simp only [moveWords, applyWord_absoluteCoord]

theorem applyChords_mode (count index : ℕ) (segments : List (ArcSegment K)) :
    (applyChords arith span count index segments s).2.absoluteCoord = s.absoluteCoord := by
  induction segments generalizing index s with
  | nil => rfl
  | cons segment segments ih =>
    simp only [applyChords]
    rw [ih]
    exact moveTo_mode _ _

theorem rebaseAll_mode (words : Axes (Option K)) :
    (s.rebaseAll words).absoluteCoord = s.absoluteCoord := by
  have hrebase : ∀ (t : GcodeState K) (axis : Axis) (value : Option K),
      (t.rebase axis value).absoluteCoord = t.absoluteCoord := by
    intro t axis value
    cases value <;> rfl
  unfold rebaseAll
  split
  · rfl
  · simp only [hrebase]

theorem cmdG28_mode (s : GcodeState K) (cmd : Command) :
    (s.cmdG28 cmd).absoluteCoord = s.absoluteCoord := by
  unfold cmdG28
  dsimp only
  split_ifs <;> rfl

/-- The mode that is in force behind a command. -/
def Kind.mode : Kind → Bool → Bool
  | .coordMode absolute, _ => absolute
  | _, absolute => absolute

theorem applyCommand_mode (hcmd : ¬ Wanders cmd) :
    (s.applyCommand arith cmd span).2.absoluteCoord =
      (kindOf cmd.name).mode s.absoluteCoord := by
  unfold applyCommand
  cases hkind : kindOf cmd.name with
  | linear => exact andThen_mode rfl fun words => moveTo_mode _ _
  | arc clockwise => exact andThen_mode rfl fun segments => applyChords_mode _ _ _
  | home => exact cmdG28_mode s cmd
  | position => exact andThen_mode rfl fun words => rebaseAll_mode words
  | acceleration => exact andThen_mode rfl fun _ => rfl
  | speedFactor => exact andThen_mode rfl fun _ => rfl
  | extrudeFactor => exact andThen_mode rfl fun _ => rfl
  | saveState => exact andThen_mode rfl fun _ => rfl
  | setOffset => exact absurd (.inl hkind) hcmd
  | restoreState => exact absurd (.inr hkind) hcmd
  | _ => rfl

end Modes

section Words

variable {K : Type} [Field K] [LinearOrder K] {arith : Arithmetic K} {s : GcodeState K}
  {cmd : Command} {span : ByteSpan}

/-- Where a word leads. -/
def wordEnd (absolute : Bool) (base last : K) : Option K → K
  | none => last
  | some v => if absolute then v + base else last + v

theorem last_moveTo (values : Axes (Option K)) (feed : Option K) :
    (s.moveTo values feed).lastPosition =
        { x := wordEnd s.absoluteCoord s.basePosition.x s.lastPosition.x values.x
          y := wordEnd s.absoluteCoord s.basePosition.y s.lastPosition.y values.y
          z := wordEnd s.absoluteCoord s.basePosition.z s.lastPosition.z values.z
          e := wordEnd (s.absoluteCoord && s.absoluteExtrude) s.basePosition.e s.lastPosition.e
            (values.e.map (· * s.extrudeFactor)) } ∧
      (s.moveTo values feed).basePosition = s.basePosition := by
  obtain ⟨coord, extrude⟩ := s
  obtain ⟨x, y, z, e⟩ := values
  cases coord <;> cases extrude <;> cases x <;> cases y <;> cases z <;> cases e <;> cases feed <;>
    exact ⟨rfl, rfl⟩

theorem getFloat_absent {key : Text} (h : cmd.get key = none) :
    getFloat arith cmd key = .ok none := by
  simp only [getFloat, h]

/-- The words that are read of a linear move. -/
theorem g1Words_reads {words : Axes (Option K) × Option K} (h : g1Words arith cmd = .ok words) :
    getFloat arith cmd (lit "X") = .ok words.1.x ∧ getFloat arith cmd (lit "Y") = .ok words.1.y ∧
      getFloat arith cmd (lit "Z") = .ok words.1.z ∧
        getFloat arith cmd (lit "E") = .ok words.1.e := by
  unfold g1Words at h
  obtain ⟨x, hx, h⟩ := bind_eq_ok.mp h
  obtain ⟨y, hy, h⟩ := bind_eq_ok.mp h
  obtain ⟨z, hz, h⟩ := bind_eq_ok.mp h
  obtain ⟨e, he, h⟩ := bind_eq_ok.mp h
  obtain ⟨f, -, h⟩ := bind_eq_ok.mp h
  cases h
  exact ⟨hx, hy, hz, he⟩

theorem applyCommand_linear (hkind : kindOf cmd.name = .linear) :
    s.applyCommand arith cmd span = s.cmdG1 arith cmd span := by
  unfold applyCommand
  rw [hkind]

/-- A linear move goes where its words lead, or it fails and stays. -/
theorem linear_last (hkind : kindOf cmd.name = .linear) :
    (∃ words, g1Words arith cmd = .ok words ∧
        (s.applyCommand arith cmd span).2 = s.moveTo words.1 words.2) ∨
      (∀ outcome, (s.applyCommand arith cmd span).1 ≠ .ok outcome) ∧
        (s.applyCommand arith cmd span).2 = s := by
  rw [applyCommand_linear hkind]
  cases hwords : g1Words arith cmd with
  | error e =>
    right
    rw [cmdG1, hwords]
    exact ⟨fun _ => by rintro ⟨⟩, rfl⟩
  | ok words =>
    left
    rw [cmdG1, hwords]
    exact ⟨words, rfl, rfl⟩

/-- Without words for them X and Y stay. -/
theorem linear_aside (hkind : kindOf cmd.name = .linear) (hx : cmd.get (lit "X") = none)
    (hy : cmd.get (lit "Y") = none) :
    (s.applyCommand arith cmd span).2.lastPosition.x = s.lastPosition.x ∧
      (s.applyCommand arith cmd span).2.lastPosition.y = s.lastPosition.y := by
  rcases @linear_last K _ _ arith s cmd span hkind with ⟨words, hwords, hafter⟩ | ⟨-, hafter⟩
  · obtain ⟨hreadX, hreadY, -⟩ := g1Words_reads hwords
    rw [getFloat_absent hx] at hreadX
    rw [getFloat_absent hy] at hreadY
    rw [hafter, (last_moveTo _ _).1, ← Except.ok.inj hreadX, ← Except.ok.inj hreadY]
    exact ⟨rfl, rfl⟩
  · rw [hafter]
    exact ⟨rfl, rfl⟩

/-- Without a word for it the filament stays. -/
theorem linear_dry (hkind : kindOf cmd.name = .linear) (he : cmd.get (lit "E") = none) :
    (s.applyCommand arith cmd span).2.lastPosition.e = s.lastPosition.e := by
  rcases @linear_last K _ _ arith s cmd span hkind with ⟨words, hwords, hafter⟩ | ⟨-, hafter⟩
  · obtain ⟨-, -, -, hread⟩ := g1Words_reads hwords
    rw [getFloat_absent he] at hread
    rw [hafter, (last_moveTo _ _).1, ← Except.ok.inj hread]
    rfl
  · rw [hafter]

theorem chordEnds_dry {segments : List (ArcSegment K)}
    (h : ∀ segment ∈ segments, segment.e = none) :
    ∀ q ∈ chordEnds segments s, q.e = s.lastPosition.e := by
  induction segments generalizing s with
  | nil =>
    intro q hq
    cases hq
  | cons segment segments ih =>
    rw [List.forall_mem_cons] at h
    have hfirst : (s.moveTo ⟨some segment.target.x, some segment.target.y, some segment.target.z,
        segment.e⟩ segment.f).lastPosition.e = s.lastPosition.e := by
      rw [(last_moveTo _ _).1, h.1]
      rfl
    simp only [chordEnds, List.forall_mem_cons]
    refine ⟨hfirst, fun q hq => ?_⟩
    rw [ih h.2 q hq, hfirst]

end Words

section Moves

variable {K : Type} [Field K] [LinearOrder K] [IsStrictOrderedRing K] {arith : Arithmetic K}
  {s : GcodeState K} {cmd : Command} {span : ByteSpan}

/-- A command other than an arc makes no other move than the one to where it ends. -/
theorem ends_of_mem (hsqrt : SqrtLaws arith) (hkind : ∀ clockwise, kindOf cmd.name ≠ .arc clockwise)
    {m : PlannedMove K} (hm : m ∈ (s.applyCommand arith cmd span).moves) :
    m.start = s.lastPosition ∧ m.stop = (s.applyCommand arith cmd span).2.lastPosition := by
  have hleg := List.mem_map_of_mem (f := ends) hm
  rw [(@applyCommand_oneLeg K _ _ arith s span _ hsqrt cmd hkind).ends] at hleg
  obtain hone := List.mem_singleton.mp (List.mem_of_mem_filter hleg)
  exact ⟨congrArg Prod.fst hone, congrArg Prod.snd hone⟩

/-- A command that is not a motion does not move. -/
theorem still (hcmd : ¬ Wanders cmd) (hlinear : kindOf cmd.name ≠ .linear)
    (hkind : ∀ clockwise, kindOf cmd.name ≠ .arc clockwise) :
    (s.applyCommand arith cmd span).moves = [] ∧
      (s.applyCommand arith cmd span).2.lastPosition = s.lastPosition := by
  have hthen : ∀ {α : Type} (x : Except (StateError K) α)
      (next : α → GcodeState K → Applied K (ApplyOutcome K)),
      (∀ a, (next a s).moves = [] ∧ (next a s).2.lastPosition = s.lastPosition) →
        (andThen (x, s) next).moves = [] ∧
          (andThen (x, s) next).2.lastPosition = s.lastPosition := by
    intro α x next h
    cases x with
    | error e => exact ⟨rfl, rfl⟩
    | ok a => exact h a
  unfold applyCommand
  cases h : kindOf cmd.name with
  | linear => exact absurd h hlinear
  | arc clockwise => exact absurd h (hkind clockwise)
  | setOffset => exact absurd (.inl h) hcmd
  | restoreState => exact absurd (.inr h) hcmd
  | home => exact ⟨rfl, cmdG28_last s cmd⟩
  | position => exact hthen _ _ fun words => ⟨rfl, (rebaseAll_same s words).2⟩
  | acceleration => exact hthen _ _ fun _ => ⟨rfl, rfl⟩
  | speedFactor => exact hthen _ _ fun _ => ⟨rfl, rfl⟩
  | extrudeFactor => exact hthen _ _ fun _ => ⟨rfl, rfl⟩
  | saveState => exact hthen _ _ fun _ => ⟨rfl, rfl⟩
  | _ => exact ⟨rfl, rfl⟩

end Moves

section Exact

variable {s : GcodeState ℝ} {cmd : Command} {span : ByteSpan}

theorem sqrtLaws_reals : SqrtLaws reals where
  zero := Real.sqrt_zero
  nonneg := Real.sqrt_nonneg
  eq_zero _ hx h := (Real.sqrt_eq_zero hx).mp h

theorem isWhitespace_of_isNumeral {c : Char} (h : Decimal.isNumeral c = true) :
    Text.isWhitespace c = false := by
  have hcode : 43 ≤ c.toNat ∧ c.toNat ≤ 122 := by
    simp only [Decimal.isNumeral, Bool.or_eq_true, beq_iff_eq, Text.isAlpha_eq, Text.isUpper_eq,
      Text.isLower_eq, Bool.and_eq_true, decide_eq_true_eq] at h
    rcases h with (((hdigit | hupper | hlower) | rfl) | rfl) | rfl
    · simp only [Char.isDigit, Bool.and_eq_true, decide_eq_true_eq] at hdigit
      have hlow : 48 ≤ c.toNat := hdigit.1
      have hhigh : c.toNat ≤ 57 := hdigit.2
      omega
    · have hlow : 65 ≤ c.toNat := hupper.1
      have hhigh : c.toNat ≤ 90 := hupper.2
      omega
    · have hlow : 97 ≤ c.toNat := hlower.1
      have hhigh : c.toNat ≤ 122 := hlower.2
      omega
    · decide
    · decide
    · decide
  simp only [Text.isWhitespace, Bool.or_eq_false_iff, Bool.and_eq_false_iff,
    decide_eq_false_iff_not, beq_eq_false_iff_ne]
  omega

/-- A text that is read as a number has no blanks around it. -/
theorem trim_of_parseF64 {text : Text} {v : F64} (h : Decimal.parseF64 text = some v) :
    Text.trim text = text := by
  have hsolid : ∀ c ∈ text, Text.isWhitespace c = false := by
    intro c hc
    exact isWhitespace_of_isNumeral (Decimal.isNumeral_of_parseF64 h c hc)
  exact Text.trim_eq_self (fun c hc => hsolid c (List.mem_of_mem_head? hc))
    fun c hc => hsolid c (List.mem_of_getLast? hc)

/-- Over the reals a word is read as the number that it is. -/
theorem getFloat_parsed {key raw : Text} {v : F64} (hget : cmd.get key = some raw)
    (h : Decimal.parseF64 raw = some v) {value : Option ℝ}
    (hread : getFloat reals cmd key = .ok value) : ∃ q : ℚ, v = .fin q ∧ value = some (q : ℝ) := by
  have hexact : reals.read (Text.trim raw) = readExact raw := by
    rw [trim_of_parseF64 h]
    rfl
  simp only [getFloat, hget, hexact, readExact, h] at hread
  cases v with
  | fin q => exact ⟨q, rfl, (Except.ok.inj hread).symm⟩
  | inf negative => cases hread
  | nan => cases hread

/-- What is read of an arc. -/
theorem arcRequest_reads {clockwise : Bool} {req : ArcRequest ℝ}
    (h : s.arcRequest reals cmd clockwise = .ok req) :
    s.absoluteCoord = true ∧
      getFloatOr reals cmd (lit "X") s.gcodePosition.x = .ok req.target.x ∧
        getFloatOr reals cmd (lit "Y") s.gcodePosition.y = .ok req.target.y ∧
          getFloat reals cmd (lit "E") = .ok req.eParam := by
  unfold arcRequest at h
  obtain ⟨_, hcoord, h⟩ := bind_eq_ok.mp h
  obtain ⟨_, hx, h⟩ := bind_eq_ok.mp h
  obtain ⟨_, hy, h⟩ := bind_eq_ok.mp h
  obtain ⟨_, -, h⟩ := bind_eq_ok.mp h
  obtain ⟨_, -, h⟩ := bind_eq_ok.mp h
  obtain ⟨_, -, h⟩ := bind_eq_ok.mp h
  obtain ⟨_, -, h⟩ := bind_eq_ok.mp h
  obtain ⟨_, -, h⟩ := bind_eq_ok.mp h
  obtain ⟨_, he, h⟩ := bind_eq_ok.mp h
  obtain ⟨_, -, h⟩ := bind_eq_ok.mp h
  cases h
  exact ⟨Checks.ensure_eq_ok.mp hcoord, hx, hy, he⟩

/-- An arc goes along its chords, or it fails and stays. -/
theorem applyCommand_arc {clockwise : Bool} (hkind : kindOf cmd.name = .arc clockwise) :
    (∃ req segments, s.arcRequest reals cmd clockwise = .ok req ∧
        planArc reals req = .ok segments ∧
          (s.applyCommand reals cmd span).moves =
            (applyChords reals span segments.length 1 segments s).1 ∧
          (s.applyCommand reals cmd span).2 =
            (applyChords reals span segments.length 1 segments s).2) ∨
      (∀ outcome, (s.applyCommand reals cmd span).1 ≠ .ok outcome) := by
  have happly : s.applyCommand reals cmd span = s.cmdArc reals cmd span clockwise := by
    unfold applyCommand
    rw [hkind]
  rw [happly, cmdArc]
  cases hsegments : s.arcSegments reals cmd clockwise with
  | error e =>
    right
    intro outcome h
    cases h
  | ok segments =>
    left
    unfold arcSegments at hsegments
    obtain ⟨req, hreq, hplan⟩ := bind_eq_ok.mp hsegments
    exact ⟨req, segments, hreq, Checks.mapError_eq_ok.mp hplan, rfl, rfl⟩

theorem moves_of_failed {K : Type} {x : Applied K (ApplyOutcome K)}
    (h : ∀ outcome, x.1 ≠ .ok outcome) : x.moves = [] := by
  unfold Applied.moves
  split
  · rename_i outcome hok
    exact absurd hok (h outcome)
  · rfl

theorem legs_dry {p : Axes ℝ} {points : List (Axes ℝ)} {e : ℝ} (hp : p.e = e)
    (h : ∀ q ∈ points, q.e = e) : ∀ leg ∈ legs p points, leg.2.e = leg.1.e := by
  induction points generalizing p with
  | nil =>
    intro leg hleg
    cases hleg
  | cons q points ih =>
    rw [List.forall_mem_cons] at h
    simp only [legs, List.forall_mem_cons]
    exact ⟨h.1.trans hp.symm, ih h.1 h.2⟩

/-- An arc without a word for the filament does not move it. -/
theorem arc_dry {clockwise : Bool} (hkind : kindOf cmd.name = .arc clockwise)
    (he : cmd.get (lit "E") = none) {m : PlannedMove ℝ}
    (hm : m ∈ (s.applyCommand reals cmd span).moves) : m.stop.e = m.start.e := by
  rcases @applyCommand_arc s cmd span clockwise hkind with
    ⟨req, segments, hreq, hplan, hmoves, -⟩ | hfailed
  · obtain ⟨-, -, -, hread⟩ := arcRequest_reads hreq
    rw [getFloat_absent he] at hread
    have hsegments := e_of_planArc (Except.ok.inj hread).symm hplan
    rw [hmoves] at hm
    have hleg := List.mem_map_of_mem (f := ends) hm
    rw [(@applyChords_onRoute ℝ _ _ reals s span segments.length 1 segments).ends] at hleg
    exact legs_dry rfl (chordEnds_dry hsegments) _ (List.mem_of_mem_filter hleg)
  · rw [moves_of_failed hfailed] at hm
    cases hm

/-- Without a word for it a command does not move the filament. -/
theorem dry (hcmd : ¬ Wanders cmd) (he : cmd.get (lit "E") = none) {m : PlannedMove ℝ}
    (hm : m ∈ (s.applyCommand reals cmd span).moves) : m.stop.e = m.start.e := by
  by_cases hlinear : kindOf cmd.name = .linear
  · obtain ⟨hstart, hstop⟩ := ends_of_mem sqrtLaws_reals (by simp [hlinear]) hm
    rw [hstart, hstop, linear_dry hlinear he]
  · by_cases harc : ∃ clockwise, kindOf cmd.name = .arc clockwise
    · obtain ⟨clockwise, hkind⟩ := harc
      exact arc_dry hkind he hm
    · rw [(still hcmd hlinear (not_exists.mp harc)).1] at hm
      cases hm

/-- Without words of its own an arc moves sideways if it moves at all. -/
theorem arc_wordless {clockwise : Bool} (hkind : kindOf cmd.name = .arc clockwise)
    (hx : cmd.get (lit "X") = none) (hy : cmd.get (lit "Y") = none)
    (hz : s.absoluteCoord = true → cmd.get (lit "Z") = none) (he : cmd.get (lit "E") = none)
    (hharmless : ∀ m ∈ (s.applyCommand reals cmd span).moves, Harmless (ends m)) :
    (s.applyCommand reals cmd span).moves = [] := by
  rcases @applyCommand_arc s cmd span clockwise hkind with
    ⟨req, segments, hreq, hplan, hmoves, -⟩ | hfailed
  · obtain ⟨hcoord, -, -, hread⟩ := arcRequest_reads hreq
    rw [getFloat_absent he] at hread
    obtain ⟨-, hcurrent, htarget⟩ := arcRequest_circle hx hy (hz hcoord) hreq
    rw [hmoves] at hharmless ⊢
    exact applyChords_circle hcoord hcurrent htarget (Except.ok.inj hread).symm hplan _ _ hharmless
  · exact moves_of_failed hfailed

/-- A motion in absolute coordinates leads to where its words say. -/
theorem reached {x y : Text} {p q : F64} (hx : cmd.get (lit "X") = some x)
    (hy : cmd.get (lit "Y") = some y) (hp : Decimal.parseF64 x = some p)
    (hq : Decimal.parseF64 y = some q) (hcoord : s.absoluteCoord = true)
    (hkind : kindOf cmd.name = .linear ∨ ∃ clockwise, kindOf cmd.name = .arc clockwise)
    {outcome : ApplyOutcome ℝ} (hok : (s.applyCommand reals cmd span).1 = .ok outcome) :
    ∃ a b : ℚ, p = .fin a ∧ q = .fin b ∧
      (s.applyCommand reals cmd span).2.gcodePosition.x = a ∧
        (s.applyCommand reals cmd span).2.gcodePosition.y = b := by
  rcases hkind with hlinear | ⟨clockwise, hkind⟩
  · rcases @linear_last ℝ _ _ reals s cmd span hlinear with ⟨words, hwords, hafter⟩ | ⟨hfailed, -⟩
    · obtain ⟨hreadX, hreadY, -⟩ := g1Words_reads hwords
      obtain ⟨a, hpa, hwordX⟩ := getFloat_parsed hx hp hreadX
      obtain ⟨b, hqb, hwordY⟩ := getFloat_parsed hy hq hreadY
      refine ⟨a, b, hpa, hqb, ?_⟩
      obtain ⟨hlast, hbase⟩ := @last_moveTo ℝ _ _ s words.1 words.2
      rw [hafter, gcodePosition, hlast, hbase, hwordX, hwordY, hcoord]
      exact ⟨add_sub_cancel_right _ _, add_sub_cancel_right _ _⟩
    · exact absurd hok (hfailed outcome)
  · rcases @applyCommand_arc s cmd span clockwise hkind with
      ⟨req, segments, hreq, hplan, -, hafter⟩ | hfailed
    · obtain ⟨-, hreadX, hreadY, -⟩ := arcRequest_reads hreq
      obtain ⟨vx, hgetX, hdefaultX⟩ := bind_eq_ok.mp hreadX
      obtain ⟨vy, hgetY, hdefaultY⟩ := bind_eq_ok.mp hreadY
      obtain ⟨a, hpa, rfl⟩ := getFloat_parsed hx hp hgetX
      obtain ⟨b, hqb, rfl⟩ := getFloat_parsed hy hq hgetY
      obtain ⟨hlastX, hlastY⟩ :=
        @applyChords_last s span hcoord segments.length 1 segments _ (last_planArc hplan)
      rw [hafter]
      exact ⟨a, b, hpa, hqb, hlastX.trans (Except.ok.inj hdefaultX).symm,
        hlastY.trans (Except.ok.inj hdefaultY).symm⟩
    · exact absurd hok (hfailed outcome)

end Exact

end GcodeState

end DeadReckoning.Gcode
