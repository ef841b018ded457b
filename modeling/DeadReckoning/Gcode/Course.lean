import DeadReckoning.Gcode.Waypoints
import Mathlib.Tactic.FieldSimp
import Mathlib.Tactic.LinearCombination

/-! The course of an arc: the points its chords end at, and that they lead where one linear move
with the same words leads, in space and with the filament. -/
namespace DeadReckoning.Gcode

open Checks (bind_eq_ok ensure_eq_ok)

/-- The floor and the cast to a machine integer are those of the numbers. -/
structure ExactFloor {K : Type} [Ring K] [LinearOrder K] [FloorRing K] (arith : Arithmetic K) :
    Prop where
  floor : ∀ v, arith.floor v = (⌊v⌋ : K)
  toNat : ∀ v, arith.toNat v = ⌊v⌋₊

@[simp] theorem helical_place {K : Type} (plane : ArcPlane) (a b h : K) :
    plane.helical (plane.place a b h) = h := by
  cases plane <;> rfl

section Count

variable {K : Type} [Field K] [LinearOrder K] [IsStrictOrderedRing K] [FloorRing K]
  {arith : Arithmetic K}

theorem larger_floor_one (hexact : ExactFloor arith) (v : K) :
    ∃ n : ℕ, 1 ≤ n ∧ larger (arith.floor v) 1 = n := by
  unfold larger
  split
  · exact ⟨1, le_rfl, by simp⟩
  · rename_i hnot
    rw [hexact.floor] at hnot ⊢
    have hone : (1 : ℤ) ≤ ⌊v⌋ := by exact_mod_cast not_lt.mp hnot
    have hnat : ((⌊v⌋.toNat : ℕ) : ℤ) = ⌊v⌋ := Int.toNat_of_nonneg (by omega)
    exact ⟨⌊v⌋.toNat, by omega, by exact_mod_cast hnat.symm⟩

/-- The number of chords is a whole one, and not zero. -/
theorem segmentsOf_natCast (hexact : ExactFloor arith) (req : ArcRequest K) :
    1 ≤ arith.toNat (segmentsOf arith req) ∧
      ((arith.toNat (segmentsOf arith req) : ℕ) : K) = segmentsOf arith req := by
  obtain ⟨n, hn, heq⟩ : ∃ n : ℕ, 1 ≤ n ∧ segmentsOf arith req = n := larger_floor_one hexact _
  rw [heq, hexact.toNat, Nat.floor_natCast]
  exact ⟨hn, rfl⟩

/-- What a planned arc consists of. -/
theorem planArc_eq_ok (hexact : ExactFloor arith) {req : ArcRequest K}
    {segments : List (ArcSegment K)} (h : planArc arith req = .ok segments) :
    ∃ n : ℕ, 1 ≤ n ∧ n ≤ maxArcSegments ∧ segmentsOf arith req = n ∧
      segments = match req.eParam with
        | none => chordsFrom req (chordEnd arith req n) 0 n n 0
        | some e =>
            chordsFrom req (chordEnd arith req n)
              ((e - (if req.absoluteExtrude then req.current.e else 0)) / n) n n
              (if req.absoluteExtrude then req.current.e else 0) := by
  obtain ⟨hone, hcount⟩ := segmentsOf_natCast hexact req
  unfold planArc at h
  obtain ⟨_, -, h⟩ := bind_eq_ok.mp h
  obtain ⟨_, -, h⟩ := bind_eq_ok.mp h
  obtain ⟨_, hmax, h⟩ := bind_eq_ok.mp h
  have hle : segmentsOf arith req ≤ ((maxArcSegments : ℕ) : K) := by
    simpa using ensure_eq_ok.mp hmax
  refine ⟨arith.toNat (segmentsOf arith req), hone, ?_, hcount.symm, ?_⟩
  · rw [← hcount] at hle
    exact_mod_cast hle
  · rw [hcount]
    cases heparam : req.eParam with
    | none =>
      rw [heparam] at h
      cases h
      rfl
    | some e =>
      rw [heparam] at h
      cases h
      rfl

end Count

namespace GcodeState

section Words

variable {K : Type} {arith : Arithmetic K} {s : GcodeState K} {cmd other : Command}

/-- The other command has the words of this one. -/
def SameWords (cmd other : Command) : Prop :=
  ∀ key ∈ [lit "X", lit "Y", lit "Z", lit "E", lit "F"], other.get key = cmd.get key

theorem getFloat_congr {key : Text} (h : other.get key = cmd.get key) {value : Option K}
    (hread : getFloat arith cmd key = .ok value) : getFloat arith other key = .ok value := by
  unfold getFloat at hread ⊢
  rw [h]
  cases hget : cmd.get key with
  | none =>
    rw [hget] at hread
    exact hread
  | some raw =>
    rw [hget] at hread
    dsimp only at hread ⊢
    cases hraw : arith.read (Text.trim raw) with
    | invalid => rw [hraw] at hread; cases hread
    | nonFinite => rw [hraw] at hread; cases hread
    | finite v => rw [hraw] at hread; exact hread

theorem getFloatOr_eq_ok {key : Text} {default v : K}
    (h : getFloatOr arith cmd key default = .ok v) :
    ∃ value, getFloat arith cmd key = .ok value ∧ v = value.getD default := by
  obtain ⟨value, hvalue, h⟩ := bind_eq_ok.mp h
  cases h
  exact ⟨value, hvalue, rfl⟩

variable [Field K] [LinearOrder K]

theorem readFeed_congr (h : other.get (lit "F") = cmd.get (lit "F")) {feed : Option K}
    (hread : readFeed arith cmd = .ok feed) : readFeed arith other = .ok feed := by
  unfold readFeed at hread ⊢
  obtain ⟨value, hvalue, hread⟩ := bind_eq_ok.mp hread
  exact bind_eq_ok.mpr ⟨value, getFloat_congr h hvalue, hread⟩

/-- The words of a linear move are read alike from both. -/
theorem g1Words_congr (h : SameWords cmd other) {words : Axes (Option K) × Option K}
    (hread : g1Words arith cmd = .ok words) : g1Words arith other = .ok words := by
  unfold g1Words at hread ⊢
  obtain ⟨x, hx, hread⟩ := bind_eq_ok.mp hread
  obtain ⟨y, hy, hread⟩ := bind_eq_ok.mp hread
  obtain ⟨z, hz, hread⟩ := bind_eq_ok.mp hread
  obtain ⟨e, he, hread⟩ := bind_eq_ok.mp hread
  obtain ⟨f, hf, hread⟩ := bind_eq_ok.mp hread
  exact bind_eq_ok.mpr ⟨x, getFloat_congr (h _ (by simp)) hx, bind_eq_ok.mpr
    ⟨y, getFloat_congr (h _ (by simp)) hy, bind_eq_ok.mpr
    ⟨z, getFloat_congr (h _ (by simp)) hz, bind_eq_ok.mpr
    ⟨e, getFloat_congr (h _ (by simp)) he, bind_eq_ok.mpr
    ⟨f, readFeed_congr (h _ (by simp)) hf, hread⟩⟩⟩⟩⟩

/-- What is read of an arc, in the words of a linear move. -/
structure ReadAs (s : GcodeState K) (words : Axes (Option K) × Option K) (req : ArcRequest K) :
    Prop where
  coord : s.absoluteCoord = true
  current : req.current = s.gcodePosition
  target : req.target = ⟨words.1.x.getD s.gcodePosition.x, words.1.y.getD s.gcodePosition.y,
    words.1.z.getD s.gcodePosition.z⟩
  plane : req.plane = s.arcPlane
  extrude : req.absoluteExtrude = s.absoluteExtrude
  filament : req.eParam = words.1.e

theorem arcRequest_eq_ok {clockwise : Bool} {req : ArcRequest K}
    (h : s.arcRequest arith cmd clockwise = .ok req) :
    ∃ words, g1Words arith cmd = .ok words ∧ ReadAs s words req := by
  unfold arcRequest at h
  obtain ⟨_, hcoord, h⟩ := bind_eq_ok.mp h
  obtain ⟨x, hx, h⟩ := bind_eq_ok.mp h
  obtain ⟨y, hy, h⟩ := bind_eq_ok.mp h
  obtain ⟨z, hz, h⟩ := bind_eq_ok.mp h
  obtain ⟨_, -, h⟩ := bind_eq_ok.mp h
  obtain ⟨_, -, h⟩ := bind_eq_ok.mp h
  obtain ⟨_, -, h⟩ := bind_eq_ok.mp h
  obtain ⟨_, -, h⟩ := bind_eq_ok.mp h
  obtain ⟨e, he, h⟩ := bind_eq_ok.mp h
  obtain ⟨f, hf, h⟩ := bind_eq_ok.mp h
  obtain ⟨wx, hwx, rfl⟩ := getFloatOr_eq_ok hx
  obtain ⟨wy, hwy, rfl⟩ := getFloatOr_eq_ok hy
  obtain ⟨wz, hwz, rfl⟩ := getFloatOr_eq_ok hz
  cases h
  refine ⟨(⟨wx, wy, wz, e⟩, f), ?_, ⟨ensure_eq_ok.mp hcoord, rfl, rfl, rfl, rfl, rfl⟩⟩
  exact bind_eq_ok.mpr ⟨wx, hwx, bind_eq_ok.mpr ⟨wy, hwy, bind_eq_ok.mpr ⟨wz, hwz,
    bind_eq_ok.mpr ⟨e, he, bind_eq_ok.mpr ⟨f, hf, rfl⟩⟩⟩⟩⟩

end Words

section Points

variable {K : Type} [Field K]

/-- Where a move with these words leads in absolute coordinates. -/
def moved (s : GcodeState K) (values : Axes (Option K)) : Axes K where
  x := (values.x.map (· + s.basePosition.x)).getD s.lastPosition.x
  y := (values.y.map (· + s.basePosition.y)).getD s.lastPosition.y
  z := (values.z.map (· + s.basePosition.z)).getD s.lastPosition.z
  e := (values.e.map fun e =>
    if s.absoluteExtrude then e * s.extrudeFactor + s.basePosition.e
    else s.lastPosition.e + e * s.extrudeFactor).getD s.lastPosition.e

/-- Where an arc is after some of its chords. -/
def coursePoint (s : GcodeState K) (req : ArcRequest K) (endOf : ℕ → Point K) (ePerMove : K)
    (count k : ℕ) : Axes K :=
  let target :=
    if k = 0 then s.gcodePosition.point else if k = count then req.target else endOf k
  { x := target.x + s.basePosition.x
    y := target.y + s.basePosition.y
    z := target.z + s.basePosition.z
    e := s.lastPosition.e + k * (ePerMove * s.extrudeFactor) }

/-- The filament from which the next chord counts: all that has gone in absolute extrusion, none in
relative extrusion. -/
def CarriedBase (s : GcodeState K) (ePerMove eBase : K) (k : ℕ) : Prop :=
  ePerMove ≠ 0 → eBase = if s.absoluteExtrude then s.gcodePosition.e + k * ePerMove else 0

/-- Nothing has changed but the position, which is this one, and the speed. -/
structure OnCourse (s : GcodeState K) (position : Axes K) (t : GcodeState K) : Prop where
  last : t.lastPosition = position
  base : t.basePosition = s.basePosition
  factor : t.extrudeFactor = s.extrudeFactor
  coord : t.absoluteCoord = true
  extrude : t.absoluteExtrude = s.absoluteExtrude

variable {s t : GcodeState K} {req : ArcRequest K} {endOf : ℕ → Point K} {ePerMove eBase : K}
  {count k : ℕ}

/-- The position of a course is read in the frame in which it began. -/
theorem OnCourse.gcodePosition {p : Axes K} (h : OnCourse s p t) :
    t.gcodePosition = { s with lastPosition := p }.gcodePosition := by
  simp only [GcodeState.gcodePosition, h.last, h.base, h.factor]

theorem coursePoint_zero : coursePoint s req endOf ePerMove count 0 = s.lastPosition := by
  simp [coursePoint, gcodePosition, Axes.point]

theorem coursePoint_count (h : count ≠ 0) :
    coursePoint s req endOf ePerMove count count =
      { x := req.target.x + s.basePosition.x
        y := req.target.y + s.basePosition.y
        z := req.target.z + s.basePosition.z
        e := s.lastPosition.e + count * (ePerMove * s.extrudeFactor) } := by
  simp [coursePoint, h]

theorem CarriedBase.next (h : CarriedBase s ePerMove eBase k) :
    CarriedBase s ePerMove (if s.absoluteExtrude then eBase + ePerMove else eBase) (k + 1) := by
  intro hne
  rw [h hne]
  cases s.absoluteExtrude with
  | false => rfl
  | true =>
    simp only [if_true]
    push_cast
    ring

/-- The filament of the course goes on by the same for every chord, whichever way it counts. -/
theorem filament_next (hfactor : s.extrudeFactor ≠ 0) (hbase : CarriedBase s ePerMove eBase k)
    (hne : ePerMove ≠ 0) :
    (if s.absoluteExtrude then (eBase + ePerMove) * s.extrudeFactor + s.basePosition.e
      else s.lastPosition.e + k * (ePerMove * s.extrudeFactor) +
        (eBase + ePerMove) * s.extrudeFactor) =
      s.lastPosition.e + ((k + 1 : ℕ) : K) * (ePerMove * s.extrudeFactor) := by
  rw [hbase hne]
  cases s.absoluteExtrude with
  | false =>
    simp only [Bool.false_eq_true, if_false]
    push_cast
    ring
  | true =>
    simp only [if_true, gcodePosition]
    push_cast
    field_simp
    ring

/-- What an arc splits its filament into leads to where the word says. -/
theorem filament_split [CharZero K] {n : ℕ} (hn : n ≠ 0) (hfactor : s.extrudeFactor ≠ 0) (e : K) :
    s.lastPosition.e + n * ((e - (if s.absoluteExtrude then s.gcodePosition.e else 0)) / n *
        s.extrudeFactor) =
      if s.absoluteExtrude then e * s.extrudeFactor + s.basePosition.e
      else s.lastPosition.e + e * s.extrudeFactor := by
  have hcast : (n : K) ≠ 0 := Nat.cast_ne_zero.mpr hn
  cases s.absoluteExtrude with
  | false =>
    simp only [Bool.false_eq_true, if_false, sub_zero]
    field_simp
  | true =>
    simp only [if_true, gcodePosition]
    field_simp
    ring

/-- The last point of the course is where one linear move with the same words leads. -/
theorem coursePoint_eq_moved [CharZero K] {req : ArcRequest K} {words : Axes (Option K) × Option K}
    (hread : ReadAs s words req) (hfactor : s.extrudeFactor ≠ 0) (endOf : ℕ → Point K) {n : ℕ}
    (hn : n ≠ 0) {ePerMove : K}
    (he : ePerMove = match words.1.e with
      | none => 0
      | some e => (e - (if s.absoluteExtrude then s.gcodePosition.e else 0)) / n) :
    coursePoint s req endOf ePerMove n n = s.moved words.1 := by
  have hword (word : Option K) (last base : K) :
      word.getD (last - base) + base = (word.map (· + base)).getD last := by
    cases word with
    | none => exact sub_add_cancel _ _
    | some v => rfl
  have hfilament : s.lastPosition.e + n * (ePerMove * s.extrudeFactor) = (s.moved words.1).e := by
    rw [he, moved]
    cases words.1.e with
    | none => simp
    | some e => exact filament_split hn hfactor e
  rw [coursePoint_count hn, hfilament, hread.target]
  simp only [gcodePosition, hword]
  rfl

theorem onCourse_moveTo (hcoord : s.absoluteCoord = true) (values : Axes (Option K))
    (feed : Option K) : OnCourse s (s.moved values) (s.moveTo values feed) := by
  obtain ⟨coord, extrude⟩ := s
  obtain rfl : coord = true := hcoord
  obtain ⟨x, y, z, e⟩ := values
  cases extrude <;> cases x <;> cases y <;> cases z <;> cases e <;> cases feed <;>
    exact ⟨rfl, rfl, rfl, rfl, rfl⟩

/-- One more chord leads to the next point of the course. -/
theorem OnCourse.chord [DecidableEq K] (hfactor : s.extrudeFactor ≠ 0)
    (h : OnCourse s (coursePoint s req endOf ePerMove count k) t)
    (hbase : CarriedBase s ePerMove eBase k) {target : Point K}
    (htarget : target = if k + 1 = count then req.target else endOf (k + 1)) (feed : Option K) :
    OnCourse s (coursePoint s req endOf ePerMove count (k + 1))
      (t.moveTo ⟨some target.x, some target.y, some target.z,
        if ePerMove = 0 then none else some (eBase + ePerMove)⟩ feed) := by
  have hmove := onCourse_moveTo h.coord ⟨some target.x, some target.y, some target.z,
    if ePerMove = 0 then none else some (eBase + ePerMove)⟩ feed
  refine ⟨hmove.last.trans ?_, hmove.base.trans h.base, hmove.factor.trans h.factor, hmove.coord,
    hmove.extrude.trans h.extrude⟩
  have he : t.lastPosition.e = s.lastPosition.e + k * (ePerMove * s.extrudeFactor) := by
    rw [h.last]
    rfl
  simp only [moved, coursePoint, Nat.succ_ne_zero, if_false, ← htarget, h.base, h.factor, h.extrude,
    he, Option.map_some, Option.getD_some]
  by_cases hzero : ePerMove = 0
  · simp [hzero]
  · simp only [if_neg hzero, Option.map_some, Option.getD_some, filament_next hfactor hbase hzero]

end Points

section Run

variable {K : Type} [Field K] [LinearOrder K] {arith : Arithmetic K} {s t : GcodeState K}
  {req : ArcRequest K} {endOf : ℕ → Point K} {ePerMove eBase : K} {count remaining : ℕ}
  {span : ByteSpan}

/-- The chords that are left lead over the points of the course that are left. -/
theorem course_chordsFrom (hfactor : s.extrudeFactor ≠ 0)
    (hextrude : req.absoluteExtrude = s.absoluteExtrude) (total index : ℕ)
    (hle : remaining ≤ count)
    (h : OnCourse s (coursePoint s req endOf ePerMove count (count - remaining)) t)
    (hbase : CarriedBase s ePerMove eBase (count - remaining)) :
    let segments := chordsFrom req endOf ePerMove count remaining eBase
    chordEnds segments t = (List.range remaining).map (fun j =>
        coursePoint s req endOf ePerMove count (count - remaining + 1 + j)) ∧
      OnCourse s (coursePoint s req endOf ePerMove count count)
        (applyChords arith span total index segments t).2 := by
  induction remaining generalizing t index eBase with
  | zero =>
    rw [Nat.sub_zero] at h
    exact ⟨rfl, h⟩
  | succ remaining ih =>
    have hindex : count - (remaining + 1) + 1 = count - remaining := by omega
    have htarget : (if remaining = 0 then req.target else endOf (count - remaining)) =
        if count - (remaining + 1) + 1 = count then req.target
        else endOf (count - (remaining + 1) + 1) := by
      rw [hindex]
      exact if_congr (by omega) rfl rfl
    have hnext := h.chord hfactor hbase htarget req.fParam
    have hcarried := hbase.next
    rw [hindex] at hnext hcarried
    have hshift : ∀ j, count - remaining + 1 + j = count - (remaining + 1) + 1 + (j + 1) := by
      intro j
      omega
    have hfirst : count - remaining = count - (remaining + 1) + 1 + 0 := by omega
    by_cases hzero : ePerMove = 0
    · have hstill : CarriedBase s ePerMove eBase (count - remaining) := fun hne => absurd hzero hne
      rw [if_pos hzero] at hnext
      obtain ⟨hends, hrun⟩ := ih (index + 1) (by omega) hnext hstill
      simp only [chordsFrom, if_pos hzero, chordEnds, applyChords, List.range_succ_eq_map,
        List.map_cons, List.map_map, Function.comp_def, hnext.last, hends, hshift]
      exact ⟨congrArg₂ _ (congrArg _ hfirst) rfl, hrun⟩
    · rw [if_neg hzero] at hnext
      rw [← hextrude] at hcarried
      obtain ⟨hends, hrun⟩ := ih (index + 1) (by omega) hnext hcarried
      simp only [chordsFrom, if_neg hzero, chordEnds, applyChords, List.range_succ_eq_map,
        List.map_cons, List.map_map, Function.comp_def, hnext.last, hends, hshift]
      exact ⟨congrArg₂ _ (congrArg _ hfirst) rfl, hrun⟩

/-- A leg that is dropped is shorter than the kinematics plan, and without filament. -/
theorem still_of_dropped [IsStrictOrderedRing K] {p q : Axes K}
    (h : kinematicDistance arith p q = 0) : travel arith (p, q) < minKinematicMove ∧ q.e = p.e := by
  have hpos : (0 : K) < minKinematicMove := by
    unfold minKinematicMove
    positivity
  unfold kinematicDistance at h
  dsimp only at h
  split at h
  · rename_i hshort
    refine ⟨hshort, ?_⟩
    unfold magnitude at h
    split at h <;> linarith
  · rename_i hlong
    rw [h] at hlong
    exact absurd hpos hlong

/-- The filament that has gone over the legs of a way that are kept; a leg that is dropped has
none. -/
theorem sum_kept_legs [IsStrictOrderedRing K] (p : Axes K) (points : List (Axes K)) :
    ((kept arith (legs p points)).map fun leg => leg.2.e - leg.1.e).sum =
      (points.getLastD p).e - p.e := by
  induction points generalizing p with
  | nil => simp [legs, kept]
  | cons q points ih =>
    have hrest := ih q
    rw [List.getLastD_cons]
    by_cases hkept : kinematicDistance arith p q = 0
    · have hstill : q.e = p.e := (still_of_dropped hkept).2
      simp only [legs, kept, List.filter_cons, hkept, ne_eq, not_true_eq_false, decide_false,
        Bool.false_eq_true, if_false] at hrest ⊢
      rw [hrest, hstill]
    · simp only [legs, kept, List.filter_cons, hkept, ne_eq, not_false_eq_true, decide_true,
        if_true, List.map_cons, List.sum_cons] at hrest ⊢
      rw [hrest]
      ring

/-- How far the filament goes over some moves. -/
def filament (moves : List (PlannedMove K)) : K := (moves.map fun m => m.stop.e - m.start.e).sum

/-- The filament of a line goes as far as its position does. -/
theorem OnRoute.filament_eq [IsStrictOrderedRing K] {p q : Axes K} {points : List (Axes K)} {moves : List (PlannedMove K)}
    (h : OnRoute arith p points moves q) : filament moves = q.e - p.e := by
  have hends : filament moves = ((moves.map GcodeState.ends).map fun leg => leg.2.e - leg.1.e).sum := by
    rw [filament, List.map_map]
    rfl
  rw [hends, h.ends, sum_kept_legs, h.last]

/-- Along the plane's third axis the points of the course are evenly spaced. -/
theorem helical_coursePoint [CharZero K] {req : ArcRequest K} (hplane : req.plane = s.arcPlane)
    (hcurrent : req.current = s.gcodePosition) {n : ℕ} (hn : n ≠ 0) {k : ℕ} (ePerMove : K) :
    s.arcPlane.helical
        (coursePoint s req (chordEnd arith req (n : K)) ePerMove n k).point =
      s.arcPlane.helical s.lastPosition.point + k * (linearTravel req / n) := by
  have hcast : (n : K) ≠ 0 := Nat.cast_ne_zero.mpr hn
  have hadd (p : Point K) (e : K) :
      s.arcPlane.helical (Axes.point ⟨p.x + s.basePosition.x, p.y + s.basePosition.y,
        p.z + s.basePosition.z, e⟩) = s.arcPlane.helical p +
          s.arcPlane.helical s.basePosition.point := by
    cases s.arcPlane <;> rfl
  have hlast : s.arcPlane.helical s.lastPosition.point =
      s.arcPlane.helical s.gcodePosition.point + s.arcPlane.helical s.basePosition.point := by
    cases s.arcPlane <;> exact (sub_add_cancel _ _).symm
  rw [hlast, coursePoint, hadd]
  split
  · rename_i hzero
    rw [hzero]
    simp
  · split
    · rename_i _ hcount
      rw [hcount, mul_div_cancel₀ _ hcast, linearTravel, hplane, hcurrent]
      ring
    · rw [chordEnd, ← hplane, helical_place, hcurrent]
      ring

theorem length_chordsFrom (endOf : ℕ → Point K) (ePerMove eBase : K)
    (count remaining : ℕ) :
    (chordsFrom req endOf ePerMove count remaining eBase).length = remaining := by
  induction remaining generalizing eBase with
  | zero => rfl
  | succ remaining ih =>
    rw [chordsFrom]
    dsimp only
    split <;> rw [List.length_cons, ih]

/-- What an arc is that the interpreter accepts. -/
theorem arc_of_apply {cmd : Command} {clockwise : Bool} {line : Line} {comment : Option Text}
    (hbody : line.body = .command cmd comment) (hkind : kindOf cmd.name = .arc clockwise) {outcome : ApplyOutcome K} {after : GcodeState K}
    (happly : s.apply arith line = (.ok outcome, after)) :
    ∃ req segments words, planArc arith req = .ok segments ∧ g1Words arith cmd = .ok words ∧
      ReadAs s words req ∧
      outcome = ⟨(applyChords arith line.span segments.length 1 segments s).1,
        .arc segments.length⟩ ∧
      after = (applyChords arith line.span segments.length 1 segments s).2 := by
  have hcmd : s.cmdArc arith cmd line.span clockwise = (.ok outcome, after) := by
    unfold GcodeState.apply at happly
    rw [hbody] at happly
    dsimp only at happly
    unfold applyCommand at happly
    rwa [hkind] at happly
  unfold cmdArc at hcmd
  cases hsegments : s.arcSegments arith cmd clockwise with
  | error error =>
    rw [hsegments] at hcmd
    cases hcmd
  | ok segments =>
    rw [hsegments] at hcmd
    obtain ⟨req, hreq, hplan⟩ := bind_eq_ok.mp hsegments
    obtain ⟨words, hwords, hread⟩ := arcRequest_eq_ok hreq
    refine ⟨req, segments, words, Checks.mapError_eq_ok.mp hplan, hwords, hread, ?_⟩
    simpa only [Applied.andThen, Prod.mk.injEq, Except.ok.injEq, eq_comm] using hcmd

/-- What a linear move does whose words can be read. -/
theorem apply_linear {cmd : Command} {line : Line} {comment : Option Text}
    (hbody : line.body = .command cmd comment) (hkind : kindOf cmd.name = .linear) {words : Axes (Option K) × Option K}
    (hwords : g1Words arith cmd = .ok words) :
    s.apply arith line = (.ok ⟨(s.applyG1Values arith words.1 words.2 line.span none).1.toList,
      .move⟩, s.moveTo words.1 words.2) := by
  unfold GcodeState.apply
  rw [hbody]
  dsimp only
  unfold applyCommand
  rw [hkind]
  dsimp only
  unfold cmdG1
  rw [hwords]
  rfl

end Run

section Arc

variable {K : Type} [Field K] [LinearOrder K] [IsStrictOrderedRing K] [FloorRing K]
  {arith : Arithmetic K} {s : GcodeState K} {span : ByteSpan}

/-- What an arc with these words does: it goes over so many chords, by these points. -/
structure ArcDrawn (arith : Arithmetic K) (s : GcodeState K) (words : Axes (Option K))
    (outcome : ApplyOutcome K) (after : GcodeState K) (count : ℕ) (P : ℕ → Axes K) : Prop where
  disposition : outcome.disposition = .arc count
  positive : 1 ≤ count
  bounded : count ≤ maxArcSegments
  start : P 0 = s.lastPosition
  stop : P count = after.lastPosition
  moves : outcome.moves.map ends =
    ((List.range count).map fun k => (P k, P (k + 1))).filter fun leg =>
      kinematicDistance arith leg.1 leg.2 ≠ 0
  dropped : ∀ k < count, kinematicDistance arith (P k) (P (k + 1)) = 0 →
    travel arith (P k, P (k + 1)) < minKinematicMove ∧ (P (k + 1)).e = (P k).e
  helix : ∀ k < count,
    s.arcPlane.helical (P (k + 1)).point - s.arcPlane.helical (P k).point =
      (s.arcPlane.helical after.lastPosition.point - s.arcPlane.helical s.lastPosition.point) /
        count
  x : after.gcodePosition.x = words.x.getD s.gcodePosition.x
  y : after.gcodePosition.y = words.y.getD s.gcodePosition.y
  z : after.gcodePosition.z = words.z.getD s.gcodePosition.z

/-- A planned arc goes over its course. -/
theorem course_planArc (span : ByteSpan) (hexact : ExactFloor arith) (hfactor : s.extrudeFactor ≠ 0)
    {req : ArcRequest K} {words : Axes (Option K) × Option K} (hread : ReadAs s words req)
    {segments : List (ArcSegment K)} (hplan : planArc arith req = .ok segments) (total : ℕ) :
    ∃ (n : ℕ) (ePerMove : K), 1 ≤ n ∧ n ≤ maxArcSegments ∧ segments.length = n ∧
      chordEnds segments s = (List.range n).map (fun k =>
        coursePoint s req (chordEnd arith req n) ePerMove n (k + 1)) ∧
      coursePoint s req (chordEnd arith req n) ePerMove n n = s.moved words.1 ∧
      OnCourse s (s.moved words.1) (applyChords arith span total 1 segments s).2 := by
  obtain ⟨n, hone, hmax, hcount, hsegments⟩ := planArc_eq_ok hexact hplan
  have hn : n ≠ 0 := by omega
  rw [hread.filament, hread.extrude, hread.current] at hsegments
  obtain ⟨ePerMove, eBase, he, hbase, hchords⟩ : ∃ ePerMove eBase : K,
      (ePerMove = match words.1.e with
        | none => 0
        | some e => (e - (if s.absoluteExtrude then s.gcodePosition.e else 0)) / n) ∧
      CarriedBase s ePerMove eBase 0 ∧
      segments = chordsFrom req (chordEnd arith req n) ePerMove n n eBase := by
    cases hword : words.1.e with
    | none =>
      rw [hword] at hsegments
      exact ⟨0, 0, rfl, fun hne => absurd rfl hne, hsegments⟩
    | some e =>
      rw [hword] at hsegments
      exact ⟨_, _, rfl, fun _ => by simp, hsegments⟩
  have hlast := coursePoint_eq_moved hread hfactor (chordEnd arith req n) hn he
  have hstart : OnCourse s (coursePoint s req (chordEnd arith req n) ePerMove n (n - n)) s := by
    rw [Nat.sub_self, coursePoint_zero]
    exact ⟨rfl, rfl, rfl, hread.coord, rfl⟩
  rw [← Nat.sub_self n] at hbase
  obtain ⟨hends, hrun⟩ := @course_chordsFrom K _ _ arith s s req (chordEnd arith req n) ePerMove
    eBase n n span hfactor hread.extrude total 1 le_rfl hstart hbase
  refine ⟨n, ePerMove, hone, hmax, ?_, ?_, hlast, ?_⟩
  · rw [hchords, length_chordsFrom]
  · simp only [hchords, hends, Nat.sub_self, Nat.zero_add, Nat.add_comm 1]
  · rw [hchords, ← hlast]
    exact hrun

/-- What a planned arc does. -/
theorem arcDrawn_of_planArc (span : ByteSpan) (hexact : ExactFloor arith) (hfactor : s.extrudeFactor ≠ 0)
    {req : ArcRequest K} {words : Axes (Option K) × Option K} (hread : ReadAs s words req)
    {segments : List (ArcSegment K)} (hplan : planArc arith req = .ok segments) :
    let drawn := applyChords arith span segments.length 1 segments s
    OnCourse s (s.moved words.1) drawn.2 ∧
      filament drawn.1 = (s.moved words.1).e - s.lastPosition.e ∧
      ∃ count P, ArcDrawn arith s words.1 ⟨drawn.1, .arc segments.length⟩ drawn.2 count P := by
  obtain ⟨n, ePerMove, hone, hmax, hlength, hends, hlast, hrun⟩ :=
    course_planArc span hexact hfactor hread hplan segments.length
  have hroute := @applyChords_onRoute K _ _ arith s span segments.length 1 segments
  generalize applyChords arith span segments.length 1 segments s = drawn at hroute hrun ⊢
  have hn : n ≠ 0 := by omega
  have hhelix := fun k => @helical_coursePoint K _ _ arith s _ req hread.plane hread.current n
    hn k ePerMove
  have hword (word : Option K) (last base : K) :
      (word.map (· + base)).getD last - base = word.getD (last - base) := by
    cases word with
    | none => rfl
    | some v => exact add_sub_cancel_right _ _
  refine ⟨hrun, by rw [hroute.filament_eq, hrun.last], n,
    coursePoint s req (chordEnd arith req n) ePerMove n,
    { disposition := by rw [hlength]
      positive := hone
      bounded := hmax
      start := coursePoint_zero
      stop := hlast.trans hrun.last.symm
      moves := ?_
      dropped := fun k _ => still_of_dropped
      helix := ?_
      x := hrun.gcodePosition ▸ hword _ _ _
      y := hrun.gcodePosition ▸ hword _ _ _
      z := hrun.gcodePosition ▸ hword _ _ _ }⟩
  · have hlegs := hroute.ends
    rw [hends, ← coursePoint_zero, legs_range] at hlegs
    exact hlegs
  · intro k hk
    have hcast : (n : K) ≠ 0 := Nat.cast_ne_zero.mpr hn
    rw [hrun.last, ← hlast]
    simp only [hhelix]
    push_cast
    field_simp
    ring

/-- An arc ends, in space and with the filament, where one linear move with its words does, and its
chords go there one after the other, in equal steps along the plane's third axis. The factor is not
zero in any state that lines lead to, see `Sound`: without it the filament has no g-code position. -/
theorem apply_arc (arith : Arithmetic K) (hexact : ExactFloor arith) (s : GcodeState K)
    (hfactor : s.extrudeFactor ≠ 0) (line : Line) (cmd : Command) (comment : Option Text)
    (hbody : line.body = .command cmd comment) (clockwise : Bool)
    (hkind : kindOf cmd.name = .arc clockwise) (outcome : ApplyOutcome K) (after : GcodeState K)
    (happly : s.apply arith line = (.ok outcome, after)) :
    ∃ (words : Axes (Option K) × Option K) (count : ℕ) (P : ℕ → Axes K),
      g1Words arith cmd = .ok words ∧ ArcDrawn arith s words.1 outcome after count P ∧
      ∀ (g1 : Line) (linear : Command) (comment' : Option Text),
        g1.body = .command linear comment' → kindOf linear.name = .linear →
        SameWords cmd linear →
        ∃ outcome' after', s.apply arith g1 = (.ok outcome', after') ∧
          after.gcodePosition = after'.gcodePosition ∧
          after.lastPosition = after'.lastPosition ∧
          filament outcome.moves = filament outcome'.moves := by
  obtain ⟨req, segments, words, hplan, hwords, hread, rfl, rfl⟩ := arc_of_apply hbody hkind happly
  obtain ⟨hrun, hfilament, count, P, hdrawn⟩ :=
    arcDrawn_of_planArc line.span hexact hfactor hread hplan
  refine ⟨words, count, P, hwords, hdrawn, fun g1 linear comment' hg1 hlinear hsame => ?_⟩
  have hmove := onCourse_moveTo hread.coord words.1 words.2
  have honce := @emitMove_onRoute K _ _ arith (s.moveTo words.1 words.2) g1.span s.lastPosition
    s.positionKnown (s.moveTo words.1 words.2).speed none
  refine ⟨_, _, apply_linear hg1 hlinear (g1Words_congr hsame hwords), ?_, ?_, ?_⟩
  · rw [hrun.gcodePosition, hmove.gcodePosition]
  · rw [hrun.last, hmove.last]
  · rw [hfilament, ← hmove.last]
    exact honce.filament_eq.symm

theorem exactFloor_rationals : ExactFloor rationals := ⟨fun _ => rfl, fun _ => rfl⟩

/-- The words of a quarter of a circle of half a millimetre. -/
def quarter (name : Text) : Command where
  name := name
  params := .traditional [(lit "X", lit "0.5"), (lit "Y", lit "0.5"), (lit "J", lit "0.5"),
    (lit "E", lit "0.2")]

def quarterLine (name : Text) : Line := ⟨⟨0, 22⟩, .command (quarter name) none⟩

theorem apply_arc_quarter :
    ((new : GcodeState ℚ).apply rationals (quarterLine (lit "G3"))).2.lastPosition =
      ((new : GcodeState ℚ).apply rationals (quarterLine (lit "G1"))).2.lastPosition := by
  have hok : ((new : GcodeState ℚ).apply rationals (quarterLine (lit "G3"))).1.toBool = true := by
    decide +kernel
  rcases happly : (new : GcodeState ℚ).apply rationals (quarterLine (lit "G3")) with ⟨result, after⟩
  rw [happly] at hok
  cases result with
  | error e => cases hok
  | ok outcome =>
    obtain ⟨words, count, P, -, -, hlinear⟩ := apply_arc rationals exactFloor_rationals new
      one_ne_zero (quarterLine (lit "G3")) (quarter (lit "G3")) none rfl false (by decide) outcome after happly
    have hkind : kindOf (quarter (lit "G1")).name = .linear := by decide
    have hsame : SameWords (quarter (lit "G3")) (quarter (lit "G1")) := fun _ _ => rfl
    have hbody : (quarterLine (lit "G1")).body = .command (quarter (lit "G1")) none := rfl
    obtain ⟨outcome', after', happly', -, hlast, -⟩ := hlinear _ _ none hbody hkind hsame
    rw [happly']
    exact hlast

end Arc

end GcodeState

end DeadReckoning.Gcode
