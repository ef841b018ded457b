import DeadReckoning.Gcode.Modes
import DeadReckoning.Gcode.Reals
import DeadReckoning.Gcode.Waypoints

/-! Where the chords of an arc go, and that an arc which returns to where it began does not go only
upwards: its chords are of one length, and together they lead nowhere. -/
namespace DeadReckoning.Gcode

open Checks (bind_eq_ok ensure_eq_ok)

section Targets

variable {K : Type} [Add K] [Zero K] [DecidableEq K] {req : ArcRequest K}

/-- Without filament the chords end at one point after the other. -/
theorem targets_chordsFrom {endOf : ℕ → Point K} {count : ℕ} (hlast : endOf count = req.target)
    {remaining : ℕ} (hle : remaining ≤ count) (eBase : K) :
    (chordsFrom req endOf 0 count remaining eBase).map (·.target) =
      (List.range remaining).map fun j => endOf (count - remaining + 1 + j) := by
  induction remaining with
  | zero => rfl
  | succ remaining ih =>
    have hnext : (if remaining = 0 then req.target else endOf (count - remaining)) =
        endOf (count - (remaining + 1) + 1 + 0) := by
      have hindex : count - (remaining + 1) + 1 + 0 = count - remaining := by omega
      rw [hindex]
      split
      · rename_i hzero
        rw [hzero, Nat.sub_zero, hlast]
      · rfl
    have hshift : ∀ j, count - remaining + 1 + j = count - (remaining + 1) + 1 + (j + 1) := by
      intro j
      omega
    simp only [chordsFrom, if_true, List.map_cons, hnext, List.range_succ_eq_map, List.map_map]
    rw [ih (by omega)]
    simp only [Function.comp_def, hshift]

/-- The last chord ends at the target. -/
theorem last_chordsFrom (endOf : ℕ → Point K) (ePerMove : K) (count remaining : ℕ) (eBase : K) :
    ((chordsFrom req endOf ePerMove count (remaining + 1) eBase).getLast?).map (·.target) =
      some req.target := by
  induction remaining generalizing eBase with
  | zero =>
    simp only [chordsFrom, if_true]
    split <;> rfl
  | succ remaining ih =>
    have hgo (segment : ArcSegment K) (e : K) :
        ((segment :: chordsFrom req endOf ePerMove count (remaining + 1) e).getLast?).map
          (·.target) = some req.target := by
      have hne : chordsFrom req endOf ePerMove count (remaining + 1) e ≠ [] := by
        unfold chordsFrom
        dsimp only
        split <;> exact List.cons_ne_nil _ _
      obtain ⟨first, rest, hcons⟩ := List.exists_cons_of_ne_nil hne
      rw [hcons, List.getLast?_cons_cons, ← hcons, ih]
    rw [chordsFrom]
    dsimp only
    split
    · exact hgo _ _
    · exact hgo _ _

end Targets

section FullTurn

variable {req : ArcRequest ℝ}

theorem linearTravel_circle (h : req.target = req.current.point) : linearTravel req = 0 := by
  rw [linearTravel, h, sub_self]

/-- An arc back to where it begins is a full turn. -/
theorem angularTravel_circle (h : req.target = req.current.point) :
    angularTravel reals req = 2 * Real.pi ∨ angularTravel reals req = -(2 * Real.pi) := by
  have hangle (a b : ℝ) : reals.atan2 (a * b - b * a) (a * a + b * b) = 0 := by
    have hzero : a * b - b * a = 0 := by ring
    have hnonneg : 0 ≤ a * a + b * b := add_nonneg (mul_self_nonneg a) (mul_self_nonneg b)
    rw [hzero]
    exact Complex.arg_ofReal_of_nonneg hnonneg
  have hpi : reals.pi = Real.pi := rfl
  have hturn : ((2 : ℕ) : ℝ) * reals.pi = 2 * Real.pi := by rw [hpi, Nat.cast_ofNat]
  have hnonzero : (0 : ℝ) - 2 * Real.pi ≠ 0 := by
    have hpos := Real.pi_pos
    intro hzero
    linarith
  unfold angularTravel
  simp only [h, sub_sub_cancel, hangle, hturn, lt_irrefl, if_false, and_self, and_true]
  cases req.clockwise with
  | false => exact .inl (by simp)
  | true =>
    right
    rw [if_pos rfl, if_neg hnonzero, zero_sub]

/-- A whole number of turns away the circle is where it is. -/
theorem cos_sin_turn {travel : ℝ} (h : travel = 2 * Real.pi ∨ travel = -(2 * Real.pi)) :
    Real.cos travel = 1 ∧ Real.sin travel = 0 := by
  rcases h with rfl | rfl
  · exact ⟨Real.cos_two_pi, Real.sin_two_pi⟩
  · rw [Real.cos_neg, Real.sin_neg, Real.cos_two_pi, Real.sin_two_pi, neg_zero]
    exact ⟨rfl, rfl⟩

theorem place_self (plane : ArcPlane) (p : Point ℝ) :
    plane.place (plane.alpha p) (plane.beta p) (plane.helical p) = p := by
  cases plane <;> rfl

/-- Where the turn is through, the chord ends where the arc begins. -/
theorem chordEnd_turn (h : req.target = req.current.point) {segments : ℝ} {i : ℕ}
    (hcos : Real.cos (i * (angularTravel reals req / segments)) = 1)
    (hsin : Real.sin (i * (angularTravel reals req / segments)) = 0) :
    chordEnd reals req segments i = req.current.point := by
  have hc : reals.cos (i * (angularTravel reals req / segments)) = 1 := hcos
  have hs : reals.sin (i * (angularTravel reals req / segments)) = 0 := hsin
  unfold chordEnd
  simp only [hc, hs, linearTravel_circle h, zero_div, mul_zero, add_zero, mul_one, sub_neg_eq_add,
    zero_sub, add_neg_cancel_right, place_self]

theorem chordEnd_zero (h : req.target = req.current.point) (segments : ℝ) :
    chordEnd reals req segments 0 = req.current.point :=
  chordEnd_turn h (by simp) (by simp)

theorem chordEnd_count (h : req.target = req.current.point) {segments : ℝ} {count : ℕ}
    (hcount : (count : ℝ) = segments) (hne : segments ≠ 0) :
    chordEnd reals req segments count = req.current.point := by
  have hangle : (count : ℝ) * (angularTravel reals req / segments) = angularTravel reals req := by
    rw [hcount, mul_div_cancel₀ _ hne]
  obtain ⟨hcos, hsin⟩ := cos_sin_turn (angularTravel_circle h)
  exact chordEnd_turn h (by rw [hangle, hcos]) (by rw [hangle, hsin])

/-- The squared length of a chord. -/
noncomputable def chordSquared (req : ArcRequest ℝ) (segments : ℝ) : ℝ :=
  (req.offset.1 * req.offset.1 + req.offset.2 * req.offset.2) *
    (2 - 2 * Real.cos (angularTravel reals req / segments))

/-- The chords of a circle are of one length. -/
theorem chordEnd_step (h : req.target = req.current.point) (segments : ℝ) (i : ℕ) :
    let p := chordEnd reals req segments i
    let q := chordEnd reals req segments (i + 1)
    (q.x - p.x) * (q.x - p.x) + (q.y - p.y) * (q.y - p.y) + (q.z - p.z) * (q.z - p.z) =
      chordSquared req segments := by
  have hnext : ((i + 1 : ℕ) : ℝ) * (angularTravel reals req / segments) =
      i * (angularTravel reals req / segments) + angularTravel reals req / segments := by
    push_cast
    ring
  have hcos : reals.cos = Real.cos := rfl
  have hsin : reals.sin = Real.sin := rfl
  simp only [chordEnd, chordSquared, linearTravel_circle h, zero_div, mul_zero, add_zero, hcos, hsin,
    hnext, Real.cos_add, Real.sin_add]
  generalize (i : ℝ) * (angularTravel reals req / segments) = a
  generalize angularTravel reals req / segments = d
  have ha := Real.sin_sq_add_cos_sq a
  have hd := Real.sin_sq_add_cos_sq d
  generalize req.offset.1 = p
  generalize req.offset.2 = q
  cases req.plane <;> simp only [ArcPlane.place, sub_self, mul_zero, add_zero, zero_add] <;>
    linear_combination (p * p + q * q) * (Real.cos d ^ 2 + Real.sin d ^ 2 + 1 - 2 * Real.cos d) * ha +
      (p * p + q * q) * hd

end FullTurn

namespace GcodeState

section Ends

variable {K : Type} [Field K] {s : GcodeState K}

/-- Where an absolute chord to the point ends. -/
def placed (s : GcodeState K) (p : Point K) : Axes K :=
  ⟨p.x + s.basePosition.x, p.y + s.basePosition.y, p.z + s.basePosition.z, s.lastPosition.e⟩

theorem moveTo_placed (hcoord : s.absoluteCoord = true) (p : Point K) (feed : Option K) :
    (s.moveTo ⟨some p.x, some p.y, some p.z, none⟩ feed).lastPosition = s.placed p ∧
      (s.moveTo ⟨some p.x, some p.y, some p.z, none⟩ feed).basePosition = s.basePosition ∧
      (s.moveTo ⟨some p.x, some p.y, some p.z, none⟩ feed).absoluteCoord = true := by
  unfold moveTo moveWords
  simp only [applyWord, applyAxis, hcoord, if_true, Option.map_none]
  cases feed <;> exact ⟨rfl, rfl, rfl⟩

/-- In absolute coordinates the chords end at their targets. -/
theorem chordEnds_placed (hcoord : s.absoluteCoord = true) {segments : List (ArcSegment K)}
    (h : ∀ segment ∈ segments, segment.e = none) :
    chordEnds segments s = (segments.map (·.target)).map s.placed := by
  induction segments generalizing s with
  | nil => rfl
  | cons segment segments ih =>
    rw [List.forall_mem_cons] at h
    obtain ⟨hlast, hbase, hmode⟩ := moveTo_placed hcoord segment.target segment.f
    have hplaced : (s.moveTo ⟨some segment.target.x, some segment.target.y, some segment.target.z,
        none⟩ segment.f).placed = s.placed := by
      funext p
      simp only [placed, hbase, hlast]
    simp only [chordEnds, h.1, List.map_cons, hlast]
    rw [ih hmode h.2, hplaced]

end Ends

/-- The move keeps X and Y and does not go down. -/
def Harmless {K : Type} [LE K] (leg : Axes K × Axes K) : Prop :=
  leg.2.x = leg.1.x ∧ leg.2.y = leg.1.y ∧ leg.1.z ≤ leg.2.z

section Closed

/-- The square of the way between two points. -/
def waySquared (p q : Axes ℝ) : ℝ :=
  (q.x - p.x) * (q.x - p.x) + (q.y - p.y) * (q.y - p.y) + (q.z - p.z) * (q.z - p.z)

/-- A closed walk of steps of one length, none of which goes down or aside, is too short to be
kept. -/
theorem kept_of_closed {P : ℕ → Axes ℝ} {n : ℕ} (hclosed : P n = P 0) (length : ℝ)
    (hlength : ∀ k, waySquared (P k) (P (k + 1)) = length) (he : ∀ k, (P k).e = (P 0).e)
    (hharmless : ∀ leg ∈ kept reals ((List.range n).map fun k => (P k, P (k + 1))), Harmless leg) :
    kept reals ((List.range n).map fun k => (P k, P (k + 1))) = [] := by
  have hdistance : ∀ k, kinematicDistance reals (P k) (P (k + 1)) =
      if Real.sqrt length < minKinematicMove then 0 else Real.sqrt length := by
    intro k
    have hstill : (P (k + 1)).e - (P k).e = 0 := by rw [he, he k, sub_self]
    have hflat : magnitude (0 : ℝ) = 0 := by simp [magnitude]
    unfold kinematicDistance
    dsimp only
    rw [hstill, hflat, ← hlength k]
    exact if_congr Iff.rfl rfl rfl
  by_cases hshort : Real.sqrt length < minKinematicMove
  · refine List.filter_eq_nil_iff.mpr fun leg hleg => ?_
    obtain ⟨k, -, rfl⟩ := List.mem_map.mp hleg
    simp [hdistance, hshort]
  · have hpos : 0 < Real.sqrt length := by
      have hmin : (0 : ℝ) < minKinematicMove := by
        unfold minKinematicMove
        positivity
      exact hmin.trans_le (not_lt.mp hshort)
    have hkept : ∀ k < n, Harmless (P k, P (k + 1)) := by
      intro k hk
      refine hharmless _ (List.mem_filter.mpr ⟨List.mem_map_of_mem (List.mem_range.mpr hk), ?_⟩)
      simp [hdistance, hshort, hpos.ne']
    -- The steps go up only, and the walk ends where it began.
    have hup : ∀ k ≤ n, (P 0).z ≤ (P k).z := by
      intro k hk
      induction k with
      | zero => exact le_rfl
      | succ k ih => exact (ih (by omega)).trans (hkept k (by omega)).2.2
    have hdown : ∀ k ≤ n, (P (n - k)).z ≤ (P 0).z := by
      intro k hk
      induction k with
      | zero => rw [Nat.sub_zero, hclosed]
      | succ k ih =>
        have hstep := (hkept (n - (k + 1)) (by omega)).2.2
        have hindex : n - (k + 1) + 1 = n - k := by omega
        rw [hindex] at hstep
        exact hstep.trans (ih (by omega))
    cases n with
    | zero => rfl
    | succ n =>
      have hone : (P 1).z = (P 0).z := by
        have hback := hdown n (by omega)
        rw [Nat.add_sub_cancel_left] at hback
        exact le_antisymm hback (hup 1 (by omega))
      obtain ⟨hx, hy, -⟩ := hkept 0 (by omega)
      have hzero : length = 0 := by
        rw [← hlength 0]
        simp only [waySquared, Nat.zero_add] at hx hy ⊢
        rw [hx, hy, hone]
        ring
      rw [hzero, Real.sqrt_zero] at hpos
      exact absurd hpos (lt_irrefl 0)

end Closed

section Arcs

variable {s : GcodeState ℝ} {cmd : Command} {span : ByteSpan} {clockwise : Bool}

theorem getFloatOr_absent {K : Type} {arith : Arithmetic K} {key : Text}
    (h : cmd.get key = none) (default : K) : getFloatOr arith cmd key default = .ok default := by
  simp only [getFloatOr, getFloat, h]
  rfl

/-- Without words of its own an arc leads back to where it begins. -/
theorem arcRequest_circle (hx : cmd.get (lit "X") = none) (hy : cmd.get (lit "Y") = none)
    (hz : cmd.get (lit "Z") = none) {req : ArcRequest ℝ}
    (h : s.arcRequest reals cmd clockwise = .ok req) :
    s.absoluteCoord = true ∧ req.current = s.gcodePosition ∧ req.target = req.current.point := by
  simp only [arcRequest, getFloatOr_absent hx, getFloatOr_absent hy, getFloatOr_absent hz] at h
  obtain ⟨_, hcoord, h⟩ := bind_eq_ok.mp h
  obtain ⟨_, hx', h⟩ := bind_eq_ok.mp h
  obtain ⟨_, hy', h⟩ := bind_eq_ok.mp h
  obtain ⟨_, hz', h⟩ := bind_eq_ok.mp h
  obtain ⟨_, -, h⟩ := bind_eq_ok.mp h
  obtain ⟨_, -, h⟩ := bind_eq_ok.mp h
  obtain ⟨_, -, h⟩ := bind_eq_ok.mp h
  obtain ⟨_, -, h⟩ := bind_eq_ok.mp h
  obtain ⟨_, -, h⟩ := bind_eq_ok.mp h
  obtain ⟨_, -, h⟩ := bind_eq_ok.mp h
  cases hx'
  cases hy'
  cases hz'
  cases h
  exact ⟨ensure_eq_ok.mp hcoord, rfl, rfl⟩

theorem larger_floor (v : ℝ) : ∃ n : ℤ, 1 ≤ n ∧ larger (reals.floor v) 1 = n := by
  unfold larger
  split
  · exact ⟨1, le_rfl, by simp⟩
  · rename_i hnot
    have hfloor : reals.floor v = (⌊v⌋ : ℝ) := rfl
    rw [hfloor] at hnot
    exact ⟨⌊v⌋, by exact_mod_cast not_lt.mp hnot, hfloor⟩

/-- The number of chords is a whole one, and not zero. -/
theorem segmentsOf_whole (req : ArcRequest ℝ) :
    ((reals.toNat (segmentsOf reals req) : ℕ) : ℝ) = segmentsOf reals req ∧
      segmentsOf reals req ≠ 0 := by
  obtain ⟨n, hn, heq⟩ : ∃ n : ℤ, 1 ≤ n ∧ segmentsOf reals req = n := larger_floor _
  rw [heq]
  have hnat : (n.toNat : ℤ) = n := Int.toNat_of_nonneg (by omega)
  constructor
  · have hcast : (n : ℝ) = (n.toNat : ℕ) := by exact_mod_cast hnat.symm
    rw [hcast]
    exact congrArg Nat.cast (Nat.floor_natCast n.toNat)
  · have hpos : n ≠ 0 := by omega
    exact_mod_cast hpos

/-- The chords of an arc that is planned without filament. -/
theorem targets_planArc {req : ArcRequest ℝ} {segments : List (ArcSegment ℝ)}
    (htarget : req.target = req.current.point) (he : req.eParam = none)
    (hplan : planArc reals req = .ok segments) :
    segments.map (·.target) = (List.range (reals.toNat (segmentsOf reals req))).map fun k =>
      chordEnd reals req (segmentsOf reals req) (k + 1) := by
  obtain ⟨hcount, hne⟩ := segmentsOf_whole req
  simp only [planArc, he] at hplan
  obtain ⟨_, -, hplan⟩ := bind_eq_ok.mp hplan
  obtain ⟨_, -, hplan⟩ := bind_eq_ok.mp hplan
  obtain ⟨_, -, hplan⟩ := bind_eq_ok.mp hplan
  cases hplan
  rw [targets_chordsFrom ((chordEnd_count htarget hcount hne).trans htarget.symm) le_rfl]
  simp only [Nat.sub_self, Nat.zero_add, Nat.add_comm 1]

/-- An arc without words of its own that keeps X and Y and does not go down makes no move. -/
theorem applyChords_circle {req : ArcRequest ℝ} {segments : List (ArcSegment ℝ)}
    (hcoord : s.absoluteCoord = true) (hcurrent : req.current = s.gcodePosition)
    (htarget : req.target = req.current.point) (he : req.eParam = none)
    (hplan : planArc reals req = .ok segments) (count index : ℕ)
    (hharmless : ∀ m ∈ (applyChords reals span count index segments s).1, Harmless (ends m)) :
    (applyChords reals span count index segments s).1 = [] := by
  obtain ⟨hcount, hne⟩ := segmentsOf_whole req
  have hfilament := e_of_planArc he hplan
  have hroute := (@applyChords_onRoute ℝ _ _ reals s span count index segments).ends
  let P : ℕ → Axes ℝ := fun k => s.placed (chordEnd reals req (segmentsOf reals req) k)
  have hstart : s.placed req.current.point = s.lastPosition := by
    rw [hcurrent]
    simp [placed, gcodePosition, Axes.point]
  have hzero : P 0 = s.lastPosition := by
    simp only [P, chordEnd_zero htarget, hstart]
  have hclosed : P (reals.toNat (segmentsOf reals req)) = P 0 := by
    simp only [P, chordEnd_zero htarget, chordEnd_count htarget hcount hne]
  have hpoints : chordEnds segments s =
      (List.range (reals.toNat (segmentsOf reals req))).map fun k => P (k + 1) := by
    rw [chordEnds_placed hcoord hfilament, targets_planArc htarget he hplan, List.map_map]
    rfl
  rw [hpoints, ← hzero, legs_range] at hroute
  have hlength : ∀ k, waySquared (P k) (P (k + 1)) = chordSquared req (segmentsOf reals req) := by
    intro k
    rw [← chordEnd_step htarget _ k]
    simp only [P, placed, waySquared, add_sub_add_right_eq_sub]
  have hnone := kept_of_closed hclosed _ hlength (fun _ => rfl) fun leg hleg => by
    rw [← hroute] at hleg
    obtain ⟨m, hm, rfl⟩ := List.mem_map.mp hleg
    exact hharmless m hm
  rw [hnone] at hroute
  exact List.map_eq_nil_iff.mp hroute

/-- In absolute coordinates the chords lead to the target of the last one. -/
theorem applyChords_last (hcoord : s.absoluteCoord = true) (count index : ℕ)
    (segments : List (ArcSegment ℝ)) {last : Point ℝ}
    (hlast : segments.getLast?.map (·.target) = some last) :
    let after := (applyChords reals span count index segments s).2
    after.gcodePosition.x = last.x ∧ after.gcodePosition.y = last.y := by
  induction segments generalizing index s with
  | nil => cases hlast
  | cons segment segments ih =>
    have hmoved : (s.applyG1Values reals ⟨some segment.target.x, some segment.target.y,
        some segment.target.z, segment.e⟩ segment.f span (some ⟨index, count⟩)).2 =
          s.moveTo ⟨some segment.target.x, some segment.target.y, some segment.target.z, segment.e⟩
            segment.f := rfl
    simp only [applyChords, hmoved]
    generalize hafter : s.moveTo ⟨some segment.target.x, some segment.target.y,
      some segment.target.z, segment.e⟩ segment.f = t
    have hstep : t.absoluteCoord = true ∧ t.gcodePosition.x = segment.target.x ∧
        t.gcodePosition.y = segment.target.y := by
      rw [← hafter]
      unfold moveTo moveWords
      simp only [applyWord, applyAxis, hcoord, if_true, Bool.true_and]
      cases segment.e with
      | none => cases segment.f <;> simp [gcodePosition, Axes.set, Axes.get]
      | some e =>
        cases s.absoluteExtrude <;> cases segment.f <;> simp [gcodePosition, Axes.set, Axes.get]
    cases segments with
    | nil =>
      obtain rfl := Option.some.inj hlast
      exact hstep.2
    | cons next rest => exact ih hstep.1 _ (by rwa [List.getLast?_cons_cons] at hlast)

/-- An arc is planned up to its target. -/
theorem last_planArc {req : ArcRequest ℝ} {segments : List (ArcSegment ℝ)}
    (hplan : planArc reals req = .ok segments) :
    segments.getLast?.map (·.target) = some req.target := by
  obtain ⟨hcount, hne⟩ := segmentsOf_whole req
  unfold planArc at hplan
  obtain ⟨_, -, hplan⟩ := bind_eq_ok.mp hplan
  obtain ⟨_, -, hplan⟩ := bind_eq_ok.mp hplan
  obtain ⟨_, -, hplan⟩ := bind_eq_ok.mp hplan
  cases hplan
  cases hnat : reals.toNat (segmentsOf reals req) with
  | zero =>
    rw [hnat, Nat.cast_zero] at hcount
    exact absurd hcount.symm hne
  | succ count => exact last_chordsFrom _ _ _ _ _

end Arcs

end GcodeState

end DeadReckoning.Gcode
