import DeadReckoning.Gcode.Reals
import DeadReckoning.Gcode.Simulate
import Mathlib.Data.List.Chain

/-! The speeds that the look-ahead assigns can be driven: they fit together at the junctions, and
every move has room for its ramps. -/
namespace DeadReckoning.Gcode

section Junctions

variable {K : Type} [Field K] [LinearOrder K]

/-- The square root of the arithmetic is exact. -/
structure ExactSqrt (arith : Arithmetic K) : Prop where
  nonneg : ∀ x, 0 ≤ arith.sqrt x
  square : ∀ x, 0 ≤ x → arith.sqrt x * arith.sqrt x = x

/-- The move has a length, an acceleration and a speed. -/
structure Movable (km : KMove K) : Prop where
  moveD : 0 < km.moveD
  accel : 0 < km.accel
  maxCruiseV2 : 0 < km.maxCruiseV2

/-- What the kinematics of a move keep: the speed gained along it, and bounds that are squares. -/
structure KMove.Sound (km : KMove K) : Prop extends Movable km where
  deltaV2 : km.deltaV2 = 2 * km.moveD * km.accel
  junctionDeviation : 0 ≤ km.junctionDeviation
  maxStartV2 : 0 ≤ km.maxStartV2
  starts : km.maxStartV2 ≤ km.maxCruiseV2

/-- The second move starts no faster than the first one can end. -/
structure Joined (prev km : KMove K) : Prop where
  cruise : km.maxStartV2 ≤ prev.maxCruiseV2
  reach : km.maxStartV2 ≤ prev.maxStartV2 + prev.deltaV2
  stops : km.isKinematic = false ∨ prev.isKinematic = false → km.maxStartV2 = 0

variable {arith : Arithmetic K} {prev km : KMove K}

theorem ExactSqrt.pos (hsqrt : ExactSqrt arith) {x : K} (hx : 0 < x) : 0 < arith.sqrt x := by
  have hsquare := hsqrt.square x hx.le
  by_contra hnot
  have hzero : arith.sqrt x = 0 := le_antisymm (not_lt.mp hnot) (hsqrt.nonneg x)
  rw [hzero, mul_zero] at hsquare
  exact hx.ne hsquare

theorem ExactSqrt.zero (hsqrt : ExactSqrt arith) : arith.sqrt 0 = 0 :=
  mul_self_eq_zero.mp (hsqrt.square 0 le_rfl)

variable [IsStrictOrderedRing K]

theorem KMove.Sound.deltaV2_pos (h : km.Sound) : 0 < km.deltaV2 := by
  have hlength := h.moveD
  have haccel := h.accel
  rw [h.deltaV2]
  positivity

theorem new_sound (hsqrt : ExactSqrt arith) (config : SimConfig K) (m : PlannedMove K)
    (hmovable : Movable (KMove.new arith config m)) : (KMove.new arith config m).Sound where
  toMovable := hmovable
  deltaV2 := rfl
  junctionDeviation := by
    have htwo := hsqrt.square ((2 : ℕ) : K) (by positivity)
    have hroot := hsqrt.nonneg ((2 : ℕ) : K)
    have hone : 1 ≤ arith.sqrt ((2 : ℕ) : K) := by
      push_cast at htwo hroot ⊢
      nlinarith
    have haccel := hmovable.accel
    exact div_nonneg (mul_nonneg (mul_self_nonneg _) (by linarith)) haccel.le
  maxStartV2 := le_rfl
  starts := hmovable.maxCruiseV2.le

/-- A junction sets the start only, to something between zero and the bounds of both moves. -/
theorem calcJunction_start (hsqrt : ExactSqrt arith) (hprev : prev.Sound) (hkm : km.Sound)
    (hfresh : km.maxStartV2 = 0) :
    ∃ v, km.calcJunction arith prev = { km with maxStartV2 := v } ∧ 0 ≤ v ∧ v ≤ km.maxCruiseV2 ∧
      v ≤ prev.maxCruiseV2 ∧ v ≤ prev.maxStartV2 + prev.deltaV2 ∧
      (km.isKinematic = false ∨ prev.isKinematic = false → v = 0) := by
  have hdelta := hkm.deltaV2_pos.le
  have hprevDelta := hprev.deltaV2_pos.le
  have hreach : 0 ≤ prev.maxStartV2 + prev.deltaV2 := add_nonneg hprev.maxStartV2 hprevDelta
  unfold KMove.calcJunction
  split_ifs with hextrude
  · exact ⟨0, by rw [← hfresh], le_rfl, hkm.maxCruiseV2.le, hprev.maxCruiseV2.le, hreach,
      fun _ => rfl⟩
  simp only [Bool.or_eq_true, Bool.not_eq_true', not_or, Bool.not_eq_false] at hextrude
  have hkinematic : ¬(km.isKinematic = false ∨ prev.isKinematic = false) := by
    rw [hextrude.1, hextrude.2]
    decide
  dsimp only
  set base := min (min (min km.maxCruiseV2 prev.maxCruiseV2) nextJunctionV2)
    (prev.maxStartV2 + prev.deltaV2) with hbase
  have hbase_nonneg : 0 ≤ base := by
    have hnext : (0 : K) ≤ nextJunctionV2 := by
      unfold nextJunctionV2
      positivity
    exact le_min (le_min (le_min hkm.maxCruiseV2.le hprev.maxCruiseV2.le) hnext) hreach
  have hbase_le : base ≤ km.maxCruiseV2 ∧ base ≤ prev.maxCruiseV2 ∧
      base ≤ prev.maxStartV2 + prev.deltaV2 := by
    simp [hbase]
  set cosTheta := -(km.axesR.x * prev.axesR.x + km.axesR.y * prev.axesR.y +
    km.axesR.z * prev.axesR.z)
  have hsin := hsqrt.nonneg (max (1 / 2 * (1 - cosTheta)) 0)
  split_ifs with hcorner
  · obtain ⟨hone, hcos⟩ := hcorner
    -- the circle in the corner and the half of each move bound the speed further
    have hrJd := div_nonneg hsin hone.le
    have htan : 0 ≤ 1 / 4 * arith.sqrt (max (1 / 2 * (1 - cosTheta)) 0) /
        arith.sqrt (max (1 / 2 * (1 + cosTheta)) 0) :=
      div_nonneg (mul_nonneg (by norm_num) hsin) hcos.le
    refine ⟨_, rfl, ?_, ?_, ?_, ?_, fun h => absurd h hkinematic⟩
    · refine le_min (le_min (le_min (le_min hbase_nonneg ?_) ?_) ?_) ?_
      · exact mul_nonneg (mul_nonneg hrJd hkm.junctionDeviation) hkm.accel.le
      · exact mul_nonneg (mul_nonneg hrJd hprev.junctionDeviation) hprev.accel.le
      · exact mul_nonneg hdelta htan
      · exact mul_nonneg hprevDelta htan
    · simp [hbase_le.1]
    · simp [hbase_le.2.1]
    · simp [hbase_le.2.2]
  · exact ⟨base, rfl, hbase_nonneg, hbase_le.1, hbase_le.2.1, hbase_le.2.2,
      fun h => absurd h hkinematic⟩

theorem calcJunction_joined (hsqrt : ExactSqrt arith) (hprev : prev.Sound) (hkm : km.Sound)
    (hfresh : km.maxStartV2 = 0) :
    (km.calcJunction arith prev).Sound ∧ Joined prev (km.calcJunction arith prev) := by
  obtain ⟨v, heq, hzero, hown, hcruise, hreach, hstops⟩ :=
    calcJunction_start hsqrt hprev hkm hfresh
  rw [heq]
  exact ⟨{ hkm with maxStartV2 := hzero, starts := hown }, hcruise, hreach, hstops⟩

/-- The bounds of a list of moves: each fits to the one in front of it, the first one starts from
rest unless there is one. -/
theorem kinematics_joined (hsqrt : ExactSqrt arith) (config : SimConfig K)
    (moves : List (PlannedMove K)) (hmoves : ∀ m ∈ moves, Movable (KMove.new arith config m))
    (prev : Option (KMove K)) (hprev : ∀ km ∈ prev, km.Sound) :
    (∀ km ∈ kinematics arith config prev moves, km.Sound) ∧
      (kinematics arith config prev moves).IsChain Joined ∧
      ∀ km ∈ (kinematics arith config prev moves).head?,
        (prev = none → km.maxStartV2 = 0) ∧ ∀ before ∈ prev, Joined before km := by
  induction moves generalizing prev with
  | nil => simp [kinematics]
  | cons m moves ih =>
    have hnew := new_sound hsqrt config m (hmoves m List.mem_cons_self)
    have hrest : ∀ m ∈ moves, Movable (KMove.new arith config m) := fun m hm =>
      hmoves m (List.mem_cons_of_mem _ hm)
    have hstep : ∀ km : KMove K, km.Sound →
        (∀ k ∈ km :: kinematics arith config (some km) moves, k.Sound) ∧
          (km :: kinematics arith config (some km) moves).IsChain Joined := by
      intro km hsound
      obtain ⟨hall, hchain, hhead⟩ := ih hrest (some km) (by simpa using hsound)
      refine ⟨List.forall_mem_cons.mpr ⟨hsound, hall⟩, ?_⟩
      exact List.isChain_cons.mpr ⟨fun k hk => (hhead k hk).2 km rfl, hchain⟩
    cases prev with
    | none =>
      obtain ⟨hall, hchain⟩ := hstep _ hnew
      refine ⟨hall, hchain, ?_⟩
      rintro km ⟨⟩
      exact ⟨fun _ => rfl, nofun⟩
    | some before =>
      obtain ⟨hsound, hjoined⟩ := calcJunction_joined hsqrt (hprev before rfl) hnew rfl
      obtain ⟨hall, hchain⟩ := hstep _ hsound
      refine ⟨hall, hchain, ?_⟩
      rintro km ⟨⟩
      refine ⟨nofun, ?_⟩
      rintro b ⟨⟩
      exact hjoined

end Junctions

section Ramps

variable {K : Type} [Field K] [LinearOrder K]

/-- The trapezoid over a move without the clamps for what rounding would leave. -/
def unclampedMove (arith : Arithmetic K) (t : K) (km : KMove K) (m : PlannedMove K)
    (plan : SpeedPlan K) : TimedMove K :=
  let accelD := (plan.cruiseV2 - plan.startV2) * (1 / 2 / km.accel)
  let decelD := (plan.cruiseV2 - plan.endV2) * (1 / 2 / km.accel)
  let cruiseD := km.moveD - accelD - decelD
  { planned := m
    startTime := t
    startV := arith.sqrt plan.startV2
    cruiseV := arith.sqrt plan.cruiseV2
    endV := arith.sqrt plan.endV2
    accelT := accelD / ((arith.sqrt plan.startV2 + arith.sqrt plan.cruiseV2) * (1 / 2))
    cruiseT := cruiseD / arith.sqrt plan.cruiseV2
    decelT := decelD / ((arith.sqrt plan.endV2 + arith.sqrt plan.cruiseV2) * (1 / 2)) }

/-- The speeds of a move that it has room for. -/
structure Feasible (km : KMove K) (plan : SpeedPlan K) : Prop where
  start_nonneg : 0 ≤ plan.startV2
  start_le : plan.startV2 ≤ plan.cruiseV2
  end_nonneg : 0 ≤ plan.endV2
  end_le : plan.endV2 ≤ plan.cruiseV2
  cruise_pos : 0 < plan.cruiseV2
  cruise_le : plan.cruiseV2 ≤ km.maxCruiseV2
  change : |plan.endV2 - plan.startV2| ≤ 2 * km.moveD * km.accel
  room : (plan.cruiseV2 - plan.startV2) * (1 / 2 / km.accel) +
    (plan.cruiseV2 - plan.endV2) * (1 / 2 / km.accel) ≤ km.moveD

variable [IsStrictOrderedRing K] {arith : Arithmetic K} {km : KMove K} {plan : SpeedPlan K}

theorem Feasible.unclamped (h : Feasible km plan) (hsqrt : ExactSqrt arith) (haccel : 0 < km.accel)
    (t : K) (m : PlannedMove K) :
    timedMove arith t km m plan = unclampedMove arith t km m plan := by
  have hstart : min plan.startV2 plan.cruiseV2 = plan.startV2 := min_eq_left h.start_le
  have hend : min plan.endV2 plan.cruiseV2 = plan.endV2 := min_eq_left h.end_le
  have hhalf : 0 ≤ 1 / 2 / km.accel := by positivity
  have hcruise := (hsqrt.pos h.cruise_pos).le
  have hstartV := hsqrt.nonneg plan.startV2
  have hendV := hsqrt.nonneg plan.endV2
  have haccelT := div_nonneg (mul_nonneg (sub_nonneg.mpr h.start_le) hhalf)
    (mul_nonneg (add_nonneg hstartV hcruise) (by norm_num : (0 : K) ≤ 1 / 2))
  have hdecelT := div_nonneg (mul_nonneg (sub_nonneg.mpr h.end_le) hhalf)
    (mul_nonneg (add_nonneg hendV hcruise) (by norm_num : (0 : K) ≤ 1 / 2))
  have hcruiseD : 0 ≤ km.moveD - (plan.cruiseV2 - plan.startV2) * (1 / 2 / km.accel) -
      (plan.cruiseV2 - plan.endV2) * (1 / 2 / km.accel) := by
    have hroom := h.room
    linarith
  have hcruiseT := div_nonneg hcruiseD hcruise
  unfold timedMove unclampedMove
  dsimp only
  rw [hstart, hend, max_eq_left haccelT, max_eq_left hcruiseT, max_eq_left hdecelT]

/-- One step of the backward pass, in front of a speed that the move can reach. -/
theorem feasible_step {v : K} (hkm : km.Sound) (hzero : 0 ≤ v) (hcruise : v ≤ km.maxCruiseV2)
    (hreach : v ≤ km.maxStartV2 + km.deltaV2) :
    Feasible km
      ⟨min km.maxStartV2 (v + km.deltaV2),
        min km.maxCruiseV2 ((min km.maxStartV2 (v + km.deltaV2) + (v + km.deltaV2)) * (1 / 2)),
        v⟩ := by
  have hdelta := hkm.deltaV2_pos
  have hstart := hkm.maxStartV2
  have hstarts := hkm.starts
  have hlimit := hkm.maxCruiseV2
  have haccel := hkm.accel
  obtain ⟨s, hs⟩ : ∃ s, s = min km.maxStartV2 (v + km.deltaV2) := ⟨_, rfl⟩
  have hs_own : s ≤ km.maxStartV2 := hs ▸ min_le_left _ _
  have hs_reach : s ≤ v + km.deltaV2 := hs ▸ min_le_right _ _
  have hs_zero : 0 ≤ s := hs ▸ le_min hstart (by linarith)
  -- the speed at the end is in reach of the start, whichever bound that has
  have hv_reach : v ≤ s + km.deltaV2 := by
    rcases min_choice km.maxStartV2 (v + km.deltaV2) with h | h
    · rw [hs, h]
      exact hreach
    · rw [hs, h]
      linarith
  rw [← hs]
  constructor
  · exact hs_zero
  · exact le_min (hs_own.trans hstarts) (by linarith)
  · exact hzero
  · exact le_min hcruise (by linarith)
  · exact lt_min hlimit (by linarith)
  · exact min_le_left _ _
  · rw [← hkm.deltaV2, abs_le]
    constructor
    · linarith
    · linarith
  · have hcruise_le := min_le_right km.maxCruiseV2 ((s + (v + km.deltaV2)) * (1 / 2))
    have hcancel : 2 * km.moveD * km.accel * (1 / 2 / km.accel) = km.moveD := by
      field_simp
    have hdouble : min km.maxCruiseV2 ((s + (v + km.deltaV2)) * (1 / 2)) - s +
        (min km.maxCruiseV2 ((s + (v + km.deltaV2)) * (1 / 2)) - v) ≤ 2 * km.moveD * km.accel := by
      rw [← hkm.deltaV2]
      linarith
    have hhalf : 0 ≤ 1 / 2 / km.accel := by positivity
    calc _ = (min km.maxCruiseV2 ((s + (v + km.deltaV2)) * (1 / 2)) - s +
          (min km.maxCruiseV2 ((s + (v + km.deltaV2)) * (1 / 2)) - v)) * (1 / 2 / km.accel) := by
          ring
      _ ≤ 2 * km.moveD * km.accel * (1 / 2 / km.accel) := mul_le_mul_of_nonneg_right hdouble hhalf
      _ = km.moveD := hcancel

end Ramps

section Profile

variable {K : Type} [Field K] [LinearOrder K]

/-- The moves with the speeds that they are driven at. -/
def profile (arith : Arithmetic K) (config : SimConfig K) (moves : List (PlannedMove K)) :
    List (KMove K × SpeedPlan K) :=
  (kinematics arith config none moves).zip (speedPlans (kinematics arith config none moves)).1

/-- One move goes over into the next at one speed, in front of and behind one that only extrudes
from a stop. -/
def Smooth (p q : KMove K × SpeedPlan K) : Prop :=
  p.2.endV2 = q.2.startV2 ∧
    (p.1.isKinematic = false ∨ q.1.isKinematic = false → p.2.endV2 = 0)

/-- The speeds of a list of moves can be driven. -/
structure FeasiblePlan (arith : Arithmetic K) (config : SimConfig K)
    (moves : List (PlannedMove K)) : Prop where
  length : (profile arith config moves).length = moves.length
  feasible : ∀ p ∈ profile arith config moves, Feasible p.1 p.2
  begins : ∀ p ∈ (profile arith config moves).head?, p.2.startV2 = 0
  ends : ∀ p ∈ (profile arith config moves).getLast?, p.2.endV2 = 0
  smooth : (profile arith config moves).IsChain Smooth
  unclamped : ∀ p ∈ profile arith config moves, ∀ t m,
    timedMove arith t p.1 m p.2 = unclampedMove arith t p.1 m p.2

theorem speedPlans_head (kmoves : List (KMove K)) :
    ∀ p ∈ (kmoves.zip (speedPlans kmoves).1).head?, p.2.startV2 = (speedPlans kmoves).2 := by
  cases kmoves with
  | nil => simp
  | cons km kmoves =>
    rintro p ⟨⟩
    rfl

variable [IsStrictOrderedRing K] {arith : Arithmetic K}

/-- The speed handed backwards is one that the first of the moves may start at. -/
theorem speedPlans_start (kmoves : List (KMove K)) (hsound : ∀ km ∈ kmoves, km.Sound) :
    0 ≤ (speedPlans kmoves).2 ∧ ∀ km ∈ kmoves.head?, (speedPlans kmoves).2 ≤ km.maxStartV2 := by
  induction kmoves with
  | nil => simp [speedPlans]
  | cons km kmoves ih =>
    obtain ⟨hkm, hrest⟩ := List.forall_mem_cons.mp hsound
    have hnext := (ih hrest).1
    have hdelta := hkm.deltaV2_pos
    constructor
    · exact le_min hkm.maxStartV2 (by linarith)
    · rintro k ⟨⟩
      exact min_le_left _ _

theorem speedPlans_feasible (kmoves : List (KMove K)) (hsound : ∀ km ∈ kmoves, km.Sound)
    (hjoined : kmoves.IsChain Joined) :
    (∀ p ∈ kmoves.zip (speedPlans kmoves).1, Feasible p.1 p.2) ∧
      (kmoves.zip (speedPlans kmoves).1).IsChain Smooth ∧
      ∀ p ∈ (kmoves.zip (speedPlans kmoves).1).getLast?, p.2.endV2 = 0 := by
  induction kmoves with
  | nil => simp
  | cons km kmoves ih =>
    obtain ⟨hkm, hrest⟩ := List.forall_mem_cons.mp hsound
    obtain ⟨hnext, hchain⟩ := List.isChain_cons.mp hjoined
    obtain ⟨hall, hsmooth, hlast⟩ := ih hrest hchain
    obtain ⟨hzero, hstart⟩ := speedPlans_start kmoves hrest
    have hhead := speedPlans_head kmoves
    have hdelta := hkm.deltaV2_pos
    have hbounds : (speedPlans kmoves).2 ≤ km.maxCruiseV2 ∧
        (speedPlans kmoves).2 ≤ km.maxStartV2 + km.deltaV2 := by
      cases kmoves with
      | nil => exact ⟨hkm.maxCruiseV2.le, add_nonneg hkm.maxStartV2 hdelta.le⟩
      | cons next rest =>
        have hcap := hstart next rfl
        have hjoin := hnext next rfl
        exact ⟨hcap.trans hjoin.cruise, hcap.trans hjoin.reach⟩
    have hfirst := feasible_step hkm hzero hbounds.1 hbounds.2
    refine ⟨List.forall_mem_cons.mpr ⟨hfirst, hall⟩, List.isChain_cons.mpr ⟨?_, hsmooth⟩, ?_⟩
    · intro q hq
      refine ⟨(hhead q hq).symm, fun hextrude => ?_⟩
      cases kmoves with
      | nil => cases hq
      | cons next rest =>
        cases hq
        have hcap := hstart next rfl
        rw [(hnext next rfl).stops hextrude.symm] at hcap
        exact le_antisymm hcap hzero
    · cases kmoves with
      | nil =>
        rintro p ⟨⟩
        rfl
      | cons next rest => exact hlast

theorem exactSqrt_reals : ExactSqrt reals where
  nonneg := Real.sqrt_nonneg
  square _ hx := Real.mul_self_sqrt hx

end Profile

end DeadReckoning.Gcode
