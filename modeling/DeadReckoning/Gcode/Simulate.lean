import DeadReckoning.Gcode.Lines
import Mathlib.Algebra.Order.Field.Basic

/-! The simulation of the lines ahead: which of them fit into a span of time, the motion they plan,
and the heights they touch. -/
namespace DeadReckoning.Gcode

section Moves

variable {K : Type} [Field K] [LinearOrder K]

namespace PlannedMove

def axesDelta (m : PlannedMove K) : Axes K :=
  ⟨m.stop.x - m.start.x, m.stop.y - m.start.y, m.stop.z - m.start.z, m.stop.e - m.start.e⟩

def xyzDistance (arith : Arithmetic K) (m : PlannedMove K) : K :=
  let d := m.axesDelta
  arith.sqrt (d.x * d.x + d.y * d.y + d.z * d.z)

/-- The travel is too short to be one. -/
def isExtrudeOnly (arith : Arithmetic K) (m : PlannedMove K) : Bool :=
  m.xyzDistance arith < GcodeState.minKinematicMove

def kinematicDistance (arith : Arithmetic K) (m : PlannedMove K) : K :=
  if m.isExtrudeOnly arith then |m.stop.e - m.start.e| else m.xyzDistance arith

/-- Where the move ends; one that only extrudes stays in place. -/
def kinematicEnd (arith : Arithmetic K) (m : PlannedMove K) : Axes K :=
  if m.isExtrudeOnly arith then { m.start with e := m.stop.e } else m.stop

def extrudes (m : PlannedMove K) : Bool := 0 < m.stop.e - m.start.e

end PlannedMove

structure SimConfig (K : Type) where
  maxVelocity : K
  maxAccel : K
  squareCornerVelocity : K
  maxDuration : Option K
  maxLines : Option ℕ

inductive StopReason (K : Type) where
  | endOfInput
  | durationReached
  | lineBudget
  | eventBudget
  | lineError (offset : ℕ) (error : StateError K)

/-- The least time that a move takes. -/
def minMoveTime (arith : Arithmetic K) (config : SimConfig K) (m : PlannedMove K) : K :=
  let v := if m.isExtrudeOnly arith then m.speed else min m.speed config.maxVelocity
  if 0 < v then m.kinematicDistance arith / v else 0

end Moves

section Timing

variable {K : Type} [Field K] [LinearOrder K]

/-- A move with its trapezoid. -/
structure TimedMove (K : Type) where
  planned : PlannedMove K
  startTime : K
  startV : K
  cruiseV : K
  endV : K
  accelT : K
  cruiseT : K
  decelT : K

def TimedMove.duration (m : TimedMove K) : K := m.accelT + m.cruiseT + m.decelT

/-- The kinematics of a move. -/
structure KMove (K : Type) where
  moveD : K
  axesR : Point K
  accel : K
  junctionDeviation : K
  maxCruiseV2 : K
  deltaV2 : K
  maxStartV2 : K
  isKinematic : Bool

/-- The acceleration of a move that only extrudes. -/
def extrudeOnlyAccel : K := ((999999999 : ℕ) : K) / ((10 : ℕ) : K)

def nextJunctionV2 : K := ((9999999999 : ℕ) : K) / ((10 : ℕ) : K)

namespace KMove

def new (arith : Arithmetic K) (config : SimConfig K) (m : PlannedMove K) : KMove K :=
  let d := m.axesDelta
  let travel := m.xyzDistance arith
  let (moveD, axesR, accel, velocity, isKinematic) : K × Point K × K × K × Bool :=
    if travel < GcodeState.minKinematicMove then
      (|d.e|, ⟨0, 0, 0⟩, extrudeOnlyAccel, m.speed, false)
    else
      let inv := 1 / travel
      (travel, ⟨d.x * inv, d.y * inv, d.z * inv⟩, m.accelOverride.getD config.maxAccel,
        min m.speed config.maxVelocity, true)
  let scv2 := config.squareCornerVelocity * config.squareCornerVelocity
  { moveD := moveD
    axesR := axesR
    accel := accel
    junctionDeviation := scv2 * (arith.sqrt ((2 : ℕ) : K) - 1) / accel
    maxCruiseV2 := velocity * velocity
    deltaV2 := 2 * moveD * accel
    maxStartV2 := 0
    isKinematic := isKinematic }

/-- The speed at which a move may begin behind another one. -/
def calcJunction (arith : Arithmetic K) (km prev : KMove K) : KMove K :=
  if !km.isKinematic || !prev.isKinematic then km
  else
    let maxStartV2 := min (min (min km.maxCruiseV2 prev.maxCruiseV2) nextJunctionV2)
      (prev.maxStartV2 + prev.deltaV2)
    let junctionCosTheta := -(km.axesR.x * prev.axesR.x + km.axesR.y * prev.axesR.y +
      km.axesR.z * prev.axesR.z)
    let sinThetaD2 := arith.sqrt (max (1 / 2 * (1 - junctionCosTheta)) 0)
    let cosThetaD2 := arith.sqrt (max (1 / 2 * (1 + junctionCosTheta)) 0)
    let oneMinusSinThetaD2 := 1 - sinThetaD2
    if 0 < oneMinusSinThetaD2 ∧ 0 < cosThetaD2 then
      let rJd := sinThetaD2 / oneMinusSinThetaD2
      let moveJdV2 := rJd * km.junctionDeviation * km.accel
      let pmoveJdV2 := rJd * prev.junctionDeviation * prev.accel
      let quarterTanThetaD2 := 1 / 4 * sinThetaD2 / cosThetaD2
      let moveCentripetalV2 := km.deltaV2 * quarterTanThetaD2
      let pmoveCentripetalV2 := prev.deltaV2 * quarterTanThetaD2
      { km with
        maxStartV2 := min (min (min (min maxStartV2 moveJdV2) pmoveJdV2) moveCentripetalV2)
          pmoveCentripetalV2 }
    else { km with maxStartV2 := maxStartV2 }

end KMove

/-- The kinematics of the moves, each with its junction to the one before. -/
def kinematics (arith : Arithmetic K) (config : SimConfig K) :
    Option (KMove K) → List (PlannedMove K) → List (KMove K)
  | _, [] => []
  | prev, m :: moves =>
      let km := KMove.new arith config m
      let km := match prev with
        | none => km
        | some prev => km.calcJunction arith prev
      km :: kinematics arith config (some km) moves

/-- The squared speeds of a move: at its start, in its cruise and at its end. -/
structure SpeedPlan (K : Type) where
  startV2 : K
  cruiseV2 : K
  endV2 : K

/-- The squared speeds, from the stop behind the last move backwards; returns also the speed at
which the first one begins. -/
def speedPlans : List (KMove K) → List (SpeedPlan K) × K
  | [] => ([], 0)
  | km :: kmoves =>
      let (plans, nextStartV2) := speedPlans kmoves
      let reachableStartV2 := nextStartV2 + km.deltaV2
      let startV2 := min km.maxStartV2 reachableStartV2
      let cruiseV2 := min km.maxCruiseV2 ((startV2 + reachableStartV2) * (1 / 2))
      (⟨startV2, cruiseV2, nextStartV2⟩ :: plans, startV2)

def timedMove (arith : Arithmetic K) (t : K) (km : KMove K) (m : PlannedMove K)
    (plan : SpeedPlan K) : TimedMove K :=
  let startV2 := min plan.startV2 plan.cruiseV2
  let endV2 := min plan.endV2 plan.cruiseV2
  let halfInvAccel := 1 / 2 / km.accel
  let accelD := (plan.cruiseV2 - startV2) * halfInvAccel
  let decelD := (plan.cruiseV2 - endV2) * halfInvAccel
  let cruiseD := km.moveD - accelD - decelD
  let startV := arith.sqrt startV2
  let cruiseV := arith.sqrt plan.cruiseV2
  let endV := arith.sqrt endV2
  { planned := m
    startTime := t
    startV := startV
    cruiseV := cruiseV
    endV := endV
    accelT := max (accelD / ((startV + cruiseV) * (1 / 2))) 0
    cruiseT := max (cruiseD / cruiseV) 0
    decelT := max (decelD / ((endV + cruiseV) * (1 / 2))) 0 }

/-- The moves from a time on, and the time behind the last. -/
def timeMoves (arith : Arithmetic K) : K → List (KMove K) → List (PlannedMove K) →
    List (SpeedPlan K) → List (TimedMove K) × K
  | t, km :: kmoves, m :: moves, plan :: plans =>
      let tm := timedMove arith t km m plan
      let (rest, stop) := timeMoves arith (t + tm.duration) kmoves moves plans
      (tm :: rest, stop)
  | t, _, _, _ => ([], t)

def planTimes (arith : Arithmetic K) (config : SimConfig K) (moves : List (PlannedMove K)) :
    List (TimedMove K) × K :=
  let kmoves := kinematics arith config none moves
  timeMoves arith 0 kmoves moves (speedPlans kmoves).1

theorem kinematics_length (arith : Arithmetic K) (config : SimConfig K) (prev : Option (KMove K))
    (moves : List (PlannedMove K)) : (kinematics arith config prev moves).length = moves.length := by
  induction moves generalizing prev with
  | nil => rfl
  | cons m moves ih => exact congrArg (· + 1) (ih _)

theorem speedPlans_length (kmoves : List (KMove K)) :
    (speedPlans kmoves).1.length = kmoves.length := by
  induction kmoves with
  | nil => rfl
  | cons km kmoves ih => exact congrArg (· + 1) ih

end Timing

section Simulation

variable {K : Type} [Field K] [LinearOrder K]

structure Simulation (K : Type) where
  moves : List (TimedMove K)
  stop : StopReason K
  linesConsumed : ℕ
  totalTime : K
  resumeOffset : Option ℕ

/-- The loop of the simulation: the state of the interpreter and what was planned so far. -/
structure SimLoop (K : Type) where
  state : GcodeState K
  planned : List (PlannedMove K)
  linesConsumed : ℕ
  lowerBoundTime : K
  stop : StopReason K
  resumeOffset : Option ℕ

namespace SimLoop

def start (state : GcodeState K) : SimLoop K := ⟨state, [], 0, 0, .endOfInput, none⟩

/-- A line was applied. -/
def consume (arith : Arithmetic K) (config : SimConfig K) (loop : SimLoop K) (line : Line)
    (moves : List (PlannedMove K)) (state : GcodeState K) : SimLoop K :=
  { loop with
    state := state
    planned := loop.planned ++ moves
    linesConsumed := loop.linesConsumed + 1
    lowerBoundTime := moves.foldl (fun t m => t + minMoveTime arith config m) loop.lowerBoundTime
    resumeOffset := some line.span.stop }

def run (arith : Arithmetic K) (config : SimConfig K) : SimLoop K → List Line → SimLoop K
  | loop, [] => loop
  | loop, line :: lines =>
      if config.maxLines.any fun max => max ≤ loop.linesConsumed then
        { loop with stop := .lineBudget }
      else
        match loop.state.apply arith line with
        | (.error error, state) =>
            { loop with state := state, stop := .lineError line.span.start error }
        | (.ok outcome, state) =>
            let loop := loop.consume arith config line outcome.moves state
            if config.maxDuration.any fun max => max ≤ loop.lowerBoundTime then
              { loop with stop := .durationReached }
            else run arith config loop lines

end SimLoop

/-- Simulates the lines; the state it ends in is not needed here. -/
def simulate (arith : Arithmetic K) (config : SimConfig K) (state : GcodeState K)
    (lines : List Line) : Simulation K :=
  let loop := (SimLoop.start state).run arith config lines
  let (moves, totalTime) := planTimes arith config loop.planned
  ⟨moves, loop.stop, loop.linesConsumed, totalTime, loop.resumeOffset⟩

end Simulation

section ZScan

variable {K : Type} [Field K] [LinearOrder K]

structure ZScanConfig where
  maxLines : Option ℕ
  maxEvents : Option ℕ

/-- A move that changes the height. -/
structure ZEvent (K : Type) where
  span : ByteSpan
  zFrom : K
  zTo : K
  extruding : Bool
  zKnown : Bool
  arcSegment : Option ArcSegmentInfo

structure ZScan (K : Type) where
  events : List (ZEvent K)
  stop : StopReason K
  linesConsumed : ℕ

def zEventOf (arith : Arithmetic K) (m : PlannedMove K) : Option (ZEvent K) :=
  let stop := m.kinematicEnd arith
  if stop.z = m.start.z then none
  else
    some
      { span := m.span
        zFrom := m.start.z
        zTo := stop.z
        extruding := m.extrudes
        zKnown := m.startKnown.z && m.stopKnown.z
        arcSegment := m.arcSegment }

/-- Collects the events of some moves; `false` when there is no room for the next one. -/
def collectEvents (config : ZScanConfig) : List (ZEvent K) → List (ZEvent K) → List (ZEvent K) × Bool
  | events, [] => (events, true)
  | events, event :: rest =>
      if config.maxEvents.any fun max => max ≤ events.length then (events, false)
      else collectEvents config (events ++ [event]) rest

def scanZEventsFrom (arith : Arithmetic K) (config : ZScanConfig) :
    GcodeState K → ZScan K → List Line → ZScan K
  | _, scan, [] => scan
  | state, scan, line :: lines =>
      if config.maxLines.any fun max => max ≤ scan.linesConsumed then
        { scan with stop := .lineBudget }
      else
        match state.apply arith line with
        | (.error error, _) => { scan with stop := .lineError line.span.start error }
        | (.ok outcome, state) =>
            let (events, room) :=
              collectEvents config scan.events (outcome.moves.filterMap (zEventOf arith))
            let scan := { scan with events := events, linesConsumed := scan.linesConsumed + 1 }
            if room then scanZEventsFrom arith config state scan lines
            else { scan with stop := .eventBudget }

def scanZEvents (arith : Arithmetic K) (config : ZScanConfig) (state : GcodeState K)
    (lines : List Line) : ZScan K :=
  scanZEventsFrom arith config state ⟨[], .endOfInput, 0⟩ lines

end ZScan

end DeadReckoning.Gcode
