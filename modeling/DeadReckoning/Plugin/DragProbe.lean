import DeadReckoning.Plugin.Machine
import Mathlib.Algebra.Order.Floor.Semiring

/-! The drag probe: passes at a fixed height, one step further down after each clean one. What the
console is told on the way is left out. -/
namespace DeadReckoning.Plugin

open Checks

section Constants

variable {K : Type} [Field K]

def defaultPassLength : K := 8

def minPassLength : K := 2

def maxPassLength : K := 20

def clearanceSteps : K := 2

def floorReserveSteps : K := 1

def liftSpeed : K := 5

def coverageGraceSeconds : K := 15 / 100

def implausibleMinRatio : K := 1 / 2

def defaultMaxSeconds : K := 120

def minMaxSeconds : K := 30

def maxMaxSeconds : K := 600

def defaultStallPasses : ℤ := 8

def minStallPasses : ℤ := 2

def maxStallPasses : ℤ := 200

def stallRatioEps : K := 5 / 100

def stallMinDescentSteps : K := 8

/-- What the stall test forgives of the descent. -/
def stallDescentSlack : K := 1 / 1000000000

def tempBandC : K := 15

def tempWidenPerC : K := 2 / 100

def tempWidenCap : K := 1 / 2

end Constants

section Arguments

variable (K : Type)

structure DragArgs where
  chip : Option String
  speed : Arg K
  zStep : Arg K
  sensitivity : Arg K
  passLength : Arg K
  maxSeconds : Arg K
  stallPasses : Arg ℤ

structure DragParams where
  chipName : String
  speed : K
  zStep : K
  sensitivity : K
  passLength : K
  maxSeconds : K
  stallPasses : ℤ

/-- What the gates find out for the staircase. -/
structure DragSetup where
  params : DragParams K
  noiseFloor : K
  zPositionMin : K

structure PassCapture where
  samples : List (Sample K)
  motionStart : K
  motionEnd : K

end Arguments

section Gates

variable {K : Type} [Field K] [LinearOrder K] (plugin : PlrPlugin K) (world : World K)

def dragParams (args : DragArgs K) : Except (Raised K) (DragParams K) := do
  let chipName := args.chip.getD plugin.accelChipName
  let speed ← getNumber "SPEED" ⟨none, some 100, some 0⟩ plugin.dragSpeed args.speed
  let zStep ← getNumber "Z_STEP" ⟨none, some (2 / 10), some 0⟩ plugin.dragZStep args.zStep
  let sensitivity ←
    getNumber "SENSITIVITY" ⟨some 0, some 100, none⟩ plugin.dragSensitivity args.sensitivity
  let passLength ← getNumber "PASS_LENGTH" ⟨some minPassLength, some maxPassLength, none⟩
    defaultPassLength args.passLength
  let maxSeconds ← getNumber "MAX_SECONDS" ⟨some minMaxSeconds, some maxMaxSeconds, none⟩
    defaultMaxSeconds args.maxSeconds
  let stallPasses ← getNumber "STALL_PASSES" ⟨some minStallPasses, some maxStallPasses, none⟩
    defaultStallPasses args.stallPasses
  return ⟨chipName, speed, zStep, sensitivity, passLength, maxSeconds, stallPasses⟩

def resolveAccelChip (chipName : String) : Except (Raised K) Unit :=
  if chipName = "" then .error (.command (.noChip plugin.accelChips))
  else match world.chip chipName with
    | none => .error (.command (.chipNotFound chipName plugin.accelChips))
    | some false => .error (.command (.notAccelerometer chipName))
    | some true => .ok ()

def requireNoiseFloor : Except (Raised K) K :=
  match plugin.noiseFloorRms with
  | some rms => .ok rms
  | none => .error (.command (match plugin.staleNoiseFloor with
      | some text => .staleNoiseFloor text
      | none => .noNoiseFloor))

def dragGates (args : DragArgs K) : Command K (DragSetup K) := do
  let params ← Prog.lift (dragParams plugin args)
  motionGates plugin world "PLR_DRAG_PROBE"
  Prog.lift (resolveAccelChip plugin world params.chipName)
  let noiseFloor ← Prog.lift (requireNoiseFloor plugin)
  let zPositionMin ← Prog.lift (required (.command .noZFloor) plugin.zPositionMin)
  return ⟨params, noiseFloor, zPositionMin⟩

/-- A refusal of the gates is published; other exceptions pass. -/
def publishRefusal (error : Raised K) : Command K (DragSetup K) := do
  match error with
  | .command message =>
      Prog.update fun m => { m with lastDragResult := none, lastDragError := some message }
      Prog.stop (.command message)
  | error => Prog.stop error

end Gates

section Passes

variable {K : Type} [Field K] [LinearOrder K]

def iterationBound [FloorSemiring K] (startZ floorZ zStep : K) : Except (Raised K) ℕ :=
  if zStep ≤ 0 ∨ startZ ≤ floorZ then .error (.noEnvelope startZ floorZ)
  else .ok ⌈(startZ - floorZ) / zStep⌉₊

def tempWidenFactor (stagedTemp currentTemp : K) : K :=
  let deviation := |currentTemp - stagedTemp|
  if deviation ≤ tempBandC then 0
  else min tempWidenCap (tempWidenPerC * (deviation - tempBandC))

def widen (plugin : PlrPlugin K) (world : World K) : K :=
  match plugin.noiseFloorTemp, plugin.hasNoiseFloorTempSensor, world.temperature with
  | some staged, true, some current => tempWidenFactor staged current
  | _, _, _ => 0

def checkCoverage (capture : PassCapture K) (grace : K) :
    Except (Raised K) (Option (CoverageGap K)) := do
  let first ← required .indexError capture.samples.head?
  let last ← required .indexError capture.samples.getLast?
  if capture.motionStart + grace < first.t then
    return some (.startsLate (first.t - capture.motionStart))
  else if last.t < capture.motionEnd - grace then
    return some (.endsEarly (capture.motionEnd - last.t))
  else return none

/-- What the pass came to; a gap counts after the other defects and before contact. -/
def outcomeOf (power : Power K) (noiseFloor sensitivity : K) :
    Option (PassCapture K) → Except (Raised K) (Outcome K)
  | none => .ok .noData
  | some capture => do
      match ← (classifyPass power capture.samples noiseFloor sensitivity).mapError .classifier with
      | .invalid invalid => return .invalid invalid
      | .verdict verdict =>
          match ← checkCoverage capture coverageGraceSeconds with
          | some gap => return .uncovered gap
          | none => return if verdict.contact then .contact verdict else .clean verdict

variable (world : World K)

def startInternalClient (site : Site) : Command K Unit := do
  world.call site
  Prog.update fun m => { m with captures := m.captures + 1 }

/-- The capture is asked to stop, also when the wait for it raises. -/
def finishMeasurements (site : Site) : Command K Unit := do
  Prog.update fun m => { m with captures := m.captures - 1 }
  world.call site

def runCapturePass (k : ℕ) (center : Position K) (passLength speed : K) :
    Command K (Option (PassCapture K)) := do
  let seg := passLength / 4
  world.call ⟨k, .waitBefore⟩
  world.call ⟨k, .dwell⟩
  startInternalClient world ⟨k, .startClient⟩
  world.call ⟨k, .motionStart⟩
  Prog.ensuring (do
    world.manualMove ⟨k, .moveOut⟩ (some (center.x + seg)) (some center.y) none speed
    world.manualMove ⟨k, .moveAcross⟩ (some (center.x - seg)) (some center.y) none speed
    world.manualMove ⟨k, .moveBack⟩ (some center.x) (some center.y) none speed)
    (finishMeasurements world ⟨k, .finish⟩)
  world.call ⟨k, .hasValidSamples⟩
  if !world.hasValidSamples k then return none
  else do
    world.call ⟨k, .motionEnd⟩
    world.call ⟨k, .getSamples⟩
    return some ⟨world.samples k, world.motionStart k, world.motionEnd k⟩

def restoreZ (k : ℕ) (startZ : K) : Command K Unit := do
  world.call ⟨k, .restorePosition⟩
  let m ← Prog.state
  if m.position.z < startZ then
    world.manualMove ⟨k, .restoreLift⟩ none none (some startZ) liftSpeed
  world.call ⟨k, .restoreWait⟩

def fail {α : Type} (error : DragError K) : Command K α := do
  Prog.update fun m =>
    { m with lastDragResult := none, lastDragError := some (.drag error) }
  Prog.stop (.command (.drag error))

/-- Back to the height of the start, and no result. -/
def abort {α : Type} (k : ℕ) (startZ : K) (error : DragError K) : Command K α := do
  restoreZ world k startZ
  fail error

end Passes

section Staircase

variable (K : Type)

/-- What stays the same along the staircase. -/
structure Descent where
  params : DragParams K
  center : Position K
  floorZ : K
  noiseFloor : K
  descendSpeed : K

/-- The variables of the loop. -/
structure Locals where
  z : K
  lastCleanZ : Option K
  passesRun : ℕ
  cleanRatios : List K
  stallRun : ℕ
  stallRunStartZ : K

structure Contact where
  verdict : PassVerdict K
  lastCleanZ : K

variable {K}
variable [Field K] [LinearOrder K]

/-- The last three ratios, when they fall from one that was substantial. -/
def receding (cleanRatios : List K) : Option (K × K × K) :=
  match cleanRatios.reverse with
  | r2 :: r1 :: r0 :: _ =>
      if implausibleMinRatio ≤ r0 ∧ r1 < r0 ∧ r2 < r1 then some (r0, r1, r2) else none
  | _ => none

/-- The ratio moved by little since the pass before. -/
def isFlat (cleanRatios : List K) : Bool :=
  match cleanRatios.reverse with
  | r1 :: r0 :: _ => |r1 - r0| < stallRatioEps
  | _ => false

def Locals.seenClean (l : Locals K) (ratio : K) : Locals K :=
  { l with lastCleanZ := some l.z, cleanRatios := l.cleanRatios ++ [ratio] }

/-- The run of flat passes goes on or starts again here. -/
def Locals.countFlat (l : Locals K) : Locals K :=
  if isFlat l.cleanRatios then { l with stallRun := l.stallRun + 1 }
  else { l with stallRun := 1, stallRunStartZ := l.z }

/-- The ratio that ends a run of flat passes without an approach. -/
def Locals.stalled (params : DragParams K) (l : Locals K) : Except (Raised K) (Option K) := do
  let latest ← required .indexError l.cleanRatios.getLast?
  let first ← required .indexError (l.cleanRatios.reverse[l.stallRun - 1]?)
  let descended := l.stallRunStartZ - l.z
  let noUpward : Bool := latest ≤ first + stallRatioEps
  if params.stallPasses ≤ l.stallRun ∧
      stallMinDescentSteps * params.zStep - stallDescentSlack ≤ descended ∧ noUpward then
    return some latest
  else return none

variable (power : Power K) (sqrt : K → K) (world : World K) (d : Descent K)

/-- From the clean pass that was just made; the flag says whether there may be another. -/
def afterClean (l : Locals K) (verdict : PassVerdict K) : Command K (Locals K) := do
  let k := l.passesRun - 1
  let startZ := d.center.z
  let l := l.seenClean (sqrt verdict.ratioSquare)
  match receding l.cleanRatios with
  | some (r0, r1, r2) => abort world k startZ (.implausibleSignal l.z r0 r1 r2 startZ)
  | none => do
      let l := l.countFlat
      match ← Prog.lift (l.stalled d.params) with
      | some ratio =>
          abort world k startZ
            (.stalled l.z l.stallRun ratio (l.stallRunStartZ - l.z) startZ)
      | none => return l

/-- At most `room` passes more. -/
def staircase : ℕ → Locals K → Command K (Locals K × Option (Contact K))
  | 0, l => return (l, none)
  | room + 1, l => do
      let k := l.passesRun
      let startZ := d.center.z
      if d.params.maxSeconds < world.monotonic k - world.budgetStart then
        abort world k startZ (.timeBudget d.params.maxSeconds l.passesRun l.z startZ)
      else do
        let capture ← runCapturePass world k d.center d.params.passLength d.params.speed
        let l := { l with passesRun := k + 1 }
        let outcome ← Prog.lift (outcomeOf power d.noiseFloor d.params.sensitivity capture)
        Prog.update fun m => m.note (.passed m.position.z outcome)
        match outcome with
        | .noData => abort world k startZ (.noData l.z l.passesRun startZ)
        | .invalid invalid => abort world k startZ (.invalidPass l.z invalid startZ)
        | .uncovered gap => abort world k startZ (.uncovered l.z gap startZ)
        | .contact verdict =>
            match l.lastCleanZ with
            | none => fail (.firstContact startZ)
            | some lastCleanZ => return (l, some ⟨verdict, lastCleanZ⟩)
        | .clean verdict => do
            let l ← afterClean sqrt world d l verdict
            let nextZ := l.z - d.params.zStep
            if room = 0 then return (l, none)
            else if nextZ < d.floorZ then return (l, none)
            else do
              world.manualMove ⟨k, .descend⟩ none none (some nextZ) d.descendSpeed
              staircase room { l with z := nextZ }

end Staircase

section Command

variable {K : Type} [Field K] [LinearOrder K] [FloorSemiring K] (power : Power K) (sqrt : K → K)
  (plugin : PlrPlugin K) (world : World K)

/-- Up from the contact, but no further than the start. -/
def clearContact (d : Descent K) (l : Locals K) (contact : Contact K) : Command K Unit := do
  let k := l.passesRun - 1
  let clearanceZ := min d.center.z (l.z + clearanceSteps * d.params.zStep)
  if l.z < clearanceZ then
    world.manualMove ⟨k, .clearLift⟩ none none (some clearanceZ) liftSpeed
  world.call ⟨k, .clearWait⟩
  Prog.update fun m => { m with
    lastDragResult := some ⟨contact.lastCleanZ, l.passesRun, contact.verdict.confidence⟩
    lastDragError := none }

def descentFrom (setup : DragSetup K) (center : Position K) : Descent K where
  params := setup.params
  center := center
  floorZ := setup.zPositionMin + floorReserveSteps * setup.params.zStep
  noiseFloor := setup.noiseFloor * (1 + widen plugin world)
  descendSpeed := plugin.probeSpeed

/-- The probe once its gates have passed. -/
def probeDown (zPositionMin : K) (d : Descent K) : Command K Unit := do
  let startZ := d.center.z
  if startZ ≤ d.floorZ then fail (.belowFloor startZ d.floorZ zPositionMin)
  else do
    let bound ← Prog.lift (iterationBound startZ d.floorZ d.params.zStep)
    let _mult ← Prog.lift ((multiplier power d.params.sensitivity).mapError .classifier)
    let (l, contact) ← staircase power sqrt world d bound ⟨startZ, none, 0, [], 0, startZ⟩
    match contact with
    | none => abort world (l.passesRun - 1) startZ (.envelope l.passesRun startZ l.z)
    | some contact => clearContact world d l contact

def cmdPlrDragProbe (args : DragArgs K) : Command K Unit := do
  let setup ← (dragGates plugin world args).onError publishRefusal
  world.call ⟨0, .getPosition⟩
  let m ← Prog.state
  probeDown power sqrt world setup.zPositionMin (descentFrom plugin world setup m.position)

end Command

end DeadReckoning.Plugin
