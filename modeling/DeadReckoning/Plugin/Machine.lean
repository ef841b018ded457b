import DeadReckoning.Lib.Prog
import DeadReckoning.Plugin.Classifier
import DeadReckoning.Plugin.TouchSequence

/-! The machine under the probing commands: what they command it to do, what they publish, and
where klippy's own objects may raise. -/
namespace DeadReckoning.Plugin

section Data

variable (K : Type)

structure Position where
  x : K
  y : K
  z : K

structure TouchParams where
  config : ConsensusConfig K
  speed : K
  retract : K
  touchAccel : K

/-- The part of the motion that a capture does not bracket. -/
inductive CoverageGap where
  | startsLate (late : K)
  | endsEarly (early : K)

/-- What a typed abort of the drag probe shows. -/
inductive DragError where
  | belowFloor (start floor limit : K)
  | timeBudget (maxSeconds : K) (passes : ℕ) (z start : K)
  | noData (z : K) (passes : ℕ) (start : K)
  | invalidPass (z : K) (invalid : PassInvalid K) (start : K)
  | uncovered (z : K) (gap : CoverageGap K) (start : K)
  | firstContact (start : K)
  | implausibleSignal (z r0 r1 r2 start : K)
  | stalled (z : K) (run : ℕ) (ratio descended start : K)
  | envelope (passes : ℕ) (start z : K)

/-- The console errors, with what they show. -/
inductive Message where
  | klippy (text : String)
  | parameter (name : String)
  | printActive (command : String)
  | targetTooHot (command : String) (target ceiling : K)
  | nozzleTooHot (command : String) (current target ceiling : K)
  | notHomed (command : String) (homed : List Char)
  | noChip (found : String)
  | chipNotFound (name found : String)
  | notAccelerometer (name : String)
  | staleNoiseFloor (text : String)
  | noNoiseFloor
  | noZFloor
  | drag (error : DragError K)
  | needsDescendingProbe (command : String)
  | noProbe (sectionName : String)
  | touchConfig (error : ConfigError K)
  | consensusFailed (command : String) (error : ConsensusError K) (params : TouchParams K)

/-- The exceptions, `command` being `gcmd.error`. -/
inductive Raised where
  | command (message : Message K)
  | config (error : ConfigError K)
  | sequence (error : SequenceError K)
  | classifier (error : ClassifierError K)
  | noEnvelope (start floor : K)
  | indexError
  | other (name : String)

/-- The exceptions that klippy's own objects raise. -/
inductive Fault where
  | command (text : String)
  | other (name : String)

def Fault.raised {K : Type} : Fault → Raised K
  | .command text => .command (.klippy text)
  | .other name => .other name

/-- The calls into klippy's objects that may raise. -/
inductive Call where
  -- gates
  | printState
  | nozzle
  | homed
  -- a drag pass
  | getPosition
  | waitBefore
  | dwell
  | startClient
  | motionStart
  | moveOut
  | moveAcross
  | moveBack
  | finish
  | hasValidSamples
  | motionEnd
  | getSamples
  | restorePosition
  | restoreLift
  | restoreWait
  | descend
  | clearLift
  | clearWait
  -- a touch
  | probeParams
  | startPosition
  | startSession
  | armPosition
  | armMove
  | armWait
  | maxAccel
  | runProbe
  | pullResults
  | retractMove
  | finalWait
  | endSession
  deriving DecidableEq

/-- The calls in front of the first motion, whose refusals are published. -/
def Call.isGate : Call → Bool
  | .printState | .nozzle | .homed => true
  | _ => false

/-- A call, in the given pass or touch. -/
structure Site where
  round : ℕ
  call : Call
  deriving DecidableEq

/-- What a drag pass came to. -/
inductive Outcome where
  | noData
  | invalid (invalid : PassInvalid K)
  | uncovered (gap : CoverageGap K)
  | contact (verdict : PassVerdict K)
  | clean (verdict : PassVerdict K)

/-- The heights that are commanded, and the passes. -/
inductive DragEvent where
  | commanded (previous z speed : K)
  | passed (z : K) (outcome : Outcome K)

structure DragResult where
  triggerZ : K
  passes : ℕ
  confidence : K

structure TouchResult where
  medianZ : K
  range : WithTop K
  samplesUsed : ℤ
  touches : ℕ

structure Machine where
  position : Position K
  maxAccel : K
  /-- The probe sessions that are open. -/
  sessions : ℕ
  /-- The captures that have not been asked to stop. -/
  captures : ℕ
  lastTouchResult : Option (TouchResult K)
  lastDragResult : Option (DragResult K)
  lastDragError : Option (Message K)
  faults : List (Site × Fault)
  trace : List (DragEvent K)

/-- What klippy's objects answer during one invocation. -/
structure World where
  raises : Site → Option Fault
  /-- A move that raises may still have been made. -/
  moved : Site → Bool
  printStats : Option String
  idleTimeout : Option String
  /-- The temperature and the target of the active extruder. -/
  nozzle : Option (Option K × Option K)
  homedAxes : List Char
  /-- Whether the named object is an accelerometer. -/
  chip : String → Option Bool
  /-- The reading of the sensor that widens the threshold. -/
  temperature : Option K
  budgetStart : K
  monotonic : ℕ → K
  hasValidSamples : ℕ → Bool
  samples : ℕ → List (Sample K)
  motionStart : ℕ → K
  motionEnd : ℕ → K
  hasProbe : Bool
  liftSpeed : K
  halt : ℕ → K
  bedZ : ℕ → K

/-- The options and calibrations of the plugin; those that are bounded were checked on loading. -/
structure PlrPlugin [Field K] [LinearOrder K] where
  adxlDrag : Bool
  tap : Bool
  accelChipName : String
  accelChips : String
  probeSpeed : K
  dragSpeed : K
  dragZStep : K
  dragSensitivity : K
  maxProbeNozzleTemp : K
  noiseFloorRms : Option K
  staleNoiseFloor : Option String
  noiseFloorTemp : Option K
  hasNoiseFloorTempSensor : Bool
  zPositionMin : Option K
  dragZStep_pos : 0 < dragZStep
  dragSensitivity_bounds : 0 ≤ dragSensitivity ∧ dragSensitivity ≤ 100
  noiseFloorRms_pos : ∀ rms ∈ noiseFloorRms, 0 < rms

end Data

section Parameters

/-- A parameter of a command. -/
inductive Arg (α : Type) where
  | absent
  | unreadable
  | given (value : α)

/-- The bounds that klippy checks of a given value. -/
structure Bounds (α : Type) where
  minval : Option α
  maxval : Option α
  above : Option α

def Bounds.allow {α : Type} [LinearOrder α] (bounds : Bounds α) (value : α) : Bool :=
  bounds.minval.all (· ≤ value) && bounds.maxval.all (value ≤ ·) && bounds.above.all (· < value)

/-- The default is not checked. -/
def getNumber {K α : Type} [LinearOrder α] (name : String) (bounds : Bounds α) (default_ : α) :
    Arg α → Except (Raised K) α
  | .absent => .ok default_
  | .unreadable => .error (.command (.parameter name))
  | .given value =>
      if bounds.allow value then .ok value else .error (.command (.parameter name))

end Parameters

abbrev Command (K : Type) : Type → Type := Prog (Machine K) (Raised K)

section Primitives

variable {K : Type}

def Machine.faulted (m : Machine K) (site : Site) (fault : Fault) : Machine K :=
  { m with faults := m.faults ++ [(site, fault)] }

def Machine.note (m : Machine K) (event : DragEvent K) : Machine K :=
  { m with trace := m.trace ++ [event] }

variable (world : World K)

def World.call (site : Site) : Command K Unit := fun m =>
  match world.raises site with
  | none => (.ok (), m)
  | some fault => (.error fault.raised, m.faulted site fault)

/-- A coordinate that is not given stays as it is. -/
def World.manualMove (site : Site) (x y z : Option K) (speed : K) : Command K Unit := fun m =>
  let target : Position K :=
    ⟨x.getD m.position.x, y.getD m.position.y, z.getD m.position.z⟩
  let issued := match z with
    | none => m
    | some z => m.note (.commanded m.position.z z speed)
  match world.raises site with
  | none => (.ok (), { issued with position := target })
  | some fault =>
      let left := if world.moved site then { issued with position := target } else issued
      (.error fault.raised, left.faulted site fault)

end Primitives

section Gates

variable {K : Type} [Field K] [LinearOrder K]

def maxTouchTemperatureEpsilon : K := 2

variable (plugin : PlrPlugin K) (world : World K) (command : String)

def World.printActive : Bool :=
  match world.printStats, world.idleTimeout with
  | some state, _ => state == "printing" || state == "paused"
  | none, some state => state == "Printing"
  | none, none => false

/-- A field that is not reported is read as zero; with neither there is nothing to compare. -/
def nozzleTemperatures : Option (K × K) :=
  match world.nozzle with
  | none | some (none, none) => none
  | some (current, target) => some (current.getD 0, target.getD 0)

def nozzleTooHotMessage : Option (Message K) :=
  match nozzleTemperatures world with
  | none => none
  | some (current, target) =>
      let ceiling := plugin.maxProbeNozzleTemp
      let measuredTooHot : Bool := ceiling + maxTouchTemperatureEpsilon < current
      let targetTooHot : Bool := ceiling < target
      if !measuredTooHot && !targetTooHot then none
      else if targetTooHot && !measuredTooHot then some (.targetTooHot command target ceiling)
      else some (.nozzleTooHot command current target ceiling)

def requireNozzleCool : Command K Unit := do
  world.call ⟨0, .nozzle⟩
  match nozzleTooHotMessage plugin world command with
  | none => return
  | some message => Prog.stop (.command message)

/-- The gates that the commands share: no print, a cool nozzle, all axes homed. -/
def motionGates : Command K Unit := do
  world.call ⟨0, .printState⟩
  if world.printActive then Prog.stop (.command (.printActive command))
  else do
    requireNozzleCool plugin world command
    world.call ⟨0, .homed⟩
    if ['x', 'y', 'z'].any (· ∉ world.homedAxes) then
      Prog.stop (.command (.notHomed command world.homedAxes))
    else return

end Gates

section GateRules

open Prog

variable {K : Type} {world : World K} {b : Machine K} {ready ready' : Prop}

/-- A gate has refused what was not ready, or klippy has raised in one; nothing has moved. -/
inductive GateStopped (b : Machine K) (ready : Prop) : Raised K → Machine K → Prop where
  | refused (message : Message K) (hmessage : ∀ error, message ≠ .drag error) (hnot : ¬ready) :
      GateStopped b ready (.command message) b
  | faulted (call : Call) (fault : Fault) (hgate : call.isGate = true) :
      GateStopped b ready fault.raised (b.faulted ⟨0, call⟩ fault)

theorem GateStopped.mono {error : Raised K} {m : Machine K} (h : GateStopped b ready error m)
    (himp : ready' → ready) : GateStopped b ready' error m := by
  cases h with
  | refused message hmessage hnot => exact .refused message hmessage fun h => hnot (himp h)
  | faulted call fault hgate => exact .faulted call fault hgate

theorem gateCall_rule {call : Call} (hgate : call.isGate = true) :
    Triple (· = b) (world.call ⟨0, call⟩) (fun _ => (· = b)) (GateStopped b ready) := by
  rintro m rfl
  unfold World.call
  cases world.raises ⟨0, call⟩ with
  | none => rfl
  | some fault => exact .faulted call fault hgate

theorem gateStop_rule {α : Type} {Q : α → Machine K → Prop} {message : Message K}
    (hmessage : ∀ error, message ≠ .drag error) (hnot : ¬ready) :
    Triple (· = b) (Prog.stop (.command message) : Command K α) Q (GateStopped b ready) :=
  Triple.stop _ fun _ hm => hm ▸ .refused message hmessage hnot

theorem gateLift_rule {α : Type} (x : Except (Raised K) α)
    (herror : ∀ error, x = .error error →
      (∃ message, error = .command message ∧ ∀ error, message ≠ .drag error) ∧ ¬ready) :
    Triple (· = b) (Prog.lift x) (fun a m => m = b ∧ x = .ok a) (GateStopped b ready) := by
  refine Triple.lift (fun a ha m hm => ⟨hm, ha⟩) fun error he m hm => ?_
  obtain ⟨⟨message, rfl, hmessage⟩, hnot⟩ := herror error he
  exact hm ▸ .refused message hmessage hnot

variable [Field K] [LinearOrder K]

/-- What the shared gates ask of the machine. -/
structure MotionReady (plugin : PlrPlugin K) (world : World K) (command : String) : Prop where
  idle : world.printActive = false
  cool : nozzleTooHotMessage plugin world command = none
  homed : ∀ axis ∈ ['x', 'y', 'z'], axis ∈ world.homedAxes

theorem requireNozzleCool_rule (plugin : PlrPlugin K) (world : World K) (command : String) :
    Triple (· = b) (requireNozzleCool plugin world command)
      (fun _ m => m = b ∧ nozzleTooHotMessage plugin world command = none)
      (GateStopped b (MotionReady plugin world command)) := by
  unfold requireNozzleCool
  refine Triple.bind (gateCall_rule rfl) fun _ => ?_
  split
  · rename_i hcool
    exact Triple.pure () fun _ hm => ⟨hm, hcool⟩
  · rename_i message hmessage
    refine gateStop_rule (fun error herror => ?_) fun h => ?_
    · rw [herror] at hmessage
      unfold nozzleTooHotMessage at hmessage
      split at hmessage
      · cases hmessage
      · dsimp only at hmessage
        split_ifs at hmessage <;> cases hmessage
    · rw [h.cool] at hmessage
      cases hmessage

theorem motionGates_rule (plugin : PlrPlugin K) (world : World K) (command : String) :
    Triple (· = b) (motionGates plugin world command)
      (fun _ m => m = b ∧ MotionReady plugin world command)
      (GateStopped b (MotionReady plugin world command)) := by
  unfold motionGates
  refine Triple.bind (gateCall_rule rfl) fun _ => ?_
  split
  · rename_i hactive
    refine gateStop_rule nofun fun h => ?_
    rw [h.idle] at hactive
    cases hactive
  · rename_i hidle
    refine Triple.bind (requireNozzleCool_rule plugin world command) fun _ => ?_
    refine Triple.of_and_right fun hcool => ?_
    refine Triple.bind (gateCall_rule rfl) fun _ => ?_
    split
    · rename_i hhomed
      refine gateStop_rule nofun fun h => ?_
      obtain ⟨axis, haxis, hnot⟩ := List.any_eq_true.mp hhomed
      exact of_decide_eq_true hnot (h.homed axis haxis)
    · rename_i hhomed
      rw [Bool.not_eq_true, List.any_eq_false] at hhomed
      refine Triple.pure () fun m hm => ⟨hm, Bool.not_eq_true _ ▸ hidle, hcool, fun axis haxis => ?_⟩
      simpa using hhomed axis haxis

end GateRules

end DeadReckoning.Plugin
