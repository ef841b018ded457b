import DeadReckoning.Plugin.Machine

/-! The touch probe: the sampler drives the machine through one touch after another. What the
console is told on the way is left out. -/
namespace DeadReckoning.Plugin

section Touch

variable (K : Type) [Field K]

structure TouchArgs where
  samples : Arg ℤ
  maxSamples : Arg ℤ
  sampleRange : Arg K
  speed : Arg K
  retract : Arg K
  touchAccel : Arg K

variable {K}

def defaultRetract : K := 2

def minRetract : K := 1

def defaultTouchAccel : K := 100

def minTouchAccel : K := 50

def maxTouchAccel : K := 1000

def defaultMaxNoisy : ℤ := 2

variable [LinearOrder K] (plugin : PlrPlugin K) (world : World K)

/-- The caps that a configuration checks itself are not bounds of the parameters. -/
def parseTouchParams (args : TouchArgs K) (defaultSpeed : K) :
    Except (Raised K) (TouchParams K) := do
  let samples ← getNumber "SAMPLES" ⟨some minSamples, none, none⟩
    (ConsensusConfig.standard (K := K)).samples args.samples
  let maxSamples ← getNumber "MAX_SAMPLES" ⟨some minSamples, none, none⟩
    (ConsensusConfig.standard (K := K)).maxSamples args.maxSamples
  let sampleRange ← getNumber "SAMPLE_RANGE" ⟨none, none, some 0⟩
    (ConsensusConfig.standard (K := K)).sampleRange args.sampleRange
  let speed ← getNumber "SPEED" ⟨none, none, some 0⟩ defaultSpeed args.speed
  let retract ← getNumber "RETRACT" ⟨some minRetract, none, none⟩ defaultRetract args.retract
  let touchAccel ← getNumber "TOUCH_ACCEL" ⟨some minTouchAccel, some maxTouchAccel, none⟩
    defaultTouchAccel args.touchAccel
  let config : ConsensusConfig K := ⟨samples, maxSamples, defaultMaxNoisy, sampleRange⟩
  config.postInit.mapError .config
  return ⟨config, speed, retract, touchAccel⟩

/-- A refused configuration is a console error. -/
def touchParams (args : TouchArgs K) : Except (Raised K) (TouchParams K) :=
  (parseTouchParams args plugin.probeSpeed).mapError fun
    | .config error => .command (.touchConfig error)
    | error => error

def requireTouchReady (command : String) : Command K Unit := do
  if plugin.adxlDrag then Prog.stop (.command (.needsDescendingProbe command))
  else do
    motionGates plugin world command
    if !world.hasProbe then
      Prog.stop (.command (.noProbe (if plugin.tap then "probe" else "load_cell_probe")))
    else return

def setMaxAccel (accel : K) : Command K Unit := Prog.update fun m => { m with maxAccel := accel }

/-- The descent moves the toolhead to where it halts. -/
def runProbe (k : ℕ) : Command K Unit := do
  Prog.update fun m => { m with position := { m.position with z := world.halt k } }
  world.call ⟨k, .runProbe⟩

/-- A touch under the clamped acceleration, which is put back whether it raises or not. -/
def clampedProbe (k : ℕ) (touchAccel : K) : Command K K := do
  world.call ⟨k, .maxAccel⟩
  let m ← Prog.state
  let priorAccel := m.maxAccel
  setMaxAccel touchAccel
  Prog.ensuring (do
    runProbe world k
    world.call ⟨k, .pullResults⟩
    return world.bedZ k)
    (setMaxAccel priorAccel)

/-- A descent never begins from below the standoff. -/
def retractBeforeArm (params : TouchParams K) (start : Position K) (k : ℕ) : Command K Unit := do
  world.call ⟨k, .armPosition⟩
  let m ← Prog.state
  if m.position.z < params.retract then do
    world.manualMove ⟨k, .armMove⟩ (some start.x) (some start.y) (some params.retract)
      world.liftSpeed
    world.call ⟨k, .armWait⟩
  else return

def probeOnce (params : TouchParams K) (start : Position K) (k : ℕ) : Command K K := do
  retractBeforeArm world params start k
  let trigger ← clampedProbe world k params.touchAccel
  let target := max (trigger + params.retract) params.retract
  world.manualMove ⟨k, .retractMove⟩ (some start.x) (some start.y) (some target) world.liftSpeed
  return trigger

/-- The sampler, with touches that command the machine and may raise. -/
def collectTouches (params : TouchParams K) (start : Position K) :
    ℕ → List K → Command K (ConsensusResult K)
  | 0, collected =>
      Prog.stop (.sequence (.consensus ⟨params.config.samples, params.config.sampleRange,
        params.config.window, collected.length, collected⟩))
  | room + 1, collected => do
      let touch ← probeOnce world params start collected.length
      let collected := collected ++ [touch]
      match ← Prog.lift ((judge params.config collected).mapError .sequence) with
      | none => collectTouches params start room collected
      | some result => return result

def startProbeSession : Command K Unit := do
  world.call ⟨0, .startSession⟩
  Prog.update fun m => { m with sessions := m.sessions + 1 }

/-- The session is told to end, also when that raises. -/
def endProbeSession : Command K Unit := do
  Prog.update fun m => { m with sessions := m.sessions - 1 }
  world.call ⟨0, .endSession⟩

def performConsensusTouch (params : TouchParams K) : Command K (ConsensusResult K) := do
  world.call ⟨0, .probeParams⟩
  world.call ⟨0, .startPosition⟩
  let m ← Prog.state
  startProbeSession world
  Prog.ensuring (do
    let result ← collectTouches world params m.position params.config.maxSamples.toNat []
    world.call ⟨0, .finalWait⟩
    return result)
    (endProbeSession world)

/-- A sequence that comes to no agreement clears the result; other exceptions pass. -/
def publishConsensusError (params : TouchParams K) (error : Raised K) :
    Command K (ConsensusResult K) := do
  match error with
  | .sequence (.consensus error) =>
      Prog.update fun m => { m with lastTouchResult := none }
      Prog.stop (.command (.consensusFailed "PLR_TOUCH" error params))
  | error => Prog.stop error

def publishTouch (params : TouchParams K) (result : ConsensusResult K) : TouchResult K :=
  ⟨result.median, result.range, params.config.samples, result.touchesUsed⟩

def cmdPlrTouch (args : TouchArgs K) : Command K Unit := do
  let params ← Prog.lift (touchParams plugin args)
  requireTouchReady plugin world "PLR_TOUCH"
  world.call ⟨0, .getPosition⟩
  let result ← (performConsensusTouch world params).onError (publishConsensusError params)
  Prog.update fun m => { m with lastTouchResult := some (publishTouch params result) }

end Touch

end DeadReckoning.Plugin
