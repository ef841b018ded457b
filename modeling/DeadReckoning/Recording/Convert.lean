import DeadReckoning.Recording.Status
import Mathlib.Algebra.Order.Floor.Ring
import Mathlib.Data.Rat.Floor

/-! The stateful converter: it merges Klipper's status diffs and motion dumps into one
snapshot and turns each message into journal records, a heartbeat payload and the
clean-shutdown verdict. -/
namespace DeadReckoning.Recording

open Wal

def positionContextMinNs : ℕ := 1000000000

def idleAfterMotionNs : ℕ := 5000000000

structure HeartbeatData where
  printTime : F64
  estSampleMonoNs : ℕ
  estSamplePrintTime : F64
  active : Bool
  deriving DecidableEq

/-- Everything one inbound message produced. -/
structure Output where
  records : List (WalRecord × SyncPolicy) := []
  heartbeat : Option HeartbeatData := none
  receiveSeq : Option (ℕ × ℕ) := none
  cleanShutdown : Bool := false
  regimeMarker : Option MarkerKind := none

/-! ### An ordered map -/

abbrev TargetMap := List (String × F64)

def TargetMap.get? (m : TargetMap) (name : String) : Option F64 :=
  (m.find? fun entry => entry.1 = name).map Prod.snd

/-- Entries stay sorted by name. -/
def TargetMap.insert (m : TargetMap) (name : String) (value : F64) : TargetMap :=
  match m with
  | [] => [(name, value)]
  | entry :: rest =>
      if name = entry.1 then (name, value) :: rest
      else if name < entry.1 then (name, value) :: entry :: rest
      else entry :: TargetMap.insert rest name value

/-! ### The recorder -/

structure Recorder where
  correlator : ClockCorrelator
  widener : ReceiveSeqWidener
  heaterNames : List String
  fanNames : List String
  gcode : Option GcodeState
  filePath : Option String
  filePosition : ℕ
  fileSize : ℕ
  isActive : Bool
  printState : Option String
  currentLayer : Option ℕ
  totalLayer : Option ℕ
  /-- A print has been positively observed running this session and has not ended. -/
  printInProgress : Bool
  transforms : TransformObservations
  heaters : TargetMap
  fans : TargetMap
  latestPrintTime : F64
  toolheadPrintTime : Option F64
  estSample : Option (ℕ × F64)
  lastMotionMonoNs : Option ℕ
  recordingActive : Bool
  regimeEvaluated : Bool
  lastContextMonoNs : Option ℕ
  lastContextFilePosition : ℕ
  exclude : ExcludeObjectSnapshot
  excludeSeen : Bool
  excludeDefinitionsDirty : Bool

def Recorder.new : Recorder :=
  { correlator := {}
    widener := {}
    heaterNames := []
    fanNames := ["fan"]
    gcode := none
    filePath := none
    filePosition := 0
    fileSize := 0
    isActive := false
    printState := none
    currentLayer := none
    totalLayer := none
    printInProgress := false
    transforms :=
      { bedMeshActive := false
        bedMeshProfile := none
        zThermalAdjustEnabled := none
        zThermalAdjustOffset := none
        skewActive := false
        skewProfile := none }
    heaters := []
    fans := []
    latestPrintTime := 0
    toolheadPrintTime := none
    estSample := none
    lastMotionMonoNs := none
    recordingActive := false
    regimeEvaluated := false
    lastContextMonoNs := none
    lastContextFilePosition := 0
    exclude := {}
    excludeSeen := false
    excludeDefinitionsDirty := false }

def Recorder.setHeaterNames (r : Recorder) (names : List String) : Recorder :=
  { r with heaterNames := names }

/-- Forgets what belongs to one klippy instance; configuration-like state is kept. -/
def Recorder.resetSession (r : Recorder) : Recorder :=
  { r with
    isActive := false
    printState := none
    currentLayer := none
    totalLayer := none
    printInProgress := false
    estSample := none
    latestPrintTime := 0
    toolheadPrintTime := none
    lastMotionMonoNs := none
    recordingActive := false
    regimeEvaluated := false
    exclude := {}
    excludeSeen := false
    excludeDefinitionsDirty := false }

/-! ### Merging one status update -/

/-- Seconds to nanoseconds, refused beyond 2^63. -/
def eventtimeToNs : F64 → Option ℕ
  | .fin q =>
      if q < 0 then none
      else if q * 1000000000 ≥ 2 ^ 63 then none
      else some ⌊q * 1000000000⌋.toNat
  | _ => none

def Recorder.mergeToolhead (r : Recorder) (update : StatusUpdate) : Recorder :=
  match update.toolhead.read? with
  | none => r
  | some th =>
      let r := match th.estimatedPrintTime with
        | none => r
        | some est =>
            let (correlator, outcome) := r.correlator.addSample update.eventtime est
            let r := { r with correlator }
            if outcome = .accepted then
              match eventtimeToNs update.eventtime with
              | some ns => { r with estSample := some (ns, est) }
              | none => r
            else r
      match th.printTime with
      | none => r
      | some pt =>
          if pt.isFinite then
            { r with
              latestPrintTime := F64.max r.latestPrintTime pt
              toolheadPrintTime := some pt }
          else r

def Recorder.observeReceiveSeq (r : Recorder) (update : StatusUpdate) (monoNs : ℕ) :
    Recorder × Option (ℕ × ℕ) :=
  match update.mcu.read?.bind fun mcu => mcu.lastStats.bind McuLastStats.receiveSeq with
  | none => (r, none)
  | some raw =>
      let (widener, seq) := r.widener.observe raw
      ({ r with widener },
        match seq.kind with
        | .first | .advanced _ => some (monoNs, seq.widened)
        | .unchanged | .regressed _ => none)

/-- A snapshot out of a full status object; refused when a field is missing. -/
def fullGcodeState (gm : GcodeMoveStatus) : Option GcodeState := do
  let speedFactor ← gm.speedFactor
  let speed ← gm.speed
  let extrudeFactor ← gm.extrudeFactor
  let absoluteCoordinates ← gm.absoluteCoordinates
  let absoluteExtrude ← gm.absoluteExtrude
  let homingOrigin ← gm.homingOrigin
  let position ← gm.position
  let gcodePosition ← gm.gcodePosition
  return { speedFactor, speed, extrudeFactor, absoluteCoordinates, absoluteExtrude,
           homingOrigin, position, gcodePosition }

/-- A field of a diff differs from the stored value. -/
def changes {α : Type} [DecidableEq α] (field : Option α) (stored : α) : Bool :=
  field.any fun value => value ≠ stored

def Recorder.mergeGcode (r : Recorder) (gm : GcodeMoveStatus) : Recorder × Bool :=
  match r.gcode with
  | none => ({ r with gcode := fullGcodeState gm }, (fullGcodeState gm).isSome)
  | some g =>
      ({ r with
         gcode := some
           { speedFactor := gm.speedFactor.getD g.speedFactor
             speed := gm.speed.getD g.speed
             extrudeFactor := gm.extrudeFactor.getD g.extrudeFactor
             absoluteCoordinates := gm.absoluteCoordinates.getD g.absoluteCoordinates
             absoluteExtrude := gm.absoluteExtrude.getD g.absoluteExtrude
             homingOrigin := gm.homingOrigin.getD g.homingOrigin
             position := gm.position.getD g.position
             gcodePosition := gm.gcodePosition.getD g.gcodePosition } },
       changes gm.speedFactor g.speedFactor || changes gm.extrudeFactor g.extrudeFactor
         || changes gm.absoluteCoordinates g.absoluteCoordinates
         || changes gm.absoluteExtrude g.absoluteExtrude
         || changes gm.homingOrigin g.homingOrigin)

inductive PrintState where
  | standby
  | printing
  | paused
  | complete
  | cancelled
  | error
  | other
  deriving DecidableEq

def PrintState.parse (state : String) : PrintState :=
  match state with
  | "standby" => .standby
  | "printing" => .printing
  | "paused" => .paused
  | "complete" => .complete
  | "cancelled" => .cancelled
  | "error" => .error
  | _ => .other

def PrintState.isInProgress : PrintState → Bool
  | .printing | .paused => true
  | _ => false

def PrintState.isFinished : PrintState → Bool
  | .standby | .complete | .cancelled => true
  | _ => false

structure PrintStatsMerge where
  stateChanged : Bool := false
  layerChanged : Bool := false
  cleanShutdown : Bool := false

/-- The layer marks come first: a diff can carry `info` without a state. -/
def Recorder.mergeLayers (r : Recorder) (info : Option PrintStatsInfo) : Recorder × Bool :=
  match info with
  | none => (r, false)
  | some info =>
      if r.currentLayer ≠ info.currentLayer ∨ r.totalLayer ≠ info.totalLayer then
        ({ r with currentLayer := info.currentLayer, totalLayer := info.totalLayer }, true)
      else (r, false)

def Recorder.mergePrintStats (r : Recorder) (update : StatusUpdate) :
    Recorder × PrintStatsMerge :=
  match update.printStats.read? with
  | none => (r, {})
  | some stats =>
      let (r, layerChanged) := r.mergeLayers stats.info
      match stats.state with
      | none => (r, { layerChanged })
      | some reportedText =>
          let stateChanged := decide (r.printState ≠ some reportedText)
          let r := { r with printState := some reportedText }
          let reported := PrintState.parse reportedText
          if reported.isInProgress then
            ({ r with printInProgress := true }, { stateChanged, layerChanged })
          else if reported.isFinished && r.printInProgress then
            ({ r with printInProgress := false },
              { stateChanged, layerChanged, cleanShutdown := true })
          else (r, { stateChanged, layerChanged })

structure VsdMerge where
  pathChanged : Bool := false
  positionAdvanced : Bool := false
  cleanShutdown : Bool := false

/-- The file closing under a running print is a deliberate end. -/
def Recorder.mergeFilePath (r : Recorder) (filePath : Option (Option String)) :
    Recorder × VsdMerge :=
  match filePath with
  | none => (r, {})
  | some path =>
      if path = r.filePath then (r, {})
      else if path.isNone && r.filePath.isSome && r.printInProgress then
        ({ r with filePath := path, printInProgress := false },
          { pathChanged := true, cleanShutdown := true })
      else ({ r with filePath := path }, { pathChanged := true })

/-- The reader going idle is an end only at the end of the file or with no file. -/
def Recorder.mergeIsActive (r : Recorder) (isActive : Option Bool) : Recorder × Bool :=
  match isActive with
  | none => (r, false)
  | some true => ({ r with printInProgress := true, isActive := true }, false)
  | some false =>
      let complete := decide (r.fileSize > 0) && decide (r.filePosition ≥ r.fileSize)
      let cancelled := r.filePath.isNone
      ({ r with isActive := false }, r.isActive && (complete || cancelled))

def Recorder.mergeVirtualSdcard (r : Recorder) (vsd : VirtualSdcardStatus) :
    Recorder × VsdMerge :=
  let (r, merge) := r.mergeFilePath vsd.filePath
  let positionAdvanced := changes vsd.filePosition r.filePosition
  let r := { r with
    filePosition := vsd.filePosition.getD r.filePosition
    fileSize := vsd.fileSize.getD r.fileSize }
  let (r, ended) := r.mergeIsActive vsd.isActive
  (r, { merge with positionAdvanced, cleanShutdown := merge.cleanShutdown || ended })

/-- Stores each reported setpoint that differs; the flag tells whether one did. -/
def mergeTargets (names : List String) (report : String → Option F64) (m : TargetMap) :
    TargetMap × Bool :=
  names.foldl (fun (m, trigger) name =>
    match report name with
    | some value => if m.get? name ≠ some value then (m.insert name value, true) else (m, trigger)
    | none => (m, trigger)) (m, false)

def Recorder.mergeHeatersAndFans (r : Recorder) (update : StatusUpdate) : Recorder × Bool :=
  let (heaters, heaterTrigger) :=
    mergeTargets r.heaterNames (fun n => (update.heater n).read?.bind HeaterStatus.target) r.heaters
  let (fans, fanTrigger) :=
    mergeTargets r.fanNames (fun n => (update.fan n).read?.bind FanStatus.speed) r.fans
  ({ r with heaters, fans }, heaterTrigger || fanTrigger)

def nonEmpty (s : String) : Option String := if s.isEmpty then none else some s

def mergeBedMesh (t : TransformObservations) : Option BedMeshStatus →
    TransformObservations × Bool
  | none => (t, false)
  | some bm =>
      let profile := bm.profileName.map nonEmpty
      ({ t with
         bedMeshActive := bm.meshActive.getD t.bedMeshActive
         bedMeshProfile := profile.getD t.bedMeshProfile },
       changes bm.meshActive t.bedMeshActive || changes profile t.bedMeshProfile)

/-- The thermal offset drifts with every update and never triggers. -/
def mergeZThermalAdjust (t : TransformObservations) : Option ZThermalAdjustStatus →
    TransformObservations × Bool
  | none => (t, false)
  | some z =>
      ({ t with
         zThermalAdjustEnabled := z.enabled.orElse fun _ => t.zThermalAdjustEnabled
         zThermalAdjustOffset := z.currentZAdjust.orElse fun _ => t.zThermalAdjustOffset },
       changes (z.enabled.map some) t.zThermalAdjustEnabled)

def mergeSkew (t : TransformObservations) : Option SkewCorrectionStatus →
    TransformObservations × Bool
  | none => (t, false)
  | some sk =>
      match sk.currentProfileName with
      | none => (t, false)
      | some name =>
          let profile := nonEmpty name
          ({ t with skewActive := profile.isSome, skewProfile := profile },
            decide (profile ≠ t.skewProfile))

def Recorder.mergeTransforms (r : Recorder) (update : StatusUpdate) : Recorder × Bool :=
  let (t, mesh) := mergeBedMesh r.transforms update.bedMesh.read?
  let (t, thermal) := mergeZThermalAdjust t update.zThermalAdjust.read?
  let (t, skew) := mergeSkew t update.skewCorrection.read?
  ({ r with transforms := t }, mesh || thermal || skew)

def Recorder.mergeExcludeObject (r : Recorder) (update : StatusUpdate) : Recorder × Bool :=
  match update.excludeObject.read? with
  | none => (r, false)
  | some status =>
      let firstObservation := !r.excludeSeen
      let (exclude, change) := r.exclude.merge status
      ({ r with
         exclude
         excludeSeen := true
         excludeDefinitionsDirty :=
           r.excludeDefinitionsDirty || (firstObservation || change.definitions) },
       firstObservation || change.definitions || change.excluded)

/-! ### Contexts, heartbeats and the cadence regime -/

def excludeDefinition (d : ExcludeObjectDefinition) : ExcludeObjectDef :=
  ExcludeObjectDef.normalized d.name d.centerXy d.polygonXy

def Recorder.excludeState (r : Recorder) : Option ExcludeState :=
  if r.excludeSeen then
    some
      { definitions :=
          if r.excludeDefinitionsDirty then some (r.exclude.objects.map excludeDefinition) else none
        excluded := r.exclude.excludedObjects
        current := r.exclude.currentObject }
  else none

/-- `none` until a full `gcode_move` state has been seen. -/
def Recorder.buildContext (r : Recorder) (monoNs : ℕ) : Option Context :=
  r.gcode.map fun gcode =>
    { monoNs
      printState := r.printState
      currentLayer := r.currentLayer
      totalLayer := r.totalLayer
      printTime := r.toolheadPrintTime
      virtualSdcard := r.filePath.map fun filePath =>
        { filePath
          filePosition := r.filePosition
          fileSize := if r.fileSize > 0 then some r.fileSize else none }
      gcode
      transforms := r.transforms
      heaters := r.heaters.map fun (name, target) => { name, target }
      fans := r.fans.map fun (name, speed) => { name, speed }
      exclude := r.excludeState }

def Recorder.regimeActive (r : Recorder) (monoNs : ℕ) : Bool :=
  r.printInProgress || r.lastMotionMonoNs.any fun last => monoNs - last < idleAfterMotionNs

def Recorder.heartbeatData (r : Recorder) (monoNs : ℕ) : Option HeartbeatData :=
  r.estSample.map fun (estSampleMonoNs, estSamplePrintTime) =>
    { printTime := r.latestPrintTime
      estSampleMonoNs
      estSamplePrintTime
      active := r.regimeActive monoNs }

/-- Marks idleness when it is new: a fall from active, or a session's first evaluation. -/
def Recorder.noteRegime (r : Recorder) (monoNs : ℕ) : Recorder × Option MarkerKind :=
  let nowActive := r.regimeActive monoNs
  let firstEvaluation := !r.regimeEvaluated
  let wasActive := r.recordingActive
  ({ r with regimeEvaluated := true, recordingActive := nowActive },
    if !nowActive && (wasActive || firstEvaluation) then some .recordingQuiescent else none)

/-- Journals a context when one is due, and remembers when and where it did. -/
def Recorder.emitContext (r : Recorder) (monoNs : ℕ) (stateChanged positionAdvanced : Bool) :
    Recorder × List (WalRecord × SyncPolicy) :=
  let positionDue := r.lastContextMonoNs.all fun last => monoNs - last ≥ positionContextMinNs
  let positionTrigger :=
    positionAdvanced && decide (r.filePosition ≠ r.lastContextFilePosition) && positionDue
  if stateChanged || positionTrigger then
    match r.buildContext monoNs with
    | none => (r, [])
    | some context =>
        let carriedDefinitions := context.exclude.any fun state => state.definitions.isSome
        ({ r with
           lastContextMonoNs := some monoNs
           lastContextFilePosition := r.filePosition
           excludeDefinitionsDirty := r.excludeDefinitionsDirty && !carriedDefinitions },
         [(.context context, .immediate)])
  else (r, [])

/-! ### The three entry points -/

/-- The `gcode_move` part of a status update, if it can be read. -/
def Recorder.mergeGcodeMove (r : Recorder) (update : StatusUpdate) : Recorder × Bool :=
  match update.gcodeMove.read? with
  | some gm => r.mergeGcode gm
  | none => (r, false)

/-- The `virtual_sdcard` part of a status update, if it can be read. -/
def Recorder.mergeCard (r : Recorder) (update : StatusUpdate) : Recorder × VsdMerge :=
  match update.virtualSdcard.read? with
  | some vsd => r.mergeVirtualSdcard vsd
  | none => (r, {})

/-- `print_stats` is merged before `virtual_sdcard`, so that one update carrying both opens
the gate from the authoritative signal before the file path consults it. -/
def Recorder.onStatus (r : Recorder) (update : StatusUpdate) (monoNs : ℕ)
    (forceContext : Bool) : Recorder × Output :=
  let r := r.mergeToolhead update
  let (r, receiveSeq) := r.observeReceiveSeq update monoNs
  let (r, gcodeChanged) := r.mergeGcodeMove update
  let (r, printStats) := r.mergePrintStats update
  let (r, vsd) := r.mergeCard update
  let (r, targetsChanged) := r.mergeHeatersAndFans update
  let (r, transformsChanged) := r.mergeTransforms update
  let (r, excludeChanged) := r.mergeExcludeObject update
  let stateChanged := forceContext || gcodeChanged || printStats.stateChanged
    || printStats.layerChanged || vsd.pathChanged || targetsChanged || transformsChanged
    || excludeChanged
  let (r, records) := r.emitContext monoNs stateChanged vsd.positionAdvanced
  let (r, regimeMarker) := r.noteRegime monoNs
  (r,
    { records
      heartbeat := r.heartbeatData monoNs
      receiveSeq
      cleanShutdown := printStats.cleanShutdown || vsd.cleanShutdown
      regimeMarker })

def trapqSegment (queue : String) (monoNs : ℕ) (m : TrapqMove) : TrapqSegment :=
  { monoNs
    queue
    printTime := m.time
    duration := m.duration
    startVelocity := m.startVelocity
    acceleration := m.acceleration
    startX := m.startPosition.1
    startY := m.startPosition.2.1
    startZ := m.startPosition.2.2
    xR := m.direction.1
    yR := m.direction.2.1
    zR := m.direction.2.2 }

/-- Raises the newest print time; a value that is not finite is left out. -/
def Recorder.raisePrintTime (r : Recorder) (time : F64) : Recorder :=
  if time.isFinite then { r with latestPrintTime := F64.max r.latestPrintTime time } else r

/-- One `TrapqSegment` per move; an empty batch is no motion. -/
def Recorder.onTrapq (r : Recorder) (queue : String) (batch : TrapqBatch) (monoNs : ℕ) :
    Recorder × Output :=
  let segments := batch.data.map (trapqSegment queue monoNs)
  let r := segments.foldl (fun r segment => r.raisePrintTime segment.endTime) r
  let r := if segments.isEmpty then r else { r with lastMotionMonoNs := some monoNs }
  let (r, regimeMarker) := r.noteRegime monoNs
  (r,
    { records := segments.map fun segment => (.trapqSegment segment, .batched)
      regimeMarker
      heartbeat := r.heartbeatData monoNs })

def stepChunk (step : StepperStep) : StepChunk :=
  { interval := step.interval, count := step.count, add := step.add }

def Recorder.onStepper (r : Recorder) (stepper : String) (batch : StepperBatch)
    (monoNs : ℕ) : Recorder × Output :=
  let range : StepperRange :=
    { monoNs
      stepper
      firstClock := batch.firstClock
      lastClock := batch.lastClock
      firstStepTime := batch.firstStepTime
      lastStepTime := batch.lastStepTime
      startPosition := batch.startPosition
      startMcuPosition := batch.startMcuPosition
      stepDistance := batch.stepDistance
      steps := batch.data.map stepChunk }
  let r := r.raisePrintTime range.lastStepTime
  let r := { r with lastMotionMonoNs := some monoNs }
  let (r, regimeMarker) := r.noteRegime monoNs
  (r,
    { records := [(.stepperRange range, .batched)]
      regimeMarker
      heartbeat := r.heartbeatData monoNs })

end DeadReckoning.Recording
