import DeadReckoning.Gcode.Axes
import DeadReckoning.Recovery.Config

/-! What the planner reads: the reconstruction of the stop, the layer model of the print file,
the contact zone, the match of the stop point, and the temperatures of the file. -/
namespace DeadReckoning.Recovery

open Wal (Point Context)
open Gcode (Axes)

section Reconstruction

structure Interval where
  lo : F64
  hi : F64
  deriving DecidableEq

def Interval.union (a b : Interval) : Interval := ⟨F64.min a.lo b.lo, F64.max a.hi b.hi⟩

def Interval.width (i : Interval) : F64 := i.hi - i.lo

structure ZCandidate where
  z : Interval
  zKnown : Bool
  deriving DecidableEq

/-- The Z span of the stops whose height can be trusted. -/
def zSpan (candidates : List ZCandidate) : Option Interval :=
  (candidates.filter (·.zKnown)).foldl
    (fun span c => some (match span with
      | none => c.z
      | some s => s.union c.z)) none

/-- The outcome of reading the journal. -/
inductive Reconstruction where
  | cleanShutdown
  | recovery (contexts : List Context) (zCandidates : List ZCandidate)
  deriving DecidableEq

end Reconstruction

section Model

inductive FeatureClass where
  | internalInfill
  | solidInfill
  | innerWall
  | outerWall
  | surface
  | bridge
  | gapFill
  | support
  | skirtBrim
  | other
  deriving DecidableEq

inductive MoveKind where
  | extrusion
  | travel
  | extrudeOnly
  deriving DecidableEq

/-- One simulated move, with the offset of the line it comes from. -/
structure SimMove where
  start : Axes F64
  finish : Axes F64
  spanStart : ℕ
  kind : MoveKind
  layer : Option ℕ
  startKnown : Axes Bool
  deriving DecidableEq

/-- The position before the move was never lost, and is finite. -/
def SimMove.startPositionKnown (m : SimMove) : Bool :=
  m.startKnown.x && m.startKnown.y && m.startKnown.z && m.start.all F64.isFinite

structure XySegment where
  start : Point
  finish : Point
  spanStart : ℕ
  deriving DecidableEq

structure TypedPath where
  featureClass : FeatureClass
  segments : List XySegment
  deriving DecidableEq

structure Layer where
  paths : List TypedPath
  deriving DecidableEq

structure LayerModel where
  layers : List Layer
  moves : List SimMove
  deriving DecidableEq

def LayerModel.firstDepositionAtOrAfter (model : LayerModel) (offset : ℕ) : Option SimMove :=
  model.moves.find? (fun m => m.kind = .extrusion && offset ≤ m.spanStart)

end Model

section Selection

structure ProbeCandidate where
  point : Point
  z : F64
  deriving DecidableEq

inductive DeclineReason where
  | vaseMode (spiralFraction : F64)
  | singleWall
  | noEligiblePaths
  | noSafeZone (segmentsConsidered : ℕ)
  | noStructurallySafePoint (candidatesEvaluated : ℕ)
  deriving DecidableEq

inductive ContactOutcome where
  | candidates (candidates : List ProbeCandidate)
  | declined (reason : DeclineReason)
  deriving DecidableEq

inductive MatchConfidence where
  | uniqueLine (offset : ℕ)
  | ambiguousWindow (offsets : List ℕ)
  | layerOnly (layer : ℕ)
  deriving DecidableEq

/-- Why the planner leaves the recovery to the operator. -/
inductive FallbackReason where
  | contactDeclined (reason : DeclineReason)
  | matchTooCoarse (layer : ℕ)
  | noResumeDeposition
  | resumePositionUnknown
  deriving DecidableEq

structure ResumeTarget where
  offset : ℕ
  position : Axes F64
  layer : Option ℕ
  onInfill : Bool
  deriving DecidableEq

def isInfill (c : FeatureClass) : Bool := c = .internalInfill || c = .solidInfill

/-- The first depositing move at or after an offset, when its start can be trusted. -/
def resolveResumeFromOffset (model : LayerModel) (base : ℕ) : Except FallbackReason ResumeTarget :=
  match model.firstDepositionAtOrAfter base with
  | none => .error .noResumeDeposition
  | some m =>
      if !m.startPositionKnown then .error .resumePositionUnknown
      else
        let layer := m.layer.bind (model.layers[·]?)
        .ok {
          offset := m.spanStart
          position := m.start
          layer := m.layer
          onInfill := layer.any fun layer => layer.paths.any fun p =>
            isInfill p.featureClass && p.segments.any (·.spanStart = m.spanStart) }

def medianIndex (len : ℕ) : ℕ := (len - 1) / 2

/-- The offset that a policy picks, `none` only from an empty list. -/
def selectOffset (offsets : List ℕ) (policy : ResumePolicy) : Option ℕ :=
  let sorted := offsets.mergeSort
  match policy with
  | .first => sorted[0]?
  | .mid => sorted[medianIndex sorted.length]?
  | .last | .ask => sorted[sorted.length - 1]?

def selectResumeTargetWithPolicy (model : LayerModel) (confidence : MatchConfidence)
    (policy : ResumePolicy) : Except FallbackReason ResumeTarget :=
  match confidence with
  | .uniqueLine offset => resolveResumeFromOffset model offset
  | .ambiguousWindow offsets =>
      match selectOffset offsets policy with
      | none => .error .noResumeDeposition
      | some base => resolveResumeFromOffset model base
  | .layerOnly layer => .error (.matchTooCoarse layer)

/-- The anchor stop of a policy in a preview set. -/
def PreviewSet.anchor (set : PreviewSet) : ResumePolicy → ℕ
  | .first => set.firstIndex
  | .mid => set.midIndex
  | .last | .ask => set.lastIndex

/-- The resume target: the anchor stop's own line when a preview set is given, otherwise what
the match selects. -/
def resolveResumeWithPreview (model : LayerModel) (confidence : MatchConfidence)
    (policy : ResumePolicy) : Option PreviewSet → Except FallbackReason ResumeTarget
  | some set =>
      match set.stops[set.anchor policy]? with
      | none => .error .noResumeDeposition
      | some stop =>
          match resolveResumeFromOffset model stop.resumeOffset with
          | .error reason => .error reason
          | .ok target =>
              if target.offset = stop.resumeOffset then .ok target
              else .error .resumePositionUnknown
  | none => selectResumeTargetWithPolicy model confidence policy

/-- A resume target is where a depositing move of the model starts, at a finite position. -/
theorem resolveResumeFromOffset_ok {model : LayerModel} {base : ℕ} {target : ResumeTarget}
    (h : resolveResumeFromOffset model base = .ok target) :
    ∃ m ∈ model.moves, m.kind = .extrusion ∧ base ≤ m.spanStart ∧ m.startPositionKnown = true ∧
      target.offset = m.spanStart ∧ target.position = m.start := by
  rw [resolveResumeFromOffset] at h
  split at h
  · cases h
  · rename_i m hm
    split at h
    · cases h
    · rename_i hknown
      have hfind := List.find?_some hm
      have hmem := List.mem_of_find?_eq_some hm
      cases h
      refine ⟨m, hmem, ?_, ?_, by simpa using hknown, rfl, rfl⟩
      · simpa using (Bool.and_eq_true_iff.mp hfind).1
      · simpa using (Bool.and_eq_true_iff.mp hfind).2

end Selection

section Temperatures

structure FileTemps where
  nozzle : Option F64
  bed : Option F64
  deriving DecidableEq

structure PreheatTargets where
  nozzle : Option F64
  bed : Option F64
  otherHeaters : List (Text × F64)
  fans : List (Text × F64)
  deriving DecidableEq

def usable (target : F64) : Option F64 :=
  if target.isFinite && F64.lt 0 target then some target else none

def addHeater (targets : PreheatTargets) (heater : Wal.HeaterTarget) : PreheatTargets :=
  match usable heater.target with
  | none => targets
  | some target =>
      let name := heater.name.toList
      if name = lit "extruder" then { targets with nozzle := some target }
      else if name = lit "heater_bed" then { targets with bed := some target }
      else { targets with otherHeaters := targets.otherHeaters ++ [(name, target)] }

/-- The targets of the last context, with those of the file where it has none. -/
def derivePreheat (context : Context) (file : FileTemps) : PreheatTargets :=
  let fans := (context.fans.filter (fun f => f.speed.isFinite && F64.lt 0 f.speed)).map
    fun f => (f.name.toList, clamp f.speed 0 1)
  let targets := context.heaters.foldl addHeater ⟨none, none, [], fans⟩
  { targets with
    nozzle := targets.nozzle.or (file.nozzle.bind usable)
    bed := targets.bed.or (file.bed.bind usable) }

end Temperatures

/-- An object of the print, to be defined again after the file is selected. -/
structure ExcludeObjectDef where
  name : Text
  center : Option Point
  polygon : List Point
  currentlyExcluded : Bool
  deriving DecidableEq

/-- The names of the macros of a running configuration, in upper case. -/
def gcodeMacroNames (sections : List Text) : List Text :=
  (sections.filterMap (Text.stripPrefix (lit "gcode_macro "))).map fun name =>
    Text.upper (Text.trim name)

structure PlanInputs where
  machine : MachineConfig
  reconstruction : Reconstruction
  contact : ContactOutcome
  matchConfidence : MatchConfidence
  model : LayerModel
  fileTemps : FileTemps
  excludeObjects : List ExcludeObjectDef
  cleanNozzleMacroPresent : Bool
  purgeMacroPresent : Bool
  preview : Option PreviewSet

section Contexts

/-- The numbers of the g-code state that the plan restores. -/
structure GcodeNumbers where
  origin : Axes F64
  speedFactor : F64
  extrudeFactor : F64
  speedRaw : F64
  absoluteCoordinates : Bool
  absoluteExtrude : Bool
  deriving DecidableEq

def isPositive (v : F64) : Bool := v.isFinite && F64.lt 0 v

/-- The homing origin, when both vectors have four axes. -/
def originOf (g : Wal.GcodeState) : Option (Axes F64) :=
  match Axes.ofList? g.homingOrigin, Axes.ofList? g.position with
  | some origin, some _ => some origin
  | _, _ => none

def validateGcodeState (g : Wal.GcodeState) : Except RecoveryError GcodeNumbers := do
  let origin ← required (.invalidContext "gcode coordinate vectors") (originOf g)
  ensure (isPositive g.speedFactor) (.invalidContext "speed_factor")
  ensure (isPositive g.extrudeFactor) (.invalidContext "extrude_factor")
  ensure (isPositive g.speed) (.invalidContext "speed")
  .ok ⟨origin, g.speedFactor, g.extrudeFactor, g.speed, g.absoluteCoordinates, g.absoluteExtrude⟩

end Contexts

section Names

def isSeparator (c : Char) : Bool := c = '/' || c = '\\'

/-- The name of a file at the top of the card's directory. -/
def topLevelFileName (path root : Text) : Except RecoveryError Text :=
  match Text.stripPrefix (root.rdropWhile isSeparator) path with
  | none => .error (.fileNotTopLevel path)
  | some rest =>
      let name := rest.dropWhile isSeparator
      if !rest.head?.any isSeparator || name.isEmpty || name.any isSeparator then
        .error (.fileNotTopLevel path)
      else .ok name

/-- Rejects names that cannot be embedded in a command line. -/
def commandNameIsBad (name : Text) : Bool :=
  name.isEmpty || name.any fun c =>
    Text.isWhitespace c || Text.isControl c || c = '=' || c = '"' || c = '\''

def validateCommandName (field : String) (name : Text) : Except RecoveryError Unit :=
  ensure (!commandNameIsBad name) (.invalidName field name)

def validateExclude (d : ExcludeObjectDef) : Except RecoveryError Unit := do
  validateCommandName "exclude_object" d.name
  ensure (d.center.all Point.isFinite && d.polygon.all Point.isFinite)
    (.nonFinite "exclude_object geometry")

def isNameChar (c : Char) : Bool := c.isAlphanum || c = '.' || c = '-' || c = '_'

def sanitizeName (stem : Text) : Text :=
  let out := stem.map fun c => if isNameChar c then c else '_'
  if out.isEmpty then lit "recovery" else out

/-- The part before the last point, the whole name when it has none. -/
def fileStem (name : Text) : Text :=
  match name.reverse.dropWhile (· ≠ '.') with
  | [] => name
  | _ :: stem => stem.reverse

/-- The name of the generated file, of which no other is in use. -/
def recoveryFileName (originalName : Text) : Text :=
  let base := (originalName.splitOnP isSeparator).getLastD originalName
  sanitizeName (fileStem base) ++ lit "_RECOVERY.gcode"

end Names

end DeadReckoning.Recovery
