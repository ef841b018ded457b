import DeadReckoning.Reconstruct.StopSet

/-! Which objects of the print were cancelled, and every reason for which that is not certain. -/
namespace DeadReckoning.Reconstruct

open Gcode (Arithmetic CaseMapping Command)
open Wal (ExcludeObjectDef Heartbeat Marker PolygonFidelity ScanEnd)

section Report

inductive ExclusionProvenance where
  | journaled
  | noObjectsDefined
  | recordLost
  | unknown
  deriving DecidableEq

inductive HeartbeatCoverage where
  | continuous
  | interrupted (startMonoNs endMonoNs : ℕ)
  | absent
  | unevaluated
  deriving DecidableEq

inductive ExclusionFreshness (K : Type) where
  | known (gapS : K) (coverage : HeartbeatCoverage)
  | unknown
  | noObservation

inductive UncertaintyCause (K : Type) where
  | observationGap (startMonoNs endMonoNs : ℕ)
  | socketLost (monoNs : ℕ)
  | resubscribed (monoNs : ℕ)
  | exclusionUpdateDropped (monoNs : ℕ)
  | logTailIncomplete (scanEnd : ScanEnd) (lostWindowS : Option K)
  | heartbeatGap (startMonoNs endMonoNs : ℕ)
  | stale (gapS horizonS : K)
  | freshnessUnknown
  | noRecord
  | fileNotChecked

inductive ExclusionDiagnostic (K : Type) where
  | exclusionStateUncertain (cause : UncertaintyCause K) (atRisk : List String)
  | excludedObjectUndefined (objects : List String)
  | excludedObjectWithoutOutline (objects : List String)
  | geometryDegraded (objects : List String)
  | definitionsIncomplete (objects : List String)

structure ExclusionReport (K : Type) where
  provenance : ExclusionProvenance
  definitions : List ExcludeObjectDef
  excluded : List String
  currentObject : Option String
  observedMonoNs : Option ℕ
  observedPrintTime : Option K
  freshness : ExclusionFreshness K
  definitionsObserved : Bool
  fileDefinesObjects : Option Bool
  diagnostics : List (ExclusionDiagnostic K)

def eqIgnoreAsciiCase (a b : String) : Bool :=
  decide (a.toList.map Char.toLower = b.toList.map Char.toLower)

namespace ExclusionReport

variable {K : Type}

def uncertaintyCauses (r : ExclusionReport K) : List (UncertaintyCause K) :=
  r.diagnostics.filterMap fun
    | .exclusionStateUncertain cause _ => some cause
    | _ => none

/-- Nothing was lost and the knowledge is fresh. -/
def isConclusive (r : ExclusionReport K) : Bool := r.uncertaintyCauses.isEmpty

def isExcluded (r : ExclusionReport K) (name : String) : Bool :=
  r.excluded.any fun excluded => eqIgnoreAsciiCase excluded name

def definition (r : ExclusionReport K) (name : String) : Option ExcludeObjectDef :=
  r.definitions.find? fun d => eqIgnoreAsciiCase d.name name

def excludedDefinitions (r : ExclusionReport K) : List ExcludeObjectDef :=
  r.definitions.filter fun d => r.isExcluded d.name

/-- The objects that may have been cancelled unseen. -/
def atRisk (r : ExclusionReport K) : List String :=
  (r.definitions.filter fun d => !r.isExcluded d.name).map (·.name)

end ExclusionReport

end Report

section FileScan

/-- The numbers and the lists of numbers of a JSON text. -/
structure JsonNumbers where
  numbers : Text → Option (List F64)
  points : Text → Option (List (List F64))

/-- The objects that a file defines, and the lines about objects that could not be read. -/
structure FileObjectScan where
  definitions : List ExcludeObjectDef
  unparsedLines : ℕ

def FileObjectScan.isEmpty (scan : FileObjectScan) : Bool :=
  scan.definitions.isEmpty && decide (scan.unparsedLines = 0)

def parseCenter (json : JsonNumbers) (value : Text) : Option Wal.Point := do
  let parsed ← json.numbers (lit "[" ++ value ++ lit "]")
  let x ← parsed[0]?
  let y ← parsed[1]?
  guard (x.isFinite && y.isFinite)
  pure (x, y)

/-- A point of an outline. -/
def parsePoint (point : List F64) : Option Wal.Point := do
  let x ← point[0]?
  let y ← point[1]?
  guard (x.isFinite && y.isFinite)
  pure (x, y)

/-- The points of an outline, or how many there are when they cannot be used. -/
def parsePolygon (json : JsonNumbers) (value : Text) : Except ℕ (List Wal.Point) :=
  match json.points value with
  | none => .error 0
  | some parsed => Checks.required parsed.length (parsed.mapM parsePoint)

def isMalformedExtended (command : Command) : Bool := command.pairs.isNone

/-- Replaces the first definition of the name, or adds one. -/
def upsert (d : ExcludeObjectDef) : List ExcludeObjectDef → List ExcludeObjectDef
  | [] => [d]
  | known :: definitions =>
      if eqIgnoreAsciiCase known.name d.name then d :: definitions
      else known :: upsert d definitions

/-- The name that a command gives, in upper case. -/
def objectName (cases : CaseMapping) (command : Command) : Option String :=
  ((command.get (lit "NAME")).filter (· ≠ [])).map fun name => String.ofList (cases.upper name)

def applyDefine (cases : CaseMapping) (json : JsonNumbers) (command : Command)
    (scan : FileObjectScan) : FileObjectScan :=
  if isMalformedExtended command then { scan with unparsedLines := scan.unparsedLines + 1 }
  else if (command.get (lit "RESET")).any (· ≠ []) then ⟨[], 0⟩
  else
    match objectName cases command with
    | none => scan
    | some name =>
        let center := (command.get (lit "CENTER")).bind (parseCenter json)
        let polygon := (command.get (lit "POLYGON")).map (parsePolygon json)
        { scan with definitions := upsert (.normalized name center polygon) scan.definitions }

def applyStart (cases : CaseMapping) (command : Command) (scan : FileObjectScan) :
    FileObjectScan :=
  if isMalformedExtended command then { scan with unparsedLines := scan.unparsedLines + 1 }
  else
    match objectName cases command with
    | none => scan
    | some name =>
        if scan.definitions.any fun d => eqIgnoreAsciiCase d.name name then scan
        else { scan with definitions := scan.definitions ++ [⟨name, none, [], .absent⟩] }

def asciiLower (b : UInt8) : UInt8 := if 65 ≤ b ∧ b ≤ 90 then b + 32 else b

/-- The bytes contain the word, in any case. -/
def containsExcludeObject (line : Bytes) : Bool :=
  let needle : Bytes := (lit "exclude_object").map fun c => c.toNat.toUInt8
  (line.map asciiLower).tails.any needle.isPrefixOf

def stripCr (line : Bytes) : Bytes := if line.getLast? = some 13 then line.dropLast else line

def scanLine (cases : CaseMapping) (json : JsonNumbers) (scan : FileObjectScan) (raw : Bytes) :
    FileObjectScan :=
  if !containsExcludeObject raw then scan
  else
    match (Gcode.parseLineBytes cases (stripCr raw) ⟨0, 0⟩).body.command? with
    | none => scan
    | some command =>
        if command.name = lit "EXCLUDE_OBJECT_DEFINE" then applyDefine cases json command scan
        else if command.name = lit "EXCLUDE_OBJECT_START" then applyStart cases command scan
        else scan

/-- The objects that the firmware would know from the file. -/
def parseObjectDefinitions (cases : CaseMapping) (json : JsonNumbers) (bytes : Bytes) :
    FileObjectScan :=
  (bytes.splitOn Gcode.newline).foldl (scanLine cases json) ⟨[], 0⟩

end FileScan

section Resolve

variable {K : Type} [Field K] [LinearOrder K]

structure ExclusionInputs (K : Type) where
  window : Option (StopWindow K)
  stopEndPrintTime : Option K
  file : Option FileTail

def lastDurableMonoNs (timeline : WalTimeline K) : Option ℕ :=
  ([timeline.lastMotionMonoNs, timeline.contexts.getLast?.map (·.monoNs),
    timeline.markers.getLast?.map (·.monoNs),
    timeline.heartbeats.getLast?.map (·.monoNs.toNat)].filterMap id).max?

/-- How much time at the end has no record. -/
def lostTailWindowS (timeline : WalTimeline K) (inputs : ExclusionInputs K) : Option K := do
  let lastDurable ← lastDurableMonoNs timeline
  let window ← inputs.window
  let stop ← inputs.stopEndPrintTime
  let last ← window.monoNsToPrintTime lastDurable
  pure (max (stop - last) 0)

def secondsToNs (arith : Arithmetic K) (seconds : K) : Option ℕ :=
  if seconds < 0 then none
  else
    let ns := seconds * ((10 ^ 9 : ℕ) : K)
    if ((2 ^ 63 : ℕ) : K) ≤ ns then none else some (toU64 arith ns)

/-- The larger of the worst hole and this one, when it is longer than the tolerance. -/
def noteHole (start stop maxGapNs : ℕ) (worst : Option (ℕ × ℕ)) : Option (ℕ × ℕ) :=
  let hole := stop - start
  if maxGapNs < hole ∧ worst.all (fun w => w.2 - w.1 < hole) then some (start, stop) else worst

/-- Whether the beats have no hole between two times. -/
def heartbeatCoverage (heartbeats : List Heartbeat) (fromMonoNs toMonoNs maxGapNs : ℕ) :
    HeartbeatCoverage :=
  if toMonoNs ≤ fromMonoNs then .continuous
  else
    let beats := heartbeats.map (·.monoNs.toNat)
    let anchor := beats.reverse.find? (· ≤ fromMonoNs)
    let inside := beats.filter fun mono => decide (fromMonoNs < mono) && decide (mono ≤ toMonoNs)
    if anchor.isNone && inside.isEmpty then .absent
    else
      let (cursor, worst) := inside.foldl
        (fun (s : ℕ × Option (ℕ × ℕ)) mono => (mono, noteHole s.1 mono maxGapNs s.2))
        (anchor.getD fromMonoNs, none)
      match noteHole cursor toMonoNs maxGapNs worst with
      | none => .continuous
      | some (start, stop) => .interrupted start stop

def coverageToWindowEnd (arith : Arithmetic K) (timeline : WalTimeline K)
    (inputs : ExclusionInputs K) (config : ReconstructConfig K) (observedMonoNs : ℕ)
    (stopEndPrintTime : K) : HeartbeatCoverage :=
  match inputs.window with
  | none => .unevaluated
  | some window =>
      match (window.printTimeToMonoS stopEndPrintTime).bind (secondsToNs arith) with
      | none => .unevaluated
      | some stopNs =>
          heartbeatCoverage timeline.heartbeats observedMonoNs stopNs
            (toU64 arith ((config.heartbeatPeriodNs : K) * config.heartbeatGapTolerance))

/-- What the contexts say of the objects, taken together. -/
structure JournaledState where
  definitions : List ExcludeObjectDef
  definitionsObserved : Bool
  excluded : List String
  current : Option String
  observedMonoNs : ℕ

/-- One more context that bears on the objects. -/
def JournaledState.merge (state : JournaledState) (monoNs : ℕ) (exclude : Wal.ExcludeState) :
    JournaledState where
  definitions := exclude.definitions.getD state.definitions
  definitionsObserved := state.definitionsObserved || exclude.definitions.isSome
  excluded := exclude.excluded
  current := exclude.current
  observedMonoNs := max state.observedMonoNs monoNs

def journaledState (timeline : WalTimeline K) : Option JournaledState :=
  timeline.contexts.foldl (fun (state : Option JournaledState) ctx =>
    match ctx.exclude with
    | none => state
    | some exclude => some ((state.getD ⟨[], false, [], none, 0⟩).merge ctx.monoNs exclude)) none

def isDegraded : PolygonFidelity → Bool
  | .boundingBox _ | .unusable _ | .unknown => true
  | .absent | .exact => false

/-- Notes some objects, when there are any. -/
def noteObjects (note : List String → ExclusionDiagnostic K) (objects : List String) :
    List (ExclusionDiagnostic K) :=
  if objects.isEmpty then [] else [note objects]

/-- What is known of the geometry. -/
def geometryNotes (report : ExclusionReport K) (fileScan : Option FileObjectScan) :
    List (ExclusionDiagnostic K) :=
  noteObjects .excludedObjectUndefined
      (report.excluded.filter fun name => (report.definition name).isNone) ++
    noteObjects .excludedObjectWithoutOutline
      ((report.excludedDefinitions.filter fun d => d.polygon.length < 3).map (·.name)) ++
    noteObjects .geometryDegraded
      ((report.definitions.filter fun d => isDegraded d.fidelity).map (·.name)) ++
    match fileScan with
    | none => []
    | some scan => noteObjects .definitionsIncomplete
        ((scan.definitions.filter fun d => (report.definition d.name).isNone).map (·.name))

def journaledReport (arith : Arithmetic K) (state : JournaledState)
    (fileScan : Option FileObjectScan) (timeline : WalTimeline K) (inputs : ExclusionInputs K)
    (config : ReconstructConfig K) : ExclusionReport K :=
  let observedPrintTime := inputs.window.bind fun window =>
    window.monoNsToPrintTime state.observedMonoNs
  let freshness := match observedPrintTime, inputs.stopEndPrintTime with
    | some observed, some stop => .known (max (stop - observed) 0)
        (coverageToWindowEnd arith timeline inputs config state.observedMonoNs stop)
    | _, _ => .unknown
  let report : ExclusionReport K :=
    { provenance := .journaled
      definitions := state.definitions
      excluded := state.excluded
      currentObject := state.current
      observedMonoNs := some state.observedMonoNs
      observedPrintTime := observedPrintTime
      freshness := freshness
      definitionsObserved := state.definitionsObserved
      fileDefinesObjects := fileScan.map fun scan => !scan.isEmpty
      diagnostics := [] }
  { report with diagnostics := geometryNotes report fileScan }

/-- A report without a record of the objects. -/
def unrecordedReport (provenance : ExclusionProvenance) (definitions : List ExcludeObjectDef)
    (fileDefinesObjects : Option Bool) : ExclusionReport K :=
  ⟨provenance, definitions, [], none, none, none, .noObservation, false, fileDefinesObjects, []⟩

/-- A marker behind the last observation that may hide a cancellation. -/
def markerCause (observed : ℕ) (marker : Marker) : Option (UncertaintyCause K) :=
  match marker.kind with
  | .subscriptionGap start stop => if observed < stop then some (.observationGap start stop) else none
  | .socketLost => if observed < marker.monoNs then some (.socketLost marker.monoNs) else none
  | .resubscribed => if observed < marker.monoNs then some (.resubscribed marker.monoNs) else none
  | .exclusionUpdateLost =>
      if observed < marker.monoNs then some (.exclusionUpdateDropped marker.monoNs) else none
  | _ => none

def freshnessCauses (freshness : ExclusionFreshness K) (config : ReconstructConfig K) :
    List (UncertaintyCause K) :=
  match freshness with
  | .known gapS coverage =>
      if gapS ≤ config.exclusionFreshnessHorizon then []
      else
        match coverage with
        | .continuous => []
        | .interrupted start stop => [.heartbeatGap start stop]
        | .absent | .unevaluated => [.stale gapS config.exclusionFreshnessHorizon]
  | .unknown | .noObservation => [.freshnessUnknown]

/-- There is certainly no object that could have been cancelled. -/
def nothingToCancel (report : ExclusionReport K) : Bool :=
  report.definitions.isEmpty && report.excluded.isEmpty && report.definitionsObserved &&
    decide (report.fileDefinesObjects = some false)

def uncertaintyCauses (report : ExclusionReport K) (timeline : WalTimeline K)
    (inputs : ExclusionInputs K) (config : ReconstructConfig K) : List (UncertaintyCause K) :=
  match report.provenance with
  | .noObjectsDefined => []
  | .recordLost => [.noRecord]
  | .unknown => [.fileNotChecked]
  | .journaled =>
      if nothingToCancel report then []
      else
        timeline.markers.filterMap (markerCause (report.observedMonoNs.getD 0)) ++
          (if timeline.scanEnd ≠ .cleanEof then
            [.logTailIncomplete timeline.scanEnd (lostTailWindowS timeline inputs)] else []) ++
          freshnessCauses report.freshness config

def resolveExclusions (arith : Arithmetic K) (cases : CaseMapping) (json : JsonNumbers)
    (timeline : WalTimeline K) (inputs : ExclusionInputs K) (config : ReconstructConfig K) :
    ExclusionReport K :=
  let fileScan := (inputs.file.filter fun tail => tail.baseOffset = 0).map fun tail =>
    parseObjectDefinitions cases json tail.bytes
  let report : ExclusionReport K := match journaledState timeline with
    | some state => journaledReport arith state fileScan timeline inputs config
    | none =>
        match fileScan with
        | none => unrecordedReport .unknown [] none
        | some scan =>
            if scan.isEmpty then unrecordedReport .noObjectsDefined [] (some false)
            else unrecordedReport .recordLost scan.definitions (some true)
  { report with
    diagnostics := (uncertaintyCauses report timeline inputs config).map
        (.exclusionStateUncertain · report.atRisk) ++ report.diagnostics }

end Resolve

end DeadReckoning.Reconstruct
