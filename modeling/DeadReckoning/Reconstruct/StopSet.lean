import DeadReckoning.Reconstruct.Window

/-! Everything that bounds where the machine stopped: heights, a box, intervals of the filament, and
a window of the file. -/
namespace DeadReckoning.Reconstruct

open Gcode (Arithmetic Axes CaseMapping Line SimConfig StopReason ZEvent lineIter saturatingAdd
  scanZEvents simulate)
open Wal (Context)

section Types

structure OffsetWindow where
  start : ℕ
  stop : ℕ
  deriving DecidableEq

structure ExtensionSummary (K : Type) where
  anchorOffset : ℕ
  anchorPrintTime : Option K
  horizon : K
  linesConsumed : ℕ
  resumeOffset : Option ℕ
  stop : StopReason K
  frontierCap : Option ℕ

inductive Confidence where
  | perLine
  | perLayer
  deriving DecidableEq

structure Degradation where
  confidence : Confidence
  observationGap : Bool
  extensionUnavailable : Bool
  extensionTruncated : Bool
  extensionError : Bool
  unknownZInExtension : Bool
  unknownXyInExtension : Bool
  eFrameShiftInExtension : Bool
  eFileFramesIncomplete : Bool
  extensionStartUnanchored : Bool
  offsetFloorUncertain : Bool
  anchorTimeUnknown : Bool
  crossEpochEvidenceDiscarded : Bool
  powerFailCutDegenerate : Bool
  deriving DecidableEq

def Degradation.none : Degradation :=
  ⟨.perLine, false, false, false, false, false, false, false, false, false, false, false, false,
    false⟩

structure PossibleStopSet (K : Type) where
  tA : K
  walEvalEnd : K
  zCandidates : List (ZCandidate K)
  xy : Option (XyRegion K)
  eInternal : Option (Interval K)
  eFile : Option (Interval K)
  fileWindow : Option OffsetWindow
  extension : Option (ExtensionSummary K)
  powerFailWindowCut : Option K
  degradation : Degradation

/-- A part of the printed file. -/
structure FileTail where
  baseOffset : ℕ
  bytes : Bytes

def FileTail.tailEnd (t : FileTail) : ℕ := saturatingAdd t.baseOffset t.bytes.length

/-- What the extension contributes. -/
structure ExtensionResult (K : Type) where
  summary : ExtensionSummary K
  z : List (ZCandidate K)
  xy : Option (XyRegion K)
  eInternal : Option (Interval K)
  eFile : Option (Interval K)

end Types

section Anchor

variable {K : Type} [Field K] [LinearOrder K]

def exactAxes (a : Axes ℚ) : Axes K := ⟨(a.x : K), (a.y : K), (a.z : K), (a.e : K)⟩

def exactSaved (s : Gcode.SavedGcodeState ℚ) : Gcode.SavedGcodeState K where
  absoluteCoord := s.absoluteCoord
  absoluteExtrude := s.absoluteExtrude
  basePosition := exactAxes s.basePosition
  lastPosition := exactAxes s.lastPosition
  homingPosition := exactAxes s.homingPosition
  speed := (s.speed : K)
  speedFactor := (s.speedFactor : K)
  extrudeFactor := (s.extrudeFactor : K)
  baseKnown := s.baseKnown
  positionKnown := s.positionKnown

/-- A state of rational numbers among the numbers in use. -/
def exactState (s : Gcode.GcodeState ℚ) : Gcode.GcodeState K where
  absoluteCoord := s.absoluteCoord
  absoluteExtrude := s.absoluteExtrude
  basePosition := exactAxes s.basePosition
  lastPosition := exactAxes s.lastPosition
  homingPosition := exactAxes s.homingPosition
  speed := (s.speed : K)
  speedFactor := (s.speedFactor : K)
  extrudeFactor := (s.extrudeFactor : K)
  positionKnown := s.positionKnown
  baseKnown := s.baseKnown
  arcPlane := s.arcPlane
  arcResolution := (s.arcResolution : K)
  accelOverride := s.accelOverride.map fun a => (a : K)
  savedStates := fun name => (s.savedStates name).map exactSaved

def anchorState (gcode : Wal.GcodeState) : Except ReconstructError (Gcode.GcodeState K) :=
  ((anchorStateFromContext gcode).map exactState).mapError .malformedContext

end Anchor

section Extension

variable {K : Type} [Field K] [LinearOrder K]

def subscriptionRefreshS : K := 1 / 4

def powerFailHoldUpMarginS : K := 1

/-- The print time behind which the power was gone, from the edge that announced it. -/
def powerFailCutPt (timeline : WalTimeline K) (window : StopWindow K) : Option K :=
  timeline.powerFailingTail.bind fun edge =>
    (window.monoNsToPrintTime edge).map fun edgePt => edgePt + powerFailHoldUpMarginS

def powerFailDt (timeline : WalTimeline K) (window : StopWindow K) (anchorPt : K) : Option K :=
  (powerFailCutPt timeline window).map fun cut => max (cut - anchorPt) 0

/-- The earliest time at which the frontier of the anchor may begin to be executed. -/
def extensionStartTime (timeline : WalTimeline K) (window : StopWindow K) (anchor : Context)
    (anchorPt : Option K) (config : ReconstructConfig K) (d : Degradation) : K × Degradation :=
  let journaled := timeline.trapqEndTimeJournaledBy anchor.monoNs
  let (degenerate, d) : Option K × Degradation :=
    if journaled.isNone then
      (some (window.tA - config.maxProcessingLead), { d with extensionStartUnanchored := true })
    else (none, d)
  (([journaled, degenerate, anchorPt].filterMap id).foldl min window.tA, d)

/-- The widest gap between heartbeats up to the first one out of tolerance, newest first; none when
the newest gap is. -/
def widestGap (tolNs : ℕ) : Bool → ℕ → List ℕ → Option ℕ
  | newest, maxGapNs, monoNs :: older :: rest =>
      if tolNs < monoNs - older then if newest then none else some maxGapNs
      else widestGap tolNs false (max maxGapNs (monoNs - older)) (older :: rest)
  | _, maxGapNs, _ => some maxGapNs

/-- A number of nanoseconds as a machine integer. -/
def toU64 (arith : Arithmetic K) (v : K) : ℕ := min (arith.toNat (arith.floor v)) Gcode.offsetMax

def heartbeatTailSpacingNs (arith : Arithmetic K) (timeline : WalTimeline K)
    (config : ReconstructConfig K) : Option ℕ :=
  let tolNs := toU64 arith ((config.heartbeatPeriodNs : K) * config.heartbeatGapTolerance)
  match timeline.heartbeats with
  | [] => none
  | [_] => some tolNs
  | hbs => widestGap tolNs true 0 (hbs.reverse.map (·.monoNs.toNat))

/-- The time that the machine may have gone on behind the anchor. -/
def frontierDt (timeline : WalTimeline K) (window : StopWindow K) (anchorPt : K)
    (config : ReconstructConfig K) (spacingNs : ℕ) : K :=
  let staleness := max (window.tA - anchorPt) 0
  let dtTail := nsToS spacingNs + nsToS config.durabilityLagNs + 2 * subscriptionRefreshS
  let dt := staleness + dtTail
  match powerFailDt timeline window anchorPt with
  | some pf => min dt pf
  | none => dt

/-- The farthest offset of the file that the machine can have reached, when it is known. -/
def frontierCapOffset (arith : Arithmetic K) (timeline : WalTimeline K) (window : StopWindow K)
    (anchorPt : Option K) (state : Gcode.GcodeState K) (lines : List Line) (frontier tailEnd : ℕ)
    (config : ReconstructConfig K) (observationGap : Bool) : Option ℕ := do
  let anchorPt ← anchorPt
  guard !observationGap
  let spacingNs ← heartbeatTailSpacingNs arith timeline config
  let dt := frontierDt timeline window anchorPt config spacingNs
  let sim := simulate arith { config.sim with maxDuration := some dt } state lines
  let raw := max (sim.resumeOffset.getD frontier) frontier
  let slacked := (lines[sim.linesConsumed]?.map (·.span.stop)).getD tailEnd
  pure (min (max raw slacked) tailEnd)

/-- The height of the anchor, then a ramp and a plateau for each event. -/
def extensionZCandidates (arith : Arithmetic K) (state : Gcode.GcodeState K) (consumed : List Line)
    (d : Degradation) : List (ZCandidate K) × Degradation :=
  let events := (scanZEvents arith ⟨none, none⟩ state consumed).events
  (⟨.point state.lastPosition.z, .extension, true, .plateau⟩ :: events.flatMap fun event =>
      [⟨.fromPair event.zFrom event.zTo, .extension, event.zKnown, .ramp⟩,
        ⟨.point event.zTo, .extension, event.zKnown, .plateau⟩],
    if events.any fun event => !event.zKnown then { d with unknownZInExtension := true } else d)

/-- The box and the filament of the moves. -/
def extensionXyE (arith : Arithmetic K) (state : Gcode.GcodeState K)
    (moves : List (Gcode.TimedMove K)) (d : Degradation) :
    XyRegion K × Interval K × Degradation :=
  let known (m : Gcode.PlannedMove K) : Bool :=
    m.startKnown.x && m.startKnown.y && m.stopKnown.x && m.stopKnown.y
  let grow (e : XyRegion K × Interval K) (tm : Gcode.TimedMove K) : XyRegion K × Interval K :=
    let stop := tm.planned.kinematicEnd arith
    ((e.1.expand tm.planned.start.x tm.planned.start.y).expand stop.x stop.y,
      (e.2.expand tm.planned.start.e).expand stop.e)
  let (xy, e) := moves.foldl grow
    (⟨.point state.lastPosition.x, .point state.lastPosition.y⟩, .point state.lastPosition.e)
  (xy, e, if moves.any fun tm => !known tm.planned then { d with unknownXyInExtension := true }
    else d)

/-- The filament of the file after each line, and whether its frame shifted. -/
def replayE (arith : Arithmetic K) : Gcode.GcodeState K → Interval K → Bool → List Line →
    Interval K × Bool
  | _, e, shifted, [] => (e, shifted)
  | state, e, shifted, line :: lines =>
      match state.apply arith line with
      | (.error _, _) => (e, shifted)
      | (.ok _, next) =>
          let moved := decide (next.basePosition.e ≠ state.basePosition.e) ||
            decide (next.extrudeFactor ≠ state.extrudeFactor)
          replayE arith next (e.expand next.gcodePosition.e) (shifted || moved) lines

def extensionFileE (arith : Arithmetic K) (state : Gcode.GcodeState K) (consumed : List Line)
    (d : Degradation) : Interval K × Degradation :=
  let (e, shifted) := replayE arith state (.point state.gcodePosition.e) false consumed
  (e, if shifted then { d with eFrameShiftInExtension := true } else d)

/-- The lines behind an offset of the file, as many as the budget allows. -/
def collectLines (cases : CaseMapping) (tail : FileTail) (filePosition : ℕ) (maxLines : Option ℕ) :
    List Line :=
  let lines := lineIter cases (tail.bytes.drop (filePosition - tail.baseOffset)) filePosition
  match maxLines with
  | some cap => lines.take cap
  | none => lines

/-- The extension from a frontier that the tail covers. -/
def extendFrom (arith : Arithmetic K) (cases : CaseMapping) (timeline : WalTimeline K)
    (anchor : Context) (filePosition : ℕ) (state : Gcode.GcodeState K) (window : StopWindow K)
    (walEvalEnd : K) (tail : FileTail) (config : ReconstructConfig K) (d : Degradation) :
    ExtensionResult K × Degradation :=
  let anchorPt := window.monoNsToPrintTime anchor.monoNs
  let d := if anchorPt.isNone then { d with anchorTimeUnknown := true } else d
  let (startPt, d) := extensionStartTime timeline window anchor anchorPt config d
  let horizon := config.extensionHorizon + max (walEvalEnd - startPt) 0
  let lines := collectLines cases tail filePosition config.sim.maxLines
  let collectCapped := config.sim.maxLines.any fun cap =>
    decide (lines.length = cap) && lines.getLast?.any fun line => line.span.stop < tail.tailEnd
  let sim := simulate arith { config.sim with maxDuration := some horizon } state lines
  let consumed := lines.take sim.linesConsumed
  let budget := match sim.stop with
    | .lineBudget => true
    | _ => false
  let failed := match sim.stop with
    | .lineError _ _ => true
    | _ => false
  let d := { d with
    extensionTruncated := d.extensionTruncated || budget || collectCapped
    extensionError := failed }
  let (z, d) := extensionZCandidates arith state consumed d
  let (xy, eInternal, d) := extensionXyE arith state sim.moves d
  let (eFile, d) := extensionFileE arith state consumed d
  ({ summary :=
      { anchorOffset := filePosition
        anchorPrintTime := anchorPt
        horizon := horizon
        linesConsumed := sim.linesConsumed
        resumeOffset := sim.resumeOffset
        stop := sim.stop
        frontierCap := frontierCapOffset arith timeline window anchorPt state lines filePosition
          tail.tailEnd config d.observationGap }
     z := z
     xy := some xy
     eInternal := some eInternal
     eFile := some eFile }, d)

def runExtension (arith : Arithmetic K) (cases : CaseMapping) (timeline : WalTimeline K)
    (anchor : Context) (window : StopWindow K) (walEvalEnd : K) (fileTail : Option FileTail)
    (config : ReconstructConfig K) (d : Degradation) :
    Except ReconstructError (Option (ExtensionResult K) × Degradation) :=
  match anchor.virtualSdcard, fileTail with
  | some vsd, some tail => do
      Checks.ensure (decide (tail.baseOffset ≤ vsd.filePosition) &&
          decide (vsd.filePosition ≤ tail.tailEnd))
        (.fileTailMismatch tail.baseOffset tail.tailEnd vsd.filePosition)
      let state ← anchorState anchor.gcode
      let (result, d) := extendFrom arith cases timeline anchor vsd.filePosition state window
        walEvalEnd tail config d
      pure (some result, d)
  | _, _ => pure (none, { d with extensionUnavailable := true })

end Extension

section Floor

variable {K : Type} [Field K] [LinearOrder K]

/-- The context that execution has certainly passed. -/
structure FloorContext where
  ctx : Context
  filePosition : ℕ
  uncertain : Bool

def fpOf (ctx : Context) : ℕ := (ctx.virtualSdcard.map (·.filePosition)).getD 0

def sameFile (path : String) (ctx : Context) : Bool :=
  ctx.virtualSdcard.any fun v => v.filePath = path

/-- The last context with the largest position. -/
def maxByPosition : List Context → Option Context
  | [] => none
  | ctx :: rest => some (rest.foldl (fun best c => if fpOf best ≤ fpOf c then c else best) ctx)

/-- The first context with the smallest position. -/
def minByPosition : List Context → Option Context
  | [] => none
  | ctx :: rest => some (rest.foldl (fun best c => if fpOf c < fpOf best then c else best) ctx)

/-- The context was captured before the time. -/
def capturedBy (window : StopWindow K) (threshold : K) (ctx : Context) : Bool :=
  (window.monoNsToPrintTime ctx.monoNs).any fun pt => pt ≤ threshold

def floorContext (timeline : WalTimeline K) (window : StopWindow K) (anchor : Context)
    (config : ReconstructConfig K) (d : Degradation) : Option FloorContext × Degradation :=
  match anchor.virtualSdcard with
  | none => (none, d)
  | some vsd =>
      let threshold := window.tA - config.maxProcessingLead
      let candidates := timeline.contexts.filter (sameFile vsd.filePath)
      match maxByPosition (candidates.filter (capturedBy window threshold)) with
      | some ctx => (some ⟨ctx, fpOf ctx, false⟩, d)
      | none =>
          ((minByPosition candidates).map fun ctx => ⟨ctx, fpOf ctx, true⟩,
            { d with offsetFloorUncertain := true })

/-- The window of the file. -/
def offsetWindow (anchor : Context) (floor : Option FloorContext)
    (extension : Option (ExtensionResult K)) : Option OffsetWindow :=
  anchor.virtualSdcard.map fun vsd =>
    let start := (floor.map (·.filePosition)).getD vsd.filePosition
    let uncapped := max ((extension.bind (·.summary.resumeOffset)).getD vsd.filePosition)
      vsd.filePosition
    let stop := match extension.bind (·.summary.frontierCap) with
      | some cap => min uncapped (max cap vsd.filePosition)
      | none => uncapped
    ⟨min start stop, stop⟩

end Floor

section FileFrame

variable {K : Type} [Field K] [LinearOrder K]

/-- The filament of the file over the lines that were replayed, and whether they reach the end. -/
structure ReplayedE (K : Type) where
  file : Interval K
  reachedEnd : Bool

/-- The loop of the replay; `position` is where the last line ended. -/
def replayLines (arith : Arithmetic K) (endOffset : ℕ) : Gcode.GcodeState K → Interval K → ℕ →
    Option ℕ → List Line → Interval K × ℕ × Bool
  | _, e, position, _, [] => (e, position, false)
  | state, e, position, budget, line :: lines =>
      if endOffset ≤ line.span.start then (e, position, false)
      else if budget = some 0 then (e, position, true)
      else
        match state.apply arith line with
        | (.error _, _) => (e, position, true)
        | (.ok _, next) =>
            replayLines arith endOffset next (e.expand next.gcodePosition.e) line.span.stop
              (budget.map (· - 1)) lines

def replayFileE (arith : Arithmetic K) (cases : CaseMapping) (floor : FloorContext)
    (endOffset : ℕ) (tail : FileTail) (config : ReconstructConfig K) : Option (ReplayedE K) :=
  if floor.filePosition < tail.baseOffset ∨ tail.tailEnd < floor.filePosition then none
  else
    match (anchorState floor.ctx.gcode : Except ReconstructError (Gcode.GcodeState K)) with
    | .error _ => none
    | .ok state =>
        let lines := lineIter cases (tail.bytes.drop (floor.filePosition - tail.baseOffset))
          floor.filePosition
        let (file, position, truncated) := replayLines arith endOffset state
          (.point state.gcodePosition.e) floor.filePosition config.sim.maxLines lines
        some ⟨file, !truncated && (decide (endOffset ≤ position) || decide (tail.tailEnd ≤ position))⟩

/-- The base and the factor of the filament at a context. -/
def eFrameOf (gcode : Wal.GcodeState) : Option (K × K) := do
  let posE ← gcode.position[3]?
  let gposE ← gcode.gcodePosition[3]?
  let factor := gcode.extrudeFactor
  guard (factor.isFinite && decide (0 < factor.toRat) && posE.isFinite && gposE.isFinite)
  pure (exact posE - exact gposE * exact factor, exact factor)

/-- The interval in the frame of each context that is not too old; the anchor is the last. -/
def convertEToFileFrame (internal : Interval K) (timeline : WalTimeline K) (window : StopWindow K)
    (anchor : Context) (config : ReconstructConfig K) : Option (Interval K) :=
  let cutoff := window.tA - config.maxProcessingLead - 1
  let recent (ctx : Context) : Bool :=
    (window.monoNsToPrintTime ctx.monoNs).all fun pt => decide (cutoff ≤ pt)
  ((timeline.contexts.dropLast.filter recent ++ [anchor]).filterMap fun ctx =>
    (eFrameOf ctx.gcode : Option (K × K))).foldl (fun out frame =>
      unionOption out (some (.fromPair ((internal.lo - frame.1) / frame.2)
        ((internal.hi - frame.1) / frame.2)))) none

def fileFrameE (arith : Arithmetic K) (cases : CaseMapping) (timeline : WalTimeline K)
    (window : StopWindow K) (anchor : Context) (floor : Option FloorContext)
    (extension : Option (ExtensionResult K)) (fileTail : Option FileTail)
    (walE : Option (Interval K)) (config : ReconstructConfig K) (d : Degradation) :
    Option (Interval K) × Degradation :=
  let endOffset := (extension.bind (·.summary.resumeOffset)).or
    (anchor.virtualSdcard.map (·.filePosition))
  let replay := match floor, fileTail, endOffset with
    | some floor, some tail, some stop => replayFileE arith cases floor stop tail config
    | _, _, _ => none
  let fallback := walE.bind fun i => convertEToFileFrame i timeline window anchor config
  match replay with
  | none => (fallback, { d with eFileFramesIncomplete := true })
  | some replay =>
      if replay.reachedEnd && floor.any fun f => !f.uncertain then (some replay.file, d)
      else
        (unionOption (some replay.file) fallback,
          if !replay.reachedEnd then { d with eFileFramesIncomplete := true } else d)

end FileFrame

section Assembly

variable {K : Type} [Field K] [LinearOrder K]

/-- A gap in the observation reaches into the window. -/
def observationGapOverlapsWindow (timeline : WalTimeline K) (window : StopWindow K)
    (config : ReconstructConfig K) : Bool :=
  let thresholdS := window.printTimeToMonoS (window.tA - config.maxProcessingLead)
  (timeline.markers.filter fun m => isObservationGap m.kind).any fun m =>
    let markerEndS : K := match m.kind with
      | .subscriptionGap _ endMonoNs => nsToS endMonoNs
      | _ => nsToS m.monoNs
    thresholdS.all fun threshold => decide (threshold ≤ markerEndS)

def ZKind.rank : ZKind → ℕ
  | .plateau => 0
  | .ramp => 1

def Provenance.rank : Provenance → ℕ
  | .wal => 0
  | .extension => 1

/-- The order of the candidates: by their bounds, then by what they are. -/
def ZCandidate.ordered (a b : ZCandidate K) : Prop :=
  a.z.lo < b.z.lo ∨ a.z.lo = b.z.lo ∧ (a.z.hi < b.z.hi ∨ a.z.hi = b.z.hi ∧
    (a.kind.rank < b.kind.rank ∨ a.kind.rank = b.kind.rank ∧
      a.provenance.rank ≤ b.provenance.rank))

instance (a b : ZCandidate K) : Decidable (a.ordered b) := by
  unfold ZCandidate.ordered
  infer_instance

/-- The candidate repeats another one within the tolerance. -/
def ZCandidate.repeats (tol : K) (prev c : ZCandidate K) : Bool :=
  prev.kind = c.kind && prev.provenance = c.provenance && prev.zKnown = c.zKnown &&
    decide (|prev.z.lo - c.z.lo| ≤ tol) && decide (|prev.z.hi - c.z.hi| ≤ tol)

/-- Drops what repeats the last candidate that was kept. -/
def dedupZ (tol : K) : Option (ZCandidate K) → List (ZCandidate K) → List (ZCandidate K)
  | _, [] => []
  | last, c :: candidates =>
      if last.any fun prev => prev.repeats tol c then dedupZ tol last candidates
      else c :: dedupZ tol (some c) candidates

def mergeZCandidates (candidates : List (ZCandidate K)) (tol : K) : List (ZCandidate K) :=
  dedupZ tol none (candidates.insertionSort ZCandidate.ordered)

/-- The end of the evaluation: the durable motion, cut where the power was gone. A cut before the
committed motion is refused. Returns also the cut, and whether one was refused. -/
def evalEnd (timeline : WalTimeline K) (window : StopWindow K) : K × Option K × Bool :=
  let baseHigh := match timeline.trapqEndTime with
    | some stop => max stop window.tB
    | none => window.tB
  match powerFailCutPt timeline window with
  | some cut => if window.tB ≤ cut then (min baseHigh cut, some cut, false) else (baseHigh, none, true)
  | none => (baseHigh, none, false)

/-- What the extension adds to the evidence of the journal. -/
def joinExtension (wal : ToolheadSpan K) (walE eFile : Option (Interval K))
    (extension : Option (ExtensionResult K)) :
    List (ZCandidate K) × Option (XyRegion K) × Option (Interval K) × Option (Interval K) :=
  match extension with
  | none => (wal.z, wal.xy, walE, eFile)
  | some ext =>
      (wal.z ++ ext.z,
        match ext.xy, wal.xy with
        | some extXy, some w => some (w.union extXy)
        | some extXy, none => some extXy
        | none, xy => xy,
        unionOption walE ext.eInternal, unionOption eFile ext.eFile)

def computeStopSet (arith : Arithmetic K) (cases : CaseMapping) (timeline : WalTimeline K)
    (window : StopWindow K) (fileTail : Option FileTail) (config : ReconstructConfig K) :
    Except ReconstructError (PossibleStopSet K) := do
  let anchor ← Checks.required .noContext timeline.contexts.getLast?
  let (walEvalEnd, powerFailWindowCut, cutDegenerate) := evalEnd timeline window
  let collapseActive := powerFailWindowCut.isSome
  let wal := evalToolheadSpan timeline.toolheadSegments window.tA walEvalEnd collapseActive
  let walE := evalExtruderSpan timeline.extruderSegments window.tA walEvalEnd collapseActive
  let d := { Degradation.none with
    observationGap := observationGapOverlapsWindow timeline window config
    powerFailCutDegenerate := cutDegenerate }
  let (extension, d) ← runExtension arith cases timeline anchor window walEvalEnd fileTail config d
  let (floor, d) := floorContext timeline window anchor config d
  let (eFile, d) := fileFrameE arith cases timeline window anchor floor extension fileTail walE
    config d
  let (zCandidates, xy, eInternal, eFile) := joinExtension wal walE eFile extension
  let confidence := if d.observationGap || d.extensionUnavailable || d.extensionTruncated ||
    d.extensionError then .perLayer else .perLine
  pure
    { tA := window.tA
      walEvalEnd := walEvalEnd
      zCandidates := mergeZCandidates zCandidates config.zMergeTolerance
      xy := xy
      eInternal := eInternal
      eFile := eFile
      fileWindow := offsetWindow anchor floor extension
      extension := extension.map (·.summary)
      powerFailWindowCut := powerFailWindowCut
      degradation := { d with confidence := confidence } }

end Assembly

end DeadReckoning.Reconstruct
