import DeadReckoning.Analyzer.Matcher
import DeadReckoning.Lib.Sampling
import Mathlib.Order.WithBot

/-! The preview of the resume points: every line in the window on which the print may have ended,
the few of them that the operator steps through, and the one at which each policy begins. -/
namespace DeadReckoning.Analyzer
open Recovery (FeatureClass MoveKind medianIndex isInfill)
open Wal (Point)

section Types

def previewMaxLayers : ℕ := 8

def previewMaxReps : ℕ := 7

structure PreviewBounds where
  maxLayers : ℕ
  maxStops : ℕ
  deriving DecidableEq

def PreviewBounds.default : PreviewBounds := ⟨previewMaxLayers, Recovery.previewMaxStops⟩

/-- A line that may be accepted as the last one that was printed. -/
structure PreviewStop where
  index : ℕ
  offset : ℕ
  resumeOffset : ℕ
  xy : Point
  z : F64
  layer : Option ℕ
  feature : FeatureClass
  onInfill : Bool
  isCandidate : Bool
  deriving DecidableEq

structure PreviewSet where
  stops : List PreviewStop
  representatives : List ℕ
  firstIndex : ℕ
  midIndex : ℕ
  lastIndex : ℕ
  corroboratingLayerMark : Option ℕ
  deriving DecidableEq

inductive PreviewRefusal where
  | tooManyLayers (distinct limit : ℕ)
  | tooManyStops (count limit : ℕ)
  deriving DecidableEq

inductive PreviewOutcome where
  | preview (set : PreviewSet)
  | tooWide (refusal : PreviewRefusal)
  | noStops
  | invalidEvidence (field : String)
  deriving DecidableEq

/-- Which objects are cancelled, and whether a no can be trusted. -/
structure ExclusionOracle where
  isConclusive : Bool
  isExcluded : Text → Bool

inductive AnchorPolicy where
  | first
  | mid
  | last
  deriving DecidableEq

end Types

section Representatives

/-- A candidate stop, as far as the choice of the representatives goes. -/
structure RepInput where
  index : ℕ
  xy : Xy
  offset : ℕ
  deriving DecidableEq

def RepInput.key (c : RepInput) : ℕ ×ₗ ℕ := toLex (c.offset, c.index)

/-- How far a candidate is from the nearest of the chosen ones, infinitely far from none. -/
def minDistanceSq (chosen : List RepInput) (c : RepInput) : WithTop ℚ :=
  (chosen.map fun s => (pointDistanceSq s.xy c.xy : WithTop ℚ)).foldl min ⊤

/-- The earliest and the latest candidate, and then those furthest from all that are chosen. -/
def representatives (candidates : List RepInput) (cap : ℕ) : List ℕ :=
  match candidates.argmin RepInput.key, candidates.reverse.argmax RepInput.key with
  | some lo, some hi =>
      if cap = 0 then []
      else
        let ends := if hi.index ≠ lo.index then [lo, hi] else [lo]
        let chosen := Sampling.sample RepInput.index RepInput.key minDistanceSq candidates
          (cap - ends.length) ends
        ((chosen.map RepInput.index).insertionSort (· ≤ ·)).dedup
  | _, _ => []

end Representatives

section Stops

variable (model : LayerModel) (exclusions : Option ExclusionOracle)

/-- The class of the path on which the line of the move is. -/
def featureOf (m : SimMove) : FeatureClass :=
  ((m.layer.bind (model.layers[·]?)).bind fun layer =>
    layer.paths.findSome? fun p =>
      if p.segments.any (·.span.start = m.span.start) then some p.featureClass else none).getD .other

/-- The move belongs to a cancelled object. One without an object cannot be cancelled. -/
def isExcludedMove (m : SimMove) : Bool :=
  match exclusions, m.object with
  | some oracle, some object => oracle.isExcluded object
  | _, _ => false

def firstKeptDepositionAtOrAfter (offset : ℕ) : Option SimMove :=
  model.moves.find? fun m =>
    m.kind = .extrusion && offset ≤ m.span.start && !isExcludedMove exclusions m

/-- Where the print goes on when the line of the move was the last one: at the next deposition that
is kept, unless its position was lost, or behind the line when none is left. -/
def resumeAfter (m : SimMove) : Option ℕ :=
  match firstKeptDepositionAtOrAfter model exclusions m.span.stop with
  | some next => if next.startPositionKnown then some next.span.start else none
  | none => some m.span.stop

def stopOf (candidateOffsets : List ℕ) (index : ℕ) (m : SimMove) (resumeOffset : ℕ) : PreviewStop :=
  let feature := featureOf model m
  { index := min index u32Max
    offset := m.span.start
    resumeOffset
    xy := (m.start.x, m.start.y)
    z := m.start.z
    layer := m.layer
    feature
    onInfill := isInfill feature
    isCandidate := m.span.start ∈ candidateOffsets }

/-- The stops with those of one more move. -/
def addStop (candidateOffsets : List ℕ) (stops : List PreviewStop) (m : SimMove) :
    List PreviewStop :=
  if !m.startPositionKnown then stops
  else if isExcludedMove exclusions m then stops
  else
    match resumeAfter model exclusions m with
    | none => stops
    | some resumeOffset => stops ++ [stopOf model candidateOffsets stops.length m resumeOffset]

def buildStops (rawDomain : List SimMove) (candidateOffsets : List ℕ) : List PreviewStop :=
  rawDomain.foldl (addStop model exclusions candidateOffsets) []

end Stops

section Anchors

variable (stops : List PreviewStop)

/-- The last stop after which the print goes on at an offset. -/
def stopResumingAt (resume : ℕ) : Option ℕ :=
  (stops.reverse.find? (·.resumeOffset = resume)).map (·.index)

/-- The last stop at an offset. -/
def stopAtOffset (offset : ℕ) : Option ℕ :=
  (stops.reverse.find? (·.offset = offset)).map (·.index)

/-- The last stop at or before an offset, the earliest stop when there is none. -/
def nearestStopAtOrBefore (offset : ℕ) : ℕ :=
  let before := (stops.filter (·.offset ≤ offset)).reverse.argmax
    fun s => (toLex (s.offset, s.index) : ℕ ×ₗ ℕ)
  ((before.or stops.head?).map (·.index)).getD 0

def anchorIndex (model : LayerModel) (sortedOffsets : List ℕ) (policy : AnchorPolicy)
    (exclusions : Option ExclusionOracle) : ℕ :=
  match policy with
  | .last =>
      let base := sortedOffsets.getLastD 0
      let resume := (firstKeptDepositionAtOrAfter model exclusions base).filter
        (·.startPositionKnown)
      (resume.bind fun m =>
        (stopResumingAt stops m.span.start).or (stopAtOffset stops m.span.start)).getD
          (nearestStopAtOrBefore stops base)
  | .first | .mid =>
      let base := match policy with
        | .first => sortedOffsets.headD 0
        | _ => sortedOffsets.getD (medianIndex sortedOffsets.length) 0
      (stopAtOffset stops base).getD (nearestStopAtOrBefore stops base)

end Anchors

section Building

variable (model : LayerModel) (evidence : StopEvidence) (config : MatchConfig)
  (exclusions : Option ExclusionOracle) (bounds : PreviewBounds)

def invalidField : MatchError → String
  | .invalidEvidence field | .invalidConfig field => field
  | _ => "unknown"

/-- The lines that agree with the evidence, in the order of the file. -/
def candidateLines : List ℕ :=
  (((collectCandidates evidence config model).1.map (·.offset)).insertionSort (· ≤ ·)).dedup

/-- The depositions in the window. -/
def rawDomain : List SimMove :=
  model.moves.filter fun m => m.kind = .extrusion && inWindow m evidence.window

def repInputs (stops : List PreviewStop) : List RepInput :=
  (stops.filter (·.isCandidate)).map fun s => ⟨s.index, (s.xy.1.toRat, s.xy.2.toRat), s.offset⟩

def buildPreview : PreviewOutcome :=
  match validate evidence config with
  | .error err => .invalidEvidence (invalidField err)
  | .ok () =>
      let layers := layersOf (collectCandidates evidence config model).1
      let domain := rawDomain model evidence
      if bounds.maxLayers < layers.length then
        .tooWide (.tooManyLayers layers.length bounds.maxLayers)
      else if bounds.maxStops < domain.length then
        .tooWide (.tooManyStops domain.length bounds.maxStops)
      else
        let lines := candidateLines model evidence config
        let stops := buildStops model exclusions domain lines
        if stops.isEmpty || (stops.filter (·.isCandidate)).isEmpty then .noStops
        else
          .preview {
            stops
            representatives := representatives (repInputs stops) previewMaxReps
            firstIndex := anchorIndex stops model lines .first exclusions
            midIndex := anchorIndex stops model lines .mid exclusions
            lastIndex := anchorIndex stops model lines .last exclusions
            corroboratingLayerMark := none }

end Building

end DeadReckoning.Analyzer
