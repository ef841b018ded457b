import DeadReckoning.Lib.Checks
import DeadReckoning.Lib.Collapse
import DeadReckoning.Analyzer.Geometry
import DeadReckoning.Analyzer.Model
import Mathlib.Order.Compare

/-! The line matcher: which lines of the print file agree with where the machine has stopped. -/
namespace DeadReckoning.Analyzer
open Checks
open Gcode (ArcSegmentInfo Axes Axis ByteSpan)
open Recovery (MatchConfidence MoveKind)

section Evidence

/-- A closed interval. -/
structure Interval where
  min : ℚ
  max : ℚ
  deriving DecidableEq

def Interval.midpoint (i : Interval) : ℚ := (i.min + i.max) * (1 / 2)

/-- How far the interval is from a range, nothing where they overlap. -/
def Interval.gapToRange (i : Interval) (lo hi : ℚ) : ℚ :=
  if hi < i.min then i.min - hi else if i.max < lo then lo - i.max else 0

structure ByteWindow where
  start : ℕ
  stop : Option ℕ
  deriving DecidableEq

/-- Where the machine may have stopped. Its numbers are finite, others have been refused. -/
structure StopEvidence where
  x : Interval
  y : Interval
  e : Option Interval
  zCandidates : List ℚ
  window : ByteWindow
  deriving DecidableEq

structure MatchConfig where
  xyTolerance : ℚ
  eTolerance : ℚ
  zTolerance : ℚ
  ambiguityLimit : ℕ
  deriving DecidableEq

/-- A line that agrees with the evidence. The distance is kept as its square. -/
structure MatchCandidate where
  offset : ℕ
  span : ByteSpan
  position : Axes ℚ
  eAgreement : ℚ
  xyDistanceSq : ℚ
  layer : Option ℕ
  kind : MoveKind
  arc : Option ArcSegmentInfo
  deriving DecidableEq

structure MatchResult where
  candidates : List MatchCandidate
  confidence : MatchConfidence
  skippedUnknown : ℕ
  deriving DecidableEq

inductive MatchError where
  | invalidEvidence (field : String)
  | invalidConfig (field : String)
  | noMatch
  | inconclusive (lines : ℕ) (layers : List ℕ)
  deriving DecidableEq

/-- Refuses tolerances below zero and turned intervals, the first offending field named. -/
def validate (evidence : StopEvidence) (config : MatchConfig) : Except MatchError Unit := do
  ensure (0 ≤ config.xyTolerance) (.invalidConfig "xy_tolerance")
  ensure (0 ≤ config.eTolerance) (.invalidConfig "e_tolerance")
  ensure (0 ≤ config.zTolerance) (.invalidConfig "z_tolerance")
  ensure (config.ambiguityLimit ≠ 0) (.invalidConfig "ambiguity_limit")
  ensure (evidence.x.min ≤ evidence.x.max) (.invalidEvidence "x")
  ensure (evidence.y.min ≤ evidence.y.max) (.invalidEvidence "y")
  ensure (evidence.e.all fun e => e.min ≤ e.max) (.invalidEvidence "e")
  ensure (evidence.window.stop.all fun stop => evidence.window.start ≤ stop)
    (.invalidEvidence "window")

end Evidence

section Evaluation

def inWindow (m : SimMove) (window : ByteWindow) : Bool :=
  window.start < m.span.stop && window.stop.all fun stop => m.span.start < stop

/-- The axes that the evidence says something about. -/
def requiredAxes (evidence : StopEvidence) : List Axis :=
  [.x, .y] ++ (if evidence.zCandidates.isEmpty then [] else [.z]) ++
    (if evidence.e.isSome then [.e] else [])

def axesKnown (m : SimMove) (evidence : StopEvidence) : Bool :=
  (requiredAxes evidence).all fun axis => m.startKnown.get axis && m.finishKnown.get axis

/-- The ends of a move, when all their coordinates are finite. -/
def SimMove.ends (m : SimMove) : Option (Axes ℚ × Axes ℚ) :=
  let rats (a : Axes F64) : Axes ℚ := ⟨a.x.toRat, a.y.toRat, a.z.toRat, a.e.toRat⟩
  if m.start.all F64.isFinite && m.finish.all F64.isFinite then some (rats m.start, rats m.finish)
  else none

def lerp (a b : Axes ℚ) (t : ℚ) : Axes ℚ :=
  ⟨a.x + (b.x - a.x) * t, a.y + (b.y - a.y) * t, a.z + (b.z - a.z) * t, a.e + (b.e - a.e) * t⟩

variable (evidence : StopEvidence) (config : MatchConfig)

def StopEvidence.boxLo : Xy := (evidence.x.min, evidence.y.min)

def StopEvidence.boxHi : Xy := (evidence.x.max, evidence.y.max)

/-- Some height of the evidence is on the move, within the tolerance. -/
def matchesZ (a b : Axes ℚ) : Bool :=
  evidence.zCandidates.isEmpty || evidence.zCandidates.any fun z =>
    min a.z b.z - config.zTolerance ≤ z ∧ z ≤ max a.z b.z + config.zTolerance

/-- How well the extruder agrees, from one down to nothing at the tolerance. -/
def eAgreementOf (a b : Axes ℚ) : Option ℚ :=
  match evidence.e with
  | none => some 1
  | some interval =>
      let gap := interval.gapToRange (min a.e b.e) (max a.e b.e)
      if config.eTolerance < gap then none
      else if gap ≤ 0 then some 1
      else some (1 - gap / config.eTolerance)

/-- The place on the move: where the extruder is in the middle of the evidence, or what is nearest
to the middle of the box. -/
def matchedT (a b : Axes ℚ) : ℚ :=
  let delta := b.e - a.e
  let nearest := closestPointT
    ((evidence.x.min + evidence.x.max) * (1 / 2), (evidence.y.min + evidence.y.max) * (1 / 2))
    (a.x, a.y) (b.x, b.y)
  match evidence.e with
  | some interval =>
      if delta = 0 then nearest
      else clamp ((clamp interval.midpoint (min a.e b.e) (max a.e b.e) - a.e) / delta) 0 1
  | none => nearest

/-- A move as a candidate, `none` when it disagrees with the evidence. -/
def evaluate (m : SimMove) : Option MatchCandidate :=
  match m.ends with
  | none => none
  | some (a, b) =>
      if !matchesZ evidence config a b then none
      else
        let xyDistanceSq := segBoxDistanceSq (a.x, a.y) (b.x, b.y) evidence.boxLo evidence.boxHi
        if config.xyTolerance * config.xyTolerance < xyDistanceSq then none
        else
          (eAgreementOf evidence config a b).map fun eAgreement => {
            offset := m.span.start
            span := m.span
            position := lerp a b (matchedT evidence a b)
            eAgreement
            xyDistanceSq
            layer := m.layer
            kind := m.kind
            arc := m.arc }

/-- The comparison behind the choice of a chord and behind the order of the lines. -/
def ranksBetter (a b : MatchCandidate) : Bool :=
  match compare b.eAgreement a.eAgreement with
  | .lt => false
  | .gt => true
  | .eq =>
      match compare a.xyDistanceSq b.xyDistanceSq with
      | .lt => true
      | .gt => false
      | .eq => a.offset < b.offset

/-- What one move adds to the lines found so far and to the moves left out. -/
def collectStep (found : List MatchCandidate × ℕ) (m : SimMove) : List MatchCandidate × ℕ :=
  if !inWindow m evidence.window then found
  else if !axesKnown m evidence then (found.1, found.2 + 1)
  else
    match evaluate evidence config m with
    | none => found
    | some c => (Collapse.upsert (·.offset) ranksBetter c found.1, found.2)

/-- One candidate for each line, ranked, and the number of moves left out. -/
def collectCandidates (model : LayerModel) : List MatchCandidate × ℕ :=
  let (byLine, skipped) := model.moves.foldl (collectStep evidence config) ([], 0)
  (Collapse.ranked ranksBetter byLine, skipped)

end Evaluation

section Ladder

/-- The layers at one of the heights of the evidence, in the window. -/
def zLayers (evidence : StopEvidence) (config : MatchConfig) (model : LayerModel) : List ℕ :=
  (model.layers.filter fun layer =>
    layer.zKnown && decide (evidence.window.start < layer.span.stop) &&
      (evidence.window.stop.all fun stop => layer.span.start < stop) &&
      evidence.zCandidates.any fun z =>
        F64.le (F64.abs (F64.fin z - layer.z)) config.zTolerance).map (·.index)

/-- The layers of the candidates, each once, in the order in which they come up. -/
def layersOf (candidates : List MatchCandidate) : List ℕ :=
  candidates.foldl (fun layers c => match c.layer with
    | some layer => if layer ∈ layers then layers else layers ++ [layer]
    | none => layers) []

def confidenceOf (evidence : StopEvidence) (config : MatchConfig) (model : LayerModel)
    (candidates : List MatchCandidate) : Except MatchError MatchConfidence :=
  match candidates with
  | [] =>
      match zLayers evidence config model with
      | [layer] => .ok (.layerOnly layer)
      | _ => .error .noMatch
  | [single] => .ok (.uniqueLine single.offset)
  | _ =>
      if candidates.length ≤ config.ambiguityLimit then
        .ok (.ambiguousWindow ((candidates.map (·.offset)).insertionSort (· ≤ ·)))
      else
        let layers := (layersOf candidates).insertionSort (· ≤ ·)
        match layers, candidates.any (·.layer.isNone) with
        | [layer], false => .ok (.layerOnly layer)
        | _, _ => .error (.inconclusive candidates.length layers)

def matchStopPoint (model : LayerModel) (evidence : StopEvidence) (config : MatchConfig) :
    Except MatchError MatchResult := do
  validate evidence config
  let (candidates, skippedUnknown) := collectCandidates evidence config model
  let confidence ← confidenceOf evidence config model candidates
  .ok ⟨candidates, confidence, skippedUnknown⟩

end Ladder

end DeadReckoning.Analyzer
