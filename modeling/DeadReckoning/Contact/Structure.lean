import DeadReckoning.Contact.Islands
import Mathlib.Data.List.Sort
import Mathlib.Order.WithBot

/-! Whether the part survives being touched: its islands, what holds each of them to the bed, and
the verdict on a point. -/
namespace DeadReckoning.Contact
open Gcode (Arithmetic)

section Types

structure Island (K : Type) where
  layer : ℕ
  index : ℕ
  bbox : BoundingBox K
  area : K
  centroid : Xy K
  segmentCount : ℕ
  pathLength : K
  estimateDegraded : Bool

inductive StructuralCriterion where
  | bedAdhesion
  | tipping
  | featureWidth
  | edgeMargin
  | dragRun
  deriving DecidableEq

inductive CriterionUnit where
  | millimetres
  | squareMillimetres
  | ratio
  deriving DecidableEq

structure CriterionCheck (K : Type) where
  criterion : StructuralCriterion
  passed : Bool
  measured : K
  threshold : K
  unit : CriterionUnit

inductive StructuralOutcome where
  | safe
  | notSafe (primary : StructuralCriterion)
  deriving DecidableEq

/-- How far down the stack an island could be traced. -/
inductive TraceStatus (K : Type) where
  | onBed
  | anchored
  | broken (layer : ℕ)
  | bedLayerMissing (layerZeroZ : K)

structure FootprintTrace (K : Type) where
  island : ℕ
  status : TraceStatus K
  bedArea : K
  bedIslandIndices : List ℕ
  weakestLinkArea : K
  effectiveArea : K
  reachedLayer : ℕ

structure ClearRun (K : Type) where
  start : Xy K
  direction : Xy K
  length : K
  island : ℕ
  margin : K

structure StructuralVerdict (K : Type) where
  point : Xy K
  mode : ContactMode K
  layer : ℕ
  island : Island K
  footprint : FootprintTrace K
  checks : List (CriterionCheck K)
  score : K
  centroidAlignment : Option K

inductive InvalidInput where
  | point
  | dragDirection
  | dragRunLength
  deriving DecidableEq

inductive StructuralAssessment (K : Type) where
  | evaluated (verdict : StructuralVerdict K)
  | offMaterial (distance : K) (nearestPoint : Option (Xy K)) (nearestIsland : Option ℕ)
  | invalidPoint (param : InvalidInput)

variable {K : Type}

def TraceStatus.resolved : TraceStatus K → Bool
  | .onBed => true
  | .anchored => true
  | _ => false

/-- The most severe check that fails, if any does. -/
def StructuralVerdict.outcome (v : StructuralVerdict K) : StructuralOutcome :=
  match v.checks.find? fun c => !c.passed with
  | none => .safe
  | some c => .notSafe c.criterion

def StructuralVerdict.failures (v : StructuralVerdict K) : List (CriterionCheck K) :=
  v.checks.filter fun c => !c.passed

def StructuralVerdict.check (v : StructuralVerdict K) (criterion : StructuralCriterion) :
    Option (CriterionCheck K) :=
  v.checks.find? fun c => c.criterion = criterion

end Types

section Numbers

variable {K : Type} [Field K] [LinearOrder K] (arith : Arithmetic K)

def f64Max : ℕ := 2 ^ 1024 - 2 ^ 971

/-- Normalizes a direction, nothing when it has no length. -/
def unit (direction : Xy K) : Option (Xy K) :=
  let length := arith.sqrt (direction.1 * direction.1 + direction.2 * direction.2)
  if !arith.isFinite length || length ≤ 0 then none
  else some (direction.1 / length, direction.2 / length)

def clamp01 (value : K) : K := clamp value 0 1

def finiteOr (value fallback : K) : K := if arith.isFinite value then value else fallback

/-- The cosine of the angle between a drag and the way to the middle of the island. -/
def alignmentOf (point direction centroid : Xy K) : K :=
  match unit arith (centroid.1 - point.1, centroid.2 - point.2) with
  | none => 0
  | some u => direction.1 * u.1 + direction.2 * u.2

end Numbers

section Footprint

/-- What an island rests on so far: islands of the layer reached, the smallest connection on the
way, and where nothing was below. -/
structure Footing (K : Type) where
  group : List ℕ
  weakest : WithTop K
  broken : Option ℕ

variable {K : Type} [Field K] [LinearOrder K] [FloorRing K] (arith : Arithmetic K) (limits : Caps)

/-- The islands of a shape with their rasters; it is `none` where the code would fail. -/
def materialize (shape : LayerShape K) (layer : ℕ) (halfWidth : K) :
    Option (List (Island K × Raster K)) :=
  shape.members.zipIdx.mapM fun (members, index) => do
    let bbox ← shape.bboxes[index]?
    let centroid ← shape.centroids[index]?
    let pathLength ← shape.lengths[index]?
    let raster ←
      Raster.build arith (islandSegments shape.segments members) bbox.lo bbox.hi halfWidth
    pure ({ layer := layer
            index := index
            bbox := bbox
            area := raster.area
            centroid := centroid
            segmentCount := members.length
            pathLength := pathLength
            estimateDegraded := raster.coarsened || raster.truncated }, raster)

/-- For every island of the upper layer the islands that its samples lie on, and how many of its
samples lie on one. -/
def correspond (upper lower : LayerShape K) (tolerance : K) : List (List ℕ) × List ℕ :=
  (upper.samples.zip upper.sampleIsland).foldl (fun (corr, linked) (point, owner) =>
    let hits := lower.hits arith limits point tolerance
    if hits = [] then (corr, linked)
    else (corr.modify owner fun islands => hits.foldl pushNew islands, linked.modify owner (· + 1)))
    (List.replicate upper.islandCount [], List.replicate upper.islandCount 0)

/-- One layer down: each sample that lies on something stands for its spacing of bead. -/
def stepFooting (corr : List (List ℕ)) (linked : List ℕ) (spacing extrusionWidth : K)
    (lowerLayer : ℕ) (f : Footing K) : Footing K :=
  if f.broken.isSome then f
  else
    let count := (f.group.map (entry linked 0)).sum
    let next := f.group.foldl (fun next owner => (entry corr [] owner).foldl pushNew next) []
    let area := (count : K) * spacing * extrusionWidth
    if next = [] then
      { f with weakest := min f.weakest area, broken := some (lowerLayer + 1) }
    else { f with group := next.insertionSort (· ≤ ·), weakest := min f.weakest area }

def stepDown (upper lower : LayerShape K) (lowerLayer : ℕ) (config : ContactConfig K)
    (footings : List (Footing K)) : List (Footing K) :=
  let (corr, linked) := correspond arith limits upper lower config.islandLinkTolerance
  footings.map (stepFooting corr linked upper.spacing config.extrusionWidth lowerLayer)

/-- All the way down to the bed, nothing when a layer is missing. -/
def descend (model : LayerModel K) (config : ContactConfig K) :
    ℕ → LayerShape K → List (Footing K) → Option (LayerShape K × List (Footing K))
  | 0, upper, footings => some (upper, footings)
  | layer + 1, upper, footings =>
      match model.layer layer with
      | none => none
      | some next =>
          let lower := LayerShape.build arith limits next config.islandLinkTolerance
          descend model config layer lower
            (stepDown arith limits upper lower layer config footings)

def unresolvedTraces (count : ℕ) (status : TraceStatus K) (reachedLayer : ℕ) :
    List (FootprintTrace K) :=
  (List.range count).map fun island =>
    { island := island
      status := status
      bedArea := 0
      bedIslandIndices := []
      weakestLinkArea := 0
      effectiveArea := 0
      reachedLayer := reachedLayer }

def onBedTrace (island : Island K) : FootprintTrace K where
  island := island.index
  status := .onBed
  bedArea := island.area
  bedIslandIndices := [island.index]
  weakestLinkArea := island.area
  effectiveArea := island.area
  reachedLayer := 0

def assembleTrace (island : ℕ) (f : Footing K) (bed : List (Island K)) : FootprintTrace K :=
  let status : TraceStatus K := match f.broken with
    | none => .anchored
    | some layer => .broken layer
  let indices := if status.resolved then f.group.filter (· < bed.length) else []
  let bedArea := (indices.filterMap fun i => bed[i]?.map Island.area).sum
  let link := match f.weakest with
    | ⊤ => bedArea
    | (v : K) => finiteOr arith v bedArea
  { island := island
    status := status
    bedArea := bedArea
    bedIslandIndices := indices
    weakestLinkArea := link
    effectiveArea := if status.resolved then min bedArea link else 0
    reachedLayer := match f.broken with
      | none => 0
      | some layer => layer }

/-- Traces every island of a layer down to the bed. -/
def traceStack (model : LayerModel K) (topLayer : ℕ) (top : LayerShape K)
    (config : ContactConfig K) : Option (List (FootprintTrace K) × List (Island K)) :=
  let halfWidth := config.extrusionWidth / 2
  if topLayer = 0 then
    (materialize arith top 0 halfWidth).map fun bed =>
      (bed.map fun (island, _) => onBedTrace island, bed.map Prod.fst)
  else
    let zeroZ := match model.layers.head? with
      | none => (f64Max : K)
      | some layer => layer.z
    let missing := unresolvedTraces top.islandCount
      (.bedLayerMissing (finiteOr arith zeroZ (f64Max : K))) topLayer
    if zeroZ ≤ 1 then
      match descend arith limits model config topLayer top
          ((List.range top.islandCount).map fun i => ⟨[i], ⊤, none⟩) with
      | none => some (missing, [])
      | some (upper, footings) =>
          (materialize arith upper 0 halfWidth).map fun bed =>
            (footings.zipIdx.map fun (f, island) => assembleTrace arith island f (bed.map Prod.fst),
              bed.map Prod.fst)
    else some (missing, [])

end Footprint

section Analysis

/-- The islands of a layer with what holds them. -/
structure StructuralAnalysis (K : Type) where
  layer : ℕ
  layerZ : K
  islands : List (Island K)
  rasters : List (Raster K)
  bedIslands : List (Island K)
  traces : List (FootprintTrace K)
  samples : List (Xy K)
  sampleIsland : List ℕ
  config : ContactConfig K

variable {K : Type} [Field K] [LinearOrder K] [FloorRing K] (arith : Arithmetic K) (limits : Caps)

/-- It is `none` where the code would fail. -/
def StructuralAnalysis.build (model : LayerModel K) (layer : ℕ) (config : ContactConfig K) :
    Option (Except ContactError (StructuralAnalysis K)) :=
  match validateConfig arith config with
  | .error e => some (.error e)
  | .ok () =>
      match model.layer layer with
      | none => some (.error (.layerOutOfRange layer model.layers.length))
      | some top => do
          let shape := LayerShape.build arith limits top config.islandLinkTolerance
          let materialized ← materialize arith shape layer (config.extrusionWidth / 2)
          let (traces, bed) ← traceStack arith limits model layer shape config
          pure (.ok {
            layer := layer
            layerZ := top.z
            islands := materialized.map Prod.fst
            rasters := materialized.map Prod.snd
            bedIslands := bed
            traces := traces
            samples := shape.samples
            sampleIsland := shape.sampleIsland
            config := config })

/-- The island whose material covers a point. -/
def StructuralAnalysis.islandAt (a : StructuralAnalysis K) (point : Xy K) : Option ℕ :=
  if finitePoint arith point then
    a.islands.findIdx? fun island => island.bbox.contains point a.config.extrusionWidth &&
      (a.rasters[island.index]?.any fun raster => raster.isMaterial arith point)
  else none

/-- The nearest sample, with its distance and its island. -/
def StructuralAnalysis.nearest (a : StructuralAnalysis K) (point : Xy K) :
    Option (K × Xy K × ℕ) :=
  (a.samples.zip a.sampleIsland).foldl (fun best (sample, island) =>
    let distance := pointDistance arith point sample
    if !arith.isFinite distance then best
    else
      match best with
      | none => some (distance, sample, island)
      | some (current, _, _) =>
          if distance < current then some (distance, sample, island) else best) none

def minStep : K := 1 / 20

def maxRunSteps : ℕ := 8192

/-- How far a run gets, at every step of the way on material with the margin around it. -/
def march (raster : Raster K) (margin : K) (start direction : Xy K) (limit step : K) :
    List ℕ → K → K
  | [], reached => reached
  | k :: rest, reached =>
      let distance := min ((k : K) * step) limit
      let point := (start.1 + direction.1 * distance, start.2 + direction.2 * distance)
      if !raster.isMaterial arith point || raster.clearanceAt arith point < margin then reached
      else if limit ≤ distance then distance
      else march raster margin start direction limit step rest distance

def StructuralAnalysis.clearRun (a : StructuralAnalysis K) (island : ℕ) (start direction : Xy K)
    (limit : K) : K :=
  match a.rasters[island]?, unit arith direction with
  | some raster, some direction =>
      if !arith.isFinite limit || limit ≤ 0 || !finitePoint arith start then 0
      else
        let step := max raster.cell minStep
        let steps := min (toUsize ⌈limit / step⌉) maxRunSteps
        march arith raster a.config.minEdgeMargin start direction limit step
          (List.range (steps + 1)) 0
  | _, _ => 0

def runDirections : ℕ := 16

/-- The longest run from a point, over directions all around. -/
def StructuralAnalysis.largestClearRun (a : StructuralAnalysis K) (island : ℕ) (start : Xy K) :
    Option (ClearRun K) :=
  match a.islands[island]? with
  | none => none
  | some place =>
      let limit := max (finiteOr arith (place.bbox.diagonal arith) 1) 1
      (List.range runDirections).foldl (fun best step =>
        let angle := 2 * arith.pi * (step : K) / (runDirections : K)
        let direction := (arith.cos angle, arith.sin angle)
        let length := a.clearRun arith island start direction limit
        let run : ClearRun K := ⟨start, direction, length, island, a.config.minEdgeMargin⟩
        match best with
        | none => some run
        | some current => if current.length < length then some run else best) none

def areaFloor : K := 1 / 1000000

def adhesionCheck (area threshold : K) : CriterionCheck K :=
  ⟨.bedAdhesion, threshold ≤ area, area, threshold, .squareMillimetres⟩

def tippingCheck (aspect threshold : K) : CriterionCheck K :=
  ⟨.tipping, aspect ≤ threshold, aspect, threshold, .ratio⟩

def widthCheck (minDimension threshold : K) : CriterionCheck K :=
  ⟨.featureWidth, threshold ≤ minDimension, minDimension, threshold, .millimetres⟩

def marginCheck (clearance threshold : K) : CriterionCheck K :=
  ⟨.edgeMargin, threshold ≤ clearance, clearance, threshold, .millimetres⟩

def runCheck (available required : K) : CriterionCheck K :=
  ⟨.dragRun, required ≤ available, available, required, .millimetres⟩

/-- The part of a check in the score; it is full at twice the threshold. -/
def scoreTerm (check : CriterionCheck K) : K :=
  match check.criterion with
  | .tipping => clamp01 ((2 * check.threshold - check.measured) / (2 * check.threshold))
  | _ => clamp01 (check.measured / (2 * check.threshold))

/-- How desirable a point is, between zero and one. -/
def scoreOf (checks : List (CriterionCheck K)) (alignment : Option K) : K :=
  let terms := checks.map scoreTerm ++ (alignment.map fun a => clamp01 ((1 + a) / 2)).toList
  if terms = [] then 0 else terms.sum / (terms.length : K)

/-- The verdict on a point of an island; it is `none` where the code would fail. -/
def StructuralAnalysis.verdict (a : StructuralAnalysis K) (index : ℕ) (point : Xy K)
    (mode : ContactMode K) : Option (StructuralVerdict K) := do
  let island ← a.islands[index]?
  let footprint ← a.traces[index]?
  let raster ← a.rasters[index]?
  let height := max (finiteOr arith a.layerZ (f64Max : K)) 0
  let aspect := finiteOr arith (height / arith.sqrt (max footprint.effectiveArea areaFloor))
    (f64Max : K)
  let checks := [adhesionCheck footprint.effectiveArea a.config.minBedContactArea,
    tippingCheck aspect a.config.maxAspectRatio,
    widthCheck island.bbox.minDimension a.config.minFeatureWidth,
    marginCheck (raster.clearanceAt arith point) a.config.minEdgeMargin]
  let (checks, alignment) := match mode with
    | .tap => (checks, none)
    | .drag direction runLength =>
        let direction := (unit arith direction).getD (1, 0)
        let run := a.clearRun arith index point direction runLength
        (checks ++ [runCheck run runLength],
          some (alignmentOf arith point direction island.centroid))
  pure {
    point := point
    mode := mode
    layer := a.layer
    island := island
    footprint := footprint
    checks := checks
    score := scoreOf checks alignment
    centroidAlignment := alignment }

/-- Why a drag is not one: it has no direction, or no length. -/
def invalidMode : ContactMode K → Option InvalidInput
  | .tap => none
  | .drag direction runLength =>
      if (unit arith direction).isNone then some .dragDirection
      else if !arith.isFinite runLength || runLength ≤ 0 then some .dragRunLength
      else none

/-- The assessment of a point; it is `none` where the code would fail. -/
def StructuralAnalysis.assess (a : StructuralAnalysis K) (point : Xy K) (mode : ContactMode K) :
    Option (StructuralAssessment K) :=
  if !finitePoint arith point then some (.invalidPoint .point)
  else
    match invalidMode arith mode with
    | some param => some (.invalidPoint param)
    | none =>
        match a.islandAt arith point with
        | some index => (a.verdict arith index point mode).map .evaluated
        | none =>
            match a.nearest arith point with
            | none => some (.offMaterial (f64Max : K) none none)
            | some (distance, sample, island) => some (.offMaterial distance sample island)

end Analysis

end DeadReckoning.Contact
