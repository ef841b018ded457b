import DeadReckoning.Contact.Structure

/-! The selection of where the nozzle may touch the layer below the one that is resumed. -/
namespace DeadReckoning.Contact
open Gcode (Arithmetic ByteSpan)
open Recovery (FeatureClass)

section Types

structure ProbeCandidate (K : Type) where
  point : Xy K
  z : K
  featureClass : FeatureClass
  hostSpan : ByteSpan
  hostLength : K
  distanceFromCrash : K
  sampleT : K

/-- What is said of a candidate that a check fails. The island is missing where the point is on
none. -/
structure RejectedCandidate (K : Type) where
  point : Xy K
  z : K
  featureClass : FeatureClass
  distanceFromCrash : K
  island : Option ℕ
  score : K
  primary : StructuralCriterion
  failures : List (CriterionCheck K)

inductive DeclineReason (K : Type) where
  | vaseMode (spiralFraction : K)
  | singleWall
  | noEligiblePaths
  | noSafeZone (segmentsConsidered : ℕ)
  | noStructurallySafePoint (candidatesEvaluated : ℕ) (rejected : List (RejectedCandidate K))
      (requiredRunLength : Option K) (largestClearRun : Option (ClearRun K))

inductive ContactOutcome (K : Type) where
  | candidates (candidates : List (ProbeCandidate K))
  | declined (reason : DeclineReason K)

structure ContactSelection (K : Type) where
  outcome : ContactOutcome K
  verdicts : List (StructuralVerdict K)
  rejected : List (RejectedCandidate K)

/-- A candidate with what it is ranked by. -/
structure Scored (K : Type) where
  candidate : ProbeCandidate K
  score : K
  verdict : Option (StructuralVerdict K)

end Types

section Sampling

variable {K : Type} [Field K] [LinearOrder K] (arith : Arithmetic K)

/-- Where a segment is sampled, in the order in which it is tried. -/
def sampleTs : List K := [1 / 2, 7 / 20, 13 / 20, 1 / 4, 3 / 4]

def coveredBy (point : Xy K) (layer : Layer K) (tolerance : K) : Bool :=
  layer.segments.any fun seg => pointSegDistance arith point seg.start seg.stop ≤ tolerance

/-- All of the host is finite, its height too. -/
def hostFinite (seg : XySegment K) : Bool :=
  finitePoint arith seg.start && finitePoint arith seg.stop && arith.isFinite seg.z

/-- The sample at a parameter, if it is far enough from the crash and covered. -/
def sampleAt (seg : XySegment K) (featureClass : FeatureClass) (crashXy : Xy K) (layerN : Layer K)
    (config : ContactConfig K) (t : K) : Option (ProbeCandidate K) :=
  let point := seg.pointAt t
  let distance := pointDistance arith point crashXy
  if distance ≤ config.exclusionRadius then none
  else if !coveredBy arith point layerN config.coverageTolerance then none
  else
    some {
      point := point
      z := seg.z
      featureClass := featureClass
      hostSpan := seg.span
      hostLength := seg.length arith
      distanceFromCrash := distance
      sampleT := t }

/-- The first sample that is. -/
def sampleSegment (seg : XySegment K) (featureClass : FeatureClass) (crashXy : Xy K)
    (layerN : Layer K) (config : ContactConfig K) : Option (ProbeCandidate K) :=
  sampleTs.findSome? (sampleAt arith seg featureClass crashXy layerN config)

end Sampling

section Ranking

variable {K : Type} [LinearOrder K]

/-- The rank of a class, with the ones that are never touched last. -/
def rankOf (c : FeatureClass) : ℕ := (probeRank c).getD 255

def rankCmp (a b : Scored K) : Ordering :=
  (compare (rankOf a.candidate.featureClass) (rankOf b.candidate.featureClass)).then <|
    (compare b.score a.score).then <|
      (compare b.candidate.distanceFromCrash a.candidate.distanceFromCrash).then <|
        (compare b.candidate.hostLength a.candidate.hostLength).then
          (compare a.candidate.hostSpan.start b.candidate.hostSpan.start)

def rejectCmp (a b : RejectedCandidate K) : Ordering :=
  (compare b.score a.score).then <|
    (compare (rankOf a.featureClass) (rankOf b.featureClass)).then <|
      (compare b.distanceFromCrash a.distanceFromCrash).then <|
        (compare a.point.1 b.point.1).then (compare a.point.2 b.point.2)

/-- The stable sort. -/
def sortBy {α : Type} (cmp : α → α → Ordering) (l : List α) : List α :=
  l.insertionSort fun a b => cmp a b ≠ .gt

end Ranking

section Selecting

variable {K : Type} [Field K] [LinearOrder K] [FloorRing K] (arith : Arithmetic K) (limits : Caps)

/-- What is said of a candidate that fails; nothing when it is safe. -/
def rejection (candidate : ProbeCandidate K) (verdict : StructuralVerdict K) :
    Option (RejectedCandidate K) :=
  match verdict.outcome with
  | .safe => none
  | .notSafe primary =>
      some {
        point := candidate.point
        z := candidate.z
        featureClass := candidate.featureClass
        distanceFromCrash := candidate.distanceFromCrash
        island := some verdict.island.index
        score := verdict.score
        primary := primary
        failures := verdict.failures }

def offMaterialRejection (candidate : ProbeCandidate K) : RejectedCandidate K where
  point := candidate.point
  z := candidate.z
  featureClass := candidate.featureClass
  distanceFromCrash := candidate.distanceFromCrash
  island := none
  score := 0
  primary := .edgeMargin
  failures := [⟨.edgeMargin, false, 0, 0, .millimetres⟩]

/-- The verdict on a candidate that is safe, or its rejection; it is `none` where the code would
fail. -/
def classify (analysis : StructuralAnalysis K) (candidate : ProbeCandidate K)
    (mode : ContactMode K) : Option (Except (RejectedCandidate K) (StructuralVerdict K)) :=
  (analysis.assess arith candidate.point mode).map fun assessment =>
    match assessment with
    | .evaluated verdict =>
        match rejection candidate verdict with
        | some rejected => .error rejected
        | none => .ok verdict
    | .offMaterial _ _ _ => .error (offMaterialRejection candidate)
    | .invalidPoint _ => .error (offMaterialRejection candidate)

/-- The candidates so far, parted, and the longest run from one that was rejected. -/
structure Parting (K : Type) where
  accepted : List (Scored K)
  rejected : List (RejectedCandidate K)
  bestRun : Option (ClearRun K)

def longerRun (best run : Option (ClearRun K)) : Option (ClearRun K) :=
  match best, run with
  | best, none => best
  | none, some run => some run
  | some b, some run => if b.length < run.length then some run else some b

def partCandidate (analysis : StructuralAnalysis K) (mode : ContactMode K) (s : Parting K)
    (candidate : ProbeCandidate K) : Option (Parting K) :=
  (classify arith analysis candidate mode).map fun classified =>
    match classified with
    | .ok verdict => { s with accepted := s.accepted ++ [⟨candidate, verdict.score, some verdict⟩] }
    | .error rejection =>
        let bestRun := match mode, rejection.island with
          | .drag _ _, some island =>
              longerRun s.bestRun (analysis.largestClearRun arith island candidate.point)
          | _, _ => s.bestRun
        { s with rejected := s.rejected ++ [rejection], bestRun := bestRun }

def structuralSelection (model : LayerModel K) (prevIndex : ℕ) (sampled : List (ProbeCandidate K))
    (config : ContactConfig K) : Option (Except ContactError (ContactSelection K)) := do
  match ← StructuralAnalysis.build arith limits model prevIndex config with
  | .error e => pure (.error e)
  | .ok analysis =>
      let parted ←
        sampled.foldlM (partCandidate arith analysis config.contactMode) ⟨[], [], none⟩
      let rejected := (sortBy rejectCmp parted.rejected).take config.maxCandidates
      if parted.accepted.isEmpty then
        let requiredRunLength := match config.contactMode with
          | .drag _ runLength => some runLength
          | .tap => none
        pure (.ok {
          outcome := .declined (.noStructurallySafePoint sampled.length rejected requiredRunLength
            parted.bestRun)
          verdicts := []
          rejected := rejected })
      else
        let accepted := (sortBy rankCmp parted.accepted).take config.maxCandidates
        pure (.ok {
          outcome := .candidates (accepted.map Scored.candidate)
          verdicts := accepted.filterMap Scored.verdict
          rejected := rejected })

/-- The segments that may host a candidate, each with its class. -/
def eligibleSegments (prev : Layer K) : List (FeatureClass × XySegment K) :=
  (prev.paths.filter fun path => path.typeName.isSome && probeEligible path.featureClass).flatMap
    fun path => path.segments.map fun seg => (path.featureClass, seg)

/-- Those that are long enough. -/
def consideredSegments (prev : Layer K) (config : ContactConfig K) :
    List (FeatureClass × XySegment K) :=
  (eligibleSegments prev).filter fun (_, seg) =>
    !(!hostFinite arith seg || seg.length arith < config.minSegmentLength)

def sampledCandidates (prev current : Layer K) (crashXy : Xy K) (config : ContactConfig K) :
    List (ProbeCandidate K) :=
  (consideredSegments arith prev config).filterMap fun (featureClass, seg) =>
    sampleSegment arith seg featureClass crashXy current config

def declined (reason : DeclineReason K) : Option (Except ContactError (ContactSelection K)) :=
  some (.ok ⟨.declined reason, [], []⟩)

/-- Ranked places to touch, or why there are none; it is `none` where the code would fail. -/
def selectContactZoneDetailed (model : LayerModel K) (resumeLayer : ℕ) (crashXy : Xy K)
    (config : ContactConfig K) : Option (Except ContactError (ContactSelection K)) :=
  match validate arith crashXy config with
  | .error e => some (.error e)
  | .ok () =>
      match resumeLayer with
      | 0 => some (.error (.layerOutOfRange 0 model.layers.length))
      | prevIndex + 1 =>
          match model.layer prevIndex, model.layer (prevIndex + 1) with
          | some prev, some current =>
              if !model.annotated then some (.error .noTypeAnnotations)
              else if !prev.paths.any fun path => path.typeName.isSome then
                some (.error (.unannotatedLayer prev.index))
              else if config.spiralThreshold ≤ model.spiralFraction then
                declined (.vaseMode model.spiralFraction)
              else if (eligibleSegments prev).isEmpty then
                let onlyWalls := (prev.paths.filter fun path => path.typeName.isSome).all fun path =>
                  path.featureClass = .outerWall || path.featureClass = .surface
                declined (if onlyWalls then .singleWall else .noEligiblePaths)
              else
                let sampled := sampledCandidates arith prev current crashXy config
                if sampled.isEmpty then
                  declined (.noSafeZone (consideredSegments arith prev config).length)
                else if !config.structuralChecksEnabled then
                  let scored := (sortBy rankCmp (sampled.map fun candidate =>
                    ⟨candidate, 0, none⟩)).take config.maxCandidates
                  some (.ok ⟨.candidates (scored.map Scored.candidate), [], []⟩)
                else structuralSelection arith limits model prevIndex sampled config
          | _, _ => some (.error (.layerOutOfRange (prevIndex + 1) model.layers.length))

/-- The outcome alone. -/
def selectContactZone (model : LayerModel K) (resumeLayer : ℕ) (crashXy : Xy K)
    (config : ContactConfig K) : Option (Except ContactError (ContactOutcome K)) :=
  (selectContactZoneDetailed arith limits model resumeLayer crashXy config).map fun selection =>
    selection.map ContactSelection.outcome

end Selecting

end DeadReckoning.Contact
