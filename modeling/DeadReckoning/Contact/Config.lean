import DeadReckoning.Contact.Geometry
import DeadReckoning.Lib.Checks
import DeadReckoning.Recovery.Inputs

/-! The layers that a contact point is chosen from, and the configuration of the choice. -/
namespace DeadReckoning.Contact
open Checks (ensure)
open Gcode (Arithmetic)
open Recovery (FeatureClass)

section Layers

/-- What is deposited one after the other under one name. -/
structure TypedPath (K : Type) where
  featureClass : FeatureClass
  typeName : Option Text
  segments : List (XySegment K)

structure Layer (K : Type) where
  index : ℕ
  z : K
  paths : List (TypedPath K)
  extrusionMoves : ℕ
  spiralMoves : ℕ

structure LayerModel (K : Type) where
  layers : List (Layer K)
  annotated : Bool

variable {K : Type}

/-- The segments of a layer, whatever path they are in. -/
def Layer.segments (layer : Layer K) : List (XySegment K) := layer.paths.flatMap TypedPath.segments

def LayerModel.layer (model : LayerModel K) (index : ℕ) : Option (Layer K) := model.layers[index]?

def u32Max : ℕ := 2 ^ 32 - 1

/-- The part of the moves that climb while they deposit. -/
def LayerModel.spiralFraction [Field K] (model : LayerModel K) : K :=
  let (spiral, total) : ℕ × ℕ := model.layers.foldl (fun (spiral, total) layer =>
    (min (spiral + layer.spiralMoves) u32Max, min (total + layer.extrusionMoves) u32Max)) (0, 0)
  if total = 0 then 0 else (spiral : K) / (total : K)

/-- How well a class hides the mark of the probe, the least first; nothing for what is seen. -/
def probeRank : FeatureClass → Option ℕ
  | .internalInfill => some 0
  | .solidInfill => some 1
  | .innerWall => some 2
  | _ => none

def probeEligible (c : FeatureClass) : Bool := (probeRank c).isSome

end Layers

section Config

/-- How the nozzle touches the part. -/
inductive ContactMode (K : Type) where
  | tap
  | drag (direction : Xy K) (runLength : K)

structure ContactConfig (K : Type) where
  exclusionRadius : K
  minSegmentLength : K
  coverageTolerance : K
  maxCandidates : ℕ
  spiralThreshold : K
  structuralChecksEnabled : Bool
  contactMode : ContactMode K
  minBedContactArea : K
  maxAspectRatio : K
  minEdgeMargin : K
  minFeatureWidth : K
  extrusionWidth : K
  islandLinkTolerance : K

inductive ContactError where
  | invalidParams (param : Text)
  | layerOutOfRange (resumeLayer layers : ℕ)
  | noTypeAnnotations
  | unannotatedLayer (layer : ℕ)
  deriving DecidableEq

variable {K : Type} [Field K] [LinearOrder K] (arith : Arithmetic K)

/-- A parameter that must be finite and not negative, and above zero unless it may be zero. -/
def checkParam (value : K) (param : Text) (allowZero : Bool) : Except ContactError Unit :=
  ensure (arith.isFinite value && !(value < 0) && (allowZero || !(value ≤ 0)))
    (.invalidParams param)

def checkMode : ContactMode K → Except ContactError Unit
  | .tap => pure ()
  | .drag direction runLength => do
      let norm := direction.1 * direction.1 + direction.2 * direction.2
      ensure (arith.isFinite norm && !(norm ≤ 0)) (.invalidParams (lit "contact_mode.direction"))
      ensure (arith.isFinite runLength && !(runLength ≤ 0))
        (.invalidParams (lit "contact_mode.run_length"))

def validateConfig (config : ContactConfig K) : Except ContactError Unit := do
  checkParam arith config.exclusionRadius (lit "exclusion_radius") true
  checkParam arith config.minSegmentLength (lit "min_segment_length") false
  checkParam arith config.coverageTolerance (lit "coverage_tolerance") true
  ensure (config.maxCandidates ≠ 0) (.invalidParams (lit "max_candidates"))
  checkParam arith config.spiralThreshold (lit "spiral_threshold") false
  checkParam arith config.minBedContactArea (lit "min_bed_contact_area") false
  checkParam arith config.maxAspectRatio (lit "max_aspect_ratio") false
  checkParam arith config.minEdgeMargin (lit "min_edge_margin") true
  checkParam arith config.minFeatureWidth (lit "min_feature_width") false
  checkParam arith config.extrusionWidth (lit "extrusion_width") false
  checkParam arith config.islandLinkTolerance (lit "island_link_tolerance") false
  ensure (!(config.islandLinkTolerance < config.extrusionWidth))
    (.invalidParams (lit "island_link_tolerance"))
  checkMode arith config.contactMode

/-- The crash point must be finite, and the configuration valid. -/
def validate (crashXy : Xy K) (config : ContactConfig K) : Except ContactError Unit := do
  ensure (arith.isFinite crashXy.1 && arith.isFinite crashXy.2)
    (.invalidParams (lit "crash_xy"))
  validateConfig arith config

end Config

end DeadReckoning.Contact
