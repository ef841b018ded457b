import DeadReckoning.Contact.Config
import DeadReckoning.Contact.Raster
import DeadReckoning.Lib.Dsu

/-! The islands of a layer: its segments are sampled, and samples that are near one another join
their segments. -/
namespace DeadReckoning.Contact
open Gcode (Arithmetic)

section Caps

/-- How much of a layer is looked at. -/
structure Caps where
  maxSegmentsPerLayer : ℕ
  maxSamplesPerLayer : ℕ
  maxSamplesPerSegment : ℕ
  neighborScanCap : ℕ

def caps : Caps := ⟨200000, 400000, 4096, 64⟩

def cellIndexLimit : ℤ := (2 ^ 63 - 1) / 4

end Caps

section Boxes

structure BoundingBox (K : Type) where
  lo : Xy K
  hi : Xy K

variable {K : Type} [Field K] [LinearOrder K] (arith : Arithmetic K)

def BoundingBox.width (b : BoundingBox K) : K := b.hi.1 - b.lo.1

def BoundingBox.height (b : BoundingBox K) : K := b.hi.2 - b.lo.2

def BoundingBox.minDimension (b : BoundingBox K) : K := min b.width b.height

def BoundingBox.diagonal (b : BoundingBox K) : K :=
  arith.sqrt (b.width * b.width + b.height * b.height)

/-- Whether a point lies in the box grown on all sides. -/
def BoundingBox.contains (b : BoundingBox K) (point : Xy K) (slack : K) : Bool :=
  b.lo.1 - slack ≤ point.1 ∧ point.1 ≤ b.hi.1 + slack ∧
    b.lo.2 - slack ≤ point.2 ∧ point.2 ≤ b.hi.2 + slack

/-- The box around some points. -/
def boxAround : List (Xy K) → BoundingBox K
  | [] => ⟨(0, 0), (0, 0)⟩
  | p :: rest => rest.foldl (fun b q =>
      ⟨(min b.lo.1 q.1, min b.lo.2 q.2), (max b.hi.1 q.1, max b.hi.2 q.2)⟩) ⟨p, p⟩

end Boxes

section Linking

variable {K : Type} [Field K] [LinearOrder K] [FloorRing K] (arith : Arithmetic K) (limits : Caps)

def clampCell (v : ℤ) : ℤ := max (-cellIndexLimit) (min v cellIndexLimit)

/-- The cell of the hash that a point is in. -/
def cellCoords (p : Xy K) (cell : K) : ℤ × ℤ :=
  (clampCell ⌊p.1 / cell⌋, clampCell ⌊p.2 / cell⌋)

/-- A cell and the ones around it. -/
def around (c : ℤ × ℤ) : List (ℤ × ℤ) :=
  [-1, 0, 1].flatMap fun dj => [-1, 0, 1].map fun di => (c.1 + di, c.2 + dj)

def segmentFinite (seg : XySegment K) : Bool :=
  finitePoint arith seg.start && finitePoint arith seg.stop

/-- How far samples are apart: half the tolerance, more when there is too much to sample. -/
def sampleSpacing (segments : List (XySegment K)) (tolerance : K) : K :=
  let total := (segments.map (XySegment.length arith)).sum
  let spacing := tolerance / 2
  if arith.isFinite total && 0 < total then
    max spacing (total / (limits.maxSamplesPerLayer : K))
  else spacing

def sampleSteps (spacing : K) (seg : XySegment K) : ℕ :=
  max 1 (min (toUsize ⌈seg.length arith / spacing⌉) limits.maxSamplesPerSegment)

/-- The samples of a segment. -/
def samplesOf (spacing : K) (seg : XySegment K) : List (Xy K) :=
  pointsAlong arith seg (sampleSteps arith limits spacing seg)

/-- The samples so far, the segment of each, and which of them are in a cell. -/
structure Sampling (K : Type) where
  parent : List ℕ
  samples : List (Xy K)
  owner : List ℕ
  grid : ℤ × ℤ → List ℕ

/-- The samples that a new one is compared with. -/
def Sampling.nearby (s : Sampling K) (c : ℤ × ℤ) : List ℕ :=
  ((around c).flatMap s.grid).take limits.neighborScanCap

/-- Joins the segment of a sample with those of the samples near it, and keeps the sample. -/
def Sampling.add (tolerance : K) (s : Sampling K) (sample : ℕ × Xy K) : Sampling K :=
  let (index, p) := sample
  let c := cellCoords p tolerance
  let parent := (s.nearby limits c).foldl (fun parent other =>
    if pointDistance arith p (entry s.samples (0, 0) other) ≤ tolerance then
      Dsu.union parent index (entry s.owner 0 other)
    else parent) s.parent
  if u32Max ≤ s.samples.length then { s with parent := parent }
  else
    { parent := parent
      samples := s.samples ++ [p]
      owner := s.owner ++ [index]
      grid := Function.update s.grid c (s.grid c ++ [s.samples.length]) }

/-- The samples of all segments, each with the index of its segment. -/
def samplesWithOwner (segments : List (XySegment K)) (spacing : K) : List (ℕ × Xy K) :=
  segments.zipIdx.flatMap fun (seg, index) =>
    (samplesOf arith limits spacing seg).map fun p => (index, p)

def sampleAndLink (segments : List (XySegment K)) (tolerance spacing : K) : Sampling K :=
  (samplesWithOwner arith limits segments spacing).foldl (Sampling.add arith limits tolerance)
    ⟨Dsu.new segments.length, [], [], fun _ => []⟩

end Linking

section Components

/-- The islands so far: the root and the members of each, and the island of each segment. -/
structure Components where
  parent : List ℕ
  roots : List ℕ
  members : List (List ℕ)
  islandOf : List ℕ

def Components.add (s : Components) (index : ℕ) : Components :=
  let (parent, root) := Dsu.find s.parent index
  match s.roots.idxOf? root with
  | some island =>
      { parent := parent
        roots := s.roots
        members := s.members.modify island (· ++ [index])
        islandOf := s.islandOf ++ [island] }
  | none =>
      { parent := parent
        roots := s.roots ++ [root]
        members := s.members ++ [[index]]
        islandOf := s.islandOf ++ [s.roots.length] }

def collectComponents (parent : List ℕ) (count : ℕ) : Components :=
  (List.range count).foldl Components.add ⟨parent, [], [], []⟩

end Components

section Shapes

/-- The deposition of a layer, sampled and parted into islands. -/
structure LayerShape (K : Type) where
  segments : List (XySegment K)
  members : List (List ℕ)
  samples : List (Xy K)
  sampleIsland : List ℕ
  grid : ℤ × ℤ → List ℕ
  cell : K
  spacing : K
  bboxes : List (BoundingBox K)
  lengths : List K
  centroids : List (Xy K)

variable {K : Type} [Field K] [LinearOrder K] [FloorRing K] (arith : Arithmetic K) (limits : Caps)

/-- The segments of an island. -/
def islandSegments (segments : List (XySegment K)) (members : List ℕ) : List (XySegment K) :=
  members.filterMap fun index => segments[index]?

/-- The middle of the segments, each by its length; the middle of the box when they have none. -/
def centroidOf (segments : List (XySegment K)) (bbox : BoundingBox K) : Xy K :=
  let length := (segments.map (XySegment.length arith)).sum
  let acc (coordinate : Xy K → K) :=
    (segments.map fun seg => coordinate (seg.pointAt (1 / 2)) * seg.length arith).sum
  if 0 < length then (acc Prod.fst / length, acc Prod.snd / length)
  else ((bbox.lo.1 + bbox.hi.1) * (1 / 2), (bbox.lo.2 + bbox.hi.2) * (1 / 2))

def LayerShape.build (layer : Layer K) (tolerance : K) : LayerShape K :=
  let segments := (layer.segments.filter (segmentFinite arith)).take limits.maxSegmentsPerLayer
  let spacing := sampleSpacing arith limits segments tolerance
  let linked := sampleAndLink arith limits segments tolerance spacing
  let components := collectComponents linked.parent segments.length
  let islands := components.members.map (islandSegments segments)
  let bboxes := islands.map fun island =>
    boxAround (island.flatMap fun seg => [seg.start, seg.stop])
  { segments := segments
    members := components.members
    samples := linked.samples
    sampleIsland := linked.owner.map (entry components.islandOf 0)
    grid := linked.grid
    cell := tolerance
    spacing := spacing
    bboxes := bboxes
    lengths := islands.map fun island => (island.map (XySegment.length arith)).sum
    centroids := List.zipWith (centroidOf arith) islands bboxes }

/-- Adds what is not in the list yet. -/
def pushNew (l : List ℕ) (x : ℕ) : List ℕ := if x ∈ l then l else l ++ [x]

def LayerShape.islandCount (shape : LayerShape K) : ℕ := shape.members.length

/-- The islands with samples near a point, in the order in which they are found. -/
def LayerShape.hits (shape : LayerShape K) (p : Xy K) (tolerance : K) : List ℕ :=
  if finitePoint arith p then
    ((around (cellCoords p shape.cell)).flatMap fun c =>
      (shape.grid c).take limits.neighborScanCap).foldl (fun out sample =>
        if pointDistance arith p (entry shape.samples (0, 0) sample) ≤ tolerance then
          pushNew out (entry shape.sampleIsland 0 sample)
        else out) []
  else []

end Shapes

end DeadReckoning.Contact
