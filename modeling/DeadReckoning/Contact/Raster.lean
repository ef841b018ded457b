import DeadReckoning.Contact.Geometry
import DeadReckoning.Contact.DistanceTransform
import Mathlib.Algebra.Order.Floor.Ring

/-! The raster of an island: a grid that holds which cells are material and how far each is from
what is not, and a finer one, in tiles, that only counts. -/
namespace DeadReckoning.Contact
open Gcode (Arithmetic)

section Limits

def cellBudget : ℕ := 1000000

def testBudget : ℕ := 40000000

def maxAreaTiles : ℕ := 256

def indexLimit : ℤ := (2 ^ 63 - 1) / 4

def clampIndex (v : ℤ) : ℤ := max (-indexLimit) (min v indexLimit)

/-- The cast of a whole number to a machine integer. -/
def toUsize (v : ℤ) : ℕ := min v.toNat (2 ^ 64 - 1)

/-- The whole numbers from `-reach` to `reach`. -/
def offsets (reach : ℤ) : List ℤ :=
  (List.range (2 * reach + 1).toNat).map fun n : ℕ => (n : ℤ) - reach

end Limits

section Cells

/-- Square cells: the lower left corner of the first one, the side of each, and how many there are
along the axes. -/
structure Grid (K : Type) where
  origin : Xy K
  cell : K
  nx : ℕ
  ny : ℕ

variable {K : Type} [Field K]

/-- The place of a cell in the lists, nothing outside of the grid. -/
def Grid.index (g : Grid K) (i j : ℤ) : Option ℕ :=
  if i < 0 ∨ j < 0 then none
  else if g.nx ≤ i.toNat ∨ g.ny ≤ j.toNat then none
  else some (j.toNat * g.nx + i.toNat)

def Grid.center (g : Grid K) (i j : ℤ) : Xy K :=
  (g.origin.1 + ((i : K) + 1 / 2) * g.cell, g.origin.2 + ((j : K) + 1 / 2) * g.cell)

variable [LinearOrder K] [FloorRing K] (arith : Arithmetic K)

def Grid.cellOf (g : Grid K) (p : Xy K) : ℤ × ℤ :=
  (clampIndex ⌊(p.1 - g.origin.1) / g.cell⌋, clampIndex ⌊(p.2 - g.origin.2) / g.cell⌋)

def finitePoint (p : Xy K) : Bool := arith.isFinite p.1 && arith.isFinite p.2

/-- The places of a segment after so many steps from its start to its end. -/
def pointsAlong (seg : XySegment K) (steps : ℕ) : List (Xy K) :=
  ((List.range (steps + 1)).map fun k : ℕ => seg.pointAt ((k : K) / (steps : K))).filter
    (finitePoint arith)

/-- The places of a segment that are looked at, at most a cell apart. -/
def places (seg : XySegment K) (cell : K) : List (Xy K) :=
  pointsAlong arith seg (max (toUsize ⌈seg.length arith / cell⌉) 1)

/-- The cells that the loops go through, each with the segment that it is tested against. -/
def visits (g : Grid K) (reach : ℤ) (segments : List (XySegment K)) :
    List (XySegment K × ℤ × ℤ) :=
  segments.flatMap fun seg => (places arith seg g.cell).flatMap fun p =>
    let (ci, cj) := g.cellOf p
    (offsets reach).flatMap fun dj => (offsets reach).map fun di => (seg, ci + di, cj + dj)

/-- What is marked so far, the tests made, and whether the loops were left at the budget. -/
structure Marking where
  bits : List Bool
  tests : ℕ
  stopped : Bool

def Marking.empty (cells tests : ℕ) : Marking := ⟨List.replicate cells false, tests, false⟩

/-- Tests a cell that is not marked yet, and marks it when its center is near enough. -/
def mark (g : Grid K) (radius : K) (s : Marking) (visit : XySegment K × ℤ × ℤ) : Marking :=
  let (seg, i, j) := visit
  if s.stopped then s
  else
    match g.index i j with
    | none => s
    | some idx =>
        if entry s.bits false idx then s
        else if testBudget < s.tests + 1 then { s with tests := s.tests + 1, stopped := true }
        else if pointSegDistance arith (g.center i j) seg.start seg.stop ≤ radius then
          { s with bits := s.bits.set idx true, tests := s.tests + 1 }
        else { s with tests := s.tests + 1 }

def reachOf (halfWidth cell : K) : ℤ := ⌈halfWidth / cell⌉ + 1

def fill (g : Grid K) (segments : List (XySegment K)) (halfWidth : K) : Marking :=
  (visits arith g (reachOf halfWidth g.cell) segments).foldl (mark arith g halfWidth)
    (Marking.empty (g.nx * g.ny) 0)

end Cells

section Area

variable {K : Type} [Field K] [LinearOrder K] [FloorRing K] (arith : Arithmetic K)

/-- The box around the material of a segment meets the tile. -/
def reachesTile (g : Grid K) (halfWidth : K) (seg : XySegment K) : Bool :=
  let hi : Xy K := (g.origin.1 + (g.nx : K) * g.cell, g.origin.2 + (g.ny : K) * g.cell)
  ¬(max seg.start.1 seg.stop.1 + halfWidth < g.origin.1 ∨
    hi.1 < min seg.start.1 seg.stop.1 - halfWidth ∨
    max seg.start.2 seg.stop.2 + halfWidth < g.origin.2 ∨
    hi.2 < min seg.start.2 seg.stop.2 - halfWidth)

/-- How many cells of the tile lie in the material as a whole, and the tests made until then. -/
def markTile (segments : List (XySegment K)) (g : Grid K) (strictRadius halfWidth : K) (tests : ℕ) :
    ℕ × ℕ :=
  let s := (visits arith g (reachOf halfWidth g.cell)
    (segments.filter (reachesTile g halfWidth))).foldl (mark arith g strictRadius)
    (Marking.empty (g.nx * g.ny) tests)
  (s.bits.count true, s.tests)

/-- Grows the cell until the tiles are few enough. -/
def growCell (w h side : K) : ℕ → K → Bool → K × Bool
  | 0, cell, degraded => (cell, degraded)
  | tries + 1, cell, degraded =>
      let tiles := max ⌈w / (side * cell)⌉ 1 * max ⌈h / (side * cell)⌉ 1
      if arith.isFinite (tiles : K) && tiles ≤ (maxAreaTiles : ℤ) then (cell, degraded)
      else growCell w h side tries (cell * (3 / 2)) true

/-- Where the tiles of a row of `n` cells begin. -/
def tileStarts (tile n : ℕ) : List ℕ := (List.range ((n + tile - 1) / tile)).map (· * tile)

/-- Counts tile after tile, up to the one that uses the budget up. -/
def sweep (count : ℕ × ℕ → ℕ → ℕ × ℕ) : List (ℕ × ℕ) → ℕ → ℕ → ℕ × Bool
  | [], total, _ => (total, false)
  | tile :: rest, total, tests =>
      let (marked, tests) := count tile tests
      if testBudget < tests then (total + marked, true)
      else sweep count rest (total + marked) tests

def baseCell (halfWidth : K) : K := max (halfWidth / 3) (1 / 100)

/-- A cell whose center is as near as this lies in the material as a whole. -/
def strictRadius (halfWidth cell : K) : K := halfWidth - cell * (1 / arith.sqrt 2)

/-- The tile that begins at a cell of the grid of the area. -/
def tileGrid (lo : Xy K) (cell : K) (nx ny side : ℕ) (tile : ℕ × ℕ) : Grid K where
  origin := (lo.1 + (tile.1 : K) * cell, lo.2 + (tile.2 : K) * cell)
  cell := cell
  nx := min side (nx - tile.1)
  ny := min side (ny - tile.2)

def strictArea (segments : List (XySegment K)) (lo hi : Xy K) (halfWidth : K) : K × Bool :=
  let cell := baseCell halfWidth
  if strictRadius arith halfWidth cell ≤ 0 then (0, true)
  else
    let pad := halfWidth + cell
    let corner : Xy K := (lo.1 - pad, lo.2 - pad)
    let w := hi.1 - lo.1 + 2 * pad
    let h := hi.2 - lo.2 + 2 * pad
    let side := max ⌊arith.sqrt (cellBudget : K)⌋ 1
    let (cell, degraded) := growCell arith w h (side : K) 64 cell false
    let radius := strictRadius arith halfWidth cell
    if radius ≤ 0 then (0, true)
    else
      let nx := max (toUsize ⌈w / cell⌉) 1
      let ny := max (toUsize ⌈h / cell⌉) 1
      let tiles := (tileStarts (toUsize side) ny).flatMap fun tj =>
        (tileStarts (toUsize side) nx).map fun ti => (ti, tj)
      let (count, truncated) := sweep (fun tile => markTile arith segments
        (tileGrid corner cell nx ny (toUsize side) tile) radius halfWidth) tiles 0 0
      ((count : K) * cell * cell, truncated || degraded)

end Area

section Build

/-- A grid with its material, the clearance of every cell and the area. -/
structure Raster (K : Type) extends Grid K where
  solid : List Bool
  clearance : List K
  area : K
  coarsened : Bool
  truncated : Bool

variable {K : Type} [Field K] [LinearOrder K] [FloorRing K] (arith : Arithmetic K)

def Raster.empty (cell : K) : Raster K where
  origin := (0, 0)
  cell := cell
  nx := 0
  ny := 0
  solid := []
  clearance := []
  area := 0
  coarsened := false
  truncated := false

/-- Grows the cell until the grid has few enough of them. -/
def fitGrid (w h halfWidth : K) : ℕ → K → Option (K × ℕ × ℕ)
  | 0, _ => none
  | tries + 1, cell =>
      let pad := halfWidth + 2 * cell
      let nx := ⌈(w + 2 * pad) / cell⌉
      let ny := ⌈(h + 2 * pad) / cell⌉
      if arith.isFinite (nx : K) && arith.isFinite (ny : K) && nx * ny ≤ (cellBudget : ℤ) &&
          (toUsize nx + 1) * (toUsize ny + 1) ≤ cellBudget then
        some (cell, toUsize nx + 1, toUsize ny + 1)
      else fitGrid w h halfWidth tries (cell * (3 / 2))

def clearanceSlack : K := 3 / 2 * arith.sqrt 2

/-- The grid over the box of an island, nothing for a box or a width that cannot be. -/
def gridOver (lo hi : Xy K) (halfWidth : K) : Option (Grid K) :=
  let w := hi.1 - lo.1
  let h := hi.2 - lo.2
  if !arith.isFinite halfWidth || halfWidth ≤ 0 || !arith.isFinite w || !arith.isFinite h ||
      w < 0 || h < 0 then none
  else
    (fitGrid arith w h halfWidth 64 (baseCell halfWidth)).map fun (cell, nx, ny) =>
      let pad := halfWidth + 2 * cell
      ⟨(lo.1 - pad, lo.2 - pad), cell, nx, ny⟩

/-- The raster of the segments of an island; it is `none` where the code would fail. -/
def Raster.build (segments : List (XySegment K)) (lo hi : Xy K) (halfWidth : K) :
    Option (Raster K) :=
  match gridOver arith lo hi halfWidth with
  | none => some (Raster.empty (baseCell halfWidth))
  | some g => do
      let filled := fill arith g segments halfWidth
      let clearance ← clearanceField arith.sqrt (clearanceSlack arith) filled.bits g.nx g.ny g.cell
      let (area, truncated) := strictArea arith segments lo hi halfWidth
      pure { g with
        solid := filled.bits
        clearance := clearance
        area := area
        coarsened := baseCell halfWidth < g.cell
        truncated := filled.stopped || truncated }

/-- Whether a point is in a cell that is material. -/
def Raster.isMaterial (r : Raster K) (point : Xy K) : Bool :=
  if finitePoint arith point then
    let (i, j) := r.cellOf point
    match r.index i j with
    | none => false
    | some idx => entry r.solid false idx
  else false

def Raster.clearanceAt (r : Raster K) (point : Xy K) : K :=
  if finitePoint arith point then
    let (i, j) := r.cellOf point
    match r.index i j with
    | none => 0
    | some idx => entry r.clearance 0 idx
  else 0

end Build

end DeadReckoning.Contact
