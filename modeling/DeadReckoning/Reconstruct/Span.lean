import DeadReckoning.Gcode.Axes
import DeadReckoning.Lib.Quadratic
import DeadReckoning.Reconstruct.Interval

/-! What the planned motion of the journal says about a span of print time. The numbers are exact,
so none of them is infinite. -/
namespace DeadReckoning.Reconstruct

open Gcode (Point)

section Segments

/-- A trapezoidal move of a motion queue. -/
structure Segment (K : Type) where
  monoNs : ℕ
  queue : String
  printTime : K
  duration : K
  startVelocity : K
  acceleration : K
  startX : K
  startY : K
  startZ : K
  xR : K
  yR : K
  zR : K
  deriving DecidableEq

variable {K : Type} [Field K] [LinearOrder K]

namespace Segment

def endTime (s : Segment K) : K := s.printTime + s.duration

/-- The elapsed time, held in the bounds of the move. -/
def clampElapsed (elapsed duration : K) : K := min (max elapsed 0) (max duration 0)

def positionAt (s : Segment K) (printTime : K) : Point K :=
  let dist := travelled s.startVelocity s.acceleration
    (clampElapsed (printTime - s.printTime) s.duration)
  ⟨s.startX + s.xR * dist, s.startY + s.yR * dist, s.startZ + s.zR * dist⟩

/-- The time at which the velocity is zero. -/
def turning (s : Segment K) : K := s.printTime - s.startVelocity / s.acceleration

/-- The positions that bound the others between two times. -/
def sampleExtrema (s : Segment K) (lo hi : K) : List (Point K) :=
  [s.positionAt lo, s.positionAt hi] ++
    if s.acceleration ≠ 0 ∧ lo < s.turning ∧ s.turning < hi then [s.positionAt s.turning] else []

end Segment

end Segments

section Evidence

/-- Which evidence a candidate comes from. -/
inductive Provenance where
  | wal
  | extension
  deriving DecidableEq

inductive ZKind where
  | plateau
  | ramp
  deriving DecidableEq

structure ZCandidate (K : Type) where
  z : Interval K
  provenance : Provenance
  zKnown : Bool
  kind : ZKind
  deriving DecidableEq

/-- A loop over the segments of a queue: what it has found so far, the last segment before the span,
the first one after it, and whether the ends of the span are covered. -/
structure SpanScan (K σ : Type) where
  found : σ
  lastBefore : Option (Segment K)
  firstAfter : Option (Segment K)
  coversStart : Bool
  coversEnd : Bool

variable {K : Type} [Field K] [LinearOrder K] {σ : Type}

namespace SpanScan

def start (found : σ) : SpanScan K σ := ⟨found, none, none, false, false⟩

/-- One segment. `visit` gets the part of the span that it overlaps. -/
def step (visit : σ → Segment K → K → K → σ) (tA tEnd : K) (s : SpanScan K σ) (seg : Segment K) :
    SpanScan K σ :=
  if seg.endTime < tA then
    if s.lastBefore.all fun prev => decide (prev.endTime ≤ seg.endTime) then
      { s with lastBefore := some seg }
    else s
  else if tEnd < seg.printTime then
    if s.firstAfter.all fun next => decide (seg.printTime ≤ next.printTime) then
      { s with firstAfter := some seg }
    else s
  else
    { s with
      found := visit s.found seg (max tA seg.printTime) (min tEnd seg.endTime)
      coversStart := s.coversStart || decide (seg.printTime ≤ tA)
      coversEnd := s.coversEnd || decide (tEnd ≤ seg.endTime) }

def sweep (visit : σ → Segment K → K → K → σ) (tA tEnd : K) (found : σ)
    (segments : List (Segment K)) : SpanScan K σ :=
  segments.foldl (step visit tA tEnd) (start found)

/-- The machine holds the end of the last segment while it dwells at the start of the span. -/
def held (hold : σ → Point K → σ) (tA : K) (s : SpanScan K σ) : σ :=
  if s.coversStart then s.found
  else
    match s.lastBefore with
    | none => s.found
    | some seg => hold s.found (seg.positionAt tA)

/-- It goes towards the first segment behind the span, which counts when the span was cut. -/
def finish (hold : σ → Point K → σ) (tA : K) (collapseActive : Bool) (s : SpanScan K σ) : σ :=
  if collapseActive && !s.coversEnd then
    match s.firstAfter with
    | none => s.held hold tA
    | some seg => hold (s.held hold tA) (seg.positionAt seg.printTime)
  else s.held hold tA

end SpanScan

structure ToolheadSpan (K : Type) where
  z : List (ZCandidate K)
  xy : Option (XyRegion K)

/-- The interval of some heights. -/
def heights : List (Point K) → Option (Interval K)
  | [] => none
  | p :: points => some (points.foldl (fun i q => i.union (.point q.z)) (.point p.z))

/-- A candidate of the journal; a move without a vertical part holds its height. -/
def walCandidate (seg : Segment K) (z : Interval K) : ZCandidate K :=
  if seg.zR = 0 then ⟨.point z.lo, .wal, true, .plateau⟩ else ⟨z, .wal, true, .ramp⟩

namespace ToolheadSpan

def expandAll (xy : Option (XyRegion K)) (samples : List (Point K)) : Option (XyRegion K) :=
  samples.foldl (fun xy p => some (expandXy xy p.x p.y)) xy

def visit (e : ToolheadSpan K) (seg : Segment K) (lo hi : K) : ToolheadSpan K where
  z := e.z ++ ((heights (seg.sampleExtrema lo hi)).map (walCandidate seg)).toList
  xy := expandAll e.xy (seg.sampleExtrema lo hi)

def hold (e : ToolheadSpan K) (p : Point K) : ToolheadSpan K where
  z := e.z ++ [⟨.point p.z, .wal, true, .plateau⟩]
  xy := some (expandXy e.xy p.x p.y)

end ToolheadSpan

def evalToolheadSpan (segments : List (Segment K)) (tA tEnd : K) (collapseActive : Bool) :
    ToolheadSpan K :=
  (SpanScan.sweep ToolheadSpan.visit tA tEnd ⟨[], none⟩ segments).finish ToolheadSpan.hold tA
    collapseActive

/-- The filament rides in the first coordinate. -/
def visitExtruder (e : Option (Interval K)) (seg : Segment K) (lo hi : K) : Option (Interval K) :=
  (seg.sampleExtrema lo hi).foldl (fun e p => some (expandOption e p.x)) e

def holdExtruder (e : Option (Interval K)) (p : Point K) : Option (Interval K) :=
  some (expandOption e p.x)

def evalExtruderSpan (segments : List (Segment K)) (tA tEnd : K) (collapseActive : Bool) :
    Option (Interval K) :=
  (SpanScan.sweep visitExtruder tA tEnd none segments).finish holdExtruder tA collapseActive

end Evidence

end DeadReckoning.Reconstruct
