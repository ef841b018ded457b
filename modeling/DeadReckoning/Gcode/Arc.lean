import DeadReckoning.Gcode.Arithmetic
import DeadReckoning.Lib.Checks

/-! The decomposition of an arc into chords. -/
namespace DeadReckoning.Gcode

open Checks (ensure ensure_eq_ok bind_eq_ok)

def maxArcSegments : ℕ := 1000000

inductive ArcError (K : Type) where
  | relativeMode
  | radiusForm
  | missingOffsets
  | invalidResolution (value : K)
  | nonFiniteInput (field : Text)
  | tooManySegments (segments : K)

inductive ArcPlane where
  | xy
  | xz
  | yz
  deriving DecidableEq

namespace ArcPlane

variable {α : Type}

/-- The first axis of the plane. -/
def alpha : ArcPlane → Point α → α
  | .xy, p | .xz, p => p.x
  | .yz, p => p.y

/-- The second axis of the plane. -/
def beta : ArcPlane → Point α → α
  | .xy, p => p.y
  | .xz, p | .yz, p => p.z

/-- The axis that travels along with the arc. -/
def helical : ArcPlane → Point α → α
  | .xy, p => p.z
  | .xz, p => p.y
  | .yz, p => p.x

/-- The point with these coordinates in the plane and along it. -/
def place : ArcPlane → α → α → α → Point α
  | .xy, a, b, h => ⟨a, b, h⟩
  | .xz, a, b, h => ⟨a, h, b⟩
  | .yz, a, b, h => ⟨h, a, b⟩

end ArcPlane

/-- An arc in g-code coordinates. -/
structure ArcRequest (K : Type) where
  current : Axes K
  target : Point K
  offset : K × K
  plane : ArcPlane
  clockwise : Bool
  absoluteExtrude : Bool
  eParam : Option K
  fParam : Option K
  resolution : K

structure ArcSegment (K : Type) where
  target : Point K
  e : Option K
  f : Option K

section Plan

variable {K : Type} [Add K] [Sub K] [Mul K] [Div K] [Neg K] [Zero K] [One K] [NatCast K]
  [LT K] [LE K] [DecidableEq K] [DecidableLT K] [DecidableLE K]

def rejectNonFinite (arith : Arithmetic K) (req : ArcRequest K) : Except (ArcError K) Unit :=
  if !req.current.all arith.isFinite then .error (.nonFiniteInput (lit "current"))
  else if !req.target.all arith.isFinite then .error (.nonFiniteInput (lit "target"))
  else if !(arith.isFinite req.offset.1 && arith.isFinite req.offset.2) then
    .error (.nonFiniteInput (lit "offset"))
  else if req.eParam.any fun v => !arith.isFinite v then .error (.nonFiniteInput (lit "e_param"))
  else if req.fParam.any fun v => !arith.isFinite v then .error (.nonFiniteInput (lit "f_param"))
  else .ok ()

/-- The angle swept from the current position to the target, a full turn for a circle. -/
def angularTravel (arith : Arithmetic K) (req : ArcRequest K) : K :=
  let rP := -req.offset.1
  let rQ := -req.offset.2
  let current := req.current.point
  let rtAlpha := req.plane.alpha req.target - (req.plane.alpha current - rP)
  let rtBeta := req.plane.beta req.target - (req.plane.beta current - rQ)
  let turn := ((2 : ℕ) : K) * arith.pi
  let swept := arith.atan2 (rP * rtBeta - rQ * rtAlpha) (rP * rtAlpha + rQ * rtBeta)
  let swept := if swept < 0 then swept + turn else swept
  let swept := if req.clockwise then swept - turn else swept
  if swept = 0 ∧ req.plane.alpha current = req.plane.alpha req.target ∧
      req.plane.beta current = req.plane.beta req.target then turn else swept

def linearTravel (req : ArcRequest K) : K :=
  req.plane.helical req.target - req.plane.helical req.current.point

/-- The number of chords before it is bounded. -/
def segmentsOf (arith : Arithmetic K) (req : ArcRequest K) : K :=
  let flat := arith.hypot (-req.offset.1) (-req.offset.2) * angularTravel arith req
  let travel := if linearTravel req = 0 then magnitude flat else arith.hypot flat (linearTravel req)
  larger (arith.floor (travel / req.resolution)) 1

/-- The end of a chord on the circle. -/
def chordEnd (arith : Arithmetic K) (req : ArcRequest K) (segments : K) (i : ℕ) : Point K :=
  let theta := (i : K) * (angularTravel arith req / segments)
  let centerP := req.plane.alpha req.current.point - -req.offset.1
  let centerQ := req.plane.beta req.current.point - -req.offset.2
  let rPi := -req.offset.1 * arith.cos theta + req.offset.2 * arith.sin theta
  let rQi := -req.offset.1 * arith.sin theta - req.offset.2 * arith.cos theta
  req.plane.place (centerP + rPi) (centerQ + rQi)
    (req.plane.helical req.current.point + (i : K) * (linearTravel req / segments))

/-- The last chords of an arc, `remaining` of them; the last one ends at the target. -/
def chordsFrom (req : ArcRequest K) (endOf : ℕ → Point K) (ePerMove : K) (count : ℕ) :
    ℕ → K → List (ArcSegment K)
  | 0, _ => []
  | remaining + 1, eBase =>
      let target := if remaining = 0 then req.target else endOf (count - remaining)
      if ePerMove = 0 then
        ⟨target, none, req.fParam⟩ :: chordsFrom req endOf ePerMove count remaining eBase
      else
        let v := eBase + ePerMove
        ⟨target, some v, req.fParam⟩ :: chordsFrom req endOf ePerMove count remaining
          (if req.absoluteExtrude then v else eBase)

def planArc (arith : Arithmetic K) (req : ArcRequest K) :
    Except (ArcError K) (List (ArcSegment K)) := do
  ensure (!(decide (req.resolution ≤ 0) || !arith.isFinite req.resolution))
    (.invalidResolution req.resolution)
  rejectNonFinite arith req
  let segments := segmentsOf arith req
  ensure (!decide (((maxArcSegments : ℕ) : K) < segments)) (.tooManySegments segments)
  let (eBase, ePerMove) := match req.eParam with
    | none => (0, 0)
    | some e =>
        let base := if req.absoluteExtrude then req.current.e else 0
        (base, (e - base) / segments)
  let count := arith.toNat segments
  pure (chordsFrom req (chordEnd arith req segments) ePerMove count count eBase)

end Plan

/-- Every chord carries the feed of the arc. -/
theorem feed_of_mem_chordsFrom {K : Type} [Add K] [Zero K] [DecidableEq K] {req : ArcRequest K}
    {endOf : ℕ → Point K} {ePerMove : K} {count remaining : ℕ} {eBase : K} {segment : ArcSegment K}
    (h : segment ∈ chordsFrom req endOf ePerMove count remaining eBase) :
    segment.f = req.fParam := by
  induction remaining generalizing eBase with
  | zero => cases h
  | succ remaining ih =>
    unfold chordsFrom at h
    dsimp only at h
    split at h
    · rcases List.mem_cons.mp h with rfl | htail
      · rfl
      · exact ih htail
    · rcases List.mem_cons.mp h with rfl | htail
      · rfl
      · exact ih htail

/-- Every chord of a planned arc carries the feed of the arc. -/
theorem feed_of_mem_planArc {K : Type} [Add K] [Sub K] [Mul K] [Div K] [Neg K] [Zero K] [One K]
    [NatCast K] [LT K] [LE K] [DecidableEq K] [DecidableLT K] [DecidableLE K] {arith : Arithmetic K}
    {req : ArcRequest K} {segments : List (ArcSegment K)} (h : planArc arith req = .ok segments)
    {segment : ArcSegment K} (hmem : segment ∈ segments) : segment.f = req.fParam := by
  unfold planArc at h
  obtain ⟨_, -, h⟩ := bind_eq_ok.mp h
  obtain ⟨_, -, h⟩ := bind_eq_ok.mp h
  obtain ⟨_, -, h⟩ := bind_eq_ok.mp h
  cases h
  exact feed_of_mem_chordsFrom hmem

end DeadReckoning.Gcode
