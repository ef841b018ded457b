import DeadReckoning.Recovery.Build

/-! The pre-flight of a plan's literal coordinates against the machine's limits. -/
namespace DeadReckoning.Recovery

open Wal (Point)

/-- What a coordinate read back from its text may differ by. -/
def slack : F64 := .fin (1 / 10000)

structure ItineraryBounds where
  x : Option (F64 × F64)
  y : Option (F64 × F64)
  zMax : Option F64
  positionMin : F64
  contactPoint : Point
  deriving DecidableEq

/-- The value of the first word that begins with the axis letter and reads as a number;
a placeholder ends the search. -/
def axisLiteralIn (axis : Char) : List Text → Option F64
  | [] => none
  | word :: rest =>
      match word with
      | c :: tail =>
          if c = axis.toUpper || c = axis.toLower then
            let value := (Text.stripPrefix (lit "=") tail).getD tail
            if '{' ∈ value then none
            else match Decimal.parseF64 value with
              | some v => some v
              | none => axisLiteralIn axis rest
          else axisLiteralIn axis rest
      | [] => axisLiteralIn axis rest

def axisLiteral (command : Text) (axis : Char) : Option F64 :=
  axisLiteralIn axis ((Text.words command).drop 1)

/-- The first `Z=` or `Z` word, when it is a literal. -/
def zWordIn : List Text → Option F64
  | [] => none
  | word :: rest =>
      match (Text.stripPrefix (lit "Z=") word).or (Text.stripPrefix (lit "Z") word) with
      | some value => if '{' ∈ value then none else Decimal.parseF64 value
      | none => zWordIn rest

def zWord (command : Text) : Option F64 := zWordIn ((Text.words command).drop 1)

section Checks

variable (bounds : ItineraryBounds)

def outside (lo hi v : F64) : Bool := F64.lt v (lo - slack) || F64.lt (hi + slack) v

/-- A value of a limited axis, reported when it is outside its limits. -/
def limitViolation (stepId : ℕ) (axis : Char) (limits : Option (F64 × F64)) (value : Option F64) :
    List BoundsViolation :=
  match limits, value with
  | some (lo, hi), some v =>
      if outside lo hi v then [⟨stepId, axis, v, some lo, some hi, .axisLimit⟩] else []
  | _, _ => []

def zOutside (z : F64) : Bool :=
  F64.lt z (bounds.positionMin - slack) || bounds.zMax.any fun zm => F64.lt (zm + slack) z

/-- The literal words of an absolute move against the machine's limits. -/
def checkAbsoluteCommand (command : Text) (stepId : ℕ) : List BoundsViolation :=
  limitViolation stepId 'X' bounds.x (axisLiteral command 'X') ++
    limitViolation stepId 'Y' bounds.y (axisLiteral command 'Y') ++
    match axisLiteral command 'Z' with
    | some z =>
        if zOutside bounds z then
          [⟨stepId, 'Z', z, some bounds.positionMin, bounds.zMax, .axisLimit⟩] else []
    | none => []

def isLinearMove (word : Text) : Bool := word = lit "G0" || word = lit "G1"

def contactViolation (stepId : ℕ) (axis : Char) (expected : F64) (value : Option F64) :
    List BoundsViolation :=
  match value with
  | some v =>
      if F64.lt slack (F64.abs (v - expected)) then
        [⟨stepId, axis, v, some expected, some expected, .contactMismatch⟩] else []
  | none => []

/-- The approach of the probe goes to the contact point. -/
def checkContactAnchor (plan : RecoveryPlan) : List BoundsViolation :=
  match plan.stepIn? .probeApproach with
  | none => []
  | some s =>
      s.commands.flatMap fun command =>
        if isLinearMove (firstWord command) then
          contactViolation s.id 'X' bounds.contactPoint.1 (axisLiteral command 'X') ++
            contactViolation s.id 'Y' bounds.contactPoint.2 (axisLiteral command 'Y')
        else []

def checkContactWithinLimits (plan : RecoveryPlan) : List BoundsViolation :=
  let stepId := ((plan.stepIn? .probeApproach).map (·.id)).getD 0
  limitViolation stepId 'X' bounds.x (some bounds.contactPoint.1) ++
    limitViolation stepId 'Y' bounds.y (some bounds.contactPoint.2)

/-- The declaration of the shifted frame is that of the envelope and inside the rail. -/
def checkShiftedFrame (plan : RecoveryPlan) : List BoundsViolation :=
  match plan.stepIn? .shiftedFrame with
  | none => []
  | some s =>
      s.commands.flatMap fun command =>
        if firstWord command = lit "SET_KINEMATIC_POSITION" then
          match zWord command with
          | some z =>
              if F64.lt slack (F64.abs (z - plan.envelope.shiftedDeclareZ)) || zOutside bounds z then
                [⟨s.id, 'Z', z, some bounds.positionMin, bounds.zMax, .shiftedFrameZ⟩] else []
          | none => []
        else []

/-- The walk through the commands, which tracks the coordinate mode. -/
def walkCommands : Bool → List (ℕ × Text) → List BoundsViolation
  | _, [] => []
  | absolute, (stepId, command) :: rest =>
      let word := firstWord command
      if word = lit "G90" then walkCommands true rest
      else if word = lit "G91" then walkCommands false rest
      else if isLinearMove word && absolute then
        checkAbsoluteCommand bounds command stepId ++ walkCommands absolute rest
      else walkCommands absolute rest

/-- The commands of a plan in the order they are sent, with their steps. -/
def RecoveryPlan.allCommands (plan : RecoveryPlan) : List (ℕ × Text) :=
  plan.steps.flatMap fun s => s.commands.map fun command => (s.id, command)

def checkAbsoluteTravel (plan : RecoveryPlan) : List BoundsViolation :=
  walkCommands bounds true plan.allCommands

def preflightItinerary (plan : RecoveryPlan) : Except (List BoundsViolation) Unit :=
  let violations := checkContactAnchor bounds plan ++ checkContactWithinLimits bounds plan ++
    checkShiftedFrame bounds plan ++ checkAbsoluteTravel bounds plan
  if violations.isEmpty then .ok () else .error violations

end Checks

end DeadReckoning.Recovery
