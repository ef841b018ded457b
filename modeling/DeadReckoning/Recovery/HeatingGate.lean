import DeadReckoning.Lib.Checks
import DeadReckoning.Recovery.ResumeFile

/-! The gate in front of a recovery file: what is written before the tail of the original must not
go to the part before it is hot, and must come back to where the purge happens. -/
namespace DeadReckoning.Recovery
open Checks (ensure required)
open Gcode (CaseMapping Command LineBody lineBodies)

inductive HeatingGateViolation where
  | xyBeforeTempWait (command : Text)
  | missingNozzleWait
  | missingBedWait
  | missingReHome
  | reHomeBeforeTempWait
  | entryBeforeReHome (command : Text)
  | zDescentBeforeTempWait (command : Text)
  | missingRePark
  | reParkMismatch (foundX foundY parkX parkY : Text)
  | purgeBeforeRePark (command : Text)
  | relativeRePark (command : Text)
  deriving DecidableEq

/-- What can be told from the text of a Z word. -/
inductive ZIntent where
  | none
  | lift
  | maybeDescent
  deriving DecidableEq

structure PreLine where
  name : Text
  hasXy : Bool
  isG28 : Bool
  zIntent : ZIntent
  x : Option F64
  y : Option F64
  touchesE : Bool
  absolute : Bool
  deriving DecidableEq

def parkMatchEpsilon : F64 := .fin (1 / 10000)

def motionCommands : List Text := [lit "G0", lit "G1", lit "G2", lit "G3"]

def isMotionCommand (name : Text) : Bool := motionCommands.contains name

def zIntentOf (word : Option Text) (absolute : Bool) : ZIntent :=
  match word with
  | none => .none
  | some text =>
      match Decimal.parseF64 text with
      | some v => if !absolute && F64.lt 0 v then .lift else .maybeDescent
      | none => .maybeDescent

/-- The coordinate mode behind a command. -/
def modeBehind (absolute : Bool) (name : Text) : Bool :=
  if name = lit "G90" then true else if name = lit "G91" then false else absolute

/-- What the gate sees of a command, in the mode in which it is executed. -/
def preLine (absolute : Bool) (command : Command) : PreLine :=
  let name := command.name.map Char.toUpper
  { name
    hasXy := (command.get (lit "X")).isSome || (command.get (lit "Y")).isSome
    isG28 := name = lit "G28"
    zIntent := zIntentOf (command.get (lit "Z")) absolute
    x := (command.get (lit "X")).bind Decimal.parseF64
    y := (command.get (lit "Y")).bind Decimal.parseF64
    touchesE := (command.get (lit "E")).isSome
    absolute }

def classify : Bool → List Command → List PreLine
  | _, [] => []
  | absolute, command :: commands =>
      let absolute := modeBehind absolute (command.name.map Char.toUpper)
      preLine absolute command :: classify absolute commands

/-- The commands of some data. -/
def commandsIn (cases : CaseMapping) (data : Bytes) : List Command :=
  (lineBodies cases data).filterMap LineBody.command?

/-- The printer powers up in absolute mode. -/
def classifyPreamble (cases : CaseMapping) (preamble : Bytes) : List PreLine :=
  classify true (commandsIn cases preamble)

/-- Before the waits nothing moves in X or Y, and Z only up. -/
def checkBeforeWaits (line : PreLine) : Except HeatingGateViolation Unit :=
  if !isMotionCommand line.name then .ok ()
  else if line.hasXy then .error (.xyBeforeTempWait line.name)
  else if line.zIntent = .maybeDescent then .error (.zDescentBeforeTempWait line.name)
  else .ok ()

/-- Before the re-home nothing is entered and nothing extruded. -/
def checkBeforeReHome (line : PreLine) : Except HeatingGateViolation Unit :=
  if isMotionCommand line.name && line.hasXy then .error (.entryBeforeReHome line.name)
  else if line.touchesE then .error (.purgeBeforeRePark line.name)
  else .ok ()

/-- Nothing touches the filament in front of the first motion. -/
def checkNoPurge (afterHome : List PreLine) (firstMotion : Option ℕ) :
    Except HeatingGateViolation Unit :=
  match afterHome.findIdx? (·.touchesE) with
  | none => .ok ()
  | some purge =>
      if firstMotion.all fun motion => purge < motion then
        .error (.purgeBeforeRePark ((afterHome.map (·.name)).getD purge []))
      else .ok ()

/-- The coordinate is where the plan wants it. -/
def parkMatches (found : Option F64) (park : F64) : Bool :=
  found.any fun v => F64.le (F64.abs (v - park)) parkMatchEpsilon

def shown (found : Option F64) : Text := (found.map fmtNum).getD (lit "?")

/-- The first motion behind the re-home goes to the park point. -/
def checkRePark (park : Wal.Point) (rePark : PreLine) : Except HeatingGateViolation Unit :=
  if !rePark.hasXy then .error .missingRePark
  else if !rePark.absolute then .error (.relativeRePark rePark.name)
  else if parkMatches rePark.x park.1 && parkMatches rePark.y park.2 then .ok ()
  else
    .error (.reParkMismatch (shown rePark.x) (shown rePark.y) (fmtNum park.1) (fmtNum park.2))

def verifyHeatingGate (cases : CaseMapping) (file : GeneratedRecoveryFile)
    (spec : RecoveryFileSpec) : Except HeatingGateViolation Unit := do
  let park := spec.postHomeTarget.1
  let lines := classifyPreamble cases file.preamble
  let bedTarget := lines.any fun l => l.name = lit "M140"
  let m190? := lines.findIdx? fun l => l.name = lit "M190"
  let m109 ← required .missingNozzleWait (lines.findIdx? fun l => l.name = lit "M109")
  ensure (!(bedTarget && m190?.isNone)) .missingBedWait
  let gate := (m190?.map (max m109)).getD m109
  (lines.take gate).forM checkBeforeWaits
  let g28 ← required .missingReHome (lines.findIdx? (·.isG28))
  ensure (gate < g28) .reHomeBeforeTempWait
  (lines.take g28).forM checkBeforeReHome
  let afterHome := lines.drop (g28 + 1)
  let firstMotion := afterHome.findIdx? fun l => isMotionCommand l.name
  checkNoPurge afterHome firstMotion
  let rePark ← required .missingRePark (firstMotion.bind (afterHome[·]?))
  checkRePark park rePark

end DeadReckoning.Recovery
