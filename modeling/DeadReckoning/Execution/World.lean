import DeadReckoning.Lib.Prog
import DeadReckoning.Recovery.PlanRecovery

/-! What an execution sees and does: the status values it reads, the predicates over them, the
events it leaves behind and the collaborators that answer it. -/
namespace DeadReckoning.Execution

open Recovery

section Values

/-- A status value, as JSON. -/
inductive Value where
  | null
  | bool (b : Bool)
  | num (v : F64)
  | str (s : Text)
  | arr (items : List Value)
  | obj (fields : List (Text × Value))

namespace Value

def asNum : Value → Option F64
  | num v => if v.isFinite then some v else none
  | _ => none

def asStr : Value → Option Text
  | str s => some s
  | _ => none

def asArray : Value → Option (List Value)
  | arr items => some items
  | _ => none

def isBool (expected : Bool) : Value → Bool
  | bool b => b = expected
  | _ => false

/-- The field of an object. -/
def field (key : Text) : Value → Option Value
  | obj fields => (fields.find? (·.1 = key)).map (·.2)
  | _ => none

/-- The element of an array. -/
def element (index : ℕ) : Value → Option Value
  | arr items => items[index]?
  | _ => none

/-- A segment of decimal digits is an index of an array. -/
def parseIndex (segment : Text) : Option ℕ :=
  let digits := (Text.stripPrefix (lit "+") segment).getD segment
  if digits.isEmpty || digits.any (fun c => !c.isDigit) then none
  else
    let index := digits.foldl (fun n c => 10 * n + (c.toNat - '0'.toNat)) 0
    if index < 2 ^ 64 then some index else none

def segment (value : Value) (name : Text) : Option Value :=
  match parseIndex name with
  | some index => value.element index
  | none => value.field name

/-- Resolves an object and a dotted path of fields inside a status map. -/
def lookup (status : Value) (object path : Text) : Option Value :=
  (path.splitOn '.').foldl (fun current name => current.bind (segment · name)) (status.field object)

end Value

/-- Whether a predicate holds of an observed value; an absent or mistyped value does not. -/
def evaluate (predicate : Predicate) (value : Option Value) (computed : Option F64) : Bool :=
  match value with
  | none => false
  | some value =>
      match predicate with
      | .numWithin expected epsilon => value.asNum.any fun v => F64.le (F64.abs (v - expected)) epsilon
      | .numAtLeast min => value.asNum.any fun v => F64.le min v
      | .numAtMost max => value.asNum.any fun v => F64.le v max
      | .tempWithin min max => value.asNum.any fun v => F64.le min v && F64.le v max
      | .contains needle => value.asStr.any fun s => Text.contains s needle
      | .equals expected => value.asStr.any fun s => s = expected
      | .boolTrue => value.isBool true
      | .boolFalse => value.isBool false
      | .finitePresent =>
          match value with
          | .num v => v.isFinite
          | .null => false
          | _ => true
      | .nonEmptyMatrix => value.asArray.any fun rows =>
          rows.any fun row => row.asArray.any fun cells => !cells.isEmpty
      | .numWithinComputed epsilon =>
          match value.asNum, computed with
          | some v, some c => F64.le (F64.abs (v - c)) epsilon
          | _, _ => false

end Values

section Questions

inductive ConfirmKind where
  | diagnosis
  | zHeight
  | stepDebug
  | preview
  deriving DecidableEq

inductive ConfirmAnswer where
  | continue
  | abort
  | timedOut
  deriving DecidableEq

inductive PreviewAnswer where
  | accept
  | nextRep
  | prevRep
  | nudge (delta : ℤ)
  | abort
  | timedOut
  deriving DecidableEq

/-- A question to the operator. -/
structure ConfirmPoint where
  kind : ConfirmKind
  stepId : ℕ
  phase : Phase
  code : String
  deriving DecidableEq

end Questions

section Stops

inductive StepFailure where
  | probeTriggeredEarly
  | noTrigger
  | moveOutOfRange
  | unknown
  deriving DecidableEq

/-- Klipper's error text by the first known part it contains. -/
def StepFailure.classify (message : Text) : StepFailure :=
  if Text.contains message (lit "Probe triggered prior to movement") then probeTriggeredEarly
  else if Text.contains message (lit "No trigger on probe after full movement") ||
      Text.contains message (lit "in a sliding window of") then noTrigger
  else if Text.contains message (lit "Move out of range") then moveOutOfRange
  else unknown

/-- Why an execution stopped. -/
inductive StopCause where
  | verificationFailed (verification : Verification)
  | transport (message : Text)
  | commandFailed (failure : StepFailure) (message : Text)
  | computeFailed (message : String)
  | operatorDeclined
  | frameGuardUnwritable (reason : Text)
  | hardDiagnosis (code : String)
  | confirmationDeclined (kind : ConfirmKind) (code : String)
  | confirmationTimedOut (kind : ConfirmKind) (code : String)
  | exclusivityLost (reason : Text)
  /-- An index outside its list. No plan of the planner leads here. -/
  | panicked
  deriving DecidableEq

inductive ExecOutcome where
  | completed (steps : ℕ)
  | aborted (stepId : ℕ) (phase : Phase) (reason : String) (cause : StopCause)
      (frameInvalid : Bool)
  deriving DecidableEq

end Stops

section Events

inductive Stage where
  | pre
  | post
  deriving DecidableEq

/-- What a sent command belongs to. -/
inductive Source where
  | step (id : ℕ)
  | preview (cursor : ℕ)
  | cleanup (id : ℕ)
  deriving DecidableEq

/-- What an execution does, in the order in which it does it. An answer that stops it is kept
beside the question. -/
inductive Event where
  | query (object : Text) (answer : Except Text Value)
  | gate (stepId : ℕ) (allowed : Bool)
  | confirm (point : ConfirmPoint) (answer : ConfirmAnswer)
  | preview (stepId cursor : ℕ) (answer : PreviewAnswer)
  | recheck (answer : Except Text Unit)
  | arm (stepId : ℕ) (answer : Except Text Unit)
  | verify (stage : Stage) (stepId : ℕ) (verification : Verification) (computed : Option F64)
      (holds : Bool)
  | register (stepId : ℕ) (commands : List Text)
  | send (source : Source) (template text : Text) (error : Option Text)
  | write (binding : PreviewBinding) (answer : Except Text Unit)

abbrev Events := List Event

/-- The collaborators. Each answers with all that has happened in view; the deadlines are the
number of polls that fit before them and the answers that the operator gives in time. -/
structure World where
  query : Events → Text → Except Text Value
  polls : Events → Verification → ℕ
  gate : Events → RecoveryStep → Bool
  confirm : Events → ConfirmPoint → ConfirmAnswer
  previewAnswers : List PreviewAnswer
  recheck : Events → Except Text Unit
  arm : Events → RecoveryStep → Except Text Unit
  script : Events → Text → Option Text
  writeFor : Events → PreviewBinding → Except Text Unit

end Events

end DeadReckoning.Execution
