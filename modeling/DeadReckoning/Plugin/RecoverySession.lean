import DeadReckoning.Lib.F64
import DeadReckoning.Lib.Runs

/-! The plugin's recovery session: the state it publishes, the question it holds, the request it
has in flight and its two deadlines. Console output is left out. -/
namespace DeadReckoning.Plugin

section Protocol

inductive PublishedState where
  | idle
  | running
  | awaitingConfirmation
  | plrdBusy
  | unknown
  deriving DecidableEq

/-- How alarming each state is. -/
def alarm : PublishedState → ℕ
  | .idle => 0
  | .running => 1
  | .awaitingConfirmation => 1
  | .plrdBusy => 2
  | .unknown => 3

/-- The JSON value of an outcome tag; looking a container up in a set of tags raises. -/
inductive OutcomeTag where
  | absent
  | str (tag : String)
  | scalar
  | container
  deriving DecidableEq

/-- The data map of a pause: its token and its kind where they are strings, and whether the dialog
can be rendered from it (a number too large for a float raises). -/
structure PauseData where
  resumeToken : Option String
  confirmKind : Option String
  renders : Bool
  deriving DecidableEq

structure Reply where
  ok : Bool
  outcome : OutcomeTag
  data : PauseData
  deriving DecidableEq

def terminalOutcomes : List String :=
  ["completed", "aborted-or-refused", "refused", "clean-shutdown", "machine-rejected",
    "manual-fallback", "not-possible"]

def protocolRefusalOutcomes : List String := ["unknown-cmd", "oversized"]

inductive AnswerKind where
  | pause
  | busy
  | staleToken
  | protocolRefusal
  | terminal
  | unclassifiable
  deriving DecidableEq

/-- The one reading of plrd's tags; `none` where it raises. -/
def classify (response : Reply) : Option AnswerKind :=
  let byOk := if response.ok then AnswerKind.terminal else .unclassifiable
  match response.outcome with
  | .container => none
  | .absent | .scalar => some byOk
  | .str tag =>
      if tag = "awaiting_confirmation" then some .pause
      else if tag = "busy" then some .busy
      else if tag = "unknown-token" then some .staleToken
      else if protocolRefusalOutcomes.contains tag then some .protocolRefusal
      else if terminalOutcomes.contains tag then some .terminal
      else some byOk

def previewAnswers : List String := ["accept", "next", "prev", "nudge"]

def allAnswers : List String := ["continue", "abort"] ++ previewAnswers

end Protocol

section Deadlines

def confirmHeadroomS : ℚ := 30

def daemonConfirmCeilingS : ℚ := 3600

def daemonConfirmDefaultS : ℚ := 600

/-- plrd's confirm deadline, and whether it is known exactly. -/
def daemonConfirmDeadline : Option F64 → ℚ × Bool
  | some (.fin value) => if 0 < value then (value, true) else (daemonConfirmCeilingS, false)
  | _ => (daemonConfirmCeilingS, false)

def promptDeadline (configured : Option F64) : ℚ :=
  (daemonConfirmDeadline configured).1 + confirmHeadroomS

def claimDeadline (configured : Option F64) : Option ℚ :=
  if (daemonConfirmDeadline configured).2 then none
  else some (daemonConfirmDefaultS + confirmHeadroomS)

/-- A reactor timer: not registered, registered for never, or due. -/
inductive Timer where
  | unregistered
  | never
  | due (waketime : ℚ)
  deriving DecidableEq

def Timer.disarm : Timer → Timer
  | .unregistered => .unregistered
  | _ => .never

/-- Back to an earlier waketime, where there was one. -/
def Timer.restore (timer earlier : Timer) : Timer :=
  if timer = .unregistered ∨ earlier = .unregistered then timer else earlier

end Deadlines

section Session

inductive Request where
  | recoverExecute
  | recoverConfirm (token answer : String) (count : Option ℤ)
  deriving DecidableEq

/-- A request on the channel, and the state published when it was made. -/
structure InFlight where
  request : Request
  before : PublishedState
  deriving DecidableEq

/-- An abort sent from a detached thread, with the conversation it belongs to. -/
structure DetachedAbort where
  token : String
  epoch : ℕ
  deriving DecidableEq

structure RecoverySession where
  configured : Option F64
  clock : ℚ
  state : PublishedState
  token : Option String
  data : Option PauseData
  answering : Option String
  answeringToken : Option String
  priorState : PublishedState
  epoch : ℕ
  wait : Timer
  claim : Timer
  closed : Bool
  isShutdown : Bool
  channel : Option InFlight
  aborts : List DetachedAbort
  deriving DecidableEq

inductive Refusal where
  | shutDown
  | alreadyInFlight
  | channelBusy
  | notStarted
  | unknownAnswer
  | nothingToAnswer
  | cannotMove
  | notPreview
  | isPreview
  | notSent
  | nothingToCancel
  deriving DecidableEq

/-- The state published after a transition: calmer only for a reason. -/
def publish (current state : PublishedState) (reason : Bool) : PublishedState :=
  if state = current then current
  else if alarm state < alarm current ∧ reason = false then current
  else state

namespace RecoverySession

def init (configured : Option F64) (clock : ℚ) : RecoverySession :=
  ⟨configured, clock, .idle, none, none, none, none, .idle, 0, .unregistered, .unregistered, false,
    false, none, []⟩

/-- The one writer of the published state. -/
def transition (s : RecoverySession) (state : PublishedState) (reason : Bool) : RecoverySession :=
  { s with state := publish s.state state reason }

def raiseAlarm (s : RecoverySession) (state : PublishedState) : RecoverySession :=
  if alarm state < alarm s.state then s else s.transition state false

def mayStartNew (s : RecoverySession) : Bool :=
  s.state = .idle || s.state = .plrdBusy || s.state = .unknown

def canAnswer (s : RecoverySession) : Bool := s.token.isSome

def pauseKind (s : RecoverySession) : Option String := s.data.bind (·.confirmKind)

def disarmClaimTimer (s : RecoverySession) : RecoverySession :=
  { s with claim := s.claim.disarm }

def disarmTimer (s : RecoverySession) : RecoverySession :=
  { s with wait := s.wait.disarm, claim := s.claim.disarm }

def armTimer (s : RecoverySession) : RecoverySession :=
  { s with
    wait := .due (s.clock + promptDeadline s.configured)
    claim := match claimDeadline s.configured with
      | none => s.claim.disarm
      | some claim => .due (s.clock + claim) }

def restoreTimers (s : RecoverySession) (wait claim : Timer) : RecoverySession :=
  if wait = .unregistered ∧ claim = .unregistered then s.armTimer
  else { s with wait := s.wait.restore wait, claim := s.claim.restore claim }

/-- The channel takes one request at a time, and none once it is closed or no thread starts. -/
def call (s : RecoverySession) (request : Request) (before : PublishedState) (started : Bool) :
    Option RecoverySession :=
  if s.closed || s.channel.isSome || !started then none
  else some { s with channel := some ⟨request, before⟩ }

def abortDetached (s : RecoverySession) (token : String) (epoch : ℕ) : RecoverySession :=
  { s with aborts := s.aborts ++ [⟨token, epoch⟩] }

def abortShutdownPause (s : RecoverySession) (token : String) : RecoverySession :=
  (s.raiseAlarm .unknown).abortDetached token s.epoch

/-- Nothing is touched until the launch succeeds; a kept question is then abandoned. -/
def start (s : RecoverySession) (started : Bool) : RecoverySession × Option Refusal :=
  if s.closed || s.isShutdown then (s, some .shutDown)
  else if !s.mayStartNew then (s, some .alreadyInFlight)
  else if s.channel.isSome then (s, some .channelBusy)
  else match s.call .recoverExecute s.state started with
    | none => (s, some .notStarted)
    | some launched =>
        let fresh := { launched with
          data := none
          answering := none
          answeringToken := none
          epoch := s.epoch + 1
          priorState := s.state
          token := none }
        let told := match s.token with
          | none => fresh
          | some abandoned => fresh.abortDetached abandoned s.epoch
        (told.transition .running true, none)

/-- The token is handed to plrd and forgotten, and put back where the answer was never sent. -/
def answer (s : RecoverySession) (verb : String) (count : Option ℤ) (started : Bool) :
    RecoverySession × Option Refusal :=
  if !allAnswers.contains verb then (s, some .unknownAnswer)
  else match s.token with
    | none => (s, some .nothingToAnswer)
    | some token =>
        if verb ≠ "abort" ∧ s.isShutdown = true then (s, some .cannotMove)
        else if previewAnswers.contains verb ∧ s.pauseKind ≠ some "preview" then
          (s, some .notPreview)
        else if verb = "continue" ∧ s.pauseKind = some "preview" then (s, some .isPreview)
        else
          let sending := { { s with
            token := none
            answeringToken := some token
            epoch := s.epoch + 1
            priorState := s.state }.transition .running true with answering := some verb }
          let request := Request.recoverConfirm token verb (if verb = "nudge" then count else none)
          match sending.disarmTimer.call request s.state started with
          | some launched => (launched, none)
          | none =>
              let back := { sending.disarmTimer with token := some token, answeringToken := none }
              let undone := { back.transition s.state true with answering := none }
              (undone.restoreTimers s.wait s.claim, some .notSent)

def cancel (s : RecoverySession) (started : Bool) : RecoverySession × Option Refusal :=
  if s.canAnswer then s.answer "abort" none started else (s, some .nothingToCancel)

end RecoverySession

end Session

section Replies

namespace RecoverySession

/-- The answer is about the request: the claim that stood before it goes back. -/
def closeOutRequest (s : RecoverySession) : RecoverySession :=
  { s with answering := none, answeringToken := none, token := none, data := none }.disarmTimer
    |>.transition s.priorState true

def wrongKindRestore (s : RecoverySession) : RecoverySession :=
  let kept := { s with
    answering := none
    answeringToken := none
    token := s.answeringToken
    data := if s.answeringToken.isSome then s.data else none }
  let told := (kept.transition .unknown false).disarmTimer
  if s.answeringToken.isSome then told.armTimer else told

def plrdBusy (s : RecoverySession) : RecoverySession :=
  let kept := { s with
    answering := none
    answeringToken := none
    token := s.answeringToken
    data := if s.answeringToken.any (· ≠ "") then s.data else none }
  let told := (kept.transition .plrdBusy false).disarmTimer
  if s.answeringToken.isSome then told.armTimer else told

def unresolved (s : RecoverySession) : RecoverySession :=
  { s with answering := none, answeringToken := none, token := none, data := none }.transition
    .unknown false |>.disarmTimer

def finish (s : RecoverySession) : RecoverySession :=
  { s with answering := none, answeringToken := none, token := none, data := none }.transition
    .idle true |>.disarmTimer

/-- A pause: answerable, unless it names no token or klippy is shut down. -/
def pause (s : RecoverySession) (data : PauseData) : RecoverySession :=
  match data.resumeToken with
  | none => s.unresolved
  | some token =>
      if token = "" then s.unresolved
      else if s.isShutdown then
        ({ s with answering := none, token := none, data := none }.disarmTimer).abortShutdownPause
          token
      else
        let asked := { s with answering := none, token := some token, data := some data }.transition
          .awaitingConfirmation true
        -- The timers are armed last, after the dialog.
        if data.renders then asked.armTimer else asked

/-- One reply to the request in flight; where reading it raises, nothing is done. -/
def onResponse (s : RecoverySession) (response : Reply) : RecoverySession :=
  match classify response with
  | none => s
  | some .pause => s.pause response.data
  | some .busy => s.plrdBusy
  | some .staleToken => s.unresolved
  | some .protocolRefusal => s.closeOutRequest
  | some .terminal => s.finish
  | some .unclassifiable =>
      if response.outcome = .str "malformed" ∧ s.answeringToken.isSome then s.wrongKindRestore
      else s.unresolved

def onError (s : RecoverySession) : RecoverySession :=
  { s with answering := none, token := none, data := none }.transition .unknown false
    |>.disarmTimer

def onClaimExpiry (s : RecoverySession) : RecoverySession :=
  if s.state = .awaitingConfirmation then s.transition .unknown false else s

def onExpiry (s : RecoverySession) : RecoverySession :=
  if s.token.isSome ∧ (s.state = .awaitingConfirmation ∨ s.state = .unknown) then
    { s with answering := none, token := none, data := none }.transition .idle true
      |>.disarmClaimTimer
  else s

def handleShutdown (s : RecoverySession) : RecoverySession :=
  if s.closed then s
  else
    let stopped := { s with answering := none, token := none, data := none }.disarmTimer
    match s.token with
    | none => stopped
    | some token => stopped.abortShutdownPause token

def handleDisconnect (s : RecoverySession) : RecoverySession :=
  if s.closed then s
  else
    let torn := { s with closed := true, answering := none, token := none, data := none }.transition
      .idle true |>.disarmTimer
    match s.token with
    | none => torn
    | some token => torn.abortDetached token s.epoch

/-- What a detached abort came to; it can only raise the alarm, and only in its conversation. -/
def abortReported (s : RecoverySession) (epoch : ℕ) : RecoverySession :=
  if s.closed then s
  else if epoch ≠ s.epoch then s
  else s.raiseAlarm .unknown

end RecoverySession

end Replies

section Steps

/-- How a detached abort ended; every ending is only reported. -/
inductive AbortOutcome where
  | sendFailed
  | noReply
  | answered (response : Reply)

inductive SessionEvent where
  | start (started : Bool)
  | answer (verb : String) (count : Option ℤ) (started : Bool)
  | cancel (started : Bool)
  | reply (response : Reply)
  | error
  | claimExpiry
  | waitExpiry
  | abortReported (abort : ℕ) (outcome : AbortOutcome)
  | shutdown
  | disconnect
  | tick (dt : ℚ)

/-- The channel delivers nothing once it is closed. -/
def deliver (s : RecoverySession) (callback : RecoverySession → RecoverySession) :
    Option RecoverySession :=
  match s.channel with
  | none => none
  | some _ =>
      let freed := { s with channel := none }
      some (if s.closed then freed else callback freed)

def isDue (s : RecoverySession) : Timer → Bool
  | .due waketime => waketime ≤ s.clock
  | _ => false

def step : Runs.Step RecoverySession SessionEvent
  | s, .start started => some (s.start started).1
  | s, .answer verb count started => some (s.answer verb count started).1
  | s, .cancel started => some (s.cancel started).1
  | s, .reply response => deliver s (·.onResponse response)
  | s, .error => deliver s (·.onError)
  | s, .claimExpiry =>
      if isDue s s.claim then some { s with claim := .never }.onClaimExpiry else none
  | s, .waitExpiry => if isDue s s.wait then some { s with wait := .never }.onExpiry else none
  | s, .abortReported k _ => match s.aborts[k]? with
      | none => none
      | some abort => some ({ s with aborts := s.aborts.eraseIdx k }.abortReported abort.epoch)
  | s, .shutdown => some { s.handleShutdown with isShutdown := true }
  | s, .disconnect => some s.handleDisconnect
  | s, .tick dt => if 0 ≤ dt then some { s with clock := s.clock + dt } else none

end Steps

end DeadReckoning.Plugin
