import DeadReckoning.Execution.World
import DeadReckoning.Lib.Runs

/-! The control socket: clients ask for a recovery, answer its confirm-points and read a mirror of
the session, while one execution task runs, pauses, lapses and ends on its own. -/
namespace DeadReckoning.Control

open Execution

section State

/-- One raised confirm-point. Its number stands for the one-shot channel of the answer. -/
structure PauseNotice where
  id : ℕ
  exec : ℕ
  token : String
  kind : ConfirmKind
  stepId : ℕ
  phase : String
  code : String
  deadline : ℕ
  raisedAt : ℕ
  deriving DecidableEq

inductive PauseAnswer where
  | binary (answer : ConfirmAnswer)
  | preview (answer : PreviewAnswer)
  deriving DecidableEq

/-- Where an execution task stands; a paused one waits on its one-shot channel. -/
inductive ExecStatus where
  | running
  | paused (notice : PauseNotice) (answer : Option PauseAnswer)
  | stopping
  | finished (exit : ℕ)
  deriving DecidableEq

/-- An execution task, and the pauses it sent that no handler has received. -/
structure Exec where
  ask : Bool
  status : ExecStatus
  channel : List PauseNotice
  deriving DecidableEq

def Exec.isFinished (e : Exec) : Bool :=
  match e.status with
  | .finished _ => true
  | _ => false

structure ExecSession where
  exec : ℕ
  outstanding : Option PauseNotice
  deriving DecidableEq

/-- What the handler that holds the session lock is waiting for. -/
inductive Holder where
  | pipeline (request : ℕ) (ask : Bool)
  | driving (request : ℕ)
  deriving DecidableEq

/-- The mirror of one execution. -/
structure LiveExecution where
  started : ℕ
  pause : Option PauseNotice
  deriving DecidableEq

structure StateSnapshot where
  executing : Bool
  runningForNs : Option ℕ
  pause : Option PauseNotice
  expiresInNs : Option ℕ
  confirmExpired : Bool
  deriving DecidableEq

inductive Response where
  | error (outcome text : String)
  | noPlan (tag : String)
  | awaitingConfirmation (notice : PauseNotice) (expiresInNs : ℕ)
  | done (exit : ℕ)
  | state (snapshot : StateSnapshot)
  deriving DecidableEq

structure ConfirmArgs where
  token : Option String
  answer : Option String
  count : Option ℤ
  deriving DecidableEq

/-- An answer that reached a pause, and the request that carried it. -/
structure Delivery where
  pause : ℕ
  args : ConfirmArgs
  answer : PauseAnswer
  deriving DecidableEq

/-- The server with its clock; the last three fields record what happened. -/
structure CtrlState where
  clock : ℕ
  tokenSeq : ℕ
  execs : List Exec
  session : Option ExecSession
  lock : Option Holder
  observed : Option LiveExecution
  raised : List PauseNotice
  answers : List Delivery
  responses : List (ℕ × Response)
  deriving DecidableEq

end State

section Requests

inductive OnConfirm where
  | absent
  | null
  | str (s : String)
  | other (shown : String)
  deriving DecidableEq

structure ExecuteArgs where
  step : Option Bool
  confirm : Option Bool
  onConfirm : OnConfirm
  deriving DecidableEq

def onConfirmError (shown : String) : String :=
  "on_confirm must be \"abort\" or \"ask\", got " ++ shown

/-- The gates on the arguments of `recover_execute`: whether to ask, or why it is refused. -/
def executeGates (args : ExecuteArgs) : Except (String × String) Bool :=
  if args.step = some true then .error ("refused", "per-step mode is CLI-only")
  else if args.confirm ≠ some true then
    .error ("refused", "recover_execute requires explicit \"confirm\": true")
  else match args.onConfirm with
    | .absent | .null => .ok false
    | .str s =>
        if s = "abort" then .ok false
        else if s = "ask" then .ok true
        else .error ("malformed", onConfirmError ("\"" ++ s ++ "\""))
    | .other shown => .error ("malformed", onConfirmError shown)

def parsePreviewAnswer (args : ConfirmArgs) : Except String PreviewAnswer :=
  match args.answer with
  | some verb =>
      if verb = "accept" then .ok .accept
      else if verb = "next" then .ok .nextRep
      else if verb = "prev" then .ok .prevRep
      else if verb = "abort" then .ok .abort
      else if verb = "nudge" then
        match args.count with
        | none => .error "recover_confirm \"nudge\" requires an integer \"count\""
        | some count =>
            if count < -2 ^ 31 ∨ 2 ^ 31 ≤ count then
              .error "recover_confirm \"count\" is out of range"
            else if count = 0 then
              .error "recover_confirm \"nudge\" count must be non-zero"
            else .ok (.nudge count)
      else .error "recover_confirm (preview) requires \"answer\": accept | next | prev | nudge | abort"
  | none => .error "recover_confirm (preview) requires \"answer\": accept | next | prev | nudge | abort"

/-- The answer in the vocabulary of the pause. -/
def parseAnswer (kind : ConfirmKind) (args : ConfirmArgs) : Except String PauseAnswer :=
  if kind = .preview then
    match parsePreviewAnswer args with
    | .ok answer => .ok (.preview answer)
    | .error text => .error text
  else if args.answer = some "continue" then .ok (.binary .continue)
  else if args.answer = some "abort" then .ok (.binary .abort)
  else .error "recover_confirm requires \"answer\": \"continue\" or \"abort\""

/-- Both vocabularies together. -/
def isVerb (answer : Option String) : Bool :=
  answer.any fun verb => ["continue", "abort", "accept", "next", "prev", "nudge"].contains verb

def hex (n : ℕ) : String := String.ofList (Nat.toDigits 16 n)

def nextToken (nanos seq : ℕ) : String := "plrc-" ++ hex nanos ++ "-" ++ hex (seq % 2 ^ 64)

end Requests

section Handlers

namespace CtrlState

def init (clock : ℕ) : CtrlState := ⟨clock, 0, [], none, none, none, [], [], []⟩

def respond (s : CtrlState) (request : ℕ) (response : Response) : CtrlState :=
  { s with responses := s.responses ++ [(request, response)] }

def setExec (s : CtrlState) (i : ℕ) (e : Exec) : CtrlState := { s with execs := s.execs.set i e }

/-- A pause that was raised is mirrored while an execution is. -/
def publishPause (s : CtrlState) (notice : PauseNotice) : CtrlState :=
  { s with observed := s.observed.map fun live => { live with pause := some notice } }

def clearPause (s : CtrlState) : CtrlState :=
  { s with observed := s.observed.map fun live => { live with pause := none } }

/-- The mirror as read at a time: a pause past its deadline has expired. -/
def snapshot (s : CtrlState) : StateSnapshot :=
  match s.observed with
  | none => ⟨false, none, none, none, false⟩
  | some live =>
      let runningFor := s.clock - live.started
      match live.pause with
      | none => ⟨true, some runningFor, none, none, false⟩
      | some pause =>
          let elapsed := s.clock - pause.raisedAt
          if elapsed < pause.deadline then
            ⟨true, some runningFor, some pause, some (pause.deadline - elapsed), false⟩
          else ⟨true, some runningFor, none, none, true⟩

def recoverState (s : CtrlState) (request : ℕ) : CtrlState := s.respond request (.state s.snapshot)

/-- Whether the execution of the session still runs. -/
def sessionAlive (s : CtrlState) : Bool :=
  s.session.any fun sess => (s.execs[sess.exec]?).any fun e => !e.isFinished

def recoverExecute (s : CtrlState) (request : ℕ) (args : ExecuteArgs) : CtrlState :=
  match executeGates args with
  | .error (outcome, text) => s.respond request (.error outcome text)
  | .ok ask =>
      if s.lock.isSome then
        s.respond request (.error "busy" "another recover_execute is already running")
      else if s.sessionAlive then
        s.respond request
          (.error "busy" "another recover_execute is already running or awaiting confirmation")
      else
        -- A finished execution that nobody collected is reaped, and the lease begins.
        { s with
          session := none
          observed := some ⟨s.clock, none⟩
          lock := some (.pipeline request ask) }

inductive PipelineResult where
  | plan
  | noPlan (tag : String)
  | failed (text : String)

/-- The pipeline of the request that holds the lock is over. -/
def pipelineDone (s : CtrlState) (result : PipelineResult) : Option CtrlState :=
  match s.lock with
  | some (.pipeline request ask) => some <| match result with
      | .plan =>
          { s with
            execs := s.execs ++ [⟨ask, .running, []⟩]
            session := some ⟨s.execs.length, none⟩
            lock := some (.driving request) }
      | .noPlan tag => { s with observed := none, lock := none }.respond request (.noPlan tag)
      | .failed text =>
          { s with observed := none, lock := none }.respond request (.error "error" text)
  | _ => none

/-- The answer travels down the one-shot channel, unless the pause has ended. -/
def sendAnswer (s : CtrlState) (notice : PauseNotice) (args : ConfirmArgs) (answer : PauseAnswer) :
    Option CtrlState :=
  match s.execs[notice.exec]? with
  | some ⟨ask, .paused n none, channel⟩ =>
      if n.id = notice.id then
        some { s.setExec notice.exec ⟨ask, .paused n (some answer), channel⟩ with
          answers := s.answers ++ [⟨notice.id, args, answer⟩] }
      else none
  | _ => none

def recoverConfirm (s : CtrlState) (request : ℕ) (args : ConfirmArgs) : CtrlState :=
  match args.token with
  | none => s.respond request (.error "malformed" "recover_confirm requires a string \"token\"")
  | some token =>
      if !isVerb args.answer then
        s.respond request (.error "malformed" ("recover_confirm requires \"answer\": " ++
          "continue|abort (binary) or accept|next|prev|nudge|abort (preview)"))
      else if s.lock.isSome then
        s.respond request (.error "busy" "the paused execution is being answered already")
      else match s.session with
        | none => s.respond request (.error "unknown-token"
            "no execution is awaiting confirmation; the token is unknown or expired")
        | some sess => match sess.outstanding with
          | none => s.respond request (.error "unknown-token"
              "the execution is running but not awaiting confirmation; the token is expired")
          | some notice =>
              if notice.token ≠ token then
                s.respond request (.error "unknown-token"
                  "that token does not match the outstanding confirmation")
              else match parseAnswer notice.kind args with
                | .error text => s.respond request (.error "malformed" text)
                | .ok answer =>
                    let taken := { s with session := some { sess with outstanding := none } }
                    match taken.sendAnswer notice args answer with
                    | none => taken.respond request (.error "unknown-token"
                        "the confirmation timed out before the answer arrived; the recovery aborted")
                    | some sent => { sent with lock := some (.driving request) }

/-- The handler that drives the session takes a queued pause first, else the end of the task. -/
def drive (s : CtrlState) : Option CtrlState :=
  match s.lock, s.session with
  | some (.driving request), some sess => match s.execs[sess.exec]? with
      | some e => match e.channel with
          | notice :: rest =>
              let received := s.setExec sess.exec { e with channel := rest }
              some <| { received with
                session := some { sess with outstanding := some notice }
                lock := none }.respond request
                  (.awaitingConfirmation notice (notice.deadline - (s.clock - notice.raisedAt)))
          | [] => match e.status with
              | .finished exit =>
                  some <| { s with session := none, lock := none }.respond request (.done exit)
              | _ => none
      | none => none
  | _, _ => none

end CtrlState

end Handlers

section Execution

/-- What the executor puts to its confirmer. -/
structure RaisedPoint where
  kind : ConfirmKind
  stepId : ℕ
  phase : String
  code : String
  deadline : ℕ
  deriving DecidableEq

/-- How the execution goes on after an answer; the wrong vocabulary aborts. -/
def afterAnswer (kind : ConfirmKind) : PauseAnswer → ExecStatus
  | .binary .continue => if kind = .preview then .stopping else .running
  | .preview .accept | .preview .nextRep | .preview .prevRep | .preview (.nudge _) =>
      if kind = .preview then .running else .stopping
  | _ => .stopping

namespace CtrlState

/-- Whether a handler still holds the sending half of the pause. -/
def hasSender (s : CtrlState) (e : Exec) (notice : PauseNotice) : Bool :=
  e.channel.contains notice || s.session.any fun sess => sess.outstanding = some notice

/-- A running execution raises a confirm-point; the socket's confirmer mirrors and sends it. The
channel holds one pause, and the send fails where the session is gone. -/
def raise (s : CtrlState) (i nanos : ℕ) (point : RaisedPoint) : Option CtrlState :=
  match s.execs[i]? with
  | some ⟨ask, .running, channel⟩ =>
      if !ask then some (s.setExec i ⟨ask, .stopping, channel⟩)
      else
        let notice : PauseNotice := ⟨s.raised.length, i, nextToken nanos s.tokenSeq, point.kind,
          point.stepId, point.phase, point.code, point.deadline, s.clock⟩
        let raised := { s.publishPause notice with
          tokenSeq := s.tokenSeq + 1
          raised := s.raised ++ [notice] }
        if s.session.any fun sess => sess.exec = i then
          if channel.isEmpty then some (raised.setExec i ⟨ask, .paused notice none, [notice]⟩)
          else none
        else some (raised.clearPause.setExec i ⟨ask, .stopping, channel⟩)
  | _ => none

/-- The paused execution takes its answer, or finds that none can come. -/
def wake (s : CtrlState) (i : ℕ) : Option CtrlState :=
  match s.execs[i]? with
  | some ⟨ask, .paused notice (some answer), channel⟩ =>
      some (s.clearPause.setExec i ⟨ask, afterAnswer notice.kind answer, channel⟩)
  | some ⟨ask, .paused notice none, channel⟩ =>
      if s.hasSender ⟨ask, .paused notice none, channel⟩ notice then none
      else some (s.clearPause.setExec i ⟨ask, .stopping, channel⟩)
  | _ => none

/-- The deadline drops the question; the mirror keeps it. -/
def lapse (s : CtrlState) (i : ℕ) : Option CtrlState :=
  match s.execs[i]? with
  | some ⟨ask, .paused _ none, channel⟩ => some (s.setExec i ⟨ask, .stopping, channel⟩)
  | _ => none

/-- The task ends and its lease with it. -/
def complete (s : CtrlState) (i exit : ℕ) : Option CtrlState :=
  match s.execs[i]? with
  | some ⟨ask, .running, channel⟩ | some ⟨ask, .stopping, channel⟩ =>
      some { s.setExec i ⟨ask, .finished exit, channel⟩ with observed := none }
  | _ => none

end CtrlState

inductive CtrlEvent where
  | tick (ns : ℕ)
  | recoverExecute (request : ℕ) (args : ExecuteArgs)
  | pipelineDone (result : CtrlState.PipelineResult)
  | recoverConfirm (request : ℕ) (args : ConfirmArgs)
  | recoverState (request : ℕ)
  | drive
  | raise (exec nanos : ℕ) (point : RaisedPoint)
  | wake (exec : ℕ)
  | lapse (exec : ℕ)
  | complete (exec exit : ℕ)

def step : Runs.Step CtrlState CtrlEvent
  | s, .tick ns => some { s with clock := s.clock + ns }
  | s, .recoverExecute request args => some (s.recoverExecute request args)
  | s, .pipelineDone result => s.pipelineDone result
  | s, .recoverConfirm request args => some (s.recoverConfirm request args)
  | s, .recoverState request => some (s.recoverState request)
  | s, .drive => s.drive
  | s, .raise exec nanos point => s.raise exec nanos point
  | s, .wake exec => s.wake exec
  | s, .lapse exec => s.lapse exec
  | s, .complete exec exit => s.complete exec exit

end Execution

end DeadReckoning.Control
