import DeadReckoning.Recording.CleanShutdown

/-! The Klipper client: connect, wait for `ready`, discover heaters, subscribe, start the
dumps, then read until the socket dies. Each transition is one socket event; `log` keeps
what was handed to the converter and to the journal's sender, in order. -/
namespace DeadReckoning.Recording

open Wal (WalRecord SyncPolicy Marker MarkerKind)

def idInfo : ℕ := 1
def idHeatersQuery : ℕ := 2
def idSubscribe : ℕ := 3
def idTrapqBase : ℕ := 10
def idStepperBase : ℕ := 30
def idPollBase : ℕ := 1000

structure ClientCfg where
  trapqQueues : List String
  zSteppers : List String

/-- Which subscription a notification belongs to. -/
inductive Route where
  | status
  | trapq (queue : String)
  | stepper (stepper : String)

def stripPrefix (lead key : String) : Option String :=
  if lead.toList.isPrefixOf key.toList then
    some (String.ofList (key.toList.drop lead.toList.length))
  else none

/-- Decodes the routing key echoed in the template; `none` when it is not a string. -/
def routeOf (key : Option String) : Option Route :=
  key.bind fun key =>
    if key = "status" then some .status
    else ((stripPrefix "trapq:" key).map Route.trapq).orElse fun _ =>
      (stripPrefix "stepper:" key).map Route.stepper

/-- An asynchronous message: its routing key, and its payload under each typed decoder. -/
structure Notification where
  key : Option String
  statusUpdate : Option StatusUpdate := none
  trapqBatch : Option TrapqBatch := none
  stepperBatch : Option StepperBatch := none

/-- A reply's `result` as the setup steps read it. `info` is `none` when the payload is not
an info response, and holds its optional state otherwise. -/
structure Reply where
  info : Option (Option String) := none
  availableHeaters : List String := []
  status : Option StatusUpdate := none

inductive Inbound where
  | response (id : ℕ) (result : Reply)
  | error (id : ℕ)
  | notification (n : Notification)

/-- A call on the journal's sender. -/
inductive SenderCall where
  | record (record : WalRecord) (sync : SyncPolicy) (monoNs : ℕ)
  | marker (marker : Marker)
  | heartbeatData (data : Option HeartbeatData)
  | receiveSeq (monoNs widened : ℕ)
  deriving DecidableEq

/-- One thing the client did. Sessions are numbered by connection. -/
inductive Entry where
  /-- A decoded message of the session was merged into the given recorder state. -/
  | handed (session : ℕ) (recorder : Recorder) (event : SessionEvent)
  | heaterNames (names : List String)
  /-- A sender call that carries what a message of the session produced. -/
  | derived (session : ℕ) (call : SenderCall)
  /-- A sender call of the client's own. -/
  | sent (call : SenderCall)
  | reset

inductive Stage where
  | disconnected
  | info (id : ℕ)
  | heaters
  | subscribe
  | trapq (i : ℕ)
  | stepper (i : ℕ)
  | live
  /-- The journal thread is gone; the client has returned. -/
  | stopped
  deriving DecidableEq

structure Client where
  recorder : Recorder
  lostAfterSubscribe : Bool
  stage : Stage
  session : ℕ
  /-- How many more calls the journal thread takes before it dies, if it ever does. -/
  callsLeft : Option ℕ
  log : List Entry

def Client.new (callsLeft : Option ℕ) : Client :=
  { recorder := Recorder.new
    lostAfterSubscribe := false
    stage := .disconnected
    session := 0
    callsLeft
    log := [] }

/-- A failed attempt carries the client as the dead journal thread left it. -/
abbrev Attempt := Except Client Client

def Client.give (c : Client) (entry : Entry) : Attempt :=
  match c.callsLeft with
  | some 0 => .error { c with stage := .stopped }
  | left => .ok { c with callsLeft := left.map (· - 1), log := c.log ++ [entry] }

def Client.giveAll (c : Client) (entries : List Entry) : Attempt :=
  entries.foldlM Client.give c

/-- The sender calls one conversion output becomes, in order. -/
def Output.calls (out : Output) (monoNs : ℕ) : List SenderCall :=
  out.records.map (fun (record, sync) => SenderCall.record record sync monoNs)
    ++ (out.regimeMarker.map fun kind => SenderCall.marker { monoNs, kind }).toList
    ++ (out.heartbeat.map fun data => SenderCall.heartbeatData (some data)).toList
    ++ (out.receiveSeq.map fun (ns, widened) => SenderCall.receiveSeq ns widened).toList
    ++ (if out.cleanShutdown then [.marker { monoNs, kind := .cleanShutdown }] else [])

def Client.forward (c : Client) (out : Output) (monoNs : ℕ) : Attempt :=
  c.giveAll ((out.calls monoNs).map (Entry.derived c.session))

/-- What the recorder's handler for the event returns. -/
def Recorder.output (r : Recorder) : SessionEvent → Output
  | .status update monoNs forceContext => (r.onStatus update monoNs forceContext).2
  | .trapq queue batch monoNs => (r.onTrapq queue batch monoNs).2
  | .stepper stepper batch monoNs => (r.onStepper stepper batch monoNs).2
  | .heaterNames _ | .reset => {}

/-- Hands a decoded message to the converter and forwards its output. -/
def Client.convert (c : Client) (event : SessionEvent) (monoNs : ℕ) : Attempt :=
  let handed : Client :=
    { c with
      recorder := c.recorder.handle event
      log := c.log ++ [.handed c.session c.recorder event] }
  handed.forward (c.recorder.output event) monoNs

/-- The converter call a notification turns into; an unknown route or an undecodable payload
is none. -/
def Notification.event (n : Notification) (monoNs : ℕ) : Option SessionEvent :=
  match routeOf n.key with
  | none => none
  | some .status => n.statusUpdate.map fun update => .status update monoNs false
  | some (.trapq queue) => n.trapqBatch.map fun batch => .trapq queue batch monoNs
  | some (.stepper stepper) => n.stepperBatch.map fun batch => .stepper stepper batch monoNs

def Client.dispatch (c : Client) (n : Notification) (monoNs : ℕ) : Attempt :=
  match n.event monoNs with
  | none => .ok c
  | some event => c.convert event monoNs

/-- The request id the setup is waiting for. -/
def Stage.awaited : Stage → Option ℕ
  | .info id => some id
  | .heaters => some idHeatersQuery
  | .subscribe => some idSubscribe
  | .trapq i => some (idTrapqBase + i)
  | .stepper i => some (idStepperBase + i)
  | .disconnected | .live | .stopped => none

/-- Setup is over: the first resubscription after a loss says so. -/
def Client.ready (c : Client) (monoNs : ℕ) : Attempt :=
  let c := { c with stage := .live }
  if c.lostAfterSubscribe then c.give (.sent (.marker { monoNs, kind := .resubscribed }))
  else .ok c

def Client.awaitStepper (cfg : ClientCfg) (c : Client) (i monoNs : ℕ) : Attempt :=
  if i < cfg.zSteppers.length then .ok { c with stage := .stepper i } else c.ready monoNs

def Client.awaitTrapq (cfg : ClientCfg) (c : Client) (i monoNs : ℕ) : Attempt :=
  if i < cfg.trapqQueues.length then .ok { c with stage := .trapq i }
  else c.awaitStepper cfg 0 monoNs

/-- The id of the next info poll of the startup gate. -/
def nextInfoId (id : ℕ) : ℕ := if id + 2 ≥ idPollBase then idInfo else id + 2

/-- The connection is gone. Only a session that got past its setup is written off. -/
def Client.lost (c : Client) (monoNs : ℕ) : Attempt :=
  match c.stage with
  | .live => do
      let c ← c.give (.sent (.marker { monoNs, kind := .socketLost }))
      let c ← c.give (.sent (.heartbeatData none))
      return { c with
        recorder := c.recorder.resetSession
        log := c.log ++ [.reset]
        lostAfterSubscribe := true
        stage := .disconnected }
  | _ => .ok { c with stage := .disconnected }

/-- The reply the current setup step has been waiting for. -/
def Client.reply (cfg : ClientCfg) (c : Client) (result : Reply) (monoNs : ℕ) : Attempt :=
  match c.stage with
  | .info id =>
      match result.info with
      | none => c.lost monoNs
      | some state =>
          if state = some "ready" then .ok { c with stage := .heaters }
          else .ok { c with stage := .info (nextInfoId id) }
  | .heaters =>
      .ok { c with
        recorder := c.recorder.setHeaterNames result.availableHeaters
        log := c.log ++ [.heaterNames result.availableHeaters]
        stage := .subscribe }
  | .subscribe => do
      let c ← match result.status with
        | some update => c.convert (.status update monoNs true) monoNs
        | none => .ok c
      c.awaitTrapq cfg 0 monoNs
  | .trapq i => c.awaitTrapq cfg (i + 1) monoNs
  | .stepper i => c.awaitStepper cfg (i + 1) monoNs
  | .disconnected | .live | .stopped => .ok c

def Client.receive (cfg : ClientCfg) (c : Client) (inbound : Inbound) (monoNs : ℕ) : Attempt :=
  match inbound with
  | .notification n => c.dispatch n monoNs
  | .response id result =>
      if c.stage.awaited = some id then c.reply cfg result monoNs else .ok c
  | .error id => if c.stage.awaited = some id then c.lost monoNs else .ok c

/-- What can happen to the client; `ioError` is a failed read or a failed request. -/
inductive ClientEvent where
  | connect
  | connectFails
  | recv (inbound : Inbound) (monoNs : ℕ)
  | ioError (monoNs : ℕ)

/-- The client after an attempt, whether or not the journal thread survived it. -/
def Attempt.client : Attempt → Client
  | .ok c => c
  | .error c => c

def clientStep (cfg : ClientCfg) : Runs.Step Client ClientEvent := fun c event =>
  match c.stage, event with
  | .stopped, _ => none
  | .disconnected, .connect => some { c with session := c.session + 1, stage := .info idInfo }
  | .disconnected, .connectFails => some c
  | .disconnected, _ => none
  | _, .connect => none
  | _, .connectFails => none
  | _, .recv inbound monoNs => some (Attempt.client (c.receive cfg inbound monoNs))
  | _, .ioError monoNs => some (Attempt.client (c.lost monoNs))

end DeadReckoning.Recording
