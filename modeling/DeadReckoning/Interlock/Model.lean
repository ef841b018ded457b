import DeadReckoning.Lib.Runs
import Mathlib.Logic.Function.Basic

/-! The frame-invalid interlock: one marker file, the executions that arm, release and obey
it, and the dry runs that clear it. Every step is one file operation or one send, so that
processes interleave anywhere in between. -/
namespace DeadReckoning.Interlock

/-- The marker file: not there, there with a readable record, or there and undecodable. -/
inductive MarkerFile where
  | absent
  | valid
  | torn
  deriving DecidableEq

/-- `Some` of the reader: an undecodable file reads like no file. -/
def readFrameInvalid : MarkerFile → Bool
  | .valid => true
  | .absent | .torn => false

/-- How an atomic write can end: durably, or with an error before or after the rename. -/
inductive WriteResult where
  | ok
  | errBefore
  | errAfter
  deriving DecidableEq

inductive ExecPhase where
  | idle
  /-- Past every gate; nothing is armed. -/
  | running
  /-- The marker is written and the shifted-frame declare is next. -/
  | armed
  /-- The declare is sent. -/
  | declared
  /-- Every step is done; the marker is about to be cleared. -/
  | completed
  /-- Aborted in the danger zone; the marker is about to be written again. -/
  | aborting
  | ended
  deriving DecidableEq

structure Execution where
  phase : ExecPhase := .idle
  /-- It has sent something to the printer. -/
  sent : Bool := false
  /-- It has sent the shifted-frame declare. -/
  declared : Bool := false
  /-- The marker file was there when its gates ran. -/
  gatedByMarker : Bool := false
  /-- It completed, or a dry run that began after its end produced a plan. -/
  resolved : Bool := false

/-- It will do nothing more to the printer or to the marker file. -/
def Execution.hasEnded (e : Execution) : Bool := e.phase = .ended

/-- A killed process; one that has not started is not there to be killed. -/
def Execution.kill (e : Execution) : Execution :=
  if e.phase = .idle then e else { e with phase := .ended }

inductive DryPhase where
  | idle
  | running
  /-- The plan is there and the marker was read; it is cleared next if it was seen. -/
  | planned (seen : Bool)
  deriving DecidableEq

structure DryRun where
  phase : DryPhase := .idle
  /-- The executions that had ended when this dry run began. -/
  beganAfter : ℕ → Bool := fun _ => false

structure State where
  marker : MarkerFile
  /-- The newest write that reported success has not been undone by a removal. -/
  pinned : Bool := false
  /-- The printer's Z frame is the shifted one. -/
  frameShifted : Bool := false
  executions : ℕ → Execution := fun _ => {}
  dryRuns : ℕ → DryRun := fun _ => {}

inductive Event where
  /-- The gates of an execution run; `pass` is the answer of those after the marker. -/
  | gates (i : ℕ) (pass : Bool)
  | send (i : ℕ)
  | arm (i : ℕ) (result : WriteResult)
  | declare (i : ℕ)
  /-- A later step declares the true frame again. -/
  | declareTrue (i : ℕ)
  | complete (i : ℕ)
  | clearCompleted (i : ℕ) (removed : Bool)
  | abort (i : ℕ)
  | recordAbort (i : ℕ) (result : WriteResult)
  | killExecution (i : ℕ)
  | dryBegin (j : ℕ)
  | dryPlan (j : ℕ)
  | dryNoPlan (j : ℕ)
  | dryClear (j : ℕ) (removed : Bool)
  | killDryRun (j : ℕ)
  | boot
  /-- Everything dies; `survivor` is what an unpinned marker file comes back as. -/
  | powerCut (survivor : MarkerFile)
  /-- The content of a marker file that is there is damaged. -/
  | tear

def State.setExecution (s : State) (i : ℕ) (e : Execution) : State :=
  { s with executions := Function.update s.executions i e }

def State.setDryRun (s : State) (j : ℕ) (d : DryRun) : State :=
  { s with dryRuns := Function.update s.dryRuns j d }

/-- `write_frame_invalid`: atomic, and durable once it returned `Ok`. -/
def State.writeFrameInvalid (s : State) : WriteResult → State
  | .ok => { s with marker := .valid, pinned := true }
  | .errBefore => s
  | .errAfter => { s with marker := .valid }

/-- `clear_frame_invalid`: an error of the removal is ignored. -/
def State.clearFrameInvalid (s : State) (removed : Bool) : State :=
  if removed then { s with marker := .absent, pinned := false } else s

/-- The executions that a plan of a dry run resolves. -/
def State.resolve (s : State) (beganAfter : ℕ → Bool) : State :=
  { s with
    executions := fun i =>
      { s.executions i with resolved := (s.executions i).resolved || beganAfter i } }

@[simp] def step : Runs.Step State Event := fun s event =>
  match event with
  | .gates i pass =>
      let e := s.executions i
      if e.phase = .idle then
        let gated := { e with gatedByMarker := decide (s.marker ≠ MarkerFile.absent) }
        if readFrameInvalid s.marker || !pass then
          some (s.setExecution i { gated with phase := .ended })
        else some (s.setExecution i { gated with phase := .running })
      else none
  | .send i =>
      let e := s.executions i
      if e.phase = .running ∨ e.phase = .armed ∨ e.phase = .declared then
        some (s.setExecution i { e with sent := true })
      else none
  | .arm i result =>
      let e := s.executions i
      if e.phase = .running then
        let s := s.writeFrameInvalid result
        if result = .ok then some (s.setExecution i { e with phase := .armed })
        else some (s.setExecution i { e with phase := .ended })
      else none
  | .declare i =>
      let e := s.executions i
      if e.phase = .armed then
        some ({ s with frameShifted := true }.setExecution i
          { e with phase := .declared, declared := true, sent := true })
      else none
  | .declareTrue i =>
      let e := s.executions i
      if e.phase = .declared then
        some ({ s with frameShifted := false }.setExecution i { e with sent := true })
      else none
  | .complete i =>
      let e := s.executions i
      if e.phase = .declared then
        some (s.setExecution i { e with phase := .completed, resolved := true })
      else none
  | .clearCompleted i removed =>
      let e := s.executions i
      if e.phase = .completed then
        some ((s.clearFrameInvalid removed).setExecution i { e with phase := .ended })
      else none
  | .abort i =>
      let e := s.executions i
      if e.phase = .running then some (s.setExecution i { e with phase := .ended })
      else if e.phase = .armed ∨ e.phase = .declared then
        some (s.setExecution i { e with phase := .aborting })
      else none
  | .recordAbort i result =>
      let e := s.executions i
      if e.phase = .aborting then
        some ((s.writeFrameInvalid result).setExecution i { e with phase := .ended })
      else none
  | .killExecution i =>
      some (s.setExecution i (s.executions i).kill)
  | .dryBegin j =>
      if (s.dryRuns j).phase = .idle then
        some (s.setDryRun j
          { phase := .running, beganAfter := fun i => (s.executions i).hasEnded })
      else none
  | .dryPlan j =>
      let d := s.dryRuns j
      if d.phase = .running then
        some ((s.resolve d.beganAfter).setDryRun j
          { d with phase := .planned (readFrameInvalid s.marker) })
      else none
  | .dryNoPlan j =>
      let d := s.dryRuns j
      if d.phase = .running then some (s.setDryRun j {}) else none
  | .dryClear j removed =>
      let d := s.dryRuns j
      match d.phase with
      | .planned seen => some ((s.clearFrameInvalid (seen && removed)).setDryRun j {})
      | _ => none
  | .killDryRun j => some (s.setDryRun j {})
  | .boot => some s
  | .powerCut survivor =>
      some
        { s with
          marker := if s.pinned then s.marker else survivor
          frameShifted := false
          executions := fun i => (s.executions i).kill
          dryRuns := fun _ => {} }
  | .tear => some { s with marker := if s.marker = .absent then .absent else .torn }

/-- Nothing has run yet; the marker file is whatever an earlier life left. -/
def init (marker : MarkerFile) : State := { marker }

/-- The shifted-frame declare was sent, and nothing has settled it since. -/
def Execution.unsettled (e : Execution) : Prop := e.declared = true ∧ e.resolved = false

/-- The interlock: the marker stands while an execution is unsettled, and an execution whose
gates met a marker sends nothing. -/
structure Closed (s : State) : Prop where
  marked : ∀ i, (s.executions i).unsettled → s.marker ≠ .absent
  refused : ∀ i, (s.executions i).gatedByMarker = true → (s.executions i).sent = false

end DeadReckoning.Interlock
