import DeadReckoning.Lib.Directory
import DeadReckoning.Attempt.Bundle
import DeadReckoning.Execution.Executor

/-! An attempt, gate after gate: the file is written before anything reaches the printer, or when
the operator accepts a stop, and is taken back when the printer refuses. -/
namespace DeadReckoning.Attempt
open Recovery Gcode Directory Execution

/-- The top of the card, which other writers share. -/
abbrev Card := Disk Text Bytes

/-- What the generation of a file is left to. -/
structure Surroundings where
  cases : CaseMapping
  heatingGate : GeneratedRecoveryFile → RecoveryFileSpec → Except Text Unit
  ioText : Fault Bytes → Text

section WriteGate

inductive WriteRefusal where
  | cannotWrite (path : Text) (fault : Fault Bytes)
  | noFreeName

def recoveryNameRetries : ℕ := 16

/-- Takes the first name that nobody else is faster with. -/
def claimPath (bundle : PlanBundle) : ℕ → Text → Prog Card WriteRefusal Text
  | 0, _ => Prog.stop .noFreeName
  | attempts + 1, path => do
      let created ← (createNew path bundle.recoveryFileContent).mapError (.cannotWrite path)
      match created with
      | some () => pure path
      | none => do
          let taken ← listing
          claimPath bundle attempts (recoveryFileNameAmong bundle.recoverySourceName taken)

/-- Writes the file of a plan whose resume point is known, under a name that is still free. -/
def writeRecoveryFile (bundle : PlanBundle) : Prog Card WriteRefusal PlanBundle :=
  if bundle.plan.preview.isSome then pure bundle
  else do
    let path ← claimPath bundle recoveryNameRetries bundle.recoveryFilePath
    pure (if path ≠ bundle.recoveryFilePath then retargetRecoveryFile bundle path else bundle)

end WriteGate

section Writer

/-- Who writes the file of an accepted stop: the one that holds all it takes, or nobody. -/
inductive RecoveryFileWriter where
  | disk (spec : RecoveryFileSpec) (original : Bytes) (sdcardRoot path timestamp : Text)
  | noop

variable (env : Surroundings)

/-- The specification of the file for one stop. -/
def bindSpec (spec : RecoveryFileSpec) (binding : PreviewBinding) : RecoveryFileSpec :=
  { spec with
    tailOffset := binding.tailOffset
    entryCommands := binding.entryCommands
    planId := lit "plr-" ++ Nat.toDigits 10 binding.tailOffset }

/-- Makes the file of a stop and writes it, never over another one. -/
def writeFor (binding : PreviewBinding) : RecoveryFileWriter → Prog Card Text Unit
  | .noop => pure ()
  | .disk spec original sdcardRoot path timestamp =>
      let spec := bindSpec spec binding
      let generated := buildRecoveryFile spec env.cases original timestamp
      let display := sdcardRoot ++ lit "/" ++ path
      match env.heatingGate generated spec with
      | .error violation =>
          Prog.stop (lit "generated recovery file violates the heating gate: " ++ violation)
      | .ok () => do
          let created ← (createNew path generated.content).mapError fun fault =>
            lit "cannot write recovery file " ++ display ++ lit ": " ++ env.ioText fault
          match created with
          | some () => pure ()
          | none => Prog.stop (lit "recovery file path " ++ display ++
              lit " already exists; refusing to overwrite")

/-- The card after the writes of a trace. -/
def cardAfter (writer : RecoveryFileWriter) (card : Card) (trace : Events) : Card :=
  trace.foldl (fun card e => match e with
    | .write binding _ => (writeFor env binding writer card).2
    | _ => card) card

/-- The collaborators, with a writer that works on the card. -/
def onCard (w : World) (writer : RecoveryFileWriter) (card : Card) : World :=
  { w with writeFor := fun past binding =>
    (writeFor env binding writer (cardAfter env writer card past)).1 }

/-- The writer of a bundle: only a preview leaves something to write. -/
def PlanBundle.writer (bundle : PlanBundle) (timestamp : Text) : RecoveryFileWriter :=
  match bundle.plan.preview.isSome, bundle.originalFileBytes with
  | true, some original =>
      .disk bundle.plan.recoveryFile original bundle.sdcardRoot bundle.recoveryFilePath timestamp
  | _, _ => .noop

end Writer

section Attempts

/-- The answers of the gates around the file: the marker of an unknown frame, the connection, the
transcript, and whether the printer is idle and ours. -/
structure Gates where
  frameInvalid : Bool
  connected : Bool
  transcript : Bool
  idleAndExclusive : Except Text Unit

/-- How an attempt ends. -/
inductive Exit where
  | frameInvalid
  | unreachable
  | noTranscript
  | fileRefused (refusal : WriteRefusal)
  | printerRefused (reason : Text) (kept : Option (Fault Bytes))
  | executed (bundle : PlanBundle) (written : Card) (outcome : ExecOutcome) (trace : Events)

structure Ending where
  exit : Exit
  card : Card

variable (env : Surroundings) (timestamp : Text)

/-- Takes the file back, and keeps to itself whether that worked. -/
def refuseAtPrinterGate (reason : Text) (bundle : PlanBundle) (card : Card) : Ending :=
  let (kept, card) := remove bundle.recoveryFilePath card
  ⟨.printerRefused reason kept, card⟩

def runPlan (w : World) (bundle : PlanBundle) (card : Card) : Ending :=
  let writer := bundle.writer timestamp
  let (outcome, st) := execute (onCard env w writer card) bundle.plan
  ⟨.executed bundle card outcome st.trace, cardAfter env writer card st.trace⟩

/-- The gates in order, and the plan behind them. -/
def executeWithGates (gates : Gates) (w : World) (bundle : PlanBundle) (card : Card) : Ending :=
  if gates.frameInvalid then ⟨.frameInvalid, card⟩
  else if !gates.connected then ⟨.unreachable, card⟩
  else if !gates.transcript then ⟨.noTranscript, card⟩
  else
    match writeRecoveryFile bundle card with
    | (.error refusal, card) => ⟨.fileRefused refusal, card⟩
    | (.ok bundle, card) =>
        match gates.idleAndExclusive with
        | .error reason => refuseAtPrinterGate reason bundle card
        | .ok () => runPlan env timestamp w bundle card

end Attempts

end DeadReckoning.Attempt
