import DeadReckoning.Lib.Trace
import DeadReckoning.Attempt.Gates
import DeadReckoning.Execution.Rules

/-! What an attempt does to the card: the files of others stay as they are, the one that is
selected is its own, and a refusal takes that one back. -/
namespace DeadReckoning.Attempt
open Recovery Gcode Directory Execution Prog

section Writes

variable {env : Surroundings} {start : Text → Option Bytes} {writer : RecoveryFileWriter}
  {card : Card} {binding : PreviewBinding}

/-- The name that a writer writes to, when it writes. -/
def RecoveryFileWriter.path : RecoveryFileWriter → Option Text
  | .disk _ _ _ path _ => some path
  | .noop => none

/-- A writer does nothing, or makes a file under its name; it says so only when it has. -/
theorem writeFor_cases (env : Surroundings) (binding : PreviewBinding)
    (writer : RecoveryFileWriter) (card : Card) :
    ((writeFor env binding writer card).2 = card ∧
      ((writeFor env binding writer card).1 = .ok () → writer = .noop)) ∨
    ∃ path contents, writer.path = some path ∧
      (writeFor env binding writer card).2 = (createNew path contents card).2 ∧
      ((writeFor env binding writer card).1 = .ok () →
        (createNew path contents card).1 = .ok (some ())) := by
  cases writer with
  | noop => exact .inl ⟨rfl, fun _ => rfl⟩
  | disk spec original sdcardRoot path timestamp =>
    unfold writeFor
    dsimp only
    cases env.heatingGate (buildRecoveryFile (bindSpec spec binding) env.cases original timestamp)
      (bindSpec spec binding) with
    | error violation => exact .inl ⟨rfl, nofun⟩
    | ok _ =>
      right
      refine ⟨path, (buildRecoveryFile (bindSpec spec binding) env.cases original timestamp).content,
        rfl, ?_⟩
      generalize (buildRecoveryFile (bindSpec spec binding) env.cases original timestamp).content =
        contents
      show (Prog.andThen _ _ card).2 = _ ∧ ((Prog.andThen _ _ card).1 = _ → _)
      unfold Prog.andThen Prog.mapError
      rcases createNew path contents card with ⟨fault | _ | ⟨⟩, after⟩
      · exact ⟨rfl, nofun⟩
      · exact ⟨rfl, nofun⟩
      · exact ⟨rfl, fun _ => rfl⟩

theorem writeFor_accounted (h : Accounted start card) :
    Accounted start (writeFor env binding writer card).2 := by
  rcases writeFor_cases env binding writer card with ⟨hsame, -⟩ | ⟨path, contents, -, hmade, -⟩
  · rwa [hsame]
  · rw [hmade]
    exact h.createNew path contents

/-- Whatever it writes, a writer keeps what is its own, and adds only its name. -/
theorem writeFor_own {name : Text} :
    (name ∈ card.own → name ∈ (writeFor env binding writer card).2.own) ∧
    (name ∈ (writeFor env binding writer card).2.own →
      name ∈ card.own ∨ writer.path = some name) := by
  rcases writeFor_cases env binding writer card with ⟨hsame, -⟩ | ⟨path, contents, hpath, hmade, -⟩
  · rw [hsame]
    exact ⟨id, .inl⟩
  · rw [hmade, hpath]
    obtain ⟨hown | hown, -⟩ := createNew_own card path contents
    · rw [hown]
      exact ⟨id, .inl⟩
    · rw [hown]
      refine ⟨List.mem_append_left _, fun hname => ?_⟩
      rcases List.mem_append.mp hname with hname | hname
      · exact .inl hname
      · exact .inr (by rw [List.mem_singleton.mp hname])

/-- What was written is the writer's own. -/
theorem writeFor_written {name : Text} (hpath : writer.path = some name)
    (hok : (writeFor env binding writer card).1 = .ok ()) :
    name ∈ (writeFor env binding writer card).2.own := by
  rcases writeFor_cases env binding writer card with ⟨-, hnoop⟩ | ⟨path, contents, hname, hmade, hsome⟩
  · rw [hnoop hok] at hpath
    cases hpath
  · obtain rfl : path = name := Option.some.inj (hname.symm.trans hpath)
    obtain ⟨-, hown, -⟩ := createNew_own card path contents
    rw [hmade, hown (hsome hok)]
    simp

theorem cardAfter_snoc (trace : Events) (e : Event) :
    cardAfter env writer card (trace ++ [e]) = match e with
      | .write binding _ => (writeFor env binding writer (cardAfter env writer card trace)).2
      | _ => cardAfter env writer card trace :=
  List.foldl_concat _ _ _ _

/-- The rule of what the writes of a trace keep. -/
theorem cardAfter_rule {P : Card → Prop} (hcard : P card)
    (hwrite : ∀ binding card, P card → P (writeFor env binding writer card).2) (trace : Events) :
    P (cardAfter env writer card trace) := by
  induction trace using List.reverseRecOn with
  | nil => exact hcard
  | append_singleton trace e ih =>
    rw [cardAfter_snoc]
    cases e with
    | write binding answer => exact hwrite binding _ ih
    | _ => exact ih

theorem own_cardAfter_snoc {name : Text} {trace : Events}
    (h : name ∈ (cardAfter env writer card trace).own) (e : Event) :
    name ∈ (cardAfter env writer card (trace ++ [e])).own := by
  rw [cardAfter_snoc]
  cases e with
  | write binding answer => exact writeFor_own.1 h
  | _ => exact h

end Writes

section Selections

variable (env : Surroundings) (writer : RecoveryFileWriter) (card : Card) (name : Text)

/-- A step selects the file only when it has been written. -/
def SelectsOwn (past : Events) : Event → Prop
  | .send (.step _) template _ _ => isSelect template = true →
      name ∈ (cardAfter env writer card past).own
  | _ => True

def Selecting (st : State) : Prop := Trace.Justified (SelectsOwn env writer card name) st.trace

/-- The file has been written. -/
def Written (st : State) : Prop :=
  Selecting env writer card name st ∧ name ∈ (cardAfter env writer card st.trace).own

variable {env writer card name} {w : World} {plan : RecoveryPlan} {step : RecoveryStep}

theorem keeps_selecting : Keeps Silent (Selecting env writer card name) := by
  intro st e he hst
  refine Trace.justified_snoc.mpr ⟨hst, ?_⟩
  cases e with
  | send | register => exact he.elim
  | _ => exact trivial

theorem Written.push {st : State} {e : Event} (h : Written env writer card name st) :
    Written env writer card name (st.push e) := by
  refine ⟨Trace.justified_snoc.mpr ⟨h.1, ?_⟩, own_cardAfter_snoc h.2 e⟩
  cases e with
  | send source template text error =>
    cases source with
    | step id => exact fun _ => h.2
    | _ => exact trivial
  | _ => exact trivial

theorem Selecting.push_preview {st : State} (h : Selecting env writer card name st) (cursor : ℕ)
    (template text : Text) (error : Option Text) :
    Selecting env writer card name (st.push (.send (.preview cursor) template text error)) :=
  Trace.justified_snoc.mpr ⟨h, trivial⟩

/-- A step that selects nothing may come before the file is written. -/
theorem executeStep_selecting (hstep : ∀ c ∈ step.commands, isSelect c = false) :
    Triple (Selecting env writer card name) (executeStep w plan step)
      (fun _ => Selecting env writer card name) fun _ => Selecting env writer card name := by
  apply executeStep_rule keeps_selecting keeps_selecting
  · apply (runStep_keeps keeps_selecting ?_ ?_ ?_ ?_).conseq (fun _ hst => hst) (fun _ _ hst => hst)
      fun _ _ hst => hst.1
    · exact fun _ _ _ hst => hst
    · exact fun _ _ _ hst => hst
    · exact fun _ _ hst => Trace.justified_snoc.mpr ⟨hst, trivial⟩
    · intro st command v m error hc hst
      refine Trace.justified_snoc.mpr ⟨hst, fun hselect => ?_⟩
      rw [hstep command hc] at hselect
      cases hselect
  · exact fun _ hst => hst
  · exact fun _ hst => hst
  · exact fun _ st cursor _ error hst => hst.push_preview cursor _ _ error

/-- Once the file is written any step may follow. -/
theorem executeStep_written :
    Triple (Written env writer card name) (executeStep w plan step)
      (fun _ => Written env writer card name) fun _ => Written env writer card name := by
  have hkeeps : Keeps Silent (Written env writer card name) := fun st e _ hst => hst.push
  apply executeStep_rule hkeeps hkeeps
  · apply (runStep_keeps hkeeps ?_ ?_ ?_ ?_).conseq (fun _ hst => hst) (fun _ _ hst => hst)
      fun _ _ hst => hst.1
    · exact fun _ _ _ hst => hst
    · exact fun _ _ _ hst => hst
    · exact fun _ st hst => hst.push
    · exact fun st command v m error _ hst => hst.push
  · exact fun _ hst => hst
  · exact fun _ hst => hst
  · exact fun _ st cursor _ error hst => hst.push

/-- Accepting a stop writes the file. -/
theorem acceptStop_written (hpath : writer.path = some name) {spec : PreviewSpec} (cursor : ℕ) :
    Triple (Selecting env writer card name) (acceptStop (onCard env w writer card) spec cursor)
      (fun _ => Written env writer card name) fun _ => Selecting env writer card name := by
  unfold acceptStop
  split
  · exact Triple.stop _ fun _ hst => hst
  rename_i binding _
  split
  · exact Triple.stop _ fun _ hst => hst
  apply Triple.bind (answered_triple (Q := fun answer st => ∃ st₀,
    Selecting env writer card name st₀ ∧ st = st₀.push (.write binding answer) ∧
      answer = (writeFor env binding writer (cardAfter env writer card st₀.trace)).1)
    fun st hst => ⟨st, hst, rfl, rfl⟩)
  intro answer
  apply orStop_triple
  · rintro ⟨⟩ _ rfl ⟨st, hst, rfl, hok⟩
    refine ⟨keeps_selecting st _ trivial hst, ?_⟩
    rw [State.push_trace, cardAfter_snoc]
    exact writeFor_written hpath hok.symm
  · rintro reason _ rfl ⟨st, hst, rfl, -⟩
    exact keeps_selecting st _ trivial hst

/-- The preview ends well only with a stop, and the file of the stop. -/
theorem executeStep_preview (hpath : writer.path = some name) {spec : PreviewSpec}
    (hpreview : plan.preview = some spec) (hstops : spec.stops ≠ [])
    (hphase : step.phase = .resumePreview) (hstep : ∀ c ∈ step.commands, isSelect c = false) :
    Triple (Selecting env writer card name) (executeStep (onCard env w writer card) plan step)
      (fun _ => Written env writer card name) fun _ => Selecting env writer card name := by
  apply Triple.bind (prepareStep_keeps keeps_selecting)
  intro _
  apply Triple.bind (Q := fun _ => Selecting env writer card name)
  · apply (runStep_keeps keeps_selecting ?_ ?_ ?_ ?_).conseq (fun _ hst => hst) (fun _ _ hst => hst)
      fun _ _ hst => hst.1
    · exact fun _ _ _ hst => hst
    · exact fun _ _ _ hst => hst
    · exact fun _ _ hst => Trace.justified_snoc.mpr ⟨hst, trivial⟩
    · intro st command v m error hc hst
      refine Trace.justified_snoc.mpr ⟨hst, fun hselect => ?_⟩
      rw [hstep command hc] at hselect
      cases hselect
  intro _
  apply Triple.bind (confirmZ_keeps keeps_selecting)
  intro _
  unfold confirmPreview runPreviewLoop
  rw [if_pos hphase, hpreview]
  dsimp only
  rw [if_neg (by simpa using hstops)]
  apply previewLoop_rule keeps_selecting
  · exact fun st cursor stop error hst => hst.push_preview cursor _ _ error
  · exact fun cursor => acceptStop_written hpath cursor

theorem Selecting.cleanups {st : State} (h : Selecting env writer card name st) :
    Selecting env writer card name (runCleanups w st) := by
  unfold runCleanups
  induction cleanupOrder st.cleanups generalizing st with
  | nil => exact h
  | cons cleanup rest ih =>
    apply ih
    unfold runCleanup
    split
    · exact h
    · exact Trace.justified_snoc.mpr ⟨h, trivial⟩

/-- The steps of a plan select a file that has been written, before them or at their preview. -/
theorem steps_selecting (hplan : Selects plan name)
    (hready : plan.preview.isSome = true → writer.path = some name) :
    Triple (fun st => Selecting env writer card name st ∧
        (plan.preview.isSome = false → name ∈ (cardAfter env writer card st.trace).own))
      (plan.steps.forM fun step =>
        (executeStep (onCard env w writer card) plan step).mapError (step, ·))
      (fun _ => Selecting env writer card name) fun _ => Selecting env writer card name := by
  have hwritten (steps : List RecoveryStep) : Triple (Written env writer card name)
      (steps.forM fun step =>
        (executeStep (onCard env w writer card) plan step).mapError (step, ·))
      (fun _ => Selecting env writer card name) fun _ => Selecting env writer card name := by
    have hkept : Triple (Written env writer card name)
        (steps.forM fun step =>
          (executeStep (onCard env w writer card) plan step).mapError (step, ·))
        (fun _ => Written env writer card name) fun _ => Written env writer card name :=
      Triple.forM_const fun step _ => Triple.mapError executeStep_written
    exact hkept.conseq (fun _ hst => hst) (fun _ _ hst => hst.1) fun _ _ hst => hst.1
  cases hpreview : plan.preview with
  | none =>
    exact (hwritten plan.steps).conseq (fun _ hst => ⟨hst.1, hst.2 rfl⟩) (fun _ _ hst => hst)
      fun _ _ hst => hst
  | some spec =>
    obtain ⟨hstops, before, step, after, hsteps, hphase, hnone⟩ := hplan.previewed spec hpreview
    have hstep : ∀ c ∈ step.commands, isSelect c = false := hnone step (by simp)
    rw [hsteps]
    have hbefore : Triple (Selecting env writer card name)
        (before.forM fun step =>
          (executeStep (onCard env w writer card) plan step).mapError (step, ·))
        (fun _ => Selecting env writer card name) fun _ => Selecting env writer card name :=
      Triple.forM_const fun s hs => Triple.mapError
        (executeStep_selecting (hnone s (List.mem_append_left _ hs)))
    have hturn : Triple (Selecting env writer card name)
        ((executeStep (onCard env w writer card) plan step).mapError (step, ·))
        (fun _ => Written env writer card name) fun _ => Selecting env writer card name :=
      Triple.mapError (executeStep_preview (hready (by rw [hpreview]; rfl)) hpreview hstops hphase
        hstep)
    have hrest : Triple (Selecting env writer card name)
        ((step :: after).forM fun step =>
          (executeStep (onCard env w writer card) plan step).mapError (step, ·))
        (fun _ => Selecting env writer card name) fun _ => Selecting env writer card name :=
      Triple.forM_cons hturn (hwritten after)
    exact (Triple.forM_append hbefore hrest).conseq (fun _ hst => hst.1) (fun _ _ hst => hst)
      fun _ _ hst => hst

/-- In a run, too, nothing is selected but what has been written. -/
theorem execute_selecting (hplan : Selects plan name)
    (hready : plan.preview.isSome = true → writer.path = some name)
    (hown : plan.preview.isSome = false → name ∈ card.own) :
    Selecting env writer card name (execute (onCard env w writer card) plan).2 := by
  unfold execute
  split
  · exact Trace.justified_nil _
  · rename_i anchor _ _
    have hkeeps : Keeps Silent fun st => Selecting env writer card name st ∧
        (plan.preview.isSome = false → name ∈ (cardAfter env writer card st.trace).own) :=
      fun st e he hst => ⟨keeps_selecting st e he hst.1,
        fun hpreview => own_cardAfter_snoc (hst.2 hpreview) e⟩
    have hrun : Triple _ (program (onCard env w writer card) plan anchor)
        (fun _ => Selecting env writer card name) fun _ => Selecting env writer card name :=
      program_rule hkeeps (fun _ hst => hst.1) (steps_selecting hplan hready)
    have hres := hrun State.start ⟨Trace.justified_nil _, hown⟩
    split
    · rename_i hok
      rw [hok] at hres
      exact hres
    · rename_i herror
      rw [herror] at hres
      exact hres.cleanups

end Selections

section Attempts

variable {env : Surroundings} {timestamp : Text} {start : Text → Option Bytes} {card : Card}
  {bundle : PlanBundle} {gates : Gates} {w : World}

/-- What an attempt leaves of the files of others and of its own. -/
structure Harmless (env : Surroundings) (timestamp : Text) (start : Text → Option Bytes)
    (ending : Ending) : Prop where
  /-- A file of another is there, as it was. -/
  spared : ∀ n c, start n = some c ∨ (n, c) ∈ ending.card.foreign → ending.card.root n = some c
  /-- The plan selects one file, no other is written, and it is written before it is selected. -/
  selected : ∀ bundle written outcome trace, ending.exit = .executed bundle written outcome trace →
    ∃ name,
      (∀ s ∈ bundle.plan.steps, ∀ c ∈ s.commands, isSelect c = true → c = selectCommand name) ∧
      (∀ n ∈ ending.card.own, n = name) ∧
      ∀ past id template text error rest, trace = past ++ .send (.step id) template text error :: rest →
        isSelect template = true →
        name ∈ (cardAfter env (bundle.writer timestamp) written past).own
  /-- When the printer refuses and the file can be taken back, it is gone. -/
  removed : ∀ reason, ending.exit = .printerRefused reason none →
    ∀ n c, ending.card.root n = some c → start n = some c ∨ (n, c) ∈ ending.card.foreign

theorem claimPath_triple (attempts : ℕ) (path : Text) :
    Triple (fun card => Accounted start card ∧ card.own = []) (claimPath bundle attempts path)
      (fun path card => Accounted start card ∧ card.own = [path])
      fun _ card => Accounted start card := by
  induction attempts generalizing path with
  | zero => exact Triple.stop _ fun _ hcard => hcard.1
  | succ attempts ih =>
    have hcreated : Triple (fun card => Accounted start card ∧ card.own = [])
        ((createNew path bundle.recoveryFileContent).mapError
          (WriteRefusal.cannotWrite path))
        (fun created card => Accounted start card ∧
          card.own = if created.isSome then [path] else [])
        fun _ card => Accounted start card :=
      Triple.mapError (createNew_triple [] path bundle.recoveryFileContent)
    apply Triple.bind hcreated
    intro created
    cases created with
    | none =>
      apply Triple.bind (listing_triple [])
      intro taken
      exact ih _
    | some _ => exact Triple.pure _ fun _ hcard => hcard

/-- After the write gate the bundle names the one file that was made. -/
theorem writeRecoveryFile_triple (hpreview : bundle.plan.preview.isSome = false) :
    Triple (fun card => Accounted start card ∧ card.own = []) (writeRecoveryFile bundle)
      (fun bundle card => Accounted start card ∧ card.own = [bundle.recoveryFilePath] ∧
        bundle.plan.preview.isSome = false) fun _ card => Accounted start card := by
  unfold writeRecoveryFile
  rw [hpreview]
  apply Triple.bind (claimPath_triple recoveryNameRetries bundle.recoveryFilePath)
  intro path
  apply Triple.pure
  rintro card ⟨haccounted, hown⟩
  refine ⟨haccounted, ?_⟩
  split
  · exact ⟨hown, hpreview⟩
  · rename_i hsame
    rw [hown, not_not.mp hsame]
    exact ⟨rfl, hpreview⟩

theorem writer_path : (bundle.writer timestamp).path =
    if bundle.plan.preview.isSome then some bundle.recoveryFilePath else none := by
  have hcaptured := bundle.captured
  unfold PlanBundle.writer
  rcases hpreview : bundle.plan.preview.isSome with _ | _
  · rfl
  · rw [hpreview] at hcaptured
    obtain ⟨original, horiginal⟩ := Option.isSome_iff_exists.mp hcaptured
    rw [horiginal]
    rfl

/-- A plan is executed without harm once the file is there, or there is a preview to write it. -/
theorem runPlan_harmless (haccounted : Accounted start card)
    (hown : ∀ n ∈ card.own, n = bundle.recoveryFilePath)
    (hready : bundle.plan.preview.isSome = false → bundle.recoveryFilePath ∈ card.own) :
    Harmless env timestamp start (runPlan env timestamp w bundle card) := by
  have hafter (trace : Events) :
      Accounted start (cardAfter env (bundle.writer timestamp) card trace) :=
    cardAfter_rule haccounted (fun _ _ h => writeFor_accounted h) trace
  have hnames (trace : Events) : ∀ n ∈ (cardAfter env (bundle.writer timestamp) card trace).own,
      n = bundle.recoveryFilePath := by
    apply @cardAfter_rule env _ card (fun card => ∀ n ∈ card.own, n = bundle.recoveryFilePath) hown
    intro binding card hcard n hn
    rcases writeFor_own.2 hn with hn | hn
    · exact hcard n hn
    · rw [writer_path] at hn
      split at hn
      · exact (Option.some.inj hn).symm
      · cases hn
  have hselects : Selecting env (bundle.writer timestamp) card bundle.recoveryFilePath
      (execute (onCard env w (bundle.writer timestamp) card) bundle.plan).2 := by
    apply execute_selecting bundle.selects
    · intro hpreview
      rw [writer_path, if_pos hpreview]
    · exact hready
  constructor
  · exact fun n c hn => hn.elim ((hafter _).kept n c) ((hafter _).foreign n c)
  · rintro _ _ _ _ ⟨⟩
    exact ⟨bundle.recoveryFilePath, bundle.selects.named, hnames _,
      fun past id template text error rest htrace => hselects past _ rest htrace⟩
  · nofun

/-- A refusal does no harm when what it removes is the attempt's own, or is not there. -/
theorem refuse_harmless {reason : Text} (haccounted : Accounted start card)
    (hown : ∀ n ∈ card.own, n = bundle.recoveryFilePath)
    (hname : bundle.recoveryFilePath ∈ card.own ∨ card.next.1.fault.isSome = true ∨
      card.next.2.root bundle.recoveryFilePath = none) :
    Harmless env timestamp start (refuseAtPrinterGate reason bundle card) := by
  have hnext := haccounted.next
  have hrun : refuseAtPrinterGate reason bundle card = ⟨.printerRefused reason card.next.1.fault,
      if card.next.1.fault.isSome then card.next.2
      else card.next.2.drop bundle.recoveryFilePath⟩ := rfl
  rw [hrun]
  by_cases hfault : card.next.1.fault.isSome = true
  · rw [if_pos hfault]
    refine ⟨fun n c hn => hn.elim (hnext.kept n c) (hnext.foreign n c), ?_, ?_⟩
    · rintro _ _ _ _ hexit
      cases hexit
    · rintro _ hexit
      rw [(Exit.printerRefused.inj hexit).2] at hfault
      cases hfault
  · rw [if_neg hfault]
    have hdrop : Accounted start (card.next.2.drop bundle.recoveryFilePath) := by
      rcases hname with hname | hname | hname
      · exact hnext.drop (by rwa [next_own])
      · exact absurd hname hfault
      · exact hnext.drop_absent hname
    refine ⟨fun n c hn => hn.elim (hdrop.kept n c) (hdrop.foreign n c), ?_, ?_⟩
    · rintro _ _ _ _ hexit
      cases hexit
    · rintro _ - n c hn
      rcases hdrop.origin n c hn with hmem | horigin
      · obtain ⟨hmem, hne⟩ := List.mem_filter.mp hmem
        rw [next_own] at hmem
        exact absurd (hown n hmem) (of_decide_eq_true hne)
      · exact horigin

/-- The answers that lead to a refusal at the printer. -/
def Gates.RefusePrinter (gates : Gates) : Prop :=
  gates.frameInvalid = false ∧ gates.connected = true ∧ gates.transcript = true ∧
    ∃ reason, gates.idleAndExclusive = .error reason

/-- A refusal removes the file of another: the plan has a preview, so nothing has been written
yet, and by now somebody else has a file under the planned name. -/
structure TakesForeign (start : Text → Option Bytes) (turns : List (Turn Text Bytes))
    (gates : Gates) (bundle : PlanBundle) : Prop where
  preview : bundle.plan.preview.isSome = true
  refused : gates.RefusePrinter
  granted : (Disk.fresh start turns).next.1.fault = none
  there : ((Disk.fresh start turns).next.2.root bundle.recoveryFilePath).isSome = true

theorem writeRecoveryFile_preview (hpreview : bundle.plan.preview.isSome = true) (card : Card) :
    writeRecoveryFile bundle card = (.ok bundle, card) := by
  unfold writeRecoveryFile
  rw [if_pos hpreview]
  rfl

/-- The exits before the printer is asked. -/
def Exit.Early : Exit → Prop
  | .frameInvalid | .unreachable | .noTranscript | .fileRefused _ => True
  | .printerRefused _ _ | .executed _ _ _ _ => False

theorem Harmless.of_early {exit : Exit} (h : Accounted start card) (hexit : exit.Early) :
    Harmless env timestamp start ⟨exit, card⟩ := by
  refine ⟨fun n c hn => hn.elim (h.kept n c) (h.foreign n c), ?_, ?_⟩
  · rintro _ _ _ _ rfl
    exact hexit.elim
  · rintro _ rfl
    exact hexit.elim

theorem executeWithGates_spares {turns : List (Turn Text Bytes)}
    (h : ¬ TakesForeign start turns gates bundle) :
    Harmless env timestamp start
      (executeWithGates env timestamp gates w bundle (Disk.fresh start turns)) := by
  have hfresh : Accounted start (Disk.fresh start turns) := accounted_fresh turns
  have hempty : (Disk.fresh start turns).own = [] := rfl
  unfold executeWithGates
  by_cases hframe : gates.frameInvalid = true
  · rw [if_pos hframe]
    exact Harmless.of_early hfresh trivial
  by_cases hconnected : gates.connected = true
  swap
  · rw [if_neg hframe, if_pos (by simpa using hconnected)]
    exact Harmless.of_early hfresh trivial
  by_cases htranscript : gates.transcript = true
  swap
  · rw [if_neg hframe, if_neg (by simpa using hconnected), if_pos (by simpa using htranscript)]
    exact Harmless.of_early hfresh trivial
  rw [if_neg hframe, if_neg (by simpa using hconnected), if_neg (by simpa using htranscript)]
  by_cases hpreview : bundle.plan.preview.isSome = true
  · rw [writeRecoveryFile_preview hpreview]
    dsimp only
    have hown : ∀ n ∈ (Disk.fresh start turns).own, n = bundle.recoveryFilePath := by
      rw [hempty]
      exact nofun
    split
    · rename_i reason hidle
      apply refuse_harmless hfresh hown
      right
      by_contra hgone
      rw [not_or] at hgone
      refine h ⟨hpreview, ⟨by simpa using hframe, hconnected, htranscript, reason, hidle⟩, ?_, ?_⟩
      · simpa using hgone.1
      · simpa [Option.isSome_iff_ne_none] using hgone.2
    · apply runPlan_harmless hfresh hown
      rw [hpreview]
      nofun
  · have hres := writeRecoveryFile_triple (by simpa using hpreview) _ ⟨hfresh, hempty⟩
    split
    · rename_i refusal card hwrite
      rw [hwrite] at hres
      exact Harmless.of_early hres trivial
    · rename_i bundle card hwrite
      rw [hwrite] at hres
      obtain ⟨haccounted, hown, hpreview⟩ := hres
      have hnames : ∀ n ∈ card.own, n = bundle.recoveryFilePath := by simp [hown]
      have hmem : bundle.recoveryFilePath ∈ card.own := by simp [hown]
      split
      · exact refuse_harmless haccounted hnames (.inl hmem)
      · exact runPlan_harmless haccounted hnames fun _ => hmem

theorem TakesForeign.not_harmless {turns : List (Turn Text Bytes)}
    (h : TakesForeign start turns gates bundle) :
    ¬ Harmless env timestamp start
      (executeWithGates env timestamp gates w bundle (Disk.fresh start turns)) := by
  obtain ⟨hpreview, ⟨hframe, hconnected, htranscript, reason, hidle⟩, hfault, hthere⟩ := h
  intro hharmless
  have hrun : executeWithGates env timestamp gates w bundle (Disk.fresh start turns) =
      ⟨.printerRefused reason none,
        (Disk.fresh start turns).next.2.drop bundle.recoveryFilePath⟩ := by
    unfold executeWithGates
    rw [hframe, hconnected, htranscript, writeRecoveryFile_preview hpreview, hidle]
    simp [refuseAtPrinterGate, remove, hfault]
  rw [hrun] at hharmless
  obtain ⟨c, hc⟩ := Option.isSome_iff_exists.mp hthere
  have hnext : Accounted start (Disk.fresh start turns).next.2 := (accounted_fresh turns).next
  have horigin : start bundle.recoveryFilePath = some c ∨
      (bundle.recoveryFilePath, c) ∈ (Disk.fresh start turns).next.2.foreign := by
    refine (hnext.origin _ c hc).resolve_left ?_
    rw [next_own]
    exact List.not_mem_nil
  have hkept := hharmless.spared _ c horigin
  rw [drop_root] at hkept
  cases hkept

/-- For every bundle, whatever others add to the card and whatever the gates answer, an attempt
destroys no file of another, selects only its own and takes it back on a refusal, unless it is
refused at the printer before the file of a preview is written. -/
theorem executeWithGates_harmless_iff (env : Surroundings) (timestamp : Text) (gates : Gates)
    (w : World) (bundle : PlanBundle) (start : Text → Option Bytes)
    (turns : List (Turn Text Bytes)) :
    Harmless env timestamp start
        (executeWithGates env timestamp gates w bundle (Disk.fresh start turns)) ↔
      ¬ TakesForeign start turns gates bundle :=
  ⟨fun hharmless htakes => htakes.not_harmless hharmless, executeWithGates_spares⟩

/-- A print with one stop to show. -/
def previewInputs : PlanInputs :=
  { exampleInputs with preview := some ⟨[⟨10, 10, (55, 50), 2⟩], [0], 0, 0, 0, by decide⟩ }

def previews : Except RecoveryError PlanOutcome → Bool
  | .ok (.plan plan) => plan.preview.isSome
  | _ => false

theorem previewInputs_plan : ∃ plan,
    planRecovery previewInputs .default = .ok (.plan plan) ∧ plan.preview.isSome = true := by
  have hplan : previews (planRecovery previewInputs .default) = true := by decide +kernel
  rw [previews.eq_def] at hplan
  split at hplan
  · rename_i plan heq
    exact ⟨plan, heq, hplan⟩
  · cases hplan

/-- The card is empty when the preview is planned, another writer uses the planned name, and the
printer is busy: that file is gone. -/
theorem executeWithGates_takes_foreign : ∃ plan bundle,
    ∃ hplan : Selects plan plan.recoveryFile.name,
      planRecovery previewInputs .default = .ok (.plan plan) ∧
      finalizeRecoveryFile (fun _ _ => .ok ()) (fun _ => .ok ()) asciiCase (fun _ => false)
        (lit "0") exampleMachine plan hplan [] = .ok bundle ∧
      ∀ env timestamp w, ¬ Harmless env timestamp (fun _ => none)
        (executeWithGates env timestamp ⟨false, true, true, .error (lit "printer is busy")⟩ w bundle
          (Disk.fresh (fun _ => none) [⟨[(bundle.recoveryFilePath, [59])], none, []⟩])) := by
  obtain ⟨plan, hplan, hpreview⟩ := previewInputs_plan
  have hselects : Selects plan plan.recoveryFile.name :=
    planRecovery_selects hplan fun _ => by decide
  refine ⟨plan, _, hselects, hplan, rfl, fun env timestamp w => TakesForeign.not_harmless ?_⟩
  constructor
  · show (resolvePlan plan _).preview.isSome = true
    unfold resolvePlan
    split
    · exact hpreview
    · exact hpreview
  · exact ⟨rfl, rfl, rfl, _, rfl⟩
  · rfl
  · simp [Disk.next, Disk.fresh, Disk.add]

end Attempts

end DeadReckoning.Attempt
