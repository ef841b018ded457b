import DeadReckoning.Execution.Acceleration
import DeadReckoning.Execution.Safety

/-! The frame of Z through a run: where the nozzle is, what the printer believes of it, and what
the declarations after the probe make of the difference. -/
namespace DeadReckoning.Execution

open Recovery Prog

section Printer

/-- The height of the nozzle, the Z the printer believes in, and both at the first contact. -/
structure ZState where
  p : ℚ
  k : ℚ
  contact : Option (ℚ × ℚ)
  deriving DecidableEq

/-- What a declaration sets the believed Z to. -/
def declaredZ (text : Text) : Option ℚ :=
  if firstWord text = lit "SET_KINEMATIC_POSITION" then
    match zWord text with
    | some (.fin v) => some v
    | _ => none
  else none

def isProbe (text : Text) : Bool :=
  firstWord text = lit "PROBE" || firstWord text = lit "PLR_TOUCH" ||
    firstWord text = lit "PLR_DRAG_PROBE"

/-- A printer: where it starts, how far each command moves Z, and for a probe how far it descends
to the first contact before that. -/
structure ZPrinter where
  p : ℚ
  k : ℚ
  moves : Events → Text → ℚ
  descends : Events → Text → ℚ

def ZState.move (z : ZState) (d : ℚ) : ZState := { z with p := z.p + d, k := z.k + d }

def ZState.touch (z : ZState) : ZState := { z with contact := some (z.p, z.k) }

def ZState.declare (z : ZState) (v : ℚ) : ZState := { z with k := v }

variable (printer : ZPrinter)

/-- A completed command: a declaration moves nothing, a probe touches on its way, and everything
else moves the nozzle in the frame it is in. -/
def zCommand (past : Events) (text : Text) (z : ZState) : ZState :=
  match declaredZ text with
  | some v => z.declare v
  | none =>
      if isProbe text then
        (z.move (printer.descends past text)).touch.move (printer.moves past text)
      else z.move (printer.moves past text)

/-- One more event of a run, after its past. -/
def zStep (acc : Events × ZState) (e : Event) : Events × ZState :=
  (acc.1 ++ [e],
    match e with
    | .send _ _ text none => zCommand printer acc.1 text acc.2
    | _ => acc.2)

def zAfter (trace : Events) : ZState :=
  (trace.foldl (zStep printer) ([], ⟨printer.p, printer.k, none⟩)).2

variable {printer}

theorem foldl_zStep_fst (trace : Events) (acc : Events × ZState) :
    (trace.foldl (zStep printer) acc).1 = acc.1 ++ trace := by
  induction trace generalizing acc with
  | nil => simp
  | cons e trace ih => simp [ih, zStep]

theorem zAfter_snoc (trace : Events) (e : Event) :
    zAfter printer (trace ++ [e]) = (zStep printer (trace, zAfter printer trace) e).2 := by
  have hpair : trace.foldl (zStep printer) ([], ⟨printer.p, printer.k, none⟩) =
      (trace, zAfter printer trace) :=
    Prod.ext (foldl_zStep_fst trace _) rfl
  rw [zAfter, List.foldl_append, hpair]
  rfl

theorem zAfter_silent {trace : Events} {e : Event} (he : Silent trace e) :
    zAfter printer (trace ++ [e]) = zAfter printer trace := by
  rw [zAfter_snoc]
  cases e with
  | send source template text error => exact he.elim
  | _ => rfl

theorem zAfter_send (trace : Events) (source : Source) (template text : Text) :
    zAfter printer (trace ++ [.send source template text none]) =
      zCommand printer trace text (zAfter printer trace) := by
  rw [zAfter_snoc]
  rfl

end Printer

section Texts

/-- A command under another word declares nothing. -/
theorem declaredZ_of_headed {word command : Text} (hword : IsWord word) (h : Headed word command)
    (hother : Text.upper word ≠ lit "SET_KINEMATIC_POSITION") : declaredZ command = none := by
  rw [declaredZ, h.firstWord_eq hword, if_neg hother]

theorem isProbe_of_headed {word command : Text} (hword : IsWord word) (h : Headed word command) :
    isProbe command = (Text.upper word = lit "PROBE" || Text.upper word = lit "PLR_TOUCH" ||
      Text.upper word = lit "PLR_DRAG_PROBE") := by
  rw [isProbe, h.firstWord_eq hword]

def declaration (v : F64) : Text := lit "SET_KINEMATIC_POSITION Z=" ++ fmtNum v

/-- A declaration sets the number to five decimal places. -/
theorem declaredZ_declaration (q : ℚ) : declaredZ (declaration (.fin q)) = some (quantized q) := by
  have hwords : Text.words (declaration (.fin q)) =
      [lit "SET_KINEMATIC_POSITION", lit "Z=" ++ fmtNum (.fin q)] := by
    have hsplit : declaration (.fin q) =
        lit "SET_KINEMATIC_POSITION" ++ ' ' :: (lit "Z=" ++ fmtNum (.fin q)) := rfl
    rw [hsplit, Text.words_append_cons (by decide), Text.words_of_forall (by decide) (by decide),
      Text.words_of_forall]
    · rfl
    · intro c hc
      have hliteral : ∀ c ∈ lit "Z=", Text.isWhitespace c = false := by decide
      rcases List.mem_append.mp hc with hc | hc
      · exact hliteral c hc
      · exact isWhitespace_of_mem_fmtNum hc
    · simp [lit]
  have hvalue : Text.stripPrefix (lit "Z=") (lit "Z=" ++ fmtNum (.fin q)) =
      some (fmtNum (.fin q)) := rfl
  have hz : zWord (declaration (.fin q)) = some (.fin (quantized q)) := by
    rw [zWord, hwords]
    simp only [List.drop_succ_cons, List.drop_zero, zWordIn, hvalue, Option.some_or,
      brace_notMem_fmtNum, if_false, parseF64_fmtNum]
  have hword : IsWord (lit "SET_KINEMATIC_POSITION") := by decide
  have hhead : Headed (lit "SET_KINEMATIC_POSITION") (declaration (.fin q)) := .inr ⟨_, rfl⟩
  have hupper : Text.upper (lit "SET_KINEMATIC_POSITION") = lit "SET_KINEMATIC_POSITION" := by
    decide
  rw [declaredZ, hhead.firstWord_eq hword, if_pos hupper, hz]

/-- The declaration of a step is sent with the number the step computed. -/
theorem commandText_declare {v : F64} {machineAccel : Option F64} {text : Text}
    (h : commandText (some v) machineAccel declareTrueZ = some text) : text = declaration v := by
  have hbrace : '{' ∉ declaration v := by
    have hliteral : '{' ∉ lit "SET_KINEMATIC_POSITION Z=" := by decide
    rw [declaration, List.mem_append, not_or]
    exact ⟨hliteral, brace_notMem_fmtNum v⟩
  have hplain {p : Text} : Text.contains (declaration v) ('{' :: p) = false :=
    Text.contains_eq_false_of_notMem hbrace
  have hliteral : '{' ∉ lit "SET_KINEMATIC_POSITION Z=" := by decide
  have htrueZ : Text.replace declareTrueZ trueZPlaceholder (fmtNum v) = declaration v :=
    Text.replace_end hliteral
  have hrestore : Text.replace (declaration v) restoreAccelPlaceholder (fmtNum v) =
      declaration v := Text.replace_of_not_contains hplain
  have hpark : Text.replace (declaration v) parkZPlaceholder (fmtNum v) = declaration v :=
    Text.replace_of_not_contains hplain
  have hresolved : substituteComputed v declareTrueZ = declaration v := by
    rw [substituteComputed, htrueZ, hrestore, hpark]
  have hmachine : Text.contains (declaration v) machineAccelPlaceholder = false := hplain
  rw [commandText, if_pos (by decide)] at h
  simp only [Option.map_some, hresolved, Option.bind_eq_bind, Option.bind_some, hmachine,
    Bool.false_eq_true, if_false] at h
  exact (Option.some.inj h).symm

end Texts

section Moves

variable {printer : ZPrinter}

/-- A command that moves the nozzle, if at all, in the frame it is in. -/
def Moves (text : Text) : Prop := declaredZ text = none ∧ isProbe text = false

theorem zCommand_moves {past : Events} {text : Text} (h : Moves text) (z : ZState) :
    zCommand printer past text z = z.move (printer.moves past text) := by
  rw [zCommand, h.1]
  simp [h.2]

theorem moves_of_headed {word command : Text} (hword : IsWord word) (h : Headed word command)
    (hdeclare : Text.upper word ≠ lit "SET_KINEMATIC_POSITION")
    (hprobe : isProbe word = false) : Moves command := by
  refine ⟨declaredZ_of_headed hword h hdeclare, ?_⟩
  have hself : firstWord word = Text.upper word := Headed.firstWord_eq hword (.inl rfl)
  rw [isProbe, h.firstWord_eq hword, ← hself]
  exact hprobe

theorem moves_reposition (spec : PreviewSpec) (stop : PreviewStop) :
    Moves (reposition spec stop) := by
  have hword : IsWord (lit "G1") := by decide
  exact moves_of_headed hword (.inr ⟨_, rfl⟩) (by decide) (by decide)

/-- An event that neither declares nor probes, of another step than the two declarations. -/
def Calm (ok : Text → Prop) (declare final : RecoveryStep) : Event → Prop
  | .send source _ text _ => ok text ∧ source ≠ .step declare.id ∧ source ≠ .step final.id
  | .query .. | .gate .. | .confirm .. | .preview .. | .recheck .. | .arm .. | .verify ..
  | .register .. | .write .. => True

variable {ok : Text → Prop} {declare final : RecoveryStep}

theorem Silent.calm {past : Events} {e : Event} (he : Silent past e) :
    Calm ok declare final e := by
  cases e with
  | send source template text error => exact he.elim
  | _ => exact trivial

theorem Calm.not_isStepSend {e : Event} (he : Calm ok declare final e) :
    ¬ IsStepSend declare.id e ∧ ¬ IsStepSend final.id e := by
  cases e with
  | send source template text error =>
    cases source with
    | step id =>
      have hdeclare : ¬ id = declare.id := fun h => he.2.1 (congrArg Source.step h)
      have hfinal : ¬ id = final.id := fun h => he.2.2 (congrArg Source.step h)
      exact ⟨hdeclare, hfinal⟩
    | preview cursor => exact ⟨id, id⟩
    | cleanup stepId => exact ⟨id, id⟩
  | _ => exact ⟨id, id⟩

@[simp] theorem ZState.move_zero (z : ZState) : z.move 0 = z := by
  simp [ZState.move]

theorem zAfter_calm {trace : Events} {e : Event} (he : Calm Moves declare final e) :
    ∃ d, zAfter printer (trace ++ [e]) = (zAfter printer trace).move d := by
  cases e with
  | send source template text error =>
    cases error with
    | none =>
      refine ⟨printer.moves trace text, ?_⟩
      rw [zAfter_send, zCommand_moves he.1]
    | some message =>
      refine ⟨0, ?_⟩
      rw [zAfter_snoc, ZState.move_zero]
      rfl
  | _ =>
    refine ⟨0, ?_⟩
    rw [zAfter_snoc, ZState.move_zero]
    rfl

end Moves

section Frames

/-- Between the contact and now the nozzle has risen by what the printer believes. -/
def Raw (z : ZState) : Prop := ∃ pc kc, z.contact = some (pc, kc) ∧ z.k - kc = z.p - pc

/-- The believed Z above the last layer is the height above the contact. -/
def TrueFrame (top tolerance : ℚ) (z : ZState) : Prop :=
  ∃ pc kc, z.contact = some (pc, kc) ∧ |(z.k - top) - (z.p - pc)| ≤ tolerance

/-- The frame is off by how far the last layer was believed above the raw trigger. -/
def Drifted (top tolerance : ℚ) (z : ZState) : Prop :=
  ∃ pc kc, z.contact = some (pc, kc) ∧ |(z.k - top) - (z.p - pc) - (top - kc)| ≤ tolerance

variable {top tolerance : ℚ} {z : ZState}

theorem Raw.move (h : Raw z) (d : ℚ) : Raw (z.move d) := by
  obtain ⟨pc, kc, hcontact, hraw⟩ := h
  refine ⟨pc, kc, hcontact, ?_⟩
  show z.k + d - kc = z.p + d - pc
  linarith

theorem TrueFrame.move (h : TrueFrame top tolerance z) (d : ℚ) :
    TrueFrame top tolerance (z.move d) := by
  obtain ⟨pc, kc, hcontact, hframe⟩ := h
  have hsame : (z.move d).k - top - ((z.move d).p - pc) = z.k - top - (z.p - pc) := by
    show z.k + d - top - (z.p + d - pc) = _
    ring
  exact ⟨pc, kc, hcontact, by rw [hsame]; exact hframe⟩

theorem Drifted.move (h : Drifted top tolerance z) (d : ℚ) :
    Drifted top tolerance (z.move d) := by
  obtain ⟨pc, kc, hcontact, hframe⟩ := h
  have hsame : (z.move d).k - top - ((z.move d).p - pc) = z.k - top - (z.p - pc) := by
    show z.k + d - top - (z.p + d - pc) = _
    ring
  exact ⟨pc, kc, hcontact, by rw [hsame]; exact hframe⟩

/-- A probe leaves the frame it ran in as it was. -/
theorem raw_touch (z : ZState) (d : ℚ) : Raw (z.touch.move d) :=
  Raw.move ⟨z.p, z.k, rfl, by simp [ZState.touch]⟩ d

/-- The first declaration turns the raw frame into the true one. -/
theorem Raw.declare (h : Raw z) {pc kc : ℚ} (hcontact : z.contact = some (pc, kc)) :
    TrueFrame top (5 / 1000000) (z.declare (quantized (top + (z.k - kc)))) := by
  obtain ⟨pc', kc', hcontact', hraw⟩ := h
  rw [hcontact] at hcontact'
  obtain ⟨rfl, rfl⟩ := Prod.mk.inj (Option.some.inj hcontact')
  refine ⟨pc, kc, hcontact, ?_⟩
  have hround := abs_quantized_sub_le (top + (z.k - kc))
  have hsame : quantized (top + (z.k - kc)) - top - (z.p - pc) =
      quantized (top + (z.k - kc)) - (top + (z.k - kc)) := by linarith
  show |quantized (top + (z.k - kc)) - top - (z.p - pc)| ≤ _
  rw [hsame]
  exact hround

/-- The second declaration takes the reading of the old frame from a height of the new one. -/
theorem TrueFrame.declare (h : TrueFrame top (5 / 1000000) z) {pc kc : ℚ}
    (hcontact : z.contact = some (pc, kc)) :
    Drifted top (10 / 1000000) (z.declare (quantized (top + (z.k - kc)))) := by
  obtain ⟨pc', kc', hcontact', hframe⟩ := h
  rw [hcontact] at hcontact'
  obtain ⟨rfl, rfl⟩ := Prod.mk.inj (Option.some.inj hcontact')
  refine ⟨pc, kc, hcontact, ?_⟩
  have hround := abs_quantized_sub_le (top + (z.k - kc))
  show |quantized (top + (z.k - kc)) - top - (z.p - pc) - (top - kc)| ≤ _
  rw [abs_le] at hround hframe ⊢
  constructor
  · linarith [hround.1, hframe.1]
  · linarith [hround.2, hframe.2]

/-- A frame that drifts by nothing is true. -/
theorem Drifted.trueFrame (h : Drifted top tolerance z)
    (hcontact : ∀ pc kc, z.contact = some (pc, kc) → kc = top) : TrueFrame top tolerance z := by
  obtain ⟨pc, kc, hz, hframe⟩ := h
  obtain rfl := hcontact pc kc hz
  rw [sub_self, sub_zero] at hframe
  exact ⟨pc, kc, hz, hframe⟩

end Frames

section Turns

variable {w : World} {plan : RecoveryPlan} {step : RecoveryStep}

/-- Nothing is asked of where a run stops. -/
abbrev Anywhere {ε : Type} : ε → State → Prop := fun _ _ => True

/-- A turn of calm commands keeps what calm events keep. -/
theorem turn_calm {ok : Text → Prop} {declare final : RecoveryStep} {T : Events → Prop}
    (hT : ∀ trace e, Calm ok declare final e → T trace → T (trace ++ [e]))
    (hcommands : ∀ command ∈ step.commands, ∀ v n, ok (substitute v n command))
    (hmoves : ∀ spec stop, ok (reposition spec stop))
    (hdeclare : step.id ≠ declare.id) (hfinal : step.id ≠ final.id) :
    Triple (fun st => T st.trace) (turn w plan step) (fun _ st => T st.trace) Anywhere := by
  have hkeeps : Keeps Silent fun st => T st.trace := fun st e he hst => hT _ e he.calm hst
  apply Triple.mapError
  apply executeStep_rule hkeeps hkeeps
  · refine (runStep_keeps hkeeps ?_ ?_ ?_ ?_).conseq (fun _ hst => hst) (fun _ _ hst => hst)
      fun _ _ _ => trivial
    · exact fun _ _ _ hst => hst
    · exact fun _ _ _ hst => hst
    · exact fun _ st hst => hT _ (.register _ _) trivial hst
    · intro st command v n error hcommand hst
      refine hT _ (.send _ _ _ _) ⟨hcommands command hcommand v n, ?_, ?_⟩ hst
      · simpa using hdeclare
      · simpa using hfinal
  · exact fun _ _ => trivial
  · exact fun _ _ => trivial
  · intro spec st cursor stop error hst
    exact hT _ (.send _ _ _ _) ⟨hmoves spec stop, nofun, nofun⟩ hst

/-- A turn whose last command makes of a property what calm events then keep. -/
theorem turn_last {T T' : Events → Prop} {F : Option F64 → Prop} {first : List Text}
    {last : Text} (hcommands : step.commands = first ++ [last])
    (hT : ∀ trace e, Silent trace e → T trace → T (trace ++ [e]))
    (hT' : ∀ trace e, Silent trace e → T' trace → T' (trace ++ [e]))
    (hregister : step.cleanupCommands = [])
    (hcompute : Triple (fun st => T st.trace) (resolveCompute w step)
      (fun computed st => T st.trace ∧ F computed) Anywhere)
    (hfirst : ∀ trace command text, command ∈ first → T trace →
      T (trace ++ [.send (.step step.id) command text none]))
    (hlast : ∀ trace computed machineAccel text, T trace → F computed →
      commandText computed machineAccel last = some text →
      T' (trace ++ [.send (.step step.id) last text none]))
    (hmoves : ∀ trace cursor spec stop error, T' trace → T' (trace ++ [.send (.preview cursor)
      (reposition spec stop) (reposition spec stop) error])) :
    Triple (fun st => T st.trace) (turn w plan step) (fun _ st => T' st.trace) Anywhere := by
  have hkeeps : Keeps Silent fun st => T st.trace := fun st e he hst => hT _ e he hst
  have hkeeps' : Keeps Silent fun st => T' st.trace := fun st e he hst => hT' _ e he hst
  apply Triple.mapError
  apply executeStep_rule hkeeps hkeeps'
  · unfold runStep
    apply Triple.bind (Q := fun _ st => T st.trace)
    · exact (pollAll_triple hkeeps.reading step.preVerify).conseq (fun _ hst => hst)
        (fun _ _ hst => hst.1) fun _ _ _ => trivial
    intro _
    apply Triple.bind hcompute
    intro computed
    apply Triple.of_and_right
    intro hfact
    apply Triple.bind (Q := fun _ st => T st.trace)
    · exact registerCleanup_triple (fun st _ hst => hst) fun st hsome _ => (hsome hregister).elim
    intro _
    apply Triple.bind (Q := fun _ (st : State) => T st.trace) (Triple.state fun st hst => hst)
    intro st₀
    apply Triple.bind (Q := fun _ st => T' st.trace)
    · unfold sendStepCommands
      rw [hcommands]
      apply Triple.forM_append (Q := fun st => T st.trace)
      · apply Triple.forM_const
        intro command hcommand
        apply sendCommand_triple
        · exact fun st text hst _ _ => hfirst _ _ _ hcommand hst
        · exact fun _ _ _ _ _ _ => trivial
        · exact fun _ _ _ => trivial
      · apply Triple.forM_cons ?_ (Triple.pure () fun st hst => hst)
        apply sendCommand_triple
        · exact fun st text hst htext _ => hlast _ _ _ _ hst hfact htext
        · exact fun _ _ _ _ _ _ => trivial
        · exact fun _ _ _ => trivial
    intro _
    apply Triple.bind (Q := fun _ st => T' st.trace)
    · exact (pollAll_triple hkeeps'.reading step.verify).conseq (fun _ hst => hst)
        (fun _ _ hst => hst.1) fun _ _ _ => trivial
    intro _
    exact Triple.pure _ fun _ hst => hst
  · exact fun _ _ => trivial
  · exact fun _ _ => trivial
  · exact fun spec st cursor stop error hst => hmoves _ _ _ _ _ hst

end Turns

section Phases

variable {w : World} {printer : ZPrinter} {plan : RecoveryPlan} {declare final : RecoveryStep}
  {top : ℚ}

/-- A command of the step has been sent. -/
def Sent (s : RecoveryStep) (trace : Events) : Prop := ∃ e ∈ trace, IsStepSend s.id e

/-- What is true of the frame once it has been declared. -/
structure FrameLaw (printer : ZPrinter) (declare final : RecoveryStep) (top : ℚ)
    (trace : Events) : Prop where
  declared : Sent declare trace → ¬ Sent final trace →
    TrueFrame top (5 / 1000000) (zAfter printer trace)
  final : Sent final trace → Drifted top (10 / 1000000) (zAfter printer trace)

/-- No declaration has been sent. -/
def Undeclared (declare final : RecoveryStep) (trace : Events) : Prop :=
  ¬ Sent declare trace ∧ ¬ Sent final trace

/-- The probe has touched and nothing has been declared since. -/
def Touched (printer : ZPrinter) (declare final : RecoveryStep) (trace : Events) : Prop :=
  Undeclared declare final trace ∧ Raw (zAfter printer trace)

/-- The frame has been declared once. -/
structure Declared (printer : ZPrinter) (declare final : RecoveryStep) (top : ℚ)
    (trace : Events) : Prop where
  law : ∀ past, past <+: trace → FrameLaw printer declare final top past
  unsent : ¬ Sent final trace
  frame : TrueFrame top (5 / 1000000) (zAfter printer trace)

/-- The frame has been declared twice. -/
structure Redeclared (printer : ZPrinter) (declare final : RecoveryStep) (top : ℚ)
    (trace : Events) : Prop where
  law : ∀ past, past <+: trace → FrameLaw printer declare final top past
  contact : ∀ past, past <+: trace → Sent final past →
    (zAfter printer past).contact = (zAfter printer trace).contact
  sent : Sent final trace
  frame : Drifted top (10 / 1000000) (zAfter printer trace)

theorem sent_snoc {s : RecoveryStep} {trace : Events} {e : Event} :
    Sent s (trace ++ [e]) ↔ Sent s trace ∨ IsStepSend s.id e := by
  constructor
  · rintro ⟨x, hx, hsend⟩
    rcases List.mem_append.mp hx with hx | hx
    · exact .inl ⟨x, hx, hsend⟩
    · exact .inr (List.mem_singleton.mp hx ▸ hsend)
  · rintro (⟨x, hx, hsend⟩ | hsend)
    · exact ⟨x, List.mem_append_left _ hx, hsend⟩
    · exact ⟨e, by simp, hsend⟩

theorem Undeclared.calm {ok : Text → Prop} {trace : Events} {e : Event}
    (he : Calm ok declare final e) (h : Undeclared declare final trace) :
    Undeclared declare final (trace ++ [e]) := by
  obtain ⟨hdeclare, hfinal⟩ := he.not_isStepSend
  rw [Undeclared, sent_snoc, sent_snoc]
  exact ⟨not_or.mpr ⟨h.1, hdeclare⟩, not_or.mpr ⟨h.2, hfinal⟩⟩

theorem Undeclared.law {trace past : Events} (h : Undeclared declare final trace)
    (hpast : past <+: trace) : FrameLaw printer declare final top past := by
  have hmono : ∀ s, Sent s past → Sent s trace := fun s ⟨e, he, hsend⟩ =>
    ⟨e, hpast.subset he, hsend⟩
  exact ⟨fun hsent => (h.1 (hmono _ hsent)).elim, fun hsent => (h.2 (hmono _ hsent)).elim⟩

theorem Touched.calm {trace : Events} {e : Event} (he : Calm Moves declare final e)
    (h : Touched printer declare final trace) : Touched printer declare final (trace ++ [e]) := by
  obtain ⟨d, hd⟩ := @zAfter_calm printer declare final trace e he
  exact ⟨h.1.calm he, hd ▸ h.2.move d⟩

/-- One more event keeps a law of all prefixes when it keeps the law. -/
theorem law_snoc {P : Events → Prop} {trace : Events} {e : Event}
    (h : ∀ past, past <+: trace → P past) (he : P (trace ++ [e])) :
    ∀ past, past <+: trace ++ [e] → P past := by
  intro past hpast
  rcases List.prefix_concat_iff.mp hpast with rfl | hpast
  · exact he
  · exact h past hpast

theorem Declared.calm {trace : Events} {e : Event} (he : Calm Moves declare final e)
    (h : Declared printer declare final top trace) :
    Declared printer declare final top (trace ++ [e]) := by
  obtain ⟨d, hd⟩ := @zAfter_calm printer declare final trace e he
  have hframe : TrueFrame top (5 / 1000000) (zAfter printer (trace ++ [e])) :=
    hd ▸ h.frame.move d
  have hunsent : ¬ Sent final (trace ++ [e]) :=
    fun hsent => (sent_snoc.mp hsent).elim h.unsent he.not_isStepSend.2
  exact ⟨law_snoc h.law ⟨fun _ _ => hframe, fun hsent => (hunsent hsent).elim⟩, hunsent, hframe⟩

theorem Redeclared.calm {trace : Events} {e : Event} (he : Calm Moves declare final e)
    (h : Redeclared printer declare final top trace) :
    Redeclared printer declare final top (trace ++ [e]) := by
  obtain ⟨d, hd⟩ := @zAfter_calm printer declare final trace e he
  have hframe : Drifted top (10 / 1000000) (zAfter printer (trace ++ [e])) :=
    hd ▸ h.frame.move d
  have hsent : Sent final (trace ++ [e]) := sent_snoc.mpr (.inl h.sent)
  have hcontact : (zAfter printer (trace ++ [e])).contact = (zAfter printer trace).contact := by
    rw [hd]
    rfl
  refine ⟨law_snoc h.law ⟨fun _ hunsent => (hunsent hsent).elim, fun _ => hframe⟩,
    law_snoc ?_ fun _ => rfl, hsent, hframe⟩
  exact fun past hpast hsent => (h.contact past hpast hsent).trans hcontact.symm

end Phases

section Declarations

variable {w : World} {printer : ZPrinter} {plan : RecoveryPlan} {step declare final : RecoveryStep}
  {formula : TrueZFormula} {top : ℚ}

/-- The printer reports the Z it believes in, and of the probe the raw Z at the first contact
without what the source of the reading takes off it. -/
structure ReportsZ (w : World) (printer : ZPrinter) (formula : TrueZFormula) : Prop where
  height : ∀ past v, Reports w past (lit "toolhead") (lit "position.2") v →
    v = .fin (zAfter printer past).k
  trigger : ∀ past v pc kc offset, (zAfter printer past).contact = some (pc, kc) →
    formula.triggerSource.offset = .fin offset →
    Reports w past formula.triggerSource.reading.1 formula.triggerSource.reading.2 v →
    v = .fin (kc - offset)

/-- A formula that gives a number was given numbers. -/
theorem offset_finite {formula : TrueZFormula} {reading halt v : F64}
    (h : trueZAtHalt formula reading halt = .ok v) :
    ∃ offset, formula.triggerSource.offset = .fin offset := by
  obtain ⟨_, -, h⟩ := bind_eq_ok.mp h
  obtain ⟨_, -, h⟩ := bind_eq_ok.mp h
  obtain ⟨_, -, h⟩ := bind_eq_ok.mp h
  obtain ⟨trigger, htrigger, -⟩ := bind_eq_ok.mp h
  cases hsource : formula.triggerSource with
  | rawLastZResult | dragResult => exact ⟨0, rfl⟩
  | bedZPlusOffset zOffset | touchResult zOffset =>
    rw [hsource] at htrigger
    obtain ⟨_, hoffset, -⟩ := bind_eq_ok.mp htrigger
    obtain ⟨hfinite, -⟩ := finite_eq_ok.mp hoffset
    exact F64.isFinite_iff.mp hfinite

/-- What a declaration computes from the contact of the probe and the height it reads. -/
theorem resolveCompute_declare (hreports : ReportsZ w printer formula)
    (hcompute : step.compute = some (.trueZ formula)) (htop : formula.zPrevTop = .fin top)
    {T : Events → Prop} (hT : ∀ trace e, Silent trace e → T trace → T (trace ++ [e])) {z : ZState}
    (hz : ∀ trace, T trace → zAfter printer trace = z) {pc kc : ℚ}
    (hcontact : z.contact = some (pc, kc)) :
    Triple (fun st => T st.trace) (resolveCompute w step)
      (fun computed st => T st.trace ∧ computed = some (.fin (top + (z.k - kc)))) Anywhere := by
  have hkeeps : Keeps Silent fun st => T st.trace := fun st e he hst => hT _ e he hst
  apply (resolveCompute_trueZ hkeeps.reading hcompute).conseq (fun _ hst => hst) ?_
    fun _ _ _ => trivial
  rintro computed st ⟨hst, reading, halt, v, rfl, hv, ⟨st₁, hst₁, hreading⟩, st₂, hst₂, hhalt⟩
  refine ⟨hst, ?_⟩
  obtain ⟨offset, hoffset⟩ := offset_finite hv
  obtain rfl : halt = .fin z.k := by
    rw [hreports.height _ _ hhalt, hz _ hst₂]
  obtain rfl : reading = .fin (kc - offset) := by
    apply hreports.trigger _ _ pc kc offset ?_ hoffset hreading
    rw [hz _ hst₁]
    exact hcontact
  rw [trueZAtHalt_fin htop hoffset, Except.ok.injEq] at hv
  rw [← hv, sub_add_cancel]

/-- A declaration makes of a frame whatever setting the computed number makes of it. -/
theorem turn_declare (hreports : ReportsZ w printer formula)
    (hcompute : step.compute = some (.trueZ formula)) (hcommands : step.commands = [declareTrueZ])
    (hcleanup : step.cleanupCommands = []) (htop : formula.zPrevTop = .fin top)
    {T T' : Events → Prop}
    (hT : ∀ trace e, Silent trace e → T trace → T (trace ++ [e]))
    (hT' : ∀ trace e, Silent trace e → T' trace → T' (trace ++ [e]))
    (hcontact : ∀ trace, T trace → ∃ pc kc, (zAfter printer trace).contact = some (pc, kc))
    (hsend : ∀ trace pc kc text, T trace → (zAfter printer trace).contact = some (pc, kc) →
      zAfter printer (trace ++ [.send (.step step.id) declareTrueZ text none]) =
        (zAfter printer trace).declare (quantized (top + ((zAfter printer trace).k - kc))) →
      T' (trace ++ [.send (.step step.id) declareTrueZ text none]))
    (hmoves : ∀ trace cursor spec stop error, T' trace → T' (trace ++ [.send (.preview cursor)
      (reposition spec stop) (reposition spec stop) error])) :
    Triple (fun st => T st.trace) (turn w plan step) (fun _ st => T' st.trace) Anywhere := by
  intro st hst
  obtain ⟨pc, kc, hz⟩ := hcontact st.trace hst
  -- the state of Z is fixed before the turn, so that both readings are of it
  have hstay : ∀ trace e, Silent trace e → T trace ∧ zAfter printer trace = zAfter printer st.trace →
      T (trace ++ [e]) ∧ zAfter printer (trace ++ [e]) = zAfter printer st.trace := by
    rintro trace e he ⟨htrace, hsame⟩
    exact ⟨hT trace e he htrace, (zAfter_silent he).trans hsame⟩
  have hturn := @turn_last w plan step
    (fun trace => T trace ∧ zAfter printer trace = zAfter printer st.trace) T'
    (fun computed => computed = some (.fin (top + ((zAfter printer st.trace).k - kc)))) []
    declareTrueZ hcommands hstay hT' hcleanup
    (resolveCompute_declare hreports hcompute htop hstay (fun _ h => h.2) hz)
    (fun _ _ _ hcommand => absurd hcommand List.not_mem_nil) ?_ hmoves
  · exact hturn st ⟨hst, rfl⟩
  · rintro trace computed machineAccel text ⟨htrace, hsame⟩ rfl htext
    obtain rfl := commandText_declare htext
    refine hsend trace pc kc _ htrace (hsame ▸ hz) ?_
    rw [zAfter_send, zCommand, declaredZ_declaration, hsame]

end Declarations

section Plans

variable {w : World} {printer : ZPrinter} {inputs : PlanInputs} {config : PlanConfig}
  {plan : RecoveryPlan} {ctx : Ctx} {mesh : List RecoveryStep} {declare final step : RecoveryStep}
  {formula : TrueZFormula} {top : ℚ}

/-- The last command of the probe's step is a probe, whatever stands in it. -/
theorem probeCommand_probes (ctx : Ctx) (v n : F64) :
    declaredZ (substitute v n (probeCommand ctx)) = none ∧
      isProbe (substitute v n (probeCommand ctx)) = true := by
  have hprobes : ∀ word, IsWord word → Headed word (probeCommand ctx) →
      Text.upper word ≠ lit "SET_KINEMATIC_POSITION" → isProbe word = true →
      declaredZ (substitute v n (probeCommand ctx)) = none ∧
        isProbe (substitute v n (probeCommand ctx)) = true := by
    intro word hword hhead hdeclare hprobe
    have hsent := Headed.substitute hword hhead v n
    have hself : firstWord word = Text.upper word := Headed.firstWord_eq hword (.inl rfl)
    refine ⟨declaredZ_of_headed hword hsent hdeclare, ?_⟩
    rw [isProbe, hsent.firstWord_eq hword, ← hself]
    exact hprobe
  have hchip : ∀ chip, probeCommand ctx = dragCommand ctx chip →
      Headed (lit "PLR_DRAG_PROBE") (probeCommand ctx) := fun chip hdrag => .inr ⟨_, hdrag⟩
  cases hkind : ctx.machine.probe.kind with
  | adxlDrag chip =>
    have hdrag : probeCommand ctx = dragCommand ctx chip := by rw [probeCommand, hkind]
    exact hprobes _ (by decide) (hchip chip hdrag) (by decide) (by decide)
  | tap | loadCell =>
    by_cases htouch : usesConsensusTouch ctx.machine ctx.cfg = true
    · have hcommand : probeCommand ctx = touchCommand ctx := by
        simp only [probeCommand, hkind, if_pos htouch]
      have hhead : Headed (lit "PLR_TOUCH") (probeCommand ctx) := .inr ⟨_, hcommand⟩
      exact hprobes _ (by decide) hhead (by decide) (by decide)
    · have hcommand : probeCommand ctx =
          lit "PROBE PROBE_SPEED=" ++ fmtNum ctx.cfg.probeSpeed ++ lit " SAMPLES=1" := by
        simp only [probeCommand, hkind, if_neg htouch]
      have hhead : Headed (lit "PROBE") (probeCommand ctx) :=
        .inr ⟨lit "PROBE_SPEED=" ++ fmtNum ctx.cfg.probeSpeed ++ lit " SAMPLES=1", hcommand⟩
      exact hprobes _ (by decide) hhead (by decide) (by decide)

theorem turn_probe (hcommands : step.commands =
      (if usesConsensusTouch ctx.machine ctx.cfg then [] else accelPrefix ctx.cfg.accelProbe) ++
        [probeCommand ctx])
    (hcompute : step.compute = none) (hcleanup : step.cleanupCommands = [])
    (hdeclare : step.id ≠ declare.id) (hfinal : step.id ≠ final.id) :
    Triple (fun st => Undeclared declare final st.trace) (turn w plan step)
      (fun _ st => Touched printer declare final st.trace) Anywhere := by
  have hcalm : ∀ command text error, Calm (fun _ => True) declare final
      (.send (.step step.id) command text error) := by
    intro command text error
    refine ⟨trivial, ?_, ?_⟩
    · simpa using hdeclare
    · simpa using hfinal
  apply turn_last (F := fun _ => True) hcommands
  · exact fun trace e he hst => hst.calm (he.calm : Calm (fun _ => True) declare final e)
  · exact fun trace e he hst => hst.calm he.calm
  · exact hcleanup
  · exact (resolveCompute_none hcompute).conseq (fun _ hst => hst) (fun _ _ hst => ⟨hst.1, trivial⟩)
      fun _ _ _ => trivial
  · exact fun trace command text _ hst => hst.calm (hcalm command text none)
  · intro trace computed machineAccel text hst _ htext
    refine ⟨hst.calm (hcalm _ _ _), ?_⟩
    obtain ⟨v, n, rfl, -⟩ := commandText_eq htext
    obtain ⟨hdeclares, hprobes⟩ := probeCommand_probes ctx v n
    rw [zAfter_send, zCommand, hdeclares]
    simp only [hprobes, if_true]
    exact raw_touch _ _
  · intro trace cursor spec stop error hst
    exact hst.calm ⟨moves_reposition spec stop, nofun, nofun⟩

/-- The first declaration makes the frame true. -/
theorem turn_trueZDeclare (hreports : ReportsZ w printer formula)
    (hcompute : declare.compute = some (.trueZ formula))
    (hcommands : declare.commands = [declareTrueZ]) (hcleanup : declare.cleanupCommands = [])
    (htop : formula.zPrevTop = .fin top) (hids : declare.id ≠ final.id) :
    Triple (fun st => Touched printer declare final st.trace) (turn w plan declare)
      (fun _ st => Declared printer declare final top st.trace) Anywhere := by
  apply turn_declare hreports hcompute hcommands hcleanup htop
  · exact fun trace e he hst => hst.calm he.calm
  · exact fun trace e he hst => hst.calm he.calm
  · rintro trace ⟨-, pc, kc, hcontact, -⟩
    exact ⟨pc, kc, hcontact⟩
  · intro trace pc kc text hst hcontact hz
    have hframe : TrueFrame top (5 / 1000000) ((zAfter printer trace).declare
        (quantized (top + ((zAfter printer trace).k - kc)))) := hst.2.declare hcontact
    rw [← hz] at hframe
    have hunsent : ¬ Sent final (trace ++ [.send (.step declare.id) declareTrueZ text none]) :=
      fun hsent => (sent_snoc.mp hsent).elim hst.1.2 hids
    exact ⟨law_snoc (fun past => hst.1.law) ⟨fun _ _ => hframe, fun hsent => (hunsent hsent).elim⟩,
      hunsent, hframe⟩
  · intro trace cursor spec stop error hst
    exact hst.calm ⟨moves_reposition spec stop, nofun, nofun⟩

/-- The second declaration shifts it again. -/
theorem turn_finalDeclare (hreports : ReportsZ w printer formula)
    (hcompute : final.compute = some (.trueZ formula))
    (hcommands : final.commands = [declareTrueZ]) (hcleanup : final.cleanupCommands = [])
    (htop : formula.zPrevTop = .fin top) :
    Triple (fun st => Declared printer declare final top st.trace) (turn w plan final)
      (fun _ st => Redeclared printer declare final top st.trace) Anywhere := by
  apply turn_declare hreports hcompute hcommands hcleanup htop
  · exact fun trace e he hst => hst.calm he.calm
  · exact fun trace e he hst => hst.calm he.calm
  · rintro trace ⟨-, -, pc, kc, hcontact, -⟩
    exact ⟨pc, kc, hcontact⟩
  · intro trace pc kc text hst hcontact hz
    have hframe := hst.frame.declare hcontact
    rw [← hz] at hframe
    have hsent : Sent final (trace ++ [.send (.step final.id) declareTrueZ text none]) :=
      sent_snoc.mpr (.inr rfl)
    refine ⟨law_snoc hst.law ⟨fun _ hunsent => (hunsent hsent).elim, fun _ => hframe⟩,
      law_snoc ?_ fun _ => rfl, hsent, hframe⟩
    rintro past hpast ⟨e, he, hsend⟩
    exact (hst.unsent ⟨e, hpast.subset he, hsend⟩).elim
  · intro trace cursor spec stop error hst
    exact hst.calm ⟨moves_reposition spec stop, nofun, nofun⟩

/-- Behind the probe only the declarations declare, and nothing probes. -/
theorem moves_of_later (h : Planned inputs config plan ctx mesh) {s : RecoveryStep}
    (hs : s ∈ plan.steps) (hlater : Phase.probe.index < s.phase.index)
    (hdeclare : s.phase ≠ .trueZDeclare) (hfinal : s.phase ≠ .finalDeclare) :
    ∀ command ∈ s.commands, ∀ v n, Moves (substitute v n command) := by
  obtain ⟨s₀, hbuilt, hnumbered⟩ := h.built hs
  have hphase : s.phase = s₀.phase := by rw [hnumbered]; rfl
  have hcommands : s.commands = s₀.commands := by rw [hnumbered]; rfl
  rw [hphase] at hlater hdeclare hfinal
  intro command hcommand v n
  rw [hcommands] at hcommand
  have hmoves : ∀ word : Text, IsWord word → Headed word command →
      Text.upper word ≠ lit "SET_KINEMATIC_POSITION" → isProbe word = false →
      Moves (substitute v n command) := fun word hword hhead =>
    moves_of_headed hword (Headed.substitute hword hhead v n)
  rcases hbuilt.known h.fans hcommand with ⟨hclean, -⟩ | ⟨-, -, hhead⟩ | ⟨word, hword, hhead⟩
  · rw [hclean] at hlater
    exact absurd hlater (by decide)
  · exact hmoves _ (by decide) hhead (by decide) (by decide)
  · have hwords : ∀ phase : Phase, Phase.probe.index < phase.index → phase ≠ .trueZDeclare →
        phase ≠ .finalDeclare → ∀ word ∈ phaseWords phase,
          Text.upper word ≠ lit "SET_KINEMATIC_POSITION" ∧ isProbe word = false := by
      intro phase
      cases phase <;> decide
    have hplain := hwords s₀.phase hlater hdeclare hfinal word hword
    exact hmoves word (isWord_of_mem_phaseWords hword) hhead hplain.1 hplain.2

/-- The steps of a plan, with what the second declaration leaves of the frame. -/
theorem turns_frame (h : Planned inputs config plan ctx mesh) (hreports : ReportsZ w printer formula)
    (hdeclare : declare ∈ plan.steps) (hdeclarePhase : declare.phase = .trueZDeclare)
    (hcompute : declare.compute = some (.trueZ formula)) (hfinal : final ∈ plan.steps)
    (hfinalPhase : final.phase = .finalDeclare) (htop : formula.zPrevTop = .fin top) :
    Triple (fun st => Undeclared declare final st.trace) (plan.steps.forM (turn w plan))
      (fun _ st => Redeclared printer declare final top st.trace) Anywhere := by
  have hids : ∀ s ∈ plan.steps, ∀ t ∈ plan.steps, s.phase ≠ t.phase → s.id ≠ t.id :=
    fun s hs t ht hphase hid => hphase (congrArg _ (eq_of_id h.increasing hs ht hid))
  obtain ⟨probe, hprobe, hprobeEq⟩ := @Planned.mem_steps _ _ _ _ _ h (stepProbe ctx) (by
    simp [stepsInOrder, probing])
  have hprobePhase : probe.phase = .probe := by rw [hprobeEq]; rfl
  have hsteps : ∀ s ∈ plan.steps, s.phase = .trueZDeclare ∨ s.phase = .finalDeclare →
      s.compute = some (.trueZ ctx.formula) ∧ s.commands = [declareTrueZ] ∧
        s.cleanupCommands = [] := by
    intro s hs hphase
    obtain ⟨s₀, hbuilt, hnumbered⟩ := h.built hs
    rw [hnumbered] at hphase ⊢
    cases hbuilt with
    | trueZDeclare => exact ⟨rfl, rfl, rfl⟩
    | finalDeclare => exact ⟨rfl, rfl, rfl⟩
    | probeTempHold s₀ hhold =>
      rw [stepProbeTempHold, Option.map_eq_some_iff] at hhold
      obtain ⟨target, -, rfl⟩ := hhold
      rcases hphase with hphase | hphase <;> cases hphase
    | _ => rcases hphase with hphase | hphase <;> cases hphase
  obtain ⟨hdeclareCompute, hdeclareCommands, hdeclareCleanup⟩ :=
    hsteps declare hdeclare (.inl hdeclarePhase)
  obtain ⟨hfinalCompute, hfinalCommands, hfinalCleanup⟩ := hsteps final hfinal (.inr hfinalPhase)
  obtain rfl : ctx.formula = formula := by
    rw [hdeclareCompute] at hcompute
    exact RuntimeComputation.trueZ.inj (Option.some.inj hcompute)
  have hdeclareFinal : declare.id ≠ final.id := by
    refine hids declare hdeclare final hfinal ?_
    rw [hdeclarePhase, hfinalPhase]
    decide
  -- the plan is cut at the probe and at the two declarations
  obtain ⟨before, rest, hsplit, hbefore, hrest, hordered, hlater⟩ := ordered_split h.ordered hprobe
  obtain ⟨mid, rest₁, hsplit₁, hmid, hrest₁, hordered₁, hlater₁⟩ := ordered_split hordered
    (hlater declare hdeclare (by rw [hprobePhase, hdeclarePhase]; decide))
  obtain ⟨lifts, after, hsplit₂, hlifts, hafter, -, -⟩ := ordered_split hordered₁
    (hlater₁ final (hlater final hfinal (by rw [hprobePhase, hfinalPhase]; decide))
      (by rw [hdeclarePhase, hfinalPhase]; decide))
  rw [hprobePhase] at hbefore hrest
  rw [hdeclarePhase] at hmid hrest₁
  rw [hfinalPhase] at hlifts hafter
  have hcalm : ∀ s ∈ plan.steps, s.phase ≠ .trueZDeclare → s.phase ≠ .finalDeclare →
      s.id ≠ declare.id ∧ s.id ≠ final.id := by
    intro s hs hother hother'
    exact ⟨hids s hs declare hdeclare (by rwa [hdeclarePhase]),
      hids s hs final hfinal (by rwa [hfinalPhase])⟩
  have hturn : ∀ (T : Events → Prop),
      (∀ trace e, Calm Moves declare final e → T trace → T (trace ++ [e])) →
      ∀ s ∈ plan.steps, Phase.probe.index < s.phase.index → s.phase ≠ .trueZDeclare →
      s.phase ≠ .finalDeclare →
      Triple (fun st => T st.trace) (turn w plan s) (fun _ st => T st.trace) Anywhere := by
    intro T hT s hs hlate hother hother'
    obtain ⟨hid, hid'⟩ := hcalm s hs hother hother'
    exact turn_calm hT (moves_of_later h hs hlate hother hother') moves_reposition hid hid'
  have hin : ∀ s ∈ rest, s ∈ plan.steps := fun s hs => by simp [hsplit, hs]
  have hin₁ : ∀ s ∈ rest₁, s ∈ rest := fun s hs => by simp [hsplit₁, hs]
  rw [hsplit, hsplit₁, hsplit₂]
  apply Triple.forM_append (Q := fun st => Undeclared declare final st.trace)
  · apply Triple.forM_const
    intro s hs
    have hphases : ∀ phase : Phase, phase.index < Phase.probe.index →
        phase ≠ .trueZDeclare ∧ phase ≠ .finalDeclare := by
      intro phase
      cases phase <;> decide
    obtain ⟨hother, hother'⟩ := hphases s.phase (hbefore s hs)
    obtain ⟨hid, hid'⟩ := hcalm s (by simp [hsplit, hs]) hother hother'
    exact turn_calm (fun _ e (he : Calm (fun _ => True) declare final e) hst => hst.calm he)
      (fun _ _ _ _ => trivial) (fun _ _ => trivial) hid hid'
  have hprobeId := hcalm probe hprobe (by rw [hprobePhase]; decide) (by rw [hprobePhase]; decide)
  apply Triple.forM_cons (Q := fun st => Touched printer declare final st.trace)
  · have hcommands : probe.commands =
        (if usesConsensusTouch ctx.machine ctx.cfg then [] else accelPrefix ctx.cfg.accelProbe) ++
          [probeCommand ctx] := by
      rw [hprobeEq]
      rfl
    apply turn_probe hcommands ?_ ?_ hprobeId.1 hprobeId.2
    · rw [hprobeEq]
      rfl
    · rw [hprobeEq]
      rfl
  apply Triple.forM_append (Q := fun st => Touched printer declare final st.trace)
  · apply Triple.forM_const
    intro s hs
    have hmem : s ∈ rest := by simp [hsplit₁, hs]
    have hphases : ∀ phase : Phase, phase.index < Phase.trueZDeclare.index →
        phase ≠ .trueZDeclare ∧ phase ≠ .finalDeclare := by
      intro phase
      cases phase <;> decide
    obtain ⟨hother, hother'⟩ := hphases s.phase (hmid s hs)
    exact hturn _ (fun _ _ he hst => hst.calm he) s (hin s hmem) (hrest s hmem) hother hother'
  apply Triple.forM_cons (Q := fun st => Declared printer declare final top st.trace)
  · exact turn_trueZDeclare hreports hdeclareCompute hdeclareCommands hdeclareCleanup htop
      hdeclareFinal
  apply Triple.forM_append (Q := fun st => Declared printer declare final top st.trace)
  · apply Triple.forM_const
    intro s hs
    have hmem : s ∈ rest₁ := by simp [hsplit₂, hs]
    have hphases : ∀ phase : Phase, Phase.trueZDeclare.index < phase.index →
        phase.index < Phase.finalDeclare.index →
        phase ≠ .trueZDeclare ∧ phase ≠ .finalDeclare := by
      intro phase
      cases phase <;> decide
    obtain ⟨hother, hother'⟩ := hphases s.phase (hrest₁ s hmem) (hlifts s hs)
    exact hturn _ (fun _ _ he hst => hst.calm he) s (hin s (hin₁ s hmem)) (hrest s (hin₁ s hmem))
      hother hother'
  apply Triple.forM_cons (Q := fun st => Redeclared printer declare final top st.trace)
  · exact turn_finalDeclare hreports hfinalCompute hfinalCommands hfinalCleanup htop
  · apply Triple.forM_const
    intro s hs
    have hmem : s ∈ rest₁ := by simp [hsplit₂, hs]
    have hphases : ∀ phase : Phase, Phase.finalDeclare.index < phase.index →
        phase ≠ .trueZDeclare ∧ phase ≠ .finalDeclare := by
      intro phase
      cases phase <;> decide
    obtain ⟨hother, hother'⟩ := hphases s.phase (hafter s hs)
    exact hturn _ (fun _ _ he hst => hst.calm he) s (hin s (hin₁ s hmem)) (hrest s (hin₁ s hmem))
      hother hother'

/-- A step of the phase has sent a command. -/
def SentIn (plan : RecoveryPlan) (phase : Phase) (trace : Events) : Prop :=
  ∃ s ∈ plan.steps, s.phase = phase ∧ Sent s trace

/-- The frame of a run at every moment: true between the two declarations, to the rounding of the
first, and what `last` says after the second. -/
structure FrameHeld (printer : ZPrinter) (plan : RecoveryPlan) (top : ℚ) (last : ZState → Prop)
    (trace : Events) : Prop where
  declared : ∀ past, past <+: trace → SentIn plan .trueZDeclare past →
    ¬ SentIn plan .finalDeclare past → TrueFrame top (5 / 1000000) (zAfter printer past)
  final : ∀ past, past <+: trace → SentIn plan .finalDeclare past → last (zAfter printer past)

/-- A completed run leaves a frame that is off by how far the last layer was believed above the
raw trigger. -/
theorem execute_frame (h : Planned inputs config plan ctx mesh)
    (hreports : ReportsZ w printer ctx.formula) (htop : ctx.formula.zPrevTop = .fin top) {n : ℕ}
    (hdone : (execute w plan).1 = .completed n) :
    FrameHeld printer plan top (Drifted top (10 / 1000000)) (execute w plan).2.trace ∧
      SentIn plan .finalDeclare (execute w plan).2.trace ∧
      ∀ past, past <+: (execute w plan).2.trace → SentIn plan .finalDeclare past →
        (zAfter printer past).contact = (zAfter printer (execute w plan).2.trace).contact := by
  obtain ⟨declare, hdeclare, hdeclareEq⟩ := @Planned.mem_steps _ _ _ _ _ h (stepTrueZDeclare ctx) (by
    simp [stepsInOrder])
  obtain ⟨final, hfinal, hfinalEq⟩ := @Planned.mem_steps _ _ _ _ _ h (stepFinalDeclare ctx) (by
    simp [stepsInOrder])
  have hdeclarePhase : declare.phase = .trueZDeclare := by rw [hdeclareEq]; rfl
  have hfinalPhase : final.phase = .finalDeclare := by rw [hfinalEq]; rfl
  have hcompute : declare.compute = some (.trueZ ctx.formula) := by rw [hdeclareEq]; rfl
  have hphase : ∀ s ∈ plan.steps, ∀ t ∈ plan.steps, s.phase = t.phase → s = t :=
    fun s hs t ht => List.inj_on_of_nodup_map h.phases_nodup hs ht
  have hturns := turns_frame h hreports hdeclare hdeclarePhase hcompute hfinal hfinalPhase htop
  have hrun : Redeclared printer declare final top (execute w plan).2.trace := by
    unfold execute at hdone ⊢
    split at hdone
    · rename_i hnone
      rw [hnone] at hdeclare
      cases hdeclare
    · rename_i anchor rest _
      have hkeeps : Keeps Silent fun st => Undeclared declare final st.trace :=
        fun st e he hst => hst.calm (he.calm : Calm (fun _ => True) declare final e)
      have hnothing : ∀ s, ¬ Sent s State.start.trace := by
        rintro s ⟨e, he, -⟩
        cases he
      have hprogram : Triple (fun st => Undeclared declare final st.trace) (program w plan anchor)
          (fun _ st => Redeclared printer declare final top st.trace) Anywhere :=
        program_rule hkeeps (fun _ _ => trivial) hturns
      replace hprogram := hprogram State.start ⟨hnothing declare, hnothing final⟩
      split at hdone
      · rename_i st hst
        rw [hst] at hprogram
        exact hprogram
      · cases hdone
  refine ⟨?_, ⟨final, hfinal, hfinalPhase, hrun.sent⟩, ?_⟩
  · constructor
    · rintro past hpast ⟨s, hs, hsphase, hsent⟩ hunsent
      obtain rfl := hphase s hs declare hdeclare (by rw [hsphase, hdeclarePhase])
      exact (hrun.law past hpast).declared hsent
        fun hsent' => hunsent ⟨final, hfinal, hfinalPhase, hsent'⟩
    · rintro past hpast ⟨s, hs, hsphase, hsent⟩
      obtain rfl := hphase s hs final hfinal (by rw [hsphase, hfinalPhase])
      exact (hrun.law past hpast).final hsent
  · rintro past hpast ⟨s, hs, hsphase, hsent⟩
    obtain rfl := hphase s hs final hfinal (by rw [hsphase, hfinalPhase])
    exact hrun.contact past hpast hsent

/-- The formula that the declarations of a plan evaluate. -/
def formulaOf (plan : RecoveryPlan) : Option TrueZFormula :=
  match (plan.stepIn? .trueZDeclare).bind (·.compute) with
  | some (.trueZ formula) => some formula
  | _ => none

/-- The property: from the first declaration on, the believed Z above the last layer is the
height above the first contact, to the rounding of the declarations that were sent. -/
abbrev FrameTrue (printer : ZPrinter) (plan : RecoveryPlan) (top : ℚ) (trace : Events) : Prop :=
  FrameHeld printer plan top (TrueFrame top (10 / 1000000)) trace

theorem formulaOf_planned (h : Planned inputs config plan ctx mesh) :
    formulaOf plan = some ctx.formula := by
  obtain ⟨declare, hdeclare, hdeclareEq⟩ := @Planned.mem_steps _ _ _ _ _ h (stepTrueZDeclare ctx) (by
    simp [stepsInOrder])
  have hphase : declare.phase = .trueZDeclare := by rw [hdeclareEq]; rfl
  have hcompute : declare.compute = some (.trueZ ctx.formula) := by rw [hdeclareEq]; rfl
  have hfound := h.stepIn?_eq hdeclare
  rw [hphase] at hfound
  rw [formulaOf, hfound, Option.bind_some, hcompute]

/-- In a completed run the frame stays true when the probe triggered where the last layer was
believed to be in the shifted frame. -/
theorem execute_planned_frame (h : planRecovery inputs config = .ok (.plan plan))
    (hformula : formulaOf plan = some formula) (htop : formula.zPrevTop = .fin top)
    (hreports : ReportsZ w printer formula) {n : ℕ} (hdone : (execute w plan).1 = .completed n)
    (htrigger : ∀ pc kc, (zAfter printer (execute w plan).2.trace).contact = some (pc, kc) →
      kc = top) :
    FrameTrue printer plan top (execute w plan).2.trace := by
  obtain ⟨ctx, mesh, hplanned⟩ := planRecovery_plan h
  rw [formulaOf_planned hplanned, Option.some.injEq] at hformula
  subst hformula
  obtain ⟨hheld, -, hcontact⟩ := execute_frame hplanned hreports htop hdone
  refine ⟨hheld.declared, fun past hpast hsent => (hheld.final past hpast hsent).trueFrame ?_⟩
  rw [hcontact past hpast hsent]
  exact htrigger

end Plans

section Example

/-- What a printer reports at a Z and a trigger of the touch, beside what a plan expects. -/
def frameStatus (k : F64) (trigger : Value) : Value := .obj [
  (lit "toolhead", .obj [(lit "position", .arr [.num 55, .num 50, .num k]),
    (lit "homed_axes", .str (lit "xyz")), (lit "max_accel", .num 100)]),
  (lit "plr", .obj [(lit "last_touch_result", .obj [(lit "range", .num 0),
    (lit "samples_used", .num 3), (lit "median_z", trigger)])]),
  (lit "extruder", .obj [(lit "target", .num 145), (lit "temperature", .num 145)]),
  (lit "heater_bed", .obj [(lit "target", .num 60)]),
  (lit "idle_timeout", .obj [(lit "idle_timeout", .num 86400),
    (lit "state", .str (lit "Printing"))]),
  (lit "stepper_enable", .obj [(lit "steppers", .obj [(lit "stepper_z", .bool true)])]),
  (lit "gcode_move", .obj [(lit "speed_factor", .num 1), (lit "extrude_factor", .num 1)]),
  (lit "virtual_sdcard", .obj [(lit "is_active", .bool true)])]

/-- The trigger of a probe without an offset. -/
def triggerValue : Option (ℚ × ℚ) → Value
  | some (_, k) => .num (.fin k)
  | none => .null

def frameWorld (printer : ZPrinter) : World where
  query past _ :=
    .ok (frameStatus (.fin (zAfter printer past).k) (triggerValue (zAfter printer past).contact))
  polls _ _ := 0
  gate _ _ := true
  confirm _ _ := .continue
  previewAnswers := []
  recheck _ := .ok ()
  arm _ _ := .ok ()
  script _ _ := none
  writeFor _ _ := .ok ()

/-- The lift before homing by 5, the lift before the reheat by 2, and a probe that descends by
`d` and retracts by 2. -/
def descending (d : ℚ) : ZPrinter where
  p := 10
  k := 0
  moves _ text :=
    if text = lit "G1 Z5 F6000" then 5
    else if firstWord text = lit "G1" || isProbe text then 2 else 0
  descends _ _ := -d

theorem reportsZ_frameWorld (printer : ZPrinter) (top : F64) (adjust : Option F64) :
    ReportsZ (frameWorld printer) printer ⟨top, .touchResult 0, adjust⟩ := by
  constructor
  · rintro past v ⟨status, value, hquery, hlookup, hnum⟩
    obtain rfl := Except.ok.inj hquery
    have hfound : ∀ k trigger, (frameStatus k trigger).lookup (lit "toolhead") (lit "position.2") =
        some (.num k) := fun _ _ => rfl
    rw [hfound, Option.some.injEq] at hlookup
    subst hlookup
    exact (Option.some.inj hnum).symm
  · rintro past v pc kc offset hcontact hoffset ⟨status, value, hquery, hlookup, hnum⟩
    obtain rfl := Except.ok.inj hquery
    have hfound : ∀ k trigger, (frameStatus k trigger).lookup (lit "plr")
        (lit "last_touch_result.median_z") = some trigger := fun _ _ => rfl
    obtain rfl : 0 = offset := F64.fin.inj hoffset
    have hsource : Value.lookup (frameStatus (.fin (zAfter printer past).k)
        (triggerValue (zAfter printer past).contact)) (lit "plr")
        (lit "last_touch_result.median_z") = some value := hlookup
    rw [hfound, hcontact, Option.some.injEq] at hsource
    subst hsource
    rw [sub_zero]
    exact (Option.some.inj hnum).symm

/-- The formula of a plan, the outcome of its run and the Z the run ends at. -/
def frameRun (inputs : PlanInputs) (config : PlanConfig) (printer : ZPrinter) :
    Option (Option TrueZFormula × ExecOutcome × ZState) :=
  match planRecovery inputs config with
  | .ok (.plan plan) =>
      let run := execute (frameWorld printer) plan
      some (formulaOf plan, run.1, zAfter printer run.2.trace)
  | _ => none

theorem frameRun_eq_some {inputs : PlanInputs} {config : PlanConfig} {printer : ZPrinter}
    {formula : Option TrueZFormula} {outcome : ExecOutcome} {z : ZState}
    (h : frameRun inputs config printer = some (formula, outcome, z)) :
    ∃ plan, planRecovery inputs config = .ok (.plan plan) ∧ formulaOf plan = formula ∧
      (execute (frameWorld printer) plan).1 = outcome ∧
      zAfter printer (execute (frameWorld printer) plan).2.trace = z := by
  unfold frameRun at h
  split at h
  · rename_i plan hplan
    obtain ⟨rfl, hrun⟩ := Prod.mk.inj (Option.some.inj h)
    obtain ⟨rfl, rfl⟩ := Prod.mk.inj hrun
    exact ⟨plan, hplan, rfl, rfl, rfl⟩
  · cases h

/-- A park above the point that is probed. -/
def frameConfig : PlanConfig :=
  { PlanConfig.default with reheatParkX := some 55, reheatParkY := some 50 }

/-- The same printer with a rail that ends higher, so that the last layer is within the reach of
the shifted frame. -/
def raisedInputs : PlanInputs :=
  { exampleInputs with machine := { exampleMachine with zPositionMin := some 1 } }

/-- The probe triggers at 2, where the last layer was believed to be. -/
theorem execute_planned_frame_raised : ∃ plan,
    planRecovery raisedInputs frameConfig = .ok (.plan plan) ∧
      FrameTrue (descending (1 / 20)) plan 2
        (execute (frameWorld (descending (1 / 20))) plan).2.trace := by
  have hrun : frameRun raisedInputs frameConfig (descending (1 / 20)) =
      some (some ⟨2, .touchResult 0, none⟩, .completed 17, ⟨379 / 20, 6, some (299 / 20, 2)⟩) := by
    decide +kernel
  obtain ⟨plan, hplan, hformula, hdone, hz⟩ := frameRun_eq_some hrun
  refine ⟨plan, hplan, execute_planned_frame hplan hformula rfl (reportsZ_frameWorld _ _ _) hdone ?_⟩
  rw [hz]
  rintro pc kc ⟨⟩
  rfl

/-- The last layer was believed at 2 and the probe triggers at 0.25 of the shifted frame: the second
declaration raises the frame by 1.75 mm. -/
theorem finalDeclare_moves_frame : ∃ plan,
    planRecovery exampleInputs frameConfig = .ok (.plan plan) ∧
      (execute (frameWorld (descending (4 / 5))) plan).1 = .completed 17 ∧
      ReportsZ (frameWorld (descending (4 / 5))) (descending (4 / 5)) ⟨2, .touchResult 0, none⟩ ∧
      formulaOf plan = some ⟨2, .touchResult 0, none⟩ ∧
      ¬ FrameTrue (descending (4 / 5)) plan 2
        (execute (frameWorld (descending (4 / 5))) plan).2.trace := by
  have hrun : frameRun exampleInputs frameConfig (descending (4 / 5)) =
      some (some ⟨2, .touchResult 0, none⟩, .completed 17,
        ⟨91 / 5, 31 / 4, some (71 / 5, 1 / 4)⟩) := by
    decide +kernel
  obtain ⟨plan, hplan, hformula, hdone, hz⟩ := frameRun_eq_some hrun
  have hreports := reportsZ_frameWorld (descending (4 / 5)) 2 none
  refine ⟨plan, hplan, hdone, hreports, hformula, fun hframe => ?_⟩
  obtain ⟨ctx, mesh, hplanned⟩ := planRecovery_plan hplan
  have hctx := Option.some.inj ((formulaOf_planned hplanned).symm.trans hformula)
  have htop : ctx.formula.zPrevTop = .fin 2 := by rw [hctx]; rfl
  obtain ⟨-, hsent, -⟩ := execute_frame hplanned (hctx ▸ hreports) htop hdone
  obtain ⟨pc, kc, hcontact, hle⟩ := hframe.final _ (List.prefix_refl _) hsent
  rw [hz] at hcontact hle
  obtain ⟨rfl, rfl⟩ := Prod.mk.inj (Option.some.inj hcontact)
  norm_num at hle

end Example

end DeadReckoning.Execution
