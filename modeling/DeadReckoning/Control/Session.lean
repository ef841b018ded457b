import DeadReckoning.Control.Server

/-! The situations of the session, and what each handler and each execution can do in them. -/
namespace DeadReckoning.Control

open Runs Execution

section Situations

/-- An execution under the handler that drives the session: its one open pause is still queued. -/
def Exec.Driven (e : Exec) : Prop :=
  match e.status with
  | .running => e.channel = []
  | .paused notice none => e.channel = [notice]
  | .paused _ (some _) => e.channel = []
  | _ => e.channel.length ≤ 1

/-- An execution left alone with its question: it is paused on it or over with it. -/
def Exec.Left (e : Exec) (outstanding : Option PauseNotice) : Prop :=
  e.channel = [] ∧ match e.status with
    | .running => False
    | .paused notice none => outstanding = some notice
    | .paused _ (some _) => False
    | _ => True

theorem Exec.Driven.length_le {e : Exec} (h : e.Driven) : e.channel.length ≤ 1 := by
  cases hs : e.status with
  | paused notice answer => cases answer <;> simp_all [Exec.Driven]
  | _ => simp_all [Exec.Driven]

def OthersFinished (execs : List Exec) (i : ℕ) : Prop :=
  ∀ (j : ℕ) (e : Exec), execs[j]? = some e → j ≠ i → e.isFinished = true

/-- The four situations of the session. -/
inductive Situated : List Exec → Option ExecSession → Option Holder → Prop where
  | idle {execs : List Exec} (hall : ∀ e ∈ execs, e.isFinished = true) : Situated execs none none
  | pipelining {execs : List Exec} {request : ℕ} {ask : Bool}
      (hall : ∀ e ∈ execs, e.isFinished = true) :
      Situated execs none (some (.pipeline request ask))
  | driving {execs : List Exec} {request i : ℕ} {e : Exec} (hexec : execs[i]? = some e)
      (he : e.Driven) (hothers : OthersFinished execs i) :
      Situated execs (some ⟨i, none⟩) (some (.driving request))
  | waiting {execs : List Exec} {i : ℕ} {e : Exec} {outstanding : Option PauseNotice}
      (hexec : execs[i]? = some e) (he : e.Left outstanding) (hothers : OthersFinished execs i) :
      Situated execs (some ⟨i, outstanding⟩) none

namespace OthersFinished

variable {execs : List Exec} {i : ℕ}

theorem set (h : OthersFinished execs i) (e : Exec) : OthersFinished (execs.set i e) i := by
  intro j f hf hj
  rw [List.getElem?_set_ne (Ne.symm hj)] at hf
  exact h j f hf hj

theorem all (h : OthersFinished execs i) {e : Exec} (hexec : execs[i]? = some e)
    (he : e.isFinished = true) : ∀ f ∈ execs, f.isFinished = true := by
  intro f hf
  obtain ⟨j, hj⟩ := List.mem_iff_getElem?.mp hf
  by_cases hij : j = i
  · have : f = e := by simpa [hij, hexec] using hj.symm
    exact this ▸ he
  · exact h j f hj hij

theorem append (h : ∀ e ∈ execs, e.isFinished = true) (e : Exec) :
    OthersFinished (execs ++ [e]) execs.length := by
  intro j f hf hj
  have hlt : j < execs.length := by
    have := (List.getElem?_eq_some_iff.mp hf).1
    simp at this
    omega
  rw [List.getElem?_append_left hlt] at hf
  exact h f (List.mem_of_getElem? hf)

end OthersFinished

theorem getElem?_set_of_some {execs : List Exec} {i : ℕ} {e : Exec} (h : execs[i]? = some e)
    (f : Exec) : (execs.set i f)[i]? = some f := by
  have := (List.getElem?_eq_some_iff.mp h).1
  simp [this]

namespace Situated

variable {execs : List Exec} {session : Option ExecSession} {lock : Option Holder}
  {i : ℕ} {e : Exec}

/-- An execution that is not over is the one of the session. -/
theorem of_alive (h : Situated execs session lock) (hexec : execs[i]? = some e)
    (halive : e.isFinished = false) :
    (∃ request, session = some ⟨i, none⟩ ∧ lock = some (.driving request) ∧ e.Driven ∧
        OthersFinished execs i) ∨
      (∃ outstanding, session = some ⟨i, outstanding⟩ ∧ lock = none ∧ e.Left outstanding ∧
        OthersFinished execs i) := by
  cases h with
  | idle hall => simp [hall e (List.mem_of_getElem? hexec)] at halive
  | pipelining hall => simp [hall e (List.mem_of_getElem? hexec)] at halive
  | @driving request j f hf hd ho =>
    have hij : i = j := by
      by_contra hne
      simp [ho i e hexec hne] at halive
    subst hij
    have : f = e := by simpa [hexec] using hf.symm
    exact .inl ⟨request, rfl, rfl, this ▸ hd, ho⟩
  | @waiting j f outstanding hf hl ho =>
    have hij : i = j := by
      by_contra hne
      simp [ho i e hexec hne] at halive
    subst hij
    have : f = e := by simpa [hexec] using hf.symm
    exact .inr ⟨outstanding, rfl, rfl, this ▸ hl, ho⟩

/-- An execution that stops or ends keeps the situation, with what it sent. -/
theorem settle (h : Situated execs session lock) (hexec : execs[i]? = some e)
    (halive : e.isFinished = false) {status : ExecStatus}
    (hstatus : status = .stopping ∨ ∃ exit, status = .finished exit) :
    Situated (execs.set i { e with status := status }) session lock := by
  rcases h.of_alive hexec halive with ⟨request, rfl, rfl, hd, ho⟩ | ⟨outstanding, rfl, rfl, hl, ho⟩
  · refine .driving (getElem?_set_of_some hexec _) ?_ (ho.set _)
    rcases hstatus with rfl | ⟨exit, rfl⟩ <;> exact hd.length_le
  · refine .waiting (getElem?_set_of_some hexec _) ⟨hl.1, ?_⟩ (ho.set _)
    rcases hstatus with rfl | ⟨exit, rfl⟩ <;> trivial

/-- Two executions that are not over are one. -/
theorem alive_unique (h : Situated execs session lock) {j : ℕ} {f : Exec}
    (hi : execs[i]? = some e) (hj : execs[j]? = some f) (he : e.isFinished = false)
    (hf : f.isFinished = false) : i = j := by
  have hothers : OthersFinished execs i := by
    rcases h.of_alive hi he with ⟨_, _, _, _, ho⟩ | ⟨_, _, _, _, ho⟩ <;> exact ho
  by_contra hne
  simp [hothers j f hj (Ne.symm hne)] at hf

end Situated

end Situations

section Handlers

namespace CtrlState

variable {s t : CtrlState} {request : ℕ}

theorem recoverExecute_cases {args : ExecuteArgs} (h : s.recoverExecute request args = t) :
    (∃ outcome text, t = s.respond request (.error outcome text)) ∨
      ∃ ask, s.lock = none ∧ s.sessionAlive = false ∧
        t = { s with
          session := none
          observed := some ⟨s.clock, none⟩
          lock := some (.pipeline request ask) } := by
  subst h
  unfold recoverExecute
  split
  · exact .inl ⟨_, _, rfl⟩
  · rename_i ask _
    by_cases hl : s.lock.isSome = true
    · exact .inl ⟨_, _, if_pos hl⟩
    by_cases ha : s.sessionAlive = true
    · exact .inl ⟨_, _, (if_neg hl).trans (if_pos ha)⟩
    exact .inr ⟨ask, by simpa using hl, by simpa using ha, (if_neg hl).trans (if_neg ha)⟩

/-- The answer goes to the one execution that is still paused on the notice. -/
theorem sendAnswer_some {notice : PauseNotice} {args : ConfirmArgs} {answer : PauseAnswer}
    (h : s.sendAnswer notice args answer = some t) :
    ∃ ask open_ channel, s.execs[notice.exec]? = some ⟨ask, .paused open_ none, channel⟩ ∧
      open_.id = notice.id ∧
      t = { s.setExec notice.exec ⟨ask, .paused open_ (some answer), channel⟩ with
        answers := s.answers ++ [⟨notice.id, args, answer⟩] } := by
  unfold sendAnswer at h
  split at h
  · rename_i ask open_ channel hexec
    by_cases hid : open_.id = notice.id
    · rw [if_pos hid] at h
      exact ⟨ask, open_, channel, hexec, hid, (Option.some.inj h).symm⟩
    · rw [if_neg hid] at h
      cases h
  · cases h

theorem sendAnswer_none {notice : PauseNotice} {args : ConfirmArgs} {answer : PauseAnswer}
    (h : s.sendAnswer notice args answer = none) (ask : Bool) (channel : List PauseNotice) :
    s.execs[notice.exec]? ≠ some ⟨ask, .paused notice none, channel⟩ := by
  intro hexec
  simp [sendAnswer, hexec] at h

/-- The outstanding question, where the request may answer it. -/
structure Answers (s : CtrlState) (args : ConfirmArgs) (sess : ExecSession) (notice : PauseNotice)
    (answer : PauseAnswer) : Prop where
  free : s.lock = none
  session : s.session = some sess
  outstanding : sess.outstanding = some notice
  token : args.token = some notice.token
  verb : parseAnswer notice.kind args = .ok answer

/-- The session once its question is taken. -/
def take (s : CtrlState) (sess : ExecSession) : CtrlState :=
  { s with session := some { sess with outstanding := none } }

theorem isVerb_of_parseAnswer {kind : ConfirmKind} {args : ConfirmArgs} {answer : PauseAnswer}
    (h : parseAnswer kind args = .ok answer) : isVerb args.answer = true := by
  unfold parseAnswer at h
  split at h
  · split at h
    · rename_i preview hp
      unfold parsePreviewAnswer at hp
      cases hverb : args.answer with
      | none => simp [hverb] at hp
      | some verb =>
        simp only [hverb] at hp
        simp only [isVerb, Option.any_some]
        grind
    · cases h
  · simp only [isVerb]
    grind

theorem recoverConfirm_cases {args : ConfirmArgs} (h : s.recoverConfirm request args = t) :
    ((∃ outcome text, t = s.respond request (.error outcome text)) ∧
        ∀ sess notice answer, ¬s.Answers args sess notice answer) ∨
      ∃ sess notice answer, s.Answers args sess notice answer ∧
        (((s.take sess).sendAnswer notice args answer = none ∧
            ∃ text, t = (s.take sess).respond request (.error "unknown-token" text)) ∨
          ∃ sent, (s.take sess).sendAnswer notice args answer = some sent ∧
            t = { sent with lock := some (.driving request) }) := by
  subst h
  unfold recoverConfirm
  cases htoken : args.token with
  | none =>
    refine .inl ⟨⟨_, _, rfl⟩, ?_⟩
    intro sess notice answer hans
    simp [hans.token] at htoken
  | some token =>
    dsimp only
    by_cases hverb : isVerb args.answer = true
    swap
    · refine .inl ⟨⟨_, _, if_pos (by simpa using hverb)⟩, ?_⟩
      exact fun _ _ _ hans => hverb (isVerb_of_parseAnswer hans.verb)
    rw [if_neg (by simp [hverb])]
    by_cases hl : s.lock.isSome = true
    · refine .inl ⟨⟨_, _, if_pos hl⟩, ?_⟩
      intro sess notice answer hans
      simp [hans.free] at hl
    rw [if_neg hl]
    cases hs : s.session with
    | none =>
      refine .inl ⟨⟨_, _, rfl⟩, ?_⟩
      intro sess notice answer hans
      simp [hans.session] at hs
    | some sess =>
      dsimp only
      cases ho : sess.outstanding with
      | none =>
        refine .inl ⟨⟨_, _, rfl⟩, ?_⟩
        intro sess' notice answer hans
        obtain rfl : sess' = sess := by simpa [hans.session] using hs
        simp [hans.outstanding] at ho
      | some notice =>
        dsimp only
        by_cases htok : notice.token = token
        swap
        · refine .inl ⟨⟨_, _, if_pos htok⟩, ?_⟩
          intro sess' notice' answer hans
          obtain rfl : sess' = sess := by simpa [hans.session] using hs
          obtain rfl : notice' = notice := by simpa [hans.outstanding] using ho
          exact htok (by simpa [hans.token] using htoken)
        rw [if_neg (not_not_intro htok)]
        cases hp : parseAnswer notice.kind args with
        | error text =>
          refine .inl ⟨⟨_, _, rfl⟩, ?_⟩
          intro sess' notice' answer hans
          obtain rfl : sess' = sess := by simpa [hans.session] using hs
          obtain rfl : notice' = notice := by simpa [hans.outstanding] using ho
          simp [hans.verb] at hp
        | ok answer =>
          refine .inr ⟨sess, notice, answer, ⟨by simpa using hl, hs, ho, by rw [htoken, htok], hp⟩, ?_⟩
          cases hsend : (s.take sess).sendAnswer notice args answer with
          | none =>
            refine .inl ⟨rfl,
              "the confirmation timed out before the answer arrived; the recovery aborted", ?_⟩
            simp only [take] at hsend ⊢
            simp only [hsend]
          | some sent =>
            refine .inr ⟨sent, rfl, ?_⟩
            simp only [take] at hsend
            simp only [hsend]

theorem drive_cases (h : s.drive = some t) :
    ∃ req sess e, s.lock = some (.driving req) ∧ s.session = some sess ∧
      s.execs[sess.exec]? = some e ∧
      ((∃ notice rest, e.channel = notice :: rest ∧
          t = { s.setExec sess.exec { e with channel := rest } with
            session := some { sess with outstanding := some notice }
            lock := none }.respond req
              (.awaitingConfirmation notice (notice.deadline - (s.clock - notice.raisedAt)))) ∨
        (∃ exit, e.channel = [] ∧ e.status = .finished exit ∧
          t = { s with session := none, lock := none }.respond req (.done exit))) := by
  unfold drive at h
  split at h
  · rename_i req sess hl hs
    cases he : s.execs[sess.exec]? with
    | none => simp [he] at h
    | some e =>
      refine ⟨req, sess, e, hl, hs, he, ?_⟩
      simp only [he] at h
      cases hc : e.channel with
      | cons notice rest =>
        simp only [hc] at h
        exact .inl ⟨notice, rest, rfl, (Option.some.inj h).symm⟩
      | nil =>
        simp only [hc] at h
        split at h
        · rename_i exit hst
          exact .inr ⟨exit, rfl, hst, (Option.some.inj h).symm⟩
        · cases h
  · cases h

end CtrlState

end Handlers

section Moves

/-- A mirror that shows no pause the other does not. -/
def Dims (shown before : Option LiveExecution) : Prop :=
  ∀ live notice, shown = some live → live.pause = some notice →
    ∃ old, before = some old ∧ old.pause = some notice

theorem dims_refl (shown : Option LiveExecution) : Dims shown shown :=
  fun live _ hs hp => ⟨live, hs, hp⟩

theorem dims_clear (shown : Option LiveExecution) :
    Dims (shown.map fun live => { live with pause := none }) shown := by
  intro live notice hs hp
  obtain ⟨old, -, rfl⟩ := Option.map_eq_some_iff.mp hs
  cases hp

theorem dims_none (shown : Option LiveExecution) : Dims none shown := by
  intro live notice hs
  cases hs

/-- What an execution does on its own. -/
inductive Move (s : CtrlState) (i : ℕ) (t : CtrlState) : Prop where
  /-- It stops or ends. -/
  | settled (e : Exec) (status : ExecStatus) (observed : Option LiveExecution)
      (hexec : s.execs[i]? = some e) (halive : e.isFinished = false)
      (hstatus : status = .stopping ∨ ∃ exit, status = .finished exit)
      (hdims : Dims observed s.observed)
      (ht : t = { s.setExec i { e with status := status } with observed := observed })
  /-- It takes its answer and goes on. -/
  | resumed (e : Exec) (notice : PauseNotice) (answer : PauseAnswer)
      (hexec : s.execs[i]? = some e) (hpaused : e.status = .paused notice (some answer))
      (ht : t = s.clearPause.setExec i { e with status := .running })
  /-- It raises a pause, sent to the handler that drives the session. -/
  | raised (request seq : ℕ) (ask : Bool) (notice : PauseNotice)
      (hexec : s.execs[i]? = some ⟨ask, .running, []⟩) (hsession : s.session = some ⟨i, none⟩)
      (hlock : s.lock = some (.driving request)) (hid : notice.id = s.raised.length)
      (hi : notice.exec = i)
      (ht : t = { (s.publishPause notice).setExec i ⟨ask, .paused notice none, [notice]⟩ with
        tokenSeq := seq
        raised := s.raised ++ [notice] })

namespace CtrlState

variable {s t : CtrlState} {i : ℕ}

theorem afterAnswer_eq (kind : ConfirmKind) (answer : PauseAnswer) :
    afterAnswer kind answer = .running ∨ afterAnswer kind answer = .stopping := by
  unfold afterAnswer
  split <;> first
    | exact .inr rfl
    | (split <;> simp)

theorem raise_move (hsit : Situated s.execs s.session s.lock) {nanos : ℕ} {point : RaisedPoint}
    (h : s.raise i nanos point = some t) : Move s i t := by
  unfold raise at h
  split at h
  · rename_i ask channel hexec
    by_cases hask : (!ask) = true
    · rw [if_pos hask] at h
      exact .settled _ .stopping s.observed hexec rfl (.inl rfl) (dims_refl _)
        (Option.some.inj h).symm
    rw [if_neg hask] at h
    rcases hsit.of_alive hexec rfl with ⟨request, hs, hl, hd, -⟩ | ⟨out, hs, hl, hleft, -⟩
    · have hchannel : channel = [] := hd
      subst hchannel
      simp only [hs, Option.any_some, decide_true, ↓reduceIte, List.isEmpty_nil] at h
      exact .raised request (s.tokenSeq + 1) ask _ hexec hs hl rfl rfl (Option.some.inj h).symm
    · exact hleft.2.elim
  · cases h

theorem wake_move (hsit : Situated s.execs s.session s.lock) (h : s.wake i = some t) :
    Move s i t := by
  unfold wake at h
  split at h
  · rename_i ask notice answer channel hexec
    have ht := (Option.some.inj h).symm
    rcases afterAnswer_eq notice.kind answer with hgo | hstop
    · rw [hgo] at ht
      exact .resumed _ notice answer hexec rfl ht
    · rw [hstop] at ht
      exact .settled _ .stopping _ hexec rfl (.inl rfl) (dims_clear _) ht
  · rename_i ask notice channel hexec
    -- The sender of an unanswered pause is in the channel or in the session.
    have hsender : s.hasSender ⟨ask, .paused notice none, channel⟩ notice = true := by
      rcases hsit.of_alive hexec rfl with ⟨request, hs, hl, hd, -⟩ | ⟨out, hs, hl, hleft, -⟩
      · have hchannel : channel = [notice] := hd
        simp [hasSender, hchannel]
      · have hout : out = some notice := hleft.2
        simp [hasSender, hs, hout]
    rw [if_pos hsender] at h
    cases h
  · cases h

theorem lapse_move (h : s.lapse i = some t) : Move s i t := by
  unfold lapse at h
  split at h
  · rename_i hexec
    exact .settled _ .stopping s.observed hexec rfl (.inl rfl) (dims_refl _)
      (Option.some.inj h).symm
  · cases h

theorem complete_move {exit : ℕ} (h : s.complete i exit = some t) : Move s i t := by
  unfold complete at h
  split at h
  · rename_i hexec
    exact .settled _ (.finished exit) none hexec rfl (.inr ⟨exit, rfl⟩) (dims_none _)
      (Option.some.inj h).symm
  · rename_i hexec
    exact .settled _ (.finished exit) none hexec rfl (.inr ⟨exit, rfl⟩) (dims_none _)
      (Option.some.inj h).symm
  · cases h

end CtrlState

/-- An execution waits on a pause it raised. -/
def Placed (execs : List Exec) (raised : List PauseNotice) : Prop :=
  ∀ (i : ℕ) (e : Exec) (notice : PauseNotice) (answer : Option PauseAnswer),
    execs[i]? = some e → e.status = .paused notice answer → notice ∈ raised ∧ notice.exec = i

theorem Situated.move {s t : CtrlState} {i : ℕ} (h : Situated s.execs s.session s.lock)
    (hmove : Move s i t) : Situated t.execs t.session t.lock := by
  cases hmove with
  | settled e status observed hexec halive hstatus _ ht =>
    subst ht
    exact h.settle hexec halive hstatus
  | resumed e notice answer hexec hpaused ht =>
    subst ht
    have halive : e.isFinished = false := by simp [Exec.isFinished, hpaused]
    rcases h.of_alive hexec halive with ⟨request, hs, hl, hd, ho⟩ | ⟨out, hs, hl, hleft, ho⟩
    · have hchannel : e.channel = [] := by simpa [Exec.Driven, hpaused] using hd
      show Situated (s.execs.set i { e with status := .running }) s.session s.lock
      rw [hs, hl]
      exact .driving (getElem?_set_of_some hexec _) hchannel (ho.set _)
    · simp [Exec.Left, hpaused] at hleft
  | raised request seq ask notice hexec hsession hlock _ _ ht =>
    subst ht
    have ho : OthersFinished s.execs i := by
      rcases h.of_alive hexec rfl with ⟨_, _, _, _, ho⟩ | ⟨_, _, _, _, ho⟩ <;> exact ho
    show Situated (s.execs.set i ⟨ask, .paused notice none, [notice]⟩) s.session s.lock
    rw [hsession, hlock]
    exact .driving (getElem?_set_of_some hexec _) rfl (ho.set _)

namespace CtrlState

variable {s t : CtrlState} {request : ℕ}

theorem finished_of_not_alive (hsit : Situated s.execs s.session s.lock)
    (halive : s.sessionAlive = false) : ∀ e ∈ s.execs, e.isFinished = true := by
  intro e he
  obtain ⟨i, hexec⟩ := List.mem_iff_getElem?.mp he
  by_contra hne
  have hrun : e.isFinished = false := by simpa using hne
  rcases hsit.of_alive hexec hrun with ⟨_, hs, _, _, _⟩ | ⟨_, hs, _, _, _⟩
  · simp [sessionAlive, hs, hexec, hrun] at halive
  · simp [sessionAlive, hs, hexec, hrun] at halive

theorem recoverExecute_situated {args : ExecuteArgs} (hsit : Situated s.execs s.session s.lock)
    (h : s.recoverExecute request args = t) : Situated t.execs t.session t.lock := by
  rcases recoverExecute_cases h with ⟨outcome, text, rfl⟩ | ⟨ask, hl, halive, rfl⟩
  · exact hsit
  · have hall := finished_of_not_alive hsit halive
    exact .pipelining hall

theorem pipelineDone_cases {result : PipelineResult} (h : s.pipelineDone result = some t) :
    ∃ req ask, s.lock = some (.pipeline req ask) ∧
      ((result = .plan ∧ t = { s with
          execs := s.execs ++ [⟨ask, .running, []⟩]
          session := some ⟨s.execs.length, none⟩
          lock := some (.driving req) }) ∨
        ∃ response, (∀ notice left, response ≠ .awaitingConfirmation notice left) ∧
          t = { s with observed := none, lock := none }.respond req response) := by
  unfold pipelineDone at h
  split at h
  · rename_i req ask hl
    refine ⟨req, ask, hl, ?_⟩
    cases result with
    | plan => exact .inl ⟨rfl, (Option.some.inj h).symm⟩
    | noPlan tag => exact .inr ⟨_, fun _ _ => by simp, (Option.some.inj h).symm⟩
    | failed text => exact .inr ⟨_, fun _ _ => by simp, (Option.some.inj h).symm⟩
  · cases h

theorem pipelineDone_situated {result : PipelineResult} (hsit : Situated s.execs s.session s.lock)
    (h : s.pipelineDone result = some t) : Situated t.execs t.session t.lock := by
  obtain ⟨req, ask, hl, hcases⟩ := pipelineDone_cases h
  rw [hl] at hsit
  generalize hsession : s.session = session at hsit
  cases hsit with
  | pipelining hall =>
    rcases hcases with ⟨-, rfl⟩ | ⟨response, -, rfl⟩
    · exact @Situated.driving _ req s.execs.length ⟨ask, .running, []⟩ (by simp) rfl
        (OthersFinished.append hall _)
    · show Situated s.execs s.session none
      rw [hsession]
      exact .idle hall

theorem recoverConfirm_situated {args : ConfirmArgs} (hsit : Situated s.execs s.session s.lock)
    (hplaced : Placed s.execs s.raised) (h : s.recoverConfirm request args = t) :
    Situated t.execs t.session t.lock := by
  rcases recoverConfirm_cases h with ⟨⟨outcome, text, rfl⟩, -⟩ | ⟨sess, notice, answer, hans, hsent⟩
  · exact hsit
  have hfree := hans.free
  have hout := hans.outstanding
  rw [hfree, hans.session] at hsit
  cases hsit with
  | @waiting i e out hexec hleft hothers =>
    obtain ⟨ask, status, channel⟩ := e
    rcases hsent with ⟨hnone, text, rfl⟩ | ⟨sent, hsome, rfl⟩
    · -- The question is gone from the execution too, or the answer would have reached it.
      have hleft' : Exec.Left ⟨ask, status, channel⟩ none := by
        refine ⟨hleft.1, ?_⟩
        match status, hleft, hexec with
        | .paused open_ none, hleft, hexec =>
          have hopen : some notice = some open_ := hout.symm.trans hleft.2
          obtain rfl : notice = open_ := Option.some.inj hopen
          have hi := (hplaced i _ _ _ hexec rfl).2
          exact absurd (hi ▸ hexec) (sendAnswer_none hnone ask channel)
        | .paused _ (some _), hleft, _ => exact hleft.2.elim
        | .running, hleft, _ => exact hleft.2.elim
        | .stopping, _, _ => trivial
        | .finished _, _, _ => trivial
      show Situated s.execs (some ⟨i, none⟩) s.lock
      rw [hfree]
      exact .waiting hexec hleft' hothers
    · obtain ⟨ask', open_, channel', hopen, hid, rfl⟩ := sendAnswer_some hsome
      have hi : notice.exec = i := by
        by_contra hne
        cases hothers notice.exec _ hopen hne
      show Situated (s.execs.set notice.exec ⟨ask', .paused open_ (some answer), channel'⟩)
        (some ⟨i, none⟩) (some (.driving request))
      have hopen' : s.execs[i]? = some ⟨ask', .paused open_ none, channel'⟩ := hi ▸ hopen
      have hsame := Option.some.inj (hexec.symm.trans hopen')
      have hchannel : channel' = [] := by
        have := hleft.1
        simp_all
      rw [hi]
      exact .driving (getElem?_set_of_some hopen' _) hchannel (hothers.set _)

theorem drive_situated (hsit : Situated s.execs s.session s.lock) (h : s.drive = some t) :
    Situated t.execs t.session t.lock := by
  obtain ⟨req, sess, e, hl, hs, hexec, hcases⟩ := drive_cases h
  rw [hl, hs] at hsit
  cases hsit with
  | @driving _ i f hf hd ho =>
    obtain rfl : f = e := Option.some.inj (hf.symm.trans hexec)
    rcases hcases with ⟨notice, rest, hchannel, rfl⟩ | ⟨exit, hchannel, hstatus, rfl⟩
    · -- Nothing is left in the channel, and an unanswered pause is the one received.
      have hleft : Exec.Left { f with channel := rest } (some notice) := by
        cases hst : f.status with
        | paused open_ answer => cases answer <;> simp_all [Exec.Left, Exec.Driven]
        | _ => simp_all [Exec.Left, Exec.Driven]
      exact .waiting (getElem?_set_of_some hexec _) hleft (ho.set _)
    · refine .idle (ho.all hf ?_)
      simp [Exec.isFinished, hstatus]

end CtrlState

end Moves

end DeadReckoning.Control
