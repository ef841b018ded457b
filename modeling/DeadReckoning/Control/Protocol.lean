import DeadReckoning.Control.Session
import Mathlib.Data.List.Range

/-! What the control socket keeps over every interleaving: one execution at most, every answer asked
for by its token, every pause reported once. -/
namespace DeadReckoning.Control

open Runs Execution

section Logs

/-- The pauses reported to clients, in the order of the responses. -/
def reported (responses : List (ℕ × Response)) : List PauseNotice :=
  responses.filterMap fun response => match response.2 with
    | .awaitingConfirmation notice _ => some notice
    | _ => none

/-- The pauses that wait for the handler of the session. -/
def queued (execs : List Exec) (session : Option ExecSession) : List PauseNotice :=
  match session with
  | none => []
  | some sess => match execs[sess.exec]? with
    | none => []
    | some e => e.channel

theorem reported_append (responses : List (ℕ × Response)) {request : ℕ} {response : Response}
    (h : ∀ notice left, response ≠ .awaitingConfirmation notice left) :
    reported (responses ++ [(request, response)]) = reported responses := by
  unfold reported
  rw [List.filterMap_append]
  cases response with
  | awaitingConfirmation notice left => exact absurd rfl (h notice left)
  | _ => simp

theorem reported_awaiting (responses : List (ℕ × Response)) (request : ℕ) (notice : PauseNotice)
    (left : ℕ) : reported (responses ++ [(request, .awaitingConfirmation notice left)]) =
      reported responses ++ [notice] := by
  simp [reported]

theorem queued_of_some {execs : List Exec} {session : Option ExecSession} {sess : ExecSession}
    {e : Exec} (hs : session = some sess) (he : execs[sess.exec]? = some e) :
    queued execs session = e.channel := by
  simp [queued, hs, he]

theorem queued_set {execs : List Exec} {session : Option ExecSession} {i : ℕ} {e f : Exec}
    (hexec : execs[i]? = some e) (hchannel : f.channel = e.channel) :
    queued (execs.set i f) session = queued execs session := by
  cases session with
  | none => rfl
  | some sess =>
    by_cases hi : i = sess.exec
    · subst hi
      simp [queued, hexec, hchannel, getElem?_set_of_some hexec f]
    · simp [queued, List.getElem?_set_ne hi]

/-- No pause is left in a channel once the session is given up. -/
theorem Situated.queued_nil {execs : List Exec} {session : Option ExecSession}
    (h : Situated execs session none) : queued execs session = [] := by
  cases h with
  | idle hall => rfl
  | waiting hexec he hothers => exact (queued_of_some rfl hexec).trans he.1

/-- What the log of a run keeps. -/
structure Logged (execs : List Exec) (session : Option ExecSession) (raised : List PauseNotice)
    (answers : List Delivery) (responses : List (ℕ × Response)) : Prop where
  reports : reported responses ++ queued execs session = raised
  numbered : raised.map PauseNotice.id = List.range raised.length
  placed : Placed execs raised
  outstanding : ∀ (sess : ExecSession) (notice : PauseNotice), session = some sess →
    sess.outstanding = some notice → notice ∈ raised
  answered : ∀ d ∈ answers, ∃ notice ∈ raised, notice.id = d.pause ∧
    d.args.token = some notice.token ∧ parseAnswer notice.kind d.args = .ok d.answer
  once : (answers.map Delivery.pause).Nodup
  unanswered : ∀ (i : ℕ) (e : Exec) (notice : PauseNotice), execs[i]? = some e →
    e.status = .paused notice none → ∀ d ∈ answers, d.pause ≠ notice.id

theorem getElem?_set_cases {execs : List Exec} {i j : ℕ} {f g : Exec}
    (h : (execs.set i f)[j]? = some g) : (j = i ∧ g = f) ∨ (j ≠ i ∧ execs[j]? = some g) := by
  by_cases hij : j = i
  · subst hij
    have hlt : j < execs.length := by
      have := (List.getElem?_eq_some_iff.mp h).1
      simpa using this
    have hg : g = f := by simpa [hlt] using h.symm
    exact .inl ⟨rfl, hg⟩
  · rw [List.getElem?_set_ne (Ne.symm hij)] at h
    exact .inr ⟨hij, h⟩

namespace Logged

variable {execs : List Exec} {session : Option ExecSession} {raised : List PauseNotice}
  {answers : List Delivery} {responses : List (ℕ × Response)} {i : ℕ} {e : Exec}

theorem respond (h : Logged execs session raised answers responses) {request : ℕ}
    {response : Response} (hresponse : ∀ notice left, response ≠ .awaitingConfirmation notice left) :
    Logged execs session raised answers (responses ++ [(request, response)]) := by
  refine { h with reports := ?_ }
  rw [reported_append responses hresponse]
  exact h.reports

/-- An execution that does not wait on a pause. -/
theorem setStatus (h : Logged execs session raised answers responses)
    (hexec : execs[i]? = some e) {status : ExecStatus}
    (hstatus : ∀ notice answer, status ≠ .paused notice answer) :
    Logged (execs.set i { e with status := status }) session raised answers responses := by
  refine { h with reports := ?_, placed := ?_, unanswered := ?_ }
  · rw [@queued_set execs session i e { e with status := status } hexec rfl]
    exact h.reports
  · intro j f notice answer hf hpaused
    rcases getElem?_set_cases hf with ⟨rfl, rfl⟩ | ⟨-, hf⟩
    · exact absurd hpaused (hstatus notice answer)
    · exact h.placed j f notice answer hf hpaused
  · intro j f notice hf hpaused
    rcases getElem?_set_cases hf with ⟨rfl, rfl⟩ | ⟨-, hf⟩
    · exact absurd hpaused (hstatus notice none)
    · exact h.unanswered j f notice hf hpaused

/-- The session ends, or its question is dropped. -/
theorem forget (h : Logged execs session raised answers responses) {other : Option ExecSession}
    (hqueued : queued execs other = queued execs session)
    (hother : ∀ sess, other = some sess → sess.outstanding = none) :
    Logged execs other raised answers responses := by
  refine { h with reports := ?_, outstanding := ?_ }
  · rw [hqueued]
    exact h.reports
  · intro sess notice hs hn
    simp [hother sess hs] at hn

end Logged

namespace CtrlState

def Logs (s : CtrlState) : Prop :=
  Logged s.execs s.session s.raised s.answers s.responses

variable {s t : CtrlState} {request : ℕ}

theorem move_logs {i : ℕ} (h : s.Logs) (hmove : Move s i t) : t.Logs := by
  cases hmove with
  | settled e status observed hexec _ hstatus _ ht =>
    subst ht
    refine Logged.setStatus h hexec ?_
    rcases hstatus with rfl | ⟨exit, rfl⟩ <;> simp
  | resumed e notice answer hexec _ ht =>
    subst ht
    exact Logged.setStatus h hexec (by simp)
  | raised _ seq ask notice hexec hsession _ hid hi ht =>
    subst ht
    have hqueued : queued s.execs s.session = [] := queued_of_some hsession hexec
    have hreports : reported s.responses = s.raised := by
      have := h.reports
      rwa [hqueued, List.append_nil] at this
    have hnew : queued (s.execs.set i ⟨ask, .paused notice none, [notice]⟩) s.session = [notice] :=
      queued_of_some hsession (getElem?_set_of_some hexec _)
    constructor
    · show reported s.responses ++ queued (s.execs.set i _) s.session = s.raised ++ [notice]
      rw [hnew, hreports]
    · show (s.raised ++ [notice]).map PauseNotice.id = List.range (s.raised ++ [notice]).length
      simp [h.numbered, hid, List.range_succ]
    · intro j f m answer hf hpaused
      rcases getElem?_set_cases hf with ⟨rfl, rfl⟩ | ⟨-, hf⟩
      · obtain ⟨rfl, -⟩ : notice = m ∧ none = answer := by simpa using hpaused
        exact ⟨by simp, hi⟩
      · obtain ⟨hm, hj⟩ := h.placed j f m answer hf hpaused
        exact ⟨List.mem_append_left _ hm, hj⟩
    · intro sess m hs hm
      exact List.mem_append_left _ (h.outstanding sess m hs hm)
    · intro d hd
      obtain ⟨m, hm, hrest⟩ := h.answered d hd
      exact ⟨m, List.mem_append_left _ hm, hrest⟩
    · exact h.once
    · intro j f m hf hpaused d hd
      rcases getElem?_set_cases hf with ⟨rfl, rfl⟩ | ⟨-, hf⟩
      · -- The number is a new one, and only raised pauses were answered.
        obtain rfl : notice = m := by simpa using hpaused
        obtain ⟨m, hm, hid', -⟩ := h.answered d hd
        have hlt : m.id ∈ List.range s.raised.length :=
          h.numbered ▸ List.mem_map_of_mem hm
        rw [List.mem_range] at hlt
        omega
      · exact h.unanswered j f m hf hpaused d hd

theorem recoverExecute_logs {args : ExecuteArgs} (hsit : Situated s.execs s.session s.lock)
    (hlogs : s.Logs) (h : s.recoverExecute request args = t) : t.Logs := by
  rcases recoverExecute_cases h with ⟨outcome, text, rfl⟩ | ⟨ask, hl, -, rfl⟩
  · exact Logged.respond hlogs (by simp)
  · rw [hl] at hsit
    exact Logged.forget hlogs hsit.queued_nil.symm (by simp)

theorem pipelineDone_logs {result : PipelineResult} (hsit : Situated s.execs s.session s.lock)
    (hlogs : s.Logs) (h : s.pipelineDone result = some t) : t.Logs := by
  obtain ⟨req, ask, hl, ⟨-, rfl⟩ | ⟨response, hresponse, rfl⟩⟩ := pipelineDone_cases h
  · have hqueued : queued s.execs s.session = [] := by
      rw [hl] at hsit
      generalize hsession : s.session = session at hsit
      cases hsit
      rfl
    have hold : ∀ (i : ℕ) (e : Exec) (notice : PauseNotice) (answer : Option PauseAnswer),
        (s.execs ++ [⟨ask, .running, []⟩])[i]? = some e → e.status = .paused notice answer →
          s.execs[i]? = some e := by
      intro i e notice answer hexec hpaused
      rcases Nat.lt_or_ge i s.execs.length with hi | hi
      · rwa [List.getElem?_append_left hi] at hexec
      · have : e = ⟨ask, .running, []⟩ := by
          rw [List.getElem?_append_right hi] at hexec
          simpa using List.mem_of_getElem? hexec
        simp [this] at hpaused
    refine { hlogs with reports := ?_, placed := ?_, outstanding := ?_, unanswered := ?_ }
    · have := hlogs.reports
      rw [hqueued] at this
      simpa [queued] using this
    · intro i e notice answer hexec hpaused
      exact hlogs.placed i e notice answer (hold i e notice answer hexec hpaused) hpaused
    · intro sess notice hs hn
      obtain rfl := Option.some.inj hs
      cases hn
    · intro i e notice hexec hpaused
      exact hlogs.unanswered i e notice (hold i e notice none hexec hpaused) hpaused
  · exact Logged.respond hlogs hresponse

theorem recoverConfirm_logs {args : ConfirmArgs} (hsit : Situated s.execs s.session s.lock)
    (hlogs : s.Logs) (h : s.recoverConfirm request args = t) : t.Logs := by
  rcases recoverConfirm_cases h with ⟨⟨outcome, text, rfl⟩, -⟩ | ⟨sess, notice, answer, hans, hsent⟩
  · exact Logged.respond hlogs (by simp)
  have htaken : (s.take sess).Logs := by
    refine Logged.forget hlogs ?_ ?_
    · rw [hans.session]
      rfl
    · intro other hs
      obtain rfl := Option.some.inj hs
      rfl
  rcases hsent with ⟨-, text, rfl⟩ | ⟨sent, hsome, rfl⟩
  · exact Logged.respond htaken (by simp)
  obtain ⟨ask, open_, channel, hopen, hid, rfl⟩ := sendAnswer_some hsome
  have hraised : notice ∈ s.raised := hlogs.outstanding sess notice hans.session hans.outstanding
  unfold Logs
  refine { htaken with reports := ?_, placed := ?_, answered := ?_, once := ?_, unanswered := ?_ }
  · have hsame : queued (s.execs.set notice.exec ⟨ask, .paused open_ (some answer), channel⟩)
        (s.take sess).session = queued s.execs (s.take sess).session := queued_set hopen rfl
    show reported s.responses ++ queued (s.execs.set notice.exec _) (s.take sess).session = s.raised
    rw [hsame]
    exact htaken.reports
  · intro j f m a hf hpaused
    rcases getElem?_set_cases hf with ⟨rfl, rfl⟩ | ⟨-, hf⟩
    · obtain ⟨rfl, -⟩ : open_ = m ∧ some answer = a := by simpa using hpaused
      exact hlogs.placed _ _ open_ none hopen rfl
    · exact hlogs.placed j f m a hf hpaused
  · intro d hd
    rcases List.mem_append.mp hd with hd | hd
    · exact hlogs.answered d hd
    · obtain rfl := List.mem_singleton.mp hd
      exact ⟨notice, hraised, rfl, hans.token, hans.verb⟩
  · show ((s.answers ++ [(⟨notice.id, args, answer⟩ : Delivery)]).map Delivery.pause).Nodup
    rw [List.map_append, List.nodup_append]
    refine ⟨hlogs.once, by simp, ?_⟩
    intro id hmem id' hmem'
    obtain ⟨d, hd, rfl⟩ := List.mem_map.mp hmem
    obtain rfl : id' = notice.id := by simpa using hmem'
    have := hlogs.unanswered notice.exec _ open_ hopen rfl d hd
    rwa [hid] at this
  · intro j f m hf hpaused d hd
    rcases getElem?_set_cases hf with ⟨rfl, rfl⟩ | ⟨hj, hf⟩
    · simp at hpaused
    · -- Another execution waiting on a pause: there is none.
      have hone := hsit.alive_unique hf hopen (by simp [Exec.isFinished, hpaused]) rfl
      exact absurd hone hj

theorem drive_logs (hlogs : s.Logs) (h : s.drive = some t) : t.Logs := by
  obtain ⟨req, sess, e, hl, hs, hexec, hcases⟩ := drive_cases h
  have hqueued := queued_of_some hs hexec
  rcases hcases with ⟨notice, rest, hchannel, rfl⟩ | ⟨exit, hchannel, hstatus, rfl⟩
  · have hset : ∀ (j : ℕ) (f : Exec) (m : PauseNotice) (a : Option PauseAnswer),
        (s.execs.set sess.exec { e with channel := rest })[j]? = some f →
          f.status = .paused m a → ∃ g, s.execs[j]? = some g ∧ g.status = .paused m a := by
      intro j f m a hf hpaused
      rcases getElem?_set_cases hf with ⟨rfl, rfl⟩ | ⟨-, hf⟩
      · exact ⟨e, hexec, hpaused⟩
      · exact ⟨f, hf, hpaused⟩
    have hnew : queued (s.execs.set sess.exec { e with channel := rest })
        (some { sess with outstanding := some notice }) = rest :=
      @queued_of_some _ _ { sess with outstanding := some notice } _ rfl
        (getElem?_set_of_some hexec { e with channel := rest })
    have hreports : reported s.responses ++ (notice :: rest) = s.raised := by
      rw [← hchannel, ← hqueued]
      exact hlogs.reports
    refine { hlogs with reports := ?_, placed := ?_, outstanding := ?_, unanswered := ?_ }
    · show reported (s.responses ++ [(req, .awaitingConfirmation notice _)]) ++
        queued (s.execs.set sess.exec _) (some _) = s.raised
      rw [reported_awaiting, hnew, List.append_assoc]
      exact hreports
    · intro j f m a hf hpaused
      obtain ⟨g, hg, hpaused'⟩ := hset j f m a hf hpaused
      exact hlogs.placed j g m a hg hpaused'
    · intro sess' m hs' hm
      obtain rfl := Option.some.inj hs'
      obtain rfl : notice = m := by simpa using hm
      show notice ∈ s.raised
      simp [← hreports]
    · intro j f m hf hpaused
      obtain ⟨g, hg, hpaused'⟩ := hset j f m none hf hpaused
      exact hlogs.unanswered j g m hg hpaused'
  · refine Logged.respond (Logged.forget hlogs ?_ ?_) (by simp)
    · rw [hqueued, hchannel]
      rfl
    · intro other hs
      cases hs

end CtrlState

end Logs

section Mirror

/-- The mirror shows no pause but the newest. -/
def Mirrored (observed : Option LiveExecution) (raised : List PauseNotice) : Prop :=
  ∀ (live : LiveExecution) (notice : PauseNotice), observed = some live →
    live.pause = some notice → raised.getLast? = some notice

theorem Mirrored.dims {observed other : Option LiveExecution} {raised : List PauseNotice}
    (h : Mirrored observed raised) (hdims : Dims other observed) : Mirrored other raised := by
  intro live notice hs hp
  obtain ⟨old, hold, hpause⟩ := hdims live notice hs hp
  exact h old notice hold hpause

theorem mirrored_begin (started : ℕ) (raised : List PauseNotice) :
    Mirrored (some ⟨started, none⟩) raised := by
  intro live notice hs hp
  obtain rfl := Option.some.inj hs
  cases hp

namespace CtrlState

variable {s t : CtrlState} {request : ℕ}

theorem move_mirrored {i : ℕ} (h : Mirrored s.observed s.raised) (hmove : Move s i t) :
    Mirrored t.observed t.raised := by
  cases hmove with
  | settled e status observed _ _ _ hdims ht => exact ht ▸ h.dims hdims
  | resumed e notice answer _ _ ht => exact ht ▸ h.dims (dims_clear s.observed)
  | raised _ seq ask notice _ _ _ _ _ ht =>
    subst ht
    intro live m hs hp
    obtain ⟨old, -, rfl⟩ := Option.map_eq_some_iff.mp hs
    show (s.raised ++ [notice]).getLast? = some m
    simpa using hp

theorem recoverExecute_mirrored {args : ExecuteArgs} (hmir : Mirrored s.observed s.raised)
    (h : s.recoverExecute request args = t) : Mirrored t.observed t.raised := by
  rcases recoverExecute_cases h with ⟨outcome, text, rfl⟩ | ⟨ask, -, -, rfl⟩
  · exact hmir
  · exact mirrored_begin s.clock s.raised

theorem pipelineDone_mirrored {result : PipelineResult} (hmir : Mirrored s.observed s.raised)
    (h : s.pipelineDone result = some t) : Mirrored t.observed t.raised := by
  obtain ⟨req, ask, -, ⟨-, rfl⟩ | ⟨response, -, rfl⟩⟩ := pipelineDone_cases h
  · exact hmir
  · exact hmir.dims (dims_none _)

theorem recoverConfirm_mirrored {args : ConfirmArgs} (hmir : Mirrored s.observed s.raised)
    (h : s.recoverConfirm request args = t) : Mirrored t.observed t.raised := by
  rcases recoverConfirm_cases h with ⟨⟨outcome, text, rfl⟩, -⟩ | ⟨sess, notice, answer, -, hsent⟩
  · exact hmir
  rcases hsent with ⟨-, text, rfl⟩ | ⟨sent, hsome, rfl⟩
  · exact hmir
  · obtain ⟨ask, open_, channel, -, -, rfl⟩ := sendAnswer_some hsome
    exact hmir

theorem drive_mirrored (hmir : Mirrored s.observed s.raised) (h : s.drive = some t) :
    Mirrored t.observed t.raised := by
  obtain ⟨req, sess, e, -, -, -, hcases⟩ := drive_cases h
  rcases hcases with ⟨notice, rest, -, rfl⟩ | ⟨exit, -, -, rfl⟩
  · exact hmir
  · exact hmir

end CtrlState

end Mirror

section Requests

/-- A request of a client that waits for the next event of the session. -/
def Asked (events : List CtrlEvent) (request : ℕ) : Prop :=
  (∃ args, .recoverExecute request args ∈ events) ∨ ∃ args, .recoverConfirm request args ∈ events

theorem Asked.mono {events : List CtrlEvent} {request : ℕ} (h : Asked events request)
    (ev : CtrlEvent) : Asked (events ++ [ev]) request := by
  rcases h with ⟨args, h⟩ | ⟨args, h⟩
  · exact .inl ⟨args, List.mem_append_left _ h⟩
  · exact .inr ⟨args, List.mem_append_left _ h⟩

def Holder.request : Holder → ℕ
  | .pipeline request _ | .driving request => request

/-- Everything on record comes from the requests so far. -/
structure Requested (events : List CtrlEvent) (s : CtrlState) : Prop where
  holder : ∀ holder, s.lock = some holder → Asked events holder.request
  reports : ∀ (request : ℕ) (notice : PauseNotice) (left : ℕ),
    (request, .awaitingConfirmation notice left) ∈ s.responses → Asked events request
  answers : ∀ d ∈ s.answers, ∃ request, .recoverConfirm request d.args ∈ events

namespace Requested

variable {events : List CtrlEvent} {s t : CtrlState} {request : ℕ}

theorem mono (h : Requested events s) (ev : CtrlEvent) : Requested (events ++ [ev]) s where
  holder holder hl := (h.holder holder hl).mono ev
  reports request notice left hr := (h.reports request notice left hr).mono ev
  answers d hd := by
    obtain ⟨request, hmem⟩ := h.answers d hd
    exact ⟨request, List.mem_append_left _ hmem⟩

theorem respond (h : Requested events s) {response : Response}
    (hresponse : ∀ notice left, response ≠ .awaitingConfirmation notice left) :
    Requested events (s.respond request response) := by
  refine ⟨h.holder, ?_, h.answers⟩
  intro r notice left hmem
  rcases List.mem_append.mp hmem with hmem | hmem
  · exact h.reports r notice left hmem
  · have := List.mem_singleton.mp hmem
    exact absurd (Prod.mk.inj this).2.symm (hresponse notice left)

theorem move (h : Requested events s) {i : ℕ} (hmove : Move s i t) : Requested events t := by
  cases hmove with
  | settled _ _ _ _ _ _ _ ht => exact ht ▸ ⟨h.holder, h.reports, h.answers⟩
  | resumed _ _ _ _ _ ht => exact ht ▸ ⟨h.holder, h.reports, h.answers⟩
  | raised _ _ _ _ _ _ _ _ _ ht => exact ht ▸ ⟨h.holder, h.reports, h.answers⟩

theorem recoverExecute (h : Requested events s) {args : ExecuteArgs}
    (hmem : .recoverExecute request args ∈ events) (ht : s.recoverExecute request args = t) :
    Requested events t := by
  rcases CtrlState.recoverExecute_cases ht with ⟨outcome, text, rfl⟩ | ⟨ask, -, -, rfl⟩
  · exact h.respond (by simp)
  · refine ⟨?_, h.reports, h.answers⟩
    intro holder hl
    obtain rfl := Option.some.inj hl
    exact .inl ⟨args, hmem⟩

theorem pipelineDone (h : Requested events s) {result : CtrlState.PipelineResult}
    (ht : s.pipelineDone result = some t) : Requested events t := by
  obtain ⟨req, ask, hl, ⟨-, rfl⟩ | ⟨response, hresponse, rfl⟩⟩ := CtrlState.pipelineDone_cases ht
  · have hreq : Asked events req := h.holder _ hl
    refine ⟨?_, h.reports, h.answers⟩
    intro holder hh
    obtain rfl := Option.some.inj hh
    exact hreq
  · have hfree : Requested events { s with observed := none, lock := none } := by
      refine ⟨?_, h.reports, h.answers⟩
      intro holder hh
      cases hh
    exact hfree.respond hresponse

theorem recoverConfirm (h : Requested events s) {args : ConfirmArgs}
    (hmem : .recoverConfirm request args ∈ events) (ht : s.recoverConfirm request args = t) :
    Requested events t := by
  rcases CtrlState.recoverConfirm_cases ht with
    ⟨⟨outcome, text, rfl⟩, -⟩ | ⟨sess, notice, answer, -, hsent⟩
  · exact h.respond (by simp)
  have htaken : Requested events (s.take sess) := ⟨h.holder, h.reports, h.answers⟩
  rcases hsent with ⟨-, text, rfl⟩ | ⟨sent, hsome, rfl⟩
  · exact htaken.respond (by simp)
  obtain ⟨ask, open_, channel, -, -, rfl⟩ := CtrlState.sendAnswer_some hsome
  refine ⟨?_, h.reports, ?_⟩
  · intro holder hl
    obtain rfl := Option.some.inj hl
    exact .inr ⟨args, hmem⟩
  · intro d hd
    rcases List.mem_append.mp hd with hd | hd
    · exact h.answers d hd
    · obtain rfl := List.mem_singleton.mp hd
      exact ⟨request, hmem⟩

theorem drive (h : Requested events s) (ht : s.drive = some t) : Requested events t := by
  obtain ⟨req, sess, e, hl, -, -, hcases⟩ := CtrlState.drive_cases ht
  rcases hcases with ⟨notice, rest, -, rfl⟩ | ⟨exit, -, -, rfl⟩
  · refine ⟨?_, ?_, h.answers⟩
    · intro holder hh
      cases hh
    · have hreq : Asked events req := h.holder _ hl
      intro r n left hmem
      rcases List.mem_append.mp hmem with hmem | hmem
      · exact h.reports r n left hmem
      · have hr : r = req := (Prod.mk.inj (List.mem_singleton.mp hmem)).1
        exact hr ▸ hreq
  · have hfree : Requested events { s with session := none, lock := none } := by
      refine ⟨?_, h.reports, h.answers⟩
      intro holder hh
      cases hh
    exact hfree.respond (by simp)

end Requested

end Requests

section Protocol

/-- The invariant of the control socket. -/
structure Invariant (events : List CtrlEvent) (s : CtrlState) : Prop where
  situated : Situated s.execs s.session s.lock
  logs : s.Logs
  mirrored : Mirrored s.observed s.raised
  requested : Requested events s

theorem invariant_init (clock : ℕ) : Invariant [] (.init clock) where
  situated := .idle (by simp [CtrlState.init])
  logs := by constructor <;> simp [CtrlState.init, reported, queued, Placed]
  mirrored := by simp [Mirrored, CtrlState.init]
  requested := by constructor <;> simp [CtrlState.init]

theorem Invariant.move {events : List CtrlEvent} {s t : CtrlState} {i : ℕ}
    (h : Invariant events s) (hmove : Move s i t) : Invariant events t where
  situated := h.situated.move hmove
  logs := CtrlState.move_logs h.logs hmove
  mirrored := CtrlState.move_mirrored h.mirrored hmove
  requested := h.requested.move hmove

theorem Invariant.step {events : List CtrlEvent} {s t : CtrlState} {ev : CtrlEvent}
    (h : Invariant events s) (hstep : step s ev = some t) : Invariant (events ++ [ev]) t := by
  have h' : Invariant (events ++ [ev]) s := { h with requested := h.requested.mono ev }
  have hmem : ev ∈ events ++ [ev] := by simp
  cases ev with
  | tick ns =>
    obtain rfl := Option.some.inj hstep
    exact ⟨h'.situated, h'.logs, h'.mirrored, ⟨h'.requested.1, h'.requested.2, h'.requested.3⟩⟩
  | recoverExecute request args =>
    have ht := Option.some.inj hstep
    exact ⟨CtrlState.recoverExecute_situated h.situated ht,
      CtrlState.recoverExecute_logs h.situated h.logs ht,
      CtrlState.recoverExecute_mirrored h.mirrored ht, h'.requested.recoverExecute hmem ht⟩
  | pipelineDone result =>
    exact ⟨CtrlState.pipelineDone_situated h.situated hstep,
      CtrlState.pipelineDone_logs h.situated h.logs hstep,
      CtrlState.pipelineDone_mirrored h.mirrored hstep, h'.requested.pipelineDone hstep⟩
  | recoverConfirm request args =>
    have ht := Option.some.inj hstep
    exact ⟨CtrlState.recoverConfirm_situated h.situated h.logs.placed ht,
      CtrlState.recoverConfirm_logs h.situated h.logs ht,
      CtrlState.recoverConfirm_mirrored h.mirrored ht, h'.requested.recoverConfirm hmem ht⟩
  | recoverState request =>
    obtain rfl := Option.some.inj hstep
    exact ⟨h.situated, h.logs.respond (by simp), h.mirrored, h'.requested.respond (by simp)⟩
  | drive =>
    exact ⟨CtrlState.drive_situated h.situated hstep, CtrlState.drive_logs h.logs hstep,
      CtrlState.drive_mirrored h.mirrored hstep, h'.requested.drive hstep⟩
  | raise i nanos point => exact h'.move (CtrlState.raise_move h.situated hstep)
  | wake i => exact h'.move (CtrlState.wake_move h.situated hstep)
  | lapse i => exact h'.move (CtrlState.lapse_move hstep)
  | complete i exit => exact h'.move (CtrlState.complete_move hstep)

theorem run_invariant {clock : ℕ} {events : List CtrlEvent} {s : CtrlState}
    (hrun : run step (.init clock) events = some s) : Invariant events s :=
  @run_history _ _ step (fun _ _ => True) Invariant _ _ events (invariant_init clock)
    (fun _ _ _ _ h _ hstep => h.step hstep) (fun _ _ _ _ _ _ => trivial) hrun

/-- An execution still waits for the answer to the pause. -/
def CtrlState.Awaits (s : CtrlState) (notice : PauseNotice) : Prop :=
  ∃ e, s.execs[notice.exec]? = some e ∧ e.status = .paused notice none

/-- The protocol as the clients of the socket see it. -/
structure SessionProtocol (events : List CtrlEvent) (s : CtrlState) : Prop where
  oneAlive : ∀ (i j : ℕ) (e f : Exec), s.execs[i]? = some e → s.execs[j]? = some f →
    e.isFinished = false → f.isFinished = false → i = j
  numbered : s.raised.map PauseNotice.id = List.range s.raised.length
  answered : ∀ d ∈ s.answers, (∃ request, .recoverConfirm request d.args ∈ events) ∧
    ∃ notice ∈ s.raised, notice.id = d.pause ∧ d.args.token = some notice.token ∧
      parseAnswer notice.kind d.args = .ok d.answer
  once : (s.answers.map Delivery.pause).Nodup
  /-- Busy, nothing outstanding, another token, or a verb outside the vocabulary of the pause. -/
  refused : ∀ (request : ℕ) (args : ConfirmArgs),
    (∀ sess notice answer, ¬s.Answers args sess notice answer) →
      ∃ outcome text, s.recoverConfirm request args = s.respond request (.error outcome text)
  /-- The right token of a pause that is over retires the question. -/
  lapsed : ∀ (request : ℕ) (args : ConfirmArgs) (sess : ExecSession) (notice : PauseNotice)
    (answer : PauseAnswer), s.Answers args sess notice answer → ¬s.Awaits notice →
      ∃ text, s.recoverConfirm request args =
        (s.take sess).respond request (.error "unknown-token" text)
  delivered : ∀ (request : ℕ) (args : ConfirmArgs) (sess : ExecSession) (notice : PauseNotice)
    (answer : PauseAnswer), s.Answers args sess notice answer → s.Awaits notice →
      (s.recoverConfirm request args).answers = s.answers ++ [⟨notice.id, args, answer⟩] ∧
        (s.recoverConfirm request args).lock = some (.driving request)
  /-- Each pause is reported once, in the order raised; at most the last one is still queued. -/
  reports : reported s.responses ++ queued s.execs s.session = s.raised
  reporting : ∀ notice ∈ queued s.execs s.session, queued s.execs s.session = [notice] ∧
    ∃ t, s.drive = some t ∧ reported t.responses = reported s.responses ++ [notice]
  requested : ∀ (request : ℕ) (notice : PauseNotice) (left : ℕ),
    (request, .awaitingConfirmation notice left) ∈ s.responses → Asked events request
  busy : ∀ (i : ℕ) (e : Exec), s.execs[i]? = some e → e.isFinished = false →
    ∀ (request : ℕ) (args : ExecuteArgs) (ask : Bool), executeGates args = .ok ask →
      ∃ text, s.recoverExecute request args = s.respond request (.error "busy" text)
  gated : ∀ (request : ℕ) (args : ExecuteArgs) (outcome text : String),
    executeGates args = .error (outcome, text) →
      s.recoverExecute request args = s.respond request (.error outcome text)
  awaited : ∀ notice, s.snapshot.pause = some notice →
    s.raised.getLast? = some notice ∧ s.clock < notice.raisedAt + notice.deadline

namespace CtrlState

variable {s : CtrlState}

theorem sendAnswer_of_awaits {notice : PauseNotice} {args : ConfirmArgs} {answer : PauseAnswer}
    (h : s.Awaits notice) : (s.sendAnswer notice args answer).isSome = true := by
  obtain ⟨⟨ask, status, channel⟩, hexec, rfl⟩ := h
  simp [sendAnswer, hexec]

/-- An execution waits on one notice, and its number tells which. -/
theorem awaits_of_sendAnswer (hplaced : Placed s.execs s.raised)
    (hnumbered : s.raised.map PauseNotice.id = List.range s.raised.length) {notice : PauseNotice}
    {args : ConfirmArgs} {answer : PauseAnswer} {sent : CtrlState} (hraised : notice ∈ s.raised)
    (h : s.sendAnswer notice args answer = some sent) : s.Awaits notice := by
  obtain ⟨ask, open_, channel, hexec, hid, -⟩ := sendAnswer_some h
  have hopen := (hplaced _ _ _ _ hexec rfl).1
  have hnodup : (s.raised.map PauseNotice.id).Nodup := hnumbered ▸ List.nodup_range
  have : open_ = notice := List.inj_on_of_nodup_map hnodup hopen hraised hid
  exact ⟨_, hexec, by rw [this]⟩

theorem snapshot_pause {notice : PauseNotice} (h : s.snapshot.pause = some notice) :
    (∃ live, s.observed = some live ∧ live.pause = some notice) ∧
      s.clock < notice.raisedAt + notice.deadline := by
  unfold snapshot at h
  cases hs : s.observed with
  | none => simp [hs] at h
  | some live =>
    cases hp : live.pause with
    | none => simp [hs, hp] at h
    | some pause =>
      by_cases hlt : s.clock - pause.raisedAt < pause.deadline
      · obtain rfl : pause = notice := by simpa [hs, hp, hlt] using h
        exact ⟨⟨live, rfl, hp⟩, by omega⟩
      · simp [hs, hp, hlt] at h

end CtrlState

theorem Invariant.confirm {events : List CtrlEvent} {s : CtrlState} (h : Invariant events s)
    {request : ℕ} {args : ConfirmArgs} {sess : ExecSession} {notice : PauseNotice}
    {answer : PauseAnswer} (hans : s.Answers args sess notice answer) :
    (¬s.Awaits notice → ∃ text, s.recoverConfirm request args =
        (s.take sess).respond request (.error "unknown-token" text)) ∧
      (s.Awaits notice →
        (s.recoverConfirm request args).answers = s.answers ++ [⟨notice.id, args, answer⟩] ∧
          (s.recoverConfirm request args).lock = some (.driving request)) := by
  have hraised := h.logs.outstanding sess notice hans.session hans.outstanding
  rcases @CtrlState.recoverConfirm_cases s _ request args rfl with
    ⟨-, hnot⟩ | ⟨sess', notice', answer', hans', hsent⟩
  · exact absurd hans (hnot sess notice answer)
  obtain rfl : sess = sess' := Option.some.inj (hans.session.symm.trans hans'.session)
  obtain rfl : notice = notice' :=
    Option.some.inj (hans.outstanding.symm.trans hans'.outstanding)
  obtain rfl : answer = answer' := Except.ok.inj (hans.verb.symm.trans hans'.verb)
  rcases hsent with ⟨hnone, htext⟩ | ⟨sent, hsome, ht⟩
  · refine ⟨fun _ => htext, fun hawaits => ?_⟩
    have hsend := @CtrlState.sendAnswer_of_awaits (s.take sess) notice args answer hawaits
    simp [hnone] at hsend
  · constructor
    · intro hnot
      have hawaits : (s.take sess).Awaits notice :=
        @CtrlState.awaits_of_sendAnswer (s.take sess) h.logs.placed h.logs.numbered _ _ _ _ hraised
          hsome
      exact absurd hawaits hnot
    · intro _
      obtain ⟨ask, open_, channel, -, -, rfl⟩ := CtrlState.sendAnswer_some hsome
      rw [ht]
      exact ⟨rfl, rfl⟩

theorem Invariant.busy {events : List CtrlEvent} {s : CtrlState} (h : Invariant events s) {i : ℕ}
    {e : Exec} (hexec : s.execs[i]? = some e) (halive : e.isFinished = false) (request : ℕ)
    {args : ExecuteArgs} {ask : Bool} (hgates : executeGates args = .ok ask) :
    ∃ text, s.recoverExecute request args = s.respond request (.error "busy" text) := by
  unfold CtrlState.recoverExecute
  rw [hgates]
  rcases h.situated.of_alive hexec halive with ⟨_, hs, hl, _, _⟩ | ⟨_, hs, hl, _, _⟩
  · exact ⟨_, if_pos (by simp [hl])⟩
  · have hsession : s.sessionAlive = true := by simp [CtrlState.sessionAlive, hs, hexec, halive]
    exact ⟨_, (if_neg (by simp [hl])).trans (if_pos hsession)⟩

theorem Invariant.reporting {events : List CtrlEvent} {s : CtrlState} (h : Invariant events s)
    {notice : PauseNotice} (hmem : notice ∈ queued s.execs s.session) :
    queued s.execs s.session = [notice] ∧
      ∃ t, s.drive = some t ∧ reported t.responses = reported s.responses ++ [notice] := by
  have hsit := h.situated
  generalize hexecs : s.execs = execs at hsit hmem ⊢
  generalize hsession : s.session = session at hsit hmem ⊢
  generalize hlock : s.lock = lock at hsit
  cases hsit with
  | idle | pipelining => cases hmem
  | waiting hexec he hothers =>
    rw [queued_of_some rfl hexec, he.1] at hmem
    cases hmem
  | @driving request i e hexec hd ho =>
    have hqueued : queued execs (some ⟨i, none⟩) = e.channel := queued_of_some rfl hexec
    rw [hqueued] at hmem ⊢
    have hchannel : e.channel = [notice] := by
      obtain ⟨m, hm⟩ := List.length_eq_one_iff.mp
        (Nat.le_antisymm hd.length_le (List.length_pos_of_mem hmem))
      simp_all
    refine ⟨hchannel, ?_⟩
    simp only [CtrlState.drive, hlock, hsession, hexecs, hexec, hchannel]
    exact ⟨_, rfl, reported_awaiting s.responses request notice _⟩

theorem run_sessionProtocol {clock : ℕ} {events : List CtrlEvent} {s : CtrlState}
    (hrun : run step (.init clock) events = some s) : SessionProtocol events s := by
  have h := run_invariant hrun
  constructor
  · exact fun i j e f hi hj he hf => h.situated.alive_unique hi hj he hf
  · exact h.logs.numbered
  · exact fun d hd => ⟨h.requested.answers d hd, h.logs.answered d hd⟩
  · exact h.logs.once
  · intro request args hnot
    rcases @CtrlState.recoverConfirm_cases s _ request args rfl with
      ⟨hrefused, -⟩ | ⟨sess, notice, answer, hans, -⟩
    · exact hrefused
    · exact absurd hans (hnot sess notice answer)
  · exact fun request args sess notice answer hans => (h.confirm hans).1
  · exact fun request args sess notice answer hans => (h.confirm hans).2
  · exact h.logs.reports
  · exact fun notice hmem => h.reporting hmem
  · exact h.requested.reports
  · exact fun i e hexec halive request args ask hgates => h.busy hexec halive request hgates
  · intro request args outcome text hgates
    simp only [CtrlState.recoverExecute, hgates]
  · intro notice hpause
    obtain ⟨⟨live, hlive, hp⟩, hlt⟩ := CtrlState.snapshot_pause hpause
    exact ⟨h.mirrored live notice hlive hp, hlt⟩

/-- A recovery that asks, is paused, reports its question and gives up on it. -/
def lapsedRun : List CtrlEvent :=
  [.recoverExecute 0 ⟨none, some true, .str "ask"⟩, .pipelineDone .plan,
    .raise 0 7 ⟨.diagnosis, 3, "approach", "PLR-E100", 300⟩, .drive, .tick 300, .lapse 0]

def lapsedNotice : PauseNotice :=
  ⟨0, 0, nextToken 7 0, .diagnosis, 3, "approach", "PLR-E100", 300, 5⟩

/-- The state at its end. -/
def lapsedState : CtrlState :=
  ⟨305, 1, [⟨true, .stopping, []⟩], some ⟨0, some lapsedNotice⟩, none,
    some ⟨5, some lapsedNotice⟩, [lapsedNotice], [],
    [(0, .awaitingConfirmation lapsedNotice 300)]⟩

theorem run_lapsedRun : run step (.init 5) lapsedRun = some lapsedState := rfl

theorem run_sessionProtocol_lapsed : SessionProtocol lapsedRun lapsedState :=
  run_sessionProtocol run_lapsedRun

theorem lapsedState_answers : lapsedState.Answers ⟨some lapsedNotice.token, some "continue", none⟩
    ⟨0, some lapsedNotice⟩ lapsedNotice (.binary .continue) :=
  ⟨rfl, rfl, rfl, rfl, by decide⟩

/-- The stale token of a lapsed pause is refused and still changes the session, and a request with
bad arguments is not told that the living execution makes it busy. -/
theorem lapsedState_not_unchanged :
    run step (.init 5) lapsedRun = some lapsedState ∧
      (∃ text, (lapsedState.recoverConfirm 1
          ⟨some lapsedNotice.token, some "continue", none⟩).responses =
        lapsedState.responses ++ [(1, .error "unknown-token" text)]) ∧
      (lapsedState.recoverConfirm 1 ⟨some lapsedNotice.token, some "continue", none⟩).session ≠
        lapsedState.session ∧
      (∃ e, lapsedState.execs[0]? = some e ∧ e.isFinished = false) ∧
      ∀ text, lapsedState.recoverExecute 2 ⟨none, none, .absent⟩ ≠
        lapsedState.respond 2 (.error "busy" text) := by
  have hgone : ¬lapsedState.Awaits lapsedNotice := by
    rintro ⟨e, hexec, hstatus⟩
    obtain rfl : ⟨true, .stopping, []⟩ = e := Option.some.inj hexec
    cases hstatus
  obtain ⟨text, hconfirm⟩ :=
    (@Invariant.confirm _ _ (run_invariant run_lapsedRun) 1 _ _ _ _ lapsedState_answers).1 hgone
  refine ⟨run_lapsedRun, ⟨text, ?_⟩, ?_, ⟨_, rfl, rfl⟩, ?_⟩
  · rw [hconfirm]
    rfl
  · rw [hconfirm]
    show some (ExecSession.mk 0 none) ≠ some ⟨0, some lapsedNotice⟩
    simp
  · intro text h
    have := congrArg CtrlState.responses h
    simp [CtrlState.recoverExecute, executeGates, CtrlState.respond] at this

end Protocol

end DeadReckoning.Control
