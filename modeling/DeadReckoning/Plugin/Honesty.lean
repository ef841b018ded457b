import DeadReckoning.Plugin.RecoverySession

/-! The recovery session publishes calm only when it is excused, and it can always be started or
answered again, but for the replies that restore the state without the question. -/
namespace DeadReckoning.Plugin

open Runs

section Writers

theorem publish_reason (current state : PublishedState) : publish current state true = state := by
  unfold publish
  split <;> simp_all

theorem publish_unknown (current : PublishedState) (reason : Bool) :
    publish current .unknown reason = .unknown := by
  cases current <;> rfl

theorem publish_busy (current : PublishedState) :
    publish current .plrdBusy false = if current = .unknown then .unknown else .plrdBusy := by
  cases current <;> rfl

namespace RecoverySession

variable (s : RecoverySession)

@[simp] theorem transition_reason (state : PublishedState) :
    s.transition state true = { s with state := state } := by
  rw [transition, publish_reason]

@[simp] theorem transition_unknown (reason : Bool) :
    s.transition .unknown reason = { s with state := .unknown } := by
  rw [transition, publish_unknown]

@[simp] theorem transition_busy : s.transition .plrdBusy false =
    { s with state := if s.state = .unknown then .unknown else .plrdBusy } := by
  rw [transition, publish_busy]

@[simp] theorem raiseAlarm_unknown :
    s.raiseAlarm .unknown = { s with state := .unknown } := by
  unfold raiseAlarm
  rw [transition_unknown]
  cases s.state <;> rfl

end RecoverySession

end Writers

section Replies

/-- What the published state may become calmer for. -/
inductive Excuse (s : RecoverySession) : SessionEvent → RecoverySession → Prop where
  /-- A new request was just put in flight. -/
  | launched {e : SessionEvent} {t : RecoverySession} (request : Request) (hfree : s.channel = none)
      (hrequest : t.channel = some ⟨request, s.state⟩) (hstate : t.state = .running) : Excuse s e t
  /-- plrd paused, or reported the end, in reply to the current request. -/
  | replied {t : RecoverySession} (response : Reply) (hflight : s.channel.isSome = true)
      (hkind : classify response = some .pause ∨ classify response = some .terminal) :
      Excuse s (.reply response) t
  /-- The current request was rejected before dispatch: exactly the state from before it. -/
  | rejected {t : RecoverySession} (response : Reply) (flight : InFlight)
      (hflight : s.channel = some flight) (hkind : classify response = some .protocolRefusal)
      (hstate : t.state = flight.before) : Excuse s (.reply response) t
  /-- The wait for a held question expired. -/
  | expired {t : RecoverySession} (hheld : s.token.isSome = true) (hdue : isDue s s.wait = true) :
      Excuse s .waitExpiry t
  | torn {t : RecoverySession} : Excuse s .disconnect t

/-- What the channel and the teardown keep over every run. -/
structure Paired (s : RecoverySession) : Prop where
  prior : ∀ flight, s.channel = some flight → s.priorState = flight.before
  handed : s.channel.isSome = true → s.token = none
  torn : s.closed = true → s.token = none ∧ s.state = .idle

/-- What an operator needs: a state that claims a question has one, and one that claims a request
has one in flight. -/
structure Live (s : RecoverySession) : Prop where
  held : s.state = .awaitingConfirmation → s.token.isSome = true
  flying : s.state = .running → s.channel.isSome = true
  before : ∀ flight, s.channel = some flight → flight.before ≠ .running

/-- A reply that leaves a session answerable or startable: it can be read while `running` is
published, and it does not reject an answer to a question that was still published. -/
def Readable (s : RecoverySession) : SessionEvent → Prop
  | .reply response => s.closed = false →
      (classify response = none → s.state ≠ .running) ∧
      (classify response = some .protocolRefusal → s.priorState ≠ .awaitingConfirmation)
  | _ => True

namespace RecoverySession

variable {s t : RecoverySession}

theorem call_cases {request : Request} {before : PublishedState} {started : Bool}
    (h : s.call request before started = some t) :
    s.closed = false ∧ s.channel = none ∧ t = { s with channel := some ⟨request, before⟩ } := by
  unfold call at h
  split at h
  · cases h
  · rename_i hopen
    simp only [Bool.or_eq_true, not_or, Bool.not_eq_true, Option.isSome_eq_false_iff,
      Option.isNone_iff_eq_none] at hopen
    exact ⟨hopen.1.1, hopen.1.2, (Option.some.inj h).symm⟩

theorem start_cases {started : Bool} {refusal : Option Refusal}
    (h : s.start started = (t, refusal)) :
    (t = s ∧ refusal ≠ none) ∨
      refusal = none ∧ s.closed = false ∧ s.channel = none ∧ s.mayStartNew = true ∧
        ∃ aborts, t = { s with
          data := none
          answering := none
          answeringToken := none
          epoch := s.epoch + 1
          priorState := s.state
          token := none
          state := .running
          channel := some ⟨.recoverExecute, s.state⟩
          aborts := aborts } := by
  unfold start at h
  split_ifs at h with hclosed hstart hbusy
  · obtain ⟨rfl, rfl⟩ := Prod.mk.inj h
    exact .inl ⟨rfl, by simp⟩
  · obtain ⟨rfl, rfl⟩ := Prod.mk.inj h
    exact .inl ⟨rfl, by simp⟩
  · obtain ⟨rfl, rfl⟩ := Prod.mk.inj h
    exact .inl ⟨rfl, by simp⟩
  · cases hcall : s.call .recoverExecute s.state started with
    | none =>
      simp only [hcall] at h
      obtain ⟨rfl, rfl⟩ := Prod.mk.inj h
      exact .inl ⟨rfl, by simp⟩
    | some launched =>
      obtain ⟨hopen, hfree, rfl⟩ := call_cases hcall
      simp only [hcall] at h
      obtain ⟨ht, rfl⟩ := Prod.mk.inj h
      refine .inr ⟨rfl, hopen, hfree, by simpa using hstart, ?_⟩
      cases htoken : s.token with
      | none =>
        simp only [htoken, transition_reason] at ht
        exact ⟨_, ht.symm⟩
      | some abandoned =>
        simp only [htoken, transition_reason] at ht
        exact ⟨_, ht.symm⟩

/-- A timer that was due is due again after the answer that disarmed it was not sent. -/
theorem restoreTimers_eq (s : RecoverySession) (wait claim : Timer)
    (hwait : s.wait = wait.disarm) :
    ∃ wait' claim', s.restoreTimers wait claim = { s with wait := wait', claim := claim' } ∧
      ∀ w, wait = .due w → wait' = .due w := by
  unfold restoreTimers
  split
  · rename_i hnone
    refine ⟨_, _, rfl, ?_⟩
    intro w hw
    rw [hnone.1] at hw
    cases hw
  · refine ⟨_, _, rfl, ?_⟩
    rintro w rfl
    simp [Timer.restore, hwait, Timer.disarm]

theorem answer_cases {verb : String} {count : Option ℤ} {started : Bool} {refusal : Option Refusal}
    (h : s.answer verb count started = (t, refusal)) :
    (t = s ∧ refusal ≠ none) ∨
      ∃ token, s.token = some token ∧
        ((refusal ≠ none ∧ ∃ wait claim, (∀ w, s.wait = .due w → wait = .due w) ∧ t = { s with
            answering := none
            answeringToken := none
            epoch := s.epoch + 1
            priorState := s.state
            wait := wait
            claim := claim }) ∨
          refusal = none ∧ s.closed = false ∧ s.channel = none ∧ ∃ count', t = { s with
            token := none
            answeringToken := some token
            epoch := s.epoch + 1
            priorState := s.state
            state := .running
            answering := some verb
            wait := s.wait.disarm
            claim := s.claim.disarm
            channel := some ⟨.recoverConfirm token verb count', s.state⟩ }) := by
  unfold answer at h
  split at h
  · obtain ⟨rfl, rfl⟩ := Prod.mk.inj h
    exact .inl ⟨rfl, by simp⟩
  cases htoken : s.token with
  | none =>
    simp only [htoken] at h
    obtain ⟨rfl, rfl⟩ := Prod.mk.inj h
    exact .inl ⟨rfl, by simp⟩
  | some token =>
    simp only [htoken] at h
    by_cases hguards : (verb ≠ "abort" ∧ s.isShutdown = true) ∨
        (previewAnswers.contains verb ∧ s.pauseKind ≠ some "preview") ∨
        (verb = "continue" ∧ s.pauseKind = some "preview")
    · -- A refused verb leaves the question as it was.
      refine .inl ?_
      by_cases hshut : verb ≠ "abort" ∧ s.isShutdown = true
      · rw [if_pos hshut] at h
        obtain ⟨rfl, rfl⟩ := Prod.mk.inj h
        exact ⟨rfl, by simp⟩
      rw [if_neg hshut] at h
      by_cases hpreview : previewAnswers.contains verb ∧ s.pauseKind ≠ some "preview"
      · rw [if_pos hpreview] at h
        obtain ⟨rfl, rfl⟩ := Prod.mk.inj h
        exact ⟨rfl, by simp⟩
      rw [if_neg hpreview, if_pos (hguards.resolve_left hshut |>.resolve_left hpreview)] at h
      obtain ⟨rfl, rfl⟩ := Prod.mk.inj h
      exact ⟨rfl, by simp⟩
    obtain ⟨hshut, hpreview, hbinary⟩ := (not_or.mp hguards).imp_right not_or.mp
    rw [if_neg hshut, if_neg hpreview, if_neg hbinary] at h
    refine .inr ⟨token, rfl, ?_⟩
    simp only [transition_reason, disarmTimer] at h
    generalize (if verb = "nudge" then count else none) = count' at h
    split at h
    · rename_i launched hcall
      obtain ⟨hopen, hfree, rfl⟩ := call_cases hcall
      obtain ⟨rfl, rfl⟩ := Prod.mk.inj h
      exact .inr ⟨rfl, hopen, hfree, count', rfl⟩
    · obtain ⟨rfl, rfl⟩ := Prod.mk.inj h
      refine .inl ⟨by simp, ?_⟩
      obtain ⟨wait, claim, heq, hdue⟩ := restoreTimers_eq
        { s with
          token := some token
          answering := none
          answeringToken := none
          epoch := s.epoch + 1
          priorState := s.state
          wait := s.wait.disarm
          claim := s.claim.disarm } s.wait s.claim rfl
      refine ⟨wait, claim, hdue, heq.trans ?_⟩
      rw [← htoken]

/-- plrd is said to be busy, or nothing is known, and it is no calmer than before. -/
def Alarmed (s t : RecoverySession) : Prop :=
  (t.state = .plrdBusy ∨ t.state = .unknown) ∧ alarm s.state ≤ alarm t.state

theorem alarmed_unknown (h : t.state = .unknown) : s.Alarmed t := by
  refine ⟨.inr h, ?_⟩
  rw [h]
  cases s.state <;> decide

theorem alarmed_busy (h : t.state = if s.state = .unknown then .unknown else .plrdBusy) :
    s.Alarmed t := by
  unfold Alarmed
  rw [h]
  cases s.state <;> decide

theorem plrdBusy_alarmed : s.Alarmed s.plrdBusy := by
  refine alarmed_busy ?_
  unfold plrdBusy
  simp only [transition_busy]
  split <;> rfl

theorem wrongKindRestore_alarmed : s.Alarmed s.wrongKindRestore := by
  refine alarmed_unknown ?_
  unfold wrongKindRestore
  simp only [transition_unknown]
  split <;> rfl

theorem unresolved_alarmed : s.Alarmed s.unresolved :=
  alarmed_unknown (by simp [unresolved, disarmTimer])

/-- A pause is answerable, or all that is known is that plrd holds the machine. -/
theorem pause_state (data : PauseData) :
    s.Alarmed (s.pause data) ∨
      (s.pause data).state = .awaitingConfirmation ∧ (s.pause data).token.isSome = true ∧
        (data.renders = true → ∃ w, (s.pause data).wait = .due w) := by
  unfold pause
  cases data.resumeToken with
  | none => exact .inl unresolved_alarmed
  | some token =>
    by_cases hempty : token = ""
    · simp only [hempty, ↓reduceIte]
      exact .inl unresolved_alarmed
    by_cases hshut : s.isShutdown = true
    · simp only [hempty, hshut, ↓reduceIte]
      refine .inl (alarmed_unknown ?_)
      simp [abortShutdownPause, abortDetached]
    · simp only [hempty, hshut, ↓reduceIte, transition_reason, Bool.false_eq_true]
      refine .inr ?_
      by_cases hrenders : data.renders = true
      · rw [if_pos hrenders]
        exact ⟨rfl, rfl, fun _ => ⟨_, rfl⟩⟩
      · rw [if_neg hrenders]
        exact ⟨rfl, rfl, fun h => absurd h hrenders⟩

theorem onResponse_state (response : Reply) :
    s.Alarmed (s.onResponse response) ∨
      (classify response = some .pause ∧
        (s.onResponse response).state = .awaitingConfirmation ∧
        (s.onResponse response).token.isSome = true ∧
        (response.data.renders = true → ∃ w, (s.onResponse response).wait = .due w)) ∨
      (classify response = some .terminal ∧ (s.onResponse response).state = .idle) ∨
      (classify response = some .protocolRefusal ∧
        (s.onResponse response).state = s.priorState) ∨
      (classify response = none ∧ s.onResponse response = s) := by
  unfold onResponse
  cases hkind : classify response with
  | none => simp
  | some kind =>
    cases kind with
    | pause =>
      rcases @pause_state s response.data with h | h
      · exact .inl h
      · exact .inr (.inl ⟨rfl, h⟩)
    | busy => exact .inl plrdBusy_alarmed
    | staleToken => exact .inl unresolved_alarmed
    | protocolRefusal =>
      exact .inr (.inr (.inr (.inl ⟨rfl, by simp [closeOutRequest, disarmTimer]⟩)))
    | terminal => exact .inr (.inr (.inl ⟨rfl, by simp [finish, disarmTimer]⟩))
    | unclassifiable =>
      dsimp only
      split
      · exact .inl wrongKindRestore_alarmed
      · exact .inl unresolved_alarmed

/-- No reply touches the channel, the teardown or the state from before the request. -/
structure SameChannel (s t : RecoverySession) : Prop where
  channel : t.channel = s.channel
  closed : t.closed = s.closed
  prior : t.priorState = s.priorState

theorem onResponse_channel (response : Reply) : s.SameChannel (s.onResponse response) := by
  unfold onResponse
  cases classify response with
  | none => exact ⟨rfl, rfl, rfl⟩
  | some kind =>
    cases kind with
    | pause =>
      simp only [pause, unresolved, abortShutdownPause, transition_unknown, transition_reason,
        raiseAlarm_unknown]
      split
      · exact ⟨rfl, rfl, rfl⟩
      · split_ifs <;> exact ⟨rfl, rfl, rfl⟩
    | busy =>
      simp only [plrdBusy, transition_busy]
      split <;> exact ⟨rfl, rfl, rfl⟩
    | staleToken => exact ⟨rfl, rfl, rfl⟩
    | protocolRefusal => exact ⟨rfl, rfl, rfl⟩
    | terminal => exact ⟨rfl, rfl, rfl⟩
    | unclassifiable =>
      simp only [wrongKindRestore, transition_unknown]
      split_ifs <;> exact ⟨rfl, rfl, rfl⟩

end RecoverySession

end Replies

section Effects

/-- What a step can do to the session. -/
inductive Effect (s : RecoverySession) : SessionEvent → RecoverySession → Prop where
  /-- The state and the question stand. -/
  | kept {e : SessionEvent} {t : RecoverySession} (hstate : t.state = s.state)
      (htoken : t.token = s.token ∨ t.token = none ∧ s.token = none)
      (hchannel : t.channel = s.channel) (hclosed : t.closed = s.closed)
      (hprior : t.priorState = s.priorState ∨ s.token.isSome = true)
      (hwait : t.state = .awaitingConfirmation → t.token.isSome = true →
        ∀ w, s.wait = .due w → t.wait = .due w) : Effect s e t
  | launched {e : SessionEvent} {t : RecoverySession} (request : Request)
      (hopen : s.closed = false) (hfree : s.channel = none)
      (hfrom : s.mayStartNew = true ∨ s.token.isSome = true)
      (hstate : t.state = .running) (htoken : t.token = none)
      (hchannel : t.channel = some ⟨request, s.state⟩) (hclosed : t.closed = false)
      (hprior : t.priorState = s.state) : Effect s e t
  /-- Nothing is known of plrd any more, and the question may be gone. -/
  | alarmed {e : SessionEvent} {t : RecoverySession} (hstate : t.state = .unknown)
      (htoken : t.token = s.token ∨ t.token = none) (hchannel : t.channel = s.channel)
      (hopen : s.closed = false ∨ s.state = .awaitingConfirmation) (hclosed : t.closed = s.closed)
      (hprior : t.priorState = s.priorState) : Effect s e t
  | expired {t : RecoverySession} (hheld : s.token.isSome = true) (hdue : isDue s s.wait = true)
      (hstate : t.state = .idle) (htoken : t.token = none) (hchannel : t.channel = s.channel)
      (hclosed : t.closed = s.closed) (hprior : t.priorState = s.priorState) :
      Effect s .waitExpiry t
  | torn {t : RecoverySession} (hstate : t.state = .idle) (htoken : t.token = none)
      (hchannel : t.channel = s.channel) (hprior : t.priorState = s.priorState) :
      Effect s .disconnect t
  /-- A result that arrives after the teardown. -/
  | dropped {e : SessionEvent} (hclosed : s.closed = true) : Effect s e { s with channel := none }
  | replied (response : Reply) (flight : InFlight) (hopen : s.closed = false)
      (hflight : s.channel = some flight) :
      Effect s (.reply response) ({ s with channel := none }.onResponse response)
  | failed {t : RecoverySession} (hstate : t.state = .unknown) (htoken : t.token = none)
      (hchannel : t.channel = none) (hclosed : t.closed = false) : Effect s .error t

namespace RecoverySession

variable {s t : RecoverySession} {e : SessionEvent}

theorem start_effect {started : Bool} (h : (s.start started).1 = t) : Effect s e t := by
  rcases @start_cases s t started (s.start started).2 (by rw [← h]) with
    ⟨rfl, -⟩ | ⟨-, hopen, hfree, hmay, aborts, rfl⟩
  · exact .kept rfl (.inl rfl) rfl rfl (.inl rfl) (fun _ _ _ h => h)
  · exact .launched .recoverExecute hopen hfree (.inl hmay) rfl rfl rfl hopen rfl

theorem answer_effect {verb : String} {count : Option ℤ} {started : Bool}
    (h : (s.answer verb count started).1 = t) : Effect s e t := by
  rcases @answer_cases s t verb count started (s.answer verb count started).2 (by rw [← h]) with
    ⟨rfl, -⟩ | ⟨token, htoken, ⟨-, wait, claim, hdue, rfl⟩ | ⟨-, hopen, hfree, count', rfl⟩⟩
  · exact .kept rfl (.inl rfl) rfl rfl (.inl rfl) (fun _ _ _ h => h)
  · exact .kept rfl (.inl rfl) rfl rfl (.inr (by simp [htoken])) (fun _ _ => hdue)
  · exact .launched _ hopen hfree (.inr (by simp [htoken])) rfl rfl rfl hopen rfl

theorem cancel_effect {started : Bool} (h : (s.cancel started).1 = t) : Effect s e t := by
  unfold cancel at h
  split at h
  · exact answer_effect h
  · obtain rfl : s = t := h
    exact .kept rfl (.inl rfl) rfl rfl (.inl rfl) (fun _ _ _ h => h)

theorem shutdown_effect (h : { s.handleShutdown with isShutdown := true } = t) : Effect s e t := by
  subst h
  unfold handleShutdown
  by_cases hclosed : s.closed = true
  · rw [if_pos hclosed]
    exact .kept rfl (.inl rfl) rfl rfl (.inl rfl) (fun _ _ _ h => h)
  · rw [if_neg hclosed]
    cases htoken : s.token with
    | none => exact .kept rfl (.inr ⟨rfl, htoken⟩) rfl rfl (.inl rfl) (fun _ h => by cases h)
    | some token =>
      simp only [abortShutdownPause, raiseAlarm_unknown]
      exact .alarmed rfl (.inr rfl) rfl (.inl (by simpa using hclosed)) rfl rfl

theorem disconnect_effect (h : s.handleDisconnect = t) : Effect s .disconnect t := by
  subst h
  unfold handleDisconnect
  by_cases hclosed : s.closed = true
  · rw [if_pos hclosed]
    exact .kept rfl (.inl rfl) rfl rfl (.inl rfl) (fun _ _ _ h => h)
  · rw [if_neg hclosed, transition_reason]
    cases s.token with
    | none => exact .torn rfl rfl rfl rfl
    | some token => exact .torn rfl rfl rfl rfl

theorem abortReported_effect {aborts : List DetachedAbort} {epoch : ℕ}
    (h : { s with aborts := aborts }.abortReported epoch = t) : Effect s e t := by
  subst h
  unfold abortReported
  split
  · exact .kept rfl (.inl rfl) rfl rfl (.inl rfl) (fun _ _ _ h => h)
  · rename_i hopen
    split
    · exact .kept rfl (.inl rfl) rfl rfl (.inl rfl) (fun _ _ _ h => h)
    · rw [raiseAlarm_unknown]
      exact .alarmed rfl (.inl rfl) rfl (.inl (by simpa using hopen)) rfl rfl

theorem claimExpiry_effect (h : { s with claim := .never }.onClaimExpiry = t) : Effect s e t := by
  subst h
  unfold onClaimExpiry
  split
  · rename_i hawaiting
    rw [transition_unknown]
    exact .alarmed rfl (.inl rfl) rfl (.inr hawaiting) rfl rfl
  · exact .kept rfl (.inl rfl) rfl rfl (.inl rfl) (fun _ _ _ h => h)

theorem waitExpiry_effect (hdue : isDue s s.wait = true)
    (h : { s with wait := .never }.onExpiry = t) : Effect s .waitExpiry t := by
  subst h
  unfold onExpiry
  split
  · rename_i hheld
    rw [transition_reason]
    exact .expired hheld.1 hdue rfl rfl rfl rfl rfl
  · rename_i hnot
    refine .kept rfl (.inl rfl) rfl rfl (.inl rfl) ?_
    exact fun hstate htoken => absurd ⟨htoken, .inl hstate⟩ hnot

end RecoverySession

theorem step_effect {s t : RecoverySession} {e : SessionEvent} (h : step s e = some t) :
    Effect s e t := by
  cases e with
  | start started => exact RecoverySession.start_effect (Option.some.inj h)
  | answer verb count started => exact RecoverySession.answer_effect (Option.some.inj h)
  | cancel started => exact RecoverySession.cancel_effect (Option.some.inj h)
  | reply response =>
    simp only [step, deliver] at h
    cases hflight : s.channel with
    | none => simp [hflight] at h
    | some flight =>
      simp only [hflight, Option.some.injEq] at h
      by_cases hclosed : s.closed = true
      · rw [if_pos hclosed] at h
        exact h ▸ .dropped hclosed
      · rw [if_neg hclosed] at h
        exact h ▸ .replied response flight (by simpa using hclosed) hflight
  | error =>
    simp only [step, deliver] at h
    cases hflight : s.channel with
    | none => simp [hflight] at h
    | some flight =>
      simp only [hflight, Option.some.injEq] at h
      by_cases hclosed : s.closed = true
      · rw [if_pos hclosed] at h
        exact h ▸ .dropped hclosed
      · rw [if_neg hclosed] at h
        subst h
        simp only [RecoverySession.onError, RecoverySession.transition_unknown]
        exact .failed rfl rfl rfl (show s.closed = false by simpa using hclosed)
  | claimExpiry =>
    simp only [step] at h
    split at h
    · exact RecoverySession.claimExpiry_effect (Option.some.inj h)
    · cases h
  | waitExpiry =>
    simp only [step] at h
    split at h
    · rename_i hdue
      exact RecoverySession.waitExpiry_effect hdue (Option.some.inj h)
    · cases h
  | abortReported k outcome =>
    simp only [step] at h
    split at h
    · cases h
    · exact RecoverySession.abortReported_effect (Option.some.inj h)
  | shutdown => exact RecoverySession.shutdown_effect (Option.some.inj h)
  | disconnect => exact RecoverySession.disconnect_effect (Option.some.inj h)
  | tick dt =>
    simp only [step] at h
    split at h
    · obtain rfl := Option.some.inj h
      exact .kept rfl (.inl rfl) rfl rfl (.inl rfl) (fun _ _ _ h => h)
    · cases h

end Effects

section Invariants

variable {s t : RecoverySession} {e : SessionEvent}

theorem paired_init (configured : Option F64) (clock : ℚ) : Paired (.init configured clock) := by
  constructor <;> simp [RecoverySession.init]

theorem Paired.of_step (h : Paired s) (hstep : step s e = some t) : Paired t := by
  cases step_effect hstep with
  | kept hstate htoken hchannel hclosed hprior hwait =>
    have hnone : s.token = none → t.token = none := by
      rcases htoken with ht | ⟨ht, -⟩ <;> simp [ht]
    refine ⟨?_, ?_, ?_⟩
    · intro flight hflight
      rw [hchannel] at hflight
      rcases hprior with hprior | hheld
      · exact hprior ▸ h.prior flight hflight
      · simp [h.handed (by simp [hflight])] at hheld
    · intro hflight
      exact hnone (h.handed (hchannel ▸ hflight))
    · intro hc
      obtain ⟨htok, hidle⟩ := h.torn (hclosed ▸ hc)
      exact ⟨hnone htok, hstate.trans hidle⟩
  | launched request hopen hfree hfrom hstate htoken hchannel hclosed hprior =>
    refine ⟨?_, fun _ => htoken, fun hc => ?_⟩
    · intro flight hflight
      obtain rfl : ⟨request, s.state⟩ = flight := Option.some.inj (hchannel.symm.trans hflight)
      exact hprior
    · simp [hclosed] at hc
  | alarmed hstate htoken hchannel hopen hclosed hprior =>
    refine ⟨?_, ?_, ?_⟩
    · intro flight hflight
      exact hprior ▸ h.prior flight (hchannel ▸ hflight)
    · intro hflight
      have := h.handed (hchannel ▸ hflight)
      rcases htoken with ht | ht <;> simp [ht, this]
    · intro hc
      have hc' : s.closed = true := hclosed ▸ hc
      rcases hopen with hopen | hopen
      · simp [hopen] at hc'
      · simp [(h.torn hc').2] at hopen
  | expired hheld hdue hstate htoken hchannel hclosed hprior =>
    refine ⟨?_, fun _ => htoken, fun _ => ⟨htoken, hstate⟩⟩
    intro flight hflight
    exact hprior ▸ h.prior flight (hchannel ▸ hflight)
  | torn hstate htoken hchannel hprior =>
    refine ⟨?_, fun _ => htoken, fun _ => ⟨htoken, hstate⟩⟩
    intro flight hflight
    exact hprior ▸ h.prior flight (hchannel ▸ hflight)
  | dropped hclosed => exact ⟨by simp, by simp, h.torn⟩
  | replied response flight hopen hflight =>
    obtain ⟨hchannel, hclosed, hprior⟩ :=
      @RecoverySession.onResponse_channel { s with channel := none } response
    refine ⟨?_, ?_, ?_⟩
    · simp [hchannel]
    · simp [hchannel]
    · intro hc
      have hc' : s.closed = true := hclosed.symm.trans hc
      simp [hopen] at hc'
  | failed hstate htoken hchannel hclosed =>
    exact ⟨by simp [hchannel], by simp [hchannel], by simp [hclosed]⟩

theorem live_init (configured : Option F64) (clock : ℚ) : Live (.init configured clock) := by
  constructor <;> simp [RecoverySession.init]

/-- The state standing before a request never claims one in flight. -/
theorem Live.not_running (h : Live s) (hfree : s.channel = none) : s.state ≠ .running := by
  intro hrunning
  simpa [hfree] using h.flying hrunning

theorem Live.of_step (h : Live s) (hpaired : Paired s) (hok : Readable s e)
    (hstep : step s e = some t) : Live t := by
  cases step_effect hstep with
  | kept hstate htoken hchannel _ _ _ =>
    refine ⟨?_, ?_, ?_⟩
    · intro hawaiting
      have hheld := h.held (hstate ▸ hawaiting)
      rcases htoken with ht | ⟨-, ht⟩
      · exact ht ▸ hheld
      · simp [ht] at hheld
    · intro hrunning
      exact hchannel ▸ h.flying (hstate ▸ hrunning)
    · intro flight hflight
      exact h.before flight (hchannel ▸ hflight)
  | launched request hopen hfree hfrom hstate htoken hchannel _ _ =>
    refine ⟨by simp [hstate], fun _ => by simp [hchannel], ?_⟩
    intro flight hflight
    obtain rfl : ⟨request, s.state⟩ = flight := Option.some.inj (hchannel.symm.trans hflight)
    exact h.not_running hfree
  | alarmed hstate _ hchannel _ _ _ =>
    refine ⟨by simp [hstate], by simp [hstate], ?_⟩
    intro flight hflight
    exact h.before flight (hchannel ▸ hflight)
  | expired _ _ hstate _ hchannel _ _ =>
    refine ⟨by simp [hstate], by simp [hstate], ?_⟩
    intro flight hflight
    exact h.before flight (hchannel ▸ hflight)
  | torn hstate _ hchannel _ =>
    refine ⟨by simp [hstate], by simp [hstate], ?_⟩
    intro flight hflight
    exact h.before flight (hchannel ▸ hflight)
  | dropped hclosed =>
    have hidle := (hpaired.torn hclosed).2
    exact ⟨by simp [hidle], by simp [hidle], by simp⟩
  | replied response flight hopen hflight =>
    have hchannel := (@RecoverySession.onResponse_channel { s with channel := none } response).channel
    refine ⟨?_, ?_, by simp [hchannel]⟩
    all_goals
      rcases @RecoverySession.onResponse_state { s with channel := none } response with
        ⟨halarmed, -⟩ | ⟨-, hstate, htoken, -⟩ | ⟨-, hstate⟩ | ⟨hkind, hstate⟩ | ⟨hkind, hsame⟩
    · rcases halarmed with ha | ha <;> simp [ha]
    · exact fun _ => htoken
    · simp [hstate]
    · -- A refusal before dispatch: the state that goes back claimed no question.
      have hprior := (hok hopen).2 hkind
      simp [hstate, hprior]
    · rw [hsame]
      intro hawaiting
      have := h.held hawaiting
      simp [hpaired.handed (by simp [hflight])] at this
    · rcases halarmed with ha | ha <;> simp [ha]
    · simp [hstate]
    · simp [hstate]
    · have hbefore : s.priorState ≠ .running := by
        rw [hpaired.prior flight hflight]
        exact h.before flight hflight
      simp [hstate, hbefore]
    · rw [hsame]
      intro hrunning
      exact absurd hrunning ((hok hopen).1 hkind)
  | failed hstate _ hchannel _ => exact ⟨by simp [hstate], by simp [hstate], by simp [hchannel]⟩

/-- A calmer state is always excused. -/
theorem Paired.excuse (h : Paired s) (hstep : step s e = some t)
    (hcalmer : alarm t.state < alarm s.state) : Excuse s e t := by
  cases step_effect hstep with
  | kept hstate _ _ _ _ _ => simp [hstate] at hcalmer
  | launched request _ hfree _ hstate _ hchannel _ _ => exact .launched request hfree hchannel hstate
  | alarmed hstate _ _ _ _ _ =>
    rw [hstate] at hcalmer
    cases hs : s.state <;> simp [hs, alarm] at hcalmer
  | expired hheld hdue _ _ _ _ _ => exact .expired hheld hdue
  | torn _ _ _ _ => exact .torn
  | dropped _ => simp at hcalmer
  | replied response flight hopen hflight =>
    rcases @RecoverySession.onResponse_state { s with channel := none } response with
      ⟨-, halarmed⟩ | ⟨hkind, -, -, -⟩ | ⟨hkind, -⟩ | ⟨hkind, hstate⟩ | ⟨-, hsame⟩
    · exact absurd hcalmer (Nat.not_lt.mpr halarmed)
    · exact .replied response (by simp [hflight]) (.inl hkind)
    · exact .replied response (by simp [hflight]) (.inr hkind)
    · exact .rejected response flight hflight hkind (hstate.trans (h.prior flight hflight))
    · simp [hsame] at hcalmer
  | failed hstate _ _ _ =>
    rw [hstate] at hcalmer
    cases hs : s.state <;> simp [hs, alarm] at hcalmer

/-- A published question has its wait armed, as long as every dialog could be rendered. -/
def Armed (s : RecoverySession) : Prop := s.state = .awaitingConfirmation → ∃ w, s.wait = .due w

def Renders : SessionEvent → Prop
  | .reply response => response.data.renders = true
  | _ => True

theorem Armed.of_step (h : Armed s) (hlive : Live s) (hpaired : Paired s) (hok : Readable s e)
    (hrenders : Renders e) (hstep : step s e = some t) : Armed t := by
  have hlive' := hlive.of_step hpaired hok hstep
  intro hawaiting
  have hheld := hlive'.held hawaiting
  cases step_effect hstep with
  | kept hstate _ _ _ _ hwait =>
    obtain ⟨w, hw⟩ := h (hstate ▸ hawaiting)
    exact ⟨w, hwait hawaiting hheld w hw⟩
  | launched _ _ _ _ hstate _ _ _ _ => simp [hstate] at hawaiting
  | alarmed hstate _ _ _ _ _ => simp [hstate] at hawaiting
  | expired _ _ hstate _ _ _ _ => simp [hstate] at hawaiting
  | torn hstate _ _ _ => simp [hstate] at hawaiting
  | dropped _ => exact h hawaiting
  | replied response flight hopen hflight =>
    rcases @RecoverySession.onResponse_state { s with channel := none } response with
      ⟨halarmed, -⟩ | ⟨-, -, -, hwait⟩ | ⟨-, hstate⟩ | ⟨hkind, hstate⟩ | ⟨hkind, hsame⟩
    · rcases halarmed with ha | ha <;> simp [ha] at hawaiting
    · exact hwait hrenders
    · simp [hstate] at hawaiting
    · exact absurd (hstate.symm.trans hawaiting) ((hok hopen).2 hkind)
    · rw [hsame] at hawaiting ⊢
      exact h hawaiting
  | failed hstate _ _ _ => simp [hstate] at hawaiting

/-- The replies the condition leaves out do break the session. -/
theorem Paired.unreadable {response : Reply} (h : Paired s)
    (hbad : ¬Readable s (.reply response)) (hstep : step s (.reply response) = some t) :
    (t.state = .awaitingConfirmation ∨ t.state = .running) ∧ t.token = none ∧ t.channel = none := by
  have hopen : s.closed = false := by
    by_contra hclosed
    exact hbad fun hopen => absurd hopen hclosed
  simp only [step, deliver] at hstep
  cases hflight : s.channel with
  | none => simp [hflight] at hstep
  | some flight =>
    simp only [hflight, hopen, Bool.false_eq_true, ↓reduceIte, Option.some.injEq] at hstep
    have htoken := h.handed (by simp [hflight])
    subst hstep
    by_cases hread : classify response = none → s.state ≠ .running
    · have hrejected : classify response = some .protocolRefusal ∧
          s.priorState = .awaitingConfirmation := by
        by_contra hnot
        exact hbad fun _ => ⟨hread, fun hkind hprior => hnot ⟨hkind, hprior⟩⟩
      simp [RecoverySession.onResponse, hrejected.1, RecoverySession.closeOutRequest,
        RecoverySession.disarmTimer, hrejected.2]
    · obtain ⟨hkind, hrunning⟩ := Classical.not_imp.mp hread
      have hrunning' : s.state = .running := not_not.mp hrunning
      simp [RecoverySession.onResponse, hkind, hrunning', htoken]

end Invariants

section Session

/-- The session is honest and can be acted on. -/
structure SessionHonest (s : RecoverySession) : Prop where
  calm : ∀ e t, step s e = some t → alarm t.state < alarm s.state → Excuse s e t
  /-- A command that is refused, the answer that was never sent included, changes neither. -/
  refused : ∀ (t : RecoverySession) (refusal : Refusal),
    ((∃ started, s.start started = (t, some refusal)) ∨
      (∃ verb count started, s.answer verb count started = (t, some refusal)) ∨
      ∃ started, s.cancel started = (t, some refusal)) →
      t.state = s.state ∧ t.token = s.token
  held : s.state = .awaitingConfirmation → s.token.isSome = true
  /-- Never wedged: a reply is due, or a recovery can be started, or a question answered. -/
  live : s.closed = false → s.channel.isSome = true ∨ s.mayStartNew = true ∨ s.canAnswer = true

theorem refused_same {s t : RecoverySession} {refusal : Refusal}
    (h : (∃ started, s.start started = (t, some refusal)) ∨
      (∃ verb count started, s.answer verb count started = (t, some refusal)) ∨
      ∃ started, s.cancel started = (t, some refusal)) : t.state = s.state ∧ t.token = s.token := by
  have hanswer : ∀ verb count started, s.answer verb count started = (t, some refusal) →
      t.state = s.state ∧ t.token = s.token := by
    intro verb count started heq
    rcases RecoverySession.answer_cases heq with
      ⟨rfl, -⟩ | ⟨token, htoken, ⟨-, wait, claim, -, rfl⟩ | ⟨hnone, -⟩⟩
    · exact ⟨rfl, rfl⟩
    · exact ⟨rfl, rfl⟩
    · cases hnone
  rcases h with ⟨started, heq⟩ | ⟨verb, count, started, heq⟩ | ⟨started, heq⟩
  · rcases RecoverySession.start_cases heq with ⟨rfl, -⟩ | ⟨hnone, -⟩
    · exact ⟨rfl, rfl⟩
    · cases hnone
  · exact hanswer verb count started heq
  · unfold RecoverySession.cancel at heq
    split at heq
    · exact hanswer "abort" none started heq
    · obtain ⟨rfl, -⟩ := Prod.mk.inj heq
      exact ⟨rfl, rfl⟩

theorem Live.acts {s : RecoverySession} (h : Live s) :
    s.channel.isSome = true ∨ s.mayStartNew = true ∨ s.canAnswer = true := by
  cases hs : s.state with
  | running => exact .inl (h.flying hs)
  | awaitingConfirmation => exact .inr (.inr (h.held hs))
  | idle => exact .inr (.inl (by simp [RecoverySession.mayStartNew, hs]))
  | plrdBusy => exact .inr (.inl (by simp [RecoverySession.mayStartNew, hs]))
  | unknown => exact .inr (.inl (by simp [RecoverySession.mayStartNew, hs]))

/-- In every run whose replies are readable, every state reached is honest, and a published
question is armed once every dialog so far was rendered. -/
theorem run_sessionHonest {configured : Option F64} {clock : ℚ} {events : List SessionEvent}
    {s : RecoverySession} (hok : Along step Readable (.init configured clock) events)
    (hrun : run step (.init configured clock) events = some s) :
    SessionHonest s ∧ ((∀ e ∈ events, Renders e) → Armed s) := by
  have hinv : Paired s ∧ Live s ∧ ((∀ e ∈ events, Renders e) → Armed s) := by
    refine @run_history _ _ step Readable (fun events s => Paired s ∧ Live s ∧
      ((∀ e ∈ events, Renders e) → Armed s)) _ _ events ?_ ?_ hok hrun
    · refine ⟨paired_init configured clock, live_init configured clock, fun _ => ?_⟩
      intro hawaiting
      cases hawaiting
    · rintro past u e v ⟨hpaired, hlive, harmed⟩ hread hstep
      refine ⟨hpaired.of_step hstep, hlive.of_step hpaired hread hstep, ?_⟩
      intro hrenders
      have hpast : ∀ e ∈ past, Renders e := fun e he => hrenders e (List.mem_append_left _ he)
      exact (harmed hpast).of_step hlive hpaired hread (hrenders e (by simp)) hstep
  obtain ⟨hpaired, hlive, harmed⟩ := hinv
  refine ⟨⟨?_, ?_, hlive.held, fun _ => hlive.acts⟩, harmed⟩
  · exact fun e t hstep hcalmer => hpaired.excuse hstep hcalmer
  · exact fun t refusal h => refused_same h

def pauseReply : Reply :=
  ⟨false, .str "awaiting_confirmation", ⟨some "plrc-1-0", some "diagnosis", true⟩⟩

def unknownCmdReply : Reply := ⟨false, .str "unknown-cmd", ⟨none, none, true⟩⟩

/-- A recovery asks its question and is answered. -/
def answeredEvents : List SessionEvent :=
  [.start true, .reply pauseReply, .answer "continue" none true]

theorem run_sessionHonest_answered : ∃ s, run step (.init none 0) answeredEvents = some s ∧
    SessionHonest s ∧ Armed s := by
  refine ⟨_, rfl, ?_⟩
  have hok : Along step Readable (.init none 0) answeredEvents := by
    refine along_cons trivial fun s hs => along_cons ?_ fun t _ => along_cons trivial fun u _ =>
      along_nil step Readable u
    obtain rfl := Option.some.inj hs
    exact fun _ => ⟨fun hkind => (nomatch hkind), fun hkind => (nomatch hkind)⟩
  obtain ⟨hhonest, harmed⟩ := run_sessionHonest hok rfl
  refine ⟨hhonest, harmed ?_⟩
  simp [answeredEvents, Renders, pauseReply]

/-- The question is still published after an answer that plrd did not know, and can no longer be
answered; the same printer reads `running` for ever after a reply it cannot look up. -/
theorem answered_wedges :
    (∃ s, run step (.init none 0) (answeredEvents ++ [.reply unknownCmdReply]) = some s ∧
      s.state = .awaitingConfirmation ∧ s.token = none ∧ s.closed = false ∧ s.channel = none ∧
        s.mayStartNew = false ∧ s.canAnswer = false) ∧
      ∃ s, run step (.init none 0) [.start true, .reply ⟨false, .container, ⟨none, none, true⟩⟩] =
          some s ∧ s.state = .running ∧ s.closed = false ∧ s.channel = none ∧
        s.mayStartNew = false ∧ s.canAnswer = false := by
  refine ⟨⟨_, rfl, ?_⟩, ⟨_, rfl, ?_⟩⟩
  · refine ⟨?_, ?_, ?_, ?_, ?_, ?_⟩ <;> rfl
  · refine ⟨?_, ?_, ?_, ?_, ?_⟩ <;> rfl

end Session

end DeadReckoning.Plugin
