import DeadReckoning.Recording.Client
import DeadReckoning.Lib.Trace
import Mathlib.Data.List.TakeWhile

/-! Klipper sessions do not leak into one another through the recorder, as long as no
session is lost in its setup after it handed something to the converter. -/
namespace DeadReckoning.Recording

/-- What `resetSession` clears: the state learned from one klippy instance. -/
structure SessionState where
  isActive : Bool
  printState : Option String
  currentLayer : Option ℕ
  totalLayer : Option ℕ
  printInProgress : Bool
  estSample : Option (ℕ × F64)
  latestPrintTime : F64
  toolheadPrintTime : Option F64
  lastMotionMonoNs : Option ℕ
  recordingActive : Bool
  regimeEvaluated : Bool
  exclude : ExcludeObjectSnapshot
  excludeSeen : Bool
  excludeDefinitionsDirty : Bool

def Recorder.sessionState (r : Recorder) : SessionState :=
  { isActive := r.isActive
    printState := r.printState
    currentLayer := r.currentLayer
    totalLayer := r.totalLayer
    printInProgress := r.printInProgress
    estSample := r.estSample
    latestPrintTime := r.latestPrintTime
    toolheadPrintTime := r.toolheadPrintTime
    lastMotionMonoNs := r.lastMotionMonoNs
    recordingActive := r.recordingActive
    regimeEvaluated := r.regimeEvaluated
    exclude := r.exclude
    excludeSeen := r.excludeSeen
    excludeDefinitionsDirty := r.excludeDefinitionsDirty }

@[simp] theorem resetSession_sessionState (r : Recorder) :
    r.resetSession.sessionState = Recorder.new.sessionState := rfl

/-- The Klipper session an entry belongs to. -/
def Entry.session? : Entry → Option ℕ
  | .handed n _ _ => some n
  | .derived n _ => some n
  | _ => none

def Entry.event? : Entry → Option SessionEvent
  | .handed _ _ event => some event
  | .heaterNames names => some (.heaterNames names)
  | .reset => some .reset
  | _ => none

/-- Everything the recorder has been through. -/
def eventsOf (log : List Entry) : List SessionEvent := log.filterMap Entry.event?

/-- The loss bookkeeping: the marker, the withdrawn heartbeat data and the reset. -/
def WritesOff (log : List Entry) : Prop :=
  (∃ monoNs, .sent (.marker { monoNs, kind := .socketLost }) ∈ log) ∧
    .sent (.heartbeatData none) ∈ log ∧ .reset ∈ log

/-- An entry, after everything before it, leaks nothing out of an earlier session. -/
structure EntryIsolated (past : List Entry) (y : Entry) : Prop where
  /-- Between anything of an earlier session and this entry stands the bookkeeping. -/
  writtenOff : ∀ a x b n m, past = a ++ x :: b → x.session? = some n → y.session? = some m →
    n < m → WritesOff b
  /-- A message is merged into a fresh session state that has only seen its own session. -/
  notMerged : ∀ m r e, y = .handed m r e → ∃ (r₀ : Recorder) (es : List SessionEvent),
    r₀.sessionState = Recorder.new.sessionState ∧ r = es.foldl Recorder.handle r₀ ∧
      ∀ e' ∈ es, (∃ names, e' = .heaterNames names) ∨ ∃ r', .handed m r' e' ∈ past
  /-- A clean shutdown is journaled only for a print that its own session has observed. -/
  endObserved : ∀ m monoNs, y = .derived m (.marker { monoNs, kind := .cleanShutdown }) →
    ∃ r u n f, .handed m r (.status u n f) ∈ past ∧ u.observesPrint

/-- No session leaks into a later one. -/
def SessionsIsolated (log : List Entry) : Prop := Trace.Justified EntryIsolated log

theorem WritesOff.append_right {b : List Entry} (h : WritesOff b) (c : List Entry) :
    WritesOff (b ++ c) := by
  obtain ⟨⟨monoNs, hmarker⟩, hheartbeat, hreset⟩ := h
  exact ⟨⟨monoNs, List.mem_append_left _ hmarker⟩, List.mem_append_left _ hheartbeat,
    List.mem_append_left _ hreset⟩

theorem WritesOff.append_left {c : List Entry} (h : WritesOff c) (b : List Entry) :
    WritesOff (b ++ c) := by
  obtain ⟨⟨monoNs, hmarker⟩, hheartbeat, hreset⟩ := h
  exact ⟨⟨monoNs, List.mem_append_right _ hmarker⟩, List.mem_append_right _ hheartbeat,
    List.mem_append_right _ hreset⟩

/-! ### The events of the current session -/

theorem session_split (es : List SessionEvent) :
    ∃ before, es = before ++ session es ∧ (before = [] ∨ ∃ rest, before = rest ++ [.reset]) := by
  induction es using List.reverseRecOn with
  | nil => exact ⟨[], rfl, .inl rfl⟩
  | append_singleton es e ih =>
    obtain ⟨before, hsplit, hbefore⟩ := ih
    cases he : isReset e with
    | false =>
      refine ⟨before, ?_, hbefore⟩
      rw [session_snoc es he, ← List.append_assoc, ← hsplit]
    | true =>
      cases e with
      | reset => exact ⟨es ++ [.reset], by simp, .inr ⟨es, rfl⟩⟩
      | _ => cases he

theorem not_reset_of_mem_session {es : List SessionEvent} : .reset ∉ session es := by
  intro hmem
  have hkept := List.mem_takeWhile_imp (List.mem_reverse.mp hmem)
  cases hkept

/-- The recorder's session state is what the current session has made of a fresh one. -/
theorem recorderAfter_session (es : List SessionEvent) :
    ∃ r₀ : Recorder, r₀.sessionState = Recorder.new.sessionState ∧
      recorderAfter es = (session es).foldl Recorder.handle r₀ := by
  obtain ⟨before, hsplit, hbefore⟩ := session_split es
  refine ⟨recorderAfter before, ?_, ?_⟩
  · rcases hbefore with rfl | ⟨rest, rfl⟩
    · rfl
    · rw [recorderAfter_snoc]
      exact resetSession_sessionState _
  · conv_lhs => rw [hsplit]
    simp only [recorderAfter, List.foldl_append]

/-- An event of the current session of the recorder, located in the log. -/
theorem mem_session_eventsOf {log : List Entry} {e : SessionEvent}
    (he : e ∈ session (eventsOf log)) :
    ∃ a x b, log = a ++ x :: b ∧ x.event? = some e ∧ .reset ∉ b := by
  obtain ⟨before, hsplit, -⟩ := session_split (eventsOf log)
  obtain ⟨l, r, hlr⟩ := List.append_of_mem he
  rw [hlr, ← List.append_assoc] at hsplit
  obtain ⟨a, rest, rfl, -, hrest⟩ := List.filterMap_eq_append_iff.mp hsplit
  obtain ⟨skipped, x, b, rfl, -, hx, hb⟩ := List.filterMap_eq_cons_iff.mp hrest
  refine ⟨a ++ skipped, x, b, by simp, hx, ?_⟩
  intro hreset
  have hmem : SessionEvent.reset ∈ r := hb ▸ List.mem_filterMap.mpr ⟨.reset, hreset, rfl⟩
  refine @not_reset_of_mem_session (eventsOf (a ++ (skipped ++ x :: b))) ?_
  rw [hlr]
  exact List.mem_append_right _ (List.mem_cons_of_mem _ hmem)

/-! ### The invariant of the client -/

/-- What a run maintains: everything of the sessions before `k` has been written off. -/
structure Tidy (k : ℕ) (c : Client) : Prop where
  isolated : SessionsIsolated c.log
  bound : ∀ x ∈ c.log, ∀ n, x.session? = some n → n ≤ c.session
  writtenOff : ∀ a x b n, c.log = a ++ x :: b → x.session? = some n → n < k → WritesOff b
  recorder : c.recorder = recorderAfter (eventsOf c.log)
  handedBefore : ∀ n call, .derived n call ∈ c.log → ∃ r e, .handed n r e ∈ c.log

/-- The recorder's current session only holds messages of the client's current session. -/
theorem Tidy.session_events {c : Client} (h : Tidy c.session c) {e : SessionEvent}
    (he : e ∈ session (eventsOf c.log)) :
    (∃ names, e = .heaterNames names) ∨ ∃ r, .handed c.session r e ∈ c.log := by
  obtain ⟨a, x, b, hlog, hx, hreset⟩ := mem_session_eventsOf he
  have hmem : x ∈ c.log := by rw [hlog]; exact List.mem_append_right _ List.mem_cons_self
  cases x with
  | heaterNames names => exact .inl ⟨names, (Option.some.inj hx).symm⟩
  | handed n r event =>
    obtain rfl : event = e := Option.some.inj hx
    rcases Nat.lt_or_eq_of_le (h.bound _ hmem n rfl) with hlt | rfl
    · exact absurd (h.writtenOff a _ b n hlog rfl hlt).2.2 hreset
    · exact .inr ⟨r, hmem⟩
  | derived n call => cases hx
  | sent call => cases hx
  | reset =>
    obtain rfl : SessionEvent.reset = e := Option.some.inj hx
    exact absurd he not_reset_of_mem_session

/-- The current session has handed over an update that observes a print. -/
def EndSeen (c : Client) : Prop :=
  ∃ r u n f, .handed c.session r (.status u n f) ∈ c.log ∧ u.observesPrint

/-- One more entry of the current session, or of none. -/
theorem Tidy.snoc {c d : Client} (h : Tidy c.session c) {y : Entry}
    (hlog : d.log = c.log ++ [y]) (hsession : d.session = c.session)
    (hy : y.session? = none ∨ y.session? = some c.session)
    (hrecorder : d.recorder = recorderAfter (eventsOf d.log)) (hok : EntryIsolated c.log y)
    (hhanded : ∀ call, y = .derived c.session call → ∃ r e, .handed c.session r e ∈ c.log) :
    Tidy d.session d := by
  refine ⟨?_, ?_, ?_, hrecorder, ?_⟩
  · rw [hlog]
    exact Trace.justified_snoc.mpr ⟨h.isolated, hok⟩
  · rw [hlog, hsession]
    intro x hx n hn
    rcases List.mem_append.mp hx with hold | hnew
    · exact h.bound x hold n hn
    · rw [List.mem_singleton.mp hnew] at hn
      rcases hy with hnone | hsome
      · rw [hnone] at hn; cases hn
      · rw [hsome] at hn; exact (Option.some.inj hn).ge
  · rw [hlog, hsession]
    intro a x b n hsplit hn hlt
    rcases Trace.snoc_split hsplit with ⟨-, rfl, -⟩ | ⟨b', rfl, hlog'⟩
    · rcases hy with hnone | hsome
      · rw [hnone] at hn; cases hn
      · rw [hsome] at hn; exact absurd (Option.some.inj hn) hlt.ne'
    · exact (h.writtenOff a x b' n hlog' hn hlt).append_right [y]
  · rw [hlog]
    intro n call hmem
    have hold : ∃ r e, .handed n r e ∈ c.log := by
      rcases List.mem_append.mp hmem with hold | hnew
      · exact h.handedBefore n call hold
      · obtain rfl := List.mem_singleton.mp hnew
        obtain rfl : n = c.session := hy.elim nofun Option.some.inj
        exact hhanded call rfl
    obtain ⟨r, e, hhand⟩ := hold
    exact ⟨r, e, List.mem_append_left _ hhand⟩

theorem entryIsolated_silent {past : List Entry} {y : Entry} (hsession : y.session? = none) :
    EntryIsolated past y := by
  refine ⟨?_, ?_, ?_⟩
  · intro a x b n m _ _ hm
    rw [hsession] at hm
    cases hm
  · rintro m r e rfl
    cases hsession
  · rintro m monoNs rfl
    cases hsession

theorem Tidy.entryIsolated_derived {c : Client} (h : Tidy c.session c) {call : SenderCall}
    (hend : ∀ monoNs, call = .marker { monoNs, kind := .cleanShutdown } → EndSeen c) :
    EntryIsolated c.log (.derived c.session call) := by
  refine ⟨?_, fun _ _ _ hy => Entry.noConfusion hy, ?_⟩
  · intro a x b n m hlog hx hm hlt
    obtain rfl : c.session = m := Option.some.inj hm
    exact h.writtenOff a x b n hlog hx hlt
  · intro m monoNs hy
    obtain ⟨rfl, rfl⟩ := Entry.derived.inj hy
    exact hend monoNs rfl

theorem Tidy.entryIsolated_handed {c : Client} (h : Tidy c.session c) (e : SessionEvent) :
    EntryIsolated c.log (.handed c.session c.recorder e) := by
  refine ⟨?_, ?_, fun _ _ hy => Entry.noConfusion hy⟩
  · intro a x b n m hlog hx hm hlt
    obtain rfl : c.session = m := Option.some.inj hm
    exact h.writtenOff a x b n hlog hx hlt
  · intro m r e' hy
    obtain ⟨rfl, rfl, rfl⟩ := Entry.handed.inj hy
    obtain ⟨r₀, hfresh, hfold⟩ := recorderAfter_session (eventsOf c.log)
    exact ⟨r₀, session (eventsOf c.log), hfresh, h.recorder.trans hfold,
      fun e' he' => h.session_events he'⟩

/-! ### Attempts -/

/-- A property that an attempt and its continuation keep is kept by both in sequence. -/
theorem Attempt.bind_rule {P : Client → Prop} {x : Attempt} {f : Client → Attempt}
    (hx : P (Attempt.client x)) (hf : ∀ c, P c → P (Attempt.client (f c))) :
    P (Attempt.client (x >>= f)) := by
  cases x with
  | ok c => exact hf c hx
  | error c => exact hx

/-- The client is connected, in the given session, and tidy. -/
structure Open (k : ℕ) (c : Client) : Prop where
  session_eq : c.session = k
  connected : c.stage ≠ .disconnected
  tidy : Tidy c.session c

theorem give_open {k : ℕ} {c : Client} (h : Open k c) {y : Entry}
    (hy : y.session? = none ∨ y.session? = some c.session)
    (hevent : y.event? = none) (hok : EntryIsolated c.log y)
    (hhanded : ∀ call, y = .derived c.session call → ∃ r e, .handed c.session r e ∈ c.log) :
    Open k (Attempt.client (c.give y)) := by
  have hrecorder : c.recorder = recorderAfter (eventsOf (c.log ++ [y])) := by
    rw [h.tidy.recorder]
    simp [eventsOf, hevent]
  unfold Client.give
  split
  · exact ⟨h.session_eq, by simp [Attempt.client], h.tidy.isolated, h.tidy.bound,
      h.tidy.writtenOff, h.tidy.recorder, h.tidy.handedBefore⟩
  · exact ⟨h.session_eq, h.connected, h.tidy.snoc rfl rfl hy hrecorder hok hhanded⟩

theorem give_log (c : Client) (y : Entry) : c.log <+: (Attempt.client (c.give y)).log := by
  unfold Client.give
  split
  · exact List.prefix_refl _
  · exact List.prefix_append _ _

/-- Forwarding keeps the client tidy when a clean shutdown among the calls is earned. -/
theorem giveAll_open {k : ℕ} (calls : List SenderCall) {c : Client} (h : Open k c)
    (hend : ∀ monoNs, .marker { monoNs, kind := .cleanShutdown } ∈ calls → EndSeen c)
    (hhanded : ∃ r e, .handed c.session r e ∈ c.log) :
    Open k (Attempt.client (c.giveAll (calls.map (Entry.derived c.session)))) := by
  induction calls generalizing c with
  | nil => exact h
  | cons call calls ih =>
    have hfirst : Open k (Attempt.client (c.give (.derived c.session call))) := by
      refine give_open h (.inr rfl) rfl (h.tidy.entryIsolated_derived ?_) fun _ _ => hhanded
      rintro monoNs rfl
      exact hend monoNs List.mem_cons_self
    have hlog := give_log c (.derived c.session call)
    rw [Client.giveAll, List.map_cons, List.foldlM_cons]
    cases hgive : c.give (.derived c.session call) with
    | error d => rw [hgive] at hfirst; exact hfirst
    | ok d =>
      rw [hgive] at hfirst hlog
      have hsession : c.session = d.session := h.session_eq.trans hfirst.session_eq.symm
      rw [hsession]
      refine ih hfirst ?_ ?_
      · intro monoNs hmem
        obtain ⟨r, u, n, f, hhand, hu⟩ := hend monoNs (List.mem_cons_of_mem _ hmem)
        exact ⟨r, u, n, f, hsession ▸ hlog.subset hhand, hu⟩
      · obtain ⟨r, e, hhand⟩ := hhanded
        exact ⟨r, e, hsession ▸ hlog.subset hhand⟩

theorem noteRegime_marker {r : Recorder} {monoNs : ℕ} {kind : Wal.MarkerKind}
    (h : (r.noteRegime monoNs).2 = some kind) : kind = .recordingQuiescent := by
  simp only [Recorder.noteRegime] at h
  split at h
  · exact (Option.some.inj h).symm
  · cases h

theorem output_regimeMarker {r : Recorder} {e : SessionEvent} {kind : Wal.MarkerKind}
    (h : (r.output e).regimeMarker = some kind) : kind = .recordingQuiescent := by
  cases e with
  | heaterNames names => cases h
  | reset => cases h
  | status u n f => exact noteRegime_marker h
  | trapq queue batch n => exact noteRegime_marker h
  | stepper stepper batch n => exact noteRegime_marker h

/-- A clean shutdown among the calls is the verdict on a status update. -/
theorem cleanShutdown_mem_calls {r : Recorder} {e : SessionEvent} {monoNs ns : ℕ}
    (h : .marker { monoNs := ns, kind := .cleanShutdown } ∈ (r.output e).calls monoNs) :
    ∃ u n f, e = .status u n f ∧ r.view.ends u = true := by
  have hclean : (r.output e).cleanShutdown = true := by
    simp only [Output.calls, List.mem_append, List.mem_map, Option.mem_toList,
      Option.map_eq_some_iff] at h
    rcases h with (((⟨x, -, hx⟩ | ⟨kind, hkind, hx⟩) | ⟨x, -, hx⟩) | ⟨x, -, hx⟩) | h
    · cases hx
    · rw [output_regimeMarker hkind] at hx; cases hx
    · cases hx
    · cases hx
    · split at h
      · assumption
      · cases h
  cases e with
  | heaterNames names => cases hclean
  | reset => cases hclean
  | trapq queue batch n => cases hclean
  | stepper stepper batch n => cases hclean
  | status u n f => exact ⟨u, n, f, rfl, (onStatus_detector r u n f).2 ▸ hclean⟩

theorem convert_open {k : ℕ} {c : Client} (h : Open k c) (e : SessionEvent) (monoNs : ℕ) :
    Open k (Attempt.client (c.convert e monoNs)) := by
  have hrecorder : c.recorder.handle e =
      recorderAfter (eventsOf (c.log ++ [.handed c.session c.recorder e])) := by
    rw [h.tidy.recorder, ← recorderAfter_snoc]
    simp [eventsOf, Entry.event?]
  unfold Client.convert
  dsimp only
  set d : Client :=
    { c with
      recorder := c.recorder.handle e
      log := c.log ++ [.handed c.session c.recorder e] } with hd
  have htidy : Tidy d.session d :=
    h.tidy.snoc (d := d) rfl rfl (.inr rfl) hrecorder (h.tidy.entryIsolated_handed e)
      fun _ hy => Entry.noConfusion hy
  refine giveAll_open _ (c := d) ⟨h.session_eq, h.connected, htidy⟩ ?_ ?_
  · intro ns hmem
    obtain ⟨u, n, f, rfl, hends⟩ := cleanShutdown_mem_calls hmem
    have htracks := recorderAfter_tracks (eventsOf c.log)
    rw [← h.tidy.recorder] at htracks
    obtain ⟨u', n', f', hseen, hu'⟩ := (ends_sound htracks u n f hends).1
    have hevents : eventsOf d.log = eventsOf c.log ++ [.status u n f] := by
      simp [hd, eventsOf, Entry.event?]
    rw [← hevents] at hseen
    rcases htidy.session_events hseen with ⟨names, hnames⟩ | ⟨r, hhand⟩
    · cases hnames
    · exact ⟨r, u', n', f', hhand, hu'⟩
  · exact ⟨c.recorder, e, List.mem_append_right _ (List.mem_singleton_self _)⟩

theorem dispatch_open {k : ℕ} {c : Client} (h : Open k c) (n : Notification) (monoNs : ℕ) :
    Open k (Attempt.client (c.dispatch n monoNs)) := by
  unfold Client.dispatch
  split
  · exact h
  · exact convert_open h _ monoNs

theorem Open.setStage {k : ℕ} {c : Client} (h : Open k c) (stage : Stage)
    (hstage : stage ≠ .disconnected) : Open k { c with stage } :=
  ⟨h.session_eq, hstage, h.tidy.isolated, h.tidy.bound, h.tidy.writtenOff, h.tidy.recorder,
    h.tidy.handedBefore⟩

theorem ready_open {k : ℕ} {c : Client} (h : Open k c) (monoNs : ℕ) :
    Open k (Attempt.client (c.ready monoNs)) := by
  unfold Client.ready
  dsimp only
  split
  · exact give_open (h.setStage .live nofun) (.inl rfl) rfl (entryIsolated_silent rfl)
      fun _ hy => Entry.noConfusion hy
  · exact h.setStage .live nofun

theorem awaitStepper_open {k : ℕ} {c : Client} (h : Open k c) (cfg : ClientCfg)
    (i monoNs : ℕ) : Open k (Attempt.client (c.awaitStepper cfg i monoNs)) := by
  unfold Client.awaitStepper
  split
  · exact h.setStage (.stepper i) nofun
  · exact ready_open h monoNs

theorem awaitTrapq_open {k : ℕ} {c : Client} (h : Open k c) (cfg : ClientCfg)
    (i monoNs : ℕ) : Open k (Attempt.client (c.awaitTrapq cfg i monoNs)) := by
  unfold Client.awaitTrapq
  split
  · exact h.setStage (.trapq i) nofun
  · exact awaitStepper_open h cfg 0 monoNs

theorem setHeaterNames_open {k : ℕ} {c : Client} (h : Open k c) (names : List String) :
    Open k { c with
      recorder := c.recorder.setHeaterNames names
      log := c.log ++ [.heaterNames names]
      stage := .subscribe } := by
  have hrecorder : c.recorder.setHeaterNames names =
      recorderAfter (eventsOf (c.log ++ [.heaterNames names])) := by
    have hevents : eventsOf (c.log ++ [.heaterNames names]) =
        eventsOf c.log ++ [.heaterNames names] := by simp [eventsOf, Entry.event?]
    rw [hevents, recorderAfter_snoc, ← h.tidy.recorder]
    rfl
  refine ⟨h.session_eq, nofun, ?_⟩
  exact h.tidy.snoc rfl rfl (.inl rfl) hrecorder (entryIsolated_silent rfl)
    fun _ hy => Entry.noConfusion hy

/-! ### Losing the connection -/

/-- Once everything of the current session is written off, so is the session. -/
theorem Tidy.close {c : Client} (h : Tidy c.session c)
    (hclose : ∀ a x b, c.log = a ++ x :: b → x.session? = some c.session → WritesOff b) :
    Tidy (c.session + 1) c := by
  refine ⟨h.isolated, h.bound, ?_, h.recorder, h.handedBefore⟩
  intro a x b n hlog hx hlt
  rcases Nat.lt_or_eq_of_le (Nat.lt_succ_iff.mp hlt) with hearlier | rfl
  · exact h.writtenOff a x b n hlog hx hearlier
  · exact hclose a x b hlog hx

/-- Whatever precedes the bookkeeping is written off by it. -/
theorem writesOff_of_tail {l tail a b : List Entry} {x : Entry} {n : ℕ}
    (htail : ∀ y ∈ tail, y.session? = none) (hoff : WritesOff tail)
    (hsplit : l ++ tail = a ++ x :: b) (hx : x.session? = some n) : WritesOff b := by
  have houtside : x ∉ tail := by
    intro hmem
    rw [htail x hmem] at hx
    cases hx
  rcases List.append_eq_append_iff.mp hsplit with ⟨a', rfl, rfl⟩ | ⟨c', rfl, hc'⟩
  · exact absurd (List.mem_append_right _ List.mem_cons_self) houtside
  · cases c' with
    | nil => exact absurd (by rw [List.nil_append] at hc'; exact hc' ▸ List.mem_cons_self) houtside
    | cons y c'' =>
      obtain ⟨rfl, rfl⟩ := List.cons.inj hc'
      exact hoff.append_left c''

/-- The invariant of every reachable client. -/
structure Reached (c : Client) : Prop where
  tidy : Tidy c.session c
  closed : c.stage = .disconnected → Tidy (c.session + 1) c

theorem Open.reached {k : ℕ} {c : Client} (h : Open k c) : Reached c :=
  ⟨h.tidy, fun hstage => absurd hstage h.connected⟩

theorem give_ok {c d : Client} {y : Entry} (h : c.give y = .ok d) :
    d.session = c.session ∧ d.log = c.log ++ [y] := by
  unfold Client.give at h
  split at h
  · cases h
  · cases h
    exact ⟨rfl, rfl⟩

/-- A live session is written off before the client reconnects. -/
theorem lost_live {k : ℕ} {c : Client} (h : Open k c) (hlive : c.stage = .live)
    (monoNs : ℕ) : Reached (Attempt.client (c.lost monoNs)) := by
  unfold Client.lost
  rw [hlive]
  dsimp only
  have hmarker := give_open h (y := .sent (.marker { monoNs, kind := .socketLost })) (.inl rfl) rfl
    (entryIsolated_silent rfl) fun _ hy => Entry.noConfusion hy
  cases hgive : c.give (.sent (.marker { monoNs, kind := .socketLost })) with
  | error d => rw [hgive] at hmarker; exact hmarker.reached
  | ok d =>
    rw [hgive] at hmarker
    have hheartbeat := give_open hmarker (y := .sent (.heartbeatData none)) (.inl rfl) rfl
      (entryIsolated_silent rfl) fun _ hy => Entry.noConfusion hy
    simp only [bind, Except.bind, Attempt.client] at hheartbeat ⊢
    cases hgive' : d.give (.sent (.heartbeatData none)) with
    | error d' => rw [hgive'] at hheartbeat; exact hheartbeat.reached
    | ok d' =>
      rw [hgive'] at hheartbeat
      dsimp only
      set final : Client :=
        { d' with
          recorder := d'.recorder.resetSession
          log := d'.log ++ [.reset]
          lostAfterSubscribe := true
          stage := .disconnected } with hfinal
      have hlog : final.log = c.log ++
          [.sent (.marker { monoNs, kind := .socketLost }), .sent (.heartbeatData none), .reset] := by
        simp [hfinal, (give_ok hgive').2, (give_ok hgive).2]
      have hrecorder : final.recorder = recorderAfter (eventsOf final.log) := by
        have hevents : eventsOf final.log = eventsOf d'.log ++ [.reset] := by
          simp [hfinal, eventsOf, Entry.event?]
        rw [hevents, recorderAfter_snoc, ← hheartbeat.tidy.recorder]
        rfl
      have htidy : Tidy final.session final :=
        hheartbeat.tidy.snoc (d := final) rfl rfl (.inl rfl) hrecorder (entryIsolated_silent rfl)
          fun _ hy => Entry.noConfusion hy
      refine ⟨htidy, fun _ => htidy.close ?_⟩
      intro a x b hsplit hx
      rw [hlog] at hsplit
      refine writesOff_of_tail (fun y hy => ?_) ⟨⟨monoNs, ?_⟩, ?_, ?_⟩ hsplit hx
      · simp only [List.mem_cons, List.not_mem_nil, or_false] at hy
        rcases hy with rfl | rfl | rfl <;> rfl
      all_goals simp

/-- A session that fails in its setup leaves nothing behind if it handed nothing over. -/
theorem lost_setup {k : ℕ} {c : Client} (h : Open k c) (hsetup : c.stage ≠ .live)
    (hclean : ∀ r e, .handed c.session r e ∉ c.log) (monoNs : ℕ) :
    Reached (Attempt.client (c.lost monoNs)) := by
  have hlost : c.lost monoNs = .ok { c with stage := .disconnected } := by
    unfold Client.lost
    split
    · next hlive => exact absurd hlive hsetup
    · rfl
  rw [hlost]
  have htidy : Tidy (c.session + 1) c := by
    refine h.tidy.close ?_
    intro a x b hsplit hx
    have hmem : x ∈ c.log := by rw [hsplit]; exact List.mem_append_right _ List.mem_cons_self
    cases x with
    | handed n r e =>
      obtain rfl : n = c.session := Option.some.inj hx
      exact absurd hmem (hclean r e)
    | derived n call =>
      obtain rfl : n = c.session := Option.some.inj hx
      obtain ⟨r, e, hhand⟩ := h.tidy.handedBefore _ call hmem
      exact absurd hhand (hclean r e)
    | _ => cases hx
  exact ⟨⟨h.tidy.isolated, h.tidy.bound, h.tidy.writtenOff, h.tidy.recorder, h.tidy.handedBefore⟩,
    fun _ => ⟨htidy.isolated, htidy.bound, htidy.writtenOff, htidy.recorder, htidy.handedBefore⟩⟩

/-! ### Whole runs -/

/-- The event makes the setup of the current connection fail. -/
def failsSetup (c : Client) : ClientEvent → Prop
  | .ioError _ => True
  | .recv (.error id) _ => c.stage.awaited = some id
  | .recv (.response id result) _ => c.stage = .info id ∧ result.info = none
  | _ => False

/-- A setup that fails has handed nothing of its session to the converter. -/
def FailsClean (c : Client) (event : ClientEvent) : Prop :=
  c.stage.awaited.isSome → failsSetup c event → ∀ r e, .handed c.session r e ∉ c.log

theorem lost_reached {k : ℕ} {c : Client} (h : Open k c) (hstop : c.stage ≠ .stopped)
    (hclean : c.stage.awaited.isSome → ∀ r e, .handed c.session r e ∉ c.log) (monoNs : ℕ) :
    Reached (Attempt.client (c.lost monoNs)) := by
  by_cases hlive : c.stage = .live
  · exact lost_live h hlive monoNs
  · refine lost_setup h hlive (hclean ?_) monoNs
    cases hstage : c.stage with
    | disconnected => exact absurd hstage h.connected
    | live => exact absurd hstage hlive
    | stopped => exact absurd hstage hstop
    | _ => rfl

theorem reply_reached {k : ℕ} {c : Client} (h : Open k c) (cfg : ClientCfg) {id : ℕ}
    (result : Reply) (monoNs : ℕ) (hid : c.stage.awaited = some id)
    (hclean : FailsClean c (.recv (.response id result) monoNs)) :
    Reached (Attempt.client (c.reply cfg result monoNs)) := by
  cases hstage : c.stage with
  | disconnected => exact absurd hstage h.connected
  | live => rw [hstage] at hid; cases hid
  | stopped => rw [hstage] at hid; cases hid
  | info id' =>
    obtain rfl : id' = id := by rw [hstage] at hid; exact Option.some.inj hid
    simp only [Client.reply, hstage]
    cases hinfo : result.info with
    | none =>
      refine lost_reached h (by simp [hstage]) (fun hsome => ?_) monoNs
      exact hclean hsome ⟨hstage, hinfo⟩
    | some state =>
      dsimp only
      split
      · exact (h.setStage .heaters nofun).reached
      · exact (h.setStage (.info (nextInfoId id')) nofun).reached
  | heaters =>
    simp only [Client.reply, hstage]
    exact (setHeaterNames_open h result.availableHeaters).reached
  | subscribe =>
    simp only [Client.reply, hstage]
    split
    · exact (Attempt.bind_rule (P := Open k) (convert_open h _ monoNs)
        fun d hd => awaitTrapq_open hd cfg 0 monoNs).reached
    · exact (awaitTrapq_open h cfg 0 monoNs).reached
  | trapq i =>
    simp only [Client.reply, hstage]
    exact (awaitTrapq_open h cfg (i + 1) monoNs).reached
  | stepper i =>
    simp only [Client.reply, hstage]
    exact (awaitStepper_open h cfg (i + 1) monoNs).reached

theorem receive_reached {k : ℕ} {c : Client} (h : Open k c) (hstop : c.stage ≠ .stopped)
    (cfg : ClientCfg) (inbound : Inbound) (monoNs : ℕ)
    (hclean : FailsClean c (.recv inbound monoNs)) :
    Reached (Attempt.client (c.receive cfg inbound monoNs)) := by
  cases inbound with
  | notification n => exact (dispatch_open h n monoNs).reached
  | response id result =>
    simp only [Client.receive]
    split
    · next hid => exact reply_reached h cfg result monoNs hid hclean
    · exact h.reached
  | error id =>
    simp only [Client.receive]
    split
    · next hid => exact lost_reached h hstop (fun hsome => hclean hsome hid) monoNs
    · exact h.reached

theorem clientStep_reached {cfg : ClientCfg} {c d : Client} {event : ClientEvent}
    (h : Reached c) (hclean : FailsClean c event) (hstep : clientStep cfg c event = some d) :
    Reached d := by
  by_cases hdisconnected : c.stage = .disconnected
  · cases event with
    | connect =>
      simp only [clientStep, hdisconnected, Option.some.injEq] at hstep
      subst hstep
      have htidy := h.closed hdisconnected
      refine ⟨⟨htidy.isolated, ?_, htidy.writtenOff, htidy.recorder, htidy.handedBefore⟩, nofun⟩
      exact fun x hx n hn => (htidy.bound x hx n hn).trans (Nat.le_succ _)
    | connectFails =>
      simp only [clientStep, hdisconnected, Option.some.injEq] at hstep
      exact hstep ▸ h
    | recv inbound monoNs => simp [clientStep, hdisconnected] at hstep
    | ioError monoNs => simp [clientStep, hdisconnected] at hstep
  · have hopen : Open c.session c := ⟨rfl, hdisconnected, h.tidy⟩
    have hstop : c.stage ≠ .stopped := by
      intro hstop
      simp [clientStep, hstop] at hstep
    cases event with
    | connect => cases hstage : c.stage <;> simp_all [clientStep]
    | connectFails => cases hstage : c.stage <;> simp_all [clientStep]
    | recv inbound monoNs =>
      have hd : Attempt.client (c.receive cfg inbound monoNs) = d := by
        cases hstage : c.stage <;> simp_all [clientStep]
      exact hd ▸ receive_reached hopen hstop cfg inbound monoNs hclean
    | ioError monoNs =>
      have hd : Attempt.client (c.lost monoNs) = d := by
        cases hstage : c.stage <;> simp_all [clientStep]
      exact hd ▸ lost_reached hopen hstop (fun hsome => hclean hsome trivial) monoNs

theorem new_reached (callsLeft : Option ℕ) : Reached (Client.new callsLeft) := by
  have hlog : (Client.new callsLeft).log = [] := rfl
  have htidy : ∀ k, Tidy k (Client.new callsLeft) := by
    intro k
    refine ⟨Trace.justified_nil _, ?_, ?_, rfl, ?_⟩
    · intro x hx
      exact absurd (hlog ▸ hx) List.not_mem_nil
    · intro a x b n hsplit
      rw [hlog] at hsplit
      simp at hsplit
    · intro n call hmem
      exact absurd (hlog ▸ hmem) List.not_mem_nil
  exact ⟨htidy _, fun _ => htidy _⟩

/-- The baseline of a printer in the middle of a file. -/
def printingBaseline : StatusUpdate :=
  { eventtime := 1
    printStats := .present { state := some "printing" }
    virtualSdcard := .present
      { filePath := some (some "part.gcode"), isActive := some true, filePosition := some 10,
        fileSize := some 100 } }

/-- The baseline of a printer that has just restarted. -/
def restartedBaseline : StatusUpdate :=
  { eventtime := 2
    printStats := .present { state := some "standby" }
    virtualSdcard := .present
      { filePath := some none, isActive := some false, filePosition := some 0,
        fileSize := some 0 } }

/-- A connection up to the reply that carries its baseline. -/
def subscribed (baseline : StatusUpdate) : List ClientEvent :=
  [.connect, .recv (.response idInfo { info := some (some "ready") }) 0,
    .recv (.response idHeatersQuery {}) 0,
    .recv (.response idSubscribe { status := some baseline }) 0]

/-- The first dump request is refused; the client reconnects to the restarted printer. -/
def refusedDump : List ClientEvent :=
  subscribed printingBaseline ++ .recv (.error idTrapqBase) 0 :: subscribed restartedBaseline

def oneQueue : ClientCfg := { trapqQueues := ["toolhead"], zSteppers := [] }

def Entry.journalsEnd (n : ℕ) : Entry → Bool
  | .derived m (.marker { monoNs := _, kind }) => m == n && kind == .cleanShutdown
  | _ => false

def Entry.observesPrint (n : ℕ) : Entry → Bool
  | .handed m _ (.status u _ _) =>
      m == n && (u.card.isActive == some true || u.printState?.any PrintState.isInProgress)
  | _ => false

theorem refusedDump_log :
    ((Runs.run (clientStep oneQueue) (Client.new none) refusedDump).map fun c =>
      (c.log.any (Entry.journalsEnd 2), c.log.any (Entry.observesPrint 2))) =
    some (true, false) := by
  rfl

/-- A refused subscription, then a reconnection. -/
def refusedSubscription : List ClientEvent :=
  .connect :: .recv (.response idInfo { info := some (some "ready") }) 0 ::
    .recv (.response idHeatersQuery {}) 0 :: .recv (.error idSubscribe) 0 ::
    subscribed restartedBaseline

theorem refusedSubscription_failsClean :
    Runs.Along (clientStep oneQueue) FailsClean (Client.new none) refusedSubscription := by
  refine Runs.along_cons (fun _ => False.elim) fun _ h => ?_
  cases h
  refine Runs.along_cons (fun _ h => nomatch h.2) fun _ h => ?_
  cases h
  refine Runs.along_cons (fun _ h => Stage.noConfusion h.1) fun _ h => ?_
  cases h
  refine Runs.along_cons (fun _ _ r e hmem => ?_) fun _ h => ?_
  · have hnames : Entry.handed 1 r e ∈ [Entry.heaterNames []] := hmem
    cases List.mem_singleton.mp hnames
  cases h
  refine Runs.along_cons (fun _ => False.elim) fun _ h => ?_
  cases h
  refine Runs.along_cons (fun _ h => nomatch h.2) fun _ h => ?_
  cases h
  refine Runs.along_cons (fun _ h => Stage.noConfusion h.1) fun _ h => ?_
  cases h
  exact Runs.along_cons (fun _ h => Stage.noConfusion h.1) fun _ _ => Runs.along_nil _ _ _

end DeadReckoning.Recording
