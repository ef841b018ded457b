import DeadReckoning.Lib.Runs
import DeadReckoning.Lib.Trace
import DeadReckoning.Lib.Text
import Mathlib.Data.Rat.Defs

/-! The calls to the daemon that the plugin makes on worker threads. A call takes the one slot of its
channel under the lock, then starts a thread; the thread hands its result to the reactor, which frees
the slot and runs a callback. Everything that the lock does not hold together may be interleaved. -/
namespace DeadReckoning.Plugin.DaemonWorker

/-- What is kept of a channel under its lock. -/
structure AsyncDaemon where
  busy : Bool
  generation : ℕ
  closed : Bool
  inFlightCmd : Option Text
  inFlightUntil : Option ℚ
  inFlightGeneration : ℕ
  threadFailed : Bool
  deriving DecidableEq

namespace AsyncDaemon

def new : AsyncDaemon where
  busy := false
  generation := 0
  closed := false
  inFlightCmd := none
  inFlightUntil := none
  inFlightGeneration := 0
  threadFailed := false

/-- A call takes the slot, unless it is taken or the channel is closed. -/
def take (d : AsyncDaemon) (cmd : Text) (deadline : ℚ) : Option AsyncDaemon :=
  if d.closed || d.busy then none
  else
    some
      { d with
        busy := true
        threadFailed := false
        inFlightCmd := some cmd
        inFlightGeneration := d.generation
        inFlightUntil := some deadline }

/-- The thread of a call could not be started. -/
def threadFails (d : AsyncDaemon) : AsyncDaemon :=
  { d with busy := false, inFlightCmd := none, inFlightUntil := none, threadFailed := true }

def cancel (d : AsyncDaemon) : AsyncDaemon := { d with generation := d.generation + 1 }

/-- The result of a call of this generation is not to be delivered any more. -/
def isStale (d : AsyncDaemon) (generation : ℕ) : Bool := d.closed || generation != d.generation

def release (d : AsyncDaemon) : AsyncDaemon := { d with busy := false }

def handleDisconnect (d : AsyncDaemon) : AsyncDaemon :=
  { d with closed := true, generation := d.generation + 1 }

end AsyncDaemon

/-- How far a call has come that holds the slot. A result is a response or an error. -/
inductive Stage where
  | starting
  | working
  | handedOver (success : Bool)
  deriving DecidableEq

structure Flight where
  id : ℕ
  generation : ℕ
  stage : Stage
  deriving DecidableEq

/-- A channel with its worker threads and the results on their way to the reactor. Calls are told
apart by their numbers. -/
structure World where
  daemon : AsyncDaemon
  flights : List Flight
  calls : List ℕ
  /-- What the calls have returned. -/
  returned : List (ℕ × Bool)
  /-- The callbacks that have run, for success or for error. -/
  ran : List (ℕ × Bool)
  /-- The calls of which a callback raised an error. -/
  reported : List ℕ

def World.new : World := ⟨.new, [], [], [], [], []⟩

inductive Event where
  | call (id : ℕ) (cmd : Text) (deadline : ℚ)
  | threadStarts (id : ℕ)
  | threadFails (id : ℕ)
  | cancel
  /-- The worker hands its result over to the reactor. -/
  | complete (id : ℕ) (success : Bool)
  /-- The worker finds the reactor gone. -/
  | lose (id : ℕ)
  /-- The reactor takes the result, and the callback raises an error or does not. What the callback
  does to the channel comes as events of its own. -/
  | deliver (id : ℕ) (raises : Bool)
  | disconnect
  deriving DecidableEq

def World.flight (w : World) (id : ℕ) : Option Flight := w.flights.find? fun f => f.id = id

/-- The flight without its slot. -/
def World.others (w : World) (id : ℕ) : List Flight := w.flights.filter fun f => f.id ≠ id

/-- What happens next, `none` where it cannot happen. -/
def step (w : World) : Event → Option World
  | .call id cmd deadline =>
      if id ∈ w.calls then none
      else
        match w.daemon.take cmd deadline with
        | none => some { w with calls := id :: w.calls, returned := (id, false) :: w.returned }
        | some daemon =>
            some
              { w with
                daemon := daemon
                flights := ⟨id, w.daemon.generation, .starting⟩ :: w.flights
                calls := id :: w.calls }
  | .threadStarts id =>
      match w.flight id with
      | some ⟨id, generation, .starting⟩ =>
          some
            { w with
              flights := ⟨id, generation, .working⟩ :: w.others id
              returned := (id, true) :: w.returned }
      | _ => none
  | .threadFails id =>
      match w.flight id with
      | some ⟨id, _, .starting⟩ =>
          some
            { w with
              daemon := w.daemon.threadFails
              flights := w.others id
              returned := (id, false) :: w.returned }
      | _ => none
  | .cancel => some { w with daemon := w.daemon.cancel }
  | .complete id success =>
      match w.flight id with
      | some ⟨id, generation, .working⟩ =>
          some { w with flights := ⟨id, generation, .handedOver success⟩ :: w.others id }
      | _ => none
  | .lose id =>
      match w.flight id with
      | some ⟨id, _, .working⟩ =>
          if w.daemon.closed then some { w with flights := w.others id } else none
      | _ => none
  | .deliver id raises =>
      match w.flight id with
      | some ⟨id, generation, .handedOver success⟩ =>
          let released := { w with daemon := w.daemon.release, flights := w.others id }
          if w.daemon.isStale generation then some released
          else
            some
              { released with
                ran := (id, success) :: w.ran
                reported := if raises then id :: w.reported else w.reported }
      | _ => none
  | .disconnect => some { w with daemon := w.daemon.handleDisconnect }

/-- The events since the call, the last one first. -/
def since (id : ℕ) (past : List Event) : List Event :=
  past.reverse.takeWhile fun e =>
    match e with
    | .call other _ _ => other ≠ id
    | _ => true

/-- Nothing has dismissed the call. -/
def Undisturbed (id : ℕ) (past : List Event) : Prop :=
  ∀ e ∈ since id past, e ≠ .cancel ∧ e ≠ .disconnect

/-- How a channel behaves after these events. -/
structure SingleFlight (events : List Event) (w : World) : Prop where
  /-- One worker at most has not handed over its result. -/
  oneWorker : (w.flights.filter fun f => f.stage = .working).length ≤ 1
  /-- No call runs two callbacks. -/
  once : (w.ran.map (·.1)).Nodup
  /-- A callback that has run was delivered, and nothing had dismissed its call. -/
  undisturbed : ∀ id success, (id, success) ∈ w.ran → ∃ before raises after,
    events = before ++ .deliver id raises :: after ∧ Undisturbed id before ∧
      .complete id success ∈ before
  /-- A delivery of a call that nothing has dismissed runs a callback. -/
  delivered : ∀ before id raises after, events = before ++ .deliver id raises :: after →
    Undisturbed id before → ∃ success, (id, success) ∈ w.ran
  /-- A call that was refused runs nothing and holds nothing. -/
  refused : ∀ id, (id, false) ∈ w.returned →
    (∀ success, (id, success) ∉ w.ran) ∧ ∀ f ∈ w.flights, f.id ≠ id
  /-- A call that is refused leaves everything else alone. -/
  untouched : ∀ id cmd deadline w', step w (.call id cmd deadline) = some w' →
    (id, false) ∈ w'.returned →
    w' = { w with calls := id :: w.calls, returned := (id, false) :: w.returned }
  /-- A call whose thread fails is the only one under way. -/
  alone : ∀ id w', step w (.threadFails id) = some w' →
    (∀ f ∈ w.flights, f.id = id) ∧ w'.flights = [] ∧ w'.ran = w.ran
  /-- With nothing under way the next call is accepted. -/
  accepts : w.flights = [] → .disconnect ∉ events → ∀ id cmd deadline, id ∉ w.calls →
    ∃ w' w'', step w (.call id cmd deadline) = some w' ∧ step w' (.threadStarts id) = some w'' ∧
      (id, true) ∈ w''.returned

section Invariant

variable {past : List Event} {w : World}

theorem since_snoc (id : ℕ) (past : List Event) (e : Event)
    (h : ∀ cmd deadline, e ≠ .call id cmd deadline) :
    since id (past ++ [e]) = e :: since id past := by
  unfold since
  rw [List.reverse_append, List.reverse_singleton, List.singleton_append, List.takeWhile_cons]
  cases e with
  | call other cmd deadline =>
    have hne : other ≠ id := by
      rintro rfl
      exact h cmd deadline rfl
    simp [hne]
  | _ => rfl

theorem undisturbed_call (id : ℕ) (past : List Event) (cmd : Text) (deadline : ℚ) :
    Undisturbed id (past ++ [.call id cmd deadline]) := by
  intro e he
  simp [since] at he

theorem undisturbed_snoc {id : ℕ} {e : Event} (h : ∀ cmd deadline, e ≠ .call id cmd deadline) :
    Undisturbed id (past ++ [e]) ↔ (e ≠ .cancel ∧ e ≠ .disconnect) ∧ Undisturbed id past := by
  simp only [Undisturbed, since_snoc id past e h, List.forall_mem_cons]

/-- A call that is under way: whether its generation is the present one is whether something has
dismissed it. -/
structure UnderWay (past : List Event) (w : World) (f : Flight) : Prop where
  called : f.id ∈ w.calls
  busy : w.daemon.busy = true
  generation : f.generation ≤ w.daemon.generation
  current : f.generation = w.daemon.generation ↔ Undisturbed f.id past
  closed : w.daemon.closed = true → f.generation ≠ w.daemon.generation
  quiet : ∀ success, (f.id, success) ∉ w.ran
  returned : (f.id, false) ∉ w.returned
  undelivered : ∀ raises, .deliver f.id raises ∉ past
  completed : ∀ success, f.stage = .handedOver success → .complete f.id success ∈ past

/-- What a callback needs that has run. -/
def RanFor (past : List Event) (id : ℕ) (success : Bool) : Prop :=
  ∃ before raises after, past = before ++ .deliver id raises :: after ∧ Undisturbed id before ∧
    .complete id success ∈ before

/-- A delivery of an undisturbed call has run a callback. -/
def Served (ran : List (ℕ × Bool)) (before : List Event) (e : Event) : Prop :=
  ∀ id raises, e = .deliver id raises → Undisturbed id before → ∃ success, (id, success) ∈ ran

structure Inv (past : List Event) (w : World) : Prop where
  flights : w.flights = [] ∨ ∃ f, w.flights = [f] ∧ UnderWay past w f
  free : w.flights = [] → w.daemon.busy = true → w.daemon.closed = true
  closed : w.daemon.closed = true ↔ .disconnect ∈ past
  once : (w.ran.map (·.1)).Nodup
  ran : ∀ id success, (id, success) ∈ w.ran →
    id ∈ w.calls ∧ (id, false) ∉ w.returned ∧ RanFor past id success
  returned : ∀ id answer, (id, answer) ∈ w.returned → id ∈ w.calls
  delivered : ∀ id raises, .deliver id raises ∈ past → id ∈ w.calls
  served : Trace.Justified (Served w.ran) past

theorem inv_new : Inv [] .new where
  flights := .inl rfl
  free _ h := by cases h
  closed := by simp [World.new, AsyncDaemon.new]
  once := List.nodup_nil
  ran _ _ h := by cases h
  returned _ _ h := by cases h
  delivered _ _ h := by cases h
  served := Trace.justified_nil _

theorem RanFor.snoc {id : ℕ} {success : Bool} (h : RanFor past id success) (e : Event) :
    RanFor (past ++ [e]) id success := by
  obtain ⟨before, raises, after, rfl, hquiet, hcomplete⟩ := h
  exact ⟨before, raises, after ++ [e], by simp, hquiet, hcomplete⟩

/-- The one flight of its number. -/
theorem Inv.flight (h : Inv past w) {id : ℕ} {f : Flight} (hf : w.flight id = some f) :
    w.flights = [f] ∧ f.id = id ∧ UnderWay past w f ∧ w.others id = [] := by
  obtain hnone | ⟨f', hone, hway⟩ := h.flights
  · rw [World.flight, hnone] at hf
    cases hf
  · rw [World.flight, hone] at hf
    have hid := List.find?_some hf
    have hmem := List.mem_of_find?_eq_some hf
    obtain rfl := List.mem_singleton.mp hmem
    have hid : f.id = id := by simpa using hid
    exact ⟨hone, hid, hway, by simp [World.others, hone, hid]⟩

/-- A flight goes on while something happens that does not concern it. -/
theorem UnderWay.later {f : Flight} (h : UnderWay past w f) (e : Event) (w' : World) (stage : Stage)
    (hcall : ∀ cmd deadline, e ≠ .call f.id cmd deadline) (hquiet : e ≠ .cancel ∧ e ≠ .disconnect)
    (hdeliver : ∀ raises, e ≠ .deliver f.id raises) (hdaemon : w'.daemon = w.daemon)
    (hcalls : w.calls ⊆ w'.calls) (hran : w'.ran = w.ran) (hreturned : (f.id, false) ∉ w'.returned)
    (hstage : ∀ success, stage = .handedOver success → .complete f.id success ∈ past ++ [e]) :
    UnderWay (past ++ [e]) w' { f with stage := stage } where
  called := hcalls h.called
  busy := hdaemon ▸ h.busy
  generation := hdaemon ▸ h.generation
  current := by rw [hdaemon, h.current, undisturbed_snoc hcall, and_iff_right hquiet]
  closed := hdaemon ▸ h.closed
  quiet success := hran ▸ h.quiet success
  returned := hreturned
  undelivered raises hmem := by
    rcases List.mem_append.mp hmem with hmem | hmem
    · exact h.undelivered raises hmem
    · exact hdeliver raises (List.mem_singleton.mp hmem).symm
  completed := hstage

/-- A flight that is dismissed stays under way, its generation is over. -/
theorem UnderWay.dismissed {f : Flight} (h : UnderWay past w f) {e : Event}
    (hquiet : e = .cancel ∨ e = .disconnect) {daemon : AsyncDaemon}
    (hbusy : daemon.busy = w.daemon.busy) (hgeneration : daemon.generation = w.daemon.generation + 1) :
    UnderWay (past ++ [e]) { w with daemon := daemon } f := by
  have hle := h.generation
  have hne : f.generation ≠ daemon.generation := by omega
  have hcall : ∀ cmd deadline, e ≠ .call f.id cmd deadline := by
    rintro cmd deadline rfl
    simp at hquiet
  refine
    { called := h.called
      busy := hbusy.trans h.busy
      generation := by rw [hgeneration]; omega
      current := iff_of_false hne fun hundisturbed => ?_
      closed := fun _ => hne
      quiet := h.quiet
      returned := h.returned
      undelivered := fun raises hmem => ?_
      completed := fun success hs => List.mem_append_left _ (h.completed success hs) }
  · have hnot := ((undisturbed_snoc hcall).mp hundisturbed).1
    exact hquiet.elim hnot.1 hnot.2
  · rcases List.mem_append.mp hmem with hmem | hmem
    · exact h.undelivered raises hmem
    · obtain rfl := List.mem_singleton.mp hmem
      simp at hquiet

/-- What happens otherwise than a delivery leaves what has been served. -/
theorem Inv.served_snoc (h : Inv past w) {e : Event} (hdeliver : ∀ id raises, e ≠ .deliver id raises) :
    Trace.Justified (Served w.ran) (past ++ [e]) :=
  Trace.justified_snoc.mpr ⟨h.served, fun id raises heq => absurd heq (hdeliver id raises)⟩

theorem Inv.delivered_snoc (h : Inv past w) {e : Event}
    (hdeliver : ∀ id raises, e ≠ .deliver id raises) (id : ℕ) (raises : Bool)
    (hmem : .deliver id raises ∈ past ++ [e]) : id ∈ w.calls := by
  rcases List.mem_append.mp hmem with hmem | hmem
  · exact h.delivered id raises hmem
  · exact absurd (List.mem_singleton.mp hmem).symm (hdeliver id raises)

theorem Inv.closed_snoc (h : Inv past w) {e : Event} (hne : e ≠ .disconnect) :
    w.daemon.closed = true ↔ .disconnect ∈ past ++ [e] := by
  rw [h.closed, List.mem_append, List.mem_singleton]
  exact ⟨.inl, fun hor => hor.resolve_right hne.symm⟩

theorem Inv.ran_snoc (h : Inv past w) {id : ℕ} {success : Bool} (hmem : (id, success) ∈ w.ran)
    (e : Event) : id ∈ w.calls ∧ (id, false) ∉ w.returned ∧ RanFor (past ++ [e]) id success := by
  obtain ⟨hcalled, hreturned, hran⟩ := h.ran id success hmem
  exact ⟨hcalled, hreturned, hran.snoc e⟩

theorem Inv.cancel (h : Inv past w) :
    Inv (past ++ [.cancel]) { w with daemon := w.daemon.cancel } where
  flights := h.flights.imp_right fun ⟨f, hone, hway⟩ => ⟨f, hone, hway.dismissed (.inl rfl) rfl rfl⟩
  free := h.free
  closed := h.closed_snoc (by simp)
  once := h.once
  ran _ _ hmem := h.ran_snoc hmem _
  returned := h.returned
  delivered := h.delivered_snoc (by simp)
  served := h.served_snoc (by simp)

theorem Inv.disconnect (h : Inv past w) :
    Inv (past ++ [.disconnect]) { w with daemon := w.daemon.handleDisconnect } where
  flights := h.flights.imp_right fun ⟨f, hone, hway⟩ => ⟨f, hone, hway.dismissed (.inr rfl) rfl rfl⟩
  free _ _ := rfl
  closed := by simp [AsyncDaemon.handleDisconnect]
  once := h.once
  ran _ _ hmem := h.ran_snoc hmem _
  returned := h.returned
  delivered := h.delivered_snoc (by simp)
  served := h.served_snoc (by simp)

theorem Inv.refused (h : Inv past w) {id : ℕ} (hid : id ∉ w.calls) (cmd : Text) (deadline : ℚ) :
    Inv (past ++ [.call id cmd deadline])
      { w with calls := id :: w.calls, returned := (id, false) :: w.returned } where
  flights := by
    refine h.flights.imp_right fun ⟨f, hone, hway⟩ => ⟨f, hone, ?_⟩
    have hne : f.id ≠ id := fun heq => hid (heq ▸ hway.called)
    refine hway.later (.call id cmd deadline) _ f.stage (by simp [Ne.symm hne]) (by simp) (by simp) rfl
      (List.subset_cons_self _ _) rfl ?_ fun success hs =>
        List.mem_append_left _ (hway.completed success hs)
    simp [hne, hway.returned]
  free := h.free
  closed := h.closed_snoc (by simp)
  once := h.once
  ran other success hmem := by
    obtain ⟨hcalled, hreturned, hran⟩ := h.ran other success hmem
    have hne : other ≠ id := fun heq => hid (heq ▸ hcalled)
    exact ⟨List.mem_cons_of_mem _ hcalled, by simp [hne, hreturned], hran.snoc _⟩
  returned other answer hmem := by
    rcases List.mem_cons.mp hmem with heq | hmem
    · obtain ⟨rfl, rfl⟩ := Prod.mk.inj heq
      exact List.mem_cons_self
    · exact List.mem_cons_of_mem _ (h.returned other answer hmem)
  delivered other raises hmem := List.mem_cons_of_mem _ (h.delivered_snoc (by simp) other raises hmem)
  served := h.served_snoc (by simp)

theorem Inv.taken (h : Inv past w) {id : ℕ} (hid : id ∉ w.calls) {cmd : Text} {deadline : ℚ}
    {daemon : AsyncDaemon} (htake : w.daemon.take cmd deadline = some daemon) :
    Inv (past ++ [.call id cmd deadline])
      { w with
        daemon := daemon
        flights := ⟨id, w.daemon.generation, .starting⟩ :: w.flights
        calls := id :: w.calls } := by
  unfold AsyncDaemon.take at htake
  split at htake
  · cases htake
  rename_i hopen
  obtain ⟨hclosed, hbusy⟩ : w.daemon.closed = false ∧ w.daemon.busy = false := by
    simpa using hopen
  obtain rfl := Option.some.inj htake
  have hnone : w.flights = [] := by
    rcases h.flights with hnone | ⟨f, -, hway⟩
    · exact hnone
    · rw [hway.busy] at hbusy
      cases hbusy
  refine
    { flights := .inr ⟨_, by rw [hnone], ?_⟩
      free := by simp
      closed := h.closed_snoc (by simp)
      once := h.once
      ran := ?_
      returned := fun other answer hmem => List.mem_cons_of_mem _ (h.returned other answer hmem)
      delivered := fun other raises hmem =>
        List.mem_cons_of_mem _ (h.delivered_snoc (by simp) other raises hmem)
      served := h.served_snoc (by simp) }
  · exact
      { called := List.mem_cons_self
        busy := rfl
        generation := le_rfl
        current := iff_of_true rfl (undisturbed_call id past cmd deadline)
        closed := by simp [hclosed]
        quiet := fun success hmem => hid (h.ran id success hmem).1
        returned := fun hmem => hid (h.returned id false hmem)
        undelivered := fun raises hmem => hid (h.delivered_snoc (by simp) id raises hmem)
        completed := by simp }
  · intro other success hmem
    obtain ⟨hcalled, hreturned, hran⟩ := h.ran_snoc hmem (.call id cmd deadline)
    exact ⟨List.mem_cons_of_mem _ hcalled, hreturned, hran⟩

theorem Inv.threadStarts (h : Inv past w) {id generation : ℕ}
    (hf : w.flight id = some ⟨id, generation, .starting⟩) :
    Inv (past ++ [.threadStarts id])
      { w with
        flights := ⟨id, generation, .working⟩ :: w.others id
        returned := (id, true) :: w.returned } := by
  obtain ⟨-, -, hway, hothers⟩ := h.flight hf
  refine
    { flights := .inr ⟨⟨id, generation, .working⟩, by rw [hothers], ?_⟩
      free := by simp
      closed := h.closed_snoc (by simp)
      once := h.once
      ran := ?_
      returned := ?_
      delivered := h.delivered_snoc (by simp)
      served := h.served_snoc (by simp) }
  · refine hway.later (.threadStarts id) _ .working (by simp) (by simp) (by simp) rfl (List.Subset.refl _) rfl
      ?_ (by simp)
    simpa using hway.returned
  · intro other success hmem
    obtain ⟨hcalled, hreturned, hran⟩ := h.ran_snoc hmem (.threadStarts id)
    exact ⟨hcalled, by simpa using hreturned, hran⟩
  · intro other answer hmem
    rcases List.mem_cons.mp hmem with heq | hmem
    · obtain ⟨rfl, -⟩ := Prod.mk.inj heq
      exact hway.called
    · exact h.returned other answer hmem

theorem Inv.complete (h : Inv past w) {id generation : ℕ} (success : Bool)
    (hf : w.flight id = some ⟨id, generation, .working⟩) :
    Inv (past ++ [.complete id success])
      { w with flights := ⟨id, generation, .handedOver success⟩ :: w.others id } := by
  obtain ⟨-, -, hway, hothers⟩ := h.flight hf
  refine
    { flights := .inr ⟨⟨id, generation, .handedOver success⟩, by rw [hothers], ?_⟩
      free := by simp
      closed := h.closed_snoc (by simp)
      once := h.once
      ran := fun _ _ hmem => h.ran_snoc hmem _
      returned := h.returned
      delivered := h.delivered_snoc (by simp)
      served := h.served_snoc (by simp) }
  exact hway.later (.complete id success) _ (.handedOver success) (by simp) (by simp) (by simp) rfl (List.Subset.refl _) rfl
    hway.returned (by simp)

/-- The slot is given up without a delivery. -/
theorem Inv.dropped (h : Inv past w) {id : ℕ} {f : Flight} (hf : w.flight id = some f) {e : Event}
    (he : e = .threadFails id ∨ e = .lose id) (daemon : AsyncDaemon)
    (hclosed : daemon.closed = w.daemon.closed) (hfree : daemon.busy = true → daemon.closed = true)
    {returned : List (ℕ × Bool)}
    (hreturned : returned = w.returned ∨ returned = (id, false) :: w.returned) :
    Inv (past ++ [e])
      { w with daemon := daemon, flights := w.others id, returned := returned } := by
  obtain ⟨-, rfl, hway, hothers⟩ := h.flight hf
  have hdeliver : ∀ other raises, e ≠ .deliver other raises := by
    rintro other raises rfl
    simp at he
  have hdisconnect : e ≠ .disconnect := by
    rintro rfl
    simp at he
  refine
    { flights := .inl hothers
      free := fun _ => hfree
      closed := by rw [hclosed]; exact h.closed_snoc hdisconnect
      once := h.once
      ran := fun other success hmem => ?_
      returned := fun other answer hmem => ?_
      delivered := h.delivered_snoc hdeliver
      served := h.served_snoc hdeliver }
  · obtain ⟨hcalled, hsilent, hran⟩ := h.ran_snoc hmem e
    refine ⟨hcalled, ?_, hran⟩
    rcases hreturned with rfl | rfl
    · exact hsilent
    · have hne : other ≠ f.id := by
        rintro rfl
        exact hway.quiet success hmem
      simp [hne, hsilent]
  · rcases hreturned with rfl | rfl
    · exact h.returned other answer hmem
    · rcases List.mem_cons.mp hmem with heq | hmem
      · obtain ⟨rfl, -⟩ := Prod.mk.inj heq
        exact hway.called
      · exact h.returned other answer hmem

/-- A result is taken and dropped because its call was dismissed. -/
theorem Inv.stale (h : Inv past w) {id generation : ℕ} {success : Bool} (raises : Bool)
    (hf : w.flight id = some ⟨id, generation, .handedOver success⟩)
    (hstale : w.daemon.isStale generation = true) :
    Inv (past ++ [.deliver id raises])
      { w with daemon := w.daemon.release, flights := w.others id } := by
  obtain ⟨-, -, hway, hothers⟩ := h.flight hf
  have hdismissed : ¬Undisturbed id past := by
    rw [← hway.current]
    simp only [AsyncDaemon.isStale, Bool.or_eq_true, bne_iff_ne] at hstale
    rcases hstale with hclosed | hne
    · exact hway.closed hclosed
    · exact hne
  refine
    { flights := .inl hothers
      free := by simp [AsyncDaemon.release]
      closed := h.closed_snoc (by simp)
      once := h.once
      ran := fun _ _ hmem => h.ran_snoc hmem _
      returned := h.returned
      delivered := fun other raises' hmem => ?_
      served := Trace.justified_snoc.mpr ⟨h.served, fun other raises' heq hquiet => ?_⟩ }
  · rcases List.mem_append.mp hmem with hmem | hmem
    · exact h.delivered other raises' hmem
    · obtain ⟨rfl, -⟩ := Event.deliver.inj (List.mem_singleton.mp hmem)
      exact hway.called
  · obtain ⟨rfl, -⟩ := Event.deliver.inj heq
    exact absurd hquiet hdismissed

/-- A result is taken, and the callback runs. -/
theorem Inv.invoked (h : Inv past w) {id generation : ℕ} {success : Bool} (raises : Bool)
    (hf : w.flight id = some ⟨id, generation, .handedOver success⟩)
    (hfresh : w.daemon.isStale generation = false) (reported : List ℕ) :
    Inv (past ++ [.deliver id raises])
      { w with
        daemon := w.daemon.release
        flights := w.others id
        ran := (id, success) :: w.ran
        reported := reported } := by
  obtain ⟨-, -, hway, hothers⟩ := h.flight hf
  have hundisturbed : Undisturbed id past := by
    rw [← hway.current]
    simp only [AsyncDaemon.isStale, Bool.or_eq_false_iff, bne_eq_false_iff_eq] at hfresh
    exact hfresh.2
  refine
    { flights := .inl hothers
      free := by simp [AsyncDaemon.release]
      closed := h.closed_snoc (by simp)
      once := ?_
      ran := fun other success' hmem => ?_
      returned := h.returned
      delivered := fun other raises' hmem => ?_
      served := Trace.justified_snoc.mpr ⟨?_, fun other raises' heq _ => ?_⟩ }
  · rw [List.map_cons, List.nodup_cons]
    refine ⟨fun hmem => ?_, h.once⟩
    obtain ⟨⟨other, success'⟩, hran, rfl⟩ := List.mem_map.mp hmem
    exact hway.quiet success' hran
  · rcases List.mem_cons.mp hmem with heq | hmem
    · obtain ⟨rfl, rfl⟩ := Prod.mk.inj heq
      exact ⟨hway.called, hway.returned, past, raises, [], rfl, hundisturbed,
        hway.completed success' rfl⟩
    · exact h.ran_snoc hmem _
  · rcases List.mem_append.mp hmem with hmem | hmem
    · exact h.delivered other raises' hmem
    · obtain ⟨rfl, -⟩ := Event.deliver.inj (List.mem_singleton.mp hmem)
      exact hway.called
  · refine h.served.mono fun before e hserved other raises' heq hquiet => ?_
    obtain ⟨success', hran⟩ := hserved other raises' heq hquiet
    exact ⟨success', List.mem_cons_of_mem _ hran⟩
  · obtain ⟨rfl, -⟩ := Event.deliver.inj heq
    exact ⟨success, List.mem_cons_self⟩

theorem inv_step {w' : World} {e : Event} (h : Inv past w) (hstep : step w e = some w') :
    Inv (past ++ [e]) w' := by
  cases e with
  | call id cmd deadline =>
    simp only [step] at hstep
    split at hstep
    · cases hstep
    rename_i hid
    cases htake : w.daemon.take cmd deadline with
    | none =>
      rw [htake] at hstep
      obtain rfl := Option.some.inj hstep
      exact h.refused hid cmd deadline
    | some daemon =>
      rw [htake] at hstep
      obtain rfl := Option.some.inj hstep
      exact h.taken hid htake
  | threadStarts id =>
    simp only [step] at hstep
    split at hstep
    · rename_i id' generation hf
      obtain rfl : id' = id := (h.flight hf).2.1
      obtain rfl := Option.some.inj hstep
      exact h.threadStarts hf
    · cases hstep
  | threadFails id =>
    simp only [step] at hstep
    split at hstep
    · rename_i id' generation hf
      obtain rfl : id' = id := (h.flight hf).2.1
      obtain rfl := Option.some.inj hstep
      have hfree : w.daemon.threadFails.busy = true → w.daemon.threadFails.closed = true := by
        simp [AsyncDaemon.threadFails]
      exact h.dropped hf (.inl rfl) w.daemon.threadFails rfl hfree (.inr rfl)
    · cases hstep
  | cancel =>
    obtain rfl := Option.some.inj hstep
    exact h.cancel
  | complete id success =>
    simp only [step] at hstep
    split at hstep
    · rename_i id' generation hf
      obtain rfl : id' = id := (h.flight hf).2.1
      obtain rfl := Option.some.inj hstep
      exact h.complete success hf
    · cases hstep
  | lose id =>
    simp only [step] at hstep
    split at hstep
    · rename_i id' generation hf
      obtain rfl : id' = id := (h.flight hf).2.1
      split at hstep
      · rename_i hclosed
        obtain rfl := Option.some.inj hstep
        exact h.dropped hf (.inr rfl) w.daemon rfl (fun _ => hclosed) (.inl rfl)
      · cases hstep
    · cases hstep
  | deliver id raises =>
    simp only [step] at hstep
    split at hstep
    · rename_i id' generation success hf
      obtain rfl : id' = id := (h.flight hf).2.1
      split at hstep
      · rename_i hstale
        obtain rfl := Option.some.inj hstep
        exact h.stale raises hf hstale
      · rename_i hfresh
        obtain rfl := Option.some.inj hstep
        exact h.invoked raises hf (Bool.not_eq_true _ ▸ hfresh) _
    · cases hstep
  | disconnect =>
    obtain rfl := Option.some.inj hstep
    exact h.disconnect

theorem Inv.run {events : List Event} (hrun : Runs.run step .new events = some w) : Inv events w :=
  @Runs.run_history World Event step (fun _ _ => True) Inv .new w events inv_new
    (fun _ _ _ _ hinv _ hstep => inv_step hinv hstep) (fun _ _ _ _ _ _ => trivial) hrun

end Invariant

/-- In every interleaving one call at a time is under way, and its callback runs once or, where
something has dismissed it, not at all. -/
theorem single_flight (events : List Event) (w : World) (hrun : Runs.run step .new events = some w) :
    SingleFlight events w := by
  have h : Inv events w := .run hrun
  constructor
  case oneWorker =>
    rcases h.flights with hnone | ⟨f, hone, -⟩
    · simp [hnone]
    · rw [hone]
      exact List.length_filter_le _ _
  case once => exact h.once
  case undisturbed => exact fun id success hmem => (h.ran id success hmem).2.2
  case delivered =>
    intro before id raises after hsplit hquiet
    exact h.served before _ after hsplit id raises rfl hquiet
  case refused =>
    intro id hreturned
    refine ⟨fun success hmem => (h.ran id success hmem).2.1 hreturned, fun f hf heq => ?_⟩
    rcases h.flights with hnone | ⟨f', hone, hway⟩
    · rw [hnone] at hf
      cases hf
    · rw [hone] at hf
      obtain rfl := List.mem_singleton.mp hf
      exact hway.returned (heq ▸ hreturned)
  case untouched =>
    intro id cmd deadline w' hstep hreturned
    simp only [step] at hstep
    split at hstep
    · cases hstep
    rename_i hid
    split at hstep
    · exact (Option.some.inj hstep).symm
    · obtain rfl := Option.some.inj hstep
      exact absurd (h.returned id false hreturned) hid
  case alone =>
    intro id w' hstep
    simp only [step] at hstep
    split at hstep
    · rename_i id' generation hf
      obtain ⟨hone, rfl, -, hothers⟩ := h.flight hf
      obtain rfl := Option.some.inj hstep
      exact ⟨by simp [hone], hothers, rfl⟩
    · cases hstep
  case accepts =>
    intro hnone hopen id cmd deadline hid
    have hclosed : w.daemon.closed = false := by
      rw [← Bool.not_eq_true, h.closed]
      exact hopen
    have hbusy : w.daemon.busy = false := by
      rw [← Bool.not_eq_true]
      intro hbusy
      rw [h.free hnone hbusy] at hclosed
      cases hclosed
    have htake : w.daemon.take cmd deadline = some
        { w.daemon with
          busy := true
          threadFailed := false
          inFlightCmd := some cmd
          inFlightGeneration := w.daemon.generation
          inFlightUntil := some deadline } := by
      simp [AsyncDaemon.take, hclosed, hbusy]
    obtain ⟨w', hcall, hflight⟩ : ∃ w', step w (.call id cmd deadline) = some w' ∧
        w'.flight id = some ⟨id, w.daemon.generation, .starting⟩ := by
      simp only [step, if_neg hid, htake]
      exact ⟨_, rfl, by simp [World.flight]⟩
    obtain ⟨w'', hstart, hreturned⟩ : ∃ w'', step w' (.threadStarts id) = some w'' ∧
        (id, true) ∈ w''.returned := by
      simp only [step, hflight]
      exact ⟨_, rfl, List.mem_cons_self⟩
    exact ⟨w', w'', hcall, hstart, hreturned⟩

/-- A call is dismissed and its answer dropped, the next one is refused and the one after that
answered. -/
def dismissal : List Event :=
  [.call 1 [] 5, .threadStarts 1, .cancel, .call 2 [] 5, .complete 1 true, .deliver 1 false,
    .call 3 [] 9, .threadStarts 3, .complete 3 false, .deliver 3 true]

theorem single_flight_dismissal :
    ∃ w, Runs.run step .new dismissal = some w ∧ w.ran = [(3, false)] ∧
      SingleFlight dismissal w := by
  obtain ⟨w, hrun, hran⟩ :
      ∃ w, Runs.run step .new dismissal = some w ∧ w.ran = [(3, false)] := ⟨_, rfl, rfl⟩
  exact ⟨w, hrun, hran, single_flight dismissal w hrun⟩

end DeadReckoning.Plugin.DaemonWorker
