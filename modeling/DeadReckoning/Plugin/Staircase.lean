import DeadReckoning.Lib.Trace
import DeadReckoning.Plugin.DragProbe
import Mathlib.Tactic.Linarith
import Mathlib.Tactic.Ring

/-! What a drag probe does on its way down, wherever it is interrupted. -/
namespace DeadReckoning.Plugin

open Checks Prog

section Descent

variable {K : Type} [Field K] [LinearOrder K] (power : Power K) (world : World K) (d : Descent K)

/-- What the chip has of the pass. -/
def World.capture (k : ℕ) : Option (PassCapture K) :=
  if world.hasValidSamples k then
    some ⟨world.samples k, world.motionStart k, world.motionEnd k⟩
  else none

/-- The pass comes to this. -/
def Judged (k : ℕ) (outcome : Outcome K) : Prop :=
  outcomeOf power d.noiseFloor d.params.sensitivity (world.capture k) = .ok outcome

/-- The way down: clean passes, each with a step down after it. -/
inductive Descended : ℕ → K → List (DragEvent K) → Prop where
  | start : Descended 0 d.center.z []
  | down {k : ℕ} {z : K} {t : List (DragEvent K)} {verdict : PassVerdict K} :
      Descended k z t → Judged power world d k (.clean verdict) → d.floorZ ≤ z - d.params.zStep →
      Descended (k + 1) (z - d.params.zStep)
        (t ++ [.passed z (.clean verdict), .commanded z (z - d.params.zStep) d.descendSpeed])

/-- How far the probe has come, and what became of the machine. -/
structure Snapshot (K : Type) where
  descents : ℕ
  z : K
  outcome : Option (Outcome K)
  lift : Option K
  faults : List (Site × Fault)
  running : ℕ
  height : K
  result : Option (DragResult K)

structure Snapshot.Of (s : Snapshot K) (b m : Machine K) : Prop where
  trace : ∃ t, Descended power world d s.descents s.z t ∧
    m.trace = b.trace ++ (t ++ ((s.outcome.map (.passed s.z)).toList ++
      (s.lift.map fun z => .commanded s.z z liftSpeed).toList))
  judged : ∀ outcome ∈ s.outcome, Judged power world d s.descents outcome
  upward : ∀ z ∈ s.lift, s.z < z
  faults : m.faults = b.faults ++ s.faults
  captures : m.captures = b.captures + s.running
  height : m.position.z = s.height
  result : m.lastDragResult = s.result
  maxAccel : m.maxAccel = b.maxAccel
  sessions : m.sessions = b.sessions
  touch : m.lastTouchResult = b.lastTouchResult

/-- An exception at this call leaves the toolhead at the start and no capture behind. -/
def Harmless (world : World K) (site : Site) : Prop :=
  match site.call with
  | .motionStart => False
  | .restoreWait => True
  | .restoreLift => world.moved site = true
  | .descend => site.round = 0 ∧ world.moved site = false
  | .clearLift => world.moved site = true ∧ site.round ≤ 2
  | .clearWait => site.round ≤ 2
  | _ => site.round = 0

/-- The passes of the snapshot. -/
def Snapshot.passes (s : Snapshot K) : ℕ := s.descents + s.outcome.toList.length

/-- The envelope is given up at the height of a clean pass, near the floor. -/
def Exhausted (z : K) (o : Option (Outcome K)) (error : DragError K) : Prop :=
  ∀ passes start z', error = .envelope passes start z' →
    z' = z ∧ (∃ verdict, o = some (.clean verdict)) ∧ z' ≤ d.floorZ + d.params.zStep

/-- Why a probe stopped: by an exception of klippy's objects, or by a typed abort. -/
inductive Snapshot.Explains (b : Machine K) (bound : ℕ) (s : Snapshot K) : Raised K → Prop where
  | fault (site : Site) (fault : Fault) (hmem : (site, fault) ∈ s.faults)
      (hgate : site.call.isGate = false) (hresult : s.result = b.lastDragResult)
      (hroom : s.passes ≤ bound)
      (hharm : (s.running = 0 ∧ s.height = d.center.z) ↔ ∀ f ∈ s.faults, Harmless world f.1) :
      s.Explains b bound fault.raised
  | abort (error : DragError K) (hfaults : s.faults = []) (hrunning : s.running = 0)
      (hheight : s.height = d.center.z) (hresult : s.result = none) (hroom : s.passes ≤ bound)
      (henvelope : Exhausted d s.z s.outcome error) :
      s.Explains b bound (.command (.drag error))

def Stopped (b : Machine K) (bound : ℕ) (error : Raised K) (m : Machine K) : Prop :=
  ∃ s : Snapshot K, s.Of power world d b m ∧ s.Explains world d b bound error

end Descent

section Steps

variable {K : Type} [Field K] [LinearOrder K] {power : Power K} {world : World K} {d : Descent K}
  {s : Snapshot K} {b m : Machine K} {E : Raised K → Machine K → Prop} {site : Site}

theorem Snapshot.Of.faulted (h : s.Of power world d b m) (site : Site) (fault : Fault) :
    Snapshot.Of power world d { s with faults := s.faults ++ [(site, fault)] } b
      (m.faulted site fault) :=
  { h with faults := by rw [Machine.faulted, h.faults, List.append_assoc] }

theorem call_rule (herror : ∀ fault m,
      Snapshot.Of power world d { s with faults := s.faults ++ [(site, fault)] } b m →
      E fault.raised m) :
    Triple (s.Of power world d b) (world.call site) (fun _ => s.Of power world d b) E := by
  intro m hm
  unfold World.call
  cases world.raises site with
  | none => exact hm
  | some fault => exact herror fault _ (hm.faulted site fault)

/-- A move across leaves the height. -/
theorem moveAcross_rule (x y : Option K) (speed : K) (herror : ∀ fault m,
      Snapshot.Of power world d { s with faults := s.faults ++ [(site, fault)] } b m →
      E fault.raised m) :
    Triple (s.Of power world d b) (world.manualMove site x y none speed)
      (fun _ => s.Of power world d b) E := by
  intro m hm
  have hmoved : ∀ p : Position K, p.z = m.position.z →
      s.Of power world d b { m with position := p } := fun p hp =>
    { hm with height := hp.trans hm.height }
  unfold World.manualMove
  cases world.raises site with
  | none => exact hmoved _ rfl
  | some fault =>
    refine herror fault _ (Snapshot.Of.faulted ?_ site fault)
    cases world.moved site with
    | true => exact hmoved _ rfl
    | false => exact hm

/-- The step down makes the clean pass a part of the way. -/
theorem descend_rule {z : K} {k : ℕ} {verdict : PassVerdict K} {r : Option (DragResult K)}
    {site : Site} (hfloor : d.floorZ ≤ z - d.params.zStep)
    (herror : ∀ fault m, Snapshot.Of power world d ⟨k + 1, z - d.params.zStep, none, none,
      [(site, fault)], 0, if world.moved site then z - d.params.zStep else z, r⟩ b m →
      E fault.raised m) :
    Triple (Snapshot.Of power world d ⟨k, z, some (.clean verdict), none, [], 0, z, r⟩ b)
      (world.manualMove site none none (some (z - d.params.zStep)) d.descendSpeed)
      (fun _ => Snapshot.Of power world d
        ⟨k + 1, z - d.params.zStep, none, none, [], 0, z - d.params.zStep, r⟩ b) E := by
  intro m hm
  obtain ⟨t, ht, htrace⟩ := hm.trace
  have hdown := Descended.down ht (hm.judged _ rfl) hfloor
  have hz : m.position.z = z := hm.height
  have hissued : ∀ (p : Position K) (h : K), p.z = h → Snapshot.Of power world d
      ⟨k + 1, z - d.params.zStep, none, none, [], 0, h, r⟩ b
      { m.note (.commanded m.position.z (z - d.params.zStep) d.descendSpeed) with
        position := p } := by
    intro p h hp
    refine { hm with trace := ⟨_, hdown, ?_⟩, judged := nofun, upward := nofun, height := hp }
    rw [Machine.note, htrace, hz]
    simp
  have hmade := hissued ⟨m.position.x, m.position.y, z - d.params.zStep⟩ _ rfl
  have hstayed := hissued m.position z hz
  unfold World.manualMove
  cases world.raises site with
  | none => exact hmade
  | some fault =>
    refine herror fault _ ?_
    cases world.moved site with
    | true => exact hmade.faulted site fault
    | false => exact hstayed.faulted site fault

/-- A lift ends the way. -/
theorem lift_rule {z' : K} (hlift : s.lift = none) (hz : s.height = s.z) (hup : s.z < z')
    (herror : ∀ fault m, Snapshot.Of power world d { s with
        lift := some z', height := if world.moved site then z' else s.height,
        faults := s.faults ++ [(site, fault)] } b m → E fault.raised m) :
    Triple (s.Of power world d b) (world.manualMove site none none (some z') liftSpeed)
      (fun _ => Snapshot.Of power world d { s with lift := some z', height := z' } b) E := by
  intro m hm
  obtain ⟨t, ht, htrace⟩ := hm.trace
  have hheight : m.position.z = s.z := hm.height.trans hz
  have hissued : ∀ (p : Position K) (h : K), p.z = h → Snapshot.Of power world d
      { s with lift := some z', height := h } b
      { m.note (.commanded m.position.z z' liftSpeed) with position := p } := by
    intro p h hp
    refine { hm with trace := ⟨t, ht, ?_⟩, upward := ?_, height := hp }
    · rw [Machine.note, htrace, hheight, hlift]
      simp
    · intro u hu
      cases hu
      exact hup
  have hmade := hissued ⟨m.position.x, m.position.y, z'⟩ _ rfl
  have hstayed := hissued m.position _ hm.height
  unfold World.manualMove
  cases world.raises site with
  | none => exact hmade
  | some fault =>
    refine herror fault _ ?_
    cases world.moved site with
    | true => exact hmade.faulted site fault
    | false => exact hstayed.faulted site fault

end Steps

section Pass

variable {K : Type} [Field K] [LinearOrder K] {power : Power K} {world : World K} {d : Descent K}
  {b : Machine K} {k bound : ℕ} {z : K} {r : Option (DragResult K)}

/-- Standing at a height before its pass. -/
def resting (k : ℕ) (z : K) (r : Option (DragResult K)) : Snapshot K :=
  ⟨k, z, none, none, [], 0, z, r⟩

/-- With exceptions that are harmless at the start alone the probe is left where it is. -/
theorem stopped_here {o : Option (Outcome K)} {fs : List (Site × Fault)} {m : Machine K}
    {site : Site} {fault : Fault} (hstart : z = d.center.z ↔ k = 0)
    (hroom : k + o.toList.length ≤ bound) (hresult : r = b.lastDragResult)
    (hmem : (site, fault) ∈ fs) (hgate : site.call.isGate = false)
    (hplain : ∀ f ∈ fs, (Harmless world f.1 ↔ k = 0))
    (hm : Snapshot.Of power world d ⟨k, z, o, none, fs, 0, z, r⟩ b m) :
    Stopped power world d b bound fault.raised m := by
  refine ⟨_, hm, .fault site fault hmem hgate hresult hroom ?_⟩
  constructor
  · rintro ⟨-, hz⟩ f hf
    exact (hplain f hf).mpr (hstart.mp hz)
  · intro hall
    exact ⟨rfl, hstart.mpr ((hplain _ hmem).mp (hall _ hmem))⟩

theorem call_resting {call : Call} {o : Option (Outcome K)} (hstart : z = d.center.z ↔ k = 0)
    (hroom : k + o.toList.length ≤ bound) (hresult : r = b.lastDragResult)
    (hgate : call.isGate = false) (hplain : Harmless world ⟨k, call⟩ ↔ k = 0) :
    Triple (Snapshot.Of power world d ⟨k, z, o, none, [], 0, z, r⟩ b) (world.call ⟨k, call⟩)
      (fun _ => Snapshot.Of power world d ⟨k, z, o, none, [], 0, z, r⟩ b)
      (Stopped power world d b bound) := by
  refine call_rule fun fault m hm => ?_
  exact stopped_here hstart hroom hresult (List.mem_singleton_self _) hgate
    (List.forall_mem_singleton.mpr hplain) hm

theorem startInternalClient_rule (hstart : z = d.center.z ↔ k = 0) (hroom : k ≤ bound)
    (hresult : r = b.lastDragResult) :
    Triple (Snapshot.Of power world d (resting k z r) b)
      (startInternalClient world ⟨k, .startClient⟩)
      (fun _ => Snapshot.Of power world d { resting k z r with running := 1 } b)
      (Stopped power world d b bound) := by
  refine Triple.bind (call_resting hstart hroom hresult rfl Iff.rfl) fun _ => ?_
  refine Triple.update _ fun m hm => ?_
  exact { hm with captures := by rw [hm.captures]; rfl }

/-- A call before the `try` leaves the capture running. -/
theorem motionStart_rule (hroom : k ≤ bound) (hresult : r = b.lastDragResult) :
    Triple (Snapshot.Of power world d { resting k z r with running := 1 } b)
      (world.call ⟨k, .motionStart⟩)
      (fun _ => Snapshot.Of power world d { resting k z r with running := 1 } b)
      (Stopped power world d b bound) := by
  refine call_rule fun fault m hm => ?_
  refine ⟨_, hm, .fault _ fault (List.mem_singleton_self _) rfl hresult hroom ?_⟩
  constructor
  · rintro ⟨hrunning, -⟩
    cases hrunning
  · intro hall
    exact (hall _ (List.mem_singleton_self _)).elim

/-- The end of the motion, by an exception or not, is followed by the end of the capture. -/
theorem motion_rule (hstart : z = d.center.z ↔ k = 0) (hroom : k ≤ bound)
    (hresult : r = b.lastDragResult) (center : Position K) (seg speed : K) :
    Triple (Snapshot.Of power world d { resting k z r with running := 1 } b)
      (Prog.ensuring (do
        world.manualMove ⟨k, .moveOut⟩ (some (center.x + seg)) (some center.y) none speed
        world.manualMove ⟨k, .moveAcross⟩ (some (center.x - seg)) (some center.y) none speed
        world.manualMove ⟨k, .moveBack⟩ (some center.x) (some center.y) none speed)
        (finishMeasurements world ⟨k, .finish⟩))
      (fun _ => Snapshot.Of power world d (resting k z r) b) (Stopped power world d b bound) := by
  let E (error : Raised K) (m : Machine K) : Prop := ∃ site fault,
    site.call.isGate = false ∧ (Harmless world site ↔ k = 0) ∧ error = fault.raised ∧
      Snapshot.Of power world d { resting k z r with running := 1, faults := [(site, fault)] } b m
  have hmove : ∀ (call : Call) (x y : Option K), call.isGate = false →
      (Harmless world ⟨k, call⟩ ↔ k = 0) →
      Triple (Snapshot.Of power world d { resting k z r with running := 1 } b)
        (world.manualMove ⟨k, call⟩ x y none speed)
        (fun _ => Snapshot.Of power world d { resting k z r with running := 1 } b) E :=
    fun call x y hgate hplain => moveAcross_rule x y speed fun fault m hm =>
      ⟨_, fault, hgate, hplain, rfl, hm⟩
  have hstop : ∀ (m : Machine K) (s : Snapshot K), Snapshot.Of power world d
      { s with running := 1 } b m → Snapshot.Of power world d { s with running := 0 } b
        { m with captures := m.captures - 1 } := by
    intro m s hm
    refine { hm with captures := ?_ }
    rw [hm.captures]
    exact Nat.add_sub_cancel _ _
  refine Triple.ensuring (E := E) (Q := fun _ =>
    Snapshot.Of power world d { resting k z r with running := 1 } b) ?_ (fun _ => ?_) fun error => ?_
  · refine Triple.bind (hmove _ _ _ rfl Iff.rfl) fun _ => ?_
    exact Triple.bind (hmove _ _ _ rfl Iff.rfl) fun _ => hmove _ _ _ rfl Iff.rfl
  · refine Triple.bind (Q := fun _ => Snapshot.Of power world d (resting k z r) b)
      (Triple.update _ fun m hm => hstop m (resting k z r) hm) fun _ => ?_
    exact call_resting hstart hroom hresult rfl Iff.rfl
  · -- the exception of the motion stands unless the end of the capture raises its own
    rintro m ⟨site, fault, hgate, hplain, rfl, hm⟩
    have hended := hstop m { resting k z r with faults := [(site, fault)] } hm
    refine Triple.bind (Triple.update (Q := fun _ => Snapshot.Of power world d
      { resting k z r with faults := [(site, fault)] } b) (P := (· = m)) _ ?_) (fun _ => ?_) m rfl
    · rintro m' rfl
      exact hended
    · refine (call_rule (E := Stopped power world d b bound) fun fault' m' hm' => ?_).mono
        fun _ m' hm' => ?_
      · refine stopped_here (o := none) hstart hroom hresult (List.mem_append_right _ (.head _)) rfl
          ?_ hm'
        simp only [List.cons_append, List.nil_append, List.forall_mem_cons]
        exact ⟨hplain, Iff.rfl, nofun⟩
      · exact stopped_here (o := none) hstart hroom hresult (List.mem_singleton_self _) hgate
          (List.forall_mem_singleton.mpr hplain) hm'

theorem runCapturePass_rule (hstart : z = d.center.z ↔ k = 0) (hroom : k ≤ bound)
    (hresult : r = b.lastDragResult) (center : Position K) (passLength speed : K) :
    Triple (Snapshot.Of power world d (resting k z r) b)
      (runCapturePass world k center passLength speed)
      (fun capture m => Snapshot.Of power world d (resting k z r) b m ∧ capture = world.capture k)
      (Stopped power world d b bound) := by
  have hcall : ∀ call : Call, call.isGate = false → (Harmless world ⟨k, call⟩ ↔ k = 0) →
      Triple (Snapshot.Of power world d (resting k z r) b) (world.call ⟨k, call⟩)
        (fun _ => Snapshot.Of power world d (resting k z r) b) (Stopped power world d b bound) :=
    fun call hgate hplain => call_resting hstart hroom hresult hgate hplain
  unfold runCapturePass
  refine Triple.bind (hcall _ rfl Iff.rfl) fun _ => ?_
  refine Triple.bind (hcall _ rfl Iff.rfl) fun _ => ?_
  refine Triple.bind (startInternalClient_rule hstart hroom hresult) fun _ => ?_
  refine Triple.bind (motionStart_rule hroom hresult) fun _ => ?_
  refine Triple.bind (motion_rule hstart hroom hresult _ _ _) fun _ => ?_
  refine Triple.bind (hcall _ rfl Iff.rfl) fun _ => ?_
  split
  · rename_i hnone
    have hcapture : world.capture k = none := by
      simpa [World.capture] using hnone
    exact Triple.pure none fun m hm => ⟨hm, hcapture.symm⟩
  · rename_i hsome
    have hcapture : world.capture k =
        some ⟨world.samples k, world.motionStart k, world.motionEnd k⟩ := by
      simpa [World.capture] using hsome
    refine Triple.bind (hcall _ rfl Iff.rfl) fun _ => ?_
    refine Triple.bind (hcall _ rfl Iff.rfl) fun _ => ?_
    exact Triple.pure _ fun m hm => ⟨hm, hcapture.symm⟩

end Pass

section Aborts

variable {K : Type} [Field K] [LinearOrder K] {power : Power K} {world : World K} {d : Descent K}
  {b : Machine K} {k bound : ℕ} {z : K} {o : Option (Outcome K)} {r : Option (DragResult K)}
  {error : DragError K}

theorem fail_rule {α : Type} {lift : Option K} {Q : α → Machine K → Prop}
    (hroom : k + o.toList.length ≤ bound) (henvelope : Exhausted d z o error) :
    Triple (Snapshot.Of power world d ⟨k, z, o, lift, [], 0, d.center.z, r⟩ b) (fail error) Q
      (Stopped power world d b bound) := by
  refine Triple.bind (Q := fun _ => Snapshot.Of power world d
    ⟨k, z, o, lift, [], 0, d.center.z, none⟩ b) (Triple.update _ fun m hm => ?_) fun _ => ?_
  · exact { hm with result := rfl }
  · exact Triple.stop _ fun m hm => ⟨_, hm, .abort error rfl rfl rfl rfl hroom henvelope⟩

theorem restoreZ_rule (hstart : z = d.center.z ↔ k = 0) (hbelow : z ≤ d.center.z)
    (hroom : k + o.toList.length ≤ bound) (hresult : r = b.lastDragResult) :
    Triple (Snapshot.Of power world d ⟨k, z, o, none, [], 0, z, r⟩ b)
      (restoreZ world k d.center.z)
      (fun _ m => ∃ lift, Snapshot.Of power world d ⟨k, z, o, lift, [], 0, d.center.z, r⟩ b m)
      (Stopped power world d b bound) := by
  have hwait : ∀ lift, Triple (Snapshot.Of power world d ⟨k, z, o, lift, [], 0, d.center.z, r⟩ b)
      (world.call ⟨k, .restoreWait⟩)
      (fun _ m => ∃ lift, Snapshot.Of power world d ⟨k, z, o, lift, [], 0, d.center.z, r⟩ b m)
      (Stopped power world d b bound) := by
    intro lift
    refine (call_rule fun fault m hm => ?_).mono fun _ m hm => ⟨lift, hm⟩
    refine ⟨_, hm, .fault _ fault (List.mem_singleton_self _) rfl hresult hroom ?_⟩
    exact iff_of_true ⟨rfl, rfl⟩ (List.forall_mem_singleton.mpr trivial)
  unfold restoreZ
  refine Triple.bind (call_resting hstart hroom hresult rfl Iff.rfl) fun _ => ?_
  refine Triple.bind (Q := fun m' m => Snapshot.Of power world d ⟨k, z, o, none, [], 0, z, r⟩ b m ∧
    m'.position.z = z) (Triple.state fun m hm => ⟨hm, hm.height⟩) fun m' => ?_
  refine Triple.of_and_right fun hz => ?_
  rw [hz]
  by_cases hlow : z < d.center.z
  · rw [if_pos hlow]
    refine Triple.bind (lift_rule rfl rfl hlow fun fault m hm => ?_) fun _ => hwait _
    refine ⟨_, hm, .fault _ fault (List.mem_singleton_self _) rfl hresult hroom ?_⟩
    have hne : z ≠ d.center.z := hlow.ne
    cases hmoved : world.moved ⟨k, .restoreLift⟩ <;> simp [Harmless, hmoved, hne]
  · rw [if_neg hlow]
    have hz : z = d.center.z := le_antisymm hbelow (not_lt.mp hlow)
    exact Triple.bind (Triple.pure () fun m hm => hm) fun _ => (hwait none).conseq
      (fun m hm => hz ▸ hm) (fun _ _ h => h) fun _ _ h => h

theorem abort_rule {α : Type} {Q : α → Machine K → Prop} (hstart : z = d.center.z ↔ k = 0)
    (hbelow : z ≤ d.center.z) (hroom : k + o.toList.length ≤ bound)
    (hresult : r = b.lastDragResult) (henvelope : Exhausted d z o error) :
    Triple (Snapshot.Of power world d ⟨k, z, o, none, [], 0, z, r⟩ b)
      (abort world k d.center.z error) Q (Stopped power world d b bound) := by
  refine Triple.bind (restoreZ_rule hstart hbelow hroom hresult) fun _ => ?_
  have hfail : ∀ lift, Triple (Snapshot.Of power world d ⟨k, z, o, lift, [], 0, d.center.z, r⟩ b)
      (fail error) Q (Stopped power world d b bound) := fun lift => fail_rule hroom henvelope
  rintro m ⟨lift, hm⟩
  exact hfail lift m hm

end Aborts

section Loop

variable {K : Type} [Field K] [LinearOrder K] {power : Power K} {sqrt : K → K} {world : World K}
  {d : Descent K} {b : Machine K} {k bound : ℕ} {z : K} {r : Option (DragResult K)} {l : Locals K}

/-- With at least as many ratios as the run is long, the test finds both that it compares. -/
theorem stalled_ok (hrun : 1 ≤ l.stallRun) (hratios : l.stallRun ≤ l.cleanRatios.length) :
    ∃ ratio, l.stalled d.params = .ok ratio := by
  have hlast : ∃ latest, l.cleanRatios.getLast? = some latest := by
    cases hlatest : l.cleanRatios.getLast? with
    | none =>
      rw [List.getLast?_eq_none_iff] at hlatest
      simp [hlatest] at hratios
      omega
    | some latest => exact ⟨latest, rfl⟩
  obtain ⟨latest, hlast⟩ := hlast
  have hlen : l.stallRun - 1 < l.cleanRatios.reverse.length := by
    rw [List.length_reverse]
    omega
  have hfirst := List.getElem?_eq_getElem hlen
  unfold Locals.stalled
  rw [hlast, hfirst]
  dsimp only [required, bind, Except.bind]
  split
  · exact ⟨_, rfl⟩
  · exact ⟨_, rfl⟩

/-- Beside its counts the loop keeps its variables. -/
theorem countFlat_keeps (l : Locals K) (hratios : l.stallRun < l.cleanRatios.length) :
    l.countFlat.z = l.z ∧ l.countFlat.passesRun = l.passesRun ∧
      l.countFlat.lastCleanZ = l.lastCleanZ ∧ 1 ≤ l.countFlat.stallRun ∧
      l.countFlat.stallRun ≤ l.countFlat.cleanRatios.length := by
  unfold Locals.countFlat
  split
  · exact ⟨rfl, rfl, rfl, Nat.le_add_left 1 _, hratios⟩
  · exact ⟨rfl, rfl, rfl, le_rfl, (Nat.zero_le _).trans_lt hratios⟩

theorem afterClean_rule {verdict : PassVerdict K} (hstart : z = d.center.z ↔ k = 0)
    (hbelow : z ≤ d.center.z) (hroom : k + 1 ≤ bound) (hresult : r = b.lastDragResult)
    (hz : l.z = z) (hpasses : l.passesRun = k + 1) (hstall : l.stallRun ≤ l.cleanRatios.length) :
    Triple (Snapshot.Of power world d ⟨k, z, some (.clean verdict), none, [], 0, z, r⟩ b)
      (afterClean sqrt world d l verdict)
      (fun l' m => Snapshot.Of power world d ⟨k, z, some (.clean verdict), none, [], 0, z, r⟩ b m ∧
        l'.z = z ∧ l'.passesRun = k + 1 ∧ l'.lastCleanZ = some z ∧
          l'.stallRun ≤ l'.cleanRatios.length)
      (Stopped power world d b bound) := by
  have hk : l.passesRun - 1 = k := by
    rw [hpasses, Nat.add_sub_cancel]
  have habort : ∀ error, Exhausted d z (some (.clean verdict)) error →
      Triple (Snapshot.Of power world d ⟨k, z, some (.clean verdict), none, [], 0, z, r⟩ b)
        (abort world (l.passesRun - 1) d.center.z error)
        (fun (l' : Locals K) m =>
          Snapshot.Of power world d ⟨k, z, some (.clean verdict), none, [], 0, z, r⟩ b m ∧
          l'.z = z ∧ l'.passesRun = k + 1 ∧ l'.lastCleanZ = some z ∧
            l'.stallRun ≤ l'.cleanRatios.length)
        (Stopped power world d b bound) := by
    intro error henvelope
    rw [hk]
    exact abort_rule hstart hbelow hroom hresult henvelope
  have hseen : (l.seenClean (sqrt verdict.ratioSquare)).stallRun <
      (l.seenClean (sqrt verdict.ratioSquare)).cleanRatios.length := by
    simp only [Locals.seenClean, List.length_append, List.length_singleton]
    omega
  obtain ⟨hkz, hkpasses, hkclean, hone, hcount⟩ := countFlat_keeps _ hseen
  unfold afterClean
  dsimp only
  split
  · exact habort _ nofun
  · refine Triple.bind (Triple.lift (Q := fun _ => Snapshot.Of power world d
      ⟨k, z, some (.clean verdict), none, [], 0, z, r⟩ b) (fun _ _ m hm => hm) ?_) fun ratio => ?_
    · intro error herror
      obtain ⟨ratio, hratio⟩ := stalled_ok (d := d) hone hcount
      rw [hratio] at herror
      cases herror
    · split
      · exact habort _ nofun
      · refine Triple.pure _ fun m hm => ⟨hm, ?_, ?_, ?_, hcount⟩
        · rw [hkz]
          exact hz
        · rw [hkpasses]
          exact hpasses
        · rw [hkclean]
          exact congrArg some hz

/-- The numbers of the staircase are in their ranges. -/
structure Descent.Valid (d : Descent K) : Prop where
  zStep : 0 < d.params.zStep
  noiseFloor : 0 < d.noiseFloor
  sensitivity : 0 ≤ d.params.sensitivity ∧ d.params.sensitivity ≤ 100

theorem checkCoverage_ok {capture : PassCapture K} (hne : capture.samples ≠ []) (grace : K) :
    ∃ gap, checkCoverage capture grace = .ok gap := by
  have hfirst := List.head?_eq_some_head hne
  have hlast := List.getLast?_eq_some_getLast hne
  unfold checkCoverage
  rw [hfirst, hlast]
  dsimp only [required, bind, Except.bind]
  split
  · exact ⟨_, rfl⟩
  · split
    · exact ⟨_, rfl⟩
    · exact ⟨_, rfl⟩

variable [IsStrictOrderedRing K]

theorem classifyPass_ok (power : Power K) (hvalid : d.Valid) (samples : List (Sample K)) :
    (∃ invalid, classifyPass power samples d.noiseFloor d.params.sensitivity =
      .ok (.invalid invalid)) ∨
    (samples ≠ [] ∧ ∃ verdict, classifyPass power samples d.noiseFloor d.params.sensitivity =
      .ok (.verdict verdict)) := by
  have hfloor : ensure (decide (0 < d.noiseFloor)) (ClassifierError.noiseFloor d.noiseFloor) =
      .ok () := ensure_eq_ok.mpr (decide_eq_true hvalid.noiseFloor)
  obtain ⟨mult, hmult⟩ := multiplier_ok power hvalid.sensitivity.1 hvalid.sensitivity.2
  cases hsamples : validatePassSamples samples with
  | some invalid =>
    refine .inl ⟨invalid, ?_⟩
    rw [classifyPass, hsamples]
    exact bind_eq_ok.mpr ⟨(), hfloor, bind_eq_ok.mpr ⟨mult, hmult, rfl⟩⟩
  | none =>
    have hlen := length_of_valid hsamples
    obtain ⟨-, -, measured, -, -, -, -, hstats, -⟩ := stats_of_valid hsamples
    refine .inr ⟨List.ne_nil_of_length_pos (by omega), passVerdict measured (d.noiseFloor * mult), ?_⟩
    rw [classifyPass, hsamples]
    exact bind_eq_ok.mpr ⟨(), hfloor, bind_eq_ok.mpr ⟨mult, hmult,
      bind_eq_ok.mpr ⟨measured, hstats, rfl⟩⟩⟩

/-- Every pass is judged. -/
theorem judged_total (power : Power K) (world : World K) (hvalid : d.Valid) (k : ℕ) :
    ∃ outcome, Judged power world d k outcome := by
  unfold Judged
  cases world.capture k with
  | none => exact ⟨.noData, rfl⟩
  | some capture =>
    simp only [outcomeOf]
    rcases classifyPass_ok power hvalid capture.samples with
      ⟨invalid, hclassified⟩ | ⟨hne, verdict, hclassified⟩
    · rw [hclassified]
      exact ⟨.invalid invalid, rfl⟩
    · rw [hclassified]
      obtain ⟨gap, hgap⟩ := checkCoverage_ok hne coverageGraceSeconds
      dsimp only [Except.mapError, bind, Except.bind]
      rw [hgap]
      cases gap with
      | none => exact ⟨_, rfl⟩
      | some gap => exact ⟨.uncovered gap, rfl⟩

/-- The variables of the loop in front of its pass. -/
structure Aligned (d : Descent K) (k : ℕ) (z : K) (l : Locals K) : Prop where
  here : l.z = z
  passesRun : l.passesRun = k
  height : z = d.center.z - k * d.params.zStep
  lastCleanZ : l.lastCleanZ = if k = 0 then none else some (z + d.params.zStep)
  stallRun : l.stallRun ≤ l.cleanRatios.length

theorem eq_start_iff (hvalid : d.Valid) (hz : z = d.center.z - k * d.params.zStep) :
    z = d.center.z ↔ k = 0 := by
  have hstep := hvalid.zStep
  constructor
  · intro hstart
    have hzero : (k : K) * d.params.zStep = 0 := by linarith
    rcases mul_eq_zero.mp hzero with hk | hk
    · exact Nat.cast_eq_zero.mp hk
    · exact absurd hk hstep.ne'
  · rintro rfl
    rw [hz, Nat.cast_zero, zero_mul, sub_zero]

theorem le_start (hvalid : d.Valid) (hz : z = d.center.z - k * d.params.zStep) :
    z ≤ d.center.z := by
  have hdown : 0 ≤ (k : K) * d.params.zStep := mul_nonneg (Nat.cast_nonneg k) hvalid.zStep.le
  linarith

/-- The loop was left after a pass, with contact or near the floor. -/
structure Landed (power : Power K) (world : World K) (d : Descent K) (b : Machine K) (bound : ℕ)
    (r : Option (DragResult K)) (left : Locals K × Option (Contact K)) (m : Machine K) : Prop where
  landed : ∃ k outcome,
    Snapshot.Of power world d ⟨k, left.1.z, some outcome, none, [], 0, left.1.z, r⟩ b m ∧
      left.1.passesRun = k + 1 ∧ k + 1 ≤ bound ∧
      left.1.z = d.center.z - k * d.params.zStep ∧
      (left.2 = none → (∃ verdict, outcome = .clean verdict) ∧
        left.1.z ≤ d.floorZ + d.params.zStep) ∧
      ∀ contact, left.2 = some contact → outcome = .contact contact.verdict ∧ 1 ≤ k ∧
        contact.lastCleanZ = left.1.z + d.params.zStep

theorem staircase_rule (hvalid : d.Valid) (hresult : r = b.lastDragResult)
    (hbound : d.center.z - bound * d.params.zStep ≤ d.floorZ) {room : ℕ} (hroom : 0 < room)
    (hrest : k + room = bound) (haligned : Aligned d k z l) :
    Triple (Snapshot.Of power world d (resting k z r) b) (staircase power sqrt world d room l)
      (Landed power world d b bound r) (Stopped power world d b bound) := by
  induction room generalizing k z l with
  | zero => omega
  | succ room ih =>
    have hstart := eq_start_iff hvalid haligned.height
    have hbelow := le_start hvalid haligned.height
    obtain ⟨rfl, rfl, hheight, hclean, hstall⟩ := haligned
    have habort : ∀ (o : Option (Outcome K)) (error : DragError K),
        l.passesRun + o.toList.length ≤ bound → (∀ p s z, error ≠ .envelope p s z) →
        Triple (Snapshot.Of power world d ⟨l.passesRun, l.z, o, none, [], 0, l.z, r⟩ b)
          (abort world l.passesRun d.center.z error) (Landed power world d b bound r)
          (Stopped power world d b bound) := fun o error hroom hother =>
      abort_rule hstart hbelow hroom hresult fun p s z herror => (hother p s z herror).elim
    unfold staircase
    dsimp only
    split
    · exact habort none _ (by simp; omega) nofun
    · refine Triple.bind (runCapturePass_rule hstart (by omega) hresult _ _ _) fun capture => ?_
      refine Triple.of_and_right fun hcapture => ?_
      rw [hcapture]
      obtain ⟨outcome, hjudged⟩ := judged_total power world hvalid l.passesRun
      rw [show outcomeOf power d.noiseFloor d.params.sensitivity (world.capture l.passesRun) =
        .ok outcome from hjudged]
      refine Triple.bind (Q := fun o m => Snapshot.Of power world d (resting l.passesRun l.z r) b m ∧
        o = outcome) (Triple.lift (fun o ho m hm => ⟨hm, (Except.ok.inj ho).symm⟩) nofun) fun o => ?_
      refine Triple.of_and_right fun ho => ?_
      subst ho
      refine Triple.bind (Q := fun _ => Snapshot.Of power world d
        ⟨l.passesRun, l.z, some o, none, [], 0, l.z, r⟩ b) (Triple.update _ fun m hm => ?_)
        fun _ => ?_
      · obtain ⟨t, ht, htrace⟩ := hm.trace
        refine { hm with trace := ⟨t, ht, ?_⟩, judged := ?_ }
        · rw [Machine.note, htrace, hm.height]
          simp [resting]
        · exact fun o' ho' => Option.some.inj ho' ▸ hjudged
      have hroom : l.passesRun + (some o).toList.length ≤ bound := by
        simp
        omega
      cases o with
      | noData => exact habort _ _ hroom nofun
      | invalid invalid => exact habort _ _ hroom nofun
      | uncovered gap => exact habort _ _ hroom nofun
      | contact verdict =>
        by_cases hzero : l.passesRun = 0
        · -- the first pass stands at the start, and there is no way back from it
          rw [if_pos hzero] at hclean
          dsimp only
          rw [hclean]
          have hfail : Triple (Snapshot.Of power world d
              ⟨l.passesRun, l.z, some (.contact verdict), none, [], 0, d.center.z, r⟩ b)
              (fail (.firstContact d.center.z)) (Landed power world d b bound r)
              (Stopped power world d b bound) := fail_rule hroom nofun
          exact fun m hm => hfail m { hm with height := hm.height.trans (hstart.mpr hzero) }
        · rw [if_neg hzero] at hclean
          dsimp only
          rw [hclean]
          refine Triple.pure _ fun m hm => ⟨l.passesRun, _, hm, rfl, by omega, hheight, nofun, ?_⟩
          rintro contact ⟨⟩
          exact ⟨rfl, by omega, rfl⟩
      | clean verdict =>
        refine Triple.bind (afterClean_rule hstart hbelow hroom hresult rfl rfl hstall) fun l' => ?_
        refine Triple.of_and_right fun ⟨hz, hpasses, hlast, hcount⟩ => ?_
        have hland : l.z ≤ d.floorZ + d.params.zStep → Triple (Snapshot.Of power world d
            ⟨l.passesRun, l.z, some (.clean verdict), none, [], 0, l.z, r⟩ b)
            (pure (l', none) : Command K (Locals K × Option (Contact K)))
            (Landed power world d b bound r) (Stopped power world d b bound) := by
          intro hnear
          refine Triple.pure _ fun m hm => ⟨l.passesRun, .clean verdict, ?_, hpasses, by omega, ?_,
            fun _ => ⟨⟨verdict, rfl⟩, ?_⟩, nofun⟩
          · dsimp only
            rwa [hz]
          · rw [hz]
            exact hheight
          · dsimp only
            rwa [hz]
        have hnext : l.z - d.params.zStep = d.center.z - ↑(l.passesRun + 1) * d.params.zStep := by
          push_cast
          linarith
        split
        · rename_i hlastPass
          refine hland ?_
          rw [hlastPass] at hrest
          rw [← hrest, Nat.zero_add, ← hnext] at hbound
          linarith
        · rename_i hmore
          rw [hz]
          split
          · rename_i hfloor
            exact hland (by linarith)
          · rename_i hfloor
            refine Triple.bind (descend_rule (not_lt.mp hfloor) fun fault m hm => ?_) fun _ => ?_
            · refine ⟨_, hm, .fault _ fault (List.mem_singleton_self _) rfl hresult ?_ ?_⟩
              · simp only [Snapshot.passes, Option.toList_none, List.length_nil]
                omega
              · have hbelow' : l.z - d.params.zStep ≠ d.center.z := by
                  have := hvalid.zStep
                  linarith
                cases hmoved : world.moved ⟨l.passesRun, .descend⟩ <;>
                  simp [Harmless, hmoved, hbelow', hstart]
            · exact ih (by omega) (by omega) ⟨rfl, hpasses, hnext, by simp [hlast], hcount⟩

end Loop

end DeadReckoning.Plugin
