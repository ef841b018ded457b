import DeadReckoning.Plugin.Staircase
import Mathlib.Algebra.Order.Floor.Ring

/-! A drag probe stays on its staircase, and where a typed abort or contact leaves it. -/
namespace DeadReckoning.Plugin

open Checks Prog

section Parameters

variable {K : Type} [Field K] [LinearOrder K] [IsStrictOrderedRing K] {plugin : PlrPlugin K}
  {args : DragArgs K} {params : DragParams K}

omit [Field K] [LinearOrder K] [IsStrictOrderedRing K] in
theorem getNumber_ok {α : Type} [LinearOrder α] {name : String} {bounds : Bounds α}
    {default_ v : α} {arg : Arg α}
    (h : getNumber (K := K) name bounds default_ arg = .ok v) :
    v = default_ ∨ bounds.allow v = true := by
  unfold getNumber at h
  split at h
  · exact .inl (Except.ok.inj h).symm
  · cases h
  · split at h
    · rename_i hallow
      cases h
      exact .inr hallow
    · cases h

omit [Field K] [LinearOrder K] [IsStrictOrderedRing K] in
theorem getNumber_error {α : Type} [LinearOrder α] {name : String} {bounds : Bounds α}
    {default_ : α} {arg : Arg α} {error : Raised K}
    (h : getNumber name bounds default_ arg = .error error) :
    error = .command (.parameter name) := by
  unfold getNumber at h
  split at h
  · cases h
  · cases h
    rfl
  · split at h
    · cases h
    · cases h
      rfl

omit [IsStrictOrderedRing K] in
/-- The step and the sensitivity are in their ranges, given or not. -/
theorem dragParams_valid (h : dragParams plugin args = .ok params) :
    0 < params.zStep ∧ 0 ≤ params.sensitivity ∧ params.sensitivity ≤ 100 := by
  simp only [dragParams, bind_eq_ok] at h
  obtain ⟨speed, -, zStep, hstep, sensitivity, hsens, _, -, _, -, _, -, heq⟩ := h
  cases heq
  constructor
  · dsimp only
    rcases getNumber_ok hstep with rfl | hallow
    · exact plugin.dragZStep_pos
    · simp only [Bounds.allow, Option.all_none, Option.all_some, Bool.true_and, Bool.and_eq_true,
        decide_eq_true_eq] at hallow
      exact hallow.2
  · rcases getNumber_ok hsens with rfl | hallow
    · exact plugin.dragSensitivity_bounds
    · simp only [Bounds.allow, Option.all_none, Option.all_some, Bool.and_true, Bool.and_eq_true,
        decide_eq_true_eq] at hallow
      exact hallow

omit [IsStrictOrderedRing K] in
theorem dragParams_error {error : Raised K} (h : dragParams plugin args = .error error) :
    ∃ name, error = .command (.parameter name) := by
  unfold dragParams at h
  rcases bind_eq_error.mp h with h | ⟨speed, -, h⟩
  · exact ⟨_, getNumber_error h⟩
  rcases bind_eq_error.mp h with h | ⟨zStep, -, h⟩
  · exact ⟨_, getNumber_error h⟩
  rcases bind_eq_error.mp h with h | ⟨sensitivity, -, h⟩
  · exact ⟨_, getNumber_error h⟩
  rcases bind_eq_error.mp h with h | ⟨passLength, -, h⟩
  · exact ⟨_, getNumber_error h⟩
  rcases bind_eq_error.mp h with h | ⟨maxSeconds, -, h⟩
  · exact ⟨_, getNumber_error h⟩
  rcases bind_eq_error.mp h with h | ⟨stallPasses, -, h⟩
  · exact ⟨_, getNumber_error h⟩
  cases h

end Parameters

section Gates

variable {K : Type} [Field K] [LinearOrder K] {plugin : PlrPlugin K} {world : World K}
  {args : DragArgs K} {b : Machine K}

/-- What the gates have established. -/
structure Passed (plugin : PlrPlugin K) (args : DragArgs K) (setup : DragSetup K) : Prop where
  params : dragParams plugin args = .ok setup.params
  noiseFloor : plugin.noiseFloorRms = some setup.noiseFloor
  zPositionMin : plugin.zPositionMin = some setup.zPositionMin

theorem dragGates_rule (plugin : PlrPlugin K) (world : World K) (args : DragArgs K) :
    Triple (· = b) (dragGates plugin world args)
      (fun setup m => m = b ∧ Passed plugin args setup) (GateStopped b False) := by
  unfold dragGates
  refine Triple.bind (gateLift_rule _ ?_) fun params => ?_
  · intro error herror
    obtain ⟨name, rfl⟩ := dragParams_error herror
    exact ⟨⟨_, rfl, nofun⟩, not_false⟩
  refine Triple.of_and_right fun hparams => ?_
  refine Triple.bind ((motionGates_rule plugin world _).conseq (fun _ h => h) (fun _ _ h => h.1)
    fun _ _ h => h.mono False.elim) fun _ => ?_
  refine Triple.bind (gateLift_rule _ ?_) fun _ => ?_
  · intro error herror
    unfold resolveAccelChip at herror
    split at herror
    · cases herror
      exact ⟨⟨_, rfl, nofun⟩, not_false⟩
    · split at herror <;> cases herror
      · exact ⟨⟨_, rfl, nofun⟩, not_false⟩
      · exact ⟨⟨_, rfl, nofun⟩, not_false⟩
  refine Triple.of_and_right fun _ => ?_
  refine Triple.bind (gateLift_rule _ ?_) fun noiseFloor => ?_
  · intro error herror
    unfold requireNoiseFloor at herror
    split at herror
    · cases herror
    · cases herror
      refine ⟨⟨_, rfl, ?_⟩, not_false⟩
      split
      · exact nofun
      · exact nofun
  refine Triple.of_and_right fun hnoise => ?_
  refine Triple.bind (gateLift_rule _ ?_) fun zPositionMin => ?_
  · intro error herror
    cases hmin : plugin.zPositionMin with
    | none =>
      rw [hmin] at herror
      cases herror
      exact ⟨⟨_, rfl, nofun⟩, not_false⟩
    | some zPositionMin =>
      rw [hmin] at herror
      cases herror
  refine Triple.of_and_right fun hmin => ?_
  refine Triple.pure _ fun m hm => ⟨hm, hparams, ?_, required_eq_ok.mp hmin⟩
  unfold requireNoiseFloor at hnoise
  split at hnoise
  · rename_i rms hrms
    cases hnoise
    exact hrms
  · cases hnoise

end Gates

section Outcomes

variable {K : Type} [Field K] [LinearOrder K] (power : Power K) (plugin : PlrPlugin K)
  (world : World K) (args : DragArgs K)

/-- The refusals of klippy's own that the gates publish. -/
def Handled (f : Site × Fault) : Prop := f.1.call.isGate = true ∧ ∃ text, f.2 = .command text

/-- A refusal of the gates is published; another exception of theirs is not. -/
inductive Refused (b : Machine K) : Raised K → Machine K → Prop where
  | published (message : Message K) (hmessage : ∀ error, message ≠ .drag error)
      (fs : List (Site × Fault)) (hfs : ∀ f ∈ fs, Handled f) :
      Refused b (.command message) { b with
        faults := b.faults ++ fs, lastDragResult := none, lastDragError := some message }
  | raised (call : Call) (name : String) (hgate : call.isGate = true) :
      Refused b (.other name) (b.faulted ⟨0, call⟩ (.other name))

/-- The way up from the contact. -/
structure Found (d : Descent K) (b : Machine K) (bound : ℕ) (m : Machine K) : Prop where
  found : ∃ (k : ℕ) (z clearance : K) (verdict : PassVerdict K),
    Snapshot.Of power world d ⟨k, z, some (.contact verdict), some clearance, [], 0, clearance,
      some ⟨z + d.params.zStep, k + 1, verdict.confidence⟩⟩ b m ∧
    1 ≤ k ∧ k + 1 ≤ bound ∧ z = d.center.z - k * d.params.zStep ∧
    clearance = min d.center.z (z + clearanceSteps * d.params.zStep)

variable [FloorSemiring K]

def passBound (d : Descent K) : ℕ := ⌈(d.center.z - d.floorZ) / d.params.zStep⌉₊

/-- What a probe that succeeds, or one that does not, leaves. -/
def DragFound (b m : Machine K) : Prop :=
  ∃ setup, Passed plugin args setup ∧
    let d := descentFrom plugin world setup b.position
    Found power world d b (passBound d) m

def DragStopped (b : Machine K) (error : Raised K) (m : Machine K) : Prop :=
  Refused b error m ∨ ∃ setup, Passed plugin args setup ∧
    let d := descentFrom plugin world setup b.position
    Stopped power world d b (passBound d) error m

end Outcomes

section Runs

variable {K : Type} [Field K] [LinearOrder K] [IsStrictOrderedRing K] {power : Power K}
  {sqrt : K → K} {plugin : PlrPlugin K} {world : World K} {args : DragArgs K} {b : Machine K}

omit [IsStrictOrderedRing K] in
theorem publishRefusal_rule (error : Raised K) :
    Triple (GateStopped b False error) (publishRefusal error)
      (fun setup m => m = b ∧ Passed plugin args setup) (Refused b) := by
  intro m hm
  cases hm with
  | refused message hmessage _ =>
    have h := Refused.published (b := b) message hmessage [] nofun
    rwa [List.append_nil] at h
  | faulted call fault hgate =>
    cases fault with
    | command text =>
      exact .published (.klippy text) nofun [(⟨0, call⟩, .command text)]
        (List.forall_mem_singleton.mpr ⟨hgate, text, rfl⟩)
    | other name => exact .raised call name hgate

theorem widen_nonneg (plugin : PlrPlugin K) (world : World K) : 0 ≤ widen plugin world := by
  unfold widen
  split
  · unfold tempWidenFactor
    dsimp only
    split_ifs with h
    · exact le_rfl
    · rw [not_le] at h
      have hband : 0 ≤ |_ - _| - (tempBandC : K) := sub_nonneg.mpr h.le
      refine le_min ?_ (mul_nonneg ?_ hband)
      · norm_num [tempWidenCap]
      · norm_num [tempWidenPerC]
  · exact le_rfl

theorem descentFrom_valid {setup : DragSetup K} (h : Passed plugin args setup)
    (center : Position K) : (descentFrom plugin world setup center).Valid := by
  obtain ⟨hstep, hlow, hhigh⟩ := dragParams_valid h.params
  have hfloor := plugin.noiseFloorRms_pos _ h.noiseFloor
  have hwiden := widen_nonneg plugin world
  exact ⟨hstep, mul_pos hfloor (by linarith), hlow, hhigh⟩

/-- The clearance reaches the start from the first two steps only. -/
theorem clearance_eq_start {d : Descent K} {k : ℕ} {z : K} (hvalid : d.Valid)
    (hheight : z = d.center.z - k * d.params.zStep) :
    min d.center.z (z + clearanceSteps * d.params.zStep) = d.center.z ↔ k ≤ 2 := by
  have hstep := hvalid.zStep
  have hsum : z + clearanceSteps * d.params.zStep =
      d.center.z + (2 - (k : K)) * d.params.zStep := by
    rw [hheight, clearanceSteps]
    ring
  rw [min_eq_left_iff, hsum, le_add_iff_nonneg_right, mul_nonneg_iff_of_pos_right hstep, sub_nonneg]
  exact_mod_cast Iff.rfl

theorem clearContact_rule {d : Descent K} {k bound : ℕ} {z : K} {r : Option (DragResult K)}
    {l : Locals K} {contact : Contact K} (hvalid : d.Valid) (hresult : r = b.lastDragResult)
    (hk : 1 ≤ k) (hroom : k + 1 ≤ bound) (hheight : z = d.center.z - k * d.params.zStep)
    (hz : l.z = z) (hpasses : l.passesRun = k + 1)
    (hclean : contact.lastCleanZ = z + d.params.zStep) :
    Triple (Snapshot.Of power world d
        ⟨k, z, some (.contact contact.verdict), none, [], 0, z, r⟩ b)
      (clearContact world d l contact) (fun _ => Found power world d b bound)
      (Stopped power world d b bound) := by
  have hstep := hvalid.zStep
  have hreach := clearance_eq_start hvalid hheight
  have hbelow : z < d.center.z := by
    have hpos : (0 : K) < k := Nat.cast_pos.mpr hk
    have := mul_pos hpos hstep
    linarith
  have hup : z < min d.center.z (z + clearanceSteps * d.params.zStep) := by
    rw [lt_min_iff, clearanceSteps]
    exact ⟨hbelow, by linarith⟩
  unfold clearContact
  dsimp only
  rw [hz, hpasses, Nat.add_sub_cancel, if_pos hup]
  refine Triple.bind (lift_rule rfl rfl hup fun fault m hm => ?_) fun _ => ?_
  · refine ⟨_, hm, .fault _ fault (List.mem_singleton_self _) rfl hresult hroom ?_⟩
    have hne : z ≠ d.center.z := hbelow.ne
    cases hmoved : world.moved ⟨k, .clearLift⟩ <;> simp [Harmless, hmoved, hne, hreach]
  refine Triple.bind (call_rule fun fault m hm => ?_) fun _ => ?_
  · refine ⟨_, hm, .fault _ fault (List.mem_singleton_self _) rfl hresult hroom ?_⟩
    simp [Harmless, hreach]
  · refine Triple.update _ fun m hm => ⟨k, z, _, contact.verdict, ?_, hk, hroom, hheight, rfl⟩
    exact { hm with result := by rw [hclean] }

omit [IsStrictOrderedRing K] in
theorem resting_of (d : Descent K) (hstart : b.position.z = d.center.z) :
    Snapshot.Of power world d (resting 0 b.position.z b.lastDragResult) b b where
  trace := ⟨[], hstart ▸ .start, (List.append_nil _).symm⟩
  judged := nofun
  upward := nofun
  faults := (List.append_nil _).symm
  captures := rfl
  height := rfl
  result := rfl
  maxAccel := rfl
  sessions := rfl
  touch := rfl

theorem probeDown_rule [FloorSemiring K] {d : Descent K} {zPositionMin : K} (hvalid : d.Valid)
    {r : Option (DragResult K)} (hresult : r = b.lastDragResult) :
    Triple (Snapshot.Of power world d (resting 0 d.center.z r) b)
      (probeDown power sqrt world zPositionMin d)
      (fun _ => Found power world d b (passBound d)) (Stopped power world d b (passBound d)) := by
  have hstep := hvalid.zStep
  unfold probeDown
  dsimp only
  split
  · exact fail_rule (o := none) (Nat.zero_le _) nofun
  · rename_i habove
    rw [not_le] at habove
    have hbound : iterationBound d.center.z d.floorZ d.params.zStep = .ok (passBound d) :=
      if_neg (not_or.mpr ⟨hstep.not_ge, habove.not_ge⟩)
    obtain ⟨mult, hmult⟩ := multiplier_ok power hvalid.sensitivity.1 hvalid.sensitivity.2
    have hroom : 0 < passBound d := Nat.ceil_pos.mpr (div_pos (sub_pos.mpr habove) hstep)
    have hreach : d.center.z - passBound d * d.params.zStep ≤ d.floorZ := by
      have := (div_le_iff₀ hstep).mp (Nat.le_ceil ((d.center.z - d.floorZ) / d.params.zStep))
      unfold passBound
      linarith
    rw [hbound, hmult]
    refine Triple.bind (Q := fun bound m => Snapshot.Of power world d
      (resting 0 d.center.z r) b m ∧ bound = passBound d) (Triple.lift ?_ nofun) fun bound => ?_
    · exact fun bound h m hm => ⟨hm, (Except.ok.inj h).symm⟩
    refine Triple.of_and_right fun hbound => ?_
    subst hbound
    refine Triple.bind (Q := fun _ => Snapshot.Of power world d (resting 0 d.center.z r) b)
      (Triple.lift (fun _ _ m hm => hm) nofun) fun _ => ?_
    refine Triple.bind (staircase_rule (k := 0) hvalid hresult hreach hroom (Nat.zero_add _)
      ⟨rfl, rfl, by simp, by simp, le_rfl⟩) fun (l, contact) => ?_
    rintro m ⟨k, outcome, hm, hpasses, hk, hheight, hnone, hsome⟩
    have hroom : k + (some outcome).toList.length ≤ passBound d := hk
    cases contact with
    | none =>
      obtain ⟨hclean, hnear⟩ := hnone rfl
      have habort : Triple (Snapshot.Of power world d ⟨k, l.z, some outcome, none, [], 0, l.z, r⟩ b)
          (abort world k d.center.z (.envelope l.passesRun d.center.z l.z))
          (fun (_ : Unit) => Found power world d b (passBound d))
          (Stopped power world d b (passBound d)) := by
        refine abort_rule (eq_start_iff hvalid hheight) (le_start hvalid hheight) hroom hresult ?_
        rintro passes start z ⟨⟩
        obtain ⟨verdict, rfl⟩ := hclean
        exact ⟨rfl, ⟨verdict, rfl⟩, hnear⟩
      dsimp only at hpasses ⊢
      rw [hpasses, Nat.add_sub_cancel, ← hpasses]
      exact habort m hm
    | some contact =>
      obtain ⟨rfl, hone, hlast⟩ := hsome contact rfl
      exact clearContact_rule hvalid hresult hone hk hheight rfl hpasses hlast m hm

/-- A probe that is let through goes down and finds the part, or stops. -/
theorem cmdPlrDragProbe_rule [FloorSemiring K] (power : Power K) (sqrt : K → K)
    (plugin : PlrPlugin K) (world : World K) (args : DragArgs K) (b : Machine K) :
    Triple (· = b) (cmdPlrDragProbe power sqrt plugin world args)
      (fun _ => DragFound power plugin world args b)
      (DragStopped power plugin world args b) := by
  unfold cmdPlrDragProbe
  refine Triple.bind (Q := fun setup m => m = b ∧ Passed plugin args setup)
    (((dragGates_rule plugin world args).onError publishRefusal_rule).conseq (fun _ hm => hm)
      (fun _ _ h => h) fun _ _ h => .inl h) fun setup => ?_
  refine Triple.of_and_right fun hpassed => ?_
  have hvalid : (descentFrom plugin world setup b.position).Valid :=
    descentFrom_valid hpassed b.position
  have hinit : Snapshot.Of power world (descentFrom plugin world setup b.position)
      (resting 0 b.position.z b.lastDragResult) b b :=
    resting_of (descentFrom plugin world setup b.position) rfl
  have hstart : b.position.z = b.position.z ↔ (0 : ℕ) = 0 := iff_of_true rfl rfl
  have hstop : ∀ error m, Stopped power world (descentFrom plugin world setup b.position) b
      (passBound (descentFrom plugin world setup b.position)) error m →
      DragStopped power plugin world args b error m := fun _ _ h => .inr ⟨setup, hpassed, h⟩
  refine Triple.bind (Q := fun _ => (· = b)) ?_ fun _ => ?_
  · rintro m rfl
    unfold World.call
    cases world.raises ⟨0, .getPosition⟩ with
    | none => rfl
    | some fault =>
      refine hstop _ _ (stopped_here (o := none) hstart (Nat.zero_le _) rfl
        (List.mem_singleton_self _) rfl (List.forall_mem_singleton.mpr Iff.rfl)
        (hinit.faulted ⟨0, .getPosition⟩ fault))
  refine Triple.bind (Q := fun m' m => m = b ∧ m' = b) (Triple.state fun m hm => ⟨hm, hm⟩)
    fun m' => ?_
  refine Triple.of_and_right fun hm' => ?_
  subst hm'
  refine (probeDown_rule hvalid rfl).conseq (fun m hm => ?_) (fun _ _ h => ⟨setup, hpassed, h⟩)
    hstop
  exact hm ▸ hinit

end Runs

section Trace

variable {K : Type} [Field K] [LinearOrder K] (power : Power K) (world : World K) (d : Descent K)

def DragEvent.isPass : DragEvent K → Bool
  | .passed _ _ => true
  | .commanded _ _ _ => false

/-- The pass was captured and covered, and is no contact. -/
structure Clean (k : ℕ) (verdict : PassVerdict K) : Prop where
  clean : ∃ capture, world.capture k = some capture ∧
    classifyPass power capture.samples d.noiseFloor d.params.sensitivity = .ok (.verdict verdict) ∧
    checkCoverage capture coverageGraceSeconds = .ok none ∧ verdict.contact = false

/-- What may come after the events so far. -/
structure Allowed (past : List (DragEvent K)) (event : DragEvent K) : Prop where
  /-- A way down is one step, not below the floor, and right after a clean pass. -/
  descent : ∀ z z' speed, event = .commanded z z' speed → z' < z →
    z' = z - d.params.zStep ∧ d.floorZ ≤ z' ∧
      ∃ before verdict, past = before ++ [.passed z (.clean verdict)] ∧
        Clean power world d (before.countP DragEvent.isPass) verdict
  /-- Nothing comes after a way up; after one down comes a pass there, or a way up. -/
  next : ∀ before z z' speed, past = before ++ [.commanded z z' speed] →
    z' < z ∧ ((∃ outcome, event = .passed z' outcome) ∨
      ∃ z'' speed', event = .commanded z' z'' speed' ∧ z' < z'')
  /-- A pass came to what its capture says. -/
  judged : ∀ z outcome, event = .passed z outcome →
    Judged power world d (past.countP DragEvent.isPass) outcome

variable {power world d} {k : ℕ} {z z' : K} {t : List (DragEvent K)} {outcome : Outcome K}

theorem Judged.clean {verdict : PassVerdict K} (h : Judged power world d k (.clean verdict)) :
    Clean power world d k verdict := by
  unfold Judged at h
  cases hcapture : world.capture k with
  | none =>
    rw [hcapture] at h
    cases h
  | some capture =>
    rw [hcapture] at h
    obtain ⟨classified, hclassified, h⟩ := bind_eq_ok.mp h
    have hclass := mapError_eq_ok.mp hclassified
    cases classified with
    | invalid invalid => cases h
    | verdict v =>
      obtain ⟨gap, hgap, h⟩ := bind_eq_ok.mp h
      cases gap with
      | some gap => cases h
      | none =>
        cases hcontact : v.contact with
        | true =>
          simp only [hcontact] at h
          cases h
        | false =>
          simp only [hcontact] at h
          cases h
          exact ⟨capture, hcapture, hclass, hgap, hcontact⟩

/-- If the last event was a move, it led down to here. -/
def Ends (z : K) (t : List (DragEvent K)) : Prop :=
  ∀ before u u' speed, t = before ++ [.commanded u u' speed] → u' = z ∧ u' < u

omit [Field K] in
theorem ends_passed (t : List (DragEvent K)) (outcome : Outcome K) :
    Ends z (t ++ [.passed z' outcome]) := by
  intro before u u' speed h
  obtain ⟨-, hlast⟩ := List.append_inj' h rfl
  cases hlast

theorem allowed_pass (hends : Ends z t)
    (hjudged : Judged power world d (t.countP DragEvent.isPass) outcome) :
    Allowed power world d t (.passed z outcome) where
  descent := nofun
  next before u u' speed ht := by
    obtain ⟨rfl, hdown⟩ := hends before u u' speed ht
    exact ⟨hdown, .inl ⟨outcome, rfl⟩⟩
  judged := by
    rintro _ _ ⟨⟩
    exact hjudged

theorem allowed_up (speed : K) (hends : Ends z t) (hup : z < z') :
    Allowed power world d t (.commanded z z' speed) where
  descent := by
    rintro _ _ _ ⟨⟩ hdown
    exact absurd hdown hup.not_gt
  next before u u' speed' ht := by
    obtain ⟨rfl, hdown⟩ := hends before u u' speed' ht
    exact ⟨hdown, .inr ⟨z', speed, rfl, hup⟩⟩
  judged := nofun

theorem allowed_down {verdict : PassVerdict K} (speed : K)
    (hfloor : d.floorZ ≤ z - d.params.zStep)
    (hclean : Clean power world d (t.countP DragEvent.isPass) verdict) :
    Allowed power world d (t ++ [.passed z (.clean verdict)])
      (.commanded z (z - d.params.zStep) speed) where
  descent := by
    rintro _ _ _ ⟨⟩ -
    exact ⟨rfl, hfloor, t, verdict, rfl, hclean⟩
  next before u u' speed' ht := by
    obtain ⟨-, hlast⟩ := List.append_inj' ht rfl
    cases hlast
  judged := nofun

theorem Descended.countP (h : Descended power world d k z t) :
    t.countP DragEvent.isPass = k := by
  induction h with
  | start => rfl
  | down _ _ _ ih =>
    rw [List.countP_append, ih]
    rfl

/-- Below the start the last pass was clean, and one step further up. -/
theorem Descended.last_clean (h : Descended power world d k z t) (hk : 1 ≤ k) :
    ∃ before z' verdict, z = z' - d.params.zStep ∧
      t = before ++ [.passed z' (.clean verdict), .commanded z' z d.descendSpeed] := by
  cases h with
  | start => exact absurd hk (Nat.not_succ_le_zero 0)
  | down _ _ _ => exact ⟨_, _, _, rfl, rfl⟩

variable [IsStrictOrderedRing K]

/-- The way down ends where the toolhead is. -/
theorem Descended.ends (hstep : 0 < d.params.zStep) (h : Descended power world d k z t) :
    Ends z t := by
  intro before u u' speed ht
  cases h with
  | start => simp at ht
  | @down k z t verdict _ _ _ =>
    obtain ⟨-, hlast⟩ := List.append_inj' (ht.symm.trans (List.append_cons t _ _)) rfl
    cases hlast
    exact ⟨rfl, by linarith⟩

theorem Descended.justified (hstep : 0 < d.params.zStep) (h : Descended power world d k z t) :
    Trace.Justified (Allowed power world d) t := by
  induction h with
  | start => exact Trace.justified_nil _
  | @down k z t verdict ht hjudged hfloor ih =>
    rw [List.append_cons]
    refine Trace.justified_snoc.mpr ⟨Trace.justified_snoc.mpr ⟨ih, ?_⟩, allowed_down _ hfloor ?_⟩
    · exact allowed_pass (ht.ends hstep) (ht.countP.symm ▸ hjudged)
    · exact ht.countP.symm ▸ hjudged.clean

/-- However far the probe has come, its events were allowed, and its passes are counted. -/
theorem Snapshot.Of.justified {s : Snapshot K} {b m : Machine K} (hstep : 0 < d.params.zStep)
    (h : s.Of power world d b m) : ∃ t t', m.trace = b.trace ++ t ∧
      Trace.Justified (Allowed power world d) t ∧ t.countP DragEvent.isPass = s.passes ∧
      Descended power world d s.descents s.z t' ∧
      t = t' ++ ((s.outcome.map (.passed s.z)).toList ++
        (s.lift.map fun z => .commanded s.z z liftSpeed).toList) := by
  obtain ⟨t, ht, htrace⟩ := h.trace
  have hends := ht.ends hstep
  have hjustified := ht.justified hstep
  have hcount := ht.countP
  refine ⟨_, t, htrace, ?_, ?_, ht, rfl⟩
  · have hpass : Trace.Justified (Allowed power world d)
        (t ++ (s.outcome.map (.passed s.z)).toList) ∧
        Ends s.z (t ++ (s.outcome.map (.passed s.z)).toList) := by
      cases ho : s.outcome with
      | none =>
        rw [Option.map_none, Option.toList_none, List.append_nil]
        exact ⟨hjustified, hends⟩
      | some outcome =>
        refine ⟨Trace.justified_snoc.mpr ⟨hjustified, allowed_pass hends ?_⟩, ends_passed t outcome⟩
        rw [hcount]
        exact h.judged outcome ho
    rw [← List.append_assoc]
    cases hl : s.lift with
    | none =>
      rw [Option.map_none, Option.toList_none, List.append_nil]
      exact hpass.1
    | some z' =>
      exact Trace.justified_snoc.mpr ⟨hpass.1, allowed_up _ hpass.2 (h.upward z' hl)⟩
  · rw [List.countP_append, List.countP_append, hcount, Snapshot.passes]
    cases s.outcome <;> cases s.lift <;> rfl

/-- What every probe that passes its gates keeps to. -/
structure StaircaseSafe [FloorSemiring K] (power : Power K) (world : World K) (d : Descent K)
    (b : Machine K) (left : Except (Raised K) Unit × Machine K) (t : List (DragEvent K)) :
    Prop where
  trace : left.2.trace = b.trace ++ t
  allowed : Trace.Justified (Allowed power world d) t
  passes : t.countP DragEvent.isPass ≤ ⌈(d.center.z - d.floorZ) / d.params.zStep⌉₊
  /-- Contact came one step below the last clean pass, which is reported. -/
  contact : left.1 = .ok () → ∃ before clean verdict z result,
    t = before ++ [.passed result.triggerZ (.clean clean),
      .commanded result.triggerZ z d.descendSpeed, .passed z (.contact verdict),
      .commanded z (min d.center.z (z + 2 * d.params.zStep)) liftSpeed] ∧
    z = result.triggerZ - d.params.zStep ∧
    result.passes = t.countP DragEvent.isPass ∧ result.confidence = verdict.confidence ∧
    left.2.lastDragResult = some result ∧
    left.2.position.z = min d.center.z (z + 2 * d.params.zStep)
  aborted : ∀ error, left.1 = .error (.command (.drag error)) → left.2.position.z = d.center.z
  /-- The envelope is given up after a clean pass within a step of the floor. -/
  envelope : ∀ passes start z, left.1 = .error (.command (.drag (.envelope passes start z))) →
    ∃ before verdict after, t = before ++ .passed z (.clean verdict) :: after ∧
      after.countP DragEvent.isPass = 0 ∧ z ≤ d.floorZ + d.params.zStep

theorem staircaseSafe_of_found [FloorSemiring K] {b m : Machine K} (hstep : 0 < d.params.zStep)
    (h : Found power world d b (passBound d) m) :
    ∃ t, StaircaseSafe power world d b (.ok (), m) t := by
  obtain ⟨k, z, clearance, verdict, hm, hone, hroom, hheight, rfl⟩ := h
  obtain ⟨t, t', htrace, hallowed, hcount, hdown, rfl⟩ := hm.justified hstep
  refine ⟨_, htrace, hallowed, hcount.trans_le hroom, fun _ => ?_, nofun, nofun⟩
  obtain ⟨before, z', clean, hz, ht⟩ := hdown.last_clean hone
  dsimp only at hz ht
  refine ⟨before, clean, verdict, z, ⟨z', k + 1, verdict.confidence⟩, ?_, hz, hcount.symm, rfl, ?_,
    hm.height⟩
  · rw [ht]
    simp [clearanceSteps]
  · rw [hm.result, hz, sub_add_cancel]

theorem staircaseSafe_of_stopped [FloorSemiring K] {b m : Machine K} {error : Raised K}
    (hstep : 0 < d.params.zStep) (h : Stopped power world d b (passBound d) error m) :
    ∃ t, StaircaseSafe power world d b (.error error, m) t := by
  obtain ⟨s, hm, hexplains⟩ := h
  obtain ⟨t, t', htrace, hallowed, hcount, -, rfl⟩ := hm.justified hstep
  cases hexplains with
  | fault site fault hmem hgate hresult hroom hharm =>
    refine ⟨_, htrace, hallowed, hcount.trans_le hroom, nofun, ?_, ?_⟩
    · intro error herror
      cases fault <;> cases herror
    · intro passes start z herror
      cases fault <;> cases herror
  | abort error hfaults hrunning hheight hresult hroom henvelope =>
    refine ⟨_, htrace, hallowed, hcount.trans_le hroom, nofun, fun _ _ => ?_, ?_⟩
    · exact hm.height.trans hheight
    · rintro passes start z ⟨⟩
      obtain ⟨rfl, ⟨verdict, houtcome⟩, hnear⟩ := henvelope _ _ _ rfl
      refine ⟨t', verdict, (s.lift.map fun z => .commanded s.z z liftSpeed).toList, ?_, ?_, hnear⟩
      · rw [houtcome]
        rfl
      · cases s.lift <;> rfl

/-- A probe is refused before it moves, or keeps to its staircase. -/
theorem cmdPlrDragProbe_staircase [FloorSemiring K] (power : Power K) (sqrt : K → K)
    (plugin : PlrPlugin K) (world : World K) (args : DragArgs K) (b : Machine K) :
    (∃ error, (cmdPlrDragProbe power sqrt plugin world args b).1 = .error error ∧
      Refused b error (cmdPlrDragProbe power sqrt plugin world args b).2) ∨
    ∃ setup, Passed plugin args setup ∧ ∃ t, StaircaseSafe power world
      (descentFrom plugin world setup b.position) b
      (cmdPlrDragProbe power sqrt plugin world args b) t := by
  have hrun := cmdPlrDragProbe_rule power sqrt plugin world args b b rfl
  have hstep : ∀ setup, Passed plugin args setup →
      0 < (descentFrom plugin world setup b.position).params.zStep := fun setup hpassed =>
    (dragParams_valid hpassed.params).1
  rcases hleft : cmdPlrDragProbe power sqrt plugin world args b with ⟨error | ⟨⟩, m⟩
  · rw [hleft] at hrun
    rcases hrun with hrefused | ⟨setup, hpassed, hstopped⟩
    · exact .inl ⟨error, rfl, hrefused⟩
    · exact .inr ⟨setup, hpassed, staircaseSafe_of_stopped (hstep setup hpassed) hstopped⟩
  · rw [hleft] at hrun
    obtain ⟨setup, hpassed, hfound⟩ := hrun
    exact .inr ⟨setup, hpassed, staircaseSafe_of_found (hstep setup hpassed) hfound⟩

end Trace

section Reals

/-- A plugin with the defaults and a noise floor. -/
noncomputable def calibrated : PlrPlugin ℝ where
  adxlDrag := false
  tap := true
  accelChipName := "adxl345"
  accelChips := "adxl345"
  probeSpeed := 3 / 2
  dragSpeed := 20
  dragZStep := 1 / 20
  dragSensitivity := 30
  maxProbeNozzleTemp := 150
  noiseFloorRms := some 1
  staleNoiseFloor := none
  noiseFloorTemp := none
  hasNoiseFloorTempSensor := false
  zPositionMin := some 0
  dragZStep_pos := by norm_num
  dragSensitivity_bounds := by norm_num
  noiseFloorRms_pos := by simp

/-- A cool, homed and idle machine whose chip has no data. -/
noncomputable def answering (raises : Site → Option Fault) : World ℝ where
  raises := raises
  moved _ := false
  printStats := none
  idleTimeout := none
  nozzle := none
  homedAxes := ['x', 'y', 'z']
  chip _ := some true
  temperature := none
  budgetStart := 0
  monotonic _ := 0
  hasValidSamples _ := false
  samples _ := []
  motionStart _ := 0
  motionEnd _ := 0
  hasProbe := true
  liftSpeed := 5
  halt _ := 0
  bedZ _ := 0

/-- Five millimetres up, with the results of earlier probes. -/
noncomputable def published : Machine ℝ where
  position := ⟨0, 0, 5⟩
  maxAccel := 3000
  sessions := 0
  captures := 0
  lastTouchResult := some ⟨1, 0, 3, 3⟩
  lastDragResult := some ⟨1, 4, 1⟩
  lastDragError := none
  faults := []
  trace := []

def defaults : DragArgs ℝ := ⟨none, .absent, .absent, .absent, .absent, .absent, .absent⟩

/-- The chip has no data, so the probe stops where it is. -/
theorem cmdPlrDragProbe_staircase_silent :
    (∃ error, (cmdPlrDragProbe realPower Real.sqrt calibrated (answering fun _ => none) defaults
        published).1 = .error error ∧ Refused published error
      (cmdPlrDragProbe realPower Real.sqrt calibrated (answering fun _ => none) defaults
        published).2) ∨
    ∃ setup, Passed calibrated defaults setup ∧ ∃ t, StaircaseSafe realPower
      (answering fun _ => none) (descentFrom calibrated (answering fun _ => none) setup
        published.position) published
      (cmdPlrDragProbe realPower Real.sqrt calibrated (answering fun _ => none) defaults
        published) t :=
  cmdPlrDragProbe_staircase realPower Real.sqrt calibrated (answering fun _ => none) defaults
    published

end Reals

end DeadReckoning.Plugin
