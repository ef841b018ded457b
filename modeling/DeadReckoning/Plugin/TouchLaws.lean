import DeadReckoning.Plugin.Touch

/-! What a touch probe leaves behind, wherever it is interrupted. -/
namespace DeadReckoning.Plugin

open Checks Prog

section Frame

variable {K : Type}

/-- The machine as it was, up to its position, with an acceleration and sessions of its own and the
exceptions that klippy raised since. -/
structure Around (b : Machine K) (accel : K) (opened : ℕ) (fs : List (Site × Fault))
    (m : Machine K) : Prop where
  maxAccel : m.maxAccel = accel
  sessions : m.sessions = b.sessions + opened
  faults : m.faults = b.faults ++ fs
  captures : m.captures = b.captures
  touch : m.lastTouchResult = b.lastTouchResult
  drag : m.lastDragResult = b.lastDragResult

/-- klippy has raised. -/
def Faulted (b : Machine K) (accel : K) (opened : ℕ) (error : Raised K) (m : Machine K) : Prop :=
  ∃ (fs : List (Site × Fault)) (fault : Fault),
    fs ≠ [] ∧ error = fault.raised ∧ Around b accel opened fs m

variable {world : World K} {b m : Machine K} {accel : K} {opened : ℕ} {fs : List (Site × Fault)}
  {E : Raised K → Machine K → Prop}

theorem Around.faulted (h : Around b accel opened fs m) (site : Site) (fault : Fault) :
    Around b accel opened (fs ++ [(site, fault)]) (m.faulted site fault) :=
  { h with faults := by rw [Machine.faulted, h.faults, List.append_assoc] }

theorem Around.raised (h : Around b accel opened [] m) (site : Site) (fault : Fault) :
    Faulted b accel opened fault.raised (m.faulted site fault) :=
  ⟨_, fault, List.cons_ne_nil _ _, rfl, h.faulted site fault⟩

theorem touchCall_rule (site : Site) :
    Triple (Around b accel opened []) (world.call site) (fun _ => Around b accel opened [])
      (Faulted b accel opened) := by
  intro m hm
  unfold World.call
  cases world.raises site with
  | none => exact hm
  | some fault => exact hm.raised site fault

/-- A move leaves the position and, with a height, its record. -/
theorem Around.issued (hm : Around b accel opened [] m) (z : Option K) (speed : K)
    (p : Position K) : Around b accel opened [] { (match z with
      | none => m
      | some z => m.note (.commanded m.position.z z speed)) with position := p } := by
  cases z with
  | none => exact { hm with }
  | some z => exact { hm with }

theorem touchMove_rule (site : Site) (x y z : Option K) (speed : K) :
    Triple (Around b accel opened []) (world.manualMove site x y z speed)
      (fun _ => Around b accel opened []) (Faulted b accel opened) := by
  intro m hm
  unfold World.manualMove
  cases world.raises site with
  | none => exact hm.issued z speed _
  | some fault =>
    refine Around.raised ?_ site fault
    cases world.moved site with
    | true => exact hm.issued z speed ⟨x.getD m.position.x, y.getD m.position.y, z.getD m.position.z⟩
    | false =>
      cases z with
      | none => exact hm
      | some z => exact { hm with }

theorem setMaxAccel_rule {accel' : K} :
    Triple (Around b accel opened fs) (setMaxAccel accel') (fun _ => Around b accel' opened fs)
      (fun _ _ => False) :=
  Triple.update _ fun _ hm => { hm with maxAccel := rfl }

end Frame

section Sampler

variable {K : Type} {world : World K} {b : Machine K} {opened : ℕ} {params : TouchParams K}

/-- The acceleration is put back. -/
theorem clampedProbe_rule (k : ℕ) (touchAccel : K) :
    Triple (Around b b.maxAccel opened []) (clampedProbe world k touchAccel)
      (fun touch m => Around b b.maxAccel opened [] m ∧ touch = world.bedZ k)
      (Faulted b b.maxAccel opened) := by
  unfold clampedProbe
  refine Triple.bind (touchCall_rule _) fun _ => ?_
  refine Triple.bind (Q := fun m' m => Around b b.maxAccel opened [] m ∧ m'.maxAccel = b.maxAccel)
    (Triple.state fun m hm => ⟨hm, hm.maxAccel⟩) fun m' => ?_
  refine Triple.of_and_right fun hprior => ?_
  dsimp only
  rw [hprior]
  refine Triple.bind (setMaxAccel_rule.conseq (fun _ h => h) (fun _ _ h => h)
    fun _ _ h => h.elim) fun _ => ?_
  refine Triple.ensuring (E := Faulted b touchAccel opened) (Q := fun touch m =>
    Around b touchAccel opened [] m ∧ touch = world.bedZ k) ?_ (fun touch => ?_) fun error => ?_
  · refine Triple.bind (Q := fun _ => Around b touchAccel opened []) ?_ fun _ => ?_
    · unfold runProbe
      refine Triple.bind (Triple.update _ fun m hm => ?_) fun _ => touchCall_rule _
      exact { hm with }
    · refine Triple.bind (touchCall_rule _) fun _ => ?_
      exact Triple.pure _ fun m hm => ⟨hm, rfl⟩
  · exact Triple.of_and_right fun htouch =>
      setMaxAccel_rule.conseq (fun _ h => h) (fun _ _ h => ⟨h, htouch⟩) fun _ _ h => h.elim
  · rintro m ⟨fs, fault, hne, herror, hm⟩
    exact ⟨fs, fault, hne, herror, { hm with maxAccel := rfl }⟩

variable [LinearOrder K]

theorem retractBeforeArm_rule (start : Position K) (k : ℕ) :
    Triple (Around b b.maxAccel opened []) (retractBeforeArm world params start k)
      (fun _ => Around b b.maxAccel opened []) (Faulted b b.maxAccel opened) := by
  unfold retractBeforeArm
  refine Triple.bind (touchCall_rule _) fun _ => ?_
  refine Triple.bind (Q := fun _ => Around b b.maxAccel opened [])
    (Triple.state fun m hm => hm) fun m' => ?_
  split
  · exact Triple.bind (touchMove_rule _ _ _ _ _) fun _ => touchCall_rule _
  · exact Triple.pure () fun m hm => hm

variable [Field K]

theorem probeOnce_rule (start : Position K) (k : ℕ) :
    Triple (Around b b.maxAccel opened []) (probeOnce world params start k)
      (fun touch m => Around b b.maxAccel opened [] m ∧ touch = world.bedZ k)
      (Faulted b b.maxAccel opened) := by
  unfold probeOnce
  refine Triple.bind (retractBeforeArm_rule start k) fun _ => ?_
  refine Triple.bind (clampedProbe_rule k _) fun touch => ?_
  refine Triple.of_and_right fun htouch => ?_
  refine Triple.bind (touchMove_rule _ _ _ _ _) fun _ => ?_
  exact Triple.pure _ fun m hm => ⟨hm, htouch⟩

/-- Klippy has raised, or the touches have come to no agreement. -/
def Disagreed (b : Machine K) (opened : ℕ) (error : Raised K) (m : Machine K) : Prop :=
  Faulted b b.maxAccel opened error m ∨
    (∃ e, error = .sequence (.consensus e)) ∧ Around b b.maxAccel opened [] m

/-- The sampler is the pure one on the heights that the probe reports. -/
theorem collectTouches_rule [IsStrictOrderedRing K] (hvalid : params.config.postInit = .ok ())
    (start : Position K) (room : ℕ) (k : ℕ) :
    Triple (Around b b.maxAccel opened [])
      (collectTouches world params start room (first world.bedZ k))
      (fun result m => Around b b.maxAccel opened [] m ∧
        collectFrom world.bedZ params.config room (first world.bedZ k) = .ok result)
      (Disagreed b opened) := by
  induction room generalizing k with
  | zero => exact Triple.stop _ fun m hm => .inr ⟨⟨_, rfl⟩, hm⟩
  | succ room ih =>
    have hlength : (first world.bedZ k).length = k := by simp [first]
    unfold collectTouches collectFrom
    refine Triple.bind ((probeOnce_rule start _).conseq (fun _ h => h) (fun _ _ h => h)
      fun _ _ h => .inl h) fun touch => ?_
    refine Triple.of_and_right fun htouch => ?_
    have hnext : first world.bedZ k ++ [world.bedZ (first world.bedZ k).length] =
        first world.bedZ (k + 1) := first_succ world.bedZ k
    dsimp only
    rw [htouch, hnext]
    rcases judge_of_valid hvalid (first world.bedZ (k + 1)) with
      ⟨-, result, hjudge, -⟩ | ⟨-, hjudge⟩
    · rw [hjudge]
      refine Triple.bind (Q := fun o m => Around b b.maxAccel opened [] m ∧ o = some result)
        (Triple.lift (fun o ho m hm => ⟨hm, (Except.ok.inj ho).symm⟩) (by rintro e ⟨⟩)) fun o => ?_
      refine Triple.of_and_right fun ho => ?_
      subst ho
      exact Triple.pure _ fun m hm => ⟨hm, rfl⟩
    · rw [hjudge]
      refine Triple.bind (Q := fun o m => Around b b.maxAccel opened [] m ∧ o = none)
        (Triple.lift (fun o ho m hm => ⟨hm, (Except.ok.inj ho).symm⟩) (by rintro e ⟨⟩)) fun o => ?_
      refine Triple.of_and_right fun ho => ?_
      subst ho
      exact ih (k + 1)

omit [LinearOrder K] [Field K] in
/-- Ended or not, the session is told to end. -/
theorem endProbeSession_rule (fs : List (Site × Fault)) :
    Triple (Around b b.maxAccel 1 fs) (endProbeSession world)
      (fun _ => Around b b.maxAccel 0 fs) (Faulted b b.maxAccel 0) := by
  unfold endProbeSession
  refine Triple.bind (Q := fun _ => Around b b.maxAccel 0 fs) (Triple.update _ fun m hm => ?_)
    fun _ => ?_
  · refine { hm with sessions := ?_ }
    rw [hm.sessions]
    exact Nat.add_sub_cancel _ _
  · intro m hm
    unfold World.call
    cases world.raises ⟨0, .endSession⟩ with
    | none => exact hm
    | some fault => exact ⟨_, fault, by simp, rfl, hm.faulted _ fault⟩

theorem performConsensusTouch_rule [IsStrictOrderedRing K]
    (hvalid : params.config.postInit = .ok ()) :
    Triple (Around b b.maxAccel 0 []) (performConsensusTouch world params)
      (fun result m => Around b b.maxAccel 0 [] m ∧
        runConsensus world.bedZ params.config = .ok result) (Disagreed b 0) := by
  have hcall : ∀ (site : Site) (opened : ℕ), Triple (Around b b.maxAccel opened [])
      (world.call site) (fun _ => Around b b.maxAccel opened []) (Disagreed b opened) :=
    fun site opened => (touchCall_rule site).conseq (fun _ h => h) (fun _ _ h => h)
      fun _ _ h => .inl h
  unfold performConsensusTouch
  refine Triple.bind (hcall _ 0) fun _ => ?_
  refine Triple.bind (hcall _ 0) fun _ => ?_
  refine Triple.bind (Q := fun _ => Around b b.maxAccel 0 []) (Triple.state fun m hm => hm)
    fun m' => ?_
  refine Triple.bind (Q := fun _ => Around b b.maxAccel 1 []) ?_ fun _ => ?_
  · refine Triple.bind (hcall _ 0) fun _ => Triple.update _ fun m hm => ?_
    exact { hm with sessions := by rw [hm.sessions] }
  refine Triple.ensuring (E := Disagreed b 1) (Q := fun result m => Around b b.maxAccel 1 [] m ∧
    runConsensus world.bedZ params.config = .ok result) ?_ (fun result => ?_) fun error => ?_
  · refine Triple.bind (collectTouches_rule hvalid _ _ 0) fun result => ?_
    refine Triple.of_and_right fun hresult => ?_
    refine Triple.bind (hcall _ 1) fun _ => ?_
    exact Triple.pure _ fun m hm => ⟨hm, hresult⟩
  · refine Triple.of_and_right fun hresult => ?_
    exact (endProbeSession_rule []).conseq (fun _ h => h) (fun _ _ h => ⟨h, hresult⟩)
      fun _ _ h => .inl h
  · rintro m (⟨fs, fault, hne, herror, hm⟩ | ⟨hconsensus, hm⟩)
    · refine (endProbeSession_rule fs).conseq (fun _ h => h) (fun _ _ h => ?_)
        (fun _ _ h => .inl h) m hm
      exact .inl ⟨fs, fault, hne, herror, h⟩
    · exact (endProbeSession_rule []).conseq (fun _ h => h) (fun _ _ h => .inr ⟨hconsensus, h⟩)
        (fun _ _ h => .inl h) m hm

end Sampler

section Command

variable {K : Type} [Field K] [LinearOrder K] {plugin : PlrPlugin K} {world : World K}
  {args : TouchArgs K} {b : Machine K}

/-- What the gates of a touch ask of the machine. -/
structure TouchReady (plugin : PlrPlugin K) (world : World K) : Prop where
  descends : plugin.adxlDrag = false
  motion : MotionReady plugin world "PLR_TOUCH"
  probe : world.hasProbe = true

/-- The parameters and the gates let the touch begin. -/
def TouchBegins (plugin : PlrPlugin K) (world : World K) (args : TouchArgs K) : Prop :=
  (∃ params, touchParams plugin args = .ok params) ∧ TouchReady plugin world

theorem requireTouchReady_rule (plugin : PlrPlugin K) (world : World K) :
    Triple (· = b) (requireTouchReady plugin world "PLR_TOUCH")
      (fun _ m => m = b ∧ TouchReady plugin world) (GateStopped b (TouchReady plugin world)) := by
  unfold requireTouchReady
  split
  · rename_i hdrag
    refine gateStop_rule nofun fun h => ?_
    rw [h.descends] at hdrag
    cases hdrag
  · rename_i hdescends
    refine Triple.bind ((motionGates_rule plugin world _).conseq (fun _ h => h) (fun _ _ h => h)
      fun _ _ h => h.mono TouchReady.motion) fun _ => ?_
    refine Triple.of_and_right fun hmotion => ?_
    split
    · rename_i hprobe
      refine gateStop_rule nofun fun h => ?_
      rw [h.probe] at hprobe
      cases hprobe
    · rename_i hprobe
      exact Triple.pure () fun _ hm => ⟨hm, by simpa using hdescends, hmotion, by simpa using hprobe⟩

theorem touchParams_valid {params : TouchParams K} (h : touchParams plugin args = .ok params) :
    params.config.postInit = .ok () := by
  have hparse := mapError_eq_ok.mp h
  simp only [parseTouchParams, bind_eq_ok] at hparse
  obtain ⟨_, -, _, -, _, -, _, -, _, -, _, -, ⟨⟩, hconfig, heq⟩ := hparse
  cases heq
  exact mapError_eq_ok.mp hconfig

/-- How a touch ends: with a result that it publishes, or without. -/
inductive TouchEnded (plugin : PlrPlugin K) (world : World K) (args : TouchArgs K)
    (b : Machine K) : Except (Raised K) Unit × Machine K → Prop where
  | found {m : Machine K} (params : TouchParams K) (result : ConsensusResult K)
      (hbegins : TouchBegins plugin world args) (hparams : touchParams plugin args = .ok params)
      (hresult : runConsensus world.bedZ params.config = .ok result)
      (hm : Around b b.maxAccel 0 [] m) :
      TouchEnded plugin world args b
        (.ok (), { m with lastTouchResult := some (publishTouch params result) })
  | disagreed {m : Machine K} (error : Raised K) (hbegins : TouchBegins plugin world args)
      (hm : Around b b.maxAccel 0 [] m) :
      TouchEnded plugin world args b (.error error, { m with lastTouchResult := none })
  | refused (error : Raised K) (hnot : ¬TouchBegins plugin world args) :
      TouchEnded plugin world args b (.error error, b)
  | raised {m : Machine K} (error : Raised K) (fs : List (Site × Fault)) (hne : fs ≠ [])
      (hm : Around b b.maxAccel 0 fs m) : TouchEnded plugin world args b (.error error, m)

theorem publishConsensusError_rule (params : TouchParams K) (error : Raised K)
    (hbegins : TouchBegins plugin world args) :
    Triple (Disagreed b 0 error) (publishConsensusError params error) (fun _ _ => False)
      (fun error m => TouchEnded plugin world args b (.error error, m)) := by
  rintro m (⟨fs, fault, hne, rfl, hm⟩ | ⟨⟨e, rfl⟩, hm⟩)
  · cases fault with
    | command text => exact .raised _ fs hne hm
    | other name => exact .raised _ fs hne hm
  · exact .disagreed _ hbegins hm

theorem cmdPlrTouch_rule [IsStrictOrderedRing K] :
    TouchEnded plugin world args b (cmdPlrTouch plugin world args b) := by
  have hinit : Around b b.maxAccel 0 [] b :=
    ⟨rfl, rfl, (List.append_nil _).symm, rfl, rfl, rfl⟩
  have hrun : Triple (· = b) (cmdPlrTouch plugin world args)
      (fun _ m => TouchEnded plugin world args b (.ok (), m))
      (fun error m => TouchEnded plugin world args b (.error error, m)) := by
    unfold cmdPlrTouch
    refine Triple.bind (Q := fun params m => m = b ∧ touchParams plugin args = .ok params)
      (Triple.lift (fun params hparams m hm => ⟨hm, hparams⟩) fun error herror m hm => ?_)
      fun params => ?_
    · subst hm
      refine .refused error fun h => ?_
      obtain ⟨params, hparams⟩ := h.1
      rw [hparams] at herror
      cases herror
    refine Triple.of_and_right fun hparams => ?_
    refine Triple.bind ((requireTouchReady_rule plugin world).conseq (fun _ h => h)
      (fun _ _ h => h) fun error m h => ?_) fun _ => ?_
    · cases h with
      | refused message _ hnot => exact .refused _ fun h => hnot h.2
      | faulted call fault hgate => exact .raised _ _ (by simp) (hinit.faulted ⟨0, call⟩ fault)
    refine Triple.of_and_right fun hready => ?_
    have hbegins : TouchBegins plugin world args := ⟨⟨params, hparams⟩, hready⟩
    refine Triple.bind (Q := fun _ => Around b b.maxAccel 0 []) (((touchCall_rule _).conseq
      (fun m hm => hm ▸ hinit) (fun _ _ h => h) fun error m h => ?_)) fun _ => ?_
    · obtain ⟨fs, fault, hne, -, hm⟩ := h
      exact .raised error fs hne hm
    refine Triple.bind (((performConsensusTouch_rule (touchParams_valid hparams)).onError
      fun error => (publishConsensusError_rule params error hbegins).mono fun _ _ h => h.elim))
      fun result => ?_
    refine Triple.of_and_right fun hresult => ?_
    exact Triple.update _ fun m hm => .found params result hbegins hparams hresult hm
  have hended := hrun b rfl
  rcases hleft : cmdPlrTouch plugin world args b with ⟨error | ⟨⟩, m⟩
  · rw [hleft] at hended
    exact hended
  · rw [hleft] at hended
    exact hended

end Command

end DeadReckoning.Plugin
