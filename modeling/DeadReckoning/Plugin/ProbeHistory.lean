import DeadReckoning.Plugin.DragLaws
import DeadReckoning.Plugin.TouchLaws

/-! Probes one after another: when the published results are fresh, and the machine is left as it
was. -/
namespace DeadReckoning.Plugin

section History

variable (K : Type) [Field K] [LinearOrder K]

inductive Invocation where
  | touch (plugin : PlrPlugin K) (world : World K) (args : TouchArgs K)
  | drag (plugin : PlrPlugin K) (world : World K) (args : DragArgs K)

variable {K} [FloorSemiring K] (power : Power K) (sqrt : K → K)

def invoke (invocation : Invocation K) : Command K Unit :=
  match invocation with
  | .touch plugin world args => cmdPlrTouch plugin world args
  | .drag plugin world args => cmdPlrDragProbe power sqrt plugin world args

/-- The machine after the listed invocations, in order. -/
def afterwards (m : Machine K) (history : List (Invocation K)) : Machine K :=
  history.foldl (fun m invocation => (invoke power sqrt invocation m).2) m

/-- The result that the invocation came to is the one that is published. -/
def Fresh (b : Machine K) (m : Machine K) : Invocation K → Prop
  | .touch plugin world args => ∃ params result, touchParams plugin args = .ok params ∧
      runConsensus world.bedZ params.config = .ok result ∧
      m.lastTouchResult = some (publishTouch params result)
  | .drag plugin world args => DragFound power plugin world args b m

/-- The published result of the command. -/
def isCleared (m : Machine K) : Invocation K → Prop
  | .touch _ _ _ => m.lastTouchResult = none
  | .drag _ _ _ => m.lastDragResult = none

/-- A failed drag probe is back at the height that it started from. -/
def Restored (b m : Machine K) : Invocation K → Prop
  | .touch _ _ _ => True
  | .drag _ _ _ => m.position.z = b.position.z

/-- The invocation publishes its own result or none, and leaves the machine as it was. -/
structure Kept (invocation : Invocation K) (b : Machine K)
    (left : Except (Raised K) Unit × Machine K) : Prop where
  fresh : left.1 = .ok () → Fresh power b left.2 invocation
  cleared : ∀ error, left.1 = .error error → isCleared left.2 invocation
  maxAccel : left.2.maxAccel = b.maxAccel
  sessions : left.2.sessions = b.sessions
  captures : left.2.captures = b.captures
  restored : ∀ error, left.1 = .error error → Restored b left.2 invocation

/-- What klippy raised during the invocation. -/
def faultsSince (b m : Machine K) : List (Site × Fault) := m.faults.drop b.faults.length

/-- Klippy does not raise, or only where that does no harm: in a gate that publishes it, or, with no
earlier result to go stale, where the toolhead is at the start and no capture is left behind. -/
def Unharmed (b m : Machine K) : Invocation K → Prop
  | .touch plugin world args =>
      b.lastTouchResult = none ∨ TouchBegins plugin world args ∧ faultsSince b m = []
  | .drag _ world _ =>
      (∀ f ∈ faultsSince b m, Handled f) ∨
        b.lastDragResult = none ∧ ∀ f ∈ faultsSince b m, Harmless world f.1

end History

section Laws

variable {K : Type} [Field K] [LinearOrder K] [IsStrictOrderedRing K] [FloorSemiring K]
  {power : Power K} {sqrt : K → K} {b m : Machine K}

omit [Field K] [LinearOrder K] [IsStrictOrderedRing K] [FloorSemiring K] in
theorem faultsSince_append {fs : List (Site × Fault)} (h : m.faults = b.faults ++ fs) :
    faultsSince b m = fs := by
  rw [faultsSince, h, List.drop_left]

theorem touch_kept_iff (plugin : PlrPlugin K) (world : World K) (args : TouchArgs K) :
    Kept power (.touch plugin world args) b (invoke power sqrt (.touch plugin world args) b) ↔
      Unharmed b (invoke power sqrt (.touch plugin world args) b).2 (.touch plugin world args) := by
  have hended : TouchEnded plugin world args b
    (invoke power sqrt (.touch plugin world args) b) := cmdPlrTouch_rule
  generalize invoke power sqrt (.touch plugin world args) b = left at hended
  cases hended with
  | found params result hbegins hparams hresult hm =>
    refine iff_of_true ⟨fun _ => ⟨params, result, hparams, hresult, rfl⟩, nofun, hm.maxAccel,
      hm.sessions, hm.captures, nofun⟩ (.inr ⟨hbegins, ?_⟩)
    exact faultsSince_append hm.faults
  | disagreed error hbegins hm =>
    refine iff_of_true ⟨nofun, fun _ _ => rfl, hm.maxAccel, hm.sessions, hm.captures,
      fun _ _ => trivial⟩ (.inr ⟨hbegins, ?_⟩)
    exact faultsSince_append hm.faults
  | refused error hnot =>
    constructor
    · exact fun h => .inl (h.cleared error rfl)
    · rintro (hnone | ⟨hbegins, -⟩)
      · exact ⟨nofun, fun _ _ => hnone, rfl, rfl, rfl, fun _ _ => trivial⟩
      · exact absurd hbegins hnot
  | raised error fs hne hm =>
    constructor
    · exact fun h => .inl (hm.touch.symm.trans (h.cleared error rfl))
    · rintro (hnone | ⟨-, hfaults⟩)
      · exact ⟨nofun, fun _ _ => hm.touch.trans hnone, hm.maxAccel, hm.sessions, hm.captures,
          fun _ _ => trivial⟩
      · exact absurd ((faultsSince_append hm.faults).symm.trans hfaults) hne

theorem drag_kept_iff (plugin : PlrPlugin K) (world : World K) (args : DragArgs K) :
    Kept power (.drag plugin world args) b (invoke power sqrt (.drag plugin world args) b) ↔
      Unharmed b (invoke power sqrt (.drag plugin world args) b).2 (.drag plugin world args) := by
  have hrun := cmdPlrDragProbe_rule power sqrt plugin world args b b rfl
  unfold invoke
  dsimp only
  rcases hleft : cmdPlrDragProbe power sqrt plugin world args b with ⟨error | ⟨⟩, m⟩
  · rw [hleft] at hrun
    rcases hrun with hrefused | ⟨setup, hpassed, s, hm, hexplains⟩
    · cases hrefused with
      | published message hmessage fs hfs =>
        refine iff_of_true ⟨nofun, fun _ _ => rfl, rfl, rfl, rfl, fun _ _ => rfl⟩ (.inl ?_)
        rw [faultsSince_append rfl]
        exact hfs
      | raised call name hgate =>
        have hsince : faultsSince b (b.faulted ⟨0, call⟩ (.other name)) =
            [(⟨0, call⟩, .other name)] := faultsSince_append rfl
        have hharmless : Harmless world ⟨0, call⟩ := by
          cases call <;> first | rfl | cases hgate
        constructor
        · intro h
          refine .inr ⟨h.cleared _ rfl, ?_⟩
          rw [hsince]
          exact List.forall_mem_singleton.mpr hharmless
        · rintro (hhandled | ⟨hnone, -⟩)
          · rw [hsince] at hhandled
            obtain ⟨-, text, htext⟩ := List.forall_mem_singleton.mp hhandled
            cases htext
          · exact ⟨nofun, fun _ _ => hnone, rfl, rfl, rfl, fun _ _ => rfl⟩
    · have hsince := faultsSince_append hm.faults
      have hcaptures := hm.captures
      have hheight := hm.height
      cases hexplains with
      | fault site fault hmem hgate hresult hroom hharm =>
        have hharm : (s.running = 0 ∧ s.height = b.position.z) ↔
          ∀ f ∈ s.faults, Harmless world f.1 := hharm
        constructor
        · intro h
          have hnone : b.lastDragResult = none :=
            (hresult.symm.trans hm.result.symm).trans (h.cleared _ rfl)
          have hz : m.position.z = b.position.z := h.restored _ rfl
          refine .inr ⟨hnone, ?_⟩
          rw [hsince]
          refine hharm.mp ⟨?_, hheight.symm.trans hz⟩
          have hsame := h.captures
          dsimp only at hsame
          omega
        · rintro (hhandled | ⟨hnone, hall⟩)
          · rw [hsince] at hhandled
            have hno := (hhandled _ hmem).1
            rw [hgate] at hno
            cases hno
          · rw [hsince] at hall
            obtain ⟨hrunning, hz⟩ := hharm.mpr hall
            rw [hrunning] at hcaptures
            exact ⟨nofun, fun _ _ => (hm.result.trans hresult).trans hnone, hm.maxAccel,
              hm.sessions, hcaptures, fun _ _ => hheight.trans hz⟩
      | abort error hfaults hrunning hheight' hresult hroom henvelope =>
        rw [hrunning] at hcaptures
        refine iff_of_true ⟨nofun, fun _ _ => hm.result.trans hresult, hm.maxAccel, hm.sessions,
          hcaptures, fun _ _ => hheight.trans hheight'⟩ (.inl ?_)
        rw [hsince, hfaults]
        exact nofun
  · rw [hleft] at hrun
    obtain ⟨setup, hpassed, hfound⟩ := hrun
    obtain ⟨k, z, clearance, verdict, hm, -⟩ := hfound.found
    refine iff_of_true ⟨fun _ => ⟨setup, hpassed, hfound⟩, nofun, hm.maxAccel, hm.sessions,
      hm.captures, nofun⟩ (.inl ?_)
    rw [faultsSince_append hm.faults]
    exact nofun

end Laws

section Reals

open Prog

/-- A move that klippy refuses. -/
def outOfRange (site : Site) : Option Fault :=
  if site = ⟨0, .moveOut⟩ then some (.command "Move out of range") else none

/-- The gates pass, and the first move of the first pass is refused. -/
theorem cmdPlrDragProbe_outOfRange :
    (cmdPlrDragProbe realPower Real.sqrt calibrated (answering outOfRange) defaults
      published).1 = .error (.command (.klippy "Move out of range")) ∧
    (cmdPlrDragProbe realPower Real.sqrt calibrated (answering outOfRange) defaults
      published).2.lastDragResult = published.lastDragResult := by
  have hstart : cmdPlrDragProbe realPower Real.sqrt calibrated (answering outOfRange) defaults
      published = probeDown realPower Real.sqrt (answering outOfRange) 0
        (descentFrom calibrated (answering outOfRange)
          ⟨⟨"adxl345", 20, 1 / 20, 30, 8, 120, 8⟩, 1, 0⟩ published.position) published := rfl
  rw [hstart]
  generalize hd : descentFrom calibrated (answering outOfRange)
          ⟨⟨"adxl345", 20, 1 / 20, 30, 8, 120, 8⟩, 1, 0⟩ published.position = d
  have habove : d.floorZ < d.center.z := by
    rw [← hd]
    norm_num [descentFrom, published, floorReserveSteps]
  have hstep : 0 < d.params.zStep := by
    rw [← hd]
    norm_num [descentFrom]
  obtain ⟨n, hn⟩ : ∃ n, ⌈(d.center.z - d.floorZ) / d.params.zStep⌉₊ = n + 1 :=
    Nat.exists_eq_succ_of_ne_zero (Nat.ceil_pos.mpr (div_pos (sub_pos.mpr habove) hstep)).ne'
  have hbound : iterationBound d.center.z d.floorZ d.params.zStep = .ok (n + 1) :=
    (if_neg (not_or.mpr ⟨hstep.not_ge, habove.not_ge⟩)).trans (congrArg Except.ok hn)
  obtain ⟨mult, hmult⟩ := multiplier_ok realPower (s := d.params.sensitivity)
    (by rw [← hd]; norm_num [descentFrom]) (by rw [← hd]; norm_num [descentFrom])
  have hbudget : ¬d.params.maxSeconds < (answering outOfRange).monotonic 0 -
      (answering outOfRange).budgetStart := by
    rw [← hd]
    norm_num [descentFrom, answering]
  unfold probeDown
  dsimp only
  rw [if_neg habove.not_ge, hbound, hmult]
  have hloop : ∀ l : Locals ℝ, l.passesRun = 0 →
      (staircase realPower Real.sqrt (answering outOfRange) d (n + 1) l published).1 =
        .error (.command (.klippy "Move out of range")) ∧
      (staircase realPower Real.sqrt (answering outOfRange) d (n + 1) l published).2.lastDragResult =
        published.lastDragResult := by
    intro l hl
    unfold staircase
    dsimp only
    rw [hl, if_neg hbudget]
    exact ⟨rfl, rfl⟩
  obtain ⟨herror, hresult⟩ := hloop ⟨d.center.z, none, 0, [], 0, d.center.z⟩ rfl
  dsimp only [bind, andThen, lift, Except.mapError]
  rcases hleft : staircase realPower Real.sqrt (answering outOfRange) d (n + 1)
    ⟨d.center.z, none, 0, [], 0, d.center.z⟩ published with ⟨error | left, m⟩
  · rw [hleft] at herror hresult
    exact ⟨congrArg Except.error (Except.error.inj herror), hresult⟩
  · rw [hleft] at herror
    cases herror

end Reals

end DeadReckoning.Plugin
