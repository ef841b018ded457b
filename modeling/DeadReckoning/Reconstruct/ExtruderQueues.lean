import DeadReckoning.Reconstruct.Containment
import Mathlib.Data.List.MinMax

/-! The evidence of several extruder queues in one interval: what the interval keeps of them, and
when it has the filament of every queue. -/
set_option linter.unusedSectionVars false

namespace DeadReckoning.Reconstruct

variable {K : Type} [Field K] [LinearOrder K] [IsStrictOrderedRing K]

section Scan

variable {σ : Type} {visit : σ → Segment K → K → K → σ} {tA tEnd t : K} {found : σ}
  {segments : List (Segment K)}

namespace Segment

/-- The segment is under way. -/
def Covers (s : Segment K) (t : K) : Prop := s.printTime ≤ t ∧ t ≤ s.endTime

end Segment

/-- The segment is the first to start behind the time; among those that start with it it is the last
in the list. -/
def StartsFirst (segments : List (Segment K)) (t : K) (s : Segment K) : Prop :=
  (segments.filter fun r => t < r.printTime).reverse.argmin Segment.printTime = some s

/-- One segment under way at the start raises its flag, and nothing lowers it. -/
theorem step_coversStart (hspan : tA ≤ tEnd) (s : SpanScan K σ) (seg : Segment K) :
    (s.step visit tA tEnd seg).coversStart = true ↔ s.coversStart = true ∨ seg.Covers tA := by
  unfold SpanScan.step Segment.Covers
  split
  · rename_i hbefore
    split <;> simp [hbefore.not_ge]
  · rename_i hbefore
    split
    · rename_i hafter
      have hlate : ¬ seg.printTime ≤ tA := (hspan.trans_lt hafter).not_ge
      split <;> simp [hlate]
    · simp [not_lt.mp hbefore]

theorem step_coversEnd (hspan : tA ≤ tEnd) (s : SpanScan K σ) (seg : Segment K) :
    (s.step visit tA tEnd seg).coversEnd = true ↔ s.coversEnd = true ∨ seg.Covers tEnd := by
  unfold SpanScan.step Segment.Covers
  split
  · rename_i hbefore
    have hearly : ¬ tEnd ≤ seg.endTime := (hbefore.trans_le hspan).not_ge
    split <;> simp [hearly]
  · split
    · rename_i hafter
      split <;> simp [hafter.not_ge]
    · rename_i hafter
      simp [not_lt.mp hafter]

theorem step_firstAfter (hspan : tA ≤ tEnd) (s : SpanScan K σ) {seg : Segment K}
    (hduration : 0 ≤ seg.duration) :
    (s.step visit tA tEnd seg).firstAfter =
      if tEnd < seg.printTime then
        if s.firstAfter.all fun next => decide (seg.printTime ≤ next.printTime) then some seg
        else s.firstAfter
      else s.firstAfter := by
  unfold SpanScan.step
  split
  · rename_i hbefore
    have hnot : ¬ tEnd < seg.printTime := by
      unfold Segment.endTime at hbefore
      intro hafter
      linarith
    rw [if_neg hnot]
    split <;> rfl
  · split
    · split <;> rfl
    · rfl

theorem over_snoc (seg : Segment K) :
    SpanScan.sweep visit tA tEnd found (segments ++ [seg]) =
      (SpanScan.sweep visit tA tEnd found segments).step visit tA tEnd seg := by
  unfold SpanScan.sweep
  rw [List.foldl_append, List.foldl_cons, List.foldl_nil]

/-- The flag of the start says whether a segment is under way there. -/
theorem over_coversStart (hspan : tA ≤ tEnd) :
    (SpanScan.sweep visit tA tEnd found segments).coversStart = true ↔
      ∃ r ∈ segments, r.Covers tA := by
  induction segments using List.reverseRecOn with
  | nil => simp [SpanScan.sweep, SpanScan.start]
  | append_singleton segments seg ih =>
    rw [over_snoc, step_coversStart hspan, ih]
    simp [or_and_right, exists_or]

theorem over_coversEnd (hspan : tA ≤ tEnd) :
    (SpanScan.sweep visit tA tEnd found segments).coversEnd = true ↔
      ∃ r ∈ segments, r.Covers tEnd := by
  induction segments using List.reverseRecOn with
  | nil => simp [SpanScan.sweep, SpanScan.start]
  | append_singleton segments seg ih =>
    rw [over_snoc, step_coversEnd hspan, ih]
    simp [or_and_right, exists_or]

theorem over_firstAfter (hspan : tA ≤ tEnd) (hduration : ∀ s ∈ segments, 0 ≤ s.duration) :
    (SpanScan.sweep visit tA tEnd found segments).firstAfter =
      (segments.filter fun r => tEnd < r.printTime).reverse.argmin Segment.printTime := by
  induction segments using List.reverseRecOn with
  | nil => rfl
  | append_singleton segments seg ih =>
    have hseg : 0 ≤ seg.duration := hduration seg (by simp)
    have hbefore := ih fun r hr => hduration r (List.mem_append_left _ hr)
    rw [over_snoc, step_firstAfter hspan _ hseg, hbefore, List.filter_append]
    split
    · rename_i hafter
      have hone : [seg].filter (fun r => tEnd < r.printTime) = [seg] := by simp [hafter]
      rw [hone, List.reverse_append, List.reverse_singleton, List.singleton_append,
        List.argmin_cons]
      cases (segments.filter fun r => tEnd < r.printTime).reverse.argmin Segment.printTime with
      | none => simp
      | some next =>
        simp only [Option.all_some, decide_eq_true_eq]
        split
        · rename_i hle
          simp [hle.not_gt]
        · rename_i hlt
          simp [not_le.mp hlt]
    · rename_i hafter
      have hnone : [seg].filter (fun r => tEnd < r.printTime) = [] := by simpa using hafter
      rw [hnone, List.append_nil]

end Scan

section Kept

variable {segments : List (Segment K)} {tA tEnd t v : K} {collapseActive : Bool}
  {P : K → Prop} {e : Option (Interval K)}

/-- The filament positions that reach the interval: of whatever moves in the span; of the segment of
any queue that ended last before it, when no queue moves at its start; and of the segment that starts
first behind it, when the span was cut and no queue moves at its end. -/
inductive Kept (segments : List (Segment K)) (tA tEnd : K) (collapseActive : Bool) : K → Prop
  | moving {s : Segment K} {t : K} (hs : s ∈ segments) (hlo : tA ≤ t) (hhi : t ≤ tEnd)
      (hcovers : s.Covers t) : Kept segments tA tEnd collapseActive (s.positionAt t).x
  | resting {s : Segment K} (hidle : ∀ r ∈ segments, ¬ r.Covers tA)
      (hs : EndedLast segments tA s) :
      Kept segments tA tEnd collapseActive (s.positionAt s.endTime).x
  | approached {s : Segment K} (hcollapse : collapseActive = true)
      (hshort : ∀ r ∈ segments, ¬ r.Covers tEnd) (hs : StartsFirst segments tEnd s) :
      Kept segments tA tEnd collapseActive (s.positionAt s.printTime).x

/-- The value lies between two kept positions. -/
def Bracketed (segments : List (Segment K)) (tA tEnd : K) (collapseActive : Bool) (v : K) : Prop :=
  ∃ lo hi, Kept segments tA tEnd collapseActive lo ∧ Kept segments tA tEnd collapseActive hi ∧
    lo ≤ v ∧ v ≤ hi

/-- Both ends of the interval are such values. -/
def EndsIn (P : K → Prop) (e : Option (Interval K)) : Prop := ∀ i, e = some i → P i.lo ∧ P i.hi

theorem EndsIn.expand (h : EndsIn P e) (hv : P v) : EndsIn P (some (expandOption e v)) := by
  intro i hi
  obtain rfl := Option.some.inj hi
  cases e with
  | none => exact ⟨hv, hv⟩
  | some j =>
    obtain ⟨hlo, hhi⟩ := h j rfl
    show P (min j.lo v) ∧ P (max j.hi v)
    constructor
    · rcases min_choice j.lo v with hmin | hmin
      · rwa [hmin]
      · rwa [hmin]
    · rcases max_choice j.hi v with hmax | hmax
      · rwa [hmax]
      · rwa [hmax]

theorem EndsIn.visit (h : EndsIn P e) (samples : List (Gcode.Point K))
    (hsamples : ∀ p ∈ samples, P p.x) :
    EndsIn P (samples.foldl (fun e p => some (expandOption e p.x)) e) := by
  induction samples generalizing e with
  | nil => exact h
  | cons p samples ih =>
    apply ih
    · exact h.expand (hsamples p List.mem_cons_self)
    · exact fun q hq => hsamples q (List.mem_cons_of_mem _ hq)

/-- The loop adds positions of what moves in the span. -/
theorem EndsIn.sweep (hspan : tA ≤ tEnd) (hduration : ∀ s ∈ segments, 0 ≤ s.duration)
    (hmoving : ∀ s ∈ segments, ∀ t, tA ≤ t → t ≤ tEnd → s.Covers t → P (s.positionAt t).x) :
    EndsIn P (SpanScan.sweep visitExtruder tA tEnd none segments).found := by
  induction segments using List.reverseRecOn with
  | nil =>
    intro i hi
    cases hi
  | append_singleton segments seg ih =>
    have hfound := ih (fun s hs => hduration s (List.mem_append_left _ hs))
      fun s hs => hmoving s (List.mem_append_left _ hs)
    have hprint : seg.printTime ≤ seg.endTime :=
      le_add_of_nonneg_right (hduration seg (by simp))
    rw [over_snoc]
    unfold SpanScan.step
    split
    · split <;> exact hfound
    · rename_i hbefore
      split
      · split <;> exact hfound
      · rename_i hafter
        have hoverlap : max tA seg.printTime ≤ min tEnd seg.endTime :=
          max_le (le_min hspan (not_lt.mp hbefore)) (le_min (not_lt.mp hafter) hprint)
        apply hfound.visit
        intro p hp
        obtain ⟨t, hlo, hhi, rfl⟩ := Segment.mem_sampleExtrema hoverlap hp
        apply hmoving seg (by simp) t
        · exact (le_max_left _ _).trans hlo
        · exact hhi.trans (min_le_left _ _)
        · exact ⟨(le_max_right _ _).trans hlo, hhi.trans (min_le_right _ _)⟩

/-- The interval ends at kept positions. -/
theorem evalExtruderSpan_endsIn (hspan : tA ≤ tEnd) (hduration : ∀ s ∈ segments, 0 ≤ s.duration) :
    EndsIn (Kept segments tA tEnd collapseActive)
      (evalExtruderSpan segments tA tEnd collapseActive) := by
  have hfound : EndsIn (Kept segments tA tEnd collapseActive)
      (SpanScan.sweep visitExtruder tA tEnd none segments).found :=
    EndsIn.sweep hspan hduration fun s hs t hlo hhi hcovers => .moving hs hlo hhi hcovers
  have hheld : EndsIn (Kept segments tA tEnd collapseActive)
      ((SpanScan.sweep visitExtruder tA tEnd none segments).held holdExtruder tA) := by
    unfold SpanScan.held
    split
    · exact hfound
    · rename_i hstart
      split
      · exact hfound
      · rename_i seg hlast
        have hended : EndedLast segments tA seg :=
          ((scanned_sweep extruder_gathers segments).lastBefore seg).mp hlast
        have hbefore : seg.endTime ≤ tA := by
          obtain ⟨_, _, _, hlt, _⟩ := hended
          exact hlt.le
        apply hfound.expand
        rw [Segment.positionAt_after (hduration seg hended.mem) hbefore]
        apply Kept.resting _ hended
        intro r hr hcovers
        exact hstart ((over_coversStart hspan).mpr ⟨r, hr, hcovers⟩)
  unfold evalExtruderSpan SpanScan.finish
  split
  · rename_i hcut
    simp only [Bool.and_eq_true, Bool.not_eq_true'] at hcut
    split
    · exact hheld
    · rename_i seg hfirst
      rw [over_firstAfter hspan hduration] at hfirst
      apply hheld.expand
      apply Kept.approached hcut.1 _ hfirst
      intro r hr hcovers
      have hend : (SpanScan.sweep visitExtruder tA tEnd none segments).coversEnd = true :=
        (over_coversEnd hspan).mpr ⟨r, hr, hcovers⟩
      rw [hcut.2] at hend
      cases hend
  · exact hheld

/-- Every kept position is in the interval. -/
theorem Kept.mem (hspan : tA ≤ tEnd) (hduration : ∀ s ∈ segments, 0 ≤ s.duration)
    (h : Kept segments tA tEnd collapseActive v) :
    ∃ e, evalExtruderSpan segments tA tEnd collapseActive = some e ∧ v ∈ e := by
  have hscanned : Scanned CoversFilament tA tEnd segments
      (SpanScan.sweep visitExtruder tA tEnd none segments) := scanned_sweep extruder_gathers segments
  cases h with
  | @moving s t hs hlo hhi hcovers =>
    apply extruder_gathers.finish_keeps (p := s.positionAt t)
    apply hscanned.covered s hs ⟨hlo.trans hcovers.2, hcovers.1.trans hhi⟩
    · exact max_le hlo hcovers.1
    · exact le_min hhi hcovers.2
  | @resting s hidle hs =>
    have hbefore : s.endTime ≤ tA := by
      obtain ⟨_, _, _, hlt, _⟩ := hs
      exact hlt.le
    have hstart : (SpanScan.sweep visitExtruder tA tEnd none segments).coversStart = false := by
      by_contra hcovers
      obtain ⟨r, hr, hcovers⟩ :=
        (over_coversStart hspan).mp (Bool.eq_true_of_not_eq_false hcovers)
      exact hidle r hr hcovers
    rw [← Segment.positionAt_after (hduration s hs.mem) hbefore]
    exact extruder_gathers.finish_covers hstart ((hscanned.lastBefore s).mpr hs)
  | @approached s hcollapse hshort hs =>
    have hend : (SpanScan.sweep visitExtruder tA tEnd none segments).coversEnd = false := by
      by_contra hcovers
      obtain ⟨r, hr, hcovers⟩ := (over_coversEnd hspan).mp (Bool.eq_true_of_not_eq_false hcovers)
      exact hshort r hr hcovers
    have hfirst : (SpanScan.sweep visitExtruder tA tEnd none segments).firstAfter = some s :=
      (over_firstAfter hspan hduration).trans hs
    unfold evalExtruderSpan SpanScan.finish
    rw [hcollapse, hend, hfirst]
    exact extruder_gathers.hold_covers (p := s.positionAt s.printTime)

/-- What is in the interval is what lies between kept positions. -/
theorem mem_evalExtruderSpan (hspan : tA ≤ tEnd) (hduration : ∀ s ∈ segments, 0 ≤ s.duration) :
    (∃ e, evalExtruderSpan segments tA tEnd collapseActive = some e ∧ v ∈ e) ↔
      Bracketed segments tA tEnd collapseActive v := by
  constructor
  · rintro ⟨e, he, hv⟩
    obtain ⟨hlo, hhi⟩ := evalExtruderSpan_endsIn hspan hduration e he
    exact ⟨e.lo, e.hi, hlo, hhi, hv.1, hv.2⟩
  · rintro ⟨lo, hi, hlo, hhi, hle, hge⟩
    obtain ⟨e, he, hlo⟩ := hlo.mem hspan hduration
    obtain ⟨e', he', hhi⟩ := hhi.mem hspan hduration
    obtain rfl : e = e' := Option.some.inj (he.symm.trans he')
    exact ⟨e, he, Interval.mem_of_between hlo hhi hle hge⟩

end Kept

section Queues

variable {segments : List (Segment K)} {tA tEnd t : K} {collapseActive : Bool} {queue : String}

/-- The segments of one queue. -/
def ofQueue (queue : String) (segments : List (Segment K)) : List (Segment K) :=
  segments.filter fun s => s.queue = queue

/-- The segments of a queue follow one another. -/
def QueuesOrdered (segments : List (Segment K)) : Prop :=
  segments.Pairwise fun a b => a.queue = b.queue → a.endTime ≤ b.printTime

/-- The interval has the filament of each queue in the whole span, from the first segment of the
queue on. -/
def UnionsQueues (segments : List (Segment K)) (tA tEnd : K) (collapseActive : Bool) : Prop :=
  ∀ queue t, tA ≤ t → t ≤ tEnd → (∃ s ∈ ofQueue queue segments, s.printTime ≤ t) →
    ∀ p, MachineAt (ofQueue queue segments) t p →
      ∃ e, evalExtruderSpan segments tA tEnd collapseActive = some e ∧ p.x ∈ e

/-- Where a queue rests at the start of the span lies between two kept positions. It is a kept one
itself when no other queue moves there and none ended later. -/
def RestsBracketed (segments : List (Segment K)) (tA tEnd : K) (collapseActive : Bool) : Prop :=
  ∀ queue s, (∀ r ∈ ofQueue queue segments, ¬ r.Covers tA) →
    EndedLast (ofQueue queue segments) tA s →
      Bracketed segments tA tEnd collapseActive (s.positionAt s.endTime).x

/-- A queue that moved in the span is seen. -/
theorem bracketed_of_inside {s : Segment K} (hs : s ∈ segments) (hduration : 0 ≤ s.duration)
    (hinside : tA ≤ s.endTime) (hend : s.endTime ≤ tEnd) :
    Bracketed segments tA tEnd collapseActive (s.positionAt s.endTime).x := by
  have hkept : Kept segments tA tEnd collapseActive (s.positionAt s.endTime).x :=
    .moving hs hinside hend ⟨le_add_of_nonneg_right hduration, le_rfl⟩
  exact ⟨_, _, hkept, hkept, le_rfl, le_rfl⟩

/-- The interval has the filament of every queue exactly when the other evidence has that of the
queues at rest. -/
theorem unionsQueues_iff_restsBracketed (hduration : ∀ s ∈ segments, 0 ≤ s.duration)
    (hspan : tA ≤ tEnd) (collapseActive : Bool) :
    UnionsQueues segments tA tEnd collapseActive ↔
      RestsBracketed segments tA tEnd collapseActive := by
  constructor
  · intro hunions queue s hidle hs
    have hended : s.endTime < tA := by
      obtain ⟨_, _, _, hlt, _⟩ := hs
      exact hlt
    have hqueued : s ∈ ofQueue queue segments := hs.mem
    have hprint : s.printTime ≤ s.endTime :=
      le_add_of_nonneg_right (hduration s (List.mem_of_mem_filter hqueued))
    rw [← mem_evalExtruderSpan hspan hduration]
    exact hunions queue tA le_rfl hspan ⟨s, hqueued, hprint.trans hended.le⟩ _
      (.dwelling hidle hs)
  · intro hrests queue t hlo hhi hfirst p hp
    rw [mem_evalExtruderSpan hspan hduration]
    cases hp with
    | @moving s hs hstart hend =>
      have hkept : Kept segments tA tEnd collapseActive (s.positionAt t).x :=
        .moving (List.mem_of_mem_filter hs) hlo hhi ⟨hstart, hend⟩
      exact ⟨_, _, hkept, hkept, le_rfl, le_rfl⟩
    | @dwelling s hidle hs =>
      have hended : s.endTime < t := by
        obtain ⟨_, _, _, hlt, _⟩ := hs
        exact hlt
      have hmem : s ∈ segments := List.mem_of_mem_filter hs.mem
      rcases lt_or_ge s.endTime tA with hbefore | hinside
      · -- The queue rests since before the span.
        apply hrests queue s
        · intro r hr hcovers
          rcases lt_or_ge r.endTime t with hrt | hrt
          · exact (hcovers.2.trans (hs.le hr hrt)).not_gt hbefore
          · exact hidle r hr ⟨hcovers.1.trans hlo, hrt⟩
        · obtain ⟨before, after, hsplit, -, hb, ha⟩ := hs
          exact ⟨before, after, hsplit, hbefore, fun r hr hrt => hb r hr (hrt.trans_le hlo),
            fun r hr hrt => ha r hr (hrt.trans_le hlo)⟩
      · exact bracketed_of_inside hmem (hduration s hmem) hinside (hended.le.trans hhi)

/-- The second extruder stops at fifty millimetres. -/
def lastOfIdle : Segment ℚ := ⟨2, "extruder1", 1, 1, 10, 0, 40, 0, 0, 1, 0, 0⟩

/-- It rests while the first one goes on. -/
def idleQueue : List (Segment ℚ) := [⟨1, "extruder", 0, 10, 1, 0, 0, 0, 0, 1, 0, 0⟩, lastOfIdle]

theorem unionsQueues_iff_restsBracketed_idle : (∀ s ∈ idleQueue, 0 ≤ s.duration) ∧
    (5 : ℚ) ≤ 6 ∧ (UnionsQueues idleQueue 5 6 false ↔ RestsBracketed idleQueue 5 6 false) := by
  have hduration : ∀ s ∈ idleQueue, 0 ≤ s.duration := by decide
  exact ⟨hduration, by decide, unionsQueues_iff_restsBracketed hduration (by decide) false⟩

/-- The interval of that has the first extruder only. -/
theorem idle_queue_is_lost : QueuesOrdered idleQueue ∧ (∀ s ∈ idleQueue, 0 ≤ s.duration) ∧
    evalExtruderSpan idleQueue 5 6 false = some ⟨5, 6⟩ ∧
    ¬ UnionsQueues idleQueue 5 6 false := by
  have hinterval : evalExtruderSpan idleQueue 5 6 false = some ⟨5, 6⟩ := by decide +kernel
  have hrest : MachineAt (ofQueue "extruder1" idleQueue) 5 ⟨50, 0, 0⟩ := by
    have hlast : EndedLast (ofQueue "extruder1" idleQueue) 5 lastOfIdle :=
      ⟨[], [], by decide, by decide +kernel, by simp, by simp⟩
    have hidle : ∀ r ∈ ofQueue "extruder1" idleQueue, ¬ (r.printTime ≤ 5 ∧ 5 ≤ r.endTime) := by
      decide +kernel
    have hend : lastOfIdle.positionAt lastOfIdle.endTime = ⟨50, 0, 0⟩ := by decide +kernel
    rw [← hend]
    exact .dwelling hidle hlast
  refine ⟨?_, by decide, hinterval, fun hunions => ?_⟩
  · unfold QueuesOrdered
    decide
  obtain ⟨e, he, hmem⟩ := hunions "extruder1" 5 le_rfl (by decide) (by decide +kernel) _ hrest
  rw [hinterval] at he
  obtain rfl := Option.some.inj he
  exact absurd hmem.2 (by decide)

end Queues

end DeadReckoning.Reconstruct
