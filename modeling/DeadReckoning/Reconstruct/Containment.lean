import DeadReckoning.Reconstruct.Span
import Mathlib.Data.List.Induction

/-! The machine is where the evidence of a span says it can be. -/
set_option linter.unusedSectionVars false

namespace DeadReckoning.Reconstruct

open Gcode (Point)

variable {K : Type} [Field K] [LinearOrder K] [IsStrictOrderedRing K]

section Motion

namespace Segment

variable {s : Segment K} {t lo hi : K}

/-- Inside the segment the clamp does nothing. -/
theorem clampElapsed_inside (hstart : s.printTime ≤ t) (hend : t ≤ s.endTime) :
    clampElapsed (t - s.printTime) s.duration = t - s.printTime := by
  unfold endTime at hend
  have helapsed : 0 ≤ t - s.printTime := sub_nonneg.mpr hstart
  have hduration : t - s.printTime ≤ s.duration := by linarith
  unfold clampElapsed
  rw [max_eq_left helapsed, max_eq_left (helapsed.trans hduration), min_eq_left hduration]

/-- Behind the segment the machine is where the segment ended. -/
theorem positionAt_after (hduration : 0 ≤ s.duration) (hend : s.endTime ≤ t) :
    s.positionAt t = s.positionAt s.endTime := by
  unfold endTime at hend
  have helapsed : clampElapsed (t - s.printTime) s.duration = s.duration := by
    have hpast : s.duration ≤ t - s.printTime := by linarith
    unfold clampElapsed
    rw [max_eq_left (hduration.trans hpast), max_eq_left hduration, min_eq_right hpast]
  have hlast : clampElapsed (s.endTime - s.printTime) s.duration = s.duration := by
    unfold endTime clampElapsed
    rw [add_sub_cancel_left, max_eq_left hduration, min_self]
  unfold positionAt
  rw [helapsed, hlast]

/-- The velocity is zero at that much elapsed time. -/
theorem turning_sub : s.turning - s.printTime = -s.startVelocity / s.acceleration := by
  unfold turning
  rw [neg_div]
  ring

/-- A coordinate lies between its values at two of the samples. -/
def Between (samples : List (Point K)) (coordinate : Point K → K) (v : K) : Prop :=
  (∃ p ∈ samples, coordinate p ≤ v) ∧ ∃ p ∈ samples, v ≤ coordinate p

theorem sampleExtrema_start (s : Segment K) (lo hi : K) :
    s.positionAt lo ∈ s.sampleExtrema lo hi := List.mem_append_left _ List.mem_cons_self

theorem sampleExtrema_end (s : Segment K) (lo hi : K) :
    s.positionAt hi ∈ s.sampleExtrema lo hi :=
  List.mem_append_left _ (List.mem_cons_of_mem _ List.mem_cons_self)

theorem sampleExtrema_turning (hzero : s.acceleration ≠ 0) (hlo : lo < s.turning)
    (hhi : s.turning < hi) : s.positionAt s.turning ∈ s.sampleExtrema lo hi := by
  apply List.mem_append_right
  rw [if_pos ⟨hzero, hlo, hhi⟩]
  exact List.mem_cons_self

/-- Every sample is a position between the two times. -/
theorem mem_sampleExtrema {p : Point K} (hle : lo ≤ hi) (h : p ∈ s.sampleExtrema lo hi) :
    ∃ t, lo ≤ t ∧ t ≤ hi ∧ p = s.positionAt t := by
  rcases List.mem_append.mp h with hends | hturning
  · rcases List.mem_cons.mp hends with rfl | hend
    · exact ⟨lo, le_rfl, hle, rfl⟩
    · rw [List.mem_singleton.mp hend]
      exact ⟨hi, hle, le_rfl, rfl⟩
  · split at hturning
    · rename_i hinside
      rw [List.mem_singleton.mp hturning]
      exact ⟨s.turning, hinside.2.1.le, hinside.2.2.le, rfl⟩
    · cases hturning

/-- The samples bound a coordinate that is linear in the distance. -/
theorem sampleExtrema_between {coordinate : Point K → K} {base ratio : K}
    (hcoordinate : ∀ t, coordinate (s.positionAt t) = base + ratio *
      travelled s.startVelocity s.acceleration (clampElapsed (t - s.printTime) s.duration))
    (hstart : s.printTime ≤ lo) (hlo : lo ≤ t) (hhi : t ≤ hi) (hend : hi ≤ s.endTime) :
    Between (s.sampleExtrema lo hi) coordinate (coordinate (s.positionAt t)) := by
  set dist : K → K := fun u => travelled s.startVelocity s.acceleration (u - s.printTime) with hdist
  have hinside : ∀ u, lo ≤ u → u ≤ hi →
      coordinate (s.positionAt u) = base + ratio * dist u := by
    intro u hu hu'
    rw [hcoordinate, clampElapsed_inside (hstart.trans hu) (hu'.trans hend)]
  have hlo' : lo - s.printTime ≤ t - s.printTime := by linarith
  have hhi' : t - s.printTime ≤ hi - s.printTime := by linarith
  have hbelow : ∃ u, lo ≤ u ∧ u ≤ hi ∧ s.positionAt u ∈ s.sampleExtrema lo hi ∧ dist u ≤ dist t := by
    rcases exists_travelled_le (v := s.startVelocity) (a := s.acceleration) hlo' hhi' with
      h | h | ⟨hzero, hafter, hbefore, h⟩
    · exact ⟨lo, le_rfl, hlo.trans hhi, s.sampleExtrema_start lo hi, h⟩
    · exact ⟨hi, hlo.trans hhi, le_rfl, s.sampleExtrema_end lo hi, h⟩
    · rw [← turning_sub] at hafter hbefore h
      have hafter' : lo < s.turning := by linarith
      have hbefore' : s.turning < hi := by linarith
      exact ⟨s.turning, hafter'.le, hbefore'.le, sampleExtrema_turning hzero hafter' hbefore', h⟩
  have habove : ∃ u, lo ≤ u ∧ u ≤ hi ∧ s.positionAt u ∈ s.sampleExtrema lo hi ∧ dist t ≤ dist u := by
    rcases exists_le_travelled (v := s.startVelocity) (a := s.acceleration) hlo' hhi' with
      h | h | ⟨hzero, hafter, hbefore, h⟩
    · exact ⟨lo, le_rfl, hlo.trans hhi, s.sampleExtrema_start lo hi, h⟩
    · exact ⟨hi, hlo.trans hhi, le_rfl, s.sampleExtrema_end lo hi, h⟩
    · rw [← turning_sub] at hafter hbefore h
      have hafter' : lo < s.turning := by linarith
      have hbefore' : s.turning < hi := by linarith
      exact ⟨s.turning, hafter'.le, hbefore'.le, sampleExtrema_turning hzero hafter' hbefore', h⟩
  obtain ⟨u, hu, hu', husample, hule⟩ := hbelow
  obtain ⟨w, hw, hw', hwsample, hwle⟩ := habove
  -- The ratio of the axis may turn the order of the distances around.
  rcases le_total 0 ratio with hratio | hratio
  · refine ⟨⟨_, husample, ?_⟩, ⟨_, hwsample, ?_⟩⟩
    · rw [hinside u hu hu', hinside t hlo hhi]
      have hscaled := mul_le_mul_of_nonneg_left hule hratio
      linarith
    · rw [hinside w hw hw', hinside t hlo hhi]
      have hscaled := mul_le_mul_of_nonneg_left hwle hratio
      linarith
  · refine ⟨⟨_, hwsample, ?_⟩, ⟨_, husample, ?_⟩⟩
    · rw [hinside w hw hw', hinside t hlo hhi]
      have hscaled := mul_le_mul_of_nonpos_left hwle hratio
      linarith
    · rw [hinside u hu hu', hinside t hlo hhi]
      have hscaled := mul_le_mul_of_nonpos_left hule hratio
      linarith

end Segment

end Motion

section Scan

variable {σ : Type} {visit : σ → Segment K → K → K → σ} {tA tEnd t : K} {found : σ}
  {segments : List (Segment K)}

/-- The segment overlaps the span. -/
def Overlaps (tA tEnd : K) (s : Segment K) : Prop := tA ≤ s.endTime ∧ s.printTime ≤ tEnd

/-- The segment ended before the time, and none that did ended later; among those that ended with it
it is the last in the list. -/
def EndedLast (segments : List (Segment K)) (t : K) (s : Segment K) : Prop :=
  ∃ before after, segments = before ++ s :: after ∧ s.endTime < t ∧
    (∀ r ∈ before, r.endTime < t → r.endTime ≤ s.endTime) ∧
    ∀ r ∈ after, r.endTime < t → r.endTime < s.endTime

theorem EndedLast.mem {s : Segment K} (h : EndedLast segments t s) : s ∈ segments := by
  obtain ⟨before, after, rfl, -⟩ := h
  exact List.mem_append_right _ List.mem_cons_self

theorem EndedLast.le {s r : Segment K} (h : EndedLast segments t s) (hr : r ∈ segments)
    (hended : r.endTime < t) : r.endTime ≤ s.endTime := by
  obtain ⟨before, after, rfl, -, hbefore, hafter⟩ := h
  rcases List.mem_append.mp hr with hr | hr
  · exact hbefore r hr hended
  · rcases List.mem_cons.mp hr with rfl | hr
    · exact le_rfl
    · exact (hafter r hr hended).le

theorem EndedLast.unique {r s : Segment K} (hr : EndedLast segments t r)
    (hs : EndedLast segments t s) : r = s := by
  have hends : r.endTime = s.endTime := by
    have hrt : r.endTime < t := by
      obtain ⟨_, _, _, hended, _⟩ := hr
      exact hended
    have hst : s.endTime < t := by
      obtain ⟨_, _, _, hended, _⟩ := hs
      exact hended
    exact le_antisymm (hs.le hr.mem hrt) (hr.le hs.mem hst)
  obtain ⟨before, after, hsplit, hended, -, hafter⟩ := hr
  obtain ⟨before', after', hsplit', hended', -, hafter'⟩ := hs
  rw [hsplit] at hsplit'
  -- The one of them that stands first would have ended later than the other.
  rcases List.append_eq_append_iff.mp hsplit' with ⟨middle, rfl, htail⟩ | ⟨middle, rfl, htail⟩
  · cases middle with
    | nil => exact (List.cons.inj htail).1
    | cons head middle =>
      rw [List.cons_append] at htail
      obtain ⟨rfl, rfl⟩ := List.cons.inj htail
      exact ((hafter s (by simp) hended').ne hends.symm).elim
  · cases middle with
    | nil => exact (List.cons.inj htail).1.symm
    | cons head middle =>
      rw [List.cons_append] at htail
      obtain ⟨rfl, rfl⟩ := List.cons.inj htail
      exact ((hafter' r (by simp) hended).ne hends).elim

/-- One more segment ends last, or does not. -/
theorem EndedLast.snoc {s last : Segment K} (h : EndedLast segments t s) :
    EndedLast (segments ++ [last]) t
      (if last.endTime < t ∧ s.endTime ≤ last.endTime then last else s) := by
  split
  · rename_i hlater
    refine ⟨segments, [], rfl, hlater.1, fun r hr hrt => ?_, by simp⟩
    exact (h.le hr hrt).trans hlater.2
  · rename_i hlater
    obtain ⟨before, after, rfl, hended, hbefore, hafter⟩ := h
    refine ⟨before, after ++ [last], by simp, hended, hbefore, ?_⟩
    intro r hr hrt
    rcases List.mem_append.mp hr with hr | hr
    · exact hafter r hr hrt
    · rw [List.mem_singleton.mp hr] at hrt ⊢
      exact not_le.mp fun hle => hlater ⟨hrt, hle⟩

theorem endedLast_snoc {last : Segment K} (h : ∀ r ∈ segments, ¬ r.endTime < t)
    (hlast : last.endTime < t) : EndedLast (segments ++ [last]) t last :=
  ⟨segments, [], rfl, hlast, fun r hr hrt => (h r hr hrt).elim, by simp⟩

/-- Some segment ended before the time, so one of them ended last. -/
theorem exists_endedLast {s : Segment K} (hs : s ∈ segments) (hended : s.endTime < t) :
    ∃ r, EndedLast segments t r := by
  induction segments using List.reverseRecOn generalizing s with
  | nil => cases hs
  | append_singleton segments last ih =>
    by_cases hold : ∃ r ∈ segments, r.endTime < t
    · obtain ⟨r, hr, hrt⟩ := hold
      obtain ⟨r, hr⟩ := ih hr hrt
      exact ⟨_, hr.snoc⟩
    · rcases List.mem_append.mp hs with hmem | hmem
      · exact (hold ⟨s, hmem, hended⟩).elim
      · rw [List.mem_singleton.mp hmem] at hended
        exact ⟨last, endedLast_snoc (fun r hr hrt => hold ⟨r, hr, hrt⟩) hended⟩

/-- What is known of a scan once these segments went through it. -/
structure Scanned (covers : σ → Point K → Prop) (tA tEnd : K) (segments : List (Segment K))
    (s : SpanScan K σ) : Prop where
  covered : ∀ seg ∈ segments, Overlaps tA tEnd seg → ∀ t, max tA seg.printTime ≤ t →
    t ≤ min tEnd seg.endTime → covers s.found (seg.positionAt t)
  lastBefore : ∀ seg, s.lastBefore = some seg ↔ EndedLast segments tA seg
  coversStart : s.coversStart = true → ∃ seg ∈ segments, Overlaps tA tEnd seg ∧ seg.printTime ≤ tA

/-- What the rule asks of the evidence: a visited part covers its positions, a held position is
covered, and nothing is lost. -/
structure Gathers (covers : σ → Point K → Prop) (visit : σ → Segment K → K → K → σ)
    (hold : σ → Point K → σ) : Prop where
  visit_keeps : ∀ {e seg lo hi p}, covers e p → covers (visit e seg lo hi) p
  visit_covers : ∀ {e} {seg : Segment K} {lo hi t}, seg.printTime ≤ lo → lo ≤ t → t ≤ hi →
    hi ≤ seg.endTime → covers (visit e seg lo hi) (seg.positionAt t)
  hold_keeps : ∀ {e p q}, covers e p → covers (hold e q) p
  hold_covers : ∀ {e p}, covers (hold e p) p

variable {covers : σ → Point K → Prop} {hold : σ → Point K → σ}

theorem scanned_start : Scanned covers tA tEnd [] (SpanScan.start found) where
  covered := fun seg hseg => by cases hseg
  lastBefore := by
    intro seg
    constructor
    · intro h
      cases h
    · intro h
      cases h.mem
  coversStart := fun h => by cases h

/-- A segment that ended before the span becomes the last of them unless an earlier one ended
later. -/
theorem lastBefore_snoc {last : Option (Segment K)} {seg : Segment K}
    (h : ∀ r, last = some r ↔ EndedLast segments t r) (hseg : seg.endTime < t) (r : Segment K) :
    (if last.all (fun prev => decide (prev.endTime ≤ seg.endTime)) then some seg else last) =
      some r ↔ EndedLast (segments ++ [seg]) t r := by
  cases last with
  | none =>
    have hnone : ∀ r ∈ segments, ¬ r.endTime < t := by
      intro r hr hrt
      obtain ⟨r, hr⟩ := exists_endedLast hr hrt
      cases (h r).mpr hr
    have hlast := endedLast_snoc hnone hseg
    rw [Option.all_none, if_pos rfl, Option.some_inj]
    constructor
    · rintro rfl
      exact hlast
    · exact hlast.unique
  | some prev =>
    have hlast : EndedLast (segments ++ [seg]) t
        (if seg.endTime < t ∧ prev.endTime ≤ seg.endTime then seg else prev) :=
      ((h prev).mp rfl).snoc
    have hvalue : (if (some prev).all (fun prev => decide (prev.endTime ≤ seg.endTime)) then some seg
        else some prev) =
        some (if seg.endTime < t ∧ prev.endTime ≤ seg.endTime then seg else prev) := by
      by_cases hle : prev.endTime ≤ seg.endTime
      · simp [hle, hseg]
      · simp [hle]
    rw [hvalue, Option.some_inj]
    constructor
    · rintro rfl
      exact hlast
    · exact hlast.unique

/-- A segment that did not end before the span changes nothing. -/
theorem endedLast_snoc_iff {seg : Segment K} (hseg : ¬ seg.endTime < t) (r : Segment K) :
    EndedLast (segments ++ [seg]) t r ↔ EndedLast segments t r := by
  have hkeeps : ∀ r, EndedLast segments t r → EndedLast (segments ++ [seg]) t r := by
    intro r hr
    have hsnoc : EndedLast (segments ++ [seg]) t
        (if seg.endTime < t ∧ r.endTime ≤ seg.endTime then seg else r) := hr.snoc
    rwa [if_neg fun hlater => hseg hlater.1] at hsnoc
  constructor
  · intro hr
    have hended : r.endTime < t := by
      obtain ⟨_, _, _, hended, _⟩ := hr
      exact hended
    rcases List.mem_append.mp hr.mem with hmem | hmem
    · obtain ⟨r', hr'⟩ := exists_endedLast hmem hended
      rwa [hr.unique (hkeeps r' hr')]
    · rw [List.mem_singleton.mp hmem] at hended
      exact (hseg hended).elim
  · exact hkeeps r

theorem Scanned.step {s : SpanScan K σ} {seg : Segment K} (hg : Gathers covers visit hold)
    (h : Scanned covers tA tEnd segments s) :
    Scanned covers tA tEnd (segments ++ [seg]) (s.step visit tA tEnd seg) := by
  -- A segment outside of the span adds nothing to what is covered.
  have houtside : ∀ last first, ¬ Overlaps tA tEnd seg →
      (∀ r, last = some r ↔ EndedLast (segments ++ [seg]) tA r) →
      Scanned covers tA tEnd (segments ++ [seg])
        { s with lastBefore := last, firstAfter := first } := by
    intro last first hno hlast
    refine ⟨?_, hlast, ?_⟩
    · intro r hr hover
      rcases List.mem_append.mp hr with hr | hr
      · exact h.covered r hr hover
      · rw [List.mem_singleton.mp hr] at hover
        exact (hno hover).elim
    · intro hstart
      obtain ⟨r, hr, hover⟩ := h.coversStart hstart
      exact ⟨r, List.mem_append_left _ hr, hover⟩
  unfold SpanScan.step
  split
  · rename_i hbefore
    have hlast := lastBefore_snoc h.lastBefore hbefore
    have hscanned := houtside _ s.firstAfter (fun hover => hbefore.not_ge hover.1) hlast
    split
    · rename_i hnewer
      rwa [if_pos hnewer] at hscanned
    · rename_i hnewer
      rwa [if_neg hnewer] at hscanned
  · rename_i hbefore
    have hlast : ∀ r, s.lastBefore = some r ↔ EndedLast (segments ++ [seg]) tA r := by
      intro r
      rw [endedLast_snoc_iff hbefore]
      exact h.lastBefore r
    split
    · rename_i hafter
      have hno : ¬ Overlaps tA tEnd seg := fun hover => hafter.not_ge hover.2
      split
      · exact houtside _ (some seg) hno hlast
      · exact houtside _ s.firstAfter hno hlast
    · rename_i hafter
      refine ⟨?_, hlast, ?_⟩
      · intro r hr hover t hlo hhi
        rcases List.mem_append.mp hr with hr | hr
        · exact hg.visit_keeps (h.covered r hr hover t hlo hhi)
        · rw [List.mem_singleton.mp hr] at hlo hhi ⊢
          exact hg.visit_covers (le_max_right _ _) hlo hhi (min_le_right _ _)
      · intro hstart
        rcases Bool.or_eq_true_iff.mp hstart with hstart | hstart
        · obtain ⟨r, hr, hover⟩ := h.coversStart hstart
          exact ⟨r, List.mem_append_left _ hr, hover⟩
        · exact ⟨seg, List.mem_append_right _ List.mem_cons_self,
            ⟨not_lt.mp hbefore, not_lt.mp hafter⟩, of_decide_eq_true hstart⟩

theorem scanned_sweep (hg : Gathers covers visit hold) (segments : List (Segment K)) :
    Scanned covers tA tEnd segments (SpanScan.sweep visit tA tEnd found segments) := by
  induction segments using List.reverseRecOn with
  | nil => exact scanned_start
  | append_singleton segments seg ih =>
    unfold SpanScan.sweep at ih ⊢
    rw [List.foldl_append]
    exact ih.step hg

/-- What the loop covered stays covered at the end. -/
theorem Gathers.finish_keeps {s : SpanScan K σ} {p : Point K} {collapseActive : Bool}
    (hg : Gathers covers visit hold) (h : covers s.found p) :
    covers (s.finish hold tA collapseActive) p := by
  have hheld : covers (s.held hold tA) p := by
    unfold SpanScan.held
    split
    · exact h
    · split
      · exact h
      · exact hg.hold_keeps h
  unfold SpanScan.finish
  split
  · split
    · exact hheld
    · exact hg.hold_keeps hheld
  · exact hheld

/-- So does the position that the machine holds at the start. -/
theorem Gathers.finish_covers {s : SpanScan K σ} {seg : Segment K} {collapseActive : Bool}
    (hg : Gathers covers visit hold) (hstart : s.coversStart = false)
    (hlast : s.lastBefore = some seg) :
    covers (s.finish hold tA collapseActive) (seg.positionAt tA) := by
  have hheld : covers (s.held hold tA) (seg.positionAt tA) := by
    unfold SpanScan.held
    rw [hstart, hlast]
    exact hg.hold_covers
  unfold SpanScan.finish
  split
  · split
    · exact hheld
    · exact hg.hold_keeps hheld
  · exact hheld

/-- Where the machine is: on a segment that covers the time, or where the segment that ended last
before it has ended. -/
inductive MachineAt (segments : List (Segment K)) (t : K) : Point K → Prop
  | moving {s : Segment K} (hs : s ∈ segments) (hstart : s.printTime ≤ t) (hend : t ≤ s.endTime) :
      MachineAt segments t (s.positionAt t)
  | dwelling {s : Segment K} (hidle : ∀ r ∈ segments, ¬ (r.printTime ≤ t ∧ t ≤ r.endTime))
      (hs : EndedLast segments t s) : MachineAt segments t (s.positionAt s.endTime)

/-- From the start of some segment on the machine is somewhere. -/
theorem exists_machineAt {s : Segment K} (hs : s ∈ segments) (hstart : s.printTime ≤ t) :
    ∃ p, MachineAt segments t p := by
  by_cases hmoving : ∃ r ∈ segments, r.printTime ≤ t ∧ t ≤ r.endTime
  · obtain ⟨r, hr, hrstart, hrend⟩ := hmoving
    exact ⟨_, .moving hr hrstart hrend⟩
  · have hidle : ∀ r ∈ segments, ¬ (r.printTime ≤ t ∧ t ≤ r.endTime) :=
      fun r hr hcovers => hmoving ⟨r, hr, hcovers⟩
    have hended : s.endTime < t := not_le.mp fun hend => hidle s hs ⟨hstart, hend⟩
    obtain ⟨r, hr⟩ := exists_endedLast hs hended
    exact ⟨_, .dwelling hidle hr⟩

/-- The rule: the evidence of a span covers every position that the machine has in it. -/
theorem Gathers.covers_machine {p : Point K} {collapseActive : Bool}
    (hg : Gathers covers visit hold) (hduration : ∀ s ∈ segments, 0 ≤ s.duration) (hlo : tA ≤ t)
    (hhi : t ≤ tEnd) (h : MachineAt segments t p) :
    covers ((SpanScan.sweep visit tA tEnd found segments).finish hold tA collapseActive) p := by
  have hscanned : Scanned covers tA tEnd segments (SpanScan.sweep visit tA tEnd found segments) :=
    scanned_sweep hg segments
  cases h with
  | @moving s hs hstart hend =>
    apply hg.finish_keeps
    apply hscanned.covered s hs ⟨hlo.trans hend, hstart.trans hhi⟩
    · exact max_le hlo hstart
    · exact le_min hhi hend
  | @dwelling s hidle hs =>
    have hended : s.endTime < t := by
      obtain ⟨_, _, _, hended, _⟩ := hs
      exact hended
    have hprint : s.printTime ≤ s.endTime := le_add_of_nonneg_right (hduration s hs.mem)
    rcases lt_or_ge s.endTime tA with hbefore | hinside
    · -- It ended before the span: no other segment covers the start.
      have hlast : EndedLast segments tA s := by
        obtain ⟨before, after, hsplit, -, hb, ha⟩ := hs
        exact ⟨before, after, hsplit, hbefore, fun r hr hrt => hb r hr (hrt.trans_le hlo),
          fun r hr hrt => ha r hr (hrt.trans_le hlo)⟩
      have hstart : (SpanScan.sweep visit tA tEnd found segments).coversStart = false := by
        by_contra hcovers
        obtain ⟨r, hr, hover, hrstart⟩ :=
          hscanned.coversStart (Bool.eq_true_of_not_eq_false hcovers)
        rcases lt_or_ge r.endTime t with hrt | hrt
        · exact (hover.1.trans (hs.le hr hrt)).not_gt hbefore
        · exact hidle r hr ⟨hrstart.trans hlo, hrt⟩
      rw [← Segment.positionAt_after (hduration s hs.mem) hbefore.le]
      exact hg.finish_covers hstart ((hscanned.lastBefore s).mpr hlast)
    · apply hg.finish_keeps
      apply hscanned.covered s hs.mem ⟨hinside, hprint.trans (hended.le.trans hhi)⟩
      · exact max_le hinside hprint
      · exact le_min (hended.le.trans hhi) le_rfl

end Scan

section Toolhead

variable {samples : List (Point K)} {seg : Segment K} {lo hi t : K}

namespace Segment

theorem between_x (hstart : seg.printTime ≤ lo) (hlo : lo ≤ t) (hhi : t ≤ hi)
    (hend : hi ≤ seg.endTime) :
    Between (seg.sampleExtrema lo hi) Point.x (seg.positionAt t).x :=
  sampleExtrema_between (fun _ => rfl) hstart hlo hhi hend

theorem between_y (hstart : seg.printTime ≤ lo) (hlo : lo ≤ t) (hhi : t ≤ hi)
    (hend : hi ≤ seg.endTime) :
    Between (seg.sampleExtrema lo hi) Point.y (seg.positionAt t).y :=
  sampleExtrema_between (fun _ => rfl) hstart hlo hhi hend

theorem between_z (hstart : seg.printTime ≤ lo) (hlo : lo ≤ t) (hhi : t ≤ hi)
    (hend : hi ≤ seg.endTime) :
    Between (seg.sampleExtrema lo hi) Point.z (seg.positionAt t).z :=
  sampleExtrema_between (fun _ => rfl) hstart hlo hhi hend

/-- An interval with all the samples has what lies between them. -/
theorem Between.mem {coordinate : Point K → K} {v : K} {i : Interval K}
    (h : Between samples coordinate v) (hi : ∀ p ∈ samples, coordinate p ∈ i) : v ∈ i := by
  obtain ⟨⟨p, hp, hle⟩, q, hq, hge⟩ := h
  exact Interval.mem_of_between (hi p hp) (hi q hq) hle hge

end Segment

/-- The box contains what it contained, and the samples. -/
theorem expandAll_spec (samples : List (Point K)) (region : XyRegion K) :
    ∃ r, ToolheadSpan.expandAll (some region) samples = some r ∧ region.x ⊆ r.x ∧
      region.y ⊆ r.y ∧ ∀ p ∈ samples, p.x ∈ r.x ∧ p.y ∈ r.y := by
  induction samples generalizing region with
  | nil => exact ⟨region, rfl, Interval.subset_refl _, Interval.subset_refl _, by simp⟩
  | cons p samples ih =>
    obtain ⟨r, hr, hx, hy, hsamples⟩ := ih (region.expand p.x p.y)
    refine ⟨r, hr, Interval.subset_trans Interval.subset_expand hx,
      Interval.subset_trans Interval.subset_expand hy, ?_⟩
    intro q hq
    rcases List.mem_cons.mp hq with rfl | hq
    · exact ⟨Interval.mem_of_subset hx Interval.mem_expand,
        Interval.mem_of_subset hy Interval.mem_expand⟩
    · exact hsamples q hq

theorem expandAll_samples (xy : Option (XyRegion K)) (hsamples : samples ≠ []) :
    ∃ r, ToolheadSpan.expandAll xy samples = some r ∧ ∀ p ∈ samples, p.x ∈ r.x ∧ p.y ∈ r.y := by
  cases samples with
  | nil => exact (hsamples rfl).elim
  | cons p samples =>
    obtain ⟨r, hr, hx, hy, hrest⟩ := expandAll_spec samples (expandXy xy p.x p.y)
    refine ⟨r, hr, ?_⟩
    have hfirst : p.x ∈ (expandXy xy p.x p.y).x ∧ p.y ∈ (expandXy xy p.x p.y).y := by
      cases xy with
      | none => exact ⟨Interval.mem_point, Interval.mem_point⟩
      | some region => exact ⟨Interval.mem_expand, Interval.mem_expand⟩
    intro q hq
    rcases List.mem_cons.mp hq with rfl | hq
    · exact ⟨Interval.mem_of_subset hx hfirst.1, Interval.mem_of_subset hy hfirst.2⟩
    · exact hrest q hq

/-- The interval of the heights has them all, and its lower end is one of them. -/
theorem heights_spec (hsamples : samples ≠ []) :
    ∃ i, heights samples = some i ∧ (∀ p ∈ samples, p.z ∈ i) ∧ ∃ p ∈ samples, i.lo = p.z := by
  cases samples with
  | nil => exact (hsamples rfl).elim
  | cons first samples =>
    refine ⟨_, rfl, ?_⟩
    induction samples using List.reverseRecOn with
    | nil =>
      refine ⟨fun p hp => ?_, first, List.mem_cons_self, rfl⟩
      rw [List.mem_singleton.mp hp]
      exact Interval.mem_point
    | append_singleton samples last ih =>
      obtain ⟨hall, p, hp, hlo⟩ := ih (List.cons_ne_nil _ _)
      rw [List.foldl_append]
      set i := samples.foldl (fun i q => i.union (.point q.z)) (Interval.point first.z) with hi
      constructor
      · intro q hq
        rcases List.mem_append.mp (List.cons_append ▸ hq) with hq | hq
        · exact Interval.mem_of_subset Interval.subset_union_left (hall q hq)
        · rw [List.mem_singleton.mp hq]
          exact Interval.mem_of_subset Interval.subset_union_right Interval.mem_point
      · rcases min_choice i.lo last.z with hmin | hmin
        · exact ⟨p, List.mem_append_left [last] hp, hmin.trans hlo⟩
        · exact ⟨last, List.mem_append_right (first :: samples) List.mem_cons_self, hmin⟩

/-- The candidate of a segment has the heights between its samples. -/
theorem mem_walCandidate {i : Interval K} (hheights : heights (seg.sampleExtrema lo hi) = some i)
    (hstart : seg.printTime ≤ lo) (hlo : lo ≤ t) (hhi : t ≤ hi) (hend : hi ≤ seg.endTime) :
    (seg.positionAt t).z ∈ (walCandidate seg i).z := by
  obtain ⟨i', hi', hall, p, hp, hp'⟩ :=
    heights_spec (List.ne_nil_of_mem (seg.sampleExtrema_start lo hi))
  obtain rfl : i = i' := Option.some.inj (hheights.symm.trans hi')
  unfold walCandidate
  split
  · rename_i hflat
    -- A move without a vertical part is at one height.
    have hheight : ∀ u, (seg.positionAt u).z = seg.startZ := by
      intro u
      show seg.startZ + seg.zR * _ = seg.startZ
      rw [hflat, zero_mul, add_zero]
    obtain ⟨u, -, -, rfl⟩ := Segment.mem_sampleExtrema (hlo.trans hhi) hp
    have hheld : (seg.positionAt t).z = i.lo := by rw [hp', hheight, hheight]
    rw [hheld]
    exact Interval.mem_point
  · exact (Segment.between_z hstart hlo hhi hend).mem hall

/-- The position is in the box, and its height in a candidate. -/
def ToolheadSpan.Covers (e : ToolheadSpan K) (p : Point K) : Prop :=
  (∃ r, e.xy = some r ∧ p.x ∈ r.x ∧ p.y ∈ r.y) ∧ ∃ c ∈ e.z, p.z ∈ c.z

theorem toolhead_gathers :
    Gathers (K := K) ToolheadSpan.Covers ToolheadSpan.visit ToolheadSpan.hold where
  visit_keeps := by
    rintro e seg lo hi p ⟨⟨r, hr, hx, hy⟩, c, hc, hz⟩
    obtain ⟨r', hr', hx', hy', -⟩ := expandAll_spec (seg.sampleExtrema lo hi) r
    refine ⟨⟨r', ?_, Interval.mem_of_subset hx' hx, Interval.mem_of_subset hy' hy⟩, c,
      List.mem_append_left _ hc, hz⟩
    unfold ToolheadSpan.visit
    rw [hr]
    exact hr'
  visit_covers := by
    intro e seg lo hi t hstart hlo hhi hend
    have hne := List.ne_nil_of_mem (seg.sampleExtrema_start lo hi)
    obtain ⟨r, hr, hsamples⟩ := expandAll_samples e.xy hne
    obtain ⟨i, hi', -, -⟩ := heights_spec hne
    refine ⟨⟨r, hr, ?_, ?_⟩, walCandidate seg i, ?_, mem_walCandidate hi' hstart hlo hhi hend⟩
    · exact (Segment.between_x hstart hlo hhi hend).mem fun p hp => (hsamples p hp).1
    · exact (Segment.between_y hstart hlo hhi hend).mem fun p hp => (hsamples p hp).2
    · unfold ToolheadSpan.visit
      rw [hi']
      exact List.mem_append_right _ List.mem_cons_self
  hold_keeps := by
    rintro e p q ⟨⟨r, hr, hx, hy⟩, c, hc, hz⟩
    refine ⟨⟨r.expand q.x q.y, ?_, Interval.mem_of_subset Interval.subset_expand hx,
      Interval.mem_of_subset Interval.subset_expand hy⟩, c, List.mem_append_left _ hc, hz⟩
    unfold ToolheadSpan.hold
    rw [hr]
    rfl
  hold_covers := by
    intro e p
    refine ⟨⟨expandXy e.xy p.x p.y, rfl, ?_, ?_⟩, _, List.mem_append_right _ List.mem_cons_self,
      Interval.mem_point⟩
    · unfold expandXy
      split
      · exact Interval.mem_point
      · exact Interval.mem_expand
    · unfold expandXy
      split
      · exact Interval.mem_point
      · exact Interval.mem_expand

end Toolhead

section Extruder

/-- The filament is in the interval. -/
def CoversFilament (e : Option (Interval K)) (p : Point K) : Prop := ∃ i, e = some i ∧ p.x ∈ i

/-- The interval contains what it contained, and the samples. -/
theorem visitFilament_spec (samples : List (Point K)) (i : Interval K) :
    ∃ j, samples.foldl (fun e p => some (expandOption e p.x)) (some i) = some j ∧ i ⊆ j ∧
      ∀ p ∈ samples, p.x ∈ j := by
  induction samples generalizing i with
  | nil => exact ⟨i, rfl, Interval.subset_refl i, by simp⟩
  | cons p samples ih =>
    obtain ⟨j, hj, hsub, hsamples⟩ := ih (i.expand p.x)
    refine ⟨j, hj, Interval.subset_trans Interval.subset_expand hsub, ?_⟩
    intro q hq
    rcases List.mem_cons.mp hq with rfl | hq
    · exact Interval.mem_of_subset hsub Interval.mem_expand
    · exact hsamples q hq

theorem mem_expandOption (e : Option (Interval K)) (v : K) : v ∈ expandOption e v := by
  unfold expandOption
  split
  · exact Interval.mem_point
  · exact Interval.mem_expand

theorem extruder_gathers : Gathers (K := K) CoversFilament visitExtruder holdExtruder where
  visit_keeps := by
    rintro e seg lo hi p ⟨i, rfl, hp⟩
    obtain ⟨j, hj, hsub, -⟩ := visitFilament_spec (seg.sampleExtrema lo hi) i
    exact ⟨j, hj, Interval.mem_of_subset hsub hp⟩
  visit_covers := by
    intro e seg lo hi t hstart hlo hhi hend
    have hsplit : seg.sampleExtrema lo hi =
        seg.positionAt lo :: (seg.sampleExtrema lo hi).tail := rfl
    obtain ⟨j, hj, hsub, hsamples⟩ := visitFilament_spec (seg.sampleExtrema lo hi).tail
      (expandOption e (seg.positionAt lo).x)
    refine ⟨j, ?_, (Segment.between_x hstart hlo hhi hend).mem ?_⟩
    · unfold visitExtruder
      rw [hsplit]
      exact hj
    · intro p hp
      rw [hsplit] at hp
      rcases List.mem_cons.mp hp with rfl | hp
      · exact Interval.mem_of_subset hsub (mem_expandOption _ _)
      · exact hsamples p hp
  hold_keeps := by
    rintro e p q ⟨i, rfl, hp⟩
    exact ⟨i.expand q.x, rfl, Interval.mem_of_subset Interval.subset_expand hp⟩
  hold_covers := fun {e p} => ⟨_, rfl, mem_expandOption e p.x⟩

end Extruder

section Claim

variable {segments : List (Segment K)} {tA tEnd t : K} {first : Segment K}

/-- From the start of the first segment on, the machine is somewhere at every time of the span, and
wherever it is, the box, a height candidate and the interval of the filament have it. -/
theorem span_contains_machine (hduration : ∀ s ∈ segments, 0 ≤ s.duration)
    (hfirst : segments.head? = some first) (hstart : first.printTime ≤ t) (hlo : tA ≤ t)
    (hhi : t ≤ tEnd) (collapseActive : Bool) :
    (∃ p, MachineAt segments t p) ∧ ∀ p, MachineAt segments t p →
      (∃ r, (evalToolheadSpan segments tA tEnd collapseActive).xy = some r ∧
        p.x ∈ r.x ∧ p.y ∈ r.y) ∧
      (∃ c ∈ (evalToolheadSpan segments tA tEnd collapseActive).z, p.z ∈ c.z) ∧
      ∃ e, evalExtruderSpan segments tA tEnd collapseActive = some e ∧ p.x ∈ e := by
  refine ⟨exists_machineAt (List.mem_of_head? hfirst) hstart, ?_⟩
  intro p hp
  have htoolhead : (evalToolheadSpan segments tA tEnd collapseActive).Covers p :=
    toolhead_gathers.covers_machine hduration hlo hhi hp
  have hextruder : CoversFilament (evalExtruderSpan segments tA tEnd collapseActive) p :=
    extruder_gathers.covers_machine hduration hlo hhi hp
  exact ⟨htoolhead.1, htoolhead.2, hextruder⟩

/-- Two moves with a dwell between them; the second turns around. -/
def exampleSegments : List (Segment ℚ) :=
  [⟨1, "toolhead", 0, 1, 10, 0, 0, 0, 1, 1, 0, 0⟩, ⟨2, "toolhead", 3, 2, 4, -4, 10, 0, 1, 0, 1, 0⟩]

theorem span_contains_machine_dwell : (∀ s ∈ exampleSegments, 0 ≤ s.duration) ∧
    (∃ p, MachineAt exampleSegments 2 p) ∧ ∀ p, MachineAt exampleSegments 2 p →
      (∃ r, (evalToolheadSpan exampleSegments 2 4 true).xy = some r ∧ p.x ∈ r.x ∧ p.y ∈ r.y) ∧
      (∃ c ∈ (evalToolheadSpan exampleSegments 2 4 true).z, p.z ∈ c.z) ∧
      ∃ e, evalExtruderSpan exampleSegments 2 4 true = some e ∧ p.x ∈ e := by
  have hduration : ∀ s ∈ exampleSegments, 0 ≤ s.duration := by decide
  exact ⟨hduration, span_contains_machine hduration rfl (by decide) le_rfl (by decide) true⟩

end Claim

end DeadReckoning.Reconstruct
