import DeadReckoning.Reconstruct.Containment

/-! A span that ends earlier has no evidence that the longer one lacks. -/
set_option linter.unusedSectionVars false

namespace DeadReckoning.Reconstruct

open Gcode (Point)

variable {K : Type} [Field K] [LinearOrder K] [IsStrictOrderedRing K]

section Scan

variable {σ : Type} {covers : σ → Point K → Prop} {visit : σ → Segment K → K → K → σ}
  {hold : σ → Point K → σ} {tA tEnd' tEnd : K} {found : σ} {segments : List (Segment K)}

/-- What the rule asks of an order of the evidence: a shorter visit has less, a visit only adds, and
a position that is covered adds nothing. -/
structure Narrows (inside : σ → σ → Prop) (covers : σ → Point K → Prop)
    (visit : σ → Segment K → K → K → σ) (hold : σ → Point K → σ) : Prop where
  visit_visit : ∀ {e' e} {seg : Segment K} {lo hi' hi}, inside e' e → seg.printTime ≤ lo → lo ≤ hi' →
    hi' ≤ hi → hi ≤ seg.endTime → inside (visit e' seg lo hi') (visit e seg lo hi)
  visit_adds : ∀ {e' e} {seg : Segment K} {lo hi}, inside e' e → inside e' (visit e seg lo hi)
  hold_hold : ∀ {e' e p}, inside e' e → inside (hold e' p) (hold e p)
  hold_covered : ∀ {e' e p}, inside e' e → covers e p → inside (hold e' p) e

variable {inside : σ → σ → Prop}

/-- Two scans of the same segments, the first of them over the shorter span. -/
structure Narrower (inside : σ → σ → Prop) (covers : σ → Point K → Prop) (s' s : SpanScan K σ) :
    Prop where
  found : inside s'.found s.found
  lastBefore : s'.lastBefore = s.lastBefore
  coversStart : s'.coversStart = s.coversStart
  firstAfter : ∀ seg, s'.firstAfter = some seg → covers s.found (seg.positionAt seg.printTime)

theorem Narrower.step {s' s : SpanScan K σ} {seg : Segment K} (hn : Narrows inside covers visit hold)
    (hg : Gathers covers visit hold) (h : Narrower inside covers s' s) (hle : tEnd' ≤ tEnd)
    (hstart : tA ≤ tEnd') (hduration : 0 ≤ seg.duration) (hend : seg.endTime ≤ tEnd) :
    Narrower inside covers (s'.step visit tA tEnd' seg) (s.step visit tA tEnd seg) := by
  have hprint : seg.printTime ≤ seg.endTime := le_add_of_nonneg_right hduration
  unfold SpanScan.step
  by_cases hbefore : seg.endTime < tA
  · rw [if_pos hbefore, if_pos hbefore, h.lastBefore]
    split
    · exact ⟨h.found, rfl, h.coversStart, h.firstAfter⟩
    · exact ⟨h.found, h.lastBefore, h.coversStart, h.firstAfter⟩
  · have hoverlaps : ¬ tEnd < seg.printTime := not_lt.mpr (hprint.trans hend)
    have htA : tA ≤ seg.endTime := not_lt.mp hbefore
    rw [if_neg hbefore, if_neg hbefore, if_neg hoverlaps]
    by_cases hafter : tEnd' < seg.printTime
    · -- The longer span visits the segment that the shorter one ends before.
      rw [if_pos hafter]
      have hlate : tA < seg.printTime := hstart.trans_lt hafter
      have hcovers : covers (visit s.found seg (max tA seg.printTime) (min tEnd seg.endTime))
          (seg.positionAt seg.printTime) :=
        hg.visit_covers (le_max_right _ _) (max_le hlate.le le_rfl)
          (le_min (hprint.trans hend) hprint) (min_le_right _ _)
      have hno : (s.coversStart || decide (seg.printTime ≤ tA)) = s.coversStart := by
        rw [decide_eq_false hlate.not_ge, Bool.or_false]
      split
      · refine ⟨hn.visit_adds h.found, h.lastBefore, ?_, ?_⟩
        · exact h.coversStart.trans hno.symm
        · intro first hfirst
          obtain rfl : seg = first := Option.some.inj hfirst
          exact hcovers
      · refine ⟨hn.visit_adds h.found, h.lastBefore, ?_, ?_⟩
        · exact h.coversStart.trans hno.symm
        · exact fun first hfirst => hg.visit_keeps (h.firstAfter first hfirst)
    · rw [if_neg hafter]
      have hwithin : seg.printTime ≤ tEnd' := not_lt.mp hafter
      refine ⟨?_, h.lastBefore, ?_, ?_⟩
      · apply hn.visit_visit h.found (le_max_right _ _)
        · exact max_le (le_min hstart htA) (le_min hwithin hprint)
        · exact min_le_min_right _ hle
        · exact min_le_right _ _
      · show (s'.coversStart || _) = (s.coversStart || _)
        rw [h.coversStart]
      · exact fun first hfirst => hg.visit_keeps (h.firstAfter first hfirst)

/-- The rule: the evidence of the shorter span, with the segment it goes towards, lies inside the
evidence of a span that ends behind all segments. -/
theorem Narrows.span (hn : Narrows inside covers visit hold) (hg : Gathers covers visit hold)
    (hempty : inside found found) (hle : tEnd' ≤ tEnd) (hstart : tA ≤ tEnd')
    (hsegments : ∀ s ∈ segments, 0 ≤ s.duration ∧ s.endTime ≤ tEnd) :
    inside ((SpanScan.sweep visit tA tEnd' found segments).finish hold tA true)
      ((SpanScan.sweep visit tA tEnd found segments).finish hold tA false) := by
  have hscans : Narrower inside covers (SpanScan.sweep visit tA tEnd' found segments)
      (SpanScan.sweep visit tA tEnd found segments) := by
    induction segments using List.reverseRecOn with
    | nil => exact ⟨hempty, rfl, rfl, fun seg hseg => by cases hseg⟩
    | append_singleton segments seg ih =>
      have hold := ih fun s hs => hsegments s (List.mem_append_left _ hs)
      obtain ⟨hduration, hend⟩ := hsegments seg (List.mem_append_right _ List.mem_cons_self)
      unfold SpanScan.sweep at hold ⊢
      rw [List.foldl_append, List.foldl_append]
      exact hold.step hn hg hle hstart hduration hend
  set s' := SpanScan.sweep visit tA tEnd' found segments
  set s := SpanScan.sweep visit tA tEnd found segments
  have hheld : inside (s'.held hold tA) (s.held hold tA) := by
    unfold SpanScan.held
    rw [hscans.coversStart, hscans.lastBefore]
    split
    · exact hscans.found
    · split
      · exact hscans.found
      · exact hn.hold_hold hscans.found
  have hlong : s.finish hold tA false = s.held hold tA := rfl
  have hkept : ∀ p, covers s.found p → covers (s.held hold tA) p := fun p hp =>
    hlong ▸ hg.finish_keeps hp
  rw [hlong]
  unfold SpanScan.finish
  split
  · split
    · exact hheld
    · rename_i first hfirst
      exact hn.hold_covered hheld (hkept _ (hscans.firstAfter first hfirst))
  · exact hheld

/-- What every visit and every held position keeps holds of the evidence of a span. -/
theorem SpanScan.finish_keeps {P : σ → Prop} (hvisit : ∀ e seg lo hi, P e → P (visit e seg lo hi))
    (hhold : ∀ e p, P e → P (hold e p)) (hfound : P found) (collapseActive : Bool) :
    P ((SpanScan.sweep visit tA tEnd found segments).finish hold tA collapseActive) := by
  have hscan : P (SpanScan.sweep visit tA tEnd found segments).found := by
    induction segments using List.reverseRecOn with
    | nil => exact hfound
    | append_singleton segments seg ih =>
      unfold SpanScan.sweep at ih ⊢
      rw [List.foldl_append, List.foldl_cons, List.foldl_nil]
      unfold SpanScan.step
      split
      · split <;> exact ih
      · split
        · split <;> exact ih
        · exact hvisit _ _ _ _ ih
  have hheld : P ((SpanScan.sweep visit tA tEnd found segments).held hold tA) := by
    unfold SpanScan.held
    split
    · exact hscan
    · split
      · exact hscan
      · exact hhold _ _ hscan
  unfold SpanScan.finish
  split
  · split
    · exact hheld
    · exact hhold _ _ hheld
  · exact hheld

end Scan

section Toolhead

variable {samples : List (Point K)} {seg : Segment K} {lo hi' hi : K}

/-- The candidates lie in candidates, the box in the box. -/
structure ToolheadSpan.Inside (e' e : ToolheadSpan K) : Prop where
  z : ∀ c ∈ e'.z, ∃ d ∈ e.z, c.z ⊆ d.z
  xy : WithinXy e'.xy e.xy

theorem expandXy_subset {xy : Option (XyRegion K)} {r : XyRegion K} {x y : K}
    (h : ∀ q ∈ xy, q ⊆ r) (hx : x ∈ r.x) (hy : y ∈ r.y) : expandXy xy x y ⊆ r := by
  cases xy with
  | none => exact ⟨Interval.point_subset.mpr hx, Interval.point_subset.mpr hy⟩
  | some q => exact XyRegion.expand_subset (h q rfl) hx hy

theorem subset_expandXy {xy : Option (XyRegion K)} {r : XyRegion K} (x y : K) (h : xy = some r) :
    r ⊆ expandXy xy x y := by
  subst h
  exact XyRegion.subset_expand

/-- The box of some samples lies in every box with them and with what was there. -/
theorem expandAll_subset {xy : Option (XyRegion K)} {r : XyRegion K} (h : ∀ q ∈ xy, q ⊆ r)
    (hsamples : ∀ p ∈ samples, p.x ∈ r.x ∧ p.y ∈ r.y) :
    ∀ q ∈ ToolheadSpan.expandAll xy samples, q ⊆ r := by
  induction samples generalizing xy with
  | nil => exact h
  | cons p samples ih =>
    apply ih
    · intro q hq
      obtain rfl : expandXy xy p.x p.y = q := Option.some.inj hq
      obtain ⟨hx, hy⟩ := hsamples p List.mem_cons_self
      exact expandXy_subset h hx hy
    · exact fun q hq => hsamples q (List.mem_cons_of_mem _ hq)

theorem heights_subset {i j : Interval K} (h : heights samples = some i)
    (hsamples : ∀ p ∈ samples, p.z ∈ j) : i ⊆ j := by
  cases samples with
  | nil => cases h
  | cons first samples =>
    obtain rfl := Option.some.inj h
    clear h
    induction samples using List.reverseRecOn with
    | nil => exact Interval.point_subset.mpr (hsamples first List.mem_cons_self)
    | append_singleton samples last ih =>
      rw [List.foldl_append]
      apply Interval.union_subset
      · apply ih
        intro p hp
        apply hsamples p
        rw [← List.cons_append]
        exact List.mem_append_left _ hp
      · exact Interval.point_subset.mpr (hsamples last (by simp))

/-- The candidate of a part of a move lies in the candidate of a longer part. -/
theorem walCandidate_subset {i' i : Interval K} (hshort : heights (seg.sampleExtrema lo hi') = some i')
    (hlong : heights (seg.sampleExtrema lo hi) = some i) (hstart : seg.printTime ≤ lo)
    (hlo : lo ≤ hi') (hhi : hi' ≤ hi) (hend : hi ≤ seg.endTime) :
    (walCandidate seg i').z ⊆ (walCandidate seg i).z := by
  have hmem : ∀ p ∈ seg.sampleExtrema lo hi', p.z ∈ (walCandidate seg i).z := by
    intro p hp
    obtain ⟨t, hlo', hhi', rfl⟩ := Segment.mem_sampleExtrema hlo hp
    exact mem_walCandidate hlong hstart hlo' (hhi'.trans hhi) hend
  obtain ⟨i'', hi'', -, p, hp, hlow⟩ :=
    heights_spec (List.ne_nil_of_mem (seg.sampleExtrema_start lo hi'))
  obtain rfl : i' = i'' := Option.some.inj (hshort.symm.trans hi'')
  by_cases hflat : seg.zR = 0
  · have hpoint : (walCandidate seg i').z = .point i'.lo := by
      unfold walCandidate
      rw [if_pos hflat]
    rw [hpoint, Interval.point_subset, hlow]
    exact hmem p hp
  · have hsame : (walCandidate seg i').z = i' := by
      unfold walCandidate
      rw [if_neg hflat]
    rw [hsame]
    exact heights_subset hshort hmem

theorem toolhead_narrows : Narrows (K := K) ToolheadSpan.Inside ToolheadSpan.Covers
    ToolheadSpan.visit ToolheadSpan.hold where
  visit_visit := by
    intro e' e seg lo hi' hi h hstart hlo hhi hend
    have hinside : ∀ p ∈ seg.sampleExtrema lo hi', (e.visit seg lo hi).Covers p := by
      intro p hp
      obtain ⟨t, hlo', hhi', rfl⟩ := Segment.mem_sampleExtrema hlo hp
      exact toolhead_gathers.visit_covers hstart hlo' (hhi'.trans hhi) hend
    constructor
    · intro c hc
      rcases List.mem_append.mp hc with hc | hc
      · obtain ⟨d, hd, hsub⟩ := h.z c hc
        exact ⟨d, List.mem_append_left _ hd, hsub⟩
      · obtain ⟨i', hi', -⟩ := heights_spec (List.ne_nil_of_mem (seg.sampleExtrema_start lo hi'))
        obtain ⟨i, hi, -⟩ := heights_spec (List.ne_nil_of_mem (seg.sampleExtrema_start lo hi))
        rw [hi', Option.map_some, Option.toList_some, List.mem_singleton] at hc
        refine ⟨walCandidate seg i, List.mem_append_right _ ?_, ?_⟩
        · rw [hi]
          exact List.mem_cons_self
        · rw [hc]
          exact walCandidate_subset hi' hi hstart hlo hhi hend
    · obtain ⟨⟨r, hr, -⟩, -⟩ := hinside _ (seg.sampleExtrema_start lo hi')
      intro q hq
      refine ⟨r, hr, expandAll_subset ?_ ?_ q hq⟩
      · -- What was there lies in the box of the longer visit.
        intro b hb
        obtain ⟨b', hb', hsub⟩ := h.xy b hb
        obtain ⟨r', hr', hx, hy, -⟩ := expandAll_spec (seg.sampleExtrema lo hi) b'
        have hxy : e.xy = some b' := hb'
        have hsame : (e.visit seg lo hi).xy = some r' := by
          unfold ToolheadSpan.visit
          rw [hxy]
          exact hr'
        obtain rfl : r = r' := Option.some.inj (hr.symm.trans hsame)
        exact XyRegion.subset_trans hsub ⟨hx, hy⟩
      · intro p hp
        obtain ⟨⟨r', hr', hx, hy⟩, -⟩ := hinside p hp
        obtain rfl : r = r' := Option.some.inj (hr.symm.trans hr')
        exact ⟨hx, hy⟩
  visit_adds := by
    intro e' e seg lo hi h
    constructor
    · intro c hc
      obtain ⟨d, hd, hsub⟩ := h.z c hc
      exact ⟨d, List.mem_append_left _ hd, hsub⟩
    · intro q hq
      obtain ⟨b, hb, hsub⟩ := h.xy q hq
      obtain ⟨r, hr, hx, hy, -⟩ := expandAll_spec (seg.sampleExtrema lo hi) b
      have hxy : e.xy = some b := hb
      refine ⟨r, ?_, XyRegion.subset_trans hsub ⟨hx, hy⟩⟩
      unfold ToolheadSpan.visit
      rw [hxy]
      exact hr
  hold_hold := by
    intro e' e p h
    obtain ⟨⟨r, hr, hx, hy⟩, c, hc, hz⟩ := toolhead_gathers.hold_covers (e := e) (p := p)
    constructor
    · intro d hd
      rcases List.mem_append.mp hd with hd | hd
      · obtain ⟨d', hd', hsub⟩ := h.z d hd
        exact ⟨d', List.mem_append_left _ hd', hsub⟩
      · rw [List.mem_singleton.mp hd]
        exact ⟨c, hc, Interval.point_subset.mpr hz⟩
    · intro q hq
      obtain rfl : expandXy e'.xy p.x p.y = q := Option.some.inj hq
      refine ⟨r, hr, expandXy_subset ?_ hx hy⟩
      intro b hb
      obtain ⟨b', hb', hsub⟩ := h.xy b hb
      obtain rfl : expandXy e.xy p.x p.y = r := Option.some.inj hr
      exact XyRegion.subset_trans hsub (subset_expandXy p.x p.y hb')
  hold_covered := by
    rintro e' e p h ⟨⟨r, hr, hx, hy⟩, c, hc, hz⟩
    constructor
    · intro d hd
      rcases List.mem_append.mp hd with hd | hd
      · exact h.z d hd
      · rw [List.mem_singleton.mp hd]
        exact ⟨c, hc, Interval.point_subset.mpr hz⟩
    · intro q hq
      obtain rfl : expandXy e'.xy p.x p.y = q := Option.some.inj hq
      refine ⟨r, hr, expandXy_subset ?_ hx hy⟩
      intro b hb
      obtain ⟨b', hb', hsub⟩ := h.xy b hb
      obtain rfl : r = b' := Option.some.inj (hr.symm.trans hb')
      exact hsub

end Toolhead

section Extruder

variable {samples : List (Point K)}

theorem expandOption_subset {e : Option (Interval K)} {i : Interval K} {v : K}
    (h : ∀ j ∈ e, j ⊆ i) (hv : v ∈ i) : expandOption e v ⊆ i := by
  cases e with
  | none => exact Interval.point_subset.mpr hv
  | some j => exact Interval.expand_subset (h j rfl) hv

theorem visitFilament_subset {e : Option (Interval K)} {i : Interval K} (h : ∀ j ∈ e, j ⊆ i)
    (hsamples : ∀ p ∈ samples, p.x ∈ i) :
    ∀ j ∈ samples.foldl (fun e p => some (expandOption e p.x)) e, j ⊆ i := by
  induction samples generalizing e with
  | nil => exact h
  | cons p samples ih =>
    apply ih
    · intro j hj
      obtain rfl : expandOption e p.x = j := Option.some.inj hj
      exact expandOption_subset h (hsamples p List.mem_cons_self)
    · exact fun q hq => hsamples q (List.mem_cons_of_mem _ hq)

theorem extruder_narrows :
    Narrows (K := K) Within CoversFilament visitExtruder holdExtruder where
  visit_visit := by
    intro e' e seg lo hi' hi h hstart hlo hhi hend
    have hinside : ∀ p ∈ seg.sampleExtrema lo hi', CoversFilament (visitExtruder e seg lo hi) p := by
      intro p hp
      obtain ⟨t, hlo', hhi', rfl⟩ := Segment.mem_sampleExtrema hlo hp
      exact extruder_gathers.visit_covers hstart hlo' (hhi'.trans hhi) hend
    obtain ⟨i, hvisit, -⟩ := hinside _ (seg.sampleExtrema_start lo hi')
    intro j hj
    refine ⟨i, hvisit, visitFilament_subset ?_ ?_ j hj⟩
    · intro k hk
      obtain ⟨k', hk', hsub⟩ := h k hk
      obtain ⟨i', hgrown, hsub', -⟩ := visitFilament_spec (seg.sampleExtrema lo hi) k'
      have he : e = some k' := hk'
      have hsame : visitExtruder e seg lo hi = some i' := by
        unfold visitExtruder
        rw [he]
        exact hgrown
      obtain rfl : i = i' := Option.some.inj (hvisit.symm.trans hsame)
      exact Interval.subset_trans hsub hsub'
    · intro p hp
      obtain ⟨i', hvisit', hx⟩ := hinside p hp
      obtain rfl : i = i' := Option.some.inj (hvisit.symm.trans hvisit')
      exact hx
  visit_adds := by
    intro e' e seg lo hi h j hj
    obtain ⟨k, hk, hsub⟩ := h j hj
    obtain ⟨i, hi, hsub', -⟩ := visitFilament_spec (seg.sampleExtrema lo hi) k
    have he : e = some k := hk
    refine ⟨i, ?_, Interval.subset_trans hsub hsub'⟩
    unfold visitExtruder
    rw [he]
    exact hi
  hold_hold := by
    intro e' e p h j hj
    obtain rfl : expandOption e' p.x = j := Option.some.inj hj
    refine ⟨expandOption e p.x, rfl, expandOption_subset ?_ (mem_expandOption e p.x)⟩
    intro k hk
    obtain ⟨k', hk', hsub⟩ := h k hk
    have he : e = some k' := hk'
    rw [he]
    exact Interval.subset_trans hsub Interval.subset_expand
  hold_covered := by
    rintro e' e p h ⟨i, rfl, hx⟩ j hj
    obtain rfl : expandOption e' p.x = j := Option.some.inj hj
    refine ⟨i, rfl, expandOption_subset ?_ hx⟩
    intro k hk
    obtain ⟨k', hk', hsub⟩ := h k hk
    obtain rfl : i = k' := Option.some.inj hk'
    exact hsub

end Extruder

section Spans

variable {segments : List (Segment K)} {tA tEnd' tEnd : K}

theorem evalToolheadSpan_narrows (hle : tEnd' ≤ tEnd) (hstart : tA ≤ tEnd')
    (hsegments : ∀ s ∈ segments, 0 ≤ s.duration ∧ s.endTime ≤ tEnd) :
    (evalToolheadSpan segments tA tEnd' true).Inside (evalToolheadSpan segments tA tEnd false) := by
  have hempty : ToolheadSpan.Inside (⟨[], none⟩ : ToolheadSpan K) ⟨[], none⟩ := by
    constructor
    · intro c hc
      cases hc
    · intro q hq
      cases hq
  exact toolhead_narrows.span toolhead_gathers hempty hle hstart hsegments

theorem evalExtruderSpan_narrows (hle : tEnd' ≤ tEnd) (hstart : tA ≤ tEnd')
    (hsegments : ∀ s ∈ segments, 0 ≤ s.duration ∧ s.endTime ≤ tEnd) :
    Within (evalExtruderSpan segments tA tEnd' true) (evalExtruderSpan segments tA tEnd false) :=
  extruder_narrows.span extruder_gathers within_none hle hstart hsegments

/-- The interval of the filament is not empty. -/
theorem evalExtruderSpan_nonempty (collapseActive : Bool) :
    ∀ i ∈ evalExtruderSpan segments tA tEnd collapseActive, i.lo ≤ i.hi := by
  have hgrow : ∀ (e : Option (Interval K)) (v : K), (∀ i ∈ e, i.lo ≤ i.hi) →
      ∀ i ∈ some (expandOption e v), i.lo ≤ i.hi := by
    intro e v h i hi
    obtain rfl : expandOption e v = i := Option.some.inj hi
    cases e with
    | none => exact le_rfl
    | some i => exact (min_le_right _ _).trans (le_max_right _ _)
  have hvisit : ∀ (samples : List (Point K)) (e : Option (Interval K)), (∀ i ∈ e, i.lo ≤ i.hi) →
      ∀ i ∈ samples.foldl (fun e p => some (expandOption e p.x)) e, i.lo ≤ i.hi := by
    intro samples
    induction samples with
    | nil => exact fun e h => h
    | cons p samples ih => exact fun e h => ih _ (hgrow e p.x h)
  have hnone : ∀ i ∈ (none : Option (Interval K)), i.lo ≤ i.hi := by
    intro i hi
    cases hi
  exact SpanScan.finish_keeps (P := fun e => ∀ i ∈ e, i.lo ≤ i.hi)
    (fun e seg lo hi h => hvisit (seg.sampleExtrema lo hi) e h) (fun e p h => hgrow e p.x h)
    hnone collapseActive

end Spans

end DeadReckoning.Reconstruct
