import DeadReckoning.Reconstruct.StopSet
import Mathlib.Data.List.Induction
import Mathlib.Tactic.Linarith

/-! The candidates for the height of the stop, and what is lost where near-duplicates merge. -/
set_option linter.unusedSectionVars false

namespace DeadReckoning.Reconstruct

section Merging

variable {K : Type} [Field K] [LinearOrder K] [IsStrictOrderedRing K] {tol : K}

theorem dedupZ_sublist (last : Option (ZCandidate K)) (candidates : List (ZCandidate K)) :
    (dedupZ tol last candidates).Sublist candidates := by
  induction candidates generalizing last with
  | nil => exact List.Sublist.refl _
  | cons c candidates ih =>
    unfold dedupZ
    split
    · exact (ih last).cons c
    · exact (ih (some c)).cons_cons c

/-- A candidate stands for another one: it is of the same sort, and as high within the tolerance. -/
structure ZCandidate.StandsFor (tol : K) (k c : ZCandidate K) : Prop where
  kind : k.kind = c.kind
  provenance : k.provenance = c.provenance
  zKnown : k.zKnown = c.zKnown
  lo : |k.z.lo - c.z.lo| ≤ tol
  hi : |k.z.hi - c.z.hi| ≤ tol

theorem standsFor_self (htol : 0 ≤ tol) (c : ZCandidate K) : c.StandsFor tol c :=
  ⟨rfl, rfl, rfl, by simpa using htol, by simpa using htol⟩

theorem standsFor_of_repeats {prev c : ZCandidate K} (h : prev.repeats tol c = true) :
    prev.StandsFor tol c := by
  unfold ZCandidate.repeats at h
  simp only [Bool.and_eq_true, decide_eq_true_eq] at h
  obtain ⟨⟨⟨⟨hkind, hprovenance⟩, hknown⟩, hlo⟩, hhi⟩ := h
  exact ⟨hkind, hprovenance, hknown, hlo, hhi⟩

/-- What is dropped repeats what was kept: it is compared with that, not with what was dropped. -/
theorem dedupZ_keeps (htol : 0 ≤ tol) (last : Option (ZCandidate K))
    (candidates : List (ZCandidate K)) :
    ∀ c ∈ candidates, ∃ k ∈ last.toList ++ dedupZ tol last candidates, k.StandsFor tol c := by
  induction candidates generalizing last with
  | nil =>
    intro c hc
    cases hc
  | cons first candidates ih =>
    intro c hc
    unfold dedupZ
    by_cases hrepeats : (last.any fun prev => prev.repeats tol first) = true
    · rw [if_pos hrepeats]
      rcases List.mem_cons.mp hc with rfl | hc
      · cases last with
        | none => cases hrepeats
        | some prev =>
          rw [Option.any_some] at hrepeats
          exact ⟨prev, List.mem_cons_self, standsFor_of_repeats hrepeats⟩
      · exact ih last c hc
    · rw [if_neg hrepeats]
      rcases List.mem_cons.mp hc with rfl | hc
      · exact ⟨c, List.mem_append_right _ List.mem_cons_self, standsFor_self htol c⟩
      · obtain ⟨k, hk, hstands⟩ := ih (some first) c hc
        exact ⟨k, List.mem_append_right _ hk, hstands⟩

theorem mergeZCandidates_keeps (htol : 0 ≤ tol) {candidates : List (ZCandidate K)}
    {c : ZCandidate K} (hc : c ∈ candidates) :
    ∃ k ∈ mergeZCandidates candidates tol, k.StandsFor tol c :=
  dedupZ_keeps htol none _ c ((List.perm_insertionSort _ _).mem_iff.mpr hc)

/-- A height of a candidate is within the tolerance of a candidate that was kept. -/
theorem mergeZCandidates_contains (htol : 0 ≤ tol) {candidates : List (ZCandidate K)}
    {c : ZCandidate K} (hc : c ∈ candidates) {v : K} (hv : v ∈ c.z) :
    ∃ k ∈ mergeZCandidates candidates tol, k.z.contains v tol := by
  obtain ⟨k, hk, hstands⟩ := mergeZCandidates_keeps htol hc
  refine ⟨k, hk, ?_, ?_⟩
  · have hbelow := (abs_le.mp hstands.lo).2
    linarith [hv.1]
  · have habove := (abs_le.mp hstands.hi).1
    linarith [hv.2]

theorem mem_of_mem_mergeZCandidates {candidates : List (ZCandidate K)} {c : ZCandidate K}
    (hc : c ∈ mergeZCandidates candidates tol) : c ∈ candidates :=
  (List.perm_insertionSort _ _).mem_iff.mp ((dedupZ_sublist none _).subset hc)

/-- The bounds are in order. -/
def BoundsOrdered (a b : ZCandidate K) : Prop :=
  a.z.lo < b.z.lo ∨ a.z.lo = b.z.lo ∧ a.z.hi ≤ b.z.hi

theorem boundsOrdered_of_ordered {a b : ZCandidate K} (h : a.ordered b) : BoundsOrdered a b := by
  rcases h with hlo | ⟨hlo, hhi | ⟨hhi, -⟩⟩
  · exact .inl hlo
  · exact .inr ⟨hlo, hhi.le⟩
  · exact .inr ⟨hlo, hhi.le⟩

theorem ordered_total (a b : ZCandidate K) : a.ordered b ∨ b.ordered a := by
  unfold ZCandidate.ordered
  rcases lt_trichotomy a.z.lo b.z.lo with hlo | hlo | hlo
  · simp [hlo]
  · rcases lt_trichotomy a.z.hi b.z.hi with hhi | hhi | hhi
    · simp [hlo, hhi]
    · simp only [hlo, hhi, lt_irrefl, true_and, false_or]
      omega
    · simp [hlo, hhi]
  · simp [hlo]

theorem ordered_trans {a b c : ZCandidate K} (h : a.ordered b) (h' : b.ordered c) :
    a.ordered c := by
  rcases h with hlo | ⟨hlo, hhi | ⟨hhi, hrank⟩⟩
  · rcases h' with hlo' | ⟨hlo', -⟩
    · exact .inl (hlo.trans hlo')
    · exact .inl (hlo' ▸ hlo)
  · rcases h' with hlo' | ⟨hlo', hhi' | ⟨hhi', -⟩⟩
    · exact .inl (hlo ▸ hlo')
    · exact .inr ⟨hlo.trans hlo', .inl (hhi.trans hhi')⟩
    · exact .inr ⟨hlo.trans hlo', .inl (hhi' ▸ hhi)⟩
  · rcases h' with hlo' | ⟨hlo', hhi' | ⟨hhi', hrank'⟩⟩
    · exact .inl (hlo ▸ hlo')
    · exact .inr ⟨hlo.trans hlo', .inl (hhi ▸ hhi')⟩
    · refine .inr ⟨hlo.trans hlo', .inr ⟨hhi.trans hhi', ?_⟩⟩
      omega

instance : Std.Total (ZCandidate.ordered (K := K)) := ⟨ordered_total⟩

instance : IsTrans (ZCandidate K) ZCandidate.ordered := ⟨fun _ _ _ => ordered_trans⟩

theorem mergeZCandidates_ordered (candidates : List (ZCandidate K)) :
    (mergeZCandidates candidates tol).Pairwise BoundsOrdered := by
  have hsorted := List.pairwise_insertionSort ZCandidate.ordered candidates
  exact (hsorted.sublist (dedupZ_sublist none _)).imp boundsOrdered_of_ordered

end Merging

section Span

variable {K : Type} [Field K] [LinearOrder K] [IsStrictOrderedRing K] {tol : K}

/-- The span of the candidates whose height is known. -/
def spanOf (candidates : List (ZCandidate K)) : Option (Interval K) :=
  (candidates.filter (·.zKnown)).foldl (fun span c => some (span.elim c.z (·.union c.z))) none

def PossibleStopSet.zSpan (s : PossibleStopSet K) : Option (Interval K) := spanOf s.zCandidates

theorem spanOf_snoc (candidates : List (ZCandidate K)) (c : ZCandidate K) :
    spanOf (candidates ++ [c]) =
      if c.zKnown then some ((spanOf candidates).elim c.z (·.union c.z)) else spanOf candidates := by
  unfold spanOf
  by_cases hknown : c.zKnown = true
  · simp [hknown]
  · simp [hknown]

/-- The bounds of a span, each with a candidate that has it. -/
structure Spans (candidates : List (ZCandidate K)) (span : Interval K) : Prop where
  below : ∀ c ∈ candidates, c.zKnown = true → span.lo ≤ c.z.lo
  above : ∀ c ∈ candidates, c.zKnown = true → c.z.hi ≤ span.hi
  least : ∃ c ∈ candidates, c.zKnown = true ∧ c.z.lo = span.lo
  greatest : ∃ c ∈ candidates, c.zKnown = true ∧ c.z.hi = span.hi

theorem spans_singleton {candidates : List (ZCandidate K)} {c : ZCandidate K}
    (hnone : ∀ d ∈ candidates, d.zKnown = false) (hknown : c.zKnown = true) :
    Spans (candidates ++ [c]) c.z := by
  have honly : ∀ d ∈ candidates ++ [c], d.zKnown = true → d = c := by
    intro d hd hd'
    rcases List.mem_append.mp hd with hold | hlast
    · simp [hnone d hold] at hd'
    · exact List.mem_singleton.mp hlast
  exact
    { below := fun d hd hd' => by rw [honly d hd hd']
      above := fun d hd hd' => by rw [honly d hd hd']
      least := ⟨c, by simp, hknown, rfl⟩
      greatest := ⟨c, by simp, hknown, rfl⟩ }

/-- A candidate whose height is known widens the span. -/
theorem Spans.snoc {candidates : List (ZCandidate K)} {span : Interval K} {c : ZCandidate K}
    (h : Spans candidates span) (hknown : c.zKnown = true) :
    Spans (candidates ++ [c]) (span.union c.z) where
  below := by
    intro d hd hd'
    rcases List.mem_append.mp hd with hold | hlast
    · exact (min_le_left _ _).trans (h.below d hold hd')
    · obtain rfl := List.mem_singleton.mp hlast
      exact min_le_right _ _
  above := by
    intro d hd hd'
    rcases List.mem_append.mp hd with hold | hlast
    · exact (h.above d hold hd').trans (le_max_left _ _)
    · obtain rfl := List.mem_singleton.mp hlast
      exact le_max_right _ _
  least := by
    show ∃ d ∈ candidates ++ [c], d.zKnown = true ∧ d.z.lo = min span.lo c.z.lo
    rcases min_choice span.lo c.z.lo with hmin | hmin
    · obtain ⟨d, hd, hd', hlo⟩ := h.least
      exact ⟨d, by simp [hd], hd', hlo.trans hmin.symm⟩
    · exact ⟨c, by simp, hknown, hmin.symm⟩
  greatest := by
    show ∃ d ∈ candidates ++ [c], d.zKnown = true ∧ d.z.hi = max span.hi c.z.hi
    rcases max_choice span.hi c.z.hi with hmax | hmax
    · obtain ⟨d, hd, hd', hhi⟩ := h.greatest
      exact ⟨d, by simp [hd], hd', hhi.trans hmax.symm⟩
    · exact ⟨c, by simp, hknown, hmax.symm⟩

/-- A candidate whose height is unknown does not count. -/
theorem Spans.skip {candidates : List (ZCandidate K)} {span : Interval K} {c : ZCandidate K}
    (h : Spans candidates span) (hunknown : c.zKnown = false) : Spans (candidates ++ [c]) span := by
  have hold : ∀ d ∈ candidates ++ [c], d.zKnown = true → d ∈ candidates := by
    intro d hd hd'
    rcases List.mem_append.mp hd with hd | hlast
    · exact hd
    · rw [List.mem_singleton.mp hlast, hunknown] at hd'
      cases hd'
  obtain ⟨least, hleast, hlo⟩ := h.least
  obtain ⟨greatest, hgreatest, hhi⟩ := h.greatest
  exact
    { below := fun d hd hd' => h.below d (hold d hd hd') hd'
      above := fun d hd hd' => h.above d (hold d hd hd') hd'
      least := ⟨least, by simp [hleast], hlo⟩
      greatest := ⟨greatest, by simp [hgreatest], hhi⟩ }

theorem spanOf_spec (candidates : List (ZCandidate K)) :
    (∀ span, spanOf candidates = some span → Spans candidates span) ∧
      (spanOf candidates = none → ∀ c ∈ candidates, c.zKnown = false) := by
  induction candidates using List.reverseRecOn with
  | nil => simp [spanOf]
  | append_singleton candidates c ih =>
    obtain ⟨hspans, hnone⟩ := ih
    rw [spanOf_snoc]
    by_cases hknown : c.zKnown = true
    · rw [if_pos hknown]
      refine ⟨?_, nofun⟩
      intro span hspan
      obtain rfl := Option.some.inj hspan
      cases hold : spanOf candidates with
      | none => exact spans_singleton (hnone hold) hknown
      | some earlier => exact (hspans earlier hold).snoc hknown
    · rw [if_neg hknown]
      have hunknown : c.zKnown = false := by simpa using hknown
      refine ⟨fun span hspan => (hspans span hspan).skip hunknown, ?_⟩
      intro hempty d hd
      rcases List.mem_append.mp hd with hd | hlast
      · exact hnone hempty d hd
      · rw [List.mem_singleton.mp hlast, hunknown]

/-- Two spans are as wide within the tolerance, or neither is there. -/
def SpansNear (tol : K) (a b : Option (Interval K)) : Prop :=
  a.isSome = b.isSome ∧ ∀ i ∈ a, ∀ j ∈ b, |i.lo - j.lo| ≤ tol ∧ |i.hi - j.hi| ≤ tol

/-- A list that keeps a stand-in for each candidate spans as much, within the tolerance. -/
theorem spansNear_of_standsFor {kept candidates : List (ZCandidate K)} (hsub : kept ⊆ candidates)
    (hstands : ∀ c ∈ candidates, ∃ k ∈ kept, k.StandsFor tol c) :
    SpansNear tol (spanOf kept) (spanOf candidates) := by
  obtain ⟨hkept, hkeptNone⟩ := spanOf_spec kept
  obtain ⟨hall, hallNone⟩ := spanOf_spec candidates
  cases hk : spanOf kept with
  | none =>
    cases hc : spanOf candidates with
    | none => exact ⟨rfl, nofun⟩
    | some span =>
      exfalso
      obtain ⟨c, hmem, hknown, -⟩ := (hall span hc).least
      obtain ⟨k, hkmem, hstand⟩ := hstands c hmem
      have hunknown := hkeptNone hk k hkmem
      rw [hstand.zKnown, hknown] at hunknown
      cases hunknown
  | some narrow =>
    cases hc : spanOf candidates with
    | none =>
      exfalso
      obtain ⟨k, hkmem, hknown, -⟩ := (hkept narrow hk).least
      rw [hallNone hc k (hsub hkmem)] at hknown
      cases hknown
    | some span =>
      refine ⟨rfl, ?_⟩
      rintro i ⟨rfl⟩ j ⟨rfl⟩
      have hspan := hall span hc
      have hnarrow := hkept narrow hk
      constructor
      · -- the lowest candidate has a stand-in, and the stand-ins are candidates
        obtain ⟨c, hmem, hknown, hlo⟩ := hspan.least
        obtain ⟨k, hkmem, hstand⟩ := hstands c hmem
        have hbelow := hnarrow.below k hkmem (hstand.zKnown.trans hknown)
        obtain ⟨d, hd, hd', hlo'⟩ := hnarrow.least
        have habove := hspan.below d (hsub hd) hd'
        have hnear := abs_le.mp hstand.lo
        rw [abs_le]
        constructor
        · linarith [hnear.1, hnear.2]
        · linarith [hnear.1, hnear.2]
      · obtain ⟨c, hmem, hknown, hhi⟩ := hspan.greatest
        obtain ⟨k, hkmem, hstand⟩ := hstands c hmem
        have habove := hnarrow.above k hkmem (hstand.zKnown.trans hknown)
        obtain ⟨d, hd, hd', hhi'⟩ := hnarrow.greatest
        have hbelow := hspan.above d (hsub hd) hd'
        have hnear := abs_le.mp hstand.hi
        rw [abs_le]
        constructor
        · linarith [hnear.1, hnear.2]
        · linarith [hnear.1, hnear.2]

/-- Merging near-duplicates loses nothing beyond the tolerance. -/
theorem mergeZCandidates_loses_little (htol : 0 ≤ tol) (candidates : List (ZCandidate K)) :
    (mergeZCandidates candidates tol).Pairwise BoundsOrdered ∧
      mergeZCandidates candidates tol ⊆ candidates ∧
      (∀ c ∈ candidates, ∃ k ∈ mergeZCandidates candidates tol, k.StandsFor tol c) ∧
      ∀ set : PossibleStopSet K,
        SpansNear tol ({ set with zCandidates := mergeZCandidates candidates tol }.zSpan)
          ({ set with zCandidates := candidates }.zSpan) := by
  have hsub : mergeZCandidates candidates tol ⊆ candidates :=
    fun c hc => mem_of_mem_mergeZCandidates hc
  have hstands : ∀ c ∈ candidates, ∃ k ∈ mergeZCandidates candidates tol, k.StandsFor tol c :=
    fun c hc => mergeZCandidates_keeps htol hc
  exact ⟨mergeZCandidates_ordered candidates, hsub, hstands,
    fun set => spansNear_of_standsFor hsub hstands⟩

/-- Two plateaus within a tenth; the higher one comes first. -/
def nearPlateaus : List (ZCandidate ℚ) :=
  [⟨.point (21 / 20), .wal, true, .plateau⟩, ⟨.point 1, .wal, true, .plateau⟩]

theorem mergeZCandidates_loses_little_twice :
    mergeZCandidates nearPlateaus (1 / 10) = [⟨.point 1, .wal, true, .plateau⟩] ∧
      ∀ c ∈ nearPlateaus, ∃ k ∈ mergeZCandidates nearPlateaus (1 / 10),
        k.StandsFor (1 / 10) c := by
  have htol : (0 : ℚ) ≤ 1 / 10 := by norm_num
  exact ⟨by decide +kernel, (mergeZCandidates_loses_little htol nearPlateaus).2.2.1⟩

end Span

end DeadReckoning.Reconstruct
