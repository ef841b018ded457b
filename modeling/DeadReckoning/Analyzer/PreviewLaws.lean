import DeadReckoning.Analyzer.Stops

/-! What a preview promises: its stops are those that can be accepted, its representatives are
spread over the candidates, and its anchors go on where the policies do. -/
namespace DeadReckoning.Analyzer
open Gcode (Axes ByteSpan)
open Recovery (MatchConfidence MoveKind ResumePolicy ResumeTarget medianIndex selectResumeTargetWithPolicy)

section Statements

variable (model : LayerModel) (evidence : StopEvidence) (config : MatchConfig)
  (exclusions : Option ExclusionOracle)

/-- The stop shows the move, and the print goes on behind its line: when a deposition that is kept
follows, at one that is kept and at a trusted position. -/
structure Shows (m : SimMove) (s : PreviewStop) : Prop where
  offset : s.offset = m.span.start
  xy : s.xy = (m.start.x, m.start.y)
  z : s.z = m.start.z
  layer : s.layer = m.layer
  candidate : s.isCandidate = true ↔ m.span.start ∈ candidateLines model evidence config
  behind : m.span.stop ≤ s.resumeOffset
  resumes : (firstKeptDepositionAtOrAfter model exclusions m.span.stop).isSome = true →
    ∃ d ∈ model.moves, d.kind = .extrusion ∧ d.startPositionKnown = true ∧
      isExcludedMove exclusions d = false ∧ d.span.start = s.resumeOffset

def PreviewStop.key (s : PreviewStop) : ℕ ×ₗ ℕ := toLex (s.offset, s.index)

/-- Where the print goes on when the stop with the index is accepted. -/
def PreviewSet.resumeAt (set : PreviewSet) (index : ℕ) : Option ℕ :=
  set.stops[index]?.map (·.resumeOffset)

/-- What the recovery resumes at under a policy, when it chooses among the candidate lines. -/
def Commits (policy : ResumePolicy) (target : ResumeTarget) : Prop :=
  selectResumeTargetWithPolicy model.forRecovery
    (.ambiguousWindow (candidateLines model evidence config)) policy = .ok target

structure PreviewLaws (set : PreviewSet) : Prop where
  stops : List.Forall₂ (Shows model evidence config exclusions)
    (model.moves.filter (selectable model evidence exclusions)) set.stops
  position : ∀ i (s : PreviewStop), set.stops[i]? = some s → s.index = i
  ascending : set.representatives.Pairwise (· < ·)
  few : set.representatives.length ≤ previewMaxReps
  drawn : ∀ index ∈ set.representatives,
    ∃ s ∈ set.stops, s.isCandidate = true ∧ s.index = index
  earliest : ∀ s ∈ set.stops, s.isCandidate = true →
    (∀ t ∈ set.stops, t.isCandidate = true → s.key ≤ t.key) → s.index ∈ set.representatives
  latest : ∀ s ∈ set.stops, s.isCandidate = true →
    (∀ t ∈ set.stops, t.isCandidate = true → t.key ≤ s.key) → s.index ∈ set.representatives
  orderFree : ∀ inputs, inputs.Perm (repInputs set.stops) →
    representatives inputs previewMaxReps = set.representatives
  ordered : exclusions = none → 2 ≤ (candidateLines model evidence config).length →
    (∃ policy target, Commits model evidence config policy target) →
    ∃ first mid last, set.resumeAt set.firstIndex = some first ∧
      set.resumeAt set.midIndex = some mid ∧ set.resumeAt set.lastIndex = some last ∧
      first ≤ mid ∧ mid ≤ last
  last : exclusions = none → 2 ≤ (candidateLines model evidence config).length →
    ∀ target, Commits model evidence config .last target →
    ∃ last, set.resumeAt set.lastIndex = some last ∧ target.offset ≤ last ∧
      ((∃ s ∈ set.stops, s.resumeOffset = target.offset) → last = target.offset)

/-- The first deposition at or after the last candidate line is at a trusted position, but it is on
no line that can be accepted, and it is not the next deposition behind any of them. -/
def FallsShort : Prop :=
  exclusions = none ∧ 2 ≤ (candidateLines model evidence config).length ∧
    ∃ m ∈ firstKeptDepositionAtOrAfter model none ((candidateLines model evidence config).getLastD 0),
      m.startPositionKnown = true ∧
      ∀ s ∈ model.moves, selectable model evidence none s = true →
        s.span.start ≠ m.span.start ∧
        ∀ next ∈ firstKeptDepositionAtOrAfter model none s.span.stop,
          next.span.start ≠ m.span.start

end Statements

section Representatives

variable {candidates : List RepInput} {cap : ℕ} {lo hi : RepInput}

/-- The representatives are those of a few candidates, the earliest and the latest among them. -/
theorem representatives_eq (hlo : candidates.argmin RepInput.key = some lo)
    (hhi : candidates.reverse.argmax RepInput.key = some hi) (hcap : 2 ≤ cap) :
    ∃ chosen : List RepInput, representatives candidates cap =
        ((chosen.map RepInput.index).insertionSort (· ≤ ·)).dedup ∧
      chosen.length ≤ cap ∧ (∀ c ∈ chosen, c ∈ candidates) ∧
      lo.index ∈ chosen.map RepInput.index ∧ hi.index ∈ chosen.map RepInput.index := by
  have hmemlo : lo ∈ candidates := List.argmin_mem hlo
  have hmemhi : hi ∈ candidates := List.mem_reverse.mp (List.argmax_mem hhi)
  obtain ⟨ends, hends, htwo, hmem, hfirst, hlast⟩ : ∃ ends : List RepInput,
      (if hi.index ≠ lo.index then [lo, hi] else [lo]) = ends ∧ ends.length ≤ 2 ∧
      (∀ c ∈ ends, c ∈ candidates) ∧ lo.index ∈ ends.map RepInput.index ∧
      hi.index ∈ ends.map RepInput.index := by
    by_cases hne : hi.index ≠ lo.index
    · exact ⟨[lo, hi], if_pos hne, le_rfl, by simp [hmemlo, hmemhi], by simp, by simp⟩
    · exact ⟨[lo], if_neg hne, by simp, by simp [hmemlo], by simp, by simp [not_not.mp hne]⟩
  obtain ⟨more, heq, hlength, hmore⟩ := @Sampling.sample_cases _ _ _ _ _ _ _
    RepInput.index RepInput.key minDistanceSq candidates (cap - ends.length) ends
  refine ⟨ends ++ more, ?_, ?_, ?_, ?_, ?_⟩
  · unfold representatives
    rw [hlo, hhi]
    dsimp only
    rw [if_neg (by omega), hends, heq]
  · rw [List.length_append]
    omega
  · intro c hc
    rcases List.mem_append.mp hc with hc | hc
    · exact hmem c hc
    · exact hmore c hc
  · rw [List.map_append]
    exact List.mem_append_left _ hfirst
  · rw [List.map_append]
    exact List.mem_append_left _ hlast

/-- One candidate at least has an earliest and a latest one. -/
theorem exists_ends (hne : candidates ≠ []) : ∃ lo hi, candidates.argmin RepInput.key = some lo ∧
    candidates.reverse.argmax RepInput.key = some hi := by
  have hlo : candidates.argmin RepInput.key ≠ none := by rwa [ne_eq, List.argmin_eq_none]
  have hhi : candidates.reverse.argmax RepInput.key ≠ none := by
    rwa [ne_eq, List.argmax_eq_none, List.reverse_eq_nil_iff]
  obtain ⟨lo, hlo⟩ := Option.ne_none_iff_exists'.mp hlo
  obtain ⟨hi, hhi⟩ := Option.ne_none_iff_exists'.mp hhi
  exact ⟨lo, hi, hlo, hhi⟩

theorem representatives_ascending : (representatives candidates cap).Pairwise (· < ·) := by
  unfold representatives
  split
  · dsimp only
    split
    · exact .nil
    · generalize List.map RepInput.index _ = indices
      have hsorted := (List.pairwise_insertionSort (· ≤ ·) indices).sublist
        (List.dedup_sublist _)
      exact (hsorted.and (List.nodup_dedup _)).imp fun h => lt_of_le_of_ne h.1 h.2
  · exact .nil

theorem length_representatives (hcap : 2 ≤ cap) : (representatives candidates cap).length ≤ cap := by
  by_cases hne : candidates = []
  · subst hne
    exact Nat.zero_le _
  · obtain ⟨lo, hi, hlo, hhi⟩ := exists_ends hne
    obtain ⟨chosen, heq, hlength, -⟩ := representatives_eq hlo hhi hcap
    rw [heq]
    refine ((List.dedup_sublist _).length_le.trans ?_)
    rwa [List.length_insertionSort, List.length_map]

theorem mem_of_representatives (hcap : 2 ≤ cap) {index : ℕ}
    (h : index ∈ representatives candidates cap) : ∃ c ∈ candidates, c.index = index := by
  by_cases hne : candidates = []
  · subst hne
    cases h
  · obtain ⟨lo, hi, hlo, hhi⟩ := exists_ends hne
    obtain ⟨chosen, heq, -, hmem, -⟩ := representatives_eq hlo hhi hcap
    rw [heq, List.mem_dedup, List.mem_insertionSort] at h
    obtain ⟨c, hc, rfl⟩ := List.mem_map.mp h
    exact ⟨c, hmem c hc, rfl⟩

/-- The earliest candidate is a representative, and the latest. -/
theorem ends_mem_representatives (hcap : 2 ≤ cap) {c : RepInput} (hc : c ∈ candidates)
    (h : (∀ d ∈ candidates, c.key ≤ d.key) ∨ (∀ d ∈ candidates, d.key ≤ c.key)) :
    c.index ∈ representatives candidates cap := by
  obtain ⟨lo, hi, hlo, hhi⟩ := exists_ends (List.ne_nil_of_mem hc)
  obtain ⟨chosen, heq, -, -, hfirst, hlast⟩ := representatives_eq hlo hhi hcap
  rw [heq, List.mem_dedup, List.mem_insertionSort]
  have hindex {a b : RepInput} (hab : a.key = b.key) : a.index = b.index :=
    congrArg (fun k => (ofLex k).2) hab
  rcases h with h | h
  · have hkey : c.key = lo.key :=
      le_antisymm (h lo (List.argmin_mem hlo)) (List.le_of_mem_argmin hc hlo)
    rwa [hindex hkey]
  · have hmem := List.mem_reverse.mp (List.argmax_mem hhi)
    have hkey : c.key = hi.key :=
      le_antisymm (List.le_of_mem_argmax (List.mem_reverse.mpr hc) hhi) (h hi hmem)
    rwa [hindex hkey]

/-- Candidates with different indices may be given in any order. -/
theorem representatives_perm {candidates' : List RepInput} (h : candidates.Perm candidates')
    (hinj : ∀ a ∈ candidates, ∀ b ∈ candidates, a.key = b.key → a = b) :
    representatives candidates cap = representatives candidates' cap := by
  have hlo := Sampling.argmin_perm h hinj
  have hhi : candidates.reverse.argmax RepInput.key = candidates'.reverse.argmax RepInput.key := by
    refine @Sampling.argmin_perm _ (ℕ ×ₗ ℕ)ᵒᵈ _ RepInput.key _ _ ?_ ?_
    · exact (List.reverse_perm _).trans (h.trans (List.reverse_perm _).symm)
    · intro a ha b hb hab
      exact hinj a (List.mem_reverse.mp ha) b (List.mem_reverse.mp hb) hab
  unfold representatives
  rw [hlo, hhi]
  cases candidates'.argmin RepInput.key with
  | none => rfl
  | some lo =>
    cases candidates'.reverse.argmax RepInput.key with
    | none => rfl
    | some hi =>
      dsimp only
      rw [Sampling.sample_perm h hinj]

end Representatives

section Anchors

/-- The stops are numbered, and the print goes on behind them in the order in which they come. -/
structure Arranged (stops : List PreviewStop) : Prop where
  position : ∀ i (s : PreviewStop), stops[i]? = some s → s.index = i
  offset : stops.Pairwise (·.offset ≤ ·.offset)
  resume : stops.Pairwise (·.resumeOffset ≤ ·.resumeOffset)

variable {stops : List PreviewStop} {s t : PreviewStop}

theorem Arranged.get (h : Arranged stops) (hs : s ∈ stops) : stops[s.index]? = some s := by
  obtain ⟨i, hi⟩ := List.mem_iff_getElem?.mp hs
  rwa [h.position i s hi]

/-- What holds between a stop and the later ones holds from one index to a later one. -/
theorem Arranged.related (h : Arranged stops) {r : PreviewStop → PreviewStop → Prop}
    (hr : stops.Pairwise r) (hrefl : ∀ s, r s s) (hs : s ∈ stops) (ht : t ∈ stops)
    (hle : s.index ≤ t.index) : r s t := by
  obtain ⟨hslt, hseq⟩ := List.getElem?_eq_some_iff.mp (h.get hs)
  obtain ⟨htlt, hteq⟩ := List.getElem?_eq_some_iff.mp (h.get ht)
  rcases hle.eq_or_lt with heq | hlt
  · have hst : s = t := by
      rw [← hseq, ← hteq]
      simp only [heq]
    rw [hst]
    exact hrefl t
  · have hpair := List.pairwise_iff_getElem.mp hr s.index t.index hslt htlt hlt
    rwa [hseq, hteq] at hpair

theorem Arranged.offset_le (h : Arranged stops) (hs : s ∈ stops) (ht : t ∈ stops)
    (hle : s.index ≤ t.index) : s.offset ≤ t.offset :=
  h.related h.offset (fun _ => le_rfl) hs ht hle

theorem Arranged.resume_le (h : Arranged stops) (hs : s ∈ stops) (ht : t ∈ stops)
    (hle : s.index ≤ t.index) : s.resumeOffset ≤ t.resumeOffset :=
  h.related h.resume (fun _ => le_rfl) hs ht hle

theorem Arranged.index_lt (h : Arranged stops) : stops.Pairwise (·.index < ·.index) := by
  refine List.pairwise_iff_getElem.mpr fun i j hi hj hlt => ?_
  rw [h.position i _ (List.getElem?_eq_getElem hi), h.position j _ (List.getElem?_eq_getElem hj)]
  exact hlt

/-- Of the stops with a property the last one is found. -/
theorem Arranged.find_reverse (h : Arranged stops) {p : PreviewStop → Bool}
    (hfind : stops.reverse.find? p = some s) :
    s ∈ stops ∧ p s = true ∧ ∀ t ∈ stops, p t = true → t.index ≤ s.index := by
  obtain ⟨hs, before, after, hsplit, hbefore⟩ := List.find?_eq_some_iff_append.mp hfind
  refine ⟨List.mem_reverse.mp (List.mem_of_find?_eq_some hfind), hs, fun t ht hpt => ?_⟩
  have hindex := List.pairwise_reverse.mpr h.index_lt
  rw [hsplit] at hindex
  rw [← List.mem_reverse, hsplit] at ht
  rcases List.mem_append.mp ht with ht | ht
  · have hno := hbefore t ht
    simp [hpt] at hno
  rcases List.mem_cons.mp ht with rfl | ht
  · exact le_rfl
  · exact ((List.pairwise_cons.mp (List.pairwise_append.mp hindex).2.1).1 t ht).le

/-- The stop is the last one at or before an offset, or the first one when there is none. -/
def IsNearest (stops : List PreviewStop) (base : ℕ) (s : PreviewStop) : Prop :=
  s ∈ stops ∧ ((s.offset ≤ base ∧ ∀ t ∈ stops, t.offset ≤ base → t.index ≤ s.index) ∨
    ∀ t ∈ stops, base < t.offset ∧ s.index ≤ t.index)

theorem IsNearest.index_le {base base' : ℕ} (hs : IsNearest stops base s)
    (ht : IsNearest stops base' t) (hle : base ≤ base') : s.index ≤ t.index := by
  obtain ⟨hmem, hs⟩ := hs
  obtain ⟨hmem', ht⟩ := ht
  rcases hs with ⟨hoffset, -⟩ | hs
  · rcases ht with ⟨-, ht⟩ | ht
    · exact ht s hmem (hoffset.trans hle)
    · have hlt := (ht s hmem).1
      omega
  · exact (hs t hmem').2

theorem nearestStopAtOrBefore_spec (h : Arranged stops) (hne : stops ≠ []) (base : ℕ) :
    ∃ s, IsNearest stops base s ∧ nearestStopAtOrBefore stops base = s.index := by
  unfold nearestStopAtOrBefore
  cases hbest : (stops.filter (·.offset ≤ base)).reverse.argmax
      fun s => (toLex (s.offset, s.index) : ℕ ×ₗ ℕ) with
  | none =>
    rw [List.argmax_eq_none, List.reverse_eq_nil_iff, List.filter_eq_nil_iff] at hbest
    obtain ⟨first, rest, rfl⟩ := List.exists_cons_of_ne_nil hne
    have hfirst : first.index = 0 := h.position 0 first rfl
    refine ⟨first, ⟨List.mem_cons_self, .inr fun t ht => ⟨?_, ?_⟩⟩, rfl⟩
    · simpa using hbest t ht
    · rw [hfirst]
      exact Nat.zero_le _
  | some s =>
    have hs := List.mem_filter.mp (List.mem_reverse.mp (List.argmax_mem hbest))
    refine ⟨s, ⟨hs.1, .inl ⟨by simpa using hs.2, fun t ht htle => ?_⟩⟩, rfl⟩
    have hmem : t ∈ (stops.filter (·.offset ≤ base)).reverse :=
      List.mem_reverse.mpr (List.mem_filter.mpr ⟨ht, by simpa using htle⟩)
    have hkey := List.le_of_mem_argmax hmem hbest
    rcases Prod.Lex.toLex_le_toLex.mp hkey with hlt | ⟨-, hle⟩
    · by_contra hcon
      exact absurd hlt (not_lt.mpr (h.offset_le hs.1 ht (not_le.mp hcon).le))
    · exact hle

/-- The stop that `first` and `mid` begin at is the last one at or before their line. -/
theorem stopAtOffset_getD (h : Arranged stops) (hne : stops ≠ []) (base : ℕ) :
    ∃ s, IsNearest stops base s ∧
      (stopAtOffset stops base).getD (nearestStopAtOrBefore stops base) = s.index := by
  unfold stopAtOffset
  cases hfind : stops.reverse.find? (·.offset = base) with
  | none => exact nearestStopAtOrBefore_spec h hne base
  | some s =>
    obtain ⟨hs, hoffset, hlast⟩ := h.find_reverse hfind
    rw [decide_eq_true_eq] at hoffset
    refine ⟨s, ⟨hs, .inl ⟨hoffset.le, fun t ht htle => ?_⟩⟩, rfl⟩
    rcases htle.eq_or_lt with heq | hlt
    · exact hlast t ht (by simpa using heq)
    · by_contra hcon
      have hle := h.offset_le hs ht (not_le.mp hcon).le
      omega

variable {model : LayerModel} {exclusions : Option ExclusionOracle} {lines : List ℕ}

/-- The deposition that the last candidate line leads to: the first one at or after it. -/
def LeadsTo (model : LayerModel) (exclusions : Option ExclusionOracle) (lines : List ℕ)
    (m : SimMove) : Prop :=
  firstKeptDepositionAtOrAfter model exclusions (lines.getLastD 0) = some m ∧
    m.startPositionKnown = true

/-- The stop that `last` begins at: one behind which the print goes on at the deposition that the
last line leads to, otherwise one at that deposition, otherwise the nearest one. -/
theorem lastIndex_spec (h : Arranged stops) (hne : stops ≠ []) :
    ∃ s ∈ stops, anchorIndex stops model lines .last exclusions = s.index ∧
      ((∃ m, LeadsTo model exclusions lines m ∧
          (s.resumeOffset = m.span.start ∨
            ((∀ t ∈ stops, t.resumeOffset ≠ m.span.start) ∧ s.offset = m.span.start))) ∨
        (IsNearest stops (lines.getLastD 0) s ∧ ∀ m, LeadsTo model exclusions lines m →
          ∀ t ∈ stops, t.resumeOffset ≠ m.span.start ∧ t.offset ≠ m.span.start)) := by
  obtain ⟨nearest, hnearest, heq⟩ := nearestStopAtOrBefore_spec h hne (lines.getLastD 0)
  unfold anchorIndex
  dsimp only
  rw [heq]
  cases hresume : (firstKeptDepositionAtOrAfter model exclusions (lines.getLastD 0)).filter
      (·.startPositionKnown) with
  | none =>
    refine ⟨nearest, hnearest.1, rfl, .inr ⟨hnearest, fun m hm => ?_⟩⟩
    rw [hm.1, Option.filter_some, if_pos hm.2] at hresume
    cases hresume
  | some m =>
    have hleads : LeadsTo model exclusions lines m := Option.filter_eq_some_iff.mp hresume
    rw [Option.bind_some]
    unfold stopResumingAt stopAtOffset
    cases hbehind : stops.reverse.find? (·.resumeOffset = m.span.start) with
    | some s =>
      obtain ⟨hs, hat, -⟩ := h.find_reverse hbehind
      exact ⟨s, hs, rfl, .inl ⟨m, hleads, .inl (by simpa using hat)⟩⟩
    | none =>
      have hnone : ∀ t ∈ stops, t.resumeOffset ≠ m.span.start := by
        intro t ht
        simpa using List.find?_eq_none.mp hbehind t (List.mem_reverse.mpr ht)
      cases hon : stops.reverse.find? (·.offset = m.span.start) with
      | some s =>
        obtain ⟨hs, hat, -⟩ := h.find_reverse hon
        exact ⟨s, hs, rfl, .inl ⟨m, hleads, .inr ⟨hnone, by simpa using hat⟩⟩⟩
      | none =>
        refine ⟨nearest, hnearest.1, rfl, .inr ⟨hnearest, fun m' hm' t ht => ?_⟩⟩
        obtain rfl : m' = m := Option.some.inj (hm'.1.symm.trans hleads.1)
        exact ⟨hnone t ht, by
          simpa using List.find?_eq_none.mp hon t (List.mem_reverse.mpr ht)⟩

end Anchors

section Lines

variable {model : LayerModel} {evidence : StopEvidence} {config : MatchConfig}

theorem candidateLines_ascending : (candidateLines model evidence config).Pairwise (· < ·) := by
  unfold candidateLines
  generalize List.map _ _ = offsets
  have hsorted := (List.pairwise_insertionSort (· ≤ ·) offsets).sublist (List.dedup_sublist _)
  exact (hsorted.and (List.nodup_dedup _)).imp fun h => lt_of_le_of_ne h.1 h.2

/-- The lines from which the three policies start are in order, the last one apart. -/
theorem bases_ordered {lines : List ℕ} (h : lines.Pairwise (· < ·)) (htwo : 2 ≤ lines.length) :
    lines.headD 0 ≤ lines.getD (medianIndex lines.length) 0 ∧
      lines.getD (medianIndex lines.length) 0 < lines.getLastD 0 := by
  have hmid : medianIndex lines.length < lines.length - 1 := by
    unfold medianIndex
    omega
  have hget (i : ℕ) (hi : i < lines.length) : lines.getD i 0 = lines[i] := by simp [hi]
  have hhead : lines.headD 0 = lines[0] := by
    cases lines with
    | nil => cases htwo
    | cons first rest => rfl
  have hlast : lines.getLastD 0 = lines[lines.length - 1] := by
    rw [List.getLastD_eq_getLast?, List.getLast?_eq_getElem?,
      List.getElem?_eq_getElem (by omega)]
    rfl
  rw [hhead, hlast, hget _ (by omega)]
  have hlt := List.pairwise_iff_getElem.mp h
  constructor
  · rcases Nat.eq_zero_or_pos (medianIndex lines.length) with hzero | hpos
    · simp only [hzero, le_refl]
    · exact (hlt 0 _ (by omega) (by omega) hpos).le
  · exact hlt _ _ (by omega) (by omega) hmid

theorem le_getLastD {lines : List ℕ} (h : lines.Pairwise (· < ·)) {line : ℕ} (hmem : line ∈ lines) :
    line ≤ lines.getLastD 0 := by
  induction lines using List.reverseRecOn with
  | nil => cases hmem
  | append_singleton lines last _ =>
    rw [List.getLastD_concat]
    rcases List.mem_append.mp hmem with hmem | hmem
    · exact ((List.pairwise_append.mp h).2.2 line hmem last (List.mem_singleton_self last)).le
    · exact (List.mem_singleton.mp hmem).le

theorem firstDeposition_forRecovery (base : ℕ) :
    model.forRecovery.firstDepositionAtOrAfter base =
      (firstKeptDepositionAtOrAfter model none base).map SimMove.forRecovery := by
  unfold Recovery.LayerModel.firstDepositionAtOrAfter LayerModel.forRecovery
    firstKeptDepositionAtOrAfter
  rw [List.find?_map]
  congr 2
  funext m
  exact (Bool.and_true _).symm

/-- The recovery resumes at the first deposition at or after an offset, when its position is
trusted. -/
theorem resolveResume_iff {base offset : ℕ} :
    (∃ target, Recovery.resolveResumeFromOffset model.forRecovery base = .ok target ∧
      target.offset = offset) ↔
    ∃ m, firstKeptDepositionAtOrAfter model none base = some m ∧ m.startPositionKnown = true ∧
      m.span.start = offset := by
  unfold Recovery.resolveResumeFromOffset
  rw [firstDeposition_forRecovery]
  cases firstKeptDepositionAtOrAfter model none base with
  | none => simp
  | some m =>
    have hknown : m.forRecovery.startPositionKnown = m.startPositionKnown := rfl
    have hstart : m.forRecovery.spanStart = m.span.start := rfl
    simp only [Option.map_some, hknown, hstart]
    by_cases h : m.startPositionKnown = true
    · simp [h]
    · simp [h]

/-- The `last` policy resumes at the deposition that the last candidate line leads to. -/
theorem commits_last_iff (htwo : 2 ≤ (candidateLines model evidence config).length) {offset : ℕ} :
    (∃ target, Commits model evidence config .last target ∧ target.offset = offset) ↔
      ∃ m, LeadsTo model none (candidateLines model evidence config) m ∧ m.span.start = offset := by
  have hsorted := @candidateLines_ascending model evidence config
  generalize hlines : candidateLines model evidence config = lines at htwo hsorted
  have hne : lines ≠ [] := List.ne_nil_of_length_pos (by omega)
  have hsort : lines.mergeSort = lines :=
    List.mergeSort_of_pairwise (hsorted.imp fun h => by simpa using h.le)
  have hlast : lines[lines.length - 1]? = some (lines.getLastD 0) := by
    rw [← List.getLast?_eq_getElem?, List.getLastD_eq_getLast?]
    rw [List.getLast?_eq_some_getLast hne]
    rfl
  have hselect : Recovery.selectOffset lines .last = some (lines.getLastD 0) := by
    simp only [Recovery.selectOffset, hsort, hlast]
  simp only [Commits, hlines, selectResumeTargetWithPolicy, hselect, resolveResume_iff, LeadsTo,
    and_assoc]

end Lines

section Stops

variable {model : LayerModel} {evidence : StopEvidence} {config : MatchConfig}
  {exclusions : Option ExclusionOracle} {lines : List ℕ}

theorem getElem?_buildStops (i : ℕ) :
    (buildStops model exclusions (rawDomain model evidence) lines)[i]? =
      (model.moves.filter (selectable model evidence exclusions))[i]?.map fun m =>
        stopOf model lines i m (nextLine model exclusions m) := by
  rw [buildStops_eq, List.getElem?_mapIdx]

/-- A stop comes from a move that can be accepted. -/
theorem of_mem_buildStops {s : PreviewStop}
    (hs : s ∈ buildStops model exclusions (rawDomain model evidence) lines) :
    ∃ m ∈ model.moves, selectable model evidence exclusions m = true ∧
      s.offset = m.span.start ∧ s.resumeOffset = nextLine model exclusions m := by
  obtain ⟨i, hi⟩ := List.mem_iff_getElem?.mp hs
  rw [getElem?_buildStops] at hi
  obtain ⟨m, hm, rfl⟩ := Option.map_eq_some_iff.mp hi
  obtain ⟨hmem, hselectable⟩ := List.mem_filter.mp (List.mem_of_getElem? hm)
  exact ⟨m, hmem, hselectable, rfl, rfl⟩

theorem mem_buildStops_of_selectable {m : SimMove} (hm : m ∈ model.moves)
    (hselectable : selectable model evidence exclusions m = true) :
    ∃ s ∈ buildStops model exclusions (rawDomain model evidence) lines,
      s.offset = m.span.start ∧ s.resumeOffset = nextLine model exclusions m := by
  obtain ⟨i, hi⟩ := List.mem_iff_getElem?.mp (List.mem_filter.mpr ⟨hm, hselectable⟩)
  have hget := (@getElem?_buildStops model evidence exclusions lines i).trans (congrArg _ hi)
  exact ⟨_, List.mem_of_getElem? hget, rfl, rfl⟩

theorem nextLine_of_selectable {m : SimMove}
    (h : selectable model evidence exclusions m = true)
    (hsome : (firstKeptDepositionAtOrAfter model exclusions m.span.stop).isSome = true) :
    ∃ d ∈ model.moves, d.kind = .extrusion ∧ d.startPositionKnown = true ∧
      isExcludedMove exclusions d = false ∧ d.span.start = nextLine model exclusions m := by
  obtain ⟨d, hd⟩ := Option.isSome_iff_exists.mp hsome
  have hknown : d.startPositionKnown = true := by
    simp only [selectable, Bool.and_eq_true, hd, Option.all_some] at h
    exact h.2
  obtain ⟨hmem, hkind, -, hkept⟩ := firstKept_some hd
  exact ⟨d, hmem, hkind, hknown, hkept, by rw [nextLine, hd]; rfl⟩

theorem buildStops_shows : List.Forall₂ (Shows model evidence config exclusions)
    (model.moves.filter (selectable model evidence exclusions))
    (buildStops model exclusions (rawDomain model evidence)
      (candidateLines model evidence config)) := by
  rw [buildStops_eq]
  refine List.forall₂_iff_get.mpr ⟨by simp, fun i hi _ => ?_⟩
  have hselectable := (List.mem_filter.mp (List.get_mem _ ⟨i, hi⟩)).2
  simp only [List.get_eq_getElem, List.getElem_mapIdx] at hselectable ⊢
  exact
    { offset := rfl
      xy := rfl
      z := rfl
      layer := rfl
      candidate := by simp [stopOf]
      behind := stop_le_nextLine _
      resumes := nextLine_of_selectable hselectable }

/-- The numbers of the stops are their positions as long as they fit. -/
theorem buildStops_position
    (hfits : (model.moves.filter (selectable model evidence exclusions)).length ≤ 2 ^ 32)
    {i : ℕ} {s : PreviewStop}
    (hs : (buildStops model exclusions (rawDomain model evidence) lines)[i]? = some s) :
    s.index = i := by
  rw [getElem?_buildStops] at hs
  obtain ⟨m, hm, rfl⟩ := Option.map_eq_some_iff.mp hs
  obtain ⟨hlt, -⟩ := List.getElem?_eq_some_iff.mp hm
  simp only [stopOf, u32Max]
  omega

theorem buildStops_arranged (horder : model.InFileOrder)
    (hfits : (model.moves.filter (selectable model evidence exclusions)).length ≤ 2 ^ 32) :
    Arranged (buildStops model exclusions (rawDomain model evidence) lines) := by
  have hordered := List.pairwise_iff_getElem.mp
    (@selectable_ordered model exclusions evidence horder)
  have hpair : (buildStops model exclusions (rawDomain model evidence) lines).Pairwise fun s t =>
      s.offset ≤ t.offset ∧ s.resumeOffset ≤ t.resumeOffset := by
    refine List.pairwise_iff_getElem.mpr fun i j hi hj hlt => ?_
    simp only [buildStops_eq, List.length_mapIdx] at hi hj
    simp only [buildStops_eq, List.getElem_mapIdx]
    exact hordered i j hi hj hlt
  exact
    { position := fun i s hs => buildStops_position hfits hs
      offset := hpair.imp And.left
      resume := hpair.imp And.right }

end Stops

section Laws

variable {model : LayerModel} {evidence : StopEvidence} {config : MatchConfig}
  {exclusions : Option ExclusionOracle} {bounds : PreviewBounds} {set : PreviewSet}

/-- What a set is made of, when one is built: one of its stops is on a candidate line. -/
theorem buildPreview_eq
    (h : buildPreview model evidence config exclusions bounds = .preview set) :
    ∃ stops, stops = buildStops model exclusions (rawDomain model evidence)
        (candidateLines model evidence config) ∧
      (∃ s ∈ stops, s.isCandidate = true) ∧
      set = {
        stops
        representatives := representatives (repInputs stops) previewMaxReps
        firstIndex := anchorIndex stops model (candidateLines model evidence config) .first exclusions
        midIndex := anchorIndex stops model (candidateLines model evidence config) .mid exclusions
        lastIndex := anchorIndex stops model (candidateLines model evidence config) .last exclusions
        corroboratingLayerMark := none } := by
  refine ⟨_, rfl, ?_⟩
  unfold buildPreview at h
  split at h
  · cases h
  · dsimp only at h
    split at h
    · cases h
    split at h
    · cases h
    split at h
    · cases h
    · rename_i hsome
      have hset := PreviewOutcome.preview.inj h
      simp only [Bool.or_eq_true, not_or, List.isEmpty_iff] at hsome
      obtain ⟨s, hs⟩ := List.exists_mem_of_ne_nil _ hsome.2
      exact ⟨⟨s, (List.mem_filter.mp hs).1, (List.mem_filter.mp hs).2⟩, hset.symm⟩

section Anchored

variable {lines : List ℕ} {stops : List PreviewStop}

/-- Behind a stop that begins before a deposition the print goes on there at the latest. -/
theorem resume_le_of_offset_lt (horder : model.InFileOrder)
    (hstops : stops = buildStops model exclusions (rawDomain model evidence) lines)
    {s : PreviewStop} (hs : s ∈ stops) {m : SimMove} {base : ℕ}
    (hm : firstKeptDepositionAtOrAfter model exclusions base = some m)
    (hlt : s.offset < m.span.start) : s.resumeOffset ≤ m.span.start := by
  subst hstops
  obtain ⟨a, ha, -, hoffset, hresume⟩ := of_mem_buildStops hs
  obtain ⟨hmem, hkind, -, hkept⟩ := firstKept_some hm
  rw [hresume]
  exact nextLine_le horder hmem hkind hkept (horder.stop_le ha hmem (hoffset ▸ hlt))

/-- The three policies go on in their order. -/
theorem anchors_ordered (horder : model.InFileOrder)
    (hstops : stops = buildStops model exclusions (rawDomain model evidence) lines)
    (harranged : Arranged stops) (hne : stops ≠ []) (hlines : lines.Pairwise (· < ·))
    (htwo : 2 ≤ lines.length) :
    ∃ first ∈ stops, ∃ mid ∈ stops, ∃ last ∈ stops,
      anchorIndex stops model lines .first exclusions = first.index ∧
      anchorIndex stops model lines .mid exclusions = mid.index ∧
      anchorIndex stops model lines .last exclusions = last.index ∧
      first.resumeOffset ≤ mid.resumeOffset ∧ mid.resumeOffset ≤ last.resumeOffset := by
  obtain ⟨hfirst, hlast⟩ := bases_ordered hlines htwo
  obtain ⟨first, hnear, hfirstIndex⟩ := stopAtOffset_getD harranged hne (lines.headD 0)
  obtain ⟨mid, hnear', hmidIndex⟩ :=
    stopAtOffset_getD harranged hne (lines.getD (medianIndex lines.length) 0)
  obtain ⟨last, hmem, hlastIndex, hcases⟩ :=
    @lastIndex_spec stops model exclusions lines harranged hne
  refine ⟨first, hnear.1, mid, hnear'.1, last, hmem, hfirstIndex, hmidIndex, hlastIndex,
    harranged.resume_le hnear.1 hnear'.1 (hnear.index_le hnear' hfirst), ?_⟩
  -- A stop behind all others goes on first of all; otherwise `mid` is before the last line.
  have hmidcases : (∀ t ∈ stops, mid.index ≤ t.index) ∨ mid.offset < lines.getLastD 0 := by
    rcases hnear'.2 with ⟨hle, -⟩ | hall
    · exact .inr (hle.trans_lt hlast)
    · exact .inl fun t ht => (hall t ht).2
  rcases hmidcases with hall | hbefore
  · exact harranged.resume_le hnear'.1 hmem (hall last hmem)
  rcases hcases with ⟨m, hleads, hat⟩ | ⟨hnear'', -⟩
  · have hbase := (firstKept_some hleads.1).2.2.1
    rcases hat with hresume | ⟨-, hoffset⟩
    · rw [hresume]
      exact resume_le_of_offset_lt horder hstops hnear'.1 hleads.1 (hbefore.trans_le hbase)
    · refine harranged.resume_le hnear'.1 hmem ?_
      by_contra hcon
      have hle := harranged.offset_le hmem hnear'.1 (not_le.mp hcon).le
      omega
  · exact harranged.resume_le hnear'.1 hmem (hnear'.index_le hnear'' hlast.le)

/-- A stop goes on where the next deposition begins; at the end of its line there is none then. -/
theorem next_of_resume {s : SimMove} {m : SimMove} {base : ℕ}
    (hm : firstKeptDepositionAtOrAfter model exclusions base = some m)
    (h : nextLine model exclusions s = m.span.start) :
    ∃ next, firstKeptDepositionAtOrAfter model exclusions s.span.stop = some next ∧
      next.span.start = m.span.start := by
  unfold nextLine at h
  cases hnext : firstKeptDepositionAtOrAfter model exclusions s.span.stop with
  | some next =>
    rw [hnext] at h
    exact ⟨next, rfl, h⟩
  | none =>
    rw [hnext] at h
    obtain ⟨hmem, hkind, -, hkept⟩ := firstKept_some hm
    have hno := List.find?_eq_none.mp hnext m hmem
    have hstop : s.span.stop = m.span.start := h
    simp [hkind, hkept, hstop] at hno

end Anchored

section Inputs

variable {stops : List PreviewStop}

theorem mem_repInputs {c : RepInput} : c ∈ repInputs stops ↔
    ∃ s ∈ stops, s.isCandidate = true ∧
      (⟨s.index, (s.xy.1.toRat, s.xy.2.toRat), s.offset⟩ : RepInput) = c := by
  simp only [repInputs, List.mem_map, List.mem_filter, and_assoc]

/-- Stops with different indices are told apart by their keys. -/
theorem repInputs_injective (h : Arranged stops) : ∀ a ∈ repInputs stops, ∀ b ∈ repInputs stops,
    a.key = b.key → a = b := by
  intro a ha b hb hkey
  obtain ⟨s, hs, -, rfl⟩ := mem_repInputs.mp ha
  obtain ⟨t, ht, -, rfl⟩ := mem_repInputs.mp hb
  have hindex : s.index = t.index := congrArg (fun k => (ofLex k).2) hkey
  have hget := h.get hs
  rw [hindex, h.get ht] at hget
  rw [Option.some.inj hget]

theorem end_mem_representatives {s : PreviewStop} (hs : s ∈ stops) (hcandidate : s.isCandidate = true)
    (h : (∀ t ∈ stops, t.isCandidate = true → s.key ≤ t.key) ∨
      (∀ t ∈ stops, t.isCandidate = true → t.key ≤ s.key)) :
    s.index ∈ representatives (repInputs stops) previewMaxReps := by
  refine ends_mem_representatives (by decide) (mem_repInputs.mpr ⟨s, hs, hcandidate, rfl⟩) ?_
  refine h.imp (fun h c hc => ?_) (fun h c hc => ?_)
  · obtain ⟨t, ht, htc, rfl⟩ := mem_repInputs.mp hc
    exact h t ht htc
  · obtain ⟨t, ht, htc, rfl⟩ := mem_repInputs.mp hc
    exact h t ht htc

end Inputs

/-- Stops of which one more than fits is numbered wrong. -/
theorem fits_of_position {lines : List ℕ} (h : ∀ i (s : PreviewStop),
      (buildStops model exclusions (rawDomain model evidence) lines)[i]? = some s → s.index = i) :
    (model.moves.filter (selectable model evidence exclusions)).length ≤ 2 ^ 32 := by
  by_contra hcon
  have hget := List.getElem?_eq_getElem (not_le.mp hcon)
  have hindex := h (2 ^ 32) _ ((getElem?_buildStops _).trans (congrArg _ hget))
  simp only [stopOf, u32Max] at hindex
  omega

/-- Where a set falls short, its last anchor goes on before the place that the policy commits. -/
theorem resume_lt_of_fallsShort (horder : model.InFileOrder)
    (hset : buildPreview model evidence config none bounds = .preview set)
    (hfits : (model.moves.filter (selectable model evidence none)).length ≤ 2 ^ 32) {m : SimMove}
    (hleads : LeadsTo model none (candidateLines model evidence config) m)
    (hshort : ∀ s ∈ model.moves, selectable model evidence none s = true →
      s.span.start ≠ m.span.start ∧
        ∀ next, firstKeptDepositionAtOrAfter model none s.span.stop = some next →
          next.span.start ≠ m.span.start) :
    ∃ last, set.resumeAt set.lastIndex = some last ∧ last < m.span.start := by
  obtain ⟨stops, hstops, ⟨candidate, hcandidate, hline⟩, rfl⟩ := buildPreview_eq hset
  have hne : stops ≠ [] := List.ne_nil_of_mem hcandidate
  have harranged : Arranged stops := hstops ▸ buildStops_arranged horder hfits
  have hnone : ∀ s ∈ stops, s.resumeOffset ≠ m.span.start ∧ s.offset ≠ m.span.start := by
    intro s hs
    rw [hstops] at hs
    obtain ⟨a, ha, hselectable, hoffset, hresume⟩ := of_mem_buildStops hs
    obtain ⟨hstart, hnext⟩ := hshort a ha hselectable
    refine ⟨fun heq => ?_, hoffset ▸ hstart⟩
    obtain ⟨next, hfound, hat⟩ := next_of_resume hleads.1 (hresume ▸ heq)
    exact hnext next hfound hat
  obtain ⟨last, hmem, hlastIndex, hcases⟩ := @lastIndex_spec stops model none
    (candidateLines model evidence config) harranged hne
  refine ⟨last.resumeOffset, ?_, ?_⟩
  · simp only [PreviewSet.resumeAt, hlastIndex, harranged.get hmem, Option.map_some]
  · rcases hcases with ⟨m', hleads', hat⟩ | ⟨hnear, -⟩
    · obtain rfl : m' = m := Option.some.inj (hleads'.1.symm.trans hleads.1)
      rcases hat with hresume | ⟨-, hoffset⟩
      · exact absurd hresume (hnone last hmem).1
      · exact absurd hoffset (hnone last hmem).2
    -- Some stop is on a candidate line, so the nearest one is before the last line.
    have hbefore : last.offset ≤ (candidateLines model evidence config).getLastD 0 := by
      rcases hnear.2 with ⟨hle, -⟩ | hall
      · exact hle
      · have hlt := (hall candidate hcandidate).1
        have hmemline : candidate.offset ∈ candidateLines model evidence config := by
          rw [hstops] at hcandidate
          obtain ⟨i, hi⟩ := List.mem_iff_getElem?.mp hcandidate
          rw [getElem?_buildStops] at hi
          obtain ⟨a, -, rfl⟩ := Option.map_eq_some_iff.mp hi
          simpa [stopOf] using hline
        have hle := le_getLastD candidateLines_ascending hmemline
        omega
    have hbase := (firstKept_some hleads.1).2.2.1
    have hlt : last.offset < m.span.start :=
      lt_of_le_of_ne (hbefore.trans hbase) (hnone last hmem).2
    exact lt_of_le_of_ne (resume_le_of_offset_lt horder hstops hmem hleads.1 hlt)
      (hnone last hmem).1

theorem not_lawful_of_fallsShort (horder : model.InFileOrder)
    (hset : buildPreview model evidence config exclusions bounds = .preview set)
    (hfits : (model.moves.filter (selectable model evidence exclusions)).length ≤ 2 ^ 32)
    (hshort : FallsShort model evidence config exclusions) :
    ¬ PreviewLaws model evidence config exclusions set := by
  obtain ⟨rfl, htwo, m, hm, hknown, hshort⟩ := hshort
  intro hlaws
  obtain ⟨last, hlast, hlt⟩ := resume_lt_of_fallsShort horder hset hfits ⟨hm, hknown⟩ hshort
  obtain ⟨target, hcommits, htarget⟩ := (commits_last_iff htwo).mpr ⟨m, ⟨hm, hknown⟩, rfl⟩
  obtain ⟨last', hlast', hle, -⟩ := hlaws.last rfl htwo target hcommits
  obtain rfl : last' = last := Option.some.inj (hlast'.symm.trans hlast)
  omega

/-- Otherwise the last anchor goes on where the policy commits, or behind it. -/
theorem le_resume_of_not_fallsShort (horder : model.InFileOrder)
    (hset : buildPreview model evidence config none bounds = .preview set)
    (hfits : (model.moves.filter (selectable model evidence none)).length ≤ 2 ^ 32)
    (htwo : 2 ≤ (candidateLines model evidence config).length)
    (hshort : ¬ FallsShort model evidence config none) {m : SimMove}
    (hleads : LeadsTo model none (candidateLines model evidence config) m) :
    ∃ last, set.resumeAt set.lastIndex = some last ∧ m.span.start ≤ last ∧
      ((∃ s ∈ set.stops, s.resumeOffset = m.span.start) → last = m.span.start) := by
  obtain ⟨stops, hstops, ⟨candidate, hcandidate, hline⟩, rfl⟩ := buildPreview_eq hset
  have hne : stops ≠ [] := List.ne_nil_of_mem hcandidate
  have harranged : Arranged stops := hstops ▸ buildStops_arranged horder hfits
  obtain ⟨last, hmem, hlastIndex, hcases⟩ := @lastIndex_spec stops model none
    (candidateLines model evidence config) harranged hne
  refine ⟨last.resumeOffset, ?_, ?_⟩
  · simp only [PreviewSet.resumeAt, hlastIndex, harranged.get hmem, Option.map_some]
  rcases hcases with ⟨m', hleads', hat⟩ | ⟨-, hnone⟩
  · obtain rfl : m' = m := Option.some.inj (hleads'.1.symm.trans hleads.1)
    rcases hat with hresume | ⟨hnone, hoffset⟩
    · exact ⟨hresume.ge, fun _ => hresume⟩
    · constructor
      · rw [hstops] at hmem
        obtain ⟨a, ha, -, hstart, hresume⟩ := of_mem_buildStops hmem
        rw [hresume, ← hoffset, hstart]
        exact (horder.forward a ha).trans (stop_le_nextLine a)
      · rintro ⟨s, hs, heq⟩
        exact absurd heq (hnone s hs)
  · refine absurd ⟨rfl, htwo, m, hleads.1, hleads.2, fun a ha hselectable => ?_⟩ hshort
    obtain ⟨s, hs, hoffset, hresume⟩ := @mem_buildStops_of_selectable model evidence none
      (candidateLines model evidence config) a ha hselectable
    rw [← hstops] at hs
    obtain ⟨hresumes, hstarts⟩ := hnone m hleads s hs
    refine ⟨hoffset ▸ hstarts, fun next hnext heq => hresumes ?_⟩
    rw [hresume, nextLine, hnext, ← heq]
    rfl

end Laws

section Claims

variable {model : LayerModel} {evidence : StopEvidence} {config : MatchConfig}
  {exclusions : Option ExclusionOracle} {bounds : PreviewBounds} {set : PreviewSet}

/-- A set that is built from moves in the order of the file keeps its promises exactly when its
stops can be numbered and it does not fall short of the last policy. -/
theorem buildPreview_lawful_iff (horder : model.InFileOrder)
    (hset : buildPreview model evidence config exclusions bounds = .preview set) :
    PreviewLaws model evidence config exclusions set ↔
      (model.moves.filter (selectable model evidence exclusions)).length ≤ 2 ^ 32 ∧
        ¬ FallsShort model evidence config exclusions := by
  constructor
  · intro hlaws
    have hfits : (model.moves.filter (selectable model evidence exclusions)).length ≤ 2 ^ 32 := by
      obtain ⟨stops, hstops, -, rfl⟩ := buildPreview_eq hset
      exact fits_of_position (hstops ▸ hlaws.position)
    exact ⟨hfits, fun hshort => not_lawful_of_fallsShort horder hset hfits hshort hlaws⟩
  · rintro ⟨hfits, hshort⟩
    obtain ⟨stops, hstops, ⟨candidate, hcandidate, -⟩, heq⟩ := buildPreview_eq hset
    have harranged : Arranged stops := hstops ▸ buildStops_arranged horder hfits
    have hreps : set.stops = stops ∧
        set.representatives = representatives (repInputs stops) previewMaxReps := by
      rw [heq]
      exact ⟨rfl, rfl⟩
    exact
      { stops := by
          rw [hreps.1, hstops]
          exact buildStops_shows
        position := by
          rw [hreps.1]
          exact harranged.position
        ascending := by
          rw [hreps.2]
          exact representatives_ascending
        few := by
          rw [hreps.2]
          exact length_representatives (by decide)
        drawn := by
          rw [hreps.1, hreps.2]
          intro index hindex
          obtain ⟨c, hc, rfl⟩ := mem_of_representatives (by decide) hindex
          obtain ⟨s, hs, hsc, rfl⟩ := mem_repInputs.mp hc
          exact ⟨s, hs, hsc, rfl⟩
        earliest := by
          rw [hreps.1, hreps.2]
          exact fun s hs hsc h => end_mem_representatives hs hsc (.inl h)
        latest := by
          rw [hreps.1, hreps.2]
          exact fun s hs hsc h => end_mem_representatives hs hsc (.inr h)
        orderFree := by
          rw [hreps.1, hreps.2]
          intro inputs hperm
          exact (representatives_perm hperm.symm (repInputs_injective harranged)).symm
        ordered := by
          rintro - htwo -
          obtain ⟨first, hfirst, mid, hmid, last, hlast, hfirstIndex, hmidIndex, hlastIndex, hle,
            hle'⟩ := anchors_ordered horder hstops harranged (List.ne_nil_of_mem hcandidate)
              candidateLines_ascending htwo
          subst heq
          simp only [PreviewSet.resumeAt, hfirstIndex, hmidIndex, hlastIndex, harranged.get hfirst,
            harranged.get hmid, harranged.get hlast, Option.map_some]
          exact ⟨_, _, _, rfl, rfl, rfl, hle, hle'⟩
        last := by
          rintro rfl htwo target hcommits
          obtain ⟨m, hleads, htarget⟩ := (commits_last_iff htwo).mp ⟨target, hcommits, rfl⟩
          rw [← htarget]
          exact le_resume_of_not_fallsShort horder hset hfits htwo hshort hleads }

/-- The moves of a print that homes the height between two depositions, which leaves the second of
them at a height that is not known. -/
def rehomedMoves : List SimMove :=
  let move (start finish : Axes F64) (span : ByteSpan) (kind : MoveKind) (startZ finishZ : Bool) :
      SimMove :=
    ⟨start, finish, span, kind, some 0, none, none, ⟨true, true, startZ, true⟩,
      ⟨true, true, finishZ, true⟩⟩
  [move ⟨0, 0, 0, 0⟩ ⟨10, 0, 1, 1⟩ ⟨4, 20⟩ .extrusion true true,
    move ⟨10, 0, 1, 1⟩ ⟨20, 0, 1, 2⟩ ⟨20, 30⟩ .extrusion true true,
    move ⟨20, 0, 1, 2⟩ ⟨20, 10, 1, 3⟩ ⟨36, 46⟩ .extrusion false false,
    move ⟨20, 10, 1, 3⟩ ⟨5, 0, 1, 3⟩ ⟨46, 58⟩ .travel false true,
    move ⟨5, 0, 1, 3⟩ ⟨5, 5, 1, 4⟩ ⟨58, 67⟩ .extrusion true true]

def rehomedModel : LayerModel where
  layers := [{
    index := 0
    z := 1
    zKnown := true
    span := ⟨4, 67⟩
    annotationZ := none
    paths := [⟨.other, none, (rehomedMoves.filter (·.kind = .extrusion)).map fun m =>
      ⟨(m.start.x, m.start.y), (m.finish.x, m.finish.y), m.finish.z, m.start.e, m.finish.e, m.span,
        none⟩⟩]
    extrusionMoves := 4
    spiralMoves := 1 }]
  moves := rehomedMoves
  annotated := false
  stop := .endOfInput
  linesConsumed := 7

/-- The machine has stopped near the beginning of the first move, and before an offset. -/
def rehomedEvidence (stop : Option ℕ) : StopEvidence := ⟨⟨0, 6⟩, ⟨-1, 1⟩, none, [], ⟨0, stop⟩⟩

def rehomedConfig : MatchConfig := ⟨1 / 2, 1, 1 / 20, 8⟩

def rehomedStop : PreviewStop := ⟨0, 4, 20, (0, 0), 0, some 0, .other, false, true⟩

theorem rehomedModel_inFileOrder : rehomedModel.InFileOrder := ⟨by decide, by decide⟩

/-- With a window to the end of the file the last deposition is a stop itself. -/
theorem buildPreview_lawful_rehomed : ∃ set,
    buildPreview rehomedModel (rehomedEvidence none) rehomedConfig none .default = .preview set ∧
      PreviewLaws rehomedModel (rehomedEvidence none) rehomedConfig none set := by
  have hset : buildPreview rehomedModel (rehomedEvidence none) rehomedConfig none .default =
      .preview ⟨[rehomedStop, ⟨1, 58, 67, (5, 0), 1, some 0, .other, false, true⟩], [0, 1], 0, 0, 1,
        none⟩ := by decide +kernel
  refine ⟨_, hset, (buildPreview_lawful_iff rehomedModel_inFileOrder hset).mpr
    ⟨by decide +kernel, ?_⟩⟩
  rintro ⟨-, -, hshort⟩
  exact absurd hshort (by decide +kernel)

/-- Where the window ends before the last deposition, the last anchor goes back to the line behind
the first stop, and what is already there is printed again. -/
theorem buildPreview_unlawful : ∃ set,
    buildPreview rehomedModel (rehomedEvidence (some 58)) rehomedConfig none .default =
        .preview set ∧
      ¬ PreviewLaws rehomedModel (rehomedEvidence (some 58)) rehomedConfig none set := by
  have hset : buildPreview rehomedModel (rehomedEvidence (some 58)) rehomedConfig none .default =
      .preview ⟨[rehomedStop], [0], 0, 0, 0, none⟩ := by decide +kernel
  exact ⟨_, hset, not_lawful_of_fallsShort rehomedModel_inFileOrder hset (by decide +kernel)
    ⟨rfl, by decide +kernel, by decide +kernel⟩⟩

end Claims

end DeadReckoning.Analyzer
