import DeadReckoning.Contact.Estimates
import DeadReckoning.Contact.Selection
import Mathlib.Data.Prod.Lex
import Mathlib.Order.OrderDual

/-! What the selection returns: every candidate passes all filters, the best ones are returned in
their order, and when it declines no first sample passes them. -/
namespace DeadReckoning.Contact
open Gcode (reals)
open Recovery (FeatureClass)
open OrderDual (toDual)

section Ranking

variable {α : Type} [LinearOrder α] {x y : α} {o : Ordering} {a b : Scored ℝ}

theorem compare_then_ne_gt : (compare x y).then o ≠ .gt ↔ x < y ∨ x = y ∧ o ≠ .gt := by
  rcases lt_trichotomy x y with h | h | h
  · simp [compare_lt_iff_lt.mpr h, h]
  · simp [h]
  · simp [compare_gt_iff_gt.mpr h, h.not_gt, h.ne']

theorem compare_ne_gt : compare x y ≠ .gt ↔ x ≤ y := compare_le_iff_le

/-- The class first, then the score, the distance from the crash and the length of the host, each
the greater the better, and then the place in the file. -/
def rankKey (a : Scored ℝ) : ℕ ×ₗ ℝᵒᵈ ×ₗ ℝᵒᵈ ×ₗ ℝᵒᵈ ×ₗ ℕ :=
  toLex (rankOf a.candidate.featureClass, toLex (toDual a.score,
    toLex (toDual a.candidate.distanceFromCrash, toLex (toDual a.candidate.hostLength,
      a.candidate.hostSpan.start))))

theorem rankCmp_ne_gt : rankCmp a b ≠ .gt ↔ rankKey a ≤ rankKey b := by
  simp only [rankCmp, compare_then_ne_gt, compare_ne_gt, rankKey, Prod.Lex.le_iff]
  simp only [ofLex_toLex, OrderDual.toDual_lt_toDual, EmbeddingLike.apply_eq_iff_eq]
  simp only [@eq_comm ℝ b.score, @eq_comm ℝ b.candidate.distanceFromCrash,
    @eq_comm ℝ b.candidate.hostLength]

/-- A list in the order of the keys, those with one key in the order in which they were. -/
structure Ranked (accepted sorted : List (Scored ℝ)) : Prop where
  perm : sorted.Perm accepted
  ordered : sorted.Pairwise fun a b => rankKey a ≤ rankKey b
  stable : ∀ l : List (Scored ℝ), l.Sublist accepted →
    (l.Pairwise fun a b => rankKey a ≤ rankKey b) → l.Sublist sorted

theorem ranked_sortBy (l : List (Scored ℝ)) : Ranked l (sortBy rankCmp l) := by
  have htotal : Std.Total fun a b : Scored ℝ => rankCmp a b ≠ .gt :=
    ⟨fun a b => (le_total (rankKey a) (rankKey b)).imp rankCmp_ne_gt.mpr rankCmp_ne_gt.mpr⟩
  have htrans : IsTrans (Scored ℝ) fun a b => rankCmp a b ≠ .gt :=
    ⟨fun a b c hab hbc =>
      rankCmp_ne_gt.mpr ((rankCmp_ne_gt.mp hab).trans (rankCmp_ne_gt.mp hbc))⟩
  refine ⟨List.perm_insertionSort _ l, ?_, fun c hc hsorted => ?_⟩
  · exact (List.pairwise_insertionSort _ l).imp fun hab => rankCmp_ne_gt.mp hab
  · exact List.sublist_insertionSort (hsorted.imp fun hab => rankCmp_ne_gt.mpr hab) hc

end Ranking

section Samples

variable {prev current : Layer ℝ} {crashXy p : Xy ℝ} {config : ContactConfig ℝ}
  {featureClass : FeatureClass} {seg : XySegment ℝ} {t : ℝ} {c : ProbeCandidate ℝ}

/-- A segment of an annotated path of a class that may be touched, long enough. -/
structure Host (prev : Layer ℝ) (config : ContactConfig ℝ) (featureClass : FeatureClass)
    (seg : XySegment ℝ) : Prop where
  annotated : ∃ path ∈ prev.paths, path.typeName.isSome = true ∧
    path.featureClass = featureClass ∧ seg ∈ path.segments
  eligible : probeEligible featureClass = true
  long : config.minSegmentLength ≤ seg.length reals

/-- Far enough from the crash, and on a bead of the layer to come. -/
structure Clears (current : Layer ℝ) (crashXy : Xy ℝ) (config : ContactConfig ℝ) (p : Xy ℝ) :
    Prop where
  far : config.exclusionRadius < Plane.dist p crashXy
  covered : ∃ seg ∈ current.segments, p ∈ Plane.capsule seg.start seg.stop config.coverageTolerance

/-- The sample of a segment at a parameter. -/
noncomputable def candidateAt (seg : XySegment ℝ) (featureClass : FeatureClass) (crashXy : Xy ℝ)
    (t : ℝ) : ProbeCandidate ℝ where
  point := seg.pointAt t
  z := seg.z
  featureClass := featureClass
  hostSpan := seg.span
  hostLength := seg.length reals
  distanceFromCrash := Plane.dist (seg.pointAt t) crashXy
  sampleT := t

/-- The first parameter at which the sample is far enough and covered. -/
def FirstClear (current : Layer ℝ) (crashXy : Xy ℝ) (config : ContactConfig ℝ) (seg : XySegment ℝ)
    (t : ℝ) : Prop :=
  ∃ before after, sampleTs = before ++ t :: after ∧ Clears current crashXy config (seg.pointAt t) ∧
    ∀ s ∈ before, ¬Clears current crashXy config (seg.pointAt s)

theorem FirstClear.mem (h : FirstClear current crashXy config seg t) : t ∈ (sampleTs : List ℝ) := by
  obtain ⟨before, after, hsplit, -, -⟩ := h
  rw [hsplit]
  simp

theorem FirstClear.clears (h : FirstClear current crashXy config seg t) :
    Clears current crashXy config (seg.pointAt t) := by
  obtain ⟨before, after, -, hclears, -⟩ := h
  exact hclears

theorem mem_consideredSegments :
    (featureClass, seg) ∈ consideredSegments reals prev config ↔
      Host prev config featureClass seg := by
  have hfinite : hostFinite reals seg = true := rfl
  simp only [consideredSegments, eligibleSegments, List.mem_filter, List.mem_flatMap, List.mem_map,
    Bool.and_eq_true, hfinite, Bool.not_true, Bool.false_or, Bool.not_eq_true',
    decide_eq_false_iff_not, not_lt, Prod.mk.injEq]
  constructor
  · rintro ⟨⟨path, ⟨hpath, hannotated, heligible⟩, seg, hseg, rfl, rfl⟩, hlong⟩
    exact ⟨⟨path, hpath, hannotated, rfl, hseg⟩, heligible, hlong⟩
  · rintro ⟨⟨path, hpath, hannotated, rfl, hseg⟩, heligible, hlong⟩
    exact ⟨⟨path, ⟨hpath, hannotated, heligible⟩, seg, hseg, rfl, rfl⟩, hlong⟩

theorem coveredBy_iff : coveredBy reals p current config.coverageTolerance = true ↔
    ∃ seg ∈ current.segments,
      p ∈ Plane.capsule seg.start seg.stop config.coverageTolerance := by
  simp only [coveredBy, List.any_eq_true, decide_eq_true_eq, pointSegDistance_le_iff]

theorem sampleAt_eq_some :
    sampleAt reals seg featureClass crashXy current config t = some c ↔
      Clears current crashXy config (seg.pointAt t) ∧
        c = candidateAt seg featureClass crashXy t := by
  unfold sampleAt
  dsimp only
  rw [pointDistance_reals]
  by_cases hfar : Plane.dist (seg.pointAt t) crashXy ≤ config.exclusionRadius
  · rw [if_pos hfar]
    refine iff_of_false (by simp) fun h => ?_
    exact absurd h.1.far hfar.not_gt
  · rw [if_neg hfar]
    by_cases hcovered : coveredBy reals (seg.pointAt t) current config.coverageTolerance = true
    · rw [hcovered]
      simp only [Bool.not_true, Bool.false_eq_true, if_false, Option.some.injEq]
      constructor
      · rintro rfl
        exact ⟨⟨not_le.mp hfar, coveredBy_iff.mp hcovered⟩, rfl⟩
      · rintro ⟨-, rfl⟩
        rfl
    · rw [if_pos (by simpa using hcovered)]
      refine iff_of_false (by simp) fun h => ?_
      exact hcovered (coveredBy_iff.mpr h.1.covered)

theorem sampleAt_eq_none (h : ¬Clears current crashXy config (seg.pointAt t)) :
    sampleAt reals seg featureClass crashXy current config t = none := by
  cases hsample : sampleAt reals seg featureClass crashXy current config t with
  | none => rfl
  | some c => exact absurd (sampleAt_eq_some.mp hsample).1 h

/-- A segment is sampled at the first parameter that clears. -/
theorem sampleSegment_eq_some :
    sampleSegment reals seg featureClass crashXy current config = some c ↔
      ∃ t, FirstClear current crashXy config seg t ∧
        c = candidateAt seg featureClass crashXy t := by
  rw [sampleSegment, List.findSome?_eq_some_iff]
  constructor
  · rintro ⟨before, t, after, hsplit, hsample, hnone⟩
    obtain ⟨hclears, rfl⟩ := sampleAt_eq_some.mp hsample
    refine ⟨t, ⟨before, after, hsplit, hclears, fun s hs hclear => ?_⟩, rfl⟩
    have hfound : sampleAt reals seg featureClass crashXy current config s = some _ :=
      sampleAt_eq_some.mpr ⟨hclear, rfl⟩
    rw [hnone s hs] at hfound
    cases hfound
  · rintro ⟨t, ⟨before, after, hsplit, hclears, hnone⟩, rfl⟩
    exact ⟨before, t, after, hsplit, sampleAt_eq_some.mpr ⟨hclears, rfl⟩,
      fun s hs => sampleAt_eq_none (hnone s hs)⟩

/-- A segment with a sample that clears has a first one. -/
theorem exists_firstClear (ht : t ∈ (sampleTs : List ℝ))
    (hclears : Clears current crashXy config (seg.pointAt t)) :
    ∃ s, FirstClear current crashXy config seg s := by
  have hsome : (sampleSegment reals seg .innerWall crashXy current config).isSome = true := by
    rw [sampleSegment, List.findSome?_isSome_iff]
    exact ⟨t, ht, by rw [sampleAt_eq_some.mpr ⟨hclears, rfl⟩]; rfl⟩
  obtain ⟨c, hc⟩ := Option.isSome_iff_exists.mp hsome
  obtain ⟨s, hs, -⟩ := sampleSegment_eq_some.mp hc
  exact ⟨s, hs⟩

theorem mem_sampledCandidates :
    c ∈ sampledCandidates reals prev current crashXy config ↔ ∃ featureClass seg t,
      Host prev config featureClass seg ∧ FirstClear current crashXy config seg t ∧
        c = candidateAt seg featureClass crashXy t := by
  rw [sampledCandidates, List.mem_filterMap]
  constructor
  · rintro ⟨⟨featureClass, seg⟩, hhost, hsample⟩
    obtain ⟨t, hfirst, rfl⟩ := sampleSegment_eq_some.mp hsample
    exact ⟨featureClass, seg, t, mem_consideredSegments.mp hhost, hfirst, rfl⟩
  · rintro ⟨featureClass, seg, t, hhost, hfirst, rfl⟩
    exact ⟨(featureClass, seg), mem_consideredSegments.mpr hhost,
      sampleSegment_eq_some.mpr ⟨t, hfirst, rfl⟩⟩

end Samples

section Assessed

variable {limits : Caps} {model : LayerModel ℝ} {config : ContactConfig ℝ} {topLayer k : ℕ}
  {top upper final shape : LayerShape ℝ} {footings out : List (Footing ℝ)} {a : StructuralAnalysis ℝ}
  {traces : List (FootprintTrace ℝ)} {bed : List (Island ℝ)}

theorem length_materialize {halfWidth : ℝ} {materialized : List (Island ℝ × Raster ℝ)}
    (h : materialize reals shape k halfWidth = some materialized) :
    materialized.length = shape.islandCount := by
  have hlength := (mapM_forall₂ h).length_eq
  rw [List.length_zipIdx] at hlength
  exact hlength.symm

theorem length_unresolvedTraces (count : ℕ) (status : TraceStatus ℝ) (reached : ℕ) :
    (unresolvedTraces count status reached).length = count := by
  rw [unresolvedTraces, List.length_map, List.length_range]

theorem length_descend
    (h : descend reals limits model config k upper footings = some (final, out)) :
    out.length = footings.length := by
  induction k generalizing upper footings with
  | zero =>
    obtain ⟨-, rfl⟩ := Prod.mk.inj (Option.some.inj h)
    rfl
  | succ k ih =>
    rw [Contact.descend] at h
    split at h
    · cases h
    · rw [ih h, stepDown, List.length_map]

/-- Every island has a trace. -/
theorem length_traceStack
    (h : traceStack reals limits model topLayer top config = some (traces, bed)) :
    traces.length = top.islandCount := by
  unfold traceStack at h
  extract_lets halfWidth at h
  split at h
  · obtain ⟨materialized, hmaterialized, hpair⟩ := Option.map_eq_some_iff.mp h
    obtain ⟨rfl, -⟩ := Prod.mk.inj hpair
    rw [List.length_map, length_materialize hmaterialized]
  · rename_i zeroZ missing _
    have hmissing : missing.length = top.islandCount := length_unresolvedTraces _ _ _
    clear_value zeroZ missing
    split at h
    · split at h
      · obtain ⟨rfl, -⟩ := Prod.mk.inj (Option.some.inj h)
        exact hmissing
      · rename_i final out hdescend
        obtain ⟨materialized, -, hpair⟩ := Option.map_eq_some_iff.mp h
        obtain ⟨rfl, -⟩ := Prod.mk.inj hpair
        rw [List.length_map, List.length_zipIdx, length_descend hdescend, List.length_map,
          List.length_range]
    · obtain ⟨rfl, -⟩ := Prod.mk.inj (Option.some.inj h)
      exact hmissing

/-- Every island of an analysis has a raster and a trace. -/
theorem build_lengths
    (h : StructuralAnalysis.build reals limits model topLayer config = some (.ok a)) :
    a.rasters.length = a.islands.length ∧ a.traces.length = a.islands.length := by
  unfold StructuralAnalysis.build at h
  split at h
  · cases h
  · split at h
    · cases h
    · obtain ⟨materialized, hmaterialized, h⟩ := Option.bind_eq_some_iff.mp h
      obtain ⟨⟨traces, bed⟩, hstack, h⟩ := Option.bind_eq_some_iff.mp h
      obtain rfl := Except.ok.inj (Option.some.inj h)
      dsimp only
      rw [List.length_map, List.length_map, length_materialize hmaterialized]
      exact ⟨rfl, length_traceStack hstack⟩

/-- The verdict on a point is safe. -/
def SafeAt (a : StructuralAnalysis ℝ) (mode : ContactMode ℝ) (p : Xy ℝ) : Prop :=
  ∃ v, a.assess reals p mode = some (.evaluated v) ∧ v.outcome = .safe

/-- A point can always be assessed. -/
theorem exists_assess
    (h : StructuralAnalysis.build reals limits model topLayer config = some (.ok a)) (p : Xy ℝ)
    (mode : ContactMode ℝ) : ∃ assessment, a.assess reals p mode = some assessment := by
  obtain ⟨hrasters, htraces⟩ := build_lengths h
  unfold StructuralAnalysis.assess
  split
  · exact ⟨_, rfl⟩
  · split
    · exact ⟨_, rfl⟩
    · split
      · rename_i index hat
        have hlt : index < a.islands.length := by
          unfold StructuralAnalysis.islandAt at hat
          split at hat
          · exact (List.findIdx?_eq_some_iff_getElem.mp hat).1
          · cases hat
        have hverdict : (a.verdict reals index p mode).isSome = true := by
          unfold StructuralAnalysis.verdict
          rw [List.getElem?_eq_getElem hlt, List.getElem?_eq_getElem (htraces.symm ▸ hlt),
            List.getElem?_eq_getElem (hrasters.symm ▸ hlt)]
          rfl
        obtain ⟨v, hv⟩ := Option.isSome_iff_exists.mp hverdict
        rw [hv]
        exact ⟨_, rfl⟩
      · split
        · exact ⟨_, rfl⟩
        · exact ⟨_, rfl⟩

/-- A candidate is classified by whether it is safe. -/
theorem classify_cases
    (h : StructuralAnalysis.build reals limits model topLayer config = some (.ok a))
    (c : ProbeCandidate ℝ) (mode : ContactMode ℝ) :
    (∃ v, classify reals a c mode = some (.ok v) ∧
        a.assess reals c.point mode = some (.evaluated v) ∧ v.outcome = .safe) ∨
      ∃ r, classify reals a c mode = some (.error r) ∧ ¬SafeAt a mode c.point := by
  obtain ⟨assessment, hassess⟩ := exists_assess h c.point mode
  unfold classify SafeAt
  rw [hassess]
  cases assessment with
  | evaluated v =>
    cases houtcome : v.outcome with
    | safe => exact .inl ⟨v, by simp [rejection, houtcome], rfl, houtcome⟩
    | notSafe primary =>
      refine .inr ⟨_, by simp only [Option.map_some, rejection, houtcome]; rfl, ?_⟩
      rintro ⟨v', hv', hsafe⟩
      obtain rfl := StructuralAssessment.evaluated.inj (Option.some.inj hv')
      rw [houtcome] at hsafe
      cases hsafe
  | offMaterial distance point island =>
    refine .inr ⟨_, rfl, ?_⟩
    rintro ⟨v, hv, -⟩
    cases hv
  | invalidPoint param =>
    refine .inr ⟨_, rfl, ?_⟩
    rintro ⟨v, hv, -⟩
    cases hv

end Assessed

section Parted

variable {limits : Caps} {model : LayerModel ℝ} {config : ContactConfig ℝ} {prevIndex : ℕ}
  {a : StructuralAnalysis ℝ} {mode : ContactMode ℝ} {c : ProbeCandidate ℝ} {x : Scored ℝ}

/-- A candidate with its verdict, when that is safe. -/
noncomputable def scoredOf (a : StructuralAnalysis ℝ) (mode : ContactMode ℝ)
    (c : ProbeCandidate ℝ) : Option (Scored ℝ) :=
  match a.assess reals c.point mode with
  | some (.evaluated v) => if v.outcome = .safe then some ⟨c, v.score, some v⟩ else none
  | _ => none

theorem scoredOf_eq_some : scoredOf a mode c = some x ↔
    ∃ v, a.assess reals c.point mode = some (.evaluated v) ∧ v.outcome = .safe ∧
      x = ⟨c, v.score, some v⟩ := by
  unfold scoredOf
  split
  · rename_i v hassess
    constructor
    · intro h
      split at h
      · exact ⟨v, hassess, ‹_›, (Option.some.inj h).symm⟩
      · cases h
    · rintro ⟨v', hv', hsafe, rfl⟩
      rw [hassess] at hv'
      obtain rfl := StructuralAssessment.evaluated.inj (Option.some.inj hv')
      rw [if_pos hsafe]
  · rename_i hnot
    refine iff_of_false (by simp) ?_
    rintro ⟨v, hv, -, -⟩
    exact hnot v hv

theorem partCandidate_spec (mode : ContactMode ℝ)
    (h : StructuralAnalysis.build reals limits model prevIndex config = some (.ok a))
    (s : Parting ℝ) (c : ProbeCandidate ℝ) : ∃ s', partCandidate reals a mode s c = some s' ∧
      s'.accepted = s.accepted ++ (scoredOf a mode c).toList := by
  unfold partCandidate
  rcases classify_cases h c mode with ⟨v, hclassify, hassess, hsafe⟩ | ⟨r, hclassify, hunsafe⟩
  · rw [hclassify]
    have hscored : scoredOf a mode c = some ⟨c, v.score, some v⟩ :=
      scoredOf_eq_some.mpr ⟨v, hassess, hsafe, rfl⟩
    rw [hscored]
    exact ⟨_, rfl, rfl⟩
  · rw [hclassify]
    have hscored : scoredOf a mode c = none := by
      cases hx : scoredOf a mode c with
      | none => rfl
      | some x =>
        obtain ⟨v, hassess, hsafe, -⟩ := scoredOf_eq_some.mp hx
        exact absurd ⟨v, hassess, hsafe⟩ hunsafe
    rw [hscored]
    exact ⟨_, rfl, (List.append_nil _).symm⟩

/-- All candidates are parted into those that are safe and the others. -/
theorem part_spec (mode : ContactMode ℝ) (sampled : List (ProbeCandidate ℝ))
    (h : StructuralAnalysis.build reals limits model prevIndex config = some (.ok a))
    (s : Parting ℝ) : ∃ s', sampled.foldlM (partCandidate reals a mode) s = some s' ∧
      s'.accepted = s.accepted ++ sampled.filterMap (scoredOf a mode) := by
  induction sampled generalizing s with
  | nil => exact ⟨s, rfl, (List.append_nil _).symm⟩
  | cons c sampled ih =>
    obtain ⟨s₁, hstep, haccepted₁⟩ := partCandidate_spec mode h s c
    obtain ⟨s₂, hrest, haccepted₂⟩ := ih s₁
    refine ⟨s₂, ?_, ?_⟩
    · rw [List.foldlM_cons, hstep]
      exact hrest
    · rw [haccepted₂, haccepted₁, List.append_assoc, List.filterMap_cons]
      cases scoredOf a mode c with
      | none => rfl
      | some x => rfl

/-- The structural stage declines when nothing is safe, and ranks what is. -/
theorem structuralSelection_spec
    (h : StructuralAnalysis.build reals limits model prevIndex config = some (.ok a))
    (sampled : List (ProbeCandidate ℝ)) : ∃ selection,
      structuralSelection reals limits model prevIndex sampled config = some (.ok selection) ∧
      ((sampled.filterMap (scoredOf a config.contactMode) = [] ∧
          ∃ n rejected required run, selection.outcome =
            .declined (.noStructurallySafePoint n rejected required run)) ∨
        sampled.filterMap (scoredOf a config.contactMode) ≠ [] ∧
        selection.outcome = .candidates (((sortBy rankCmp (sampled.filterMap
          (scoredOf a config.contactMode))).take config.maxCandidates).map Scored.candidate) ∧
        selection.verdicts = ((sortBy rankCmp (sampled.filterMap
          (scoredOf a config.contactMode))).take config.maxCandidates).filterMap
            Scored.verdict) := by
  obtain ⟨parted, hparted, haccepted⟩ := part_spec config.contactMode sampled h ⟨[], [], none⟩
  rw [List.nil_append] at haccepted
  unfold structuralSelection
  simp only [h, hparted, Option.bind_eq_bind, Option.bind_some, haccepted]
  cases hsafe : sampled.filterMap (scoredOf a config.contactMode) with
  | nil => exact ⟨_, rfl, .inl ⟨rfl, _, _, _, _, rfl⟩⟩
  | cons x rest => exact ⟨_, rfl, .inr ⟨List.cons_ne_nil x rest, rfl, rfl⟩⟩

end Parted

section Selected

variable {model : LayerModel ℝ} {config : ContactConfig ℝ} {prevIndex resumeLayer : ℕ}
  {prev current : Layer ℝ} {crashXy p : Xy ℝ} {a : StructuralAnalysis ℝ}
  {selection : ContactSelection ℝ}

/-- What comes before the sampling is in order. -/
structure Reached (model : LayerModel ℝ) (prevIndex : ℕ) (prev current : Layer ℝ) (crashXy : Xy ℝ)
    (config : ContactConfig ℝ) : Prop where
  valid : validate reals crashXy config = .ok ()
  prevLayer : model.layer prevIndex = some prev
  currentLayer : model.layer (prevIndex + 1) = some current
  annotated : model.annotated = true
  named : (prev.paths.any fun path => path.typeName.isSome) = true
  flat : ¬config.spiralThreshold ≤ model.spiralFraction

/-- A point passes all filters. -/
structure Passes (model : LayerModel ℝ) (prevIndex : ℕ) (current : Layer ℝ) (crashXy : Xy ℝ)
    (config : ContactConfig ℝ) (p : Xy ℝ) : Prop where
  clears : Clears current crashXy config p
  safe : config.structuralChecksEnabled = true → ∃ a,
    StructuralAnalysis.build reals caps model prevIndex config = some (.ok a) ∧
      SafeAt a config.contactMode p

/-- The candidates that are accepted, in the order of the file: the first sample of each segment
that clears, when it is safe. -/
def Accepted (model : LayerModel ℝ) (prevIndex : ℕ) (prev current : Layer ℝ) (crashXy : Xy ℝ)
    (config : ContactConfig ℝ) (accepted : List (Scored ℝ)) : Prop :=
  (config.structuralChecksEnabled = false ∧
      accepted = (sampledCandidates reals prev current crashXy config).map fun c => ⟨c, 0, none⟩) ∨
    config.structuralChecksEnabled = true ∧ ∃ a,
      StructuralAnalysis.build reals caps model prevIndex config = some (.ok a) ∧
      accepted = (sampledCandidates reals prev current crashXy config).filterMap
        (scoredOf a config.contactMode)

/-- What is returned is sound, the best of what is accepted, and complete. -/
structure Right (model : LayerModel ℝ) (prevIndex : ℕ) (prev current : Layer ℝ) (crashXy : Xy ℝ)
    (config : ContactConfig ℝ) (selection : ContactSelection ℝ) : Prop where
  sound : ∀ candidates, selection.outcome = .candidates candidates →
    ∀ (i : ℕ) (c : ProbeCandidate ℝ), candidates[i]? = some c →
      ∃ featureClass seg t, (Host prev config featureClass seg ∧ t ∈ sampleTs ∧
          c = candidateAt seg featureClass crashXy t) ∧
        Clears current crashXy config c.point ∧
        (config.structuralChecksEnabled = true → ∃ a v,
          StructuralAnalysis.build reals caps model prevIndex config = some (.ok a) ∧
          selection.verdicts[i]? = some v ∧
          a.assess reals c.point config.contactMode = some (.evaluated v) ∧ v.outcome = .safe)
  best : ∀ candidates, selection.outcome = .candidates candidates → ∃ accepted sorted,
    Accepted model prevIndex prev current crashXy config accepted ∧ Ranked accepted sorted ∧
      candidates = (sorted.take config.maxCandidates).map Scored.candidate
  complete : ((∃ n, selection.outcome = .declined (.noSafeZone n)) ∨
      ∃ n rejected required run, selection.outcome =
        .declined (.noStructurallySafePoint n rejected required run)) →
    ∀ featureClass seg t, Host prev config featureClass seg → t ∈ sampleTs →
      ¬Passes model prevIndex current crashXy config (seg.pointAt t)

/-- No first sample that clears is safe, and yet another one passes all filters. -/
structure Misses (model : LayerModel ℝ) (prevIndex : ℕ) (prev current : Layer ℝ) (crashXy : Xy ℝ)
    (config : ContactConfig ℝ) : Prop extends
    Reached model prevIndex prev current crashXy config where
  checked : config.structuralChecksEnabled = true
  firsts : ∀ featureClass seg t, Host prev config featureClass seg →
    FirstClear current crashXy config seg t →
    ¬Passes model prevIndex current crashXy config (seg.pointAt t)
  later : ∃ featureClass seg t, Host prev config featureClass seg ∧ t ∈ sampleTs ∧
    Passes model prevIndex current crashXy config (seg.pointAt t)

theorem sampledCandidates_ne_nil {featureClass : FeatureClass} {seg : XySegment ℝ} {t : ℝ}
    (hhost : Host prev config featureClass seg) (ht : t ∈ sampleTs)
    (hclears : Clears current crashXy config (seg.pointAt t)) :
    sampledCandidates reals prev current crashXy config ≠ [] := by
  obtain ⟨s, hfirst⟩ := exists_firstClear ht hclears
  exact List.ne_nil_of_mem (mem_sampledCandidates.mpr ⟨featureClass, seg, s, hhost, hfirst, rfl⟩)

theorem eligibleSegments_ne_nil
    (h : sampledCandidates reals prev current crashXy config ≠ []) :
    eligibleSegments prev ≠ [] := by
  intro hnone
  apply h
  rw [sampledCandidates, consideredSegments, hnone]
  rfl

/-- How the selection ends when it returns. -/
theorem select_cases (h : selectContactZoneDetailed reals caps model resumeLayer crashXy config =
      some (.ok selection)) :
    ∃ prevIndex prev current, resumeLayer = prevIndex + 1 ∧
      (model.layer prevIndex = some prev ∧ model.layer (prevIndex + 1) = some current) ∧
      ((∃ reason, selection.outcome = .declined reason ∧ (∀ n, reason ≠ .noSafeZone n) ∧
          ∀ n rejected required run, reason ≠
            .noStructurallySafePoint n rejected required run) ∨
        Reached model prevIndex prev current crashXy config ∧
          ((sampledCandidates reals prev current crashXy config = [] ∧
              ∃ n, selection.outcome = .declined (.noSafeZone n)) ∨
            (config.structuralChecksEnabled = false ∧ selection.outcome = .candidates
              (((sortBy rankCmp ((sampledCandidates reals prev current crashXy config).map
                fun c => (⟨c, 0, none⟩ : Scored ℝ))).take config.maxCandidates).map
                  Scored.candidate)) ∨
            config.structuralChecksEnabled = true ∧
              structuralSelection reals caps model prevIndex
                (sampledCandidates reals prev current crashXy config) config =
                  some (.ok selection))) := by
  unfold selectContactZoneDetailed at h
  split at h
  · cases h
  · rename_i hvalid
    split at h
    · cases h
    · rename_i prevIndex
      split at h
      · rename_i prev current hprev hcurrent
        refine ⟨prevIndex, prev, current, rfl, ⟨hprev, hcurrent⟩, ?_⟩
        by_cases hannotated : model.annotated = true
        case neg => simp [hannotated] at h
        by_cases hnamed : (prev.paths.any fun path => path.typeName.isSome) = true
        case neg => simp [hannotated, hnamed] at h
        by_cases hspiral : config.spiralThreshold ≤ model.spiralFraction
        · simp only [hannotated, hnamed, hspiral, Bool.not_true, Bool.false_eq_true, if_false,
            if_true, declined, Option.some.injEq, Except.ok.injEq] at h
          exact .inl ⟨.vaseMode model.spiralFraction, by rw [← h], by simp, by simp⟩
        by_cases heligible : (eligibleSegments prev).isEmpty = true
        · simp only [hannotated, hnamed, hspiral, heligible, Bool.not_true, Bool.false_eq_true,
            if_false, if_true, declined, Option.some.injEq, Except.ok.injEq] at h
          refine .inl ⟨_, by rw [← h], ?_, ?_⟩
          · intro n
            split <;> simp
          · intro n rejected required run
            split <;> simp
        have hreached : Reached model prevIndex prev current crashXy config :=
          ⟨hvalid, hprev, hcurrent, hannotated, hnamed, hspiral⟩
        refine .inr ⟨hreached, ?_⟩
        simp only [hannotated, hnamed, hspiral, heligible, Bool.not_true, Bool.false_eq_true,
          if_false, declined] at h
        split at h
        · rename_i hempty
          obtain rfl := Except.ok.inj (Option.some.inj h)
          exact .inl ⟨List.isEmpty_iff.mp hempty, _, rfl⟩
        · split at h
          · rename_i hunchecked
            obtain rfl := Except.ok.inj (Option.some.inj h)
            exact .inr (.inl ⟨by simpa using hunchecked, rfl⟩)
          · rename_i hchecked
            exact .inr (.inr ⟨by simpa using hchecked, h⟩)
      · cases h

theorem Reached.build (h : Reached model prevIndex prev current crashXy config) : ∃ a,
    StructuralAnalysis.build reals caps model prevIndex config = some (.ok a) := by
  obtain ⟨_, -, hvalid⟩ := Checks.bind_eq_ok.mp h.valid
  obtain ⟨a, -, hbuild, -⟩ := @exists_build caps model config prevIndex prev hvalid h.prevLayer
  exact ⟨a, hbuild⟩

/-- With a sample that clears, the selection comes to the structural stage. -/
theorem Reached.select_eq (h : Reached model prevIndex prev current crashXy config)
    (hsampled : sampledCandidates reals prev current crashXy config ≠ [])
    (hchecked : config.structuralChecksEnabled = true) :
    selectContactZoneDetailed reals caps model (prevIndex + 1) crashXy config =
      structuralSelection reals caps model prevIndex
        (sampledCandidates reals prev current crashXy config) config := by
  have hsome : (sampledCandidates reals prev current crashXy config).isEmpty = false :=
    List.isEmpty_eq_false_iff.mpr hsampled
  have heligible : (eligibleSegments prev).isEmpty = false :=
    List.isEmpty_eq_false_iff.mpr (eligibleSegments_ne_nil hsampled)
  have hflat := h.flat
  rw [selectContactZoneDetailed, h.valid]
  dsimp only
  rw [h.prevLayer, h.currentLayer]
  simp only [h.annotated, h.named, hflat, heligible, hsome, hchecked, Bool.not_true,
    Bool.false_eq_true, if_false]

theorem getElem?_filterMap_verdict {l : List (Scored ℝ)} (h : ∀ x ∈ l, x.verdict.isSome = true)
    (i : ℕ) : (l.filterMap Scored.verdict)[i]? = l[i]?.bind Scored.verdict := by
  induction l generalizing i with
  | nil => rfl
  | cons x l ih =>
    obtain ⟨v, hv⟩ := Option.isSome_iff_exists.mp (h x (by simp))
    rw [List.filterMap_cons_some hv]
    cases i with
    | zero => exact hv.symm
    | succ i => exact ih (fun y hy => h y (by simp [hy])) i

/-- What is returned of some accepted candidates is one of them. -/
theorem exists_of_returned {accepted : List (Scored ℝ)} {n i : ℕ} {c : ProbeCandidate ℝ}
    (h : (((sortBy rankCmp accepted).take n).map Scored.candidate)[i]? = some c) :
    ∃ x ∈ accepted, ((sortBy rankCmp accepted).take n)[i]? = some x ∧ x.candidate = c := by
  rw [List.getElem?_map] at h
  obtain ⟨x, hx, rfl⟩ := Option.map_eq_some_iff.mp h
  refine ⟨x, ?_, hx, rfl⟩
  exact (ranked_sortBy accepted).perm.mem_iff.mp (List.mem_of_mem_take (List.mem_of_getElem? hx))

/-- When the selection declines, only its reason can be wrong. -/
theorem right_of_declined {reason : DeclineReason ℝ}
    (houtcome : selection.outcome = .declined reason)
    (hcomplete : ((∃ n, reason = .noSafeZone n) ∨
        ∃ n rejected required run, reason = .noStructurallySafePoint n rejected required run) →
      ∀ featureClass seg t, Host prev config featureClass seg → t ∈ sampleTs →
        ¬Passes model prevIndex current crashXy config (seg.pointAt t)) :
    Right model prevIndex prev current crashXy config selection where
  sound candidates hcandidates := by
    rw [houtcome] at hcandidates
    cases hcandidates
  best candidates hcandidates := by
    rw [houtcome] at hcandidates
    cases hcandidates
  complete hdeclined := by
    rw [houtcome] at hdeclined
    exact hcomplete (by simpa only [ContactOutcome.declined.injEq] using hdeclined)

theorem right_unchecked (hunchecked : config.structuralChecksEnabled = false)
    (houtcome : selection.outcome = .candidates
      (((sortBy rankCmp ((sampledCandidates reals prev current crashXy config).map
        fun c => (⟨c, 0, none⟩ : Scored ℝ))).take config.maxCandidates).map Scored.candidate)) :
    Right model prevIndex prev current crashXy config selection where
  sound candidates hcandidates i c hc := by
    rw [houtcome] at hcandidates
    obtain rfl := ContactOutcome.candidates.inj hcandidates
    obtain ⟨x, hx, -, rfl⟩ := exists_of_returned hc
    obtain ⟨c, hsampled, rfl⟩ := List.mem_map.mp hx
    obtain ⟨featureClass, seg, t, hhost, hfirst, rfl⟩ := mem_sampledCandidates.mp hsampled
    refine ⟨featureClass, seg, t, ⟨hhost, hfirst.mem, rfl⟩, hfirst.clears, fun hchecked => ?_⟩
    rw [hunchecked] at hchecked
    cases hchecked
  best candidates hcandidates := by
    rw [houtcome] at hcandidates
    obtain rfl := ContactOutcome.candidates.inj hcandidates
    exact ⟨_, _, .inl ⟨hunchecked, rfl⟩, ranked_sortBy _, rfl⟩
  complete hdeclined := by
    rcases hdeclined with ⟨n, hn⟩ | ⟨n, rejected, required, run, hn⟩
    · rw [houtcome] at hn
      cases hn
    · rw [houtcome] at hn
      cases hn

/-- With nothing accepted no first sample passes. -/
theorem firsts_of_nil (hbuild : StructuralAnalysis.build reals caps model prevIndex config =
      some (.ok a)) (hchecked : config.structuralChecksEnabled = true) :
    (sampledCandidates reals prev current crashXy config).filterMap
        (scoredOf a config.contactMode) = [] ↔
      ∀ featureClass seg t, Host prev config featureClass seg →
        FirstClear current crashXy config seg t →
        ¬Passes model prevIndex current crashXy config (seg.pointAt t) := by
  rw [List.filterMap_eq_nil_iff]
  constructor
  · intro hnone featureClass seg t hhost hfirst hpasses
    obtain ⟨a', hbuild', v, hassess, hsafe⟩ := hpasses.safe hchecked
    obtain rfl := Except.ok.inj (Option.some.inj (hbuild.symm.trans hbuild'))
    have hscored := hnone _ (mem_sampledCandidates.mpr ⟨featureClass, seg, t, hhost, hfirst, rfl⟩)
    have hsome : scoredOf a config.contactMode (candidateAt seg featureClass crashXy t) = some _ :=
      scoredOf_eq_some.mpr ⟨v, hassess, hsafe, rfl⟩
    rw [hscored] at hsome
    cases hsome
  · intro hfirsts c hc
    obtain ⟨featureClass, seg, t, hhost, hfirst, rfl⟩ := mem_sampledCandidates.mp hc
    cases hscored : scoredOf a config.contactMode (candidateAt seg featureClass crashXy t) with
    | none => rfl
    | some x =>
      obtain ⟨v, hassess, hsafe, -⟩ := scoredOf_eq_some.mp hscored
      exact absurd ⟨hfirst.clears, fun _ => ⟨a, hbuild, v, hassess, hsafe⟩⟩
        (hfirsts featureClass seg t hhost hfirst)

theorem Reached.right_checked (h : Reached model prevIndex prev current crashXy config)
    (hchecked : config.structuralChecksEnabled = true)
    (hmisses : ¬Misses model prevIndex prev current crashXy config)
    (hselected : structuralSelection reals caps model prevIndex
      (sampledCandidates reals prev current crashXy config) config = some (.ok selection)) :
    Right model prevIndex prev current crashXy config selection := by
  obtain ⟨a, hbuild⟩ := h.build
  obtain ⟨selection', hselected', hspec⟩ := structuralSelection_spec hbuild
    (sampledCandidates reals prev current crashXy config)
  obtain rfl := Except.ok.inj (Option.some.inj (hselected.symm.trans hselected'))
  rcases hspec with ⟨hnil, n, rejected, required, run, houtcome⟩ | ⟨hsome, houtcome, hverdicts⟩
  · refine right_of_declined houtcome fun _ featureClass seg t hhost ht hpasses => ?_
    exact hmisses { h with
      checked := hchecked
      firsts := (firsts_of_nil hbuild hchecked).mp hnil
      later := ⟨featureClass, seg, t, hhost, ht, hpasses⟩ }
  · refine ⟨fun candidates hcandidates i c hc => ?_, fun candidates hcandidates => ?_,
      fun hdeclined => ?_⟩
    · rw [houtcome] at hcandidates
      obtain rfl := ContactOutcome.candidates.inj hcandidates
      obtain ⟨x, hx, hi, rfl⟩ := exists_of_returned hc
      obtain ⟨c, hsampled, hscored⟩ := List.mem_filterMap.mp hx
      obtain ⟨v, hassess, hsafe, rfl⟩ := scoredOf_eq_some.mp hscored
      obtain ⟨featureClass, seg, t, hhost, hfirst, rfl⟩ := mem_sampledCandidates.mp hsampled
      refine ⟨featureClass, seg, t, ⟨hhost, hfirst.mem, rfl⟩, hfirst.clears, fun _ => ?_⟩
      refine ⟨a, v, hbuild, ?_, hassess, hsafe⟩
      rw [hverdicts, getElem?_filterMap_verdict, hi]
      · rfl
      · intro y hy
        have hy' := (ranked_sortBy _).perm.mem_iff.mp (List.mem_of_mem_take hy)
        obtain ⟨c', -, hscored'⟩ := List.mem_filterMap.mp hy'
        obtain ⟨v', -, -, rfl⟩ := scoredOf_eq_some.mp hscored'
        rfl
    · rw [houtcome] at hcandidates
      obtain rfl := ContactOutcome.candidates.inj hcandidates
      exact ⟨_, _, .inr ⟨hchecked, a, hbuild, rfl⟩, ranked_sortBy _, rfl⟩
    · rcases hdeclined with ⟨n, hn⟩ | ⟨n, rejected, required, run, hn⟩
      · rw [houtcome] at hn
        cases hn
      · rw [houtcome] at hn
        cases hn

/-- What is returned is sound, ranked and complete, unless no first sample that clears is safe while
another one passes all filters. -/
theorem selectContactZone_right_iff (model : LayerModel ℝ) (resumeLayer : ℕ) (crashXy : Xy ℝ)
    (config : ContactConfig ℝ) :
    (∀ selection, selectContactZoneDetailed reals caps model resumeLayer crashXy config =
        some (.ok selection) →
      ∃ prevIndex prev current, resumeLayer = prevIndex + 1 ∧
        (model.layer prevIndex = some prev ∧ model.layer resumeLayer = some current) ∧
        Right model prevIndex prev current crashXy config selection) ↔
      ¬∃ prevIndex prev current, resumeLayer = prevIndex + 1 ∧
        Misses model prevIndex prev current crashXy config := by
  constructor
  · rintro hright ⟨prevIndex, prev, current, rfl, hmisses⟩
    obtain ⟨a, hbuild⟩ := hmisses.build
    obtain ⟨featureClass, seg, t, hhost, ht, hpasses⟩ := hmisses.later
    obtain ⟨selection, hselected, hspec⟩ := structuralSelection_spec hbuild
      (sampledCandidates reals prev current crashXy config)
    have hnil := (firsts_of_nil hbuild hmisses.checked).mpr hmisses.firsts
    rw [← hmisses.select_eq (sampledCandidates_ne_nil hhost ht hpasses.clears) hmisses.checked]
      at hselected
    obtain ⟨prevIndex', prev', current', heq, ⟨hprev, hcurrent⟩, hgood⟩ := hright selection hselected
    obtain rfl := Nat.succ.inj heq
    obtain rfl := Option.some.inj (hmisses.prevLayer.symm.trans hprev)
    obtain rfl := Option.some.inj (hmisses.currentLayer.symm.trans hcurrent)
    rcases hspec with ⟨-, hdeclined⟩ | ⟨hsome, -, -⟩
    · exact hgood.complete (.inr hdeclined) featureClass seg t hhost ht hpasses
    · exact hsome hnil
  · intro hmisses selection hselected
    obtain ⟨prevIndex, prev, current, rfl, hlayers, hcases⟩ := select_cases hselected
    refine ⟨prevIndex, prev, current, rfl, hlayers, ?_⟩
    rcases hcases with ⟨reason, houtcome, hzone, hpoint⟩ | ⟨hreached, ⟨hnil, n, houtcome⟩ |
      ⟨hunchecked, houtcome⟩ | ⟨hchecked, hstructural⟩⟩
    · refine right_of_declined houtcome fun hreason => ?_
      rcases hreason with ⟨n, hn⟩ | ⟨n, rejected, required, run, hn⟩
      · exact absurd hn (hzone n)
      · exact absurd hn (hpoint n rejected required run)
    · refine right_of_declined houtcome fun _ featureClass seg t hhost ht hpasses => ?_
      exact sampledCandidates_ne_nil hhost ht hpasses.clears hnil
    · exact right_unchecked hunchecked houtcome
    · exact hreached.right_checked hchecked
        (fun h => hmisses ⟨prevIndex, prev, current, rfl, h⟩) hstructural

end Selected

section Crossing

/-- A bead across the other one. -/
noncomputable def post : XySegment ℝ := ⟨(7 / 10, -1), (7 / 10, 1), 1 / 5, ⟨2, 3⟩⟩

/-- An inner wall of two millimetres, and an outer wall across it at the second parameter that is
tried. -/
noncomputable def crossLayer : Layer ℝ where
  index := 0
  z := 1 / 5
  paths := [⟨.innerWall, some (lit "Inner wall"), [strip 0 2]⟩,
    ⟨.outerWall, some (lit "Outer wall"), [post]⟩]
  extrusionMoves := 2
  spiralMoves := 0

noncomputable def crossModel : LayerModel ℝ where
  layers := [crossLayer, stripLayer 1 (2 / 5) [strip 0 2]]
  annotated := true

noncomputable def crossConfig : ContactConfig ℝ where
  exclusionRadius := 3
  minSegmentLength := 1
  coverageTolerance := 1 / 4
  maxCandidates := 5
  spiralThreshold := 1 / 2
  structuralChecksEnabled := true
  contactMode := .tap
  minBedContactArea := 1 / 100
  maxAspectRatio := 1000
  minEdgeMargin := 3 / 20
  minFeatureWidth := 1 / 2
  extrusionWidth := 3 / 5
  islandLinkTolerance := 4

theorem segments_crossLayer : crossLayer.segments = [strip 0 2, post] := by
  simp [Layer.segments, crossLayer]

theorem length_post : post.length reals = 2 := by
  have hsquare : ((7 / 10 : ℝ) - 7 / 10) * (7 / 10 - 7 / 10) + (1 - -1) * (1 - -1) = 2 * 2 := by
    norm_num
  simp only [XySegment.length, pointDistance, post, reals, hsquare]
  exact Real.sqrt_mul_self (by norm_num)

theorem length_cross {seg : XySegment ℝ} (hseg : seg ∈ [strip 0 2, post]) :
    seg.length reals = 2 := by
  simp only [List.mem_cons, List.not_mem_nil, or_false] at hseg
  rcases hseg with rfl | rfl
  · rw [length_strip (by norm_num), sub_zero]
  · exact length_post

theorem boxOf_crossLayer : boxOf crossLayer = ⟨(0, -1), (2, 1)⟩ := by
  rw [boxOf, segments_crossLayer]
  norm_num [boxAround, strip, post]

theorem oneIsland_cross : OneIsland caps 4 2 crossLayer := by
  have hsteps : ∀ seg ∈ [strip 0 2, post], sampleSteps reals caps 2 seg = 1 := by
    intro seg hseg
    have hceil : ⌈(2 : ℝ) / 2⌉ = 1 := by norm_num
    rw [sampleSteps, length_cross hseg, hceil]
    decide
  have htotal : ([strip 0 2, post].map (XySegment.length reals)).sum = 4 := by
    rw [List.map_cons, List.map_singleton, List.sum_cons, List.sum_singleton,
      length_cross (by simp), length_cross (by simp)]
    norm_num
  refine ⟨?_, ?_, ?_, ?_, fun i hi => ?_⟩
  · rw [segments_crossLayer]
    decide
  · rw [segments_crossLayer]
    decide
  · rw [segments_crossLayer]
    exact sampleSpacing_eq 4 htotal (by norm_num) (by norm_num [caps])
  · rw [segments_crossLayer, length_samplesWithOwner, List.map_cons, List.map_singleton,
      hsteps _ (by simp), hsteps _ (by simp)]
    decide
  · rw [segments_crossLayer] at hi ⊢
    have hi' : i = 0 ∨ i = 1 := by
      simp only [List.length_cons, List.length_nil] at hi
      omega
    rcases hi' with rfl | rfl
    · exact .refl 0
    · refine .rel _ _ ⟨(1, (7 / 10, -1)), ?_, (0, (0, 0)), ?_, rfl, rfl, ?_⟩
      · exact mem_samplesWithOwner.mpr ⟨post, rfl, start_mem_samplesOf _ _ _⟩
      · exact mem_samplesWithOwner.mpr ⟨strip 0 2, rfl, start_mem_samplesOf _ _ _⟩
      · have hsides := Plane.dist_le_add ((7 / 10 : ℝ), (-1 : ℝ)) (0, 0)
        norm_num [abs_of_neg] at hsides
        linarith

/-- The grid over the crossing. -/
noncomputable def crossGrid : Grid ℝ := ⟨(0 - 1 / 2, -1 - 1 / 2), 1 / 10, 30 + 1, 30 + 1⟩

theorem gridOver_cross : gridOver reals (0, -1) (2, 1) (3 / 10) = some crossGrid :=
  gridOver_tenth (by norm_num) (by norm_num) (by norm_num) (by norm_num) (by decide)

theorem inside_cross : ∀ seg ∈ [strip 0 2, post], Inside (0, -1) (2, 1) seg := by
  intro seg hseg
  simp only [List.mem_cons, List.not_mem_nil, or_false] at hseg
  rcases hseg with rfl | rfl
  · constructor <;> norm_num [strip]
  · constructor <;> norm_num [post]

theorem length_visits_cross {g : Grid ℝ} (hg : g.cell = 1 / 10) :
    (visits reals g (reachOf (3 / 10) g.cell) [strip 0 2, post]).length ≤ testBudget := by
  have hreach : reachOf (3 / 10) g.cell = 4 := by
    rw [hg]
    norm_num [reachOf]
  have hcount := @length_visits_le ℝ _ _ _ reals [strip 0 2, post] g 4 21 (by
    intro seg hseg
    refine length_places_le (n := 20) ?_
    rw [length_cross hseg, hg]
    norm_num)
  rw [hreach]
  exact hcount.trans (by decide)

theorem mem_capsule_post {x y r : ℝ} (hy : -1 ≤ y) (hy' : y ≤ 1) (hr : |x - 7 / 10| ≤ r) :
    (x, y) ∈ Plane.capsule post.start post.stop r := by
  refine ⟨(y + 1) / 2, ⟨by linarith, by linarith⟩, ?_⟩
  have hplace : Plane.lerp post.start post.stop ((y + 1) / 2) = (7 / 10, y) := by
    simp only [Plane.lerp, post]
    apply Prod.ext
    · ring
    · ring
  rw [hplace]
  have hsides := Plane.dist_le_add (x, y) (7 / 10, y)
  simp only [sub_self, abs_zero, add_zero] at hsides
  rw [abs_sub_comm] at hsides
  exact hsides.trans hr

/-- At least one cell of the crossing is counted. -/
theorem strictArea_cross_ge :
    1 / 100 ≤ (strictArea reals [strip 0 2, post] (0, -1) (2, 1) (3 / 10)).1 := by
  rw [@strictArea_tenth _ (0, -1) (2, 1) 28 28 (by rw [Int.ceil_eq_iff]; norm_num)
    (by rw [Int.ceil_eq_iff]; norm_num) (by decide) (by decide)]
  have hcount := @card_le_markTile [strip 0 2, post] (3 / 10)
    (strictRadius reals (3 / 10) (1 / 10)) ⟨((0 : ℝ) - 2 / 5, (-1 : ℝ) - 2 / 5), 1 / 10, 28, 28⟩
    {(8, 14)} (by norm_num) (by norm_num) (by norm_num) strictRadius_tenth.2
    (by norm_num [cellBudget]) (by norm_num [cellBudget])
    (by
      intro seg hseg
      rw [length_cross hseg]
      norm_num)
    (by
      intro seg hseg
      simp only [List.mem_cons, List.not_mem_nil, or_false] at hseg
      rcases hseg with rfl | rfl
      · norm_num [reachesTile, strip]
      · norm_num [reachesTile, post])
    (length_visits_cross rfl)
    (by
      intro c hc
      obtain rfl := Finset.mem_singleton.mp hc
      have hcenter : (⟨((0 : ℝ) - 2 / 5, (-1 : ℝ) - 2 / 5), 1 / 10, 28, 28⟩ : Grid ℝ).center
          (8 : ℕ) (14 : ℕ) = (9 / 20, 1 / 20) := by
        norm_num [Grid.center]
      rw [hcenter]
      refine ⟨by norm_num, strip 0 2, by simp, mem_capsule_strip (by norm_num) (by norm_num)
        (by norm_num) ?_⟩
      rw [abs_of_pos (by norm_num)]
      linarith [strictRadius_tenth.1])
  rw [Finset.card_singleton] at hcount
  have hcast : (1 : ℝ) ≤ ((markTile reals [strip 0 2, post]
      ⟨((0 : ℝ) - 2 / 5, (-1 : ℝ) - 2 / 5), 1 / 10, 28, 28⟩
      (strictRadius reals (3 / 10) (1 / 10)) (3 / 10) 0).1 : ℕ) := by
    exact_mod_cast hcount
  linarith

theorem center_crossGrid (a b : ℕ) : crossGrid.center a b =
    (-1 / 2 + ((a : ℝ) + 1 / 2) * (1 / 10), -3 / 2 + ((b : ℝ) + 1 / 2) * (1 / 10)) := by
  simp only [Grid.center, crossGrid, Int.cast_natCast]
  norm_num

theorem cellOf_middle : crossGrid.cellOf (1, 0) = (((15 : ℕ) : ℤ), ((15 : ℕ) : ℤ)) := by
  have hx : ⌊((1 : ℝ) - (0 - 1 / 2)) / (1 / 10)⌋ = 15 := by
    rw [Int.floor_eq_iff]
    norm_num
  have hy : ⌊((0 : ℝ) - (-1 - 1 / 2)) / (1 / 10)⌋ = 15 := by
    rw [Int.floor_eq_iff]
    norm_num
  rw [Grid.cellOf, crossGrid, hx, hy]
  decide

theorem cellOf_crossing : crossGrid.cellOf (7 / 10, 0) = (((12 : ℕ) : ℤ), ((15 : ℕ) : ℤ)) := by
  have hx : ⌊((7 / 10 : ℝ) - (0 - 1 / 2)) / (1 / 10)⌋ = 12 := by
    rw [Int.floor_eq_iff]
    norm_num
  have hy : ⌊((0 : ℝ) - (-1 - 1 / 2)) / (1 / 10)⌋ = 15 := by
    rw [Int.floor_eq_iff]
    norm_num
  rw [Grid.cellOf, crossGrid, hx, hy]
  decide

/-- Along the inner wall there is material. -/
theorem center_mem_cross {a : ℕ} (ha : 5 ≤ a ∧ a ≤ 24) :
    crossGrid.center a (15 : ℕ) ∈ material [strip 0 2, post] (3 / 10) := by
  have ha₁ : (5 : ℝ) ≤ a := by exact_mod_cast ha.1
  have ha₂ : (a : ℝ) ≤ 24 := by exact_mod_cast ha.2
  rw [center_crossGrid]
  refine ⟨strip 0 2, by simp, mem_capsule_strip (by linarith) (by linarith) (by norm_num) ?_⟩
  rw [abs_le]
  constructor <;> norm_num

theorem sqrt_two_bounds : 7 / 5 ≤ Real.sqrt 2 ∧ Real.sqrt 2 ≤ 17 / 12 := by
  constructor
  · rw [Real.le_sqrt (by norm_num) (by norm_num)]
    norm_num
  · rw [Real.sqrt_le_left (by norm_num)]
    norm_num

/-- In the middle of the inner wall there is nothing three cells aside. -/
theorem leftOut_aside : LeftOut [strip 0 2, post] (3 / 10) crossGrid 15 18 := by
  left
  have hplace : crossGrid.center ((15 : ℕ) : ℤ) ((18 : ℕ) : ℤ) = (21 / 20, 7 / 20) := by
    rw [center_crossGrid]
    norm_num
  rw [hplace]
  rintro ⟨seg, hseg, t, -, hle⟩
  simp only [List.mem_cons, List.not_mem_nil, or_false] at hseg
  rcases hseg with rfl | rfl
  · have hside := (Plane.abs_snd_le_dist _ _).trans hle
    norm_num [Plane.lerp, strip, abs_of_neg] at hside
  · have hside := (Plane.abs_fst_le_dist _ _).trans hle
    norm_num [Plane.lerp, post, abs_of_neg] at hside

/-- Around the crossing every cell that is as near as the margin asks is on one of the beads. -/
theorem not_leftOut_near {a b : ℕ}
    (hnear : Plane.dist (crossGrid.center ((12 : ℕ) : ℤ) ((15 : ℕ) : ℤ)) (crossGrid.center a b) ≤
      3 / 20 + 3 / 2 * Real.sqrt 2 * crossGrid.cell) :
    ¬LeftOut [strip 0 2, post] (3 / 10) crossGrid a b := by
  have hroot := sqrt_two_bounds.2
  have hcell : crossGrid.cell = 1 / 10 := rfl
  have hle : Plane.dist (crossGrid.center ((12 : ℕ) : ℤ) ((15 : ℕ) : ℤ)) (crossGrid.center a b) ≤
      73 / 200 := by
    rw [hcell] at hnear
    linarith
  rw [center_crossGrid, center_crossGrid] at hle
  have hx := (Plane.abs_fst_le_dist _ _).trans hle
  have hy := (Plane.abs_snd_le_dist _ _).trans hle
  rw [abs_le] at hx hy
  dsimp only at hx hy
  push_cast at hx hy
  have ha : 9 ≤ a ∧ a ≤ 15 := by
    have hlo : (8 : ℝ) < a := by linarith [hx.1]
    have hhi : (a : ℝ) < 16 := by linarith [hx.2]
    have hlo' : 8 < a := by exact_mod_cast hlo
    have hhi' : a < 16 := by exact_mod_cast hhi
    omega
  have hb : 12 ≤ b ∧ b ≤ 18 := by
    have hlo : (11 : ℝ) < b := by linarith [hy.1]
    have hhi : (b : ℝ) < 19 := by linarith [hy.2]
    have hlo' : 11 < b := by exact_mod_cast hlo
    have hhi' : b < 19 := by exact_mod_cast hhi
    omega
  have hcorner : a ≤ 14 ∨ b ≤ 17 := by
    by_contra hnot
    obtain rfl : a = 15 := by omega
    obtain rfl : b = 18 := by omega
    rw [Plane.dist_le_iff (by norm_num)] at hle
    norm_num at hle
  have ha₁ : (9 : ℝ) ≤ a := by exact_mod_cast ha.1
  have ha₂ : (a : ℝ) ≤ 15 := by exact_mod_cast ha.2
  have hb₁ : (12 : ℝ) ≤ b := by exact_mod_cast hb.1
  have hb₂ : (b : ℝ) ≤ 18 := by exact_mod_cast hb.2
  have hstopped : (fill reals crossGrid [strip 0 2, post] (3 / 10)).stopped = false :=
    fill_not_stopped crossGrid (3 / 10) (length_visits_cross rfl)
  rintro (houtside | ⟨hrun, -⟩)
  · apply houtside
    rw [center_crossGrid]
    rcases hcorner with hleft | hbelow
    · have ha₃ : (a : ℝ) ≤ 14 := by exact_mod_cast hleft
      refine ⟨post, by simp, mem_capsule_post (by linarith) (by linarith) ?_⟩
      rw [abs_le]
      constructor <;> linarith
    · have hb₃ : (b : ℝ) ≤ 17 := by exact_mod_cast hbelow
      refine ⟨strip 0 2, by simp, mem_capsule_strip (by linarith) (by linarith) (by norm_num) ?_⟩
      rw [abs_le]
      constructor <;> linarith
  · rw [hstopped] at hrun
    cases hrun

/-- The margin is too small in the middle of the inner wall, and large enough at the crossing. -/
theorem clearance_cross {r : Raster ℝ}
    (h : Raster.build reals [strip 0 2, post] (0, -1) (2, 1) (3 / 10) = some r) :
    r.clearanceAt reals (1, 0) < 3 / 20 ∧ 3 / 20 ≤ r.clearanceAt reals (7 / 10, 0) := by
  obtain ⟨r', hbuild, -, hclearance⟩ :=
    @build_eq_some [strip 0 2, post] (0, -1) (2, 1) (3 / 10) inside_cross
  obtain rfl := Option.some.inj (h.symm.trans hbuild)
  constructor
  · have hle : r.clearanceAt reals (1, 0) ≤ 9 / 100 := by
      rw [hclearance (1, 0) (9 / 100) (by norm_num)]
      intro g hg a ha b hb hcell
      obtain rfl := Option.some.inj (gridOver_cross.symm.trans hg)
      rw [cellOf_middle] at hcell
      obtain ⟨rfl, rfl⟩ : 15 = a ∧ 15 = b := by
        obtain ⟨h₁, h₂⟩ := Prod.mk.inj hcell
        exact ⟨by exact_mod_cast h₁, by exact_mod_cast h₂⟩
      refine ⟨15, by decide, 18, by decide, leftOut_aside, ?_⟩
      have hsides := Plane.dist_le_add (crossGrid.center ((15 : ℕ) : ℤ) ((15 : ℕ) : ℤ))
        (crossGrid.center ((15 : ℕ) : ℤ) ((18 : ℕ) : ℤ))
      have hroot := sqrt_two_bounds.1
      have hcell' : crossGrid.cell = 1 / 10 := rfl
      rw [hcell']
      rw [center_crossGrid, center_crossGrid] at hsides ⊢
      refine hsides.trans ?_
      norm_num [abs_of_pos]
      linarith
    linarith
  · by_contra hnot
    have hle : r.clearanceAt reals (7 / 10, 0) ≤ 3 / 20 := (not_le.mp hnot).le
    obtain ⟨a, -, b, -, hout, hnear⟩ := (hclearance (7 / 10, 0) (3 / 20) (by norm_num)).mp hle
      crossGrid gridOver_cross 12 (by decide) 15 (by decide) cellOf_crossing
    exact not_leftOut_near hnear hout

theorem validateConfig_cross : validateConfig reals crossConfig = .ok () := by
  norm_num [validateConfig, checkParam, checkMode, Checks.ensure, crossConfig, reals]
  rfl

/-- The analysis of the crossing, on the bed. -/
theorem build_cross : ∃ a island raster,
    StructuralAnalysis.build reals caps crossModel 0 crossConfig = some (.ok a) ∧
      (a.islands = [island] ∧ a.rasters = [raster] ∧ a.traces = [onBedTrace island]) ∧
      a.layerZ = 1 / 5 ∧ a.config = crossConfig ∧
      (island.index = 0 ∧ island.bbox = ⟨(0, -1), (2, 1)⟩ ∧ 1 / 100 ≤ island.area) ∧
      Raster.build reals [strip 0 2, post] (0, -1) (2, 1) (3 / 10) = some raster := by
  have hshape := single_of_oneIsland (by norm_num) oneIsland_cross
  have hhalf : crossConfig.extrusionWidth / 2 = 3 / 10 := by norm_num [crossConfig]
  have htolerance : crossConfig.islandLinkTolerance = 4 := rfl
  obtain ⟨island, raster, hisland, hraster, hbox, hindex, harea⟩ := hshape.materialize_eq 0 (3 / 10)
  have hboxOf := boxOf_crossLayer
  rw [boxOf] at hboxOf
  rw [hboxOf, segments_crossLayer] at hraster
  rw [hboxOf] at hbox
  have hgrid := hraster
  rw [Raster.build, gridOver_cross] at hgrid
  obtain ⟨clearance, -, hfields⟩ := Option.bind_eq_some_iff.mp hgrid
  have hlower : 1 / 100 ≤ island.area := by
    rw [harea, ← Option.some.inj hfields]
    exact strictArea_cross_ge
  have hstack : traceStack reals caps crossModel 0
      (LayerShape.build reals caps crossLayer 4) crossConfig =
        some ([onBedTrace island], [island]) := by
    rw [traceStack, hhalf]
    dsimp only
    rw [if_pos rfl, hisland]
    rfl
  refine ⟨{
    layer := 0
    layerZ := 1 / 5
    islands := [island]
    rasters := [raster]
    bedIslands := [island]
    traces := [onBedTrace island]
    samples := (LayerShape.build reals caps crossLayer 4).samples
    sampleIsland := (LayerShape.build reals caps crossLayer 4).sampleIsland
    config := crossConfig }, island, raster, ?_, ⟨rfl, rfl, rfl⟩, rfl, rfl,
    ⟨hindex, hbox, hlower⟩, hraster⟩
  have hlayer : crossModel.layer 0 = some crossLayer := rfl
  rw [StructuralAnalysis.build, validateConfig_cross, hlayer]
  simp only [htolerance, hhalf, hisland, hstack, Option.bind_eq_bind, Option.bind_some,
    List.map_singleton, Option.pure_def]
  rfl

/-- All that the verdict on the crossing depends on is the margin. -/
theorem safeAt_cross_iff {a : StructuralAnalysis ℝ} {island : Island ℝ} {raster : Raster ℝ}
    (hlists : a.islands = [island] ∧ a.rasters = [raster] ∧ a.traces = [onBedTrace island])
    (hz : a.layerZ = 1 / 5) (hconfig : a.config = crossConfig)
    (hisland : island.index = 0 ∧ island.bbox = ⟨(0, -1), (2, 1)⟩ ∧ 1 / 100 ≤ island.area)
    {p : Xy ℝ} (hp : (0 ≤ p.1 ∧ p.1 ≤ 2) ∧ p.2 = 0) (hmaterial : raster.isMaterial reals p = true) :
    SafeAt a .tap p ↔ 3 / 20 ≤ raster.clearanceAt reals p := by
  obtain ⟨hislands, hrasters, htraces⟩ := hlists
  obtain ⟨hindex, hbox, harea⟩ := hisland
  have hfinite : finitePoint reals p = true := rfl
  have hcontains : island.bbox.contains p a.config.extrusionWidth = true := by
    rw [hbox, hconfig, BoundingBox.contains, decide_eq_true_eq]
    norm_num [crossConfig, hp.2]
    constructor <;> linarith [hp.1.1, hp.1.2]
  have hat : a.islandAt reals p = some 0 := by
    rw [StructuralAnalysis.islandAt, if_pos hfinite, hislands, hrasters]
    simp [hindex, hcontains, hmaterial]
  obtain ⟨aspect, haspect⟩ : ∃ aspect,
      aspect = (1 / 5 : ℝ) / reals.sqrt (max island.area areaFloor) := ⟨_, rfl⟩
  have htips : aspect ≤ 1000 := by
    have hroot : 1 / 10 ≤ Real.sqrt (max island.area areaFloor) :=
      Real.le_sqrt_of_sq_le (le_max_of_le_left (by norm_num; exact harea))
    rw [haspect, show reals.sqrt = Real.sqrt from rfl, div_le_iff₀ (by linarith)]
    linarith
  obtain ⟨v, hv, hchecks⟩ : ∃ v, a.verdict reals 0 p .tap = some v ∧
      v.checks = [adhesionCheck island.area (1 / 100), tippingCheck aspect 1000,
        widthCheck 2 (1 / 2), marginCheck (raster.clearanceAt reals p) (3 / 20)] := by
    unfold StructuralAnalysis.verdict
    simp only [hislands, htraces, hrasters, List.getElem?_cons_zero, Option.bind_eq_bind,
      Option.bind_some]
    refine ⟨_, rfl, ?_⟩
    have hheight : max (finiteOr reals a.layerZ ((f64Max : ℕ) : ℝ)) 0 = 1 / 5 := by
      have hkeep (x y : ℝ) : finiteOr reals x y = x := if_pos rfl
      rw [hz, hkeep]
      exact max_eq_left (by norm_num)
    have hwidth : island.bbox.minDimension = 2 := by
      rw [hbox]
      norm_num [BoundingBox.minDimension, BoundingBox.width, BoundingBox.height]
    dsimp only
    rw [hheight, hwidth, hconfig, haspect]
    rfl
  have hassess : a.assess reals p .tap = some (.evaluated v) := by
    rw [StructuralAnalysis.assess, hfinite, hat]
    simp [invalidMode, hv]
  have houtcome : v.outcome = .safe ↔ 3 / 20 ≤ raster.clearanceAt reals p := by
    have hwide : (1 / 2 : ℝ) ≤ 2 := by norm_num
    rw [StructuralVerdict.outcome, hchecks]
    simp only [adhesionCheck, tippingCheck, widthCheck, marginCheck, List.find?_cons, harea, htips,
      hwide, decide_true, Bool.not_true]
    by_cases hmargin : 3 / 20 ≤ raster.clearanceAt reals p
    · simp [hmargin]
    · simp [hmargin]
  unfold SafeAt
  constructor
  · rintro ⟨v', hv', hsafe⟩
    obtain rfl := StructuralAssessment.evaluated.inj (Option.some.inj (hassess.symm.trans hv'))
    exact houtcome.mp hsafe
  · intro hmargin
    exact ⟨v, hassess, houtcome.mpr hmargin⟩

/-- Only the inner wall may be touched. -/
theorem host_cross_iff {featureClass : FeatureClass} {seg : XySegment ℝ} :
    Host crossLayer crossConfig featureClass seg ↔
      featureClass = .innerWall ∧ seg = strip 0 2 := by
  constructor
  · rintro ⟨⟨path, hpath, -, rfl, hseg⟩, heligible, -⟩
    simp only [crossLayer, List.mem_cons, List.not_mem_nil, or_false] at hpath
    rcases hpath with rfl | rfl
    · exact ⟨rfl, List.mem_singleton.mp hseg⟩
    · simp [probeEligible, probeRank] at heligible
  · rintro ⟨rfl, rfl⟩
    refine ⟨⟨_, List.mem_cons_self, rfl, rfl, List.mem_singleton.mpr rfl⟩, rfl, ?_⟩
    rw [length_strip (by norm_num)]
    norm_num [crossConfig]

/-- The whole inner wall is far from the crash, and there is a bead above it. -/
theorem clears_cross {x : ℝ} (hx : 0 ≤ x) (hx' : x ≤ 2) :
    Clears (stripLayer 1 (2 / 5) [strip 0 2]) (50, 0) crossConfig (x, 0) := by
  refine ⟨?_, strip 0 2, by simp, mem_capsule_strip hx hx' (by norm_num) ?_⟩
  · have hfar := Plane.abs_fst_le_dist (x, (0 : ℝ)) (50, 0)
    have hradius : crossConfig.exclusionRadius = 3 := rfl
    rw [abs_le] at hfar
    dsimp only at hfar
    linarith [hfar.1, hfar.2]
  · norm_num [crossConfig]

theorem pointAt_middle : (strip 0 2).pointAt (1 / 2) = (1, 0) := by
  norm_num [XySegment.pointAt, lerp2, strip]

theorem pointAt_crossing : (strip 0 2).pointAt (7 / 20) = (7 / 10, 0) := by
  norm_num [XySegment.pointAt, lerp2, strip]

theorem reached_cross :
    Reached crossModel 0 crossLayer (stripLayer 1 (2 / 5) [strip 0 2]) (50, 0) crossConfig where
  valid := validateConfig_cross
  prevLayer := rfl
  currentLayer := rfl
  annotated := rfl
  named := rfl
  flat := by
    norm_num [LayerModel.spiralFraction, crossModel, crossLayer, stripLayer, crossConfig, u32Max]

/-- The first sample of the inner wall is its middle, with too small a margin; further on, over the
crossing, there is a point that passes all filters, and yet the selection says that there is none. -/
theorem safe_point_missed : ∃ selection n rejected required run,
    selectContactZoneDetailed reals caps crossModel 1 (50, 0) crossConfig = some (.ok selection) ∧
      selection.outcome = .declined (.noStructurallySafePoint n rejected required run) ∧
      Host crossLayer crossConfig .innerWall (strip 0 2) ∧ (7 / 20 : ℝ) ∈ sampleTs ∧
      Passes crossModel 0 (stripLayer 1 (2 / 5) [strip 0 2]) (50, 0) crossConfig
        ((strip 0 2).pointAt (7 / 20)) := by
  obtain ⟨a, island, raster, hbuild, hlists, hz, hconfig, hisland, hraster⟩ := build_cross
  obtain ⟨hmiddle, hcrossing⟩ := clearance_cross hraster
  have hstopped : (fill reals crossGrid [strip 0 2, post] (3 / 10)).stopped = false :=
    fill_not_stopped crossGrid (3 / 10) (length_visits_cross rfl)
  have hmaterial_middle : raster.isMaterial reals (1, 0) = true :=
    isMaterial_of_center hraster gridOver_cross inside_cross hstopped (by decide) (by decide)
      cellOf_middle (center_mem_cross (by decide))
  have hmaterial_crossing : raster.isMaterial reals (7 / 10, 0) = true :=
    isMaterial_of_center hraster gridOver_cross inside_cross hstopped (by decide) (by decide)
      cellOf_crossing (center_mem_cross (by decide))
  have hmiddle_unsafe : ¬SafeAt a .tap (1, 0) := by
    rw [safeAt_cross_iff hlists hz hconfig hisland (by norm_num) hmaterial_middle]
    exact hmiddle.not_ge
  have hcrossing_safe : SafeAt a .tap (7 / 10, 0) := by
    rw [safeAt_cross_iff hlists hz hconfig hisland (by norm_num) hmaterial_crossing]
    exact hcrossing
  have hhost : Host crossLayer crossConfig .innerWall (strip 0 2) := host_cross_iff.mpr ⟨rfl, rfl⟩
  have hclears_middle := @clears_cross 1 (by norm_num) (by norm_num)
  have hclears_crossing := @clears_cross (7 / 10) (by norm_num) (by norm_num)
  have hmem : (7 / 20 : ℝ) ∈ sampleTs := by simp [sampleTs]
  rw [← pointAt_crossing] at hcrossing_safe hclears_crossing
  rw [← pointAt_middle] at hmiddle_unsafe hclears_middle
  -- The middle clears, so that it is the only sample of the wall that is assessed.
  have hfirsts : ∀ featureClass seg t, Host crossLayer crossConfig featureClass seg →
      FirstClear (stripLayer 1 (2 / 5) [strip 0 2]) (50, 0) crossConfig seg t →
      ¬Passes crossModel 0 (stripLayer 1 (2 / 5) [strip 0 2]) (50, 0) crossConfig
        (seg.pointAt t) := by
    rintro featureClass seg t hseg ⟨before, after, hsplit, -, hbefore⟩ hpasses
    obtain ⟨rfl, rfl⟩ := host_cross_iff.mp hseg
    obtain ⟨a', hbuild', hsafe⟩ := hpasses.safe rfl
    obtain rfl := Except.ok.inj (Option.some.inj (hbuild.symm.trans hbuild'))
    cases before with
    | nil =>
      obtain ⟨rfl, -⟩ := List.cons.inj hsplit
      exact hmiddle_unsafe hsafe
    | cons s before =>
      obtain ⟨rfl, -⟩ := List.cons.inj hsplit
      exact hbefore _ List.mem_cons_self hclears_middle
  have hnil := (firsts_of_nil hbuild rfl).mpr hfirsts
  obtain ⟨selection, hselected, hspec⟩ := structuralSelection_spec hbuild
    (sampledCandidates reals crossLayer (stripLayer 1 (2 / 5) [strip 0 2]) (50, 0) crossConfig)
  rw [← reached_cross.select_eq (sampledCandidates_ne_nil hhost hmem hclears_crossing) rfl]
    at hselected
  rcases hspec with ⟨-, n, rejected, required, run, houtcome⟩ | ⟨hsome, -, -⟩
  · exact ⟨selection, n, rejected, required, run, hselected, houtcome, hhost, hmem,
      hclears_crossing, fun _ => ⟨a, hbuild, hcrossing_safe⟩⟩
  · exact absurd hnil hsome

end Crossing

end DeadReckoning.Contact
