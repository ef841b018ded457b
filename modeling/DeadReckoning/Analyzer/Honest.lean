import DeadReckoning.Analyzer.Matcher
import Mathlib.Data.Prod.Lex
import Mathlib.Tactic.NormNum

/-! What a match promises: the line on which the machine stopped is among those it names, and the
list of lines is complete and in order. -/
namespace DeadReckoning.Analyzer
open Gcode (Axes Axis)
open Recovery (MatchConfidence)

section Statements

variable (model : LayerModel) (evidence : StopEvidence) (config : MatchConfig)

/-- The evidence allows the machine to be there. -/
structure AgreesAt (p : Axes ℚ) : Prop where
  x : evidence.x.min ≤ p.x ∧ p.x ≤ evidence.x.max
  y : evidence.y.min ≤ p.y ∧ p.y ≤ evidence.y.max
  e : ∀ i, evidence.e = some i → i.min ≤ p.e ∧ p.e ≤ i.max
  z : evidence.zCandidates ≠ [] → ∃ z ∈ evidence.zCandidates, |p.z - z| ≤ config.zTolerance

/-- The machine may have stopped on the move. -/
def StopsOn (m : SimMove) : Prop :=
  inWindow m evidence.window = true ∧ axesKnown m evidence = true ∧
    ∃ a b t, m.ends = some (a, b) ∧ 0 ≤ t ∧ t ≤ 1 ∧ AgreesAt evidence config (lerp a b t)

/-- A move that the matcher looks at, as a candidate. -/
def consider (m : SimMove) : Option MatchCandidate :=
  if inWindow m evidence.window && axesKnown m evidence then evaluate evidence config m else none

/-- The candidates of all moves, in the order of the moves. -/
def consistent : List MatchCandidate := model.moves.filterMap (consider evidence config)

/-- The order that is documented: the extruder first, then the distance, then the line. -/
def Precedes (a b : MatchCandidate) : Prop :=
  b.eAgreement < a.eAgreement ∨ (a.eAgreement = b.eAgreement ∧
    (a.xyDistanceSq < b.xyDistanceSq ∨
      (a.xyDistanceSq = b.xyDistanceSq ∧ a.offset < b.offset)))

def Names (m : SimMove) : MatchConfidence → Prop
  | .uniqueLine offset => offset = m.span.start
  | .ambiguousWindow offsets => m.span.start ∈ offsets
  | .layerOnly layer => m.layer = some layer

/-- Wherever the machine has stopped, the match finds the line and says nothing else. -/
structure Honest : Prop where
  found : ∀ m ∈ model.moves, StopsOn evidence config m →
    (∃ result, matchStopPoint model evidence config = .ok result ∧
      (∃ c ∈ result.candidates, c.offset = m.span.start) ∧ Names m result.confidence) ∨
    ∃ lines layers, matchStopPoint model evidence config = .error (.inconclusive lines layers)
  once : ((collectCandidates evidence config model).1.map (·.offset)).Nodup
  lines : ∀ offset, (∃ c ∈ (collectCandidates evidence config model).1, c.offset = offset) ↔
    ∃ m ∈ model.moves, (consider evidence config m).isSome = true ∧ m.span.start = offset
  ordered : (collectCandidates evidence config model).1.Pairwise Precedes
  chords : ∀ c ∈ (collectCandidates evidence config model).1,
    (∃ m ∈ model.moves, consider evidence config m = some c) ∧
    ∀ m ∈ model.moves, ∀ c', consider evidence config m = some c' → c'.offset = c.offset →
      ¬ Precedes c' c

/-- All that is consistent agrees equally well with the extruder. -/
def SameAgreement : Prop :=
  ∀ c ∈ consistent model evidence config, ∀ c' ∈ consistent model evidence config,
    c.eAgreement = c'.eAgreement

/-- The nearest chord of a line, the first of several as near. -/
def nearestChord (offset : ℕ) : Option MatchCandidate :=
  ((consistent model evidence config).filter (·.offset = offset)).argmin (·.xyDistanceSq)

/-- There are too many lines, their nearest chords are all in one layer, and yet the machine may
have stopped in another one. -/
def SplitLayer : Prop :=
  ∃ layer, config.ambiguityLimit <
      ((consistent model evidence config).map (·.offset)).dedup.length ∧
    (∀ c ∈ consistent model evidence config, ∃ nearest,
      nearestChord model evidence config c.offset = some nearest ∧ nearest.layer = some layer) ∧
    ∃ m ∈ model.moves, StopsOn evidence config m ∧ m.layer ≠ some layer

end Statements

section Evaluation

variable {evidence : StopEvidence} {config : MatchConfig} {m : SimMove} {c : MatchCandidate}

theorem evaluate_some (h : evaluate evidence config m = some c) :
    c.offset = m.span.start ∧ c.layer = m.layer := by
  unfold evaluate at h
  split at h
  · cases h
  split at h
  · cases h
  dsimp only at h
  split at h
  · cases h
  · obtain ⟨agreement, -, rfl⟩ := Option.map_eq_some_iff.mp h
    exact ⟨rfl, rfl⟩

theorem consider_some (h : consider evidence config m = some c) :
    c.offset = m.span.start ∧ c.layer = m.layer := by
  unfold consider at h
  split at h
  · exact evaluate_some h
  · cases h

/-- A number between two others is between the lesser and the greater of them. -/
theorem between_ends {u v t : ℚ} (ht : 0 ≤ t) (ht' : t ≤ 1) :
    min u v ≤ u + (v - u) * t ∧ u + (v - u) * t ≤ max u v := by
  rcases le_total u v with h | h
  · rw [min_eq_left h, max_eq_right h]
    constructor
    · nlinarith
    · nlinarith
  · rw [min_eq_right h, max_eq_left h]
    constructor
    · nlinarith
    · nlinarith

theorem matchesZ_of_agrees {a b : Axes ℚ} {t : ℚ} (ht : 0 ≤ t) (ht' : t ≤ 1)
    (h : AgreesAt evidence config (lerp a b t)) : matchesZ evidence config a b = true := by
  rw [matchesZ, Bool.or_eq_true]
  by_cases hempty : evidence.zCandidates = []
  · exact .inl (by rw [hempty]; rfl)
  · obtain ⟨z, hz, hnear⟩ := h.z hempty
    obtain ⟨hlo, hhi⟩ := @between_ends a.z b.z t ht ht'
    obtain ⟨hbelow, habove⟩ := abs_le.mp hnear
    simp only [lerp] at hbelow habove
    refine .inr (List.any_eq_true.mpr ⟨z, hz, decide_eq_true ⟨?_, ?_⟩⟩)
    · linarith
    · linarith

/-- Where the extruder is inside the evidence, nothing is missing. -/
theorem eAgreementOf_of_agrees {a b : Axes ℚ} {t : ℚ} (ht : 0 ≤ t) (ht' : t ≤ 1)
    (htolerance : 0 ≤ config.eTolerance) (h : AgreesAt evidence config (lerp a b t)) :
    eAgreementOf evidence config a b = some 1 := by
  unfold eAgreementOf
  split
  · rfl
  · rename_i i hi
    obtain ⟨hmin, hmax⟩ := h.e i hi
    obtain ⟨hlo, hhi⟩ := @between_ends a.e b.e t ht ht'
    simp only [lerp] at hmin hmax
    have hgap : i.gapToRange (min a.e b.e) (max a.e b.e) = 0 := by
      rw [Interval.gapToRange, if_neg (not_lt.mpr (hmin.trans hhi)),
        if_neg (not_lt.mpr (hlo.trans hmax))]
    simp only [hgap]
    rw [if_neg (not_lt.mpr htolerance), if_pos le_rfl]

/-- Where the machine may have stopped there is a candidate. -/
theorem consider_of_stopsOn (htolerance : 0 ≤ config.eTolerance)
    (h : StopsOn evidence config m) :
    ∃ c, consider evidence config m = some c ∧ c.offset = m.span.start := by
  obtain ⟨hwindow, hknown, a, b, t, hends, ht, ht', hagrees⟩ := h
  have hbox : pointInBox (lerp2 (a.x, a.y) (b.x, b.y) t) evidence.boxLo evidence.boxHi = true :=
    pointInBox_iff.mpr ⟨hagrees.x, hagrees.y⟩
  have hzero := segBoxDistanceSq_eq_zero ht ht' hbox
  have hnear : ¬ config.xyTolerance * config.xyTolerance < 0 := not_lt.mpr (mul_self_nonneg _)
  have hevaluate : ∃ c, evaluate evidence config m = some c := by
    rw [evaluate, hends]
    simp only [matchesZ_of_agrees ht ht' hagrees, hzero,
      eAgreementOf_of_agrees ht ht' htolerance hagrees]
    rw [if_neg (by simp), if_neg hnear]
    exact ⟨_, rfl⟩
  obtain ⟨c, hc⟩ := hevaluate
  refine ⟨c, ?_, (evaluate_some hc).1⟩
  rw [consider, hwindow, hknown]
  exact hc

end Evaluation

section Collection

variable {model : LayerModel} {evidence : StopEvidence} {config : MatchConfig}

/-- What the comparison of the code compares: the extruder ascending, the distance, the line. -/
def rank (c : MatchCandidate) : ℚ ×ₗ ℚ ×ₗ ℕ :=
  toLex (c.eAgreement, toLex (c.xyDistanceSq, c.offset))

theorem rank_lt {a b : MatchCandidate} : rank a < rank b ↔
    a.eAgreement < b.eAgreement ∨ (a.eAgreement = b.eAgreement ∧
      (a.xyDistanceSq < b.xyDistanceSq ∨
        (a.xyDistanceSq = b.xyDistanceSq ∧ a.offset < b.offset))) := by
  simp only [rank, Prod.Lex.toLex_lt_toLex]

theorem ranksBetter_iff (a b : MatchCandidate) : ranksBetter a b = true ↔ rank a < rank b := by
  rw [rank_lt, ranksBetter]
  rcases lt_trichotomy b.eAgreement a.eAgreement with he | he | he
  · simp [compare_lt_iff_lt.mpr he, he.not_gt, he.ne']
  · simp only [he, lt_irrefl, false_or, true_and]
    rcases lt_trichotomy a.xyDistanceSq b.xyDistanceSq with hd | hd | hd
    · simp [compare_lt_iff_lt.mpr hd, hd]
    · simp [hd]
    · simp [compare_gt_iff_gt.mpr hd, hd.not_gt, hd.ne']
  · simp [compare_gt_iff_gt.mpr he, he]

theorem foldl_collectStep (moves : List SimMove) (row : List MatchCandidate) (skipped : ℕ) :
    (moves.foldl (collectStep evidence config) (row, skipped)).1 =
      (moves.filterMap (consider evidence config)).foldl
        (fun row c => Collapse.upsert (·.offset) ranksBetter c row) row := by
  induction moves generalizing row skipped with
  | nil => rfl
  | cons m moves ih =>
    rw [List.foldl_cons, collectStep]
    by_cases hwindow : inWindow m evidence.window = true
    · rw [if_neg (by simp [hwindow])]
      by_cases hknown : axesKnown m evidence = true
      · rw [if_neg (by simp [hknown])]
        have hconsider : consider evidence config m = evaluate evidence config m := by
          rw [consider, hwindow, hknown]
          rfl
        rw [← hconsider]
        cases hc : consider evidence config m with
        | none =>
          rw [List.filterMap_cons_none hc]
          exact ih row skipped
        | some c =>
          rw [List.filterMap_cons_some hc]
          exact ih _ skipped
      · rw [if_pos (by simp [hknown])]
        have hc : consider evidence config m = none := by simp [consider, hknown]
        rw [List.filterMap_cons_none hc]
        exact ih row _
    · rw [if_pos (by simp [hwindow])]
      have hc : consider evidence config m = none := by simp [consider, hwindow]
      rw [List.filterMap_cons_none hc]
      exact ih row skipped

theorem collectCandidates_eq : (collectCandidates evidence config model).1 =
    Collapse.ranked ranksBetter
      (Collapse.collapse (·.offset) ranksBetter (consistent model evidence config)) := by
  show Collapse.ranked ranksBetter (model.moves.foldl (collectStep evidence config) ([], 0)).1 = _
  rw [foldl_collectStep]
  rfl

theorem mem_collectCandidates {c : MatchCandidate} :
    c ∈ (collectCandidates evidence config model).1 ↔
      ((consistent model evidence config).filter (·.offset = c.offset)).argmin rank = some c := by
  rw [collectCandidates_eq, (Collapse.ranked_perm _).mem_iff, Collapse.mem_collapse ranksBetter_iff]

theorem mem_consistent {c : MatchCandidate} : c ∈ consistent model evidence config ↔
    ∃ m ∈ model.moves, consider evidence config m = some c :=
  List.mem_filterMap

theorem collected_consistent {c : MatchCandidate}
    (h : c ∈ (collectCandidates evidence config model).1) :
    c ∈ consistent model evidence config :=
  (List.mem_filter.mp (List.argmin_mem (mem_collectCandidates.mp h))).1

/-- No consistent chord of its line ranks better than the one that is kept. -/
theorem rank_le_of_collected {c c' : MatchCandidate}
    (h : c ∈ (collectCandidates evidence config model).1)
    (hc' : c' ∈ consistent model evidence config) (hline : c'.offset = c.offset) :
    rank c ≤ rank c' := by
  have hmem : c' ∈ (consistent model evidence config).filter (·.offset = c.offset) :=
    List.mem_filter.mpr ⟨hc', decide_eq_true hline⟩
  exact List.le_of_mem_argmin hmem (mem_collectCandidates.mp h)

theorem exists_collected {offset : ℕ} :
    (∃ c ∈ (collectCandidates evidence config model).1, c.offset = offset) ↔
      ∃ c ∈ consistent model evidence config, c.offset = offset := by
  have hmem (c : MatchCandidate) : c ∈ (collectCandidates evidence config model).1 ↔
      c ∈ Collapse.collapse (·.offset) ranksBetter (consistent model evidence config) := by
    rw [collectCandidates_eq]
    exact (Collapse.ranked_perm _).mem_iff
  simp only [hmem]
  exact Collapse.key_mem_collapse ranksBetter_iff

theorem collectCandidates_nodup :
    ((collectCandidates evidence config model).1.map (·.offset)).Nodup := by
  have hsorted : (Collapse.collapse (·.offset) ranksBetter
      (consistent model evidence config)).Pairwise (·.offset < ·.offset) :=
    Collapse.collapse_sorted _
  rw [collectCandidates_eq, ((Collapse.ranked_perm _).map _).nodup_iff, List.Nodup,
    List.pairwise_map]
  exact hsorted.imp ne_of_lt

theorem collectCandidates_ranked :
    (collectCandidates evidence config model).1.Pairwise (rank · ≤ rank ·) := by
  rw [collectCandidates_eq]
  exact Collapse.ranked_pairwise ranksBetter_iff _

/-- There are as many candidates as there are lines with a consistent move. -/
theorem collectCandidates_length : (collectCandidates evidence config model).1.length =
    ((consistent model evidence config).map (·.offset)).dedup.length := by
  have hperm : ((collectCandidates evidence config model).1.map (·.offset)).Perm
      ((consistent model evidence config).map (·.offset)).dedup := by
    refine (List.perm_ext_iff_of_nodup collectCandidates_nodup (List.nodup_dedup _)).mpr ?_
    intro offset
    rw [List.mem_dedup, List.mem_map, List.mem_map]
    exact exists_collected
  rw [← hperm.length_eq, List.length_map]

end Collection

section Layers

variable {model : LayerModel} {evidence : StopEvidence} {config : MatchConfig}
  {candidates : List MatchCandidate} {m : SimMove}

theorem layersOf_snoc (candidates : List MatchCandidate) (c : MatchCandidate) :
    layersOf (candidates ++ [c]) = match c.layer with
      | some layer => if layer ∈ layersOf candidates then layersOf candidates
          else layersOf candidates ++ [layer]
      | none => layersOf candidates := by
  rw [layersOf, List.foldl_append]
  rfl

theorem layersOf_nodup (candidates : List MatchCandidate) : (layersOf candidates).Nodup := by
  induction candidates using List.reverseRecOn with
  | nil => exact List.nodup_nil
  | append_singleton candidates c ih =>
    rw [layersOf_snoc]
    split
    · split
      · exact ih
      · rename_i hnew
        rw [← List.concat_eq_append]
        exact List.Nodup.concat hnew ih
    · exact ih

theorem mem_layersOf {layer : ℕ} :
    layer ∈ layersOf candidates ↔ ∃ c ∈ candidates, c.layer = some layer := by
  induction candidates using List.reverseRecOn with
  | nil => simp [layersOf]
  | append_singleton candidates c ih =>
    have hsplit : (∃ d ∈ candidates ++ [c], d.layer = some layer) ↔
        layer ∈ layersOf candidates ∨ c.layer = some layer := by
      rw [ih]
      simp [or_and_right, exists_or]
    rw [hsplit, layersOf_snoc]
    cases hc : c.layer with
    | none => simp
    | some l =>
      dsimp only
      split
      · rename_i hl
        simp only [Option.some.injEq]
        exact ⟨.inl, fun h => h.elim id fun h => h ▸ hl⟩
      · simp [eq_comm]

/-- All candidates are in the one layer. -/
theorem single_layer_iff (hne : candidates ≠ []) {layer : ℕ} :
    ((layersOf candidates).insertionSort (· ≤ ·) = [layer] ∧
        candidates.any (·.layer.isNone) = false) ↔
      ∀ c ∈ candidates, c.layer = some layer := by
  have hsort := List.perm_insertionSort (· ≤ ·) (layersOf candidates)
  constructor
  · rintro ⟨hlayers, hnone⟩ c hc
    obtain ⟨l, hl⟩ : ∃ l, c.layer = some l := by
      rw [← Option.isSome_iff_exists, Option.isSome_iff_ne_none]
      intro hc'
      have hany : candidates.any (·.layer.isNone) = true :=
        List.any_eq_true.mpr ⟨c, hc, by rw [hc']; rfl⟩
      rw [hnone] at hany
      cases hany
    have hmem : l ∈ (layersOf candidates).insertionSort (· ≤ ·) :=
      hsort.mem_iff.mpr (mem_layersOf.mpr ⟨c, hc, hl⟩)
    rw [hlayers, List.mem_singleton] at hmem
    rw [hl, hmem]
  · intro hall
    constructor
    · refine List.perm_singleton.mp (hsort.trans ?_)
      refine (List.perm_ext_iff_of_nodup (layersOf_nodup _) (List.nodup_singleton _)).mpr ?_
      intro l
      rw [mem_layersOf, List.mem_singleton]
      constructor
      · rintro ⟨c, hc, hl⟩
        exact Option.some.inj (hl.symm.trans (hall c hc))
      · rintro rfl
        obtain ⟨c, hc⟩ := List.exists_mem_of_ne_nil _ hne
        exact ⟨c, hc, hall c hc⟩
    · rw [List.any_eq_false]
      intro c hc
      rw [hall c hc]
      exact Bool.false_ne_true

/-- What the ladder says of a list that has the line of a move: its line, or its layer when that
is the layer of all. -/
theorem confidenceOf_names {c : MatchCandidate} (hc : c ∈ candidates)
    (hline : c.offset = m.span.start)
    (hlayer : ∀ layer, config.ambiguityLimit < candidates.length →
      (∀ c ∈ candidates, c.layer = some layer) → m.layer = some layer) :
    (∃ confidence, confidenceOf evidence config model candidates = .ok confidence ∧
      Names m confidence) ∨
    ∃ lines layers, confidenceOf evidence config model candidates =
      .error (.inconclusive lines layers) := by
  have hne : candidates ≠ [] := List.ne_nil_of_mem hc
  unfold confidenceOf
  split
  · cases hc
  · obtain rfl := List.mem_singleton.mp hc
    exact .inl ⟨_, rfl, hline⟩
  · split
    · refine .inl ⟨_, rfl, ?_⟩
      show m.span.start ∈ _
      rw [List.mem_insertionSort, ← hline]
      exact List.mem_map_of_mem hc
    · rename_i hlimit
      dsimp only
      split
      · rename_i layer hlayers hany
        have hall := (single_layer_iff hne).mp ⟨hlayers, hany⟩
        exact .inl ⟨_, rfl, hlayer layer (not_le.mp hlimit) hall⟩
      · exact .inr ⟨_, _, rfl⟩

/-- Too many lines that are all in one layer give that layer. -/
theorem confidenceOf_layer {layer : ℕ} (hlimit : config.ambiguityLimit ≠ 0)
    (hlong : config.ambiguityLimit < candidates.length)
    (hall : ∀ c ∈ candidates, c.layer = some layer) :
    confidenceOf evidence config model candidates = .ok (.layerOnly layer) := by
  unfold confidenceOf
  split
  · cases hlong
  · rw [List.length_singleton] at hlong
    omega
  · rename_i hnil _
    obtain ⟨hlayers, hany⟩ := (single_layer_iff hnil).mpr hall
    rw [if_neg (not_le.mpr hlong), hlayers, hany]

end Layers

section Claims

variable {model : LayerModel} {evidence : StopEvidence} {config : MatchConfig}

theorem argmin_congr {α β γ : Type} [LinearOrder β] [LinearOrder γ] {f : α → β} {g : α → γ}
    {l : List α} (h : ∀ a ∈ l, ∀ b ∈ l, f a < f b ↔ g a < g b) : l.argmin f = l.argmin g := by
  induction l using List.reverseRecOn with
  | nil => rfl
  | append_singleton l a ih =>
    have hl := ih fun b hb c hc => h b (List.mem_append_left _ hb) c (List.mem_append_left _ hc)
    rw [List.argmin_concat, List.argmin_concat, hl]
    cases hmin : l.argmin g with
    | none => rfl
    | some b =>
      have hb : b ∈ l ++ [a] := List.mem_append_left _ (List.argmin_mem hmin)
      simp only [h a (by simp) b hb]

/-- Under one agreement the comparison of the code is the documented one. -/
theorem rank_lt_iff_precedes (hsame : SameAgreement model evidence config) {a b : MatchCandidate}
    (ha : a ∈ consistent model evidence config) (hb : b ∈ consistent model evidence config) :
    rank a < rank b ↔ Precedes a b := by
  rw [rank_lt, Precedes, hsame a ha b hb]

/-- Under one agreement the chord that is kept is the nearest one. -/
theorem mem_collect_iff_nearest (hsame : SameAgreement model evidence config)
    {c : MatchCandidate} : c ∈ (collectCandidates evidence config model).1 ↔
      nearestChord model evidence config c.offset = some c := by
  have hargmin : ((consistent model evidence config).filter (·.offset = c.offset)).argmin rank =
      ((consistent model evidence config).filter (·.offset = c.offset)).argmin
        (·.xyDistanceSq) := by
    apply argmin_congr
    intro a ha b hb
    obtain ⟨ha, haline⟩ := List.mem_filter.mp ha
    obtain ⟨hb, hbline⟩ := List.mem_filter.mp hb
    have hline : a.offset = b.offset :=
      (of_decide_eq_true haline).trans (of_decide_eq_true hbline).symm
    simp [rank_lt, hsame a ha b hb, hline]
  rw [mem_collectCandidates, nearestChord, hargmin]

theorem sameAgreement_of_honest (h : Honest model evidence config) :
    SameAgreement model evidence config := by
  -- Each consistent move agrees as the chord that is kept of its line.
  have hkept : ∀ c ∈ consistent model evidence config,
      ∃ k ∈ (collectCandidates evidence config model).1, k.eAgreement = c.eAgreement := by
    intro c hc
    obtain ⟨k, hk, hline⟩ := exists_collected.mpr ⟨c, hc, rfl⟩
    obtain ⟨m, hm, hconsider⟩ := mem_consistent.mp hc
    have hbest := (h.chords k hk).2 m hm c hconsider hline.symm
    have hworst := rank_le_of_collected hk hc hline.symm
    refine ⟨k, hk, le_antisymm ?_ ?_⟩
    · by_contra hlt
      exact absurd (rank_lt.mpr (.inl (not_le.mp hlt))) (not_lt.mpr hworst)
    · by_contra hlt
      exact hbest (.inl (not_le.mp hlt))
  have hall : ∀ a ∈ (collectCandidates evidence config model).1,
      ∀ b ∈ (collectCandidates evidence config model).1, a.eAgreement = b.eAgreement := by
    have hpairs := h.ordered.and (@collectCandidates_ranked model evidence config)
    have hequal : (collectCandidates evidence config model).1.Pairwise
        (·.eAgreement = ·.eAgreement) := by
      refine hpairs.imp ?_
      rintro a b ⟨hprecedes, hrank⟩
      apply le_antisymm
      · by_contra hlt
        exact absurd (rank_lt.mpr (.inl (not_le.mp hlt))) (not_lt.mpr hrank)
      · rcases hprecedes with hlt | ⟨heq, -⟩
        · exact hlt.le
        · exact heq.ge
    have hself : ∀ a ∈ (collectCandidates evidence config model).1,
        a.eAgreement = a.eAgreement := fun _ _ => rfl
    exact fun a ha b hb => hequal.forall_of_forall_of_flip hself
      (hequal.imp fun h => h.symm) ha hb
  intro c hc c' hc'
  obtain ⟨k, hk, hck⟩ := hkept c hc
  obtain ⟨k', hk', hck'⟩ := hkept c' hc'
  rw [← hck, ← hck', hall k hk k' hk']

theorem validate_ok (h : validate evidence config = .ok ()) :
    0 ≤ config.eTolerance ∧ config.ambiguityLimit ≠ 0 := by
  simp only [validate, Checks.bind_eq_ok, Checks.ensure_eq_ok, decide_eq_true_eq] at h
  obtain ⟨⟨⟩, -, ⟨⟩, he, ⟨⟩, -, ⟨⟩, hlimit, -⟩ := h
  exact ⟨he, hlimit⟩

theorem matchStopPoint_eq (h : validate evidence config = .ok ()) :
    matchStopPoint model evidence config =
      (confidenceOf evidence config model (collectCandidates evidence config model).1).map
        fun confidence => ⟨(collectCandidates evidence config model).1, confidence,
          (collectCandidates evidence config model).2⟩ := by
  rw [matchStopPoint, h]
  cases hconfidence : confidenceOf evidence config model
      (collectCandidates evidence config model).1 with
  | error e =>
    show (confidenceOf evidence config model (collectCandidates evidence config model).1 >>= _) = _
    rw [hconfidence]
    rfl
  | ok confidence =>
    show (confidenceOf evidence config model (collectCandidates evidence config model).1 >>= _) = _
    rw [hconfidence]
    rfl

/-- A move where the machine may have stopped is found, unless its layer is passed over. -/
theorem found_of_stopsOn (hvalid : validate evidence config = .ok ())
    (hsame : SameAgreement model evidence config) (hsplit : ¬ SplitLayer model evidence config)
    {m : SimMove} (hm : m ∈ model.moves) (hstop : StopsOn evidence config m) :
    (∃ result, matchStopPoint model evidence config = .ok result ∧
      (∃ c ∈ result.candidates, c.offset = m.span.start) ∧ Names m result.confidence) ∨
    ∃ lines layers, matchStopPoint model evidence config = .error (.inconclusive lines layers) := by
  obtain ⟨c, hconsider, hline⟩ := consider_of_stopsOn (validate_ok hvalid).1 hstop
  obtain ⟨k, hk, hkline⟩ := exists_collected.mpr ⟨c, mem_consistent.mpr ⟨m, hm, hconsider⟩, rfl⟩
  have hmline : k.offset = m.span.start := hkline.trans hline
  have hlayer : ∀ layer,
      config.ambiguityLimit < (collectCandidates evidence config model).1.length →
      (∀ c ∈ (collectCandidates evidence config model).1, c.layer = some layer) →
      m.layer = some layer := by
    intro layer hlong hall
    by_contra hother
    refine hsplit ⟨layer, collectCandidates_length ▸ hlong, fun d hd => ?_, m, hm, hstop, hother⟩
    obtain ⟨n, hn, hnline⟩ := exists_collected.mpr ⟨d, hd, rfl⟩
    exact ⟨n, hnline ▸ (mem_collect_iff_nearest hsame).mp hn, hall n hn⟩
  rw [matchStopPoint_eq hvalid]
  rcases confidenceOf_names hk hmline hlayer with ⟨confidence, hok, hnames⟩ | ⟨lines, layers, herror⟩
  · rw [hok]
    exact .inl ⟨_, rfl, ⟨k, hk, hmline⟩, hnames⟩
  · rw [herror]
    exact .inr ⟨lines, layers, rfl⟩

/-- A layer that is passed over is a wrong answer. -/
theorem not_splitLayer_of_honest (hvalid : validate evidence config = .ok ())
    (h : Honest model evidence config) : ¬ SplitLayer model evidence config := by
  rintro ⟨layer, hlong, hnearest, m, hm, hstop, hother⟩
  have hsame := sameAgreement_of_honest h
  have hall : ∀ c ∈ (collectCandidates evidence config model).1, c.layer = some layer := by
    intro c hc
    obtain ⟨nearest, hnear, hlayer⟩ := hnearest c (collected_consistent hc)
    rw [(mem_collect_iff_nearest hsame).mp hc] at hnear
    rwa [Option.some.inj hnear]
  have hanswer := @matchStopPoint_eq model evidence config hvalid
  rw [confidenceOf_layer (validate_ok hvalid).2 (collectCandidates_length ▸ hlong) hall] at hanswer
  rcases h.found m hm hstop with ⟨result, hok, -, hnames⟩ | ⟨lines, layers, herror⟩
  · obtain rfl := Except.ok.inj (hanswer.symm.trans hok)
    exact hother hnames
  · rw [hanswer] at herror
    cases herror

/-- The match is complete and honest exactly when all consistent moves agree equally well with the
extruder and no layer is passed over: the comparison takes the extruder the wrong way round, and
only one chord of a line is asked for its layer. -/
theorem matchStopPoint_honest_iff (model : LayerModel) (evidence : StopEvidence)
    (config : MatchConfig) (hvalid : validate evidence config = .ok ()) :
    Honest model evidence config ↔
      SameAgreement model evidence config ∧ ¬ SplitLayer model evidence config := by
  constructor
  · exact fun h => ⟨sameAgreement_of_honest h, not_splitLayer_of_honest hvalid h⟩
  rintro ⟨hsame, hsplit⟩
  constructor
  · exact fun m hm hstop => found_of_stopsOn hvalid hsame hsplit hm hstop
  · exact collectCandidates_nodup
  · intro offset
    rw [exists_collected]
    constructor
    · rintro ⟨c, hc, rfl⟩
      obtain ⟨m, hm, hconsider⟩ := mem_consistent.mp hc
      exact ⟨m, hm, by rw [hconsider]; rfl, (consider_some hconsider).1.symm⟩
    · rintro ⟨m, hm, hsome, rfl⟩
      obtain ⟨c, hconsider⟩ := Option.isSome_iff_exists.mp hsome
      exact ⟨c, mem_consistent.mpr ⟨m, hm, hconsider⟩, (consider_some hconsider).1⟩
  · have hoffsets := List.pairwise_map.mp (@collectCandidates_nodup model evidence config)
    refine (collectCandidates_ranked.and hoffsets).imp_of_mem ?_
    rintro a b ha hb ⟨hle, hne⟩
    rw [← rank_lt_iff_precedes hsame (collected_consistent ha) (collected_consistent hb)]
    refine lt_of_le_of_ne hle fun heq => hne ?_
    exact congrArg (fun r => (ofLex (ofLex r).2).2) heq
  · intro c hc
    have hconsistent := collected_consistent hc
    refine ⟨mem_consistent.mp hconsistent, fun m hm c' hconsider hline hprecedes => ?_⟩
    have hc' := mem_consistent.mpr ⟨m, hm, hconsider⟩
    have hlt := (rank_lt_iff_precedes hsame hc' hconsistent).mpr hprecedes
    exact absurd hlt (not_lt.mpr (rank_le_of_collected hc hc' hline))

instance (model : LayerModel) (evidence : StopEvidence) (config : MatchConfig) :
    Decidable (SameAgreement model evidence config) :=
  inferInstanceAs (Decidable (∀ c ∈ consistent model evidence config,
    ∀ c' ∈ consistent model evidence config, c.eAgreement = c'.eAgreement))

def exampleConfig : MatchConfig := ⟨1 / 2, 1, 1 / 20, 8⟩

/-- Two lines of one layer beside each other, the second half a millimetre of filament later. -/
def exampleModel : LayerModel where
  layers := []
  moves := [
    ⟨⟨0, 0, 1, 0⟩, ⟨10, 0, 1, 1⟩, ⟨0, 10⟩, .extrusion, some 0, none, none, .uniform true,
      .uniform true⟩,
    ⟨⟨10, 0, 1, .fin (3 / 2)⟩, ⟨0, 0, 1, 2⟩, ⟨10, 20⟩, .extrusion, some 0, none, none,
      .uniform true, .uniform true⟩]
  annotated := false
  stop := .endOfInput
  linesConsumed := 2

/-- Evidence of where the machine was in the plane, with what is known of the extruder. -/
def exampleEvidence (e : Option Interval) : StopEvidence :=
  ⟨⟨4, 6⟩, ⟨-1, 1⟩, e, [], ⟨0, none⟩⟩

theorem validate_exampleEvidence {e : Option Interval}
    (he : (e.all fun e => e.min ≤ e.max) = true) :
    validate (exampleEvidence e) exampleConfig = .ok () := by
  have hx : (4 : ℚ) ≤ 6 := by norm_num
  simp [validate, exampleEvidence, exampleConfig, he, hx, Checks.bind_eq_ok]

/-- Without evidence of the extruder the example is matched honestly. -/
theorem matchStopPoint_honest_example :
    validate (exampleEvidence none) exampleConfig = .ok () ∧
      Honest exampleModel (exampleEvidence none) exampleConfig := by
  have hvalid : validate (exampleEvidence none) exampleConfig = .ok () :=
    validate_exampleEvidence (by decide)
  refine ⟨hvalid, (matchStopPoint_honest_iff _ _ _ hvalid).mpr ⟨by decide +kernel, ?_⟩⟩
  rintro ⟨layer, hlong, -⟩
  exact absurd hlong (by decide +kernel)

/-- The line that the extruder agrees with comes behind the one that it agrees with less. -/
theorem matchStopPoint_reversed :
    validate (exampleEvidence (some ⟨0, 1⟩)) exampleConfig = .ok () ∧
      ¬ Honest exampleModel (exampleEvidence (some ⟨0, 1⟩)) exampleConfig := by
  have hdiffers : ¬ SameAgreement exampleModel (exampleEvidence (some ⟨0, 1⟩)) exampleConfig := by
    decide +kernel
  exact ⟨validate_exampleEvidence (by decide), fun h => hdiffers (sameAgreement_of_honest h)⟩

end Claims

end DeadReckoning.Analyzer
