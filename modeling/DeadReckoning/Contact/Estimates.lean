import DeadReckoning.Contact.StructureLaws

/-! The estimates of a part that is one island on every layer, and what can be said of the estimates
of every part. -/
namespace DeadReckoning.Contact
open Gcode (reals)
open Relation (EqvGen ReflTransGen)

section Joined

variable {limits : Caps} {tolerance : ℝ} {done : List (ℕ × Xy ℝ)} {parent : List ℕ}
  {root rank : ℕ → ℕ} {n k : ℕ}

theorem sum_map_ite_le {α : Type} [DecidableEq α] {l : List α} (h : l.Nodup) (x : α) :
    (l.map fun c => if x = c then 1 else 0).sum ≤ 1 := by
  induction l with
  | nil => simp
  | cons c l ih =>
    rw [List.nodup_cons] at h
    rw [List.map_cons, List.sum_cons]
    by_cases hx : x = c
    · have hrest : (l.map fun c => if x = c then 1 else 0).sum = 0 := by
        rw [List.sum_eq_zero_iff]
        intro y hy
        obtain ⟨d, hd, rfl⟩ := List.mem_map.mp hy
        rw [if_neg]
        rintro rfl
        exact h.1 (hx ▸ hd)
      rw [if_pos hx, hrest]
    · rw [if_neg hx, Nat.zero_add]
      exact ih h.2

/-- No sample is in two cells. -/
theorem samplesAround_le (tolerance : ℝ) (done : List (ℕ × Xy ℝ)) (p : Xy ℝ) :
    samplesAround tolerance done p ≤ done.length := by
  induction done with
  | nil => simp [samplesAround]
  | cons b done ih =>
    have hone := sum_map_ite_le (nodup_around (cellCoords p tolerance)) (cellCoords b.2 tolerance)
    unfold samplesAround at ih ⊢
    simp only [List.countP_cons, List.sum_map_add, decide_eq_true_eq, List.length_cons]
    omega

/-- When all have one root there is one island. -/
theorem collect_single (hforest : Dsu.Forest parent root rank) (hlength : parent.length = n)
    (hroot : ∀ i < n, root i = root 0) (hk : k < n) : ∃ parent',
    (Dsu.Forest parent' root rank ∧ parent'.length = n) ∧
      (List.range (k + 1)).foldl Components.add ⟨parent, [], [], []⟩ =
        ⟨parent', [root 0], [List.range (k + 1)], List.replicate (k + 1) 0⟩ := by
  induction k with
  | zero =>
    obtain ⟨hforest', hlength', hfound, -⟩ := Dsu.find_spec hforest (hlength.symm ▸ hk)
    refine ⟨_, ⟨hforest', hlength'.trans hlength⟩, ?_⟩
    simp [Components.add, hfound]
  | succ k ih =>
    obtain ⟨parent', ⟨hforest₁, hlength₁⟩, hfold⟩ := ih (by omega)
    obtain ⟨hforest₂, hlength₂, hfound, -⟩ := Dsu.find_spec hforest₁ (hlength₁.symm ▸ hk)
    refine ⟨_, ⟨hforest₂, hlength₂.trans hlength₁⟩, ?_⟩
    rw [List.range_succ, List.foldl_append, hfold]
    simp [Components.add, hfound, hroot _ hk, List.idxOf?, List.findIdx?_cons,
      List.replicate_succ']

end Joined

section Single

variable {limits : Caps} {tolerance spacing width : ℝ} {layer : Layer ℝ}
  {shape upper lower : LayerShape ℝ} {points : List (Xy ℝ)} {n : ℕ}

/-- A layer whose samples are few, and join all of its segments. -/
structure OneIsland (limits : Caps) (tolerance spacing : ℝ) (layer : Layer ℝ) : Prop where
  nonempty : 0 < layer.segments.length
  kept : layer.segments.length ≤ limits.maxSegmentsPerLayer
  spaced : sampleSpacing reals limits layer.segments tolerance = spacing
  few : (samplesWithOwner reals limits layer.segments spacing).length ≤
    min limits.neighborScanCap u32Max
  joined : ∀ i < layer.segments.length,
    EqvGen (Near tolerance (samplesWithOwner reals limits layer.segments spacing)) i 0

/-- The shape of such a layer. -/
structure Single (limits : Caps) (tolerance spacing : ℝ) (layer : Layer ℝ)
    (shape : LayerShape ℝ) : Prop where
  segments : shape.segments = layer.segments
  members : shape.members = [List.range layer.segments.length]
  samples : shape.samples =
    (samplesWithOwner reals limits layer.segments spacing).map Prod.snd
  sampleIsland : shape.sampleIsland = List.replicate shape.samples.length 0
  spaced : shape.spacing = spacing
  bboxes : shape.bboxes = [boxAround (layer.segments.flatMap fun seg => [seg.start, seg.stop])]
  lengths : ∃ length, shape.lengths = [length]
  centroids : ∃ centroid, shape.centroids = [centroid]
  found : ∀ p, ∀ q ∈ shape.samples, Plane.dist p q ≤ tolerance →
    ∃ c ∈ around (cellCoords p shape.cell), ∃ k ∈ (shape.grid c).take limits.neighborScanCap,
      pointDistance reals p (entry shape.samples (0, 0) k) ≤ tolerance

theorem islandSegments_range (segments : List (XySegment ℝ)) :
    islandSegments segments (List.range segments.length) = segments := by
  have hplaces := filterMap_range' segments 0 fun _ => true
  simp only [List.filter_true, Nat.sub_zero, ← List.range_eq_range', List.zipIdx_map_fst]
    at hplaces
  exact hplaces

theorem single_of_oneIsland (htolerance : 0 < tolerance)
    (h : OneIsland limits tolerance spacing layer) :
    Single limits tolerance spacing layer (LayerShape.build reals limits layer tolerance) := by
  have hsegments : (layer.segments.filter (segmentFinite reals)).take limits.maxSegmentsPerLayer =
      layer.segments := by
    rw [List.filter_eq_self.mpr fun seg _ => segmentFinite_reals seg,
      List.take_of_length_le h.kept]
  obtain ⟨done, hdone⟩ : ∃ done,
      done = samplesWithOwner reals limits layer.segments spacing := ⟨_, rfl⟩
  have hfew := h.few
  rw [← hdone] at hfew
  have howners : ∀ b ∈ done, b.1 < layer.segments.length := by
    intro b hb
    rw [hdone] at hb
    obtain ⟨seg, hseg, -⟩ := mem_samplesWithOwner.mp hb
    exact (List.getElem?_eq_some_iff.mp hseg).1
  obtain ⟨linked, hlinked⟩ : ∃ linked,
      linked = sampleAndLink reals limits layer.segments tolerance spacing := ⟨_, rfl⟩
  have hsampled : Sampled tolerance layer.segments.length done linked := by
    rw [hlinked, sampleAndLink, ← hdone]
    refine (sampled_nil tolerance layer.segments.length).foldl htolerance howners ?_ ?_
    · intro before sample after heq
      have hlength := congrArg List.length heq
      simp only [List.nil_append, List.length_append, List.length_cons] at hlength
      exact (samplesAround_le tolerance before sample.2).trans (by omega)
    · rw [List.nil_append]
      omega
  obtain ⟨root, rank, hforest, hclasses⟩ := hsampled.classes
  have hroot : ∀ i < layer.segments.length, root i = root 0 := by
    intro i hi
    rw [hclasses i 0, hdone]
    exact h.joined i hi
  obtain ⟨n, hn⟩ : ∃ n, layer.segments.length = n + 1 := Nat.exists_eq_add_of_lt h.nonempty |>.imp
    fun n hn => by omega
  obtain ⟨parent', -, hcollect⟩ := collect_single hforest hsampled.length hroot
    (k := n) (by omega)
  have hcomponents : collectComponents linked.parent layer.segments.length =
      ⟨parent', [root 0], [List.range layer.segments.length],
        List.replicate layer.segments.length 0⟩ := by
    rw [collectComponents, hn, hcollect]
  refine ⟨?_, ?_, ?_, ?_, ?_, ?_, ?_, ?_, ?_⟩ <;>
    simp only [LayerShape.build, hsegments, h.spaced, ← hlinked, hcomponents, List.map_singleton,
      islandSegments_range]
  · rw [hsampled.samples, hdone]
  · rw [hsampled.samples, hsampled.owner, List.map_map, List.length_map, List.eq_replicate_iff]
    refine ⟨by rw [List.length_map], fun island hisland => ?_⟩
    obtain ⟨b, -, rfl⟩ := List.mem_map.mp hisland
    exact entry_replicate _ _ _
  · exact ⟨_, rfl⟩
  · exact ⟨_, rfl⟩
  · intro p q hq hnear
    rw [hsampled.samples] at hq
    obtain ⟨b, hb, rfl⟩ := List.mem_map.mp hq
    obtain ⟨k, hk⟩ := List.mem_iff_getElem?.mp hb
    refine ⟨_, cellCoords_mem_around htolerance hnear, k, ?_, ?_⟩
    · rw [List.take_of_length_le]
      · exact hsampled.mem_grid.mpr ⟨b, hk, rfl⟩
      · rw [hsampled.grid, length_bucket]
        exact List.countP_le_length.trans (by omega)
    · rw [hsampled.samples, entry_map hk]
      exact hnear

theorem Single.entry_sampleIsland (h : Single limits tolerance spacing layer shape) (k : ℕ) :
    entry shape.sampleIsland 0 k = 0 := by
  rw [h.sampleIsland, entry_replicate]

/-- A point near a sample lies on the island. -/
theorem Single.hits_eq (h : Single limits tolerance spacing layer shape) {p q : Xy ℝ}
    (hq : q ∈ shape.samples) (hnear : Plane.dist p q ≤ tolerance) :
    shape.hits reals limits p tolerance = [0] := by
  obtain ⟨c, hc, k, hk, hclose⟩ := h.found p q hq hnear
  unfold LayerShape.hits
  have hfinite : finitePoint reals p = true := rfl
  rw [if_pos hfinite]
  have hmem : k ∈ (around (cellCoords p shape.cell)).flatMap fun c =>
      (shape.grid c).take limits.neighborScanCap := List.mem_flatMap.mpr ⟨c, hc, hk⟩
  generalize (around (cellCoords p shape.cell)).flatMap
    (fun c => (shape.grid c).take limits.neighborScanCap) = near at hmem
  -- Once the island is found no other one is, and it is found at the latest with this sample.
  have hkeep (l : List ℕ) : l.foldl (fun out sample =>
      if pointDistance reals p (entry shape.samples (0, 0) sample) ≤ tolerance then
        pushNew out (entry shape.sampleIsland 0 sample)
      else out) [0] = [0] := by
    induction l with
    | nil => rfl
    | cons sample l ih =>
      rw [List.foldl_cons, h.entry_sampleIsland]
      simpa [pushNew] using ih
  induction near with
  | nil => cases hmem
  | cons sample near ih =>
    rw [List.foldl_cons, h.entry_sampleIsland]
    by_cases hsample : pointDistance reals p (entry shape.samples (0, 0) sample) ≤ tolerance
    · rw [if_pos hsample]
      exact hkeep near
    · rw [if_neg hsample]
      refine ih ?_
      rcases List.mem_cons.mp hmem with rfl | hrest
      · exact absurd hclose hsample
      · exact hrest

/-- Samples of one island that lie on one other, one after the other. -/
theorem foldl_correspond (l : List (Xy ℝ))
    (hl : ∀ p ∈ l, lower.hits reals limits p tolerance = [0]) (c : List ℕ) (m : ℕ)
    (hc : c = [] ∧ l ≠ [] ∨ c = [0]) :
    (l.zip (List.replicate l.length 0)).foldl (fun (corr, linked) (point, owner) =>
      let hits := lower.hits reals limits point tolerance
      if hits = [] then (corr, linked)
      else (corr.modify owner fun islands => hits.foldl pushNew islands,
        linked.modify owner (· + 1))) ([c], [m]) = ([[0]], [m + l.length]) := by
  induction l generalizing c m with
  | nil =>
    rcases hc with ⟨-, hnone⟩ | rfl
    · exact absurd rfl hnone
    · rfl
  | cons p l ih =>
    have hpush : pushNew c 0 = [0] := by
      rcases hc with ⟨rfl, -⟩ | rfl
      · rfl
      · rfl
    rw [List.length_cons, List.replicate_succ, List.zip_cons_cons, List.foldl_cons]
    simp only [hl p (by simp), List.foldl_cons, List.foldl_nil, hpush, List.modify_zero_cons,
      reduceCtorEq, if_false]
    rw [ih (fun q hq => hl q (by simp [hq])) [0] (m + 1) (.inr rfl)]
    rw [Nat.add_assoc, Nat.add_comm 1]

/-- All samples of an island that lie on another one connect it. -/
theorem Single.correspond_eq (hupper : Single limits tolerance spacing layer upper)
    (hhits : ∀ p ∈ upper.samples, lower.hits reals limits p tolerance = [0])
    (hsome : upper.samples ≠ []) :
    correspond reals limits upper lower tolerance = ([[0]], [upper.samples.length]) := by
  have hcount : upper.islandCount = 1 := by
    rw [LayerShape.islandCount, hupper.members, List.length_singleton]
  rw [correspond, hcount, hupper.sampleIsland]
  have hstart := foldl_correspond upper.samples hhits [] 0 (.inl ⟨rfl, hsome⟩)
  rw [Nat.zero_add] at hstart
  exact hstart

theorem Single.initialFootings_eq (h : Single limits tolerance spacing layer shape) :
    initialFootings shape = [⟨[0], ⊤, none⟩] := by
  rw [initialFootings, LayerShape.islandCount, h.members]
  rfl

theorem Single.beads_eq (h : Single limits tolerance spacing layer shape) :
    [0].flatMap shape.beads = layer.segments := by
  rw [List.flatMap_singleton, LayerShape.beads, h.members, h.segments]
  exact islandSegments_range layer.segments

/-- One island has one raster. -/
theorem Single.materialize_eq (h : Single limits tolerance spacing layer shape) (n : ℕ)
    (halfWidth : ℝ) : ∃ island raster,
      materialize reals shape n halfWidth = some [(island, raster)] ∧
      Raster.build reals layer.segments
        (boxAround (layer.segments.flatMap fun seg => [seg.start, seg.stop])).lo
        (boxAround (layer.segments.flatMap fun seg => [seg.start, seg.stop])).hi halfWidth =
          some raster ∧
      island.bbox = boxAround (layer.segments.flatMap fun seg => [seg.start, seg.stop]) ∧
      island.index = 0 ∧ island.area = raster.area := by
  obtain ⟨length, hlength⟩ := h.lengths
  obtain ⟨centroid, hcentroid⟩ := h.centroids
  obtain ⟨raster, hbuild, -⟩ := @build_eq_some layer.segments _ _ halfWidth
    fun seg hseg => inside_boxAround layer.segments hseg
  refine ⟨⟨n, 0, boxAround (layer.segments.flatMap fun seg => [seg.start, seg.stop]), raster.area,
    centroid, (List.range layer.segments.length).length, length,
    raster.coarsened || raster.truncated⟩, raster, ?_, hbuild, rfl, rfl, rfl⟩
  rw [materialize, h.members, h.bboxes, hlength, hcentroid, h.segments]
  simp only [List.zipIdx_singleton, List.mapM_cons, List.mapM_nil, islandSegments_range,
    List.getElem?_cons_zero, Option.bind_eq_bind, Option.bind_some, hbuild, Option.pure_def]

end Single

section Stacked

variable {limits : Caps} {model : LayerModel ℝ} {config : ContactConfig ℝ} {below above : Layer ℝ}
  {spacing spacing' : ℝ}

/-- The box around the beads of a layer. -/
noncomputable def boxOf (layer : Layer ℝ) : BoundingBox ℝ :=
  boxAround (layer.segments.flatMap fun seg => [seg.start, seg.stop])

/-- One island that lies with all of its samples on one island of the bed. -/
structure Stacked (limits : Caps) (model : LayerModel ℝ) (config : ContactConfig ℝ)
    (below above : Layer ℝ) (spacing spacing' : ℝ) : Prop where
  valid : validateConfig reals config = .ok ()
  layers : model.layers = [below, above]
  onBed : below.z ≤ 1
  lower : OneIsland limits config.islandLinkTolerance spacing below
  upper : OneIsland limits config.islandLinkTolerance spacing' above
  lies : ∃ q ∈ samplesWithOwner reals limits below.segments spacing,
    ∀ b ∈ samplesWithOwner reals limits above.segments spacing',
      Plane.dist b.2 q.2 ≤ config.islandLinkTolerance

theorem Stacked.stepDown_eq (h : Stacked limits model config below above spacing spacing') :
    stepDown reals limits (LayerShape.build reals limits above config.islandLinkTolerance)
      (LayerShape.build reals limits below config.islandLinkTolerance) 0 config
      [⟨[0], ⊤, none⟩] = [⟨[0],
        (((samplesWithOwner reals limits above.segments spacing').length : ℝ) * spacing' *
          config.extrusionWidth : ℝ), none⟩] := by
  obtain ⟨-, htolerance⟩ := validateConfig_eq_ok h.valid
  have hupper := single_of_oneIsland htolerance h.upper
  have hlower := single_of_oneIsland htolerance h.lower
  obtain ⟨q, hq, hnear⟩ := h.lies
  have hhits : ∀ p ∈ (LayerShape.build reals limits above config.islandLinkTolerance).samples,
      (LayerShape.build reals limits below config.islandLinkTolerance).hits reals limits p
        config.islandLinkTolerance = [0] := by
    intro p hp
    rw [hupper.samples] at hp
    obtain ⟨b, hb, rfl⟩ := List.mem_map.mp hp
    refine hlower.hits_eq (q := q.2) ?_ (hnear b hb)
    rw [hlower.samples]
    exact List.mem_map_of_mem hq
  have hsome :
      (LayerShape.build reals limits above config.islandLinkTolerance).samples ≠ [] := by
    obtain ⟨seg, hseg⟩ := List.exists_mem_of_length_pos h.upper.nonempty
    obtain ⟨p, hp⟩ := samplesOf_ne_nil limits spacing' seg
    obtain ⟨i, hi⟩ := List.mem_iff_getElem?.mp hseg
    have hsample : (i, p) ∈ samplesWithOwner reals limits above.segments spacing' :=
      mem_samplesWithOwner.mpr ⟨seg, hi, hp⟩
    rw [hupper.samples]
    exact List.ne_nil_of_mem (List.mem_map_of_mem hsample)
  rw [stepDown, hupper.correspond_eq hhits hsome, hupper.spaced, hupper.samples, List.length_map]
  simp [stepFooting, pushNew, entry]

/-- What is built of such a part. -/
structure Analysed (config : ContactConfig ℝ) (above : Layer ℝ) (effective : ℝ)
    (a : StructuralAnalysis ℝ) : Prop where
  layer : a.layer = 1
  configured : a.config = config
  islands : ∃ island raster, a.islands = [island] ∧ a.rasters = [raster] ∧
    island.index = 0 ∧ island.bbox = boxOf above ∧
    Raster.build reals above.segments (boxOf above).lo (boxOf above).hi
      (config.extrusionWidth / 2) = some raster
  traces : ∃ trace, a.traces = [trace] ∧ trace.effectiveArea = effective

theorem Stacked.build_eq (h : Stacked limits model config below above spacing spacing') :
    ∃ bed a, Raster.build reals below.segments (boxOf below).lo (boxOf below).hi
        (config.extrusionWidth / 2) = some bed ∧
      StructuralAnalysis.build reals limits model 1 config = some (.ok a) ∧
      Analysed config above (min bed.area
        ((samplesWithOwner reals limits above.segments spacing').length * spacing' *
          config.extrusionWidth)) a := by
  obtain ⟨-, htolerance⟩ := validateConfig_eq_ok h.valid
  have hupper := single_of_oneIsland htolerance h.upper
  have hlower := single_of_oneIsland htolerance h.lower
  obtain ⟨island, raster, hisland, hraster, hbox, hindex, -⟩ :=
    hupper.materialize_eq 1 (config.extrusionWidth / 2)
  obtain ⟨bed, bedRaster, hbed, hbedRaster, -, -, harea⟩ :=
    hlower.materialize_eq 0 (config.extrusionWidth / 2)
  have hfootings := hupper.initialFootings_eq
  rw [initialFootings] at hfootings
  have hdescend : descend reals limits model config 1
      (LayerShape.build reals limits above config.islandLinkTolerance) [⟨[0], ⊤, none⟩] =
      some (LayerShape.build reals limits below config.islandLinkTolerance, [⟨[0],
        (((samplesWithOwner reals limits above.segments spacing').length : ℝ) * spacing' *
          config.extrusionWidth : ℝ), none⟩]) := by
    have hlayer : model.layer 0 = some below := by
      rw [LayerModel.layer, h.layers]
      rfl
    rw [descend, hlayer]
    dsimp only
    rw [h.stepDown_eq]
    rfl
  have hlayer : model.layer 1 = some above := by
    rw [LayerModel.layer, h.layers]
    rfl
  obtain ⟨link, hlink⟩ : ∃ link : ℝ,
      link = (samplesWithOwner reals limits above.segments spacing').length * spacing' *
        config.extrusionWidth := ⟨_, rfl⟩
  rw [← hlink] at hdescend ⊢
  have hstack : traceStack reals limits model 1
      (LayerShape.build reals limits above config.islandLinkTolerance) config =
      some ([assembleTrace reals 0 ⟨[0], (link : WithTop ℝ), none⟩ [bed]], [bed]) := by
    unfold traceStack
    rw [if_neg one_ne_zero, hfootings, hdescend, h.layers]
    simp only [List.head?_cons, if_pos h.onBed, hbed]
    rfl
  refine ⟨bedRaster, {
    layer := 1
    layerZ := above.z
    islands := [island]
    rasters := [raster]
    bedIslands := [bed]
    traces := [assembleTrace reals 0 ⟨[0], (link : WithTop ℝ), none⟩ [bed]]
    samples := (LayerShape.build reals limits above config.islandLinkTolerance).samples
    sampleIsland := (LayerShape.build reals limits above config.islandLinkTolerance).sampleIsland
    config := config }, hbedRaster, ?_,
    ⟨rfl, rfl, ⟨island, raster, rfl, rfl, hindex, hbox, hraster⟩, _, rfl, ?_⟩⟩
  · rw [StructuralAnalysis.build, h.valid, hlayer]
    simp only [hisland, hstack, Option.bind_eq_bind, Option.bind_some, List.map_singleton,
      Option.pure_def]
  · simp [assembleTrace, TraceStatus.resolved, finiteOr, reals, harea]

end Stacked

section Strips

variable {limits : Caps} {u v spacing tolerance : ℝ} {p : Xy ℝ}

/-- A bead of the counterexample. -/
noncomputable def strip (u v : ℝ) : XySegment ℝ := ⟨(u, 0), (v, 0), 1 / 5, ⟨0, 1⟩⟩

theorem length_strip (h : u ≤ v) : (strip u v).length reals = v - u := by
  have hsquare : (v - u) * (v - u) + (0 - 0) * (0 - 0) = (v - u) * (v - u) := by ring
  simp only [XySegment.length, pointDistance, strip, reals, hsquare]
  exact Real.sqrt_mul_self (sub_nonneg.mpr h)

theorem length_samplesOf (limits : Caps) (spacing : ℝ) (seg : XySegment ℝ) :
    (samplesOf reals limits spacing seg).length = sampleSteps reals limits spacing seg + 1 := by
  have hfinite : ∀ p ∈ (List.range (sampleSteps reals limits spacing seg + 1)).map (fun k : ℕ =>
      seg.pointAt ((k : ℝ) / (sampleSteps reals limits spacing seg : ℝ))),
      finitePoint reals p = true := fun p _ => rfl
  rw [samplesOf, pointsAlong, List.filter_eq_self.mpr hfinite, List.length_map, List.length_range]

/-- The samples of a bead lie on it. -/
theorem mem_samplesOf_strip (h : u ≤ v) (hp : p ∈ samplesOf reals limits spacing (strip u v)) :
    p.2 = 0 ∧ u ≤ p.1 ∧ p.1 ≤ v := by
  obtain ⟨hmem, -⟩ := List.mem_filter.mp hp
  obtain ⟨k, hk, rfl⟩ := List.mem_map.mp hmem
  have hsteps : (0 : ℝ) < (sampleSteps reals limits spacing (strip u v) : ℕ) := by
    rw [Nat.cast_pos, sampleSteps]
    omega
  have hle : (k : ℝ) ≤ (sampleSteps reals limits spacing (strip u v) : ℕ) := by
    exact_mod_cast Nat.lt_succ_iff.mp (List.mem_range.mp hk)
  have hratio : (k : ℝ) / (sampleSteps reals limits spacing (strip u v) : ℕ) ≤ 1 :=
    (div_le_one hsteps).mpr hle
  have hratio₀ : 0 ≤ (k : ℝ) / (sampleSteps reals limits spacing (strip u v) : ℕ) := by positivity
  generalize (k : ℝ) / (sampleSteps reals limits spacing (strip u v) : ℕ) = x at hratio hratio₀ ⊢
  refine ⟨by simp [XySegment.pointAt, lerp2, strip], ?_, ?_⟩
  · simp only [XySegment.pointAt, lerp2, strip]
    linarith [mul_nonneg (sub_nonneg.mpr h) hratio₀]
  · simp only [XySegment.pointAt, lerp2, strip]
    linarith [mul_le_mul_of_nonneg_left hratio (sub_nonneg.mpr h)]

theorem start_mem_samplesOf (limits : Caps) (spacing : ℝ) (seg : XySegment ℝ) :
    seg.start ∈ samplesOf reals limits spacing seg := by
  rw [samplesOf, pointsAlong, List.mem_filter]
  refine ⟨List.mem_map.mpr ⟨0, by simp, ?_⟩, rfl⟩
  simp [XySegment.pointAt, lerp2]

theorem stop_mem_samplesOf (limits : Caps) (spacing : ℝ) (seg : XySegment ℝ) :
    seg.stop ∈ samplesOf reals limits spacing seg := by
  have hsteps : ((sampleSteps reals limits spacing seg : ℕ) : ℝ) ≠ 0 := by
    rw [Nat.cast_ne_zero, sampleSteps]
    omega
  rw [samplesOf, pointsAlong, List.mem_filter]
  refine ⟨List.mem_map.mpr ⟨sampleSteps reals limits spacing seg, by simp, ?_⟩, rfl⟩
  rw [div_self hsteps]
  simp [XySegment.pointAt, lerp2]

/-- The samples of beads one after the other are the samples of each. -/
theorem length_samplesWithOwner (limits : Caps) (spacing : ℝ) (segments : List (XySegment ℝ)) :
    (samplesWithOwner reals limits segments spacing).length =
      (segments.map fun seg => sampleSteps reals limits spacing seg + 1).sum := by
  have hall := @countP_samplesWithOwner segments spacing limits fun _ => true
  simpa only [List.filter_true, islandSegments_range, List.countP_true, length_samplesOf]
    using hall

/-- A layer of the counterexample. -/
noncomputable def stripLayer (index : ℕ) (z : ℝ) (segments : List (XySegment ℝ)) : Layer ℝ where
  index := index
  z := z
  paths := [⟨.innerWall, some (lit "Inner wall"), segments⟩]
  extrusionMoves := segments.length
  spiralMoves := 0

@[simp] theorem segments_stripLayer (index : ℕ) (z : ℝ) (segments : List (XySegment ℝ)) :
    (stripLayer index z segments).segments = segments := by
  simp [Layer.segments, stripLayer]

end Strips

section Bed

variable {radius : ℝ} {a b : ℕ}

/-- The grid over the bed of the counterexample, a bead of two millimetres. -/
noncomputable def bedGrid : Grid ℝ := ⟨(-2 / 5, -2 / 5), 1 / 10, 28, 8⟩

/-- A place beside a strip. -/
theorem mem_capsule_strip {u v x y r : ℝ} (hx : u ≤ x) (hx' : x ≤ v) (huv : u < v) (hr : |y| ≤ r) :
    (x, y) ∈ Plane.capsule (strip u v).start (strip u v).stop r := by
  have hlength : 0 < v - u := by linarith
  refine ⟨(x - u) / (v - u), ⟨div_nonneg (by linarith) hlength.le,
    (div_le_one hlength).mpr (by linarith)⟩, ?_⟩
  have hplace : Plane.lerp (strip u v).start (strip u v).stop ((x - u) / (v - u)) = (x, 0) := by
    simp only [Plane.lerp, strip]
    rw [mul_div_cancel₀ _ hlength.ne']
    simp
  rw [hplace]
  have hsides := Plane.dist_le_add (x, y) (x, 0)
  simp only [sub_self, abs_zero, zero_add, zero_sub, abs_neg] at hsides
  exact hsides.trans hr

theorem center_bedGrid (a b : ℕ) : bedGrid.center a b =
    (-2 / 5 + ((a : ℝ) + 1 / 2) * (1 / 10), -2 / 5 + ((b : ℝ) + 1 / 2) * (1 / 10)) := by
  simp [Grid.center, bedGrid]

theorem center_mem_strip (ha : 4 ≤ a ∧ a < 24) (hb : 2 ≤ b ∧ b < 6) (hradius : 3 / 20 ≤ radius) :
    bedGrid.center a b ∈ Plane.capsule (strip 0 2).start (strip 0 2).stop radius := by
  have ha₁ : (4 : ℝ) ≤ a := by exact_mod_cast ha.1
  have ha₂ : (a : ℝ) ≤ 23 := by exact_mod_cast Nat.le_of_lt_succ ha.2
  have hb₁ : (2 : ℝ) ≤ b := by exact_mod_cast hb.1
  have hb₂ : (b : ℝ) ≤ 5 := by exact_mod_cast Nat.le_of_lt_succ hb.2
  rw [center_bedGrid]
  refine mem_capsule_strip (by linarith) (by linarith) (by norm_num) ?_
  rw [abs_le]
  constructor <;> linarith

theorem length_visits_bed :
    (visits reals bedGrid (reachOf (3 / 10) bedGrid.cell) [strip 0 2]).length ≤ testBudget := by
  have hreach : reachOf (3 / 10) bedGrid.cell = 4 := by norm_num [reachOf, bedGrid]
  have hcount := @length_visits_le ℝ _ _ _ reals [strip 0 2] bedGrid 4 21 (by
    intro seg hseg
    obtain rfl := List.mem_singleton.mp hseg
    refine length_places_le (n := 20) ?_
    rw [length_strip (by norm_num)]
    norm_num [bedGrid])
  rw [hreach]
  exact hcount.trans (by decide)

/-- The bed is at least eighty squares of a tenth of a millimetre. -/
theorem markTile_strip_ge (hradius : 3 / 20 ≤ radius) (hradius' : radius ≤ 3 / 10) :
    80 ≤ (markTile reals [strip 0 2] bedGrid radius (3 / 10) 0).1 := by
  have hcard := @card_le_markTile [strip 0 2] (3 / 10) radius bedGrid
    (Finset.Ico 4 24 ×ˢ Finset.Ico 2 6) (by norm_num [bedGrid]) (by norm_num) (by norm_num [bedGrid])
    hradius' (by norm_num [bedGrid, cellBudget]) (by norm_num [bedGrid, cellBudget])
    (by
      intro seg hseg
      obtain rfl := List.mem_singleton.mp hseg
      rw [length_strip (by norm_num)]
      norm_num [bedGrid])
    (by
      intro seg hseg
      obtain rfl := List.mem_singleton.mp hseg
      norm_num [reachesTile, strip, bedGrid])
    length_visits_bed
    (by
      rintro ⟨a, b⟩ hc
      rw [Finset.mem_product, Finset.mem_Ico, Finset.mem_Ico] at hc
      obtain ⟨ha, hb⟩ := hc
      dsimp only at ha hb ⊢
      have hinside : a < 28 ∧ b < 8 := by omega
      exact ⟨hinside, strip 0 2, by simp, center_mem_strip ha hb hradius⟩)
  exact hcard

end Bed

section Tenths

variable {segments : List (XySegment ℝ)} {lo hi : Xy ℝ} {nx ny : ℕ}

theorem sweep_singleton (count : ℕ × ℕ → ℕ → ℕ × ℕ) (tile : ℕ × ℕ) (total tests : ℕ) :
    (sweep count [tile] total tests).1 = total + (count tile tests).1 := by
  rw [sweep]
  dsimp only
  split
  · rfl
  · rfl

theorem strictRadius_tenth : 3 / 20 ≤ strictRadius reals (3 / 10) (1 / 10) ∧
    strictRadius reals (3 / 10) (1 / 10) ≤ 3 / 10 := by
  have hone : (1 : ℝ) ≤ Real.sqrt 2 := Real.one_le_sqrt.mpr (by norm_num)
  have hroot : 0 < 1 / Real.sqrt 2 ∧ 1 / Real.sqrt 2 ≤ 1 :=
    ⟨by positivity, (div_le_one (by linarith)).mpr hone⟩
  rw [strictRadius, show reals.sqrt = Real.sqrt from rfl]
  constructor <;> linarith

/-- The area of a bead that is six tenths wide is counted on one tile of tenths. -/
theorem strictArea_tenth
    (hnx : ⌈(hi.1 - lo.1 + 2 * (3 / 10 + 1 / 10)) / (1 / 10)⌉ = (nx : ℤ))
    (hny : ⌈(hi.2 - lo.2 + 2 * (3 / 10 + 1 / 10)) / (1 / 10)⌉ = (ny : ℤ))
    (hsome : 0 < nx ∧ 0 < ny) (hle : nx ≤ 1000 ∧ ny ≤ 1000) :
    (strictArea reals segments lo hi (3 / 10)).1 =
      ((markTile reals segments ⟨(lo.1 - 2 / 5, lo.2 - 2 / 5), 1 / 10, nx, ny⟩
        (strictRadius reals (3 / 10) (1 / 10)) (3 / 10) 0).1 : ℕ) * (1 / 10) * (1 / 10) := by
  have hbase : baseCell (3 / 10 : ℝ) = 1 / 10 := by norm_num [baseCell]
  obtain ⟨radius, hradius⟩ : ∃ radius, radius = strictRadius reals (3 / 10) (1 / 10) := ⟨_, rfl⟩
  have hstrict := strictRadius_tenth
  rw [← hradius] at hstrict ⊢
  have hside : max ⌊reals.sqrt ((cellBudget : ℕ) : ℝ)⌋ 1 = 1000 := by
    have hbudget : reals.sqrt ((cellBudget : ℕ) : ℝ) = 1000 := by
      rw [show reals.sqrt = Real.sqrt from rfl,
        show ((cellBudget : ℕ) : ℝ) = 1000 * 1000 by norm_num [cellBudget]]
      exact Real.sqrt_mul_self (by norm_num)
    rw [hbudget]
    norm_num
  -- The tile has room for a hundred millimetres.
  have hone {w : ℝ} {n : ℕ} (hceil : ⌈w / (1 / 10)⌉ = (n : ℤ)) (hn : 0 < n) (hn' : n ≤ 1000) :
      ⌈w / (((1000 : ℤ) : ℝ) * (1 / 10))⌉ = 1 := by
    rw [Int.ceil_eq_iff] at hceil ⊢
    have hpos : (1 : ℝ) ≤ n := by exact_mod_cast hn
    have hbound : (n : ℝ) ≤ 1000 := by exact_mod_cast hn'
    push_cast at hceil ⊢
    constructor
    · linarith [hceil.1]
    · linarith [hceil.2]
  have hgrow : growCell reals (hi.1 - lo.1 + 2 * (3 / 10 + 1 / 10))
      (hi.2 - lo.2 + 2 * (3 / 10 + 1 / 10)) ((1000 : ℤ) : ℝ) (63 + 1) (1 / 10) false =
        (1 / 10, false) := by
    rw [growCell, hone hnx hsome.1 hle.1, hone hny hsome.2 hle.2]
    exact if_pos (by decide)
  rw [strictArea]
  dsimp only
  rw [hbase, ← hradius, if_neg (by linarith), hside, hgrow]
  dsimp only
  rw [← hradius, if_neg (by linarith), hnx, hny]
  have hcast {n : ℕ} (hn : 0 < n ∧ n ≤ 1000) : max (toUsize (n : ℤ)) 1 = n := by
    unfold toUsize
    omega
  have hstarts {n : ℕ} (hn : 0 < n ∧ n ≤ 1000) : tileStarts 1000 n = [0] := by
    have hdiv : (n + 1000 - 1) / 1000 = 1 := by omega
    rw [tileStarts, hdiv]
    rfl
  have hsize : toUsize 1000 = 1000 := by decide
  rw [hcast ⟨hsome.1, hle.1⟩, hcast ⟨hsome.2, hle.2⟩, hsize, hstarts ⟨hsome.1, hle.1⟩,
    hstarts ⟨hsome.2, hle.2⟩]
  have htile : tileGrid (lo.1 - (3 / 10 + 1 / 10), lo.2 - (3 / 10 + 1 / 10)) (1 / 10) nx ny 1000
      (0, 0) = ⟨(lo.1 - 2 / 5, lo.2 - 2 / 5), 1 / 10, nx, ny⟩ := by
    have hsum : (3 / 10 + 1 / 10 : ℝ) = 2 / 5 := by norm_num
    rw [tileGrid, hsum]
    simp [hle]
  simp only [List.flatMap_singleton, List.map_singleton]
  rw [sweep_singleton, htile, Nat.zero_add]

/-- The grid of a bead that is six tenths wide. -/
theorem gridOver_tenth (hw : 0 ≤ hi.1 - lo.1) (hh : 0 ≤ hi.2 - lo.2)
    (hnx : (hi.1 - lo.1 + 1) / (1 / 10) = nx) (hny : (hi.2 - lo.2 + 1) / (1 / 10) = ny)
    (hle : nx ≤ 30 ∧ ny ≤ 30) : gridOver reals lo hi (3 / 10) =
      some ⟨(lo.1 - 1 / 2, lo.2 - 1 / 2), 1 / 10, nx + 1, ny + 1⟩ := by
  have hbase : baseCell (3 / 10 : ℝ) = 1 / 10 := by norm_num [baseCell]
  have hceil {w : ℝ} {n : ℕ} (hn : (w + 1) / (1 / 10) = n) :
      ⌈(w + 2 * (3 / 10 + 2 * (1 / 10))) / (1 / 10)⌉ = (n : ℤ) := by
    rw [show w + 2 * (3 / 10 + 2 * (1 / 10)) = w + 1 by ring, hn]
    exact Int.ceil_natCast n
  have hcast {n : ℕ} (hn : n ≤ 30) : toUsize (n : ℤ) = n := by
    unfold toUsize
    omega
  have hcells : nx * ny ≤ 30 * 30 := Nat.mul_le_mul hle.1 hle.2
  have hcells' : (nx + 1) * (ny + 1) ≤ 31 * 31 := Nat.mul_le_mul (by omega) (by omega)
  have hfit : fitGrid reals (hi.1 - lo.1) (hi.2 - lo.2) (3 / 10) (63 + 1) (1 / 10) =
      some (1 / 10, nx + 1, ny + 1) := by
    rw [fitGrid, hceil hnx, hceil hny, hcast hle.1, hcast hle.2, if_pos]
    simp only [reals, Bool.and_eq_true, cellBudget, true_and]
    exact ⟨decide_eq_true (by exact_mod_cast hcells.trans (by norm_num)),
      decide_eq_true (hcells'.trans (by norm_num))⟩
  have hvalid : ¬(!reals.isFinite (3 / 10) || decide ((3 / 10 : ℝ) ≤ 0) ||
      !reals.isFinite (hi.1 - lo.1) || !reals.isFinite (hi.2 - lo.2) ||
      decide (hi.1 - lo.1 < 0) || decide (hi.2 - lo.2 < 0)) = true := by
    rw [Bool.not_eq_true]
    norm_num [reals, sub_nonneg.mp hw, sub_nonneg.mp hh]
  rw [gridOver]
  dsimp only
  rw [if_neg hvalid, hbase, hfit]
  norm_num

end Tenths

section Covered

theorem build_bed_ge {r : Raster ℝ}
    (h : Raster.build reals [strip 0 2] (0, 0) (2, 0) (3 / 10) = some r) : 4 / 5 ≤ r.area := by
  have harea : 4 / 5 ≤ (strictArea reals [strip 0 2] (0, 0) (2, 0) (3 / 10)).1 := by
    have hcount := markTile_strip_ge strictRadius_tenth.1 strictRadius_tenth.2
    have hgrid : (⟨((0 : ℝ) - 2 / 5, (0 : ℝ) - 2 / 5), 1 / 10, 28, 8⟩ : Grid ℝ) = bedGrid := by
      norm_num [bedGrid]
    rw [@strictArea_tenth _ (0, 0) (2, 0) 28 8 (by rw [Int.ceil_eq_iff]; norm_num)
      (by rw [Int.ceil_eq_iff]; norm_num) (by decide) (by decide), hgrid]
    have hcast : (80 : ℝ) ≤ ((markTile reals [strip 0 2] bedGrid
        (strictRadius reals (3 / 10) (1 / 10)) (3 / 10) 0).1 : ℕ) := by
      exact_mod_cast hcount
    linarith
  rw [Raster.build, @gridOver_tenth (0, 0) (2, 0) 30 10 (by norm_num) (by norm_num) (by norm_num)
    (by norm_num) (by decide)] at h
  obtain ⟨clearance, -, h⟩ := Option.bind_eq_some_iff.mp h
  obtain rfl := Option.some.inj h
  exact harea

/-- The grid over the bead of the upper layer. -/
noncomputable def stripGrid : Grid ℝ := ⟨(0 - 1 / 2, 0 - 1 / 2), 1 / 10, 16 + 1, 10 + 1⟩

/-- The point over the start of the bead is on its material. -/
theorem isMaterial_strip {r : Raster ℝ}
    (h : Raster.build reals [strip 0 (3 / 5)] (0, 0) (3 / 5, 0) (3 / 10) = some r) :
    r.isMaterial reals (0, 0) = true := by
  have hgrid : gridOver reals (0, 0) (3 / 5, 0) (3 / 10) = some stripGrid :=
    gridOver_tenth (by norm_num) (by norm_num) (by norm_num) (by norm_num) (by decide)
  have hcell : stripGrid.cellOf (0, 0) = (((5 : ℕ) : ℤ), ((5 : ℕ) : ℤ)) := by
    have hfloor : ⌊((0 : ℝ) - (0 - 1 / 2)) / (1 / 10)⌋ = 5 := by
      rw [Int.floor_eq_iff]
      norm_num
    rw [Grid.cellOf, stripGrid, hfloor]
    decide
  refine isMaterial_of_center h hgrid ?_ ?_ (by decide) (by decide) hcell ?_
  · intro seg hseg
    obtain rfl := List.mem_singleton.mp hseg
    constructor <;> norm_num [strip]
  · apply fill_not_stopped
    have hreach : reachOf (3 / 10) stripGrid.cell = 4 := by norm_num [reachOf, stripGrid]
    have hcount := @length_visits_le ℝ _ _ _ reals [strip 0 (3 / 5)] stripGrid 4 7 (by
      intro seg hseg
      obtain rfl := List.mem_singleton.mp hseg
      refine length_places_le (n := 6) ?_
      rw [length_strip (by norm_num)]
      norm_num [stripGrid])
    rw [hreach]
    exact hcount.trans (by decide)
  · refine ⟨strip 0 (3 / 5), by simp, ?_⟩
    have hplace : stripGrid.center ((5 : ℕ) : ℤ) ((5 : ℕ) : ℤ) = (1 / 20, 1 / 20) := by
      norm_num [Grid.center, stripGrid]
    rw [hplace]
    exact mem_capsule_strip (by norm_num) (by norm_num) (by norm_num) (by norm_num [abs_of_pos])

end Covered

section Slips

/-- The configuration of the counterexample. -/
noncomputable def stripConfig : ContactConfig ℝ where
  exclusionRadius := 3
  minSegmentLength := 1
  coverageTolerance := 1 / 2
  maxCandidates := 5
  spiralThreshold := 1 / 2
  structuralChecksEnabled := true
  contactMode := .tap
  minBedContactArea := 3 / 5
  maxAspectRatio := 3
  minEdgeMargin := 1
  minFeatureWidth := 2
  extrusionWidth := 3 / 5
  islandLinkTolerance := 3 / 5

/-- A bead of two millimetres on the bed, and some beads over its start. -/
noncomputable def stripModel (segments : List (XySegment ℝ)) : LayerModel ℝ where
  layers := [stripLayer 0 (1 / 5) [strip 0 2], stripLayer 1 (2 / 5) segments]
  annotated := true

/-- A bead cut into two. -/
noncomputable def pieces : List (XySegment ℝ) := [strip 0 (3 / 20), strip (3 / 20) (3 / 10)]

/-- The caps, but with one sample for a layer. -/
def fewSamples : Caps := { caps with maxSamplesPerLayer := 1 }

theorem validateConfig_strip : validateConfig reals stripConfig = .ok () := by
  norm_num [validateConfig, checkParam, checkMode, Checks.ensure, stripConfig, reals]
  rfl

theorem boxOf_strip {index : ℕ} {z v : ℝ} (hv : 0 ≤ v) :
    boxOf (stripLayer index z [strip 0 v]) = ⟨(0, 0), (v, 0)⟩ := by
  simp [boxOf, boxAround, strip, hv]

theorem sampleSpacing_eq {limits : Caps} {segments : List (XySegment ℝ)} {tolerance x : ℝ}
    (total : ℝ) (htotal : (segments.map (XySegment.length reals)).sum = total) (hpos : 0 < total)
    (hx : max (tolerance / 2) (total / limits.maxSamplesPerLayer) = x) :
    sampleSpacing reals limits segments tolerance = x := by
  rw [sampleSpacing, htotal, if_pos (by simp [reals, hpos]), hx]

theorem sampleSteps_strip {limits : Caps} {u v x : ℝ} {n : ℕ} (huv : u ≤ v)
    (hceil : ⌈(v - u) / x⌉ = n) (hn : 0 < n) (hle : n ≤ min limits.maxSamplesPerSegment 64) :
    sampleSteps reals limits x (strip u v) = n := by
  rw [sampleSteps, length_strip huv, hceil]
  unfold toUsize
  omega

/-- One bead is one island. -/
theorem oneIsland_strip {limits : Caps} {index : ℕ} {z v x : ℝ} {n : ℕ} (hv : 0 < v)
    (hcaps : 1 ≤ limits.maxSegmentsPerLayer ∧ 64 ≤ limits.neighborScanCap ∧
      64 ≤ limits.maxSamplesPerSegment)
    (hx : max (3 / 5 / 2) (v / limits.maxSamplesPerLayer) = x) (hceil : ⌈(v - 0) / x⌉ = n)
    (hn : 0 < n ∧ n ≤ 63) :
    OneIsland limits (3 / 5) x (stripLayer index z [strip 0 v]) ∧
      (samplesWithOwner reals limits [strip 0 v] x).length = n + 1 := by
  have hcount : (samplesWithOwner reals limits [strip 0 v] x).length = n + 1 := by
    rw [length_samplesWithOwner, List.map_singleton, List.sum_singleton,
      sampleSteps_strip hv.le hceil hn.1 (by omega)]
  have htotal : ([strip 0 v].map (XySegment.length reals)).sum = v := by
    rw [List.map_singleton, List.sum_singleton, length_strip hv.le, sub_zero]
  refine ⟨⟨by simp, by simpa using hcaps.1, ?_, ?_, fun i hi => ?_⟩, hcount⟩
  · rw [segments_stripLayer]
    exact sampleSpacing_eq v htotal hv hx
  · rw [segments_stripLayer, hcount]
    unfold u32Max
    omega
  · obtain rfl : i = 0 := by simpa using hi
    exact .refl 0

theorem total_pieces : (pieces.map (XySegment.length reals)).sum = 3 / 10 := by
  rw [pieces, List.map_cons, List.map_singleton, List.sum_cons, List.sum_singleton,
    length_strip (by norm_num), length_strip (by norm_num)]
  norm_num

/-- Two beads that meet are one island. -/
theorem oneIsland_pieces : OneIsland caps (3 / 5) (3 / 10) (stripLayer 1 (2 / 5) pieces) ∧
    (samplesWithOwner reals caps pieces (3 / 10)).length = 4 := by
  have hceil : ⌈((3 / 20 : ℝ) - 0) / (3 / 10)⌉ = (1 : ℕ) ∧
      ⌈((3 / 10 : ℝ) - 3 / 20) / (3 / 10)⌉ = (1 : ℕ) := by
    rw [Int.ceil_eq_iff, Int.ceil_eq_iff]
    norm_num
  have hcount : (samplesWithOwner reals caps pieces (3 / 10)).length = 4 := by
    rw [length_samplesWithOwner, pieces, List.map_cons, List.map_singleton, List.sum_cons,
      List.sum_singleton, sampleSteps_strip (by norm_num) hceil.1 one_pos (by decide),
      sampleSteps_strip (by norm_num) hceil.2 one_pos (by decide)]
  refine ⟨⟨by simp [pieces], by simp [pieces, caps], ?_, ?_, fun i hi => ?_⟩, hcount⟩
  · rw [segments_stripLayer]
    exact sampleSpacing_eq (3 / 10) total_pieces (by norm_num) (by norm_num [caps])
  · rw [segments_stripLayer, hcount]
    decide
  · rw [segments_stripLayer] at hi ⊢
    have hi' : i = 0 ∨ i = 1 := by
      simp [pieces] at hi
      omega
    rcases hi' with rfl | rfl
    · exact .refl 0
    · refine .rel _ _ ⟨(1, (3 / 20, 0)), ?_, (0, (3 / 20, 0)), ?_, rfl, rfl, ?_⟩
      · exact mem_samplesWithOwner.mpr ⟨_, rfl, start_mem_samplesOf _ _ _⟩
      · exact mem_samplesWithOwner.mpr ⟨_, rfl, stop_mem_samplesOf _ _ (strip 0 (3 / 20))⟩
      · rw [Plane.dist_self]
        norm_num

theorem stacked_strip {limits : Caps} {segments : List (XySegment ℝ)} {x x' : ℝ}
    (hlower : OneIsland limits (3 / 5) x (stripLayer 0 (1 / 5) [strip 0 2]))
    (hupper : OneIsland limits (3 / 5) x' (stripLayer 1 (2 / 5) segments))
    (hbetween : ∀ seg ∈ segments, ∃ u v, (0 ≤ u ∧ u ≤ v) ∧ v ≤ 3 / 5 ∧ seg = strip u v) :
    Stacked limits (stripModel segments) stripConfig (stripLayer 0 (1 / 5) [strip 0 2])
      (stripLayer 1 (2 / 5) segments) x x' where
  valid := validateConfig_strip
  layers := rfl
  onBed := by norm_num [stripLayer]
  lower := hlower
  upper := hupper
  lies := by
    refine ⟨(0, (0, 0)), mem_samplesWithOwner.mpr ⟨strip 0 2, by simp, ?_⟩, fun b hb => ?_⟩
    · exact start_mem_samplesOf limits x (strip 0 2)
    · obtain ⟨seg, hseg, hp⟩ := mem_samplesWithOwner.mp hb
      rw [segments_stripLayer] at hseg
      obtain ⟨u, v, ⟨hu, huv⟩, hv, rfl⟩ := hbetween seg (List.mem_of_getElem? hseg)
      obtain ⟨hy, hlo, hhi⟩ := mem_samplesOf_strip huv hp
      have hsides := Plane.dist_le_add b.2 (0, 0)
      rw [hy, zero_sub, sub_self, abs_zero, add_zero, abs_neg, abs_of_nonneg (by linarith)]
        at hsides
      exact hsides.trans (hhi.trans hv)

/-- The estimate of the part of the counterexample. -/
theorem effective_strip {limits : Caps} {segments : List (XySegment ℝ)} {x x' link : ℝ}
    (h : Stacked limits (stripModel segments) stripConfig (stripLayer 0 (1 / 5) [strip 0 2])
      (stripLayer 1 (2 / 5) segments) x x')
    (hlink : (samplesWithOwner reals limits segments x').length * x' * (3 / 5) = link)
    (hle : link ≤ 4 / 5) :
    ∃ a, StructuralAnalysis.build reals limits (stripModel segments) 1 stripConfig =
        some (.ok a) ∧ Analysed stripConfig (stripLayer 1 (2 / 5) segments) link a := by
  obtain ⟨bed, a, hbed, hbuild, hanalysed⟩ := h.build_eq
  have hhalf : stripConfig.extrusionWidth / 2 = 3 / 10 := by norm_num [stripConfig]
  rw [boxOf_strip (by norm_num), segments_stripLayer, hhalf] at hbed
  have harea := build_bed_ge hbed
  refine ⟨a, hbuild, ?_⟩
  have heffective : min bed.area ((samplesWithOwner reals limits
      (stripLayer 1 (2 / 5) segments).segments x').length * x' * stripConfig.extrusionWidth) =
        link := by
    rw [segments_stripLayer, show stripConfig.extrusionWidth = 3 / 5 from rfl, hlink]
    exact min_eq_right (hle.trans harea)
  rwa [heffective] at hanalysed

/-- On the bead the adhesion check is the comparison of the estimate with its threshold. -/
theorem Analysed.assess_eq {a : StructuralAnalysis ℝ} {link : ℝ}
    (h : Analysed stripConfig (stripLayer 1 (2 / 5) [strip 0 (3 / 5)]) link a) :
    ∃ v, a.assess reals (0, 0) .tap = some (.evaluated v) ∧
      v.check .bedAdhesion = some (adhesionCheck link (3 / 5)) := by
  obtain ⟨island, raster, hislands, hrasters, hindex, hbox, hraster⟩ := h.islands
  obtain ⟨trace, htraces, htrace⟩ := h.traces
  rw [boxOf_strip (by norm_num)] at hbox hraster
  have hhalf : stripConfig.extrusionWidth / 2 = 3 / 10 := by norm_num [stripConfig]
  rw [segments_stripLayer, hhalf] at hraster
  have hmaterial := isMaterial_strip hraster
  have hcontains : island.bbox.contains (0, 0) a.config.extrusionWidth = true := by
    rw [hbox, h.configured]
    norm_num [BoundingBox.contains, stripConfig]
  have hfinite : finitePoint reals (0, 0) = true := rfl
  have hat : a.islandAt reals (0, 0) = some 0 := by
    rw [StructuralAnalysis.islandAt, if_pos hfinite, hislands, hrasters]
    simp [hindex, hcontains, hmaterial]
  obtain ⟨v, hv, hchecks⟩ : ∃ v, a.verdict reals 0 (0, 0) .tap = some v ∧
      v.checks.head? = some (adhesionCheck link (3 / 5)) := by
    unfold StructuralAnalysis.verdict
    simp only [hislands, htraces, hrasters, List.getElem?_cons_zero, Option.bind_eq_bind,
      Option.bind_some]
    refine ⟨_, rfl, ?_⟩
    rw [htrace, h.configured]
    rfl
  refine ⟨v, ?_, ?_⟩
  · rw [StructuralAnalysis.assess, hfinite, hat]
    simp [invalidMode, hv]
  · rw [StructuralVerdict.check]
    cases hlist : v.checks with
    | nil => simp [hlist] at hchecks
    | cons c rest =>
      rw [hlist] at hchecks
      obtain rfl := Option.some.inj hchecks
      rfl

theorem caps_ge : 1 ≤ caps.maxSegmentsPerLayer ∧ 64 ≤ caps.neighborScanCap ∧
    64 ≤ caps.maxSamplesPerSegment := by
  decide

theorem oneIsland_bed : OneIsland caps (3 / 5) (3 / 10) (stripLayer 0 (1 / 5) [strip 0 2]) := by
  refine (oneIsland_strip (n := 7) (by norm_num) caps_ge (by norm_num [caps]) ?_ (by decide)).1
  rw [Int.ceil_eq_iff]
  norm_num

/-- The cut bead is over the bed. -/
theorem stacked_pieces : Stacked caps (stripModel pieces) stripConfig
    (stripLayer 0 (1 / 5) [strip 0 2]) (stripLayer 1 (2 / 5) pieces) (3 / 10) (3 / 10) := by
  refine stacked_strip oneIsland_bed oneIsland_pieces.1 fun seg hseg => ?_
  simp only [pieces, List.mem_cons, List.not_mem_nil, or_false] at hseg
  rcases hseg with rfl | rfl
  · exact ⟨0, 3 / 20, by norm_num, by norm_num, rfl⟩
  · exact ⟨3 / 20, 3 / 10, by norm_num, by norm_num, rfl⟩

/-- The bead is over the bed, however far its samples are apart. -/
theorem stacked_single {limits : Caps} {x x' : ℝ}
    (hlower : OneIsland limits (3 / 5) x (stripLayer 0 (1 / 5) [strip 0 2]))
    (hupper : OneIsland limits (3 / 5) x' (stripLayer 1 (2 / 5) [strip 0 (3 / 5)])) :
    Stacked limits (stripModel [strip 0 (3 / 5)]) stripConfig (stripLayer 0 (1 / 5) [strip 0 2])
      (stripLayer 1 (2 / 5) [strip 0 (3 / 5)]) x x' := by
  refine stacked_strip hlower hupper fun seg hseg => ?_
  obtain rfl := List.mem_singleton.mp hseg
  exact ⟨0, 3 / 5, by norm_num, le_rfl, rfl⟩

theorem uncut_pieces_reverse : Uncut caps (stripLayer 1 (2 / 5) pieces.reverse)
    stripConfig.islandLinkTolerance where
  segments := by
    rw [segments_stripLayer]
    decide
  neighbors before sample after heq := by
    have hspaced : sampleSpacing reals caps pieces.reverse stripConfig.islandLinkTolerance =
        3 / 10 := by
      have hsum : (pieces.reverse.map (XySegment.length reals)).sum = 3 / 10 := by
        rw [((List.reverse_perm pieces).map _).sum_eq, total_pieces]
      exact sampleSpacing_eq (3 / 10) hsum (by norm_num) (by norm_num [caps, stripConfig])
    have hlength := congrArg List.length heq
    have hcount := oneIsland_pieces.2
    rw [segments_stripLayer, hspaced, length_samplesWithOwner,
      ((List.reverse_perm pieces).map _).sum_eq, ← length_samplesWithOwner, hcount,
      List.length_append, List.length_cons] at hlength
    refine (samplesAround_le _ before sample.2).trans ?_
    have hcap : caps.neighborScanCap = 64 := rfl
    omega

theorem single_pieces : Single caps (3 / 5) (3 / 10) (stripLayer 1 (2 / 5) pieces)
    (LayerShape.build reals caps (stripLayer 1 (2 / 5) pieces) stripConfig.islandLinkTolerance) :=
  single_of_oneIsland (by norm_num) oneIsland_pieces.1

theorem analysed_pieces : ∃ a,
    StructuralAnalysis.build reals caps (stripModel pieces) 1 stripConfig = some (.ok a) ∧
      Analysed stripConfig (stripLayer 1 (2 / 5) pieces) (18 / 25) a := by
  refine effective_strip stacked_pieces ?_ (by norm_num)
  rw [oneIsland_pieces.2]
  norm_num

/-- In one piece, the bead counts for as much as it should. -/
theorem analysed_single : ∃ a,
    StructuralAnalysis.build reals caps (stripModel [strip 0 (3 / 5)]) 1 stripConfig =
        some (.ok a) ∧
      Analysed stripConfig (stripLayer 1 (2 / 5) [strip 0 (3 / 5)]) (27 / 50) a := by
  obtain ⟨hupper, hcount⟩ := @oneIsland_strip caps 1 (2 / 5) (3 / 5) (3 / 10) 2 (by norm_num)
    caps_ge (by norm_num [caps]) (by rw [Int.ceil_eq_iff]; norm_num) (by decide)
  refine effective_strip (stacked_single oneIsland_bed hupper) ?_ (by norm_num)
  rw [hcount]
  norm_num

/-- With fewer samples each of them stands for more. -/
theorem analysed_fewSamples : ∃ a,
    StructuralAnalysis.build reals fewSamples (stripModel [strip 0 (3 / 5)]) 1 stripConfig =
        some (.ok a) ∧
      Analysed stripConfig (stripLayer 1 (2 / 5) [strip 0 (3 / 5)]) (18 / 25) a := by
  obtain ⟨hlower, -⟩ := @oneIsland_strip fewSamples 0 (1 / 5) 2 2 1 (by norm_num)
    caps_ge (by norm_num [fewSamples]) (by rw [Int.ceil_eq_iff]; norm_num) (by decide)
  obtain ⟨hupper, hcount⟩ := @oneIsland_strip fewSamples 1 (2 / 5) (3 / 5) (3 / 5) 1 (by norm_num)
    caps_ge (by norm_num [fewSamples]) (by rw [Int.ceil_eq_iff]; norm_num) (by decide)
  refine effective_strip (stacked_single hlower hupper) ?_ (by norm_num)
  rw [hcount]
  norm_num

end Slips

section Conservative

end Conservative

end DeadReckoning.Contact
