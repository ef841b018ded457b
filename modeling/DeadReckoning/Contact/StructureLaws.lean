import DeadReckoning.Contact.IslandLaws
import DeadReckoning.Contact.RasterLaws
import DeadReckoning.Contact.Structure

/-! What the estimates of an island amount to: the smallest connection on the way down is at most
the beads of the islands that it goes through, each bead with two spacings more. -/
namespace DeadReckoning.Contact
open Gcode (reals)

section Valid

variable {config : ContactConfig ℝ}

theorem checkParam_eq_ok {value : ℝ} {param : Text} {u : Unit}
    (h : checkParam reals value param false = .ok u) : 0 < value := by
  rw [checkParam, Checks.ensure_eq_ok] at h
  simpa using (Bool.and_eq_true_iff.mp h).2

/-- What a valid configuration has of its widths. -/
theorem validateConfig_eq_ok (h : validateConfig reals config = .ok ()) :
    0 < config.extrusionWidth ∧ 0 < config.islandLinkTolerance := by
  unfold validateConfig at h
  iterate 9 obtain ⟨_, -, h⟩ := Checks.bind_eq_ok.mp h
  obtain ⟨_, hwidth, h⟩ := Checks.bind_eq_ok.mp h
  obtain ⟨_, htolerance, -⟩ := Checks.bind_eq_ok.mp h
  exact ⟨checkParam_eq_ok hwidth, checkParam_eq_ok htolerance⟩

end Valid

section Samples

variable {limits : Caps} {segments : List (XySegment ℝ)} {tolerance spacing : ℝ}
  {seg : XySegment ℝ}

theorem sampleSpacing_pos (htolerance : 0 < tolerance) :
    0 < sampleSpacing reals limits segments tolerance := by
  unfold sampleSpacing
  dsimp only
  split
  · exact lt_max_of_lt_left (by linarith)
  · linarith

/-- The samples of a bead stand for at most its length and two spacings. -/
theorem length_samplesOf_le (hspacing : 0 < spacing) :
    ((samplesOf reals limits spacing seg).length : ℝ) * spacing ≤
      seg.length reals + 2 * spacing := by
  have hlength : 0 ≤ seg.length reals := Plane.dist_nonneg _ _
  obtain ⟨steps, hsteps⟩ : ∃ steps, steps = sampleSteps reals limits spacing seg := ⟨_, rfl⟩
  have hcount : (samplesOf reals limits spacing seg).length ≤ steps + 1 := by
    refine (List.length_filter_le _ _).trans ?_
    rw [List.length_map, List.length_range, hsteps]
  have hbound : (steps : ℝ) * spacing ≤ seg.length reals + spacing := by
    have hceil := Int.ceil_lt_add_one (seg.length reals / spacing)
    have hceil₀ : 0 ≤ ⌈seg.length reals / spacing⌉ :=
      Int.ceil_nonneg (div_nonneg hlength hspacing.le)
    have hle : (steps : ℝ) ≤ seg.length reals / spacing + 1 := by
      rw [hsteps, sampleSteps, Nat.cast_max]
      refine max_le ?_ ?_
      · rw [Nat.cast_one]
        linarith [div_nonneg hlength hspacing.le]
      · have hint : ((min (toUsize ⌈seg.length reals / spacing⌉)
            limits.maxSamplesPerSegment : ℕ) : ℤ) ≤ ⌈seg.length reals / spacing⌉ := by
          unfold toUsize
          omega
        have hreal : ((min (toUsize ⌈seg.length reals / spacing⌉)
            limits.maxSamplesPerSegment : ℕ) : ℝ) ≤ ⌈seg.length reals / spacing⌉ := by
          exact_mod_cast hint
        linarith
    have hscaled := mul_le_mul_of_nonneg_right hle hspacing.le
    rwa [add_mul, div_mul_cancel₀ _ hspacing.ne', one_mul] at hscaled
  have hcast : ((samplesOf reals limits spacing seg).length : ℝ) ≤ steps + 1 := by
    exact_mod_cast hcount
  have hscaled := mul_le_mul_of_nonneg_right hcast hspacing.le
  linarith

end Samples

section Members

variable {segments : List (XySegment ℝ)} {spacing : ℝ} {members : List ℕ} {layer : Layer ℝ}
  {tolerance : ℝ} {m : ℕ}

/-- The segments at the places of a kind are the ones whose place is of that kind. -/
theorem filterMap_range' {α : Type} (l : List α) (k : ℕ) (P : ℕ → Bool) :
    ((List.range' k l.length).filter P).filterMap (fun i => l[i - k]?) =
      ((l.zipIdx k).filter fun b => P b.2).map Prod.fst := by
  induction l generalizing k with
  | nil => rfl
  | cons a l ih =>
    have hrest : ((List.range' (k + 1) l.length).filter P).filterMap (fun i => (a :: l)[i - k]?) =
        ((l.zipIdx (k + 1)).filter fun b => P b.2).map Prod.fst := by
      rw [← ih (k + 1)]
      refine List.filterMap_congr fun i hi => ?_
      have hlt := (List.mem_range'_1.mp (List.mem_filter.mp hi).1).1
      rw [show i - k = i - (k + 1) + 1 by omega, List.getElem?_cons_succ]
    rw [List.length_cons, List.range'_succ, List.zipIdx_cons]
    cases hP : P k with
    | true => simp [hP, hrest]
    | false => simp [hP, hrest]

/-- As many samples are of the segments at some places as those segments have. -/
theorem countP_samplesWithOwner (limits : Caps) (P : ℕ → Bool) :
    (samplesWithOwner reals limits segments spacing).countP (fun b => P b.1) =
      ((islandSegments segments ((List.range segments.length).filter P)).map fun seg =>
        (samplesOf reals limits spacing seg).length).sum := by
  have hplaces := filterMap_range' segments 0 P
  simp only [Nat.sub_zero, ← List.range_eq_range'] at hplaces
  rw [islandSegments, hplaces, samplesWithOwner]
  generalize segments.zipIdx = indexed
  induction indexed with
  | nil => rfl
  | cons b indexed ih =>
    rw [List.flatMap_cons, List.countP_append, ih, List.countP_map]
    cases hP : P b.2 with
    | true => simp [Function.comp_def, hP]
    | false => simp [Function.comp_def, hP]

/-- The beads of an island. -/
def LayerShape.beads {K : Type} (shape : LayerShape K) (island : ℕ) : List (XySegment K) :=
  islandSegments shape.segments (shape.members.getD island [])

/-- The lengths of the beads of some islands, with two spacings for each bead. -/
noncomputable def LayerShape.reach (shape : LayerShape ℝ) (islands : List ℕ) : ℝ :=
  ((islands.flatMap shape.beads).map fun seg => seg.length reals + 2 * shape.spacing).sum

theorem Collected.members_getD {root : ℕ → ℕ} {n k : ℕ} {s : Components}
    (h : Collected root n k s) (m : ℕ) :
    s.members.getD m [] = (List.range k).filter fun i => s.islandOf[i]? = some m := by
  rw [List.getD_eq_getElem?_getD]
  cases hm : s.members[m]? with
  | some l => exact h.members m l hm
  | none =>
    symm
    rw [Option.getD_none, List.filter_eq_nil_iff]
    intro i hi heq
    obtain ⟨m', hm', hroot⟩ := h.islandOf i (List.mem_range.mp hi)
    rw [decide_eq_true_eq, hm'] at heq
    obtain rfl := Option.some.inj heq
    rw [List.getElem?_eq_none_iff, h.sizes] at hm
    have hlt := (List.getElem?_eq_some_iff.mp hroot).1
    omega

/-- The samples of a shape are those of its segments, and the members of an island are the segments
whose samples are of it. -/
theorem build_samples (layer : Layer ℝ) (tolerance : ℝ) :
    ∃ islandOf : List ℕ, ∀ shape, shape = LayerShape.build reals caps layer tolerance →
      shape.samples.zip shape.sampleIsland =
        (samplesWithOwner reals caps shape.segments shape.spacing).map
          (fun b => (b.2, entry islandOf 0 b.1)) ∧
      islandOf.length = shape.segments.length ∧
      ∀ m, shape.members.getD m [] =
        (List.range shape.segments.length).filter fun i => islandOf[i]? = some m := by
  obtain ⟨segments, hsegments⟩ : ∃ segments, segments =
      (layer.segments.filter (segmentFinite reals)).take caps.maxSegmentsPerLayer := ⟨_, rfl⟩
  obtain ⟨spacing, hspacing⟩ : ∃ spacing,
      spacing = sampleSpacing reals caps segments tolerance := ⟨_, rfl⟩
  have hids : ([] ++ samplesWithOwner reals caps segments spacing).length ≤ u32Max :=
    length_samplesWithOwner_le (hsegments ▸ List.length_take_le _ _)
  have howners : ∀ b ∈ [] ++ samplesWithOwner reals caps segments spacing,
      b.1 < segments.length := by
    intro b hb
    obtain ⟨seg, hseg, -⟩ := mem_samplesWithOwner.mp hb
    exact (List.getElem?_eq_some_iff.mp hseg).1
  have hkept := (kept_nil segments.length).foldl caps tolerance howners hids
  rw [List.nil_append] at hkept
  obtain ⟨_, root, rank, hforest, -⟩ := hkept.joined
  have hcollected := collected rank hforest hkept.length le_rfl
  refine ⟨(collectComponents (sampleAndLink reals caps segments tolerance spacing).parent
    segments.length).islandOf, ?_⟩
  rintro shape rfl
  simp only [LayerShape.build, ← hsegments, ← hspacing]
  refine ⟨?_, hcollected.count, hcollected.members_getD⟩
  rw [sampleAndLink, hkept.samples, hkept.owner, List.map_map, List.zip_map']
  rfl

end Members

section Connections

variable {layer : Layer ℝ} {tolerance : ℝ} {upper lower : LayerShape ℝ}
  {config : ContactConfig ℝ}

theorem sum_map_mul_le {α : Type} {l : List α} {count : α → ℕ} {spacing : ℝ} {bound : α → ℝ}
    (h : ∀ a ∈ l, (count a : ℝ) * spacing ≤ bound a) :
    ((l.map count).sum : ℝ) * spacing ≤ (l.map bound).sum := by
  induction l with
  | nil => simp
  | cons a l ih =>
    have hhead := h a (by simp)
    have htail := ih fun b hb => h b (by simp [hb])
    rw [List.map_cons, List.sum_cons, List.map_cons, List.sum_cons, Nat.cast_add, add_mul]
    exact add_le_add hhead htail

/-- The samples of an island stand for its beads, with two spacings for each bead. -/
theorem countP_sampleIsland (htolerance : 0 < tolerance)
    (hupper : upper = LayerShape.build reals caps layer tolerance) (island : ℕ) :
    (((upper.samples.zip upper.sampleIsland).countP fun b => b.2 = island : ℕ) : ℝ) *
      upper.spacing ≤ upper.reach [island] := by
  obtain ⟨islandOf, hbuild⟩ := build_samples layer tolerance
  obtain ⟨hsamples, hlength, hmembers⟩ := hbuild upper hupper
  have hspacing : 0 < upper.spacing := by
    rw [hupper]
    exact sampleSpacing_pos htolerance
  have hcount : (upper.samples.zip upper.sampleIsland).countP (fun b => b.2 = island) =
      ((upper.beads island).map fun seg =>
        (samplesOf reals caps upper.spacing seg).length).sum := by
    rw [LayerShape.beads, hmembers, ← countP_samplesWithOwner, hsamples, List.countP_map]
    refine List.countP_congr fun b hb => ?_
    obtain ⟨seg, hseg, -⟩ := mem_samplesWithOwner.mp hb
    have hlt := (List.getElem?_eq_some_iff.mp hseg).1
    rw [← hlength] at hlt
    simp [entry, hlt]
  rw [hcount, LayerShape.reach]
  simp only [List.flatMap_singleton]
  exact sum_map_mul_le fun seg _ => length_samplesOf_le hspacing

/-- The count of an island grows at most by the samples that are its own. -/
theorem entry_foldl_correspond_le (arith : Gcode.Arithmetic ℝ) (limits : Caps) (island : ℕ)
    (l : List (Xy ℝ × ℕ)) (corr : List (List ℕ)) (linked : List ℕ) :
    entry (l.foldl (fun (corr, linked) (point, owner) =>
      let hits := lower.hits arith limits point tolerance
      if hits = [] then (corr, linked)
      else (corr.modify owner fun islands => hits.foldl pushNew islands,
        linked.modify owner (· + 1))) (corr, linked)).2 0 island ≤
      entry linked 0 island + l.countP fun b => b.2 = island := by
  induction l generalizing corr linked with
  | nil => simp
  | cons b l ih =>
    obtain ⟨point, owner⟩ := b
    rw [List.foldl_cons, List.countP_cons]
    dsimp only
    split
    · exact (ih _ _).trans (by omega)
    · refine (ih _ _).trans ?_
      have hmodify : entry (linked.modify owner (· + 1)) 0 island ≤
          entry linked 0 island + if owner = island then 1 else 0 := by
        simp only [entry, List.getD_eq_getElem?_getD, List.getElem?_modify]
        cases linked[island]? with
        | none => simp
        | some n =>
          by_cases h : owner = island
          · simp [h]
          · simp [h]
      simp only [decide_eq_true_eq]
      omega

/-- At most all samples of an island lie on something. -/
theorem entry_correspond_le (arith : Gcode.Arithmetic ℝ) (limits : Caps) (island : ℕ) :
    entry (correspond arith limits upper lower tolerance).2 0 island ≤
      (upper.samples.zip upper.sampleIsland).countP fun b => b.2 = island := by
  have hstart := @entry_foldl_correspond_le tolerance lower arith limits island
    (upper.samples.zip upper.sampleIsland) (List.replicate upper.islandCount [])
    (List.replicate upper.islandCount 0)
  have hzero : entry (List.replicate upper.islandCount 0) 0 island = 0 := by
    rw [entry, List.getD_eq_getElem?_getD, List.getElem?_replicate]
    split
    · rfl
    · rfl
  rwa [hzero, Nat.zero_add] at hstart

/-- The connection of some islands with the layer below is at most their beads, with two spacings
for each bead. -/
theorem connection_le (htolerance : 0 < tolerance)
    (hupper : upper = LayerShape.build reals caps layer tolerance) (group : List ℕ) :
    (((group.map (entry (correspond reals caps upper lower tolerance).2 0)).sum : ℕ) : ℝ) *
      upper.spacing ≤ upper.reach group := by
  have hspacing : 0 < upper.spacing := by
    rw [hupper]
    exact sampleSpacing_pos htolerance
  have hislands : upper.reach group = (group.map fun island => upper.reach [island]).sum := by
    induction group with
    | nil => rfl
    | cons island group ih =>
      rw [List.map_cons, List.sum_cons, ← ih]
      simp [LayerShape.reach]
  rw [hislands]
  refine sum_map_mul_le fun island _ => ?_
  have hcast : ((entry (correspond reals caps upper lower tolerance).2 0 island : ℕ) : ℝ) ≤
      ((upper.samples.zip upper.sampleIsland).countP fun b => b.2 = island : ℕ) := by
    exact_mod_cast entry_correspond_le reals caps island
  exact (mul_le_mul_of_nonneg_right hcast hspacing.le).trans
    (countP_sampleIsland htolerance hupper island)

end Connections

section Descent

variable {model : LayerModel ℝ} {config : ContactConfig ℝ} {topLayer k lowerLayer : ℕ}
  {top upper lower final : LayerShape ℝ} {footings out : List (Footing ℝ)} {f g : Footing ℝ}
  {corr : List (List ℕ)} {linked : List ℕ} {spacing width : ℝ}

/-- What the islands of a layer rest on before any step down. -/
def initialFootings (shape : LayerShape ℝ) : List (Footing ℝ) :=
  (List.range shape.islandCount).map fun i => ⟨[i], ⊤, none⟩

/-- What the islands of the top layer rest on at a layer further down. -/
inductive Reaches (model : LayerModel ℝ) (config : ContactConfig ℝ) (topLayer : ℕ)
    (top : LayerShape ℝ) : ℕ → LayerShape ℝ → List (Footing ℝ) → Prop where
  | top : Reaches model config topLayer top topLayer top (initialFootings top)
  | down {k : ℕ} {upper : LayerShape ℝ} {footings : List (Footing ℝ)} {next : Layer ℝ} :
      Reaches model config topLayer top (k + 1) upper footings → model.layer k = some next →
      Reaches model config topLayer top k
        (LayerShape.build reals caps next config.islandLinkTolerance)
        (stepDown reals caps upper (LayerShape.build reals caps next config.islandLinkTolerance) k
          config footings)

/-- The descent passes through all that it reaches. -/
theorem Reaches.descend (h : Reaches model config topLayer top k upper footings) :
    descend reals caps model config topLayer top (initialFootings top) =
      descend reals caps model config k upper footings := by
  induction h with
  | top => rfl
  | down _ hlayer ih =>
    rw [ih, Contact.descend, hlayer]

/-- Every layer shape on the way is that of a layer. -/
theorem Reaches.shape (h : Reaches model config topLayer top k upper footings)
    (htop : ∃ layer, top = LayerShape.build reals caps layer config.islandLinkTolerance) :
    ∃ layer, upper = LayerShape.build reals caps layer config.islandLinkTolerance := by
  induction h with
  | top => exact htop
  | down _ _ _ => exact ⟨_, rfl⟩

/-- A connection further down is weaker, and what rests on nothing stays so. -/
structure Weaker (g f : Footing ℝ) : Prop where
  weakest : g.weakest ≤ f.weakest
  broken : ∀ layer, f.broken = some layer → g.broken = some layer

theorem Weaker.refl (f : Footing ℝ) : Weaker f f := ⟨le_rfl, fun _ h => h⟩

theorem Weaker.trans {e : Footing ℝ} (hgf : Weaker g f) (hfe : Weaker f e) : Weaker g e :=
  ⟨hgf.weakest.trans hfe.weakest, fun layer h => hgf.broken layer (hfe.broken layer h)⟩

/-- One layer down the connection is at most the beads that lie on something. -/
theorem stepFooting_spec (corr : List (List ℕ)) (linked : List ℕ) (spacing width : ℝ)
    (lowerLayer : ℕ) (f : Footing ℝ) :
    Weaker (stepFooting corr linked spacing width lowerLayer f) f ∧
      (f.broken = none → (stepFooting corr linked spacing width lowerLayer f).weakest ≤
        (((f.group.map (entry linked 0)).sum : ℕ) * spacing * width : ℝ)) := by
  unfold stepFooting
  cases hbroken : f.broken with
  | some layer =>
    simp only [Option.isSome_some, if_true]
    exact ⟨.refl f, fun h => nomatch h⟩
  | none =>
    simp only [Option.isSome_none, Bool.false_eq_true, if_false]
    split
    · exact ⟨⟨min_le_left _ _, fun _ h => nomatch hbroken.symm.trans h⟩, fun _ => min_le_right _ _⟩
    · exact ⟨⟨min_le_left _ _, fun _ h => nomatch hbroken.symm.trans h⟩, fun _ => min_le_right _ _⟩

theorem descend_weaker (h : descend reals caps model config k upper footings = some (final, out))
    {i : ℕ} (hf : footings[i]? = some f) : ∃ g, out[i]? = some g ∧ Weaker g f := by
  induction k generalizing upper footings f with
  | zero =>
    obtain ⟨-, rfl⟩ := Prod.mk.inj (Option.some.inj h)
    exact ⟨f, hf, .refl f⟩
  | succ k ih =>
    rw [Contact.descend] at h
    split at h
    · cases h
    · rename_i next _
      obtain ⟨g, hg, hweaker⟩ := ih h (f := stepFooting
        (correspond reals caps upper _ config.islandLinkTolerance).1
        (correspond reals caps upper
          (LayerShape.build reals caps next config.islandLinkTolerance)
          config.islandLinkTolerance).2 upper.spacing config.extrusionWidth k f) (by
          rw [stepDown, List.getElem?_map, hf]
          rfl)
      exact ⟨g, hg, hweaker.trans (stepFooting_spec _ _ _ _ _ f).1⟩

theorem nodup_pushNew {l : List ℕ} (h : l.Nodup) (xs : List ℕ) : (xs.foldl pushNew l).Nodup := by
  induction xs generalizing l with
  | nil => exact h
  | cons x xs ih =>
    rw [List.foldl_cons]
    refine ih ?_
    unfold pushNew
    split
    · exact h
    · exact h.append (List.nodup_singleton x) (by simpa)

/-- No island is twice in a footing. -/
theorem stepFooting_nodup (h : f.group.Nodup) :
    (stepFooting corr linked spacing width lowerLayer f).group.Nodup := by
  have hnext (group : List ℕ) (next : List ℕ) (hnodup : next.Nodup) :
      (group.foldl (fun next owner => (entry corr [] owner).foldl pushNew next) next).Nodup := by
    induction group generalizing next with
    | nil => exact hnodup
    | cons owner group ih => exact ih _ (nodup_pushNew hnodup _)
  unfold stepFooting
  split
  · exact h
  · dsimp only
    split
    · exact h
    · exact (List.perm_insertionSort _ _).nodup_iff.mpr (hnext f.group [] List.nodup_nil)

theorem Reaches.nodup (h : Reaches model config topLayer top k upper footings) (hf : f ∈ footings) :
    f.group.Nodup := by
  induction h generalizing f with
  | top =>
    obtain ⟨i, -, rfl⟩ := List.mem_map.mp hf
    exact List.nodup_singleton i
  | down _ _ ih =>
    rw [stepDown] at hf
    obtain ⟨g, hg, rfl⟩ := List.mem_map.mp hf
    exact stepFooting_nodup (ih hg)

theorem Reaches.le (h : Reaches model config topLayer top k upper footings) : k ≤ topLayer := by
  induction h with
  | top => exact le_rfl
  | down _ _ ih => omega

end Descent

section Traces

variable {model : LayerModel ℝ} {config : ContactConfig ℝ} {topLayer layer k i : ℕ}
  {next : Layer ℝ} {top upper : LayerShape ℝ} {footings : List (Footing ℝ)} {f : Footing ℝ}
  {bed : List (Island ℝ)} {traces : List (FootprintTrace ℝ)} {trace : FootprintTrace ℝ}
  {a : StructuralAnalysis ℝ}

theorem reach_nonneg (hspacing : 0 < upper.spacing) (group : List ℕ) : 0 ≤ upper.reach group := by
  refine List.sum_nonneg fun x hx => ?_
  obtain ⟨seg, -, rfl⟩ := List.mem_map.mp hx
  have hlength : 0 ≤ seg.length reals := Plane.dist_nonneg _ _
  linarith

/-- What an island has of effective area is part of what it has on the bed, and at most its weakest
connection. -/
theorem assembleTrace_spec (harea : ∀ island ∈ bed, 0 ≤ island.area) :
    (assembleTrace reals i f bed).effectiveArea ≤ (assembleTrace reals i f bed).bedArea ∧
      ∀ limit : ℝ, 0 ≤ limit → f.weakest ≤ limit →
        (assembleTrace reals i f bed).effectiveArea ≤ limit := by
  unfold assembleTrace
  dsimp only
  constructor
  · split
    · exact min_le_left _ _
    · refine List.sum_nonneg fun x hx => ?_
      obtain ⟨index, -, hindex⟩ := List.mem_filterMap.mp hx
      obtain ⟨island, hisland, rfl⟩ := Option.map_eq_some_iff.mp hindex
      exact harea island (List.mem_of_getElem? hisland)
  · intro limit hlimit hweakest
    split
    · cases hlink : f.weakest with
      | top => exact absurd (hlink ▸ hweakest) (by simp)
      | coe v =>
        rw [hlink] at hweakest
        exact (min_le_right _ _).trans (WithTop.coe_le_coe.mp hweakest)
    · exact hlimit

theorem strictArea_nonneg (segments : List (XySegment ℝ)) (lo hi : Xy ℝ) (halfWidth : ℝ) :
    0 ≤ (strictArea reals segments lo hi halfWidth).1 := by
  unfold strictArea
  dsimp only
  split
  · exact le_rfl
  · split
    · exact le_rfl
    · have hcell := growCell_pos (hi.1 - lo.1 + 2 * (halfWidth + baseCell halfWidth))
        (hi.2 - lo.2 + 2 * (halfWidth + baseCell halfWidth))
        ((max ⌊reals.sqrt (cellBudget : ℝ)⌋ 1 : ℤ) : ℝ) 64 (baseCell_pos halfWidth) false
      positivity

theorem build_area_nonneg {segments : List (XySegment ℝ)} {lo hi : Xy ℝ} {halfWidth : ℝ}
    {r : Raster ℝ} (h : Raster.build reals segments lo hi halfWidth = some r) : 0 ≤ r.area := by
  unfold Raster.build at h
  split at h
  · obtain rfl := Option.some.inj h
    exact le_rfl
  · obtain ⟨clearance, -, h⟩ := Option.bind_eq_some_iff.mp h
    obtain rfl := Option.some.inj h
    exact strictArea_nonneg _ _ _ _

theorem mapM_forall₂ {α β : Type} {f : α → Option β} {l : List α} {out : List β}
    (h : l.mapM f = some out) : List.Forall₂ (fun a b => f a = some b) l out := by
  induction l generalizing out with
  | nil =>
    obtain rfl := Option.some.inj h
    exact .nil
  | cons a l ih =>
    rw [List.mapM_cons] at h
    obtain ⟨b, hb, h⟩ := Option.bind_eq_some_iff.mp h
    obtain ⟨rest, hrest, h⟩ := Option.bind_eq_some_iff.mp h
    obtain rfl := Option.some.inj h
    exact .cons hb (ih hrest)

theorem materialize_area_nonneg {shape : LayerShape ℝ} {halfWidth : ℝ}
    {materialized : List (Island ℝ × Raster ℝ)}
    (h : materialize reals shape layer halfWidth = some materialized) :
    ∀ island ∈ materialized.map Prod.fst, 0 ≤ island.area := by
  intro island hisland
  obtain ⟨⟨island, raster⟩, hmem, rfl⟩ := List.mem_map.mp hisland
  obtain ⟨n, hn⟩ := List.mem_iff_getElem?.mp hmem
  obtain ⟨hlt, hget⟩ := List.getElem?_eq_some_iff.mp hn
  have hforall := mapM_forall₂ h
  have hbuild := hforall.get (hforall.length_eq.symm ▸ hlt) hlt
  rw [List.get_eq_getElem, List.get_eq_getElem, hget] at hbuild
  obtain ⟨bbox, -, hbuild⟩ := Option.bind_eq_some_iff.mp hbuild
  obtain ⟨centroid, -, hbuild⟩ := Option.bind_eq_some_iff.mp hbuild
  obtain ⟨pathLength, -, hbuild⟩ := Option.bind_eq_some_iff.mp hbuild
  obtain ⟨raster', hraster, hbuild⟩ := Option.bind_eq_some_iff.mp hbuild
  obtain ⟨rfl, rfl⟩ := Prod.mk.inj (Option.some.inj hbuild)
  exact build_area_nonneg hraster

/-- The connection of an island with the layer below, at every step of the way down, is at most the
beads that it goes through. -/
theorem descend_weakest_le {final : LayerShape ℝ} {out : List (Footing ℝ)} {g : Footing ℝ}
    (hwidth : 0 < config.extrusionWidth) (htolerance : 0 < config.islandLinkTolerance)
    (htop : ∃ layer, top = LayerShape.build reals caps layer config.islandLinkTolerance)
    (hreaches : Reaches model config topLayer top (k + 1) upper footings)
    (hdescend : descend reals caps model config topLayer top (initialFootings top) =
      some (final, out))
    (hg : out[i]? = some g) (hf : footings[i]? = some f) (hresting : g.broken = none) :
    g.weakest ≤ (config.extrusionWidth * upper.reach f.group : ℝ) := by
  obtain ⟨data, hupper⟩ := hreaches.shape htop
  rw [hreaches.descend, Contact.descend] at hdescend
  split at hdescend
  · cases hdescend
  · rename_i next _
    dsimp only at hdescend
    obtain ⟨lower, hlower⟩ : ∃ lower,
        lower = LayerShape.build reals caps next config.islandLinkTolerance := ⟨_, rfl⟩
    obtain ⟨joined, hjoined⟩ : ∃ joined,
        joined = correspond reals caps upper lower config.islandLinkTolerance := ⟨_, rfl⟩
    rw [← hlower] at hdescend
    have hstep : (stepDown reals caps upper lower k config footings)[i]? =
        some (stepFooting joined.1 joined.2 upper.spacing config.extrusionWidth k f) := by
      rw [stepDown, List.getElem?_map, hf, hjoined]
      rfl
    obtain ⟨g', hg', hweaker⟩ := descend_weaker hdescend hstep
    obtain rfl := Option.some.inj (hg.symm.trans hg')
    obtain ⟨hbelow, hweakest⟩ := stepFooting_spec joined.1 joined.2 upper.spacing
      config.extrusionWidth k f
    have hunbroken : f.broken = none := by
      cases hbroken : f.broken with
      | none => rfl
      | some layer =>
        have hlayer := (hweaker.trans hbelow).broken layer hbroken
        rw [hresting] at hlayer
        cases hlayer
    refine (hweaker.weakest.trans (hweakest hunbroken)).trans (WithTop.coe_le_coe.mpr ?_)
    rw [mul_comm config.extrusionWidth, hjoined]
    exact mul_le_mul_of_nonneg_right (connection_le htolerance hupper f.group) hwidth.le

/-- An island is on the bed, or traced down to it, or not traced. -/
theorem traceStack_cases (h : traceStack reals caps model topLayer top config = some (traces, bed))
    (htrace : traces[i]? = some trace) :
    (topLayer = 0 ∧ trace.effectiveArea = trace.bedArea) ∨
      (trace.effectiveArea = 0 ∧ trace.bedArea = 0) ∨
      ∃ final out g, descend reals caps model config topLayer top (initialFootings top) =
          some (final, out) ∧ out[i]? = some g ∧ trace = assembleTrace reals i g bed ∧
        ∀ island ∈ bed, 0 ≤ island.area := by
  have hmissing {status : TraceStatus ℝ} {reached : ℕ}
      (h : (unresolvedTraces top.islandCount status reached)[i]? = some trace) :
      trace.effectiveArea = 0 ∧ trace.bedArea = 0 := by
    obtain ⟨island, -, rfl⟩ := List.mem_map.mp (List.mem_of_getElem? h)
    exact ⟨rfl, rfl⟩
  unfold traceStack at h
  extract_lets halfWidth at h
  split at h
  · rename_i hzero
    obtain ⟨islands, -, hislands⟩ := Option.map_eq_some_iff.mp h
    obtain ⟨rfl, -⟩ := Prod.mk.inj hislands
    obtain ⟨⟨island, raster⟩, -, rfl⟩ := List.mem_map.mp (List.mem_of_getElem? htrace)
    exact .inl ⟨hzero, rfl⟩
  · rename_i zeroZ _ _
    clear_value zeroZ
    split at h
    · split at h
      · obtain ⟨rfl, -⟩ := Prod.mk.inj (Option.some.inj h)
        exact .inr (.inl (hmissing htrace))
      · rename_i final out hdescend
        obtain ⟨islands, hislands, hpair⟩ := Option.map_eq_some_iff.mp h
        obtain ⟨rfl, rfl⟩ := Prod.mk.inj hpair
        rw [List.getElem?_map] at htrace
        obtain ⟨⟨g, i'⟩, hg, rfl⟩ := Option.map_eq_some_iff.mp htrace
        obtain ⟨rfl, hg⟩ : i' = i ∧ out[i]? = some g := by
          rw [List.getElem?_zipIdx] at hg
          obtain ⟨g', hg', heq⟩ := Option.map_eq_some_iff.mp hg
          obtain ⟨rfl, rfl⟩ := Prod.mk.inj heq
          exact ⟨Nat.zero_add i, hg'⟩
        exact .inr (.inr ⟨final, out, g, hdescend, hg, rfl, materialize_area_nonneg hislands⟩)
    · obtain ⟨rfl, -⟩ := Prod.mk.inj (Option.some.inj h)
      exact .inr (.inl (hmissing htrace))

theorem assembleTrace_broken {g : Footing ℝ} (h : g.broken ≠ none) :
    (assembleTrace reals i g bed).effectiveArea = 0 := by
  unfold assembleTrace
  cases hbroken : g.broken with
  | none => exact absurd hbroken h
  | some layer => rfl

/-- What an island has of effective area is part of what it has on the bed, and at every step of
the way down at most the beads that hold it, with two spacings for each bead. -/
theorem effectiveArea_le {data : Layer ℝ} (hwidth : 0 < config.extrusionWidth)
    (htolerance : 0 < config.islandLinkTolerance)
    (htop : top = LayerShape.build reals caps data config.islandLinkTolerance)
    (hstack : traceStack reals caps model topLayer top config = some (traces, bed))
    (htrace : traces[i]? = some trace) :
    trace.effectiveArea ≤ trace.bedArea ∧ ∀ k upper footings f,
      Reaches model config topLayer top (k + 1) upper footings → footings[i]? = some f →
      trace.effectiveArea ≤ config.extrusionWidth * upper.reach f.group := by
  have hbound {k : ℕ} {upper : LayerShape ℝ} {footings : List (Footing ℝ)} (group : List ℕ)
      (hreaches : Reaches model config topLayer top k upper footings) :
      0 ≤ config.extrusionWidth * upper.reach group := by
    obtain ⟨layer, rfl⟩ := hreaches.shape ⟨data, htop⟩
    exact mul_nonneg hwidth.le (reach_nonneg (sampleSpacing_pos htolerance) group)
  rcases traceStack_cases hstack htrace with ⟨rfl, hbed⟩ | ⟨hzero, hbed⟩ |
    ⟨final, out, g, hdescend, hg, rfl, harea⟩
  · refine ⟨hbed.le, fun k upper footings f hreaches _ => ?_⟩
    have := hreaches.le
    omega
  · refine ⟨(hzero.trans hbed.symm).le, fun k upper footings f hreaches _ => ?_⟩
    rw [hzero]
    exact hbound f.group hreaches
  · obtain ⟨hbed, hlimit⟩ := assembleTrace_spec (i := i) (f := g) harea
    refine ⟨hbed, fun k upper footings f hreaches hf => ?_⟩
    by_cases hresting : g.broken = none
    · exact hlimit _ (hbound f.group hreaches)
        (descend_weakest_le hwidth htolerance ⟨data, htop⟩ hreaches hdescend hg hf hresting)
    · rw [assembleTrace_broken hresting]
      exact hbound f.group hreaches

end Traces

section Materialized

variable {limits : Caps} {model : LayerModel ℝ} {config : ContactConfig ℝ}

/-- The box around some points has them all. -/
theorem mem_boxAround {l : List (Xy ℝ)} {p : Xy ℝ} (hp : p ∈ l) :
    ((boxAround l).lo.1 ≤ p.1 ∧ p.1 ≤ (boxAround l).hi.1) ∧
      (boxAround l).lo.2 ≤ p.2 ∧ p.2 ≤ (boxAround l).hi.2 := by
  have hgrow (rest : List (Xy ℝ)) (b : BoundingBox ℝ) (q : Xy ℝ)
      (hq : q ∈ rest ∨ ((b.lo.1 ≤ q.1 ∧ q.1 ≤ b.hi.1) ∧ b.lo.2 ≤ q.2 ∧ q.2 ≤ b.hi.2)) :
      let out := rest.foldl (fun b q =>
        ⟨(min b.lo.1 q.1, min b.lo.2 q.2), (max b.hi.1 q.1, max b.hi.2 q.2)⟩) b
      (out.lo.1 ≤ q.1 ∧ q.1 ≤ out.hi.1) ∧ out.lo.2 ≤ q.2 ∧ q.2 ≤ out.hi.2 := by
    induction rest generalizing b with
    | nil =>
      rcases hq with hq | hq
      · cases hq
      · exact hq
    | cons r rest ih =>
      refine ih _ ?_
      rw [List.mem_cons] at hq
      rcases hq with (rfl | hq) | ⟨⟨h₁, h₂⟩, h₃, h₄⟩
      · exact .inr ⟨⟨min_le_right _ _, le_max_right _ _⟩, min_le_right _ _, le_max_right _ _⟩
      · exact .inl hq
      · exact .inr ⟨⟨min_le_of_left_le h₁, le_max_of_le_left h₂⟩, min_le_of_left_le h₃,
          le_max_of_le_left h₄⟩
  cases l with
  | nil => cases hp
  | cons q rest =>
    refine hgrow rest ⟨q, q⟩ p ?_
    rcases List.mem_cons.mp hp with rfl | hrest
    · exact .inr ⟨⟨le_rfl, le_rfl⟩, le_rfl, le_rfl⟩
    · exact .inl hrest

theorem inside_boxAround (segments : List (XySegment ℝ)) {seg : XySegment ℝ}
    (hseg : seg ∈ segments) :
    Inside (boxAround (segments.flatMap fun seg => [seg.start, seg.stop])).lo
      (boxAround (segments.flatMap fun seg => [seg.start, seg.stop])).hi seg := by
  have hstart := mem_boxAround (l := segments.flatMap fun seg => [seg.start, seg.stop])
    (p := seg.start) (List.mem_flatMap.mpr ⟨seg, hseg, by simp⟩)
  have hstop := mem_boxAround (l := segments.flatMap fun seg => [seg.start, seg.stop])
    (p := seg.stop) (List.mem_flatMap.mpr ⟨seg, hseg, by simp⟩)
  exact ⟨hstart.1, hstart.2, hstop.1, hstop.2⟩

theorem exists_mapM {α β : Type} {f : α → Option β} {l : List α}
    (h : ∀ a ∈ l, ∃ b, f a = some b) : ∃ out, l.mapM f = some out := by
  induction l with
  | nil => exact ⟨[], rfl⟩
  | cons a l ih =>
    obtain ⟨b, hb⟩ := h a (by simp)
    obtain ⟨rest, hrest⟩ := ih fun c hc => h c (by simp [hc])
    refine ⟨b :: rest, ?_⟩
    rw [List.mapM_cons, hb, hrest]
    rfl

/-- The rasters of a layer can always be built. -/
theorem exists_materialize (limits : Caps) (layer : Layer ℝ) (tolerance : ℝ) (n : ℕ)
    (halfWidth : ℝ) : ∃ materialized,
      materialize reals (LayerShape.build reals limits layer tolerance) n halfWidth =
        some materialized := by
  obtain ⟨shape, hshape⟩ : ∃ shape, shape = LayerShape.build reals limits layer tolerance :=
    ⟨_, rfl⟩
  have hbboxes : shape.bboxes = shape.members.map fun members =>
      boxAround ((islandSegments shape.segments members).flatMap fun seg =>
        [seg.start, seg.stop]) := by
    simp only [hshape, LayerShape.build, List.map_map, Function.comp_def]
  have hlengths : shape.lengths.length = shape.members.length := by
    simp only [hshape, LayerShape.build, List.length_map]
  have hcentroids : shape.centroids.length = shape.members.length := by
    simp only [hshape, LayerShape.build, List.length_zipWith, List.length_map, min_self]
  rw [← hshape, materialize]
  refine exists_mapM ?_
  rintro ⟨members, index⟩ hmem
  have hmembers := List.mem_zipIdx_iff_getElem?.mp hmem
  dsimp only at hmembers ⊢
  have hlt := (List.getElem?_eq_some_iff.mp hmembers).1
  obtain ⟨raster, hraster, -⟩ := @build_eq_some (islandSegments shape.segments members) _ _
    halfWidth fun seg hseg => inside_boxAround (islandSegments shape.segments members) hseg
  have hbbox : shape.bboxes[index]? = some (boxAround
      ((islandSegments shape.segments members).flatMap fun seg => [seg.start, seg.stop])) := by
    rw [hbboxes, List.getElem?_map, hmembers]
    rfl
  rw [hbbox, List.getElem?_eq_getElem (hcentroids.symm ▸ hlt),
    List.getElem?_eq_getElem (hlengths.symm ▸ hlt)]
  simp only [Option.bind_eq_bind, Option.bind_some, hraster]
  exact ⟨_, rfl⟩

theorem descend_shape {k : ℕ} {upper final : LayerShape ℝ} {footings out : List (Footing ℝ)}
    (hupper : ∃ layer, upper = LayerShape.build reals limits layer config.islandLinkTolerance)
    (h : descend reals limits model config k upper footings = some (final, out)) :
    ∃ layer, final = LayerShape.build reals limits layer config.islandLinkTolerance := by
  induction k generalizing upper footings with
  | zero =>
    obtain ⟨rfl, -⟩ := Prod.mk.inj (Option.some.inj h)
    exact hupper
  | succ k ih =>
    rw [Contact.descend] at h
    split at h
    · cases h
    · exact ih ⟨_, rfl⟩ h

theorem exists_traceStack (limits : Caps) (model : LayerModel ℝ) (config : ContactConfig ℝ)
    (topLayer : ℕ) {top : LayerShape ℝ} {data : Layer ℝ}
    (htop : top = LayerShape.build reals limits data config.islandLinkTolerance) :
    ∃ stack, traceStack reals limits model topLayer top config = some stack := by
  unfold traceStack
  extract_lets halfWidth zeroZ missing
  clear_value zeroZ missing
  split
  · obtain ⟨m, hm⟩ := exists_materialize limits data config.islandLinkTolerance 0 halfWidth
    rw [htop, hm]
    exact ⟨_, rfl⟩
  · split
    · split
      · exact ⟨_, rfl⟩
      · rename_i final out hdescend
        obtain ⟨layer, rfl⟩ := descend_shape ⟨data, htop⟩ hdescend
        obtain ⟨m, hm⟩ := exists_materialize limits layer config.islandLinkTolerance 0 halfWidth
        rw [hm]
        exact ⟨_, rfl⟩
    · exact ⟨_, rfl⟩

/-- The analysis of a layer that exists can always be built. -/
theorem exists_build {topLayer : ℕ} {data : Layer ℝ}
    (hconfig : validateConfig reals config = .ok ()) (hdata : model.layer topLayer = some data) :
    ∃ a bed, StructuralAnalysis.build reals limits model topLayer config = some (.ok a) ∧
      traceStack reals limits model topLayer
        (LayerShape.build reals limits data config.islandLinkTolerance) config =
          some (a.traces, bed) := by
  obtain ⟨materialized, hmaterialized⟩ := exists_materialize limits data
    config.islandLinkTolerance topLayer (config.extrusionWidth / 2)
  obtain ⟨⟨traces, bed⟩, hstack⟩ := exists_traceStack limits model config topLayer
    (rfl : LayerShape.build reals limits data config.islandLinkTolerance = _)
  simp only [StructuralAnalysis.build, hconfig, hdata, hmaterialized, hstack, Option.bind_eq_bind,
    Option.bind_some, Option.pure_def]
  exact ⟨_, bed, rfl, rfl⟩

end Materialized

end DeadReckoning.Contact
