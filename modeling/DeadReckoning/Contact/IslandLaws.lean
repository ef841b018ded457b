import DeadReckoning.Contact.Islands

/-! Two segments are of one island just when a chain of segments with samples near one another leads
from one to the other. -/
namespace DeadReckoning.Contact
open Gcode (reals)
open Relation (EqvGen ReflTransGen)

section Hash

variable {c d : ℤ × ℤ} {p q : Xy ℝ} {tolerance x y : ℝ}

theorem mem_around : d ∈ around c ↔
    (c.1 - 1 ≤ d.1 ∧ d.1 ≤ c.1 + 1) ∧ c.2 - 1 ≤ d.2 ∧ d.2 ≤ c.2 + 1 := by
  obtain ⟨c₁, c₂⟩ := c
  obtain ⟨d₁, d₂⟩ := d
  simp only [around, List.flatMap_cons, List.flatMap_nil, List.map_cons, List.map_nil,
    List.append_nil, List.mem_append, List.mem_cons, List.not_mem_nil, or_false, Prod.mk.injEq]
  omega

theorem nodup_around (c : ℤ × ℤ) : (around c).Nodup := by
  have hinjective : Function.Injective fun d : ℤ × ℤ => (c.1 + d.1, c.2 + d.2) := by
    intro d e h
    obtain ⟨h₁, h₂⟩ := Prod.mk.inj h
    exact Prod.ext (by omega) (by omega)
  have hshift : around c = (around (0, 0)).map fun d => (c.1 + d.1, c.2 + d.2) := by
    simp [around]
  rw [hshift]
  exact List.Nodup.map hinjective (by decide)

theorem floor_near (h : |y - x| ≤ 1) : ⌊x⌋ - 1 ≤ ⌊y⌋ ∧ ⌊y⌋ ≤ ⌊x⌋ + 1 := by
  rw [abs_le] at h
  have hx := Int.floor_le x
  have hx' := Int.lt_floor_add_one x
  have hy := Int.floor_le y
  have hy' := Int.lt_floor_add_one y
  constructor
  · have hlt : (⌊x⌋ : ℝ) < ⌊y⌋ + 1 + 1 := by linarith
    have hint : ⌊x⌋ < ⌊y⌋ + 1 + 1 := by exact_mod_cast hlt
    omega
  · have hlt : (⌊y⌋ : ℝ) < ⌊x⌋ + 1 + 1 := by linarith
    have hint : ⌊y⌋ < ⌊x⌋ + 1 + 1 := by exact_mod_cast hlt
    omega

/-- What is within the tolerance is in a cell around. -/
theorem cellCoords_mem_around (htolerance : 0 < tolerance) (h : Plane.dist p q ≤ tolerance) :
    cellCoords q tolerance ∈ around (cellCoords p tolerance) := by
  have hscale {u v : ℝ} (huv : |v - u| ≤ tolerance) : |v / tolerance - u / tolerance| ≤ 1 := by
    rw [← sub_div, abs_div, abs_of_pos htolerance, div_le_one htolerance]
    exact huv
  have hx := floor_near (hscale ((Plane.abs_fst_le_dist p q).trans h))
  have hy := floor_near (hscale ((Plane.abs_snd_le_dist p q).trans h))
  rw [mem_around]
  simp only [cellCoords, clampCell]
  omega

end Hash

section Sampling

variable {limits : Caps} {tolerance : ℝ} {n : ℕ} {done rest : List (ℕ × Xy ℝ)}
  {sample : ℕ × Xy ℝ} {s : Sampling ℝ}

/-- Two segments with samples near one another. -/
def Near (tolerance : ℝ) (samples : List (ℕ × Xy ℝ)) (i j : ℕ) : Prop :=
  ∃ a ∈ samples, ∃ b ∈ samples, a.1 = i ∧ b.1 = j ∧ Plane.dist a.2 b.2 ≤ tolerance

/-- How many of the samples so far are in the cell of a point or in one around it. -/
noncomputable def samplesAround (tolerance : ℝ) (done : List (ℕ × Xy ℝ)) (p : Xy ℝ) : ℕ :=
  ((around (cellCoords p tolerance)).map fun c =>
    done.countP fun b => cellCoords b.2 tolerance = c).sum

/-- The samples so far are kept, each with its segment. -/
structure Kept (n : ℕ) (done : List (ℕ × Xy ℝ)) (s : Sampling ℝ) : Prop where
  length : s.parent.length = n
  samples : s.samples = done.map Prod.snd
  owner : s.owner = done.map Prod.fst
  joined : ∃ R, Dsu.Classes s.parent R

/-- The samples so far are in their cells, and join their segments. -/
structure Sampled (tolerance : ℝ) (n : ℕ) (done : List (ℕ × Xy ℝ)) (s : Sampling ℝ) : Prop
    extends Kept n done s where
  grid : ∀ c, s.grid c = done.zipIdx.filterMap fun b =>
    if cellCoords b.1.2 tolerance = c then some b.2 else none
  classes : Dsu.Classes s.parent (Near tolerance done)

theorem kept_nil (n : ℕ) : Kept n [] ⟨Dsu.new n, [], [], fun _ => []⟩ where
  length := List.length_range
  samples := rfl
  owner := rfl
  joined := ⟨_, Dsu.classes_new n⟩

theorem sampled_nil (tolerance : ℝ) (n : ℕ) :
    Sampled tolerance n [] ⟨Dsu.new n, [], [], fun _ => []⟩ where
  toKept := kept_nil n
  grid _ := rfl
  classes := by
    have hnone : Near tolerance [] = fun _ _ => False := by
      funext i j
      simp [Near]
    rw [hnone]
    exact Dsu.classes_new n

theorem Sampled.mem_grid (h : Sampled tolerance n done s) {c : ℤ × ℤ} {k : ℕ} :
    k ∈ s.grid c ↔ ∃ b, done[k]? = some b ∧ cellCoords b.2 tolerance = c := by
  rw [h.grid, List.mem_filterMap]
  constructor
  · rintro ⟨⟨b, k'⟩, hmem, hcell⟩
    split at hcell
    · obtain rfl := Option.some.inj hcell
      exact ⟨b, List.mem_zipIdx_iff_getElem?.mp hmem, ‹_›⟩
    · cases hcell
  · rintro ⟨b, hb, hcell⟩
    exact ⟨(b, k), List.mem_zipIdx_iff_getElem?.mpr hb, if_pos hcell⟩

theorem length_bucket (tolerance : ℝ) (c : ℤ × ℤ) (samples : List (ℕ × Xy ℝ)) (k : ℕ) :
    ((samples.zipIdx k).filterMap fun b =>
      if cellCoords b.1.2 tolerance = c then some b.2 else none).length =
      samples.countP fun b => cellCoords b.2 tolerance = c := by
  induction samples generalizing k with
  | nil => rfl
  | cons b samples ih =>
    rw [List.zipIdx_cons, List.filterMap_cons, List.countP_cons, ← ih (k + 1)]
    by_cases hcell : cellCoords b.2 tolerance = c
    · simp [hcell]
    · simp [hcell]

/-- All samples around a point are compared with it, as long as they are few enough. -/
theorem Sampled.nearby_eq (h : Sampled tolerance n done s) {p : Xy ℝ}
    (hcap : samplesAround tolerance done p ≤ limits.neighborScanCap) :
    s.nearby limits (cellCoords p tolerance) =
      (around (cellCoords p tolerance)).flatMap s.grid := by
  have hlength (c : ℤ × ℤ) :
      (s.grid c).length = done.countP fun b => cellCoords b.2 tolerance = c := by
    rw [h.grid, length_bucket]
  rw [Sampling.nearby, List.take_of_length_le]
  rw [List.length_flatMap]
  simp only [hlength]
  exact hcap

theorem entry_map {α β : Type} {l : List α} {k : ℕ} {a : α} (h : l[k]? = some a) (f : α → β)
    (d : β) : entry (l.map f) d k = f a := by
  rw [entry, List.getD_eq_getElem?_getD, List.getElem?_map, h]
  rfl

/-- The segments that a sample joins its own with. -/
noncomputable def others (limits : Caps) (tolerance : ℝ) (s : Sampling ℝ) (p : Xy ℝ) : List ℕ :=
  ((s.nearby limits (cellCoords p tolerance)).filter fun other =>
    pointDistance reals p (entry s.samples (0, 0) other) ≤ tolerance).map (entry s.owner 0)

theorem add_parent (limits : Caps) (tolerance : ℝ) (s : Sampling ℝ) (sample : ℕ × Xy ℝ) :
    (s.add reals limits tolerance sample).parent =
      (others limits tolerance s sample.2).foldl
        (fun parent b => Dsu.union parent sample.1 b) s.parent := by
  obtain ⟨index, p⟩ := sample
  have hfold : (s.nearby limits (cellCoords p tolerance)).foldl (fun parent other =>
      if pointDistance reals p (entry s.samples (0, 0) other) ≤ tolerance then
        Dsu.union parent index (entry s.owner 0 other)
      else parent) s.parent =
      (others limits tolerance s p).foldl (fun parent b => Dsu.union parent index b) s.parent := by
    rw [others, List.foldl_map, List.foldl_filter]
    simp only [decide_eq_true_eq]
  unfold Sampling.add
  dsimp only
  rw [hfold]
  split
  · rfl
  · rfl

theorem add_eq (limits : Caps) (tolerance : ℝ) {s : Sampling ℝ} (sample : ℕ × Xy ℝ)
    (hroom : s.samples.length < u32Max) :
    (s.add reals limits tolerance sample).samples = s.samples ++ [sample.2] ∧
      (s.add reals limits tolerance sample).owner = s.owner ++ [sample.1] ∧
      (s.add reals limits tolerance sample).grid = Function.update s.grid
        (cellCoords sample.2 tolerance)
        (s.grid (cellCoords sample.2 tolerance) ++ [s.samples.length]) := by
  unfold Sampling.add
  dsimp only
  rw [if_neg (not_le.mpr hroom)]
  exact ⟨rfl, rfl, rfl⟩

/-- A sample more is kept, whatever it is compared with. -/
theorem Kept.add (h : Kept n done s) (limits : Caps) (tolerance : ℝ) (hindex : sample.1 < n)
    (howners : ∀ b ∈ done, b.1 < n) (hids : done.length < u32Max) :
    Kept n (done ++ [sample]) (s.add reals limits tolerance sample) := by
  obtain ⟨R, hclasses⟩ := h.joined
  have hroom : s.samples.length < u32Max := by rwa [h.samples, List.length_map]
  obtain ⟨hsamples, howner, -⟩ := add_eq limits tolerance sample hroom
  have hothers : ∀ b ∈ others limits tolerance s sample.2, b < s.parent.length := by
    intro b hb
    obtain ⟨k, -, rfl⟩ := List.mem_map.mp hb
    rw [h.length, h.owner]
    cases hk : done[k]? with
    | none =>
      rw [entry, List.getD_eq_getElem?_getD, List.getElem?_map, hk]
      exact Nat.zero_lt_of_lt hindex
    | some c =>
      rw [entry_map hk]
      exact howners c (List.mem_of_getElem? hk)
  obtain ⟨hlength, hclasses'⟩ := hclasses.unions _ (h.length.symm ▸ hindex) hothers
  refine ⟨?_, ?_, ?_, ?_⟩
  · rw [add_parent]
    exact hlength.trans h.length
  · rw [hsamples, h.samples, List.map_append, List.map_singleton]
  · rw [howner, h.owner, List.map_append, List.map_singleton]
  · rw [add_parent]
    exact ⟨_, hclasses'⟩

/-- The segments that a sample joins its own with are those with a sample near it. -/
theorem Sampled.mem_others (h : Sampled tolerance n done s) (limits : Caps)
    (htolerance : 0 < tolerance) {p : Xy ℝ}
    (hcap : samplesAround tolerance done p ≤ limits.neighborScanCap) {j : ℕ} :
    j ∈ others limits tolerance s p ↔ ∃ b ∈ done, b.1 = j ∧ Plane.dist p b.2 ≤ tolerance := by
  rw [others, h.nearby_eq hcap]
  simp only [List.mem_map, List.mem_filter, List.mem_flatMap, decide_eq_true_eq]
  constructor
  · rintro ⟨k, ⟨⟨c, -, hk⟩, hnear⟩, rfl⟩
    obtain ⟨b, hb, -⟩ := h.mem_grid.mp hk
    rw [h.samples, entry_map hb] at hnear
    rw [h.owner, entry_map hb]
    exact ⟨b, List.mem_of_getElem? hb, rfl, hnear⟩
  · rintro ⟨b, hb, rfl, hnear⟩
    obtain ⟨k, hk⟩ := List.mem_iff_getElem?.mp hb
    refine ⟨k, ⟨⟨cellCoords b.2 tolerance, cellCoords_mem_around htolerance hnear,
      h.mem_grid.mpr ⟨b, hk, rfl⟩⟩, ?_⟩, ?_⟩
    · rw [h.samples, entry_map hk]
      exact hnear
    · rw [h.owner, entry_map hk]

/-- A sample more: its segment is joined with all that have a sample near it. -/
theorem Sampled.add (h : Sampled tolerance n done s) (htolerance : 0 < tolerance)
    (hindex : sample.1 < n) (howners : ∀ b ∈ done, b.1 < n)
    (hcap : samplesAround tolerance done sample.2 ≤ limits.neighborScanCap)
    (hids : done.length < u32Max) :
    Sampled tolerance n (done ++ [sample]) (s.add reals limits tolerance sample) := by
  have hothers := fun j => h.mem_others limits htolerance hcap (j := j)
  obtain ⟨-, hclasses⟩ := h.classes.unions (others limits tolerance s sample.2)
    (h.length.symm ▸ hindex) fun b hb => by
      obtain ⟨c, hc, rfl, -⟩ := (hothers b).mp hb
      exact h.length.symm ▸ howners c hc
  have hroom : s.samples.length < u32Max := by rwa [h.samples, List.length_map]
  obtain ⟨-, -, hgrid⟩ := add_eq limits tolerance sample hroom
  refine ⟨h.toKept.add limits tolerance hindex howners hids, ?_, ?_⟩
  · intro c
    have hnew : (done ++ [sample]).zipIdx = done.zipIdx ++ [(sample, done.length)] := by
      simp [List.zipIdx_append]
    rw [hnew, List.filterMap_append, ← h.grid c, hgrid]
    by_cases hc : cellCoords sample.2 tolerance = c
    · subst hc
      simp [h.samples]
    · simp [hc, Function.update_of_ne (Ne.symm hc)]
  · rw [add_parent]
    refine hclasses.congr fun x y => ⟨fun hxy => ?_, fun hxy => ?_⟩
    · refine Dsu.eqvGen_of_le (fun x y hr => ?_) hxy
      rcases hr with ⟨a, ha, b, hb, hab⟩ | ⟨rfl, hy⟩
      · exact .rel _ _ ⟨a, List.mem_append_left _ ha, b, List.mem_append_left _ hb, hab⟩
      · obtain ⟨b, hb, rfl, hnear⟩ := (hothers y).mp hy
        exact .rel _ _ ⟨sample, by simp, b, List.mem_append_left _ hb, rfl, rfl, hnear⟩
    · refine Dsu.eqvGen_of_le (fun x y hr => ?_) hxy
      obtain ⟨a, ha, b, hb, rfl, rfl, hnear⟩ := hr
      rw [List.mem_append, List.mem_singleton] at ha hb
      rcases ha with ha | rfl
      · rcases hb with hb | rfl
        · exact .rel _ _ (.inl ⟨a, ha, b, hb, rfl, rfl, hnear⟩)
        · rw [Plane.dist_comm] at hnear
          exact .symm _ _ (.rel _ _ (.inr ⟨rfl, (hothers _).mpr ⟨a, ha, rfl, hnear⟩⟩))
      · rcases hb with hb | rfl
        · exact .rel _ _ (.inr ⟨rfl, (hothers _).mpr ⟨b, hb, rfl, hnear⟩⟩)
        · exact .refl _

theorem Kept.foldl (h : Kept n done s) (limits : Caps) (tolerance : ℝ)
    (howners : ∀ b ∈ done ++ rest, b.1 < n) (hids : (done ++ rest).length ≤ u32Max) :
    Kept n (done ++ rest) (rest.foldl (Sampling.add reals limits tolerance) s) := by
  induction rest generalizing done s with
  | nil => rwa [List.append_nil]
  | cons sample rest ih =>
    have hsplit : done ++ sample :: rest = done ++ [sample] ++ rest := by simp
    have hlt : done.length < u32Max := by
      rw [List.length_append, List.length_cons] at hids
      omega
    have hstep := h.add limits tolerance (howners sample (by simp))
      (fun b hb => howners b (List.mem_append_left _ hb)) hlt
    rw [hsplit] at howners hids ⊢
    exact ih hstep howners hids

/-- All samples join their segments, as long as no cap is reached. -/
theorem Sampled.foldl (h : Sampled tolerance n done s) (htolerance : 0 < tolerance)
    (howners : ∀ b ∈ done ++ rest, b.1 < n)
    (hcap : ∀ before sample after, done ++ rest = before ++ sample :: after →
      samplesAround tolerance before sample.2 ≤ limits.neighborScanCap)
    (hids : (done ++ rest).length ≤ u32Max) :
    Sampled tolerance n (done ++ rest) (rest.foldl (Sampling.add reals limits tolerance) s) := by
  induction rest generalizing done s with
  | nil => rwa [List.append_nil]
  | cons sample rest ih =>
    have hsplit : done ++ sample :: rest = done ++ [sample] ++ rest := by simp
    have hlt : done.length < u32Max := by
      rw [List.length_append, List.length_cons] at hids
      omega
    have hstep := h.add htolerance (howners sample (by simp))
      (fun b hb => howners b (List.mem_append_left _ hb)) (hcap done sample rest rfl) hlt
    rw [hsplit] at howners hcap hids ⊢
    exact ih hstep howners hcap hids

end Sampling

section Components

variable {root rank : ℕ → ℕ} {n k i j : ℕ} {s : Components}

theorem getElem?_of_idxOf? {l : List ℕ} {a i : ℕ} (h : l.idxOf? a = some i) : l[i]? = some a := by
  obtain ⟨hi, heq, -⟩ := List.findIdx?_eq_some_iff_getElem.mp h
  rw [List.getElem?_eq_getElem hi, eq_of_beq heq]

/-- The segments up to one are in islands, those of one root in one island. -/
structure Collected (root : ℕ → ℕ) (n k : ℕ) (s : Components) : Prop where
  forest : ∃ rank, Dsu.Forest s.parent root rank
  length : s.parent.length = n
  nodup : s.roots.Nodup
  sizes : s.members.length = s.roots.length
  count : s.islandOf.length = k
  islandOf : ∀ i < k, ∃ m, s.islandOf[i]? = some m ∧ s.roots[m]? = some (root i)
  members : ∀ m l, s.members[m]? = some l →
    l = (List.range k).filter fun i => s.islandOf[i]? = some m

/-- The members of an island, with one segment more. -/
theorem filter_range_succ (islandOf : List ℕ) (hcount : islandOf.length = k) (island m : ℕ) :
    (List.range (k + 1)).filter (fun i => (islandOf ++ [island])[i]? = some m) =
      (List.range k).filter (fun i => islandOf[i]? = some m) ++ if island = m then [k] else [] := by
  have hbefore : (List.range k).filter (fun i => (islandOf ++ [island])[i]? = some m) =
      (List.range k).filter fun i => islandOf[i]? = some m := by
    refine List.filter_congr fun i hi => ?_
    rw [List.getElem?_append_left (hcount.symm ▸ List.mem_range.mp hi)]
  have hlast : (islandOf ++ [island])[k]? = some island := by
    rw [← hcount]
    simp
  rw [List.range_succ, List.filter_append, hbefore, List.filter_singleton, hlast]
  by_cases hm : island = m
  · simp [hm]
  · simp [hm]

theorem Collected.add (h : Collected root n k s) (hk : k < n) :
    Collected root n (k + 1) (s.add k) := by
  obtain ⟨rank, hforest⟩ := h.forest
  obtain ⟨hforest', hlength, hroot, -⟩ := Dsu.find_spec hforest (h.length.symm ▸ hk)
  have hkept {island : ℕ} {roots : List ℕ}
      (hroots : ∀ (m r : ℕ), s.roots[m]? = some r → roots[m]? = some r)
      (hisland : roots[island]? = some (root k)) : ∀ i < k + 1,
      ∃ m, (s.islandOf ++ [island])[i]? = some m ∧ roots[m]? = some (root i) := by
    intro i hi
    rcases Nat.lt_succ_iff_lt_or_eq.mp hi with hlt | rfl
    · obtain ⟨m, hm, hr⟩ := h.islandOf i hlt
      rw [List.getElem?_append_left (h.count.symm ▸ hlt)]
      exact ⟨m, hm, hroots m _ hr⟩
    · refine ⟨island, ?_, hisland⟩
      rw [← h.count]
      simp
  unfold Components.add
  dsimp only
  rw [hroot]
  cases hfound : s.roots.idxOf? (root k) with
  | some island =>
    dsimp only
    refine ⟨⟨rank, hforest'⟩, hlength.trans h.length, h.nodup, ?_, ?_,
      hkept (fun _ _ hr => hr) (getElem?_of_idxOf? hfound), ?_⟩
    · rw [List.length_modify, h.sizes]
    · rw [List.length_append, h.count, List.length_singleton]
    · intro m l hl
      rw [filter_range_succ s.islandOf h.count]
      by_cases hm : island = m
      · subst hm
        rw [List.getElem?_modify_eq] at hl
        obtain ⟨l', hl', rfl⟩ := Option.map_eq_some_iff.mp hl
        rw [if_pos rfl, ← h.members _ l' hl']
      · rw [List.getElem?_modify_ne _ _ hm] at hl
        rw [if_neg hm, List.append_nil]
        exact h.members m l hl
  | none =>
    dsimp only
    have hnew : root k ∉ s.roots := List.idxOf?_eq_none_iff.mp hfound
    refine ⟨⟨rank, hforest'⟩, hlength.trans h.length, ?_, ?_, ?_, hkept ?_ ?_, ?_⟩
    · exact h.nodup.append (List.nodup_singleton _) (by simpa using hnew)
    · rw [List.length_append, List.length_append, h.sizes, List.length_singleton,
        List.length_singleton]
    · rw [List.length_append, h.count, List.length_singleton]
    · intro m r hr
      rwa [List.getElem?_append_left (List.getElem?_eq_some_iff.mp hr).1]
    · simp
    · intro m l hl
      rw [filter_range_succ s.islandOf h.count]
      rcases Nat.lt_trichotomy m s.members.length with hlt | rfl | hgt
      · rw [List.getElem?_append_left hlt] at hl
        have hne : s.roots.length ≠ m := by
          have := h.sizes
          omega
        rw [if_neg hne, List.append_nil]
        exact h.members m l hl
      · -- No segment before was in the new island.
        have hempty :
            (List.range k).filter (fun i => s.islandOf[i]? = some s.members.length) = [] := by
          rw [List.filter_eq_nil_iff]
          intro i hi heq
          obtain ⟨m, hm, hr⟩ := h.islandOf i (List.mem_range.mp hi)
          rw [decide_eq_true_eq, hm] at heq
          have hlt := (List.getElem?_eq_some_iff.mp hr).1
          have hsame := Option.some.inj heq
          have hsizes := h.sizes
          omega
        rw [hempty, if_pos h.sizes.symm]
        simpa using hl.symm
      · have hpast : (s.members ++ [[k]])[m]? = none := by
          rw [List.getElem?_eq_none_iff, List.length_append, List.length_singleton]
          omega
        rw [hpast] at hl
        cases hl

theorem collected (rank : ℕ → ℕ) {parent : List ℕ} (hforest : Dsu.Forest parent root rank)
    (hlength : parent.length = n) (hk : k ≤ n) :
    Collected root n k ((List.range k).foldl Components.add ⟨parent, [], [], []⟩) := by
  induction k with
  | zero =>
    exact ⟨⟨rank, hforest⟩, hlength, List.nodup_nil, rfl, rfl,
      fun _ hi => absurd hi (Nat.not_lt_zero _), fun m l hl => by simp at hl⟩
  | succ k ih =>
    rw [List.range_succ, List.foldl_append]
    exact (ih (by omega)).add hk

/-- Two segments are in one island when their roots are one. -/
theorem Collected.same_iff (h : Collected root n k s) (hi : i < k) (hj : j < k) :
    (∃ (m : ℕ) (l : List ℕ), s.members[m]? = some l ∧ i ∈ l ∧ j ∈ l) ↔ root i = root j := by
  obtain ⟨mi, hmi, hri⟩ := h.islandOf i hi
  obtain ⟨mj, hmj, hrj⟩ := h.islandOf j hj
  constructor
  · rintro ⟨m, l, hl, hil, hjl⟩
    rw [h.members m l hl, List.mem_filter, decide_eq_true_eq] at hil hjl
    rw [hil.2] at hmi
    rw [hjl.2] at hmj
    obtain rfl := Option.some.inj hmi
    obtain rfl := Option.some.inj hmj
    exact Option.some.inj (hri.symm.trans hrj)
  · intro heq
    rw [← heq] at hrj
    have hlt := (List.getElem?_eq_some_iff.mp hri).1
    obtain rfl : mi = mj := (List.getElem?_inj hlt h.nodup).mp (hri.trans hrj.symm)
    obtain ⟨l, hl⟩ : ∃ l, s.members[mi]? = some l :=
      ⟨_, List.getElem?_eq_getElem (h.sizes.symm ▸ hlt)⟩
    refine ⟨mi, l, hl, ?_, ?_⟩
    · rw [h.members mi l hl, List.mem_filter, decide_eq_true_eq]
      exact ⟨List.mem_range.mpr hi, hmi⟩
    · rw [h.members mi l hl, List.mem_filter, decide_eq_true_eq]
      exact ⟨List.mem_range.mpr hj, hmj⟩

end Components

section Islands

variable {limits : Caps} {layer layer' : Layer ℝ} {segments : List (XySegment ℝ)}
  {tolerance spacing : ℝ} {a b : XySegment ℝ} {i j : ℕ}

theorem mem_samplesWithOwner {sample : ℕ × Xy ℝ} :
    sample ∈ samplesWithOwner reals limits segments spacing ↔
      ∃ seg, segments[sample.1]? = some seg ∧ sample.2 ∈ samplesOf reals limits spacing seg := by
  simp only [samplesWithOwner, List.mem_flatMap, List.mem_map]
  constructor
  · rintro ⟨⟨seg, index⟩, hseg, p, hp, rfl⟩
    exact ⟨seg, List.mem_zipIdx_iff_getElem?.mp hseg, hp⟩
  · rintro ⟨seg, hseg, hp⟩
    exact ⟨(seg, sample.1), List.mem_zipIdx_iff_getElem?.mpr hseg, sample.2, hp, rfl⟩

theorem samplesOf_ne_nil (limits : Caps) (spacing : ℝ) (seg : XySegment ℝ) :
    ∃ p, p ∈ samplesOf reals limits spacing seg := by
  refine ⟨seg.pointAt (((0 : ℕ) : ℝ) / (sampleSteps reals limits spacing seg : ℕ)), ?_⟩
  rw [samplesOf, pointsAlong, List.mem_filter]
  exact ⟨List.mem_map.mpr ⟨0, by simp, rfl⟩, rfl⟩

theorem segmentFinite_reals (seg : XySegment ℝ) : segmentFinite reals seg = true := rfl

/-- Two segments of a layer have samples within the tolerance. -/
def Touches (limits : Caps) (segments : List (XySegment ℝ)) (tolerance : ℝ)
    (a b : XySegment ℝ) : Prop :=
  (a ∈ segments ∧ b ∈ segments) ∧
    ∃ p ∈ samplesOf reals limits (sampleSpacing reals limits segments tolerance) a,
    ∃ q ∈ samplesOf reals limits (sampleSpacing reals limits segments tolerance) b,
      Plane.dist p q ≤ tolerance

theorem Touches.symm (h : Touches limits segments tolerance a b) :
    Touches limits segments tolerance b a := by
  obtain ⟨⟨ha, hb⟩, p, hp, q, hq, hnear⟩ := h
  rw [Plane.dist_comm] at hnear
  exact ⟨⟨hb, ha⟩, q, hq, p, hp, hnear⟩

/-- The order of the segments does not matter. -/
theorem touches_perm (h : layer'.segments.Perm layer.segments) :
    Touches limits layer'.segments tolerance a b ↔ Touches limits layer.segments tolerance a b := by
  have hspacing : sampleSpacing reals limits layer'.segments tolerance =
      sampleSpacing reals limits layer.segments tolerance := by
    rw [sampleSpacing, sampleSpacing, (h.map _).sum_eq]
  rw [Touches, Touches, hspacing, h.mem_iff, h.mem_iff]

/-- No segment of the layer is dropped, and no sample has more neighbors than are scanned. -/
structure Uncut (limits : Caps) (layer : Layer ℝ) (tolerance : ℝ) : Prop where
  segments : layer.segments.length ≤ limits.maxSegmentsPerLayer
  neighbors : ∀ before sample after,
    samplesWithOwner reals limits layer.segments
        (sampleSpacing reals limits layer.segments tolerance) = before ++ sample :: after →
      samplesAround tolerance before sample.2 ≤ limits.neighborScanCap

theorem reflTransGen_symm {α : Type} {R : α → α → Prop} (hsymm : ∀ x y, R x y → R y x) {x y : α}
    (h : ReflTransGen R x y) : ReflTransGen R y x := by
  induction h with
  | refl => exact .refl
  | tail _ hr ih => exact .head (hsymm _ _ hr) ih

theorem eqvGen_iff_reflTransGen {α : Type} {R : α → α → Prop} (hsymm : ∀ x y, R x y → R y x)
    {x y : α} : EqvGen R x y ↔ ReflTransGen R x y := by
  constructor
  · intro h
    induction h with
    | rel x y hr => exact .single hr
    | refl x => exact .refl
    | symm x y _ ih => exact reflTransGen_symm hsymm ih
    | trans x y z _ _ ih ih' => exact ih.trans ih'
  · intro h
    induction h with
    | refl => exact .refl _
    | tail _ hr ih => exact ih.trans _ _ _ (.rel _ _ hr)

/-- A chain of samples between two segments is a chain of segments. -/
theorem eqvGen_near_iff (ha : segments[i]? = some a) (hb : segments[j]? = some b)
    (hpos : 0 < tolerance) :
    EqvGen (Near tolerance (samplesWithOwner reals limits segments
        (sampleSpacing reals limits segments tolerance))) i j ↔
      ReflTransGen (Touches limits segments tolerance) a b := by
  constructor
  · intro h
    have hvalue {k : ℕ} {c : XySegment ℝ} (hc : segments[k]? = some c) : segments.getD k a = c := by
      rw [List.getD_eq_getElem?_getD, hc]
      rfl
    have hchain : EqvGen (Touches limits segments tolerance) (segments.getD i a)
        (segments.getD j a) := by
      clear ha hb
      induction h with
      | rel x y hr =>
        obtain ⟨s, hs, t, ht, rfl, rfl, hnear⟩ := hr
        obtain ⟨c, hc, hp⟩ := mem_samplesWithOwner.mp hs
        obtain ⟨d, hd, hq⟩ := mem_samplesWithOwner.mp ht
        rw [hvalue hc, hvalue hd]
        exact .rel _ _ ⟨⟨List.mem_of_getElem? hc, List.mem_of_getElem? hd⟩, _, hp, _, hq, hnear⟩
      | refl _ => exact .refl _
      | symm _ _ _ ih => exact ih.symm
      | trans _ _ _ _ _ ih ih' => exact ih.trans _ _ _ ih'
    rw [hvalue ha, hvalue hb] at hchain
    exact (eqvGen_iff_reflTransGen fun _ _ h => h.symm).mp hchain
  · intro h
    induction h generalizing j with
    | refl =>
      obtain ⟨p, hp⟩ := samplesOf_ne_nil limits (sampleSpacing reals limits segments tolerance) a
      refine .rel _ _ ⟨(i, p), mem_samplesWithOwner.mpr ⟨a, ha, hp⟩, (j, p),
        mem_samplesWithOwner.mpr ⟨a, hb, hp⟩, rfl, rfl, ?_⟩
      rw [Plane.dist_self]
      exact hpos.le
    | tail _ hr ih =>
      obtain ⟨⟨hc, -⟩, p, hp, q, hq, hnear⟩ := hr
      obtain ⟨k, hk⟩ := List.mem_iff_getElem?.mp hc
      refine (ih hk).trans _ _ _ (.rel _ _ ⟨(k, p), mem_samplesWithOwner.mpr ⟨_, hk, hp⟩, (j, q),
        mem_samplesWithOwner.mpr ⟨_, hb, hq⟩, rfl, rfl, hnear⟩)

/-- The samples of a layer are few enough for their ids. -/
theorem length_samplesWithOwner_le (h : segments.length ≤ caps.maxSegmentsPerLayer) :
    (samplesWithOwner reals caps segments spacing).length ≤ u32Max := by
  have hseg (seg : XySegment ℝ) : (samplesOf reals caps spacing seg).length ≤ 4097 := by
    refine (List.length_filter_le _ _).trans ?_
    rw [List.length_map, List.length_range, sampleSteps]
    simp only [caps]
    omega
  have hbound (l : List (XySegment ℝ)) (k : ℕ) : ((l.zipIdx k).flatMap fun (seg, index) =>
      (samplesOf reals caps spacing seg).map fun p => (index, p)).length ≤ l.length * 4097 := by
    induction l generalizing k with
    | nil => simp
    | cons seg l ih =>
      rw [List.zipIdx_cons, List.flatMap_cons, List.length_append, List.length_map,
        List.length_cons]
      have := ih (k + 1)
      have := hseg seg
      omega
  refine (hbound segments 0).trans ?_
  unfold caps at h
  unfold u32Max
  dsimp only at h
  omega

/-- Two segments of a layer are of one island just when a chain of segments links them in which each
has a sample near one of the next. -/
theorem same_island_iff (htolerance : 0 < tolerance) (huncut : Uncut caps layer tolerance)
    (ha : layer.segments[i]? = some a) (hb : layer.segments[j]? = some b) :
    (∃ (m : ℕ) (l : List ℕ), (LayerShape.build reals caps layer tolerance).members[m]? = some l ∧
        i ∈ l ∧ j ∈ l) ↔
      ReflTransGen (Touches caps layer.segments tolerance) a b := by
  have hsegments : (layer.segments.filter (segmentFinite reals)).take caps.maxSegmentsPerLayer =
      layer.segments := by
    rw [List.filter_eq_self.mpr fun seg _ => segmentFinite_reals seg,
      List.take_of_length_le huncut.segments]
  have howners : ∀ sample ∈ samplesWithOwner reals caps layer.segments
      (sampleSpacing reals caps layer.segments tolerance), sample.1 < layer.segments.length := by
    intro sample hsample
    obtain ⟨seg, hseg, -⟩ := mem_samplesWithOwner.mp hsample
    exact (List.getElem?_eq_some_iff.mp hseg).1
  have hsampled := (sampled_nil tolerance layer.segments.length).foldl htolerance howners
    huncut.neighbors (length_samplesWithOwner_le huncut.segments)
  rw [List.nil_append] at hsampled
  obtain ⟨root, rank, hforest, hclasses⟩ := hsampled.classes
  have hcollected := collected rank hforest hsampled.length le_rfl
  have hmembers : (LayerShape.build reals caps layer tolerance).members =
      (collectComponents (sampleAndLink reals caps layer.segments tolerance
        (sampleSpacing reals caps layer.segments tolerance)).parent
          layer.segments.length).members := by
    simp only [LayerShape.build, hsegments]
  rw [hmembers]
  exact (hcollected.same_iff (List.getElem?_eq_some_iff.mp ha).1
    (List.getElem?_eq_some_iff.mp hb).1).trans
      ((hclasses i j).trans (eqvGen_near_iff ha hb htolerance))

end Islands

end DeadReckoning.Contact
