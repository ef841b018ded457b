import DeadReckoning.Contact.Clearance

/-! The area of an island: every cell that is counted lies in the material as a whole, and none is
counted twice. -/
namespace DeadReckoning.Contact
open Gcode (reals)
open MeasureTheory

section Count

theorem count_true_eq (bits : List Bool) : bits.count true =
    ((Finset.range bits.length).filter fun i => entry bits false i = true).card := by
  induction bits using List.reverseRecOn with
  | nil => rfl
  | append_singleton bits bit ih =>
    have hinit : (Finset.range bits.length).filter (fun i => entry (bits ++ [bit]) false i = true) =
        (Finset.range bits.length).filter fun i => entry bits false i = true := by
      refine Finset.filter_congr fun i hi => ?_
      simp [entry, List.getElem?_append_left (Finset.mem_range.mp hi)]
    have hlast : entry (bits ++ [bit]) false bits.length = bit := by
      simp [entry]
    rw [List.count_append, List.length_append, List.length_singleton, Finset.range_add_one,
      Finset.filter_insert, hinit, hlast, ih]
    cases bit with
    | false => simp
    | true => simp [Finset.card_insert_of_notMem]

/-- What is counted over some tiles is at most what there is on all of them. -/
theorem sweep_le (count : ℕ × ℕ → ℕ → ℕ × ℕ) (size : ℕ × ℕ → ℕ) (tiles : List (ℕ × ℕ))
    (h : ∀ tile ∈ tiles, ∀ tests, (count tile tests).1 ≤ size tile) (total tests : ℕ) :
    (sweep count tiles total tests).1 ≤ total + (tiles.map size).sum := by
  induction tiles generalizing total tests with
  | nil => simp [sweep]
  | cons tile tiles ih =>
    have hfirst := h tile List.mem_cons_self tests
    rw [sweep, List.map_cons, List.sum_cons]
    dsimp only
    split
    · dsimp only
      omega
    · have hrest := ih (fun tile' htile' => h tile' (List.mem_cons_of_mem _ htile'))
        (total + (count tile tests).1) (count tile tests).2
      omega

theorem nodup_tileStarts {tile : ℕ} (htile : 0 < tile) (n : ℕ) : (tileStarts tile n).Nodup :=
  List.nodup_range.map fun _ _ h => Nat.eq_of_mul_eq_mul_right htile h

theorem nodup_tiles {tile : ℕ} (htile : 0 < tile) (nx ny : ℕ) :
    ((tileStarts tile ny).flatMap fun tj => (tileStarts tile nx).map fun ti => (ti, tj)).Nodup := by
  rw [List.nodup_flatMap]
  refine ⟨fun tj _ => (nodup_tileStarts htile nx).map fun _ _ h => (Prod.mk.inj h).1, ?_⟩
  refine (nodup_tileStarts htile ny).imp fun hne => ?_
  rw [Function.onFun, List.disjoint_left]
  intro c hc hc'
  obtain ⟨ti, -, rfl⟩ := List.mem_map.mp hc
  obtain ⟨ti', -, heq⟩ := List.mem_map.mp hc'
  exact hne (Prod.mk.inj heq).2.symm

/-- Where the tile of a cell begins. -/
def tileOf (side : ℕ) (c : ℕ × ℕ) : ℕ × ℕ := (c.1 / side * side, c.2 / side * side)

end Count

section Area

variable {segments : List (XySegment ℝ)} {corner lo hi : Xy ℝ} {halfWidth cell radius : ℝ}
  {nx ny side : ℕ}

open Classical in
/-- The cells with their center near enough to a segment. -/
noncomputable def covered (segments : List (XySegment ℝ)) (corner : Xy ℝ) (cell radius : ℝ)
    (nx ny : ℕ) : Finset (ℕ × ℕ) :=
  (Finset.range nx ×ˢ Finset.range ny).filter fun c =>
    Plane.middle corner cell c ∈ material segments radius

open Classical in
theorem mem_covered {c : ℕ × ℕ} : c ∈ covered segments corner cell radius nx ny ↔
    (c.1 < nx ∧ c.2 < ny) ∧ Plane.middle corner cell c ∈ material segments radius := by
  rw [covered, Finset.mem_filter, Finset.mem_product, Finset.mem_range, Finset.mem_range]

theorem center_tileGrid (tile : ℕ × ℕ) (a b : ℕ) :
    (tileGrid corner cell nx ny side tile).center a b =
      Plane.middle corner cell (tile.1 + a, tile.2 + b) := by
  simp only [Grid.center, tileGrid, Plane.middle, Int.cast_natCast]
  push_cast
  apply Prod.ext
  · ring
  · ring

theorem markTile_le (hside : 0 < side) {m n tests : ℕ} :
    (markTile reals segments (tileGrid corner cell nx ny side (m * side, n * side)) radius halfWidth
      tests).1 ≤
      ((covered segments corner cell radius nx ny).filter
        fun c => tileOf side c = (m * side, n * side)).card := by
  obtain ⟨g, hg⟩ : ∃ g, g = tileGrid corner cell nx ny side (m * side, n * side) := ⟨_, rfl⟩
  rw [← hg, markTile]
  dsimp only
  rw [count_true_eq, marks_length]
  have hnx : g.nx = min side (nx - m * side) := by rw [hg, tileGrid]
  have hny : g.ny = min side (ny - n * side) := by rw [hg, tileGrid]
  refine Finset.card_le_card_of_injOn (fun i => (m * side + i % g.nx, n * side + i / g.nx)) ?_ ?_
  · intro i hi
    rw [Finset.mem_coe, Finset.mem_filter, Finset.mem_range] at hi
    obtain ⟨hlt, hbit⟩ := hi
    have hpos : 0 < g.nx := Nat.pos_of_mul_pos_right (Nat.zero_lt_of_lt hlt)
    have hcolumn : i % g.nx < g.nx := Nat.mod_lt _ hpos
    have hrow : i / g.nx < g.ny := Nat.div_lt_of_lt_mul hlt
    rw [← Nat.div_add_mod' i g.nx] at hbit
    obtain ⟨seg, hseg, hnear⟩ := marks_sound hcolumn hbit
    rw [hg, center_tileGrid, ← hg] at hnear
    have hx : i % g.nx < min side (nx - m * side) := hcolumn.trans_eq hnx
    have hy : i / g.nx < min side (ny - n * side) := hrow.trans_eq hny
    change (m * side + i % g.nx, n * side + i / g.nx) ∈ _
    generalize i % g.nx = a at *
    generalize i / g.nx = b at *
    rw [Finset.mem_coe, Finset.mem_filter, mem_covered]
    refine ⟨⟨⟨by dsimp only; omega, by dsimp only; omega⟩, seg, List.mem_of_mem_filter hseg,
      hnear⟩, ?_⟩
    rw [tileOf, Nat.mul_comm m, Nat.mul_comm n, Nat.mul_add_div hside, Nat.mul_add_div hside,
      Nat.div_eq_of_lt (by omega), Nat.div_eq_of_lt (by omega), Nat.add_zero, Nat.add_zero,
      Nat.mul_comm m, Nat.mul_comm n]
  · intro i hi i' hi' heq
    obtain ⟨hcolumn, hrow⟩ := Prod.mk.inj heq
    rw [← Nat.div_add_mod i g.nx, ← Nat.div_add_mod i' g.nx, Nat.add_left_cancel hcolumn,
      Nat.add_left_cancel hrow]

/-- Unless the budget runs out, all cells of a tile with their center near enough are counted. -/
theorem card_le_markTile {g : Grid ℝ} {cells : Finset (ℕ × ℕ)} (hcell : 0 < g.cell)
    (hhalf : 0 < halfWidth) (hhalf' : halfWidth ≤ 3 * g.cell) (hradius : radius ≤ halfWidth)
    (hnx : g.nx ≤ cellBudget) (hny : g.ny ≤ cellBudget)
    (hlength : ∀ seg ∈ segments, seg.length reals ≤ (2 ^ 64 - 1) * g.cell)
    (hreaches : ∀ seg ∈ segments, reachesTile g halfWidth seg = true)
    (hbudget : (visits reals g (reachOf halfWidth g.cell) segments).length ≤ testBudget)
    (hcells : ∀ c ∈ cells, (c.1 < g.nx ∧ c.2 < g.ny) ∧
      g.center c.1 c.2 ∈ material segments radius) :
    cells.card ≤ (markTile reals segments g radius halfWidth 0).1 := by
  rw [markTile, List.filter_eq_self.mpr hreaches]
  dsimp only
  rw [count_true_eq, marks_length]
  refine Finset.card_le_card_of_injOn (fun c => c.2 * g.nx + c.1) ?_ ?_
  · rintro ⟨a, b⟩ hc
    obtain ⟨⟨ha, hb⟩, seg, hseg, hnear⟩ := hcells _ hc
    dsimp only at ha hb hnear ⊢
    have hvisit := mem_visits_of_capsule hcell hhalf hhalf' hnx hny hseg (hlength seg hseg) ha hb
      (Plane.capsule_mono hradius hnear)
    rw [Finset.mem_coe, Finset.mem_filter, Finset.mem_range]
    refine ⟨cell_lt ha hb, (marked_foldl _ _ _ _ _).complete (marks_not_stopped ?_) _ hvisit _ ?_
      (index_of_lt ha hb) (pointSegDistance_le_iff.mpr hnear)⟩
    · rwa [Nat.zero_add]
    · rw [Marking.empty, List.length_replicate]
      exact cell_lt ha hb
  · rintro ⟨a, b⟩ hc ⟨a', b'⟩ hc' heq
    obtain ⟨rfl, rfl⟩ := cell_injective (hcells _ hc).1.1 (hcells _ hc').1.1 heq
    rfl

theorem growCell_pos (w h side : ℝ) (tries : ℕ) (hcell : 0 < cell) (degraded : Bool) :
    0 < (growCell reals w h side tries cell degraded).1 := by
  induction tries generalizing cell degraded with
  | zero => exact hcell
  | succ tries ih =>
    rw [growCell]
    split
    · exact hcell
    · exact ih (by positivity) true

/-- A cell that is counted lies in the material as a whole. -/
theorem square_subset_material {c : ℕ × ℕ}
    (hc : c ∈ covered segments corner cell (strictRadius reals halfWidth cell) nx ny) :
    Plane.square corner cell c ⊆ material segments halfWidth := by
  obtain ⟨-, seg, hseg, hnear⟩ := mem_covered.mp hc
  intro q hq
  have hq' := Plane.mem_capsule_of_dist_le hnear (Plane.dist_middle_le hq)
  rw [strictRadius, show reals.sqrt = Real.sqrt from rfl, sub_add_cancel] at hq'
  exact ⟨seg, hseg, hq'⟩

/-- An area is made of different squares of a grid that lie in the material. -/
def Tiled (segments : List (XySegment ℝ)) (halfWidth area : ℝ) : Prop :=
  ∃ (corner : Xy ℝ) (cell : ℝ) (cells : Finset (ℕ × ℕ)), 0 < cell ∧
    area ≤ cells.card * cell * cell ∧
    ∀ c ∈ cells, Plane.square corner cell c ⊆ material segments halfWidth

theorem tiled_zero : Tiled segments halfWidth 0 :=
  ⟨(0, 0), 1, ∅, one_pos, by simp, by simp⟩

theorem Tiled.le_volume {area : ℝ} (h : Tiled segments halfWidth area) :
    ENNReal.ofReal area ≤ volume (material segments halfWidth) := by
  obtain ⟨corner, cell, cells, hcell, harea, hinside⟩ := h
  exact (ENNReal.ofReal_le_ofReal harea).trans (Plane.ofReal_card_mul_le_volume hcell hinside)

/-- No cell is counted twice over the tiles. -/
theorem tiled_sweep (hcell : 0 < cell) (hside : 0 < side) :
    Tiled segments halfWidth (((sweep (fun tile => markTile reals segments
      (tileGrid corner cell nx ny side tile) (strictRadius reals halfWidth cell) halfWidth)
      ((tileStarts side ny).flatMap fun tj => (tileStarts side nx).map fun ti => (ti, tj))
      0 0).1 : ℝ) * cell * cell) := by
  obtain ⟨cells, hcells⟩ : ∃ cells, cells =
      covered segments corner cell (strictRadius reals halfWidth cell) nx ny := ⟨_, rfl⟩
  have hcount := sweep_le (fun tile => markTile reals segments
      (tileGrid corner cell nx ny side tile) (strictRadius reals halfWidth cell) halfWidth)
    (fun tile => (cells.filter fun c => tileOf side c = tile).card)
    ((tileStarts side ny).flatMap fun tj => (tileStarts side nx).map fun ti => (ti, tj))
    (fun tile htile tests => by
      obtain ⟨tj, htj, hrow⟩ := List.mem_flatMap.mp htile
      obtain ⟨ti, hti, rfl⟩ := List.mem_map.mp hrow
      obtain ⟨n, -, rfl⟩ := List.mem_map.mp htj
      obtain ⟨m, -, rfl⟩ := List.mem_map.mp hti
      exact hcells ▸ markTile_le hside) 0 0
  rw [Nat.zero_add, ← List.sum_toFinset _ (nodup_tiles hside _ _),
    Finset.sum_card_fiberwise_eq_card_filter] at hcount
  have hcard := Nat.cast_le (α := ℝ).mpr (hcount.trans (Finset.card_filter_le _ _))
  refine ⟨corner, cell, cells, hcell, ?_, fun c hc => square_subset_material (hcells ▸ hc)⟩
  exact mul_le_mul_of_nonneg_right (mul_le_mul_of_nonneg_right hcard hcell.le) hcell.le

/-- The area that is reported is made of different squares of the material. -/
theorem tiled_strictArea (segments : List (XySegment ℝ)) (lo hi : Xy ℝ) (halfWidth : ℝ) :
    Tiled segments halfWidth (strictArea reals segments lo hi halfWidth).1 := by
  unfold strictArea
  dsimp only
  split
  · exact tiled_zero
  · split
    · exact tiled_zero
    · apply tiled_sweep
      · exact growCell_pos _ _ _ 64 (baseCell_pos halfWidth) false
      · unfold toUsize
        omega

end Area

end DeadReckoning.Contact
