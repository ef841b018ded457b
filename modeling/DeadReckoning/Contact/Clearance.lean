import DeadReckoning.Contact.Marks

/-! The grid over an island: which cells of it are material, and what the clearance of a cell is. -/
namespace DeadReckoning.Contact
open Gcode (reals)

section Grids

/-- The segment lies in the box. -/
structure Inside (lo hi : Xy ℝ) (seg : XySegment ℝ) : Prop where
  start_fst : lo.1 ≤ seg.start.1 ∧ seg.start.1 ≤ hi.1
  start_snd : lo.2 ≤ seg.start.2 ∧ seg.start.2 ≤ hi.2
  stop_fst : lo.1 ≤ seg.stop.1 ∧ seg.stop.1 ≤ hi.1
  stop_snd : lo.2 ≤ seg.stop.2 ∧ seg.stop.2 ≤ hi.2

/-- The grid is around the box, with a margin that no material reaches. -/
structure Spans (lo hi : Xy ℝ) (halfWidth : ℝ) (g : Grid ℝ) : Prop where
  halfWidth_pos : 0 < halfWidth
  base : baseCell halfWidth ≤ g.cell
  origin : g.origin = (lo.1 - (halfWidth + 2 * g.cell), lo.2 - (halfWidth + 2 * g.cell))
  width : hi.1 - lo.1 + 2 * (halfWidth + 2 * g.cell) ≤ ((g.nx : ℝ) - 1) * g.cell
  height : hi.2 - lo.2 + 2 * (halfWidth + 2 * g.cell) ≤ ((g.ny : ℝ) - 1) * g.cell
  nx_pos : 0 < g.nx
  ny_pos : 0 < g.ny
  cells : g.nx * g.ny ≤ cellBudget

variable {lo hi : Xy ℝ} {w h halfWidth cell cell' : ℝ} {g : Grid ℝ} {nx ny : ℕ}

theorem baseCell_pos (halfWidth : ℝ) : 0 < baseCell halfWidth :=
  lt_max_of_lt_right (by norm_num)

theorem le_three_baseCell (halfWidth : ℝ) : halfWidth ≤ 3 * baseCell halfWidth := by
  have hle : halfWidth / 3 ≤ baseCell halfWidth := le_max_left _ _
  linarith

theorem Spans.cell_pos (hg : Spans lo hi halfWidth g) : 0 < g.cell :=
  (baseCell_pos halfWidth).trans_le hg.base

theorem Spans.halfWidth_le (hg : Spans lo hi halfWidth g) : halfWidth ≤ 3 * g.cell := by
  linarith [le_three_baseCell halfWidth, hg.base]

/-- A count of cells within the budget is cast exactly. -/
theorem toUsize_ceil {x : ℝ} (hle : ⌈x⌉ ≤ (cellBudget : ℤ)) : x ≤ (toUsize ⌈x⌉ : ℕ) := by
  have hcast : ⌈x⌉ ≤ ((toUsize ⌈x⌉ : ℕ) : ℤ) := by
    unfold toUsize
    unfold cellBudget at hle
    omega
  exact (Int.le_ceil x).trans (by exact_mod_cast hcast)

theorem fitGrid_eq_some (hhalf : 0 < halfWidth) (hw : 0 ≤ w) (hh : 0 ≤ h) (tries : ℕ)
    (hcell : 0 < cell) (hfit : fitGrid reals w h halfWidth tries cell = some (cell', nx, ny)) :
    cell ≤ cell' ∧ w + 2 * (halfWidth + 2 * cell') ≤ ((nx : ℝ) - 1) * cell' ∧
      h + 2 * (halfWidth + 2 * cell') ≤ ((ny : ℝ) - 1) * cell' ∧ 0 < nx ∧ 0 < ny ∧
      nx * ny ≤ cellBudget := by
  induction tries generalizing cell with
  | zero => cases hfit
  | succ tries ih =>
    rw [fitGrid] at hfit
    split at hfit
    case isFalse =>
      obtain ⟨hle, hrest⟩ := ih (by positivity) hfit
      exact ⟨by linarith, hrest⟩
    case isTrue haccept =>
      simp only [Bool.and_eq_true, decide_eq_true_eq] at haccept
      obtain ⟨⟨-, hproduct⟩, hbudget⟩ := haccept
      simp only [Option.some.injEq, Prod.mk.injEq] at hfit
      obtain ⟨rfl, rfl, rfl⟩ := hfit
      have hx : 0 < (w + 2 * (halfWidth + 2 * cell)) / cell := by positivity
      have hy : 0 < (h + 2 * (halfWidth + 2 * cell)) / cell := by positivity
      have hnx := Int.ceil_pos.mpr hx
      have hny := Int.ceil_pos.mpr hy
      have hcells_x := toUsize_ceil ((le_mul_of_one_le_right hnx.le hny).trans hproduct)
      have hcells_y := toUsize_ceil ((le_mul_of_one_le_left hny.le hnx).trans hproduct)
      rw [div_le_iff₀ hcell] at hcells_x hcells_y
      push_cast
      rw [add_sub_cancel_right, add_sub_cancel_right]
      exact ⟨le_rfl, hcells_x, hcells_y, Nat.succ_pos _, Nat.succ_pos _, hbudget⟩

theorem gridOver_eq_some (hgrid : gridOver reals lo hi halfWidth = some g) :
    Spans lo hi halfWidth g := by
  unfold gridOver at hgrid
  dsimp only at hgrid
  split at hgrid
  case isTrue => cases hgrid
  case isFalse hvalid =>
    simp only [Bool.or_eq_true, decide_eq_true_eq, not_or, not_lt, not_le] at hvalid
    obtain ⟨⟨⟨⟨⟨-, hhalf⟩, -⟩, -⟩, hw⟩, hh⟩ := hvalid
    obtain ⟨⟨cell, nx, ny⟩, hfit, rfl⟩ := Option.map_eq_some_iff.mp hgrid
    obtain ⟨hbase, hwidth, hheight, hnx, hny, hcells⟩ :=
      fitGrid_eq_some hhalf hw hh 64 (baseCell_pos halfWidth) hfit
    exact ⟨hhalf, hbase, rfl, hwidth, hheight, hnx, hny, hcells⟩

theorem Spans.nx_le (hg : Spans lo hi halfWidth g) : g.nx ≤ cellBudget :=
  (Nat.le_mul_of_pos_right _ hg.ny_pos).trans hg.cells

theorem Spans.ny_le (hg : Spans lo hi halfWidth g) : g.ny ≤ cellBudget :=
  (Nat.le_mul_of_pos_left _ hg.nx_pos).trans hg.cells

end Grids

section Fill

variable {lo hi p q : Xy ℝ} {halfWidth : ℝ} {g : Grid ℝ} {seg : XySegment ℝ}
  {segments : List (XySegment ℝ)} {a b a' b' : ℕ}

/-- The material: what is not further than half the width of a bead from its middle line. -/
def material (segments : List (XySegment ℝ)) (halfWidth : ℝ) : Set (ℝ × ℝ) :=
  {q | ∃ seg ∈ segments, q ∈ Plane.capsule seg.start seg.stop halfWidth}

theorem length_le (hg : Spans lo hi halfWidth g) (hinside : Inside lo hi seg) :
    seg.length reals ≤ (2 ^ 64 - 1) * g.cell := by
  have hcell := hg.cell_pos
  have hnx : (g.nx : ℝ) ≤ cellBudget := Nat.cast_le.mpr hg.nx_le
  have hny : (g.ny : ℝ) ≤ cellBudget := Nat.cast_le.mpr hg.ny_le
  have hx : |seg.stop.1 - seg.start.1| ≤ hi.1 - lo.1 :=
    abs_le.mpr ⟨by linarith [hinside.start_fst.2, hinside.stop_fst.1],
      by linarith [hinside.start_fst.1, hinside.stop_fst.2]⟩
  have hy : |seg.stop.2 - seg.start.2| ≤ hi.2 - lo.2 :=
    abs_le.mpr ⟨by linarith [hinside.start_snd.2, hinside.stop_snd.1],
      by linarith [hinside.start_snd.1, hinside.stop_snd.2]⟩
  have hsides : hi.1 - lo.1 + (hi.2 - lo.2) ≤ (cellBudget + cellBudget) * g.cell := by
    have hnx' := mul_le_mul_of_nonneg_right hnx hcell.le
    have hny' := mul_le_mul_of_nonneg_right hny hcell.le
    linarith [hg.width, hg.height, hg.halfWidth_pos]
  have hbudget : ((cellBudget : ℝ) + cellBudget) * g.cell ≤ (2 ^ 64 - 1) * g.cell :=
    mul_le_mul_of_nonneg_right (by norm_num [cellBudget]) hcell.le
  linarith [Plane.dist_le_add seg.start seg.stop, show seg.length reals =
    Plane.dist seg.start seg.stop from rfl]

/-- The cell of a place that is near the middle of another one is as near as the loops reach. -/
theorem exists_offset {o x r cell : ℝ} {n : ℕ} (hcell : 0 < cell) (hr : 0 < r) (hr' : r ≤ 3 * cell)
    (hn : a < n) (hn' : n ≤ cellBudget)
    (hnear : |x - (o + ((a : ℝ) + 1 / 2) * cell)| ≤ r + cell / 2) :
    ∃ d, (-reachOf r cell ≤ d ∧ d ≤ reachOf r cell) ∧
      (a : ℤ) = clampIndex ⌊(x - o) / cell⌋ + d := by
  obtain ⟨y, hy⟩ : ∃ y, y = (x - o) / cell := ⟨_, rfl⟩
  obtain ⟨ρ, hρ⟩ : ∃ ρ, ρ = r / cell := ⟨_, rfl⟩
  have hx : x = o + y * cell := by
    rw [hy, div_mul_cancel₀ _ hcell.ne']
    ring
  have hrx : r = ρ * cell := by rw [hρ, div_mul_cancel₀ _ hcell.ne']
  have hρ_pos : 0 < ρ := hρ ▸ div_pos hr hcell
  have hρ_le : ρ ≤ 3 := by
    rw [hρ, div_le_iff₀ hcell]
    exact hr'
  rw [hx, hrx, abs_le] at hnear
  have hlo : (a : ℝ) ≤ y + ρ := le_of_mul_le_mul_right (by linarith) hcell
  have hhi : y ≤ a + 1 + ρ := le_of_mul_le_mul_right (by linarith) hcell
  have hfloor := Int.floor_le y
  have hfloor' := Int.lt_floor_add_one y
  have hceil := Int.le_ceil ρ
  have hceil_pos : 0 < ⌈ρ⌉ := Int.ceil_pos.mpr hρ_pos
  have hceil_le : ⌈ρ⌉ ≤ 3 := Int.ceil_le.mpr (by exact_mod_cast hρ_le)
  have hbelow : (a : ℤ) < ⌊y⌋ + 1 + ⌈ρ⌉ := by
    have hlt : (a : ℝ) < ⌊y⌋ + 1 + ⌈ρ⌉ := by linarith
    exact_mod_cast hlt
  have habove : ⌊y⌋ ≤ (a : ℤ) + 1 + ⌈ρ⌉ := by
    have hle : (⌊y⌋ : ℝ) ≤ a + 1 + ⌈ρ⌉ := by linarith
    exact_mod_cast hle
  have hexact : clampIndex ⌊y⌋ = ⌊y⌋ := by
    unfold clampIndex indexLimit
    unfold cellBudget at hn'
    omega
  rw [← hy, hexact, reachOf, ← hρ]
  exact ⟨(a : ℤ) - ⌊y⌋, ⟨by omega, by omega⟩, by omega⟩

/-- The loops go through every cell whose center is in the material. -/
theorem mem_visits_of_capsule (hcell : 0 < g.cell) (hhalf : 0 < halfWidth)
    (hhalf' : halfWidth ≤ 3 * g.cell) (hnx : g.nx ≤ cellBudget) (hny : g.ny ≤ cellBudget)
    (hseg : seg ∈ segments) (hlength : seg.length reals ≤ (2 ^ 64 - 1) * g.cell) (ha : a < g.nx)
    (hb : b < g.ny) (hnear : g.center a b ∈ Plane.capsule seg.start seg.stop halfWidth) :
    (seg, (a : ℤ), (b : ℤ)) ∈ visits reals g (reachOf halfWidth g.cell) segments := by
  obtain ⟨t, ⟨ht, ht'⟩, hle⟩ := hnear
  obtain ⟨p, hp, hclose⟩ := exists_place_near hcell hlength ht ht'
  have hdist : Plane.dist (g.center a b) p ≤ halfWidth + g.cell / 2 := by
    linarith [Plane.dist_triangle (g.center a b) (Plane.lerp seg.start seg.stop t) p]
  have hx := (Plane.abs_fst_le_dist (g.center a b) p).trans hdist
  have hy := (Plane.abs_snd_le_dist (g.center a b) p).trans hdist
  simp only [Grid.center, Int.cast_natCast] at hx hy
  obtain ⟨di, hdi, hai⟩ := exists_offset hcell hhalf hhalf' ha hnx hx
  obtain ⟨dj, hdj, hbj⟩ := exists_offset hcell hhalf hhalf' hb hny hy
  refine mem_visits.mpr ⟨seg, hseg, p, hp, di, dj, hdi, hdj, ?_⟩
  rw [hai, hbj]
  rfl

theorem mem_visits_of_near (hg : Spans lo hi halfWidth g) (hseg : seg ∈ segments)
    (hinside : Inside lo hi seg) (ha : a < g.nx) (hb : b < g.ny)
    (hnear : g.center a b ∈ Plane.capsule seg.start seg.stop halfWidth) :
    (seg, (a : ℤ), (b : ℤ)) ∈ visits reals g (reachOf halfWidth g.cell) segments :=
  mem_visits_of_capsule hg.cell_pos hg.halfWidth_pos hg.halfWidth_le hg.nx_le hg.ny_le hseg
    (length_le hg hinside) ha hb hnear

theorem fill_length (g : Grid ℝ) (segments : List (XySegment ℝ)) (halfWidth : ℝ) :
    (fill reals g segments halfWidth).bits.length = g.nx * g.ny := marks_length _ _ _

/-- What is marked has its center near enough to a segment. -/
theorem marks_sound {reach : ℤ} {radius : ℝ} {cells tests : ℕ} (ha : a < g.nx)
    (hbit : entry ((visits reals g reach segments).foldl (mark reals g radius)
      (Marking.empty cells tests)).bits false (b * g.nx + a) = true) :
    g.center a b ∈ material segments radius := by
  rcases (marked_foldl _ _ _ _ _).sound _ hbit with hbit | ⟨v, hv, hindex, hcovers⟩
  · rw [Marking.empty, entry_replicate] at hbit
    cases hbit
  · obtain ⟨a', ha', b', hb', hi, hj, hcell⟩ := index_eq_some_iff.mp hindex
    obtain ⟨rfl, rfl⟩ := cell_injective ha ha' hcell
    rw [Covers, hi, hj] at hcovers
    exact ⟨v.1, fst_mem_of_mem_visits hv, pointSegDistance_le_iff.mp hcovers⟩

/-- Unless the budget ran out, all cells with their center in the material are marked. -/
theorem fill_complete (hg : Spans lo hi halfWidth g) (hinside : ∀ seg ∈ segments, Inside lo hi seg)
    (ha : a < g.nx) (hb : b < g.ny) (hmaterial : g.center a b ∈ material segments halfWidth)
    (hstopped : (fill reals g segments halfWidth).stopped = false) :
    entry (fill reals g segments halfWidth).bits false (b * g.nx + a) = true := by
  obtain ⟨seg, hseg, hnear⟩ := hmaterial
  have hvisit := mem_visits_of_near hg hseg (hinside seg hseg) ha hb hnear
  have hcell : b * g.nx + a < (Marking.empty (g.nx * g.ny) 0).bits.length := by
    rw [Marking.empty, List.length_replicate]
    exact cell_lt ha hb
  exact (marked_foldl _ _ _ _ _).complete hstopped _ hvisit _ hcell (index_of_lt ha hb)
    (pointSegDistance_le_iff.mpr hnear)

theorem lerp_between {u v lo hi t : ℝ} (hu : lo ≤ u ∧ u ≤ hi) (hv : lo ≤ v ∧ v ≤ hi) (ht : 0 ≤ t)
    (ht' : t ≤ 1) : lo ≤ u + (v - u) * t ∧ u + (v - u) * t ≤ hi := by
  have hmix : u + (v - u) * t = u * (1 - t) + v * t := by ring
  have hrest : 0 ≤ 1 - t := by linarith
  have hlo := add_le_add (mul_le_mul_of_nonneg_right hu.1 hrest)
    (mul_le_mul_of_nonneg_right hv.1 ht)
  have hhi := add_le_add (mul_le_mul_of_nonneg_right hu.2 hrest)
    (mul_le_mul_of_nonneg_right hv.2 ht)
  rw [hmix]
  constructor
  · linarith
  · linarith

/-- No material reaches the margin of the grid. -/
theorem corner_notMem (hg : Spans lo hi halfWidth g)
    (hinside : ∀ seg ∈ segments, Inside lo hi seg) :
    g.center ((0 : ℕ) : ℤ) ((0 : ℕ) : ℤ) ∉ material segments halfWidth := by
  rintro ⟨seg, hseg, t, ⟨ht, ht'⟩, hle⟩
  have hx := (lerp_between (hinside seg hseg).start_fst (hinside seg hseg).stop_fst ht ht').1
  have hfar := (le_abs_self _).trans ((Plane.abs_fst_le_dist (g.center ((0 : ℕ) : ℤ) ((0 : ℕ) : ℤ))
    (Plane.lerp seg.start seg.stop t)).trans hle)
  simp only [Grid.center, Plane.lerp, hg.origin, Nat.cast_zero, Int.cast_zero] at hfar
  linarith [hg.cell_pos]

end Fill

section Field

variable {lo hi p q : Xy ℝ} {halfWidth x : ℝ} {g : Grid ℝ} {segments : List (XySegment ℝ)}
  {a b a' b' : ℕ}

theorem dist_center (hcell : 0 ≤ g.cell) :
    Plane.dist (g.center a b) (g.center a' b') =
      Real.sqrt (cellDistanceSq ℝ a b a' b') * g.cell := by
  have hscaled : cellDistanceSq ℝ a b a' b' * (g.cell * g.cell) =
      ((g.center a' b').1 - (g.center a b).1) * ((g.center a' b').1 - (g.center a b).1) +
        ((g.center a' b').2 - (g.center a b).2) * ((g.center a' b').2 - (g.center a b).2) := by
    simp only [Grid.center, Int.cast_natCast, cellDistanceSq]
    ring
  have hnonneg : 0 ≤ cellDistanceSq ℝ a b a' b' :=
    add_nonneg (mul_self_nonneg _) (mul_self_nonneg _)
  rw [Plane.dist, ← hscaled, Real.sqrt_mul hnonneg, Real.sqrt_mul_self hcell]

/-- What the field holds for a cell is the distance to the nearest one that is not marked, without
the slack. -/
theorem clearanceField_le_iff (hg : Spans lo hi halfWidth g)
    (hinside : ∀ seg ∈ segments, Inside lo hi seg) :
    ∃ clearance, clearanceField Real.sqrt (clearanceSlack reals)
        (fill reals g segments halfWidth).bits g.nx g.ny g.cell = some clearance ∧
      ∀ a < g.nx, ∀ b < g.ny, ∀ x, 0 ≤ x → (entry clearance 0 (b * g.nx + a) ≤ x ↔
        ∃ a' < g.nx, ∃ b' < g.ny,
          entry (fill reals g segments halfWidth).bits false (b' * g.nx + a') = false ∧
          Plane.dist (g.center a b) (g.center a' b') ≤ x + clearanceSlack reals * g.cell) := by
  obtain ⟨solid, hsolid⟩ : ∃ solid, solid = (fill reals g segments halfWidth).bits := ⟨_, rfl⟩
  have hlength : solid.length = g.nx * g.ny := by rw [hsolid, fill_length]
  have hget {a b : ℕ} (ha : a < g.nx) (hb : b < g.ny) :
      solid[b * g.nx + a]? = some (entry solid false (b * g.nx + a)) :=
    getElem?_entry (hlength ▸ cell_lt ha hb) false
  have hbackground : false ∈ solid := by
    have hcorner : entry solid false (0 * g.nx + 0) = false := by
      rw [Bool.eq_false_iff, hsolid]
      exact fun hbit => corner_notMem hg hinside (marks_sound hg.nx_pos hbit)
    have hmem := hget hg.nx_pos hg.ny_pos
    rw [hcorner] at hmem
    exact List.mem_of_getElem? hmem
  obtain ⟨d, hfield, hcells, hvalues⟩ :=
    squaredField_isLeast (K := ℝ) hg.nx_pos hg.ny_pos hlength hbackground
  rw [← hsolid, clearanceField, hfield]
  refine ⟨_, rfl, fun a ha b hb x hx => ?_⟩
  obtain ⟨v, hv, -, ⟨a', ha', b', hb', hunmarked, hattained⟩, hleast⟩ := hvalues a ha b hb
  have hentry : entry (d.map fun value => max (Real.sqrt value * g.cell -
      clearanceSlack reals * g.cell) 0) 0 (b * g.nx + a) =
      max (Real.sqrt v * g.cell - clearanceSlack reals * g.cell) 0 := by
    rw [entry, List.getD_eq_getElem?_getD, List.getElem?_map, hv]
    rfl
  rw [hentry, max_le_iff, sub_le_iff_le_add, and_iff_left hx]
  constructor
  · intro hle
    refine ⟨a', ha', b', hb', ?_, ?_⟩
    · rw [hget ha' hb'] at hunmarked
      exact Option.some.inj hunmarked
    · rw [dist_center hg.cell_pos.le, ← hattained]
      exact hle
  · rintro ⟨a'', ha'', b'', hb'', hbit, hle⟩
    have hnear : v ≤ cellDistanceSq ℝ a b a'' b'' := by
      refine hleast ⟨a'', ha'', b'', hb'', ?_, rfl⟩
      rw [hget ha'' hb'', hbit]
    rw [dist_center hg.cell_pos.le] at hle
    exact (mul_le_mul_of_nonneg_right (Real.sqrt_le_sqrt hnear) hg.cell_pos.le).trans hle

end Field

end DeadReckoning.Contact
