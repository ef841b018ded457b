import DeadReckoning.Contact.Area

/-! What the raster of an island says of its material: the area never flatters it, the clearance
does so where a gap is not seen. -/
namespace DeadReckoning.Contact
open Gcode (reals)
open MeasureTheory

section Laws

variable {segments : List (XySegment ℝ)} {lo hi p : Xy ℝ} {halfWidth x : ℝ} {g : Grid ℝ}

/-- A cell that the fill leaves out: its center is outside of the material, or there was no test
left for it. -/
def LeftOut (segments : List (XySegment ℝ)) (halfWidth : ℝ) (g : Grid ℝ) (a b : ℕ) : Prop :=
  g.center a b ∉ material segments halfWidth ∨
    (fill reals g segments halfWidth).stopped = true ∧
      entry (fill reals g segments halfWidth).bits false (b * g.nx + a) = false

theorem leftOut_iff (hg : Spans lo hi halfWidth g) (hinside : ∀ seg ∈ segments, Inside lo hi seg)
    {a b : ℕ} (ha : a < g.nx) (hb : b < g.ny) : LeftOut segments halfWidth g a b ↔
      entry (fill reals g segments halfWidth).bits false (b * g.nx + a) = false := by
  constructor
  · rintro (houtside | ⟨-, hbit⟩)
    · rw [Bool.eq_false_iff]
      exact fun hbit => houtside (marks_sound ha hbit)
    · exact hbit
  · intro hbit
    by_cases hmaterial : g.center a b ∈ material segments halfWidth
    · refine .inr ⟨?_, hbit⟩
      by_contra hstopped
      have hmarked := fill_complete hg hinside ha hb hmaterial (Bool.eq_false_iff.mpr hstopped)
      rw [hbit] at hmarked
      cases hmarked
    · exact .inl hmaterial

/-- The clearance of a point, by the cells that are left out near the one it is in. -/
def ClearedTo (segments : List (XySegment ℝ)) (lo hi : Xy ℝ) (halfWidth : ℝ) (p : Xy ℝ) (x : ℝ) :
    Prop :=
  ∀ g, gridOver reals lo hi halfWidth = some g → ∀ a < g.nx, ∀ b < g.ny,
    g.cellOf p = ((a : ℤ), (b : ℤ)) → ∃ a' < g.nx, ∃ b' < g.ny, LeftOut segments halfWidth g a' b' ∧
      Plane.dist (g.center a b) (g.center a' b') ≤ x + 3 / 2 * Real.sqrt 2 * g.cell

theorem clearanceAt_eq (r : Raster ℝ) (p : Xy ℝ) :
    r.clearanceAt reals p = match r.index (r.cellOf p).1 (r.cellOf p).2 with
      | none => 0
      | some idx => entry r.clearance 0 idx :=
  if_pos rfl

theorem clearanceAt_le_iff (r : Raster ℝ) (p : Xy ℝ) (hx : 0 ≤ x) : r.clearanceAt reals p ≤ x ↔
    ∀ a < r.nx, ∀ b < r.ny, r.cellOf p = ((a : ℤ), (b : ℤ)) →
      entry r.clearance 0 (b * r.nx + a) ≤ x := by
  rw [clearanceAt_eq]
  constructor
  · intro hle a ha b hb hcell
    rwa [hcell, index_of_lt ha hb] at hle
  · intro hcells
    split
    · exact hx
    · rename_i idx hindex
      obtain ⟨a, ha, b, hb, hi, hj, rfl⟩ := index_eq_some_iff.mp hindex
      exact hcells a ha b hb (Prod.ext hi hj)

/-- A point in a cell with its center in the material is on it, unless the budget ran out. -/
theorem isMaterial_of_center {r : Raster ℝ} {a b : ℕ}
    (hbuild : Raster.build reals segments lo hi halfWidth = some r)
    (hgrid : gridOver reals lo hi halfWidth = some g)
    (hinside : ∀ seg ∈ segments, Inside lo hi seg)
    (hstopped : (fill reals g segments halfWidth).stopped = false) (ha : a < g.nx) (hb : b < g.ny)
    (hcell : g.cellOf p = ((a : ℤ), (b : ℤ)))
    (hcenter : g.center a b ∈ material segments halfWidth) : r.isMaterial reals p = true := by
  have hbit := fill_complete (gridOver_eq_some hgrid) hinside ha hb hcenter hstopped
  rw [Raster.build, hgrid] at hbuild
  obtain ⟨clearance, -, hbuild⟩ := Option.bind_eq_some_iff.mp hbuild
  obtain rfl := Option.some.inj hbuild
  have hfinite : finitePoint reals p = true := rfl
  rw [Raster.isMaterial, if_pos hfinite]
  dsimp only
  rw [hcell]
  dsimp only
  rw [index_of_lt ha hb]
  exact hbit

theorem build_eq_some (hinside : ∀ seg ∈ segments, Inside lo hi seg) :
    ∃ r, Raster.build reals segments lo hi halfWidth = some r ∧
      Tiled segments halfWidth r.area ∧ ∀ p x, 0 ≤ x →
        (r.clearanceAt reals p ≤ x ↔ ClearedTo segments lo hi halfWidth p x) := by
  cases hgrid : gridOver reals lo hi halfWidth with
  | none =>
    refine ⟨Raster.empty (baseCell halfWidth), by simp [Raster.build, hgrid], tiled_zero,
      fun p x hx => ?_⟩
    rw [clearanceAt_le_iff _ _ hx]
    refine iff_of_true (fun a ha => absurd ha (Nat.not_lt_zero a)) fun g hg => ?_
    rw [hgrid] at hg
    cases hg
  | some g =>
    have hg := gridOver_eq_some hgrid
    obtain ⟨clearance, hfield, hvalues⟩ := clearanceField_le_iff hg hinside
    refine ⟨{ g with
      solid := (fill reals g segments halfWidth).bits
      clearance := clearance
      area := (strictArea reals segments lo hi halfWidth).1
      coarsened := baseCell halfWidth < g.cell
      truncated := (fill reals g segments halfWidth).stopped ||
        (strictArea reals segments lo hi halfWidth).2 }, ?_,
      tiled_strictArea segments lo hi halfWidth, fun p x hx => ?_⟩
    · simp only [Raster.build, hgrid, show reals.sqrt = Real.sqrt from rfl, hfield]
      rfl
    · rw [clearanceAt_le_iff _ _ hx]
      constructor
      · intro hcells g' hg' a ha b hb hcell
        rw [hgrid] at hg'
        obtain rfl := Option.some.inj hg'
        obtain ⟨a', ha', b', hb', hbit, hnear⟩ :=
          (hvalues a ha b hb x hx).mp (hcells a ha b hb hcell)
        exact ⟨a', ha', b', hb', (leftOut_iff hg hinside ha' hb').mpr hbit, hnear⟩
      · intro hcleared a ha b hb hcell
        obtain ⟨a', ha', b', hb', hout, hnear⟩ := hcleared g hgrid a ha b hb hcell
        exact (hvalues a ha b hb x hx).mpr
          ⟨a', ha', b', hb', (leftOut_iff hg hinside ha' hb').mp hout, hnear⟩

end Laws

section Gap

/-- A bead of the counterexample. -/
noncomputable def bead (y : ℝ) : XySegment ℝ := ⟨(0, y), (5, y), 1 / 5, ⟨0, 1⟩⟩

theorem inside_beads : ∀ seg ∈ [bead 0, bead (12 / 25)], Inside (0, 0) (5, 12 / 25) seg := by
  intro seg hseg
  simp only [List.mem_cons, List.not_mem_nil, or_false] at hseg
  rcases hseg with rfl | rfl
  · constructor <;> norm_num [bead]
  · constructor <;> norm_num [bead]

/-- A place beside a bead. -/
theorem mem_capsule_bead {x y z r : ℝ} (hx : 0 ≤ x) (hx' : x ≤ 5) (hr : |z - y| ≤ r) :
    (x, y) ∈ Plane.capsule (bead z).start (bead z).stop r := by
  refine ⟨x / 5, ⟨by positivity, by linarith⟩, ?_⟩
  have hplace : Plane.lerp (bead z).start (bead z).stop (x / 5) = (x, z) := by
    simp only [Plane.lerp, bead]
    apply Prod.ext
    · ring
    · ring
  rw [hplace]
  have hsides := Plane.dist_le_add (x, y) (x, z)
  simp only [sub_self, abs_zero, zero_add] at hsides
  exact hsides.trans hr

theorem gridOver_beads : gridOver reals (0, 0) (5, 12 / 25) (9 / 40) =
    some ⟨(-3 / 8, -3 / 8), 3 / 40, 78, 18⟩ := by
  have hbase : baseCell (9 / 40 : ℝ) = 3 / 40 := by norm_num [baseCell]
  have hnx : ⌈((5 : ℝ) - 0 + 2 * (9 / 40 + 2 * (3 / 40))) / (3 / 40)⌉ = 77 := by
    rw [Int.ceil_eq_iff]
    norm_num
  have hny : ⌈((12 / 25 : ℝ) - 0 + 2 * (9 / 40 + 2 * (3 / 40))) / (3 / 40)⌉ = 17 := by
    rw [Int.ceil_eq_iff]
    norm_num
  have hfit : fitGrid reals ((5 : ℝ) - 0) (12 / 25 - 0) (9 / 40) (63 + 1) (3 / 40) =
      some (3 / 40, 78, 18) := by
    rw [fitGrid, hnx, hny]
    exact if_pos (by decide)
  have hvalid : (!reals.isFinite (9 / 40) || decide ((9 / 40 : ℝ) ≤ 0) ||
      !reals.isFinite ((5 : ℝ) - 0) || !reals.isFinite ((12 / 25 : ℝ) - 0) ||
      decide ((5 : ℝ) - 0 < 0) || decide ((12 / 25 : ℝ) - 0 < 0)) = false := by
    norm_num [reals]
  have hvalid' := Bool.eq_false_iff.mp hvalid
  rw [gridOver]
  dsimp only
  rw [if_neg hvalid', hbase, hfit]
  norm_num

/-- The grid over the two beads. -/
noncomputable def gapGrid : Grid ℝ := ⟨(-3 / 8, -3 / 8), 3 / 40, 78, 18⟩

theorem fill_beads_not_stopped :
    (fill reals gapGrid [bead 0, bead (12 / 25)] (9 / 40)).stopped = false := by
  apply fill_not_stopped
  have hreach : reachOf (9 / 40) gapGrid.cell = 4 := by
    norm_num [reachOf, gapGrid]
  have hplaces (y : ℝ) : (places reals (bead y) gapGrid.cell).length ≤ 68 := by
    refine length_places_le (n := 67) ?_
    have hlength : (bead y).length reals ≤ 5 := by
      have hsides := Plane.dist_le_add (bead y).start (bead y).stop
      norm_num [bead] at hsides
      exact hsides
    rw [div_le_iff₀ (by norm_num [gapGrid])]
    norm_num [gapGrid]
    linarith
  have hcount := @length_visits_le ℝ _ _ _ reals [bead 0, bead (12 / 25)] gapGrid 4 68 (by
    intro seg hseg
    simp only [List.mem_cons, List.not_mem_nil, or_false] at hseg
    rcases hseg with rfl | rfl
    · exact hplaces 0
    · exact hplaces (12 / 25))
  rw [hreach]
  exact hcount.trans (by decide)

/-- Around the gap every center of a cell is on one of the beads. -/
theorem center_mem_beads {a b : ℕ} (ha : 36 ≤ a ∧ a ≤ 40) (hb : 6 ≤ b ∧ b ≤ 10) :
    gapGrid.center a b ∈ material [bead 0, bead (12 / 25)] (9 / 40) := by
  have hcenter : gapGrid.center a b =
      (-3 / 8 + ((a : ℝ) + 1 / 2) * (3 / 40), -3 / 8 + ((b : ℝ) + 1 / 2) * (3 / 40)) := by
    simp [Grid.center, gapGrid]
  have ha₁ : (36 : ℝ) ≤ a := by exact_mod_cast ha.1
  have ha₂ : (a : ℝ) ≤ 40 := by exact_mod_cast ha.2
  have hb₁ : (6 : ℝ) ≤ b := by exact_mod_cast hb.1
  have hb₂ : (b : ℝ) ≤ 10 := by exact_mod_cast hb.2
  rw [hcenter]
  rcases Nat.lt_or_ge b 8 with hlower | hupper
  · have hb₃ : (b : ℝ) ≤ 7 := by exact_mod_cast Nat.lt_succ_iff.mp hlower
    refine ⟨bead 0, by simp, mem_capsule_bead (by linarith) (by linarith) ?_⟩
    rw [abs_le]
    constructor <;> linarith
  · have hb₃ : (8 : ℝ) ≤ b := by exact_mod_cast hupper
    refine ⟨bead (12 / 25), by simp, mem_capsule_bead (by linarith) (by linarith) ?_⟩
    rw [abs_le]
    constructor <;> linarith

theorem abs_index_lt {m n : ℕ} {o : ℝ} (h : |o + ((n : ℝ) + 1 / 2) * (3 / 40) -
    (o + ((m : ℝ) + 1 / 2) * (3 / 40))| ≤ 3 / 2 * Real.sqrt 2 * (3 / 40)) :
    (m : ℤ) - 3 < n ∧ (n : ℤ) < m + 3 := by
  have hroot : Real.sqrt 2 < 3 / 2 := by
    rw [Real.sqrt_lt' (by norm_num)]
    norm_num
  rw [abs_le] at h
  constructor
  · have hlt : (m : ℝ) - 3 < n := by linarith
    exact_mod_cast hlt
  · have hlt : (n : ℝ) < m + 3 := by linarith
    exact_mod_cast hlt

theorem gap_notMem : (5 / 2, 6 / 25) ∉ material [bead 0, bead (12 / 25)] (9 / 40) := by
  have hfar (y : ℝ) (hy : 6 / 25 ≤ |y - 6 / 25|) :
      (5 / 2, 6 / 25) ∉ Plane.capsule (bead y).start (bead y).stop (9 / 40) := by
    rintro ⟨t, -, hle⟩
    have hside := (Plane.abs_snd_le_dist (5 / 2, 6 / 25)
      (Plane.lerp (bead y).start (bead y).stop t)).trans hle
    simp only [Plane.lerp, bead, sub_self, zero_mul, add_zero] at hside
    linarith
  rintro ⟨seg, hseg, hnear⟩
  simp only [List.mem_cons, List.not_mem_nil, or_false] at hseg
  rcases hseg with rfl | rfl
  · exact hfar 0 (by norm_num) hnear
  · exact hfar (12 / 25) (by norm_num) hnear

end Gap

end DeadReckoning.Contact
