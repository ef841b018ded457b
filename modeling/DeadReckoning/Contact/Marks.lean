import DeadReckoning.Contact.Raster

/-! What the marking of a grid leaves: nothing is marked that is not near enough, and all that is
gone through and near enough is, unless the budget ran out. -/
namespace DeadReckoning.Contact
open Gcode (Arithmetic)

section Index

variable {K : Type} {g : Grid K} {i j : ℤ} {idx a b : ℕ}

theorem index_eq_some_iff :
    g.index i j = some idx ↔ ∃ a < g.nx, ∃ b < g.ny, i = a ∧ j = b ∧ idx = b * g.nx + a := by
  unfold Grid.index
  constructor
  · intro h
    split at h
    · cases h
    · split at h
      · cases h
      · obtain rfl := Option.some.inj h
        exact ⟨i.toNat, by omega, j.toNat, by omega, by omega, by omega, rfl⟩
  · rintro ⟨a, ha, b, hb, rfl, rfl, rfl⟩
    rw [if_neg (by omega), if_neg (by omega), Int.toNat_natCast, Int.toNat_natCast]

theorem index_of_lt (ha : a < g.nx) (hb : b < g.ny) : g.index a b = some (b * g.nx + a) :=
  index_eq_some_iff.mpr ⟨a, ha, b, hb, rfl, rfl, rfl⟩

end Index

theorem entry_replicate {α : Type} (n : ℕ) (x : α) (i : ℕ) :
    entry (List.replicate n x) x i = x := by
  rw [entry, List.getD_eq_getElem?_getD, List.getElem?_replicate]
  split
  · rfl
  · rfl

section Marks

variable {K : Type} [Field K] [LinearOrder K] {arith : Arithmetic K} {g : Grid K}
  {radius : K} {s s' s'' : Marking} {vs vs' : List (XySegment K × ℤ × ℤ)} {c : ℕ}

/-- The center of the cell is near enough to the segment. -/
def Covers (arith : Arithmetic K) (g : Grid K) (radius : K) (visit : XySegment K × ℤ × ℤ) : Prop :=
  pointSegDistance arith (g.center visit.2.1 visit.2.2) visit.1.start visit.1.stop ≤ radius

/-- What going through some cells does to the marks. -/
structure Marked (arith : Arithmetic K) (g : Grid K) (radius : K)
    (vs : List (XySegment K × ℤ × ℤ)) (s s' : Marking) : Prop where
  length : s'.bits.length = s.bits.length
  keeps : ∀ c, entry s.bits false c = true → entry s'.bits false c = true
  sound : ∀ c, entry s'.bits false c = true → entry s.bits false c = true ∨
    ∃ v ∈ vs, g.index v.2.1 v.2.2 = some c ∧ Covers arith g radius v
  complete : s'.stopped = false → ∀ v ∈ vs, ∀ c < s.bits.length, g.index v.2.1 v.2.2 = some c →
    Covers arith g radius v → entry s'.bits false c = true
  stopped : s'.stopped = false → s.stopped = false
  grows : s.tests ≤ s'.tests
  tests : s'.tests ≤ s.tests + vs.length
  budget : s'.stopped = true → s.stopped = true ∨ testBudget < s'.tests

theorem Marked.refl (arith : Arithmetic K) (g : Grid K) (radius : K) (s : Marking) :
    Marked arith g radius [] s s where
  length := rfl
  keeps _ h := h
  sound _ h := .inl h
  complete _ _ hv := absurd hv List.not_mem_nil
  stopped h := h
  grows := le_rfl
  tests := Nat.le_add_right _ _
  budget h := .inl h

theorem Marked.trans (h : Marked arith g radius vs s s') (h' : Marked arith g radius vs' s' s'') :
    Marked arith g radius (vs ++ vs') s s'' where
  length := h'.length.trans h.length
  keeps c hc := h'.keeps c (h.keeps c hc)
  sound c hc := by
    rcases h'.sound c hc with hc | ⟨v, hv, hindex, hcovers⟩
    · rcases h.sound c hc with hc | ⟨v, hv, hindex, hcovers⟩
      · exact .inl hc
      · exact .inr ⟨v, List.mem_append_left _ hv, hindex, hcovers⟩
    · exact .inr ⟨v, List.mem_append_right _ hv, hindex, hcovers⟩
  complete hstopped v hv c hc hindex hcovers := by
    rcases List.mem_append.mp hv with hv | hv
    · exact h'.keeps c (h.complete (h'.stopped hstopped) v hv c hc hindex hcovers)
    · exact h'.complete hstopped v hv c (h.length ▸ hc) hindex hcovers
  stopped hstopped := h.stopped (h'.stopped hstopped)
  grows := h.grows.trans h'.grows
  tests := by
    have := h.tests
    have := h'.tests
    rw [List.length_append]
    omega
  budget hstopped := by
    rcases h'.budget hstopped with hstopped' | hbudget
    · rcases h.budget hstopped' with hstopped'' | hbudget
      · exact .inl hstopped''
      · exact .inr (hbudget.trans_le h'.grows)
    · exact .inr hbudget

/-- A cell is passed over, or it is tested: the budget runs out, it is marked, or it is too far. -/
theorem mark_cases (arith : Arithmetic K) (g : Grid K) (radius : K) (s : Marking)
    (v : XySegment K × ℤ × ℤ) :
    mark arith g radius s v = s ∧ (s.stopped = true ∨ g.index v.2.1 v.2.2 = none ∨
        ∃ idx, g.index v.2.1 v.2.2 = some idx ∧ entry s.bits false idx = true) ∨
      ∃ idx, g.index v.2.1 v.2.2 = some idx ∧
        (testBudget < s.tests + 1 ∧
            mark arith g radius s v = { s with tests := s.tests + 1, stopped := true } ∨
          s.stopped = false ∧ Covers arith g radius v ∧ mark arith g radius s v =
            { s with bits := s.bits.set idx true, tests := s.tests + 1 } ∨
          s.stopped = false ∧ ¬Covers arith g radius v ∧
            mark arith g radius s v = { s with tests := s.tests + 1 }) := by
  obtain ⟨seg, i, j⟩ := v
  by_cases hstopped : s.stopped = true
  · exact .inl ⟨by simp [mark, hstopped], .inl hstopped⟩
  have hrunning : s.stopped = false := Bool.eq_false_iff.mpr hstopped
  cases hindex : g.index i j with
  | none => exact .inl ⟨by simp [mark, hindex], .inr (.inl rfl)⟩
  | some idx =>
    by_cases hbit : entry s.bits false idx = true
    · exact .inl ⟨by simp [mark, hindex, hbit], .inr (.inr ⟨idx, rfl, hbit⟩)⟩
    refine .inr ⟨idx, rfl, ?_⟩
    by_cases hbudget : testBudget < s.tests + 1
    · exact .inl ⟨hbudget, by simp [mark, hrunning, hindex, hbit, hbudget]⟩
    by_cases hcovers : Covers arith g radius (seg, i, j)
    · refine .inr (.inl ⟨hrunning, hcovers, ?_⟩)
      have hnear : pointSegDistance arith (g.center i j) seg.start seg.stop ≤ radius := hcovers
      simp [mark, hrunning, hindex, hbit, hbudget, hnear]
    · refine .inr (.inr ⟨hrunning, hcovers, ?_⟩)
      have hfar : ¬pointSegDistance arith (g.center i j) seg.start seg.stop ≤ radius := hcovers
      simp [mark, hrunning, hindex, hbit, hbudget, hfar]

theorem marked_mark (arith : Arithmetic K) (g : Grid K) (radius : K) (s : Marking)
    (v : XySegment K × ℤ × ℤ) : Marked arith g radius [v] s (mark arith g radius s v) := by
  rcases mark_cases arith g radius s v with ⟨hmark, hpassed⟩ | ⟨idx, hindex, htested⟩
  · rw [hmark]
    refine ⟨rfl, fun _ h => h, fun _ h => .inl h, ?_, fun h => h, le_rfl,
      Nat.le_add_right _ _, .inl⟩
    intro hstopped v' hv' c hc hindex _
    obtain rfl := List.mem_singleton.mp hv'
    rcases hpassed with hpassed | hpassed | ⟨idx, hidx, hbit⟩
    · rw [hstopped] at hpassed
      cases hpassed
    · rw [hpassed] at hindex
      cases hindex
    · rw [hidx] at hindex
      obtain rfl := Option.some.inj hindex
      exact hbit
  rcases htested with ⟨hbudget, hmark⟩ | ⟨hrunning, hcovers, hmark⟩ | ⟨hrunning, hcovers, hmark⟩
  · rw [hmark]
    exact ⟨rfl, fun _ h => h, fun _ h => .inl h, fun h => by simp at h, fun h => by simp at h,
      by simp, by simp, fun _ => .inr hbudget⟩
  · rw [hmark]
    have hset : ∀ c, entry (s.bits.set idx true) false c = true →
        entry s.bits false c = true ∨ c = idx := by
      intro c hc
      by_cases heq : c = idx
      · exact .inr heq
      · left
        rwa [entry, List.getD_eq_getElem?_getD, List.getElem?_set_ne (Ne.symm heq)] at hc
    have hidx : ∀ c < s.bits.length, c = idx → entry (s.bits.set idx true) false c = true := by
      rintro c hc rfl
      simp [entry, hc]
    refine ⟨by simp, ?_, ?_, ?_, fun _ => hrunning, by simp, by simp, ?_⟩
    · intro c hc
      by_cases heq : c = idx
      · have hlt : c < s.bits.length := by
          by_contra hge
          simp [entry, List.getElem?_eq_none (not_lt.mp hge)] at hc
        exact hidx c hlt heq
      · change entry (s.bits.set idx true) false c = true
        rwa [entry, List.getD_eq_getElem?_getD, List.getElem?_set_ne (Ne.symm heq),
          ← List.getD_eq_getElem?_getD]
    · intro c hc
      rcases hset c hc with hbit | rfl
      · exact .inl hbit
      · exact .inr ⟨v, List.mem_singleton_self v, hindex, hcovers⟩
    · intro _ v' hv' c hc hindex' _
      obtain rfl := List.mem_singleton.mp hv'
      rw [hindex] at hindex'
      exact hidx c hc (Option.some.inj hindex').symm
    · intro hstopped
      exact .inl hstopped
  · rw [hmark]
    refine ⟨rfl, fun _ h => h, fun _ h => .inl h, ?_, fun h => h, by simp, by simp, .inl⟩
    intro _ v' hv' c _ _ hcovers'
    obtain rfl := List.mem_singleton.mp hv'
    exact absurd hcovers' hcovers

theorem marked_foldl (arith : Arithmetic K) (g : Grid K) (radius : K)
    (vs : List (XySegment K × ℤ × ℤ)) (s : Marking) :
    Marked arith g radius vs s (vs.foldl (mark arith g radius) s) := by
  induction vs generalizing s with
  | nil => exact Marked.refl arith g radius s
  | cons v vs ih => exact (marked_mark arith g radius s v).trans (ih (mark arith g radius s v))

theorem marks_length (vs : List (XySegment K × ℤ × ℤ)) (cells tests : ℕ) :
    (vs.foldl (mark arith g radius) (Marking.empty cells tests)).bits.length = cells := by
  rw [(marked_foldl arith g radius vs _).length, Marking.empty, List.length_replicate]

end Marks

section Visits

variable {K : Type} [Field K] [LinearOrder K] [FloorRing K] {arith : Arithmetic K} {g : Grid K}
  {reach d : ℤ} {segments : List (XySegment K)} {v : XySegment K × ℤ × ℤ}

theorem mem_offsets : d ∈ offsets reach ↔ -reach ≤ d ∧ d ≤ reach := by
  unfold offsets
  rw [List.mem_map]
  constructor
  · rintro ⟨n, hn, rfl⟩
    rw [List.mem_range] at hn
    omega
  · rintro ⟨hlo, hhi⟩
    refine ⟨(d + reach).toNat, ?_, by omega⟩
    rw [List.mem_range]
    omega

theorem mem_visits : v ∈ visits arith g reach segments ↔ ∃ seg ∈ segments,
    ∃ p ∈ places arith seg g.cell, ∃ di dj, (-reach ≤ di ∧ di ≤ reach) ∧
      (-reach ≤ dj ∧ dj ≤ reach) ∧ v = (seg, (g.cellOf p).1 + di, (g.cellOf p).2 + dj) := by
  simp only [visits, List.mem_flatMap, List.mem_map, mem_offsets]
  constructor
  · rintro ⟨seg, hseg, p, hp, dj, hdj, di, hdi, rfl⟩
    exact ⟨seg, hseg, p, hp, di, dj, hdi, hdj, rfl⟩
  · rintro ⟨seg, hseg, p, hp, di, dj, hdi, hdj, rfl⟩
    exact ⟨seg, hseg, p, hp, dj, hdj, di, hdi, rfl⟩

theorem length_offsets (reach : ℤ) : (offsets reach).length = (2 * reach + 1).toNat := by
  simp [offsets]

theorem length_visits_le (g : Grid K) (reach : ℤ) {n : ℕ}
    (h : ∀ seg ∈ segments, (places arith seg g.cell).length ≤ n) :
    (visits arith g reach segments).length ≤
      segments.length * (n * ((2 * reach + 1).toNat * (2 * reach + 1).toNat)) := by
  induction segments with
  | nil => simp [visits]
  | cons seg segments ih =>
    have hrest := ih fun seg' hseg' => h seg' (List.mem_cons_of_mem _ hseg')
    have hfirst := Nat.mul_le_mul_right ((2 * reach + 1).toNat * (2 * reach + 1).toNat)
      (h seg List.mem_cons_self)
    have hsegment : ((places arith seg g.cell).flatMap fun p => (offsets reach).flatMap fun dj =>
        (offsets reach).map fun di =>
          (seg, (g.cellOf p).1 + di, (g.cellOf p).2 + dj)).length =
        (places arith seg g.cell).length * ((2 * reach + 1).toNat * (2 * reach + 1).toNat) := by
      simp only [List.length_flatMap, List.length_map, length_offsets, List.map_const',
        List.sum_replicate, smul_eq_mul]
    rw [visits, List.flatMap_cons, List.length_append, List.length_cons, Nat.succ_mul, hsegment,
      ← visits]
    omega

/-- The budget does not run out where there is less to go through. -/
theorem marks_not_stopped {radius : K} {vs : List (XySegment K × ℤ × ℤ)} {cells tests : ℕ}
    (h : tests + vs.length ≤ testBudget) :
    (vs.foldl (mark arith g radius) (Marking.empty cells tests)).stopped = false := by
  have hrun := marked_foldl arith g radius vs (Marking.empty cells tests)
  rw [Bool.eq_false_iff]
  intro hstopped
  rcases hrun.budget hstopped with hempty | hbudget
  · cases hempty
  · have htests := hrun.tests
    simp only [Marking.empty] at htests hbudget
    omega

theorem fill_not_stopped (g : Grid K) (halfWidth : K)
    (h : (visits arith g (reachOf halfWidth g.cell) segments).length ≤ testBudget) :
    (fill arith g segments halfWidth).stopped = false :=
  marks_not_stopped ((Nat.zero_add _).trans_le h)

theorem length_places_le {seg : XySegment K} {cell : K} {n : ℕ}
    (h : seg.length arith / cell ≤ n) : (places arith seg cell).length ≤ max n 1 + 1 := by
  have hceil : ⌈seg.length arith / cell⌉ ≤ (n : ℤ) := Int.ceil_le.mpr (by exact_mod_cast h)
  refine (List.length_filter_le _ _).trans ?_
  rw [List.length_map, List.length_range, toUsize]
  omega

theorem fst_mem_of_mem_visits (hv : v ∈ visits arith g reach segments) : v.1 ∈ segments := by
  obtain ⟨seg, hseg, p, -, di, dj, -, -, rfl⟩ := mem_visits.mp hv
  exact hseg

end Visits

section Complete

open Gcode (reals)

variable {seg : XySegment ℝ} {cell halfWidth t x : ℝ} {g : Grid ℝ} {p : Xy ℝ} {a b : ℕ}
  {segments : List (XySegment ℝ)}

/-- The places that are looked at leave no part of the segment out by more than half a cell. -/
theorem exists_place_near (hcell : 0 < cell) (hlength : seg.length reals ≤ (2 ^ 64 - 1) * cell)
    (ht : 0 ≤ t) (ht' : t ≤ 1) : ∃ p ∈ places reals seg cell,
      Plane.dist (Plane.lerp seg.start seg.stop t) p ≤ cell / 2 := by
  have hlength₀ : 0 ≤ seg.length reals := Plane.dist_nonneg _ _
  obtain ⟨steps, hsteps⟩ : ∃ steps, steps = max (toUsize ⌈seg.length reals / cell⌉) 1 := ⟨_, rfl⟩
  have hpos : (0 : ℝ) < steps := by
    rw [Nat.cast_pos, hsteps]
    omega
  -- The cast to a machine integer is exact here, so that the steps are at most a cell long.
  have hcover : seg.length reals ≤ steps * cell := by
    have hratio : seg.length reals / cell ≤ 2 ^ 64 - 1 := (div_le_iff₀ hcell).mpr hlength
    have hceil : ⌈seg.length reals / cell⌉ ≤ 2 ^ 64 - 1 := by
      rw [Int.ceil_le]
      push_cast
      linarith
    have hceil₀ : 0 ≤ ⌈seg.length reals / cell⌉ := Int.ceil_nonneg (div_nonneg hlength₀ hcell.le)
    have hle : ⌈seg.length reals / cell⌉ ≤ (steps : ℤ) := by
      rw [hsteps, toUsize]
      omega
    rw [← div_le_iff₀ hcell]
    exact (Int.le_ceil _).trans (by exact_mod_cast hle)
  obtain ⟨k, hk⟩ : ∃ k, k = ⌊t * steps + 1 / 2⌋₊ := ⟨_, rfl⟩
  have hk_le : (k : ℝ) ≤ t * steps + 1 / 2 := by
    rw [hk]
    exact Nat.floor_le (by positivity)
  have hlt_k : t * steps + 1 / 2 < k + 1 := by
    rw [hk]
    exact Nat.lt_floor_add_one _
  have hinside : k < steps + 1 := by
    have hle : t * steps ≤ 1 * steps := mul_le_mul_of_nonneg_right ht' hpos.le
    have hlt : (k : ℝ) < steps + 1 := by linarith
    exact_mod_cast hlt
  refine ⟨Plane.lerp seg.start seg.stop (k / steps), ?_, ?_⟩
  · rw [places, pointsAlong, List.mem_filter, ← hsteps]
    exact ⟨List.mem_map.mpr ⟨k, List.mem_range.mpr hinside, rfl⟩, rfl⟩
  · have hoffset : |(k : ℝ) / steps - t| * steps ≤ 1 / 2 := by
      rw [← abs_of_pos hpos, ← abs_mul, abs_of_pos hpos, sub_mul, div_mul_cancel₀ _ hpos.ne',
        abs_le]
      constructor <;> linarith
    rw [Plane.dist_lerp_lerp]
    calc |(k : ℝ) / steps - t| * seg.length reals
        ≤ |(k : ℝ) / steps - t| * (steps * cell) :=
          mul_le_mul_of_nonneg_left hcover (abs_nonneg _)
      _ = |(k : ℝ) / steps - t| * steps * cell := (mul_assoc _ _ _).symm
      _ ≤ 1 / 2 * cell := mul_le_mul_of_nonneg_right hoffset hcell.le
      _ = cell / 2 := by ring

end Complete

end DeadReckoning.Contact
