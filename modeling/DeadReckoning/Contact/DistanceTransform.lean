import DeadReckoning.Lib.Parabolas

/-! The squared distance to the nearest cell outside, by rows and then by columns. A result is
`none` where the code would fail: an index outside of an array, a hull that runs empty, a loop that
does not end. -/
namespace DeadReckoning.Contact

open Parabolas (Extended)

/-- Writes an entry that is there. -/
def setEntry {α : Type} (l : List α) (i : ℕ) (a : α) : Option (List α) :=
  if i < l.length then some (l.set i a) else none

section Line

variable {K : Type} [Field K] [LinearOrder K]

def intersection (f : List K) (p q : ℕ) : Option K := do
  let fp ← f[p]?
  let fq ← f[q]?
  pure (((fp + (p : K) * p) - (fq + (q : K) * q)) / (((2 : ℕ) : K) * p - ((2 : ℕ) : K) * q))

/-- Takes off the hull what the new parabola is below of; the first one is never taken off. -/
def popHull (source : List K) (index : ℕ) (hull : List ℕ) (bounds : List (Extended K)) :
    ℕ → K → Option (ℕ × K)
  | top, crossing => do
      let bound ← bounds[top]?
      if Extended.fin crossing ≤ bound then
        match top with
        | 0 => none
        | top + 1 =>
            let root ← hull[top]?
            popHull source index hull bounds top (← intersection source index root)
      else pure (top, crossing)

/-- The hull, its breakpoints and the index of its last parabola. -/
structure HullState (K : Type) where
  top : ℕ
  hull : List ℕ
  bounds : List (Extended K)

def pushParabola (source : List K) (s : HullState K) (index : ℕ) : Option (HullState K) := do
  let root ← s.hull[s.top]?
  let (top, crossing) ← popHull source index s.hull s.bounds s.top
    (← intersection source index root)
  let hull ← setEntry s.hull (top + 1) index
  let bounds ← setEntry s.bounds (top + 1) (Extended.fin crossing)
  pure ⟨top + 1, hull, ← setEntry bounds (top + 2) ⊤⟩

def lowerEnvelope (source : List K) (hull : List ℕ) (bounds : List (Extended K)) :
    Option (HullState K) := do
  let hull ← setEntry hull 0 0
  let bounds ← setEntry bounds 0 ⊥
  let bounds ← setEntry bounds 1 ⊤
  (List.range' 1 (source.length - 1)).foldlM (pushParabola source) ⟨0, hull, bounds⟩

/-- The parabola over a place, from the one over the place before. -/
def advance (bounds : List (Extended K)) (index : ℕ) : ℕ → ℕ → Option ℕ
  | 0, _ => none
  | fuel + 1, top => do
      let bound ← bounds[top + 1]?
      if bound < Extended.fin (index : K) then advance bounds index fuel (top + 1) else pure top

/-- The values of the envelope over the places, from left to right. -/
def readEnvelope (source : List K) (hull : List ℕ) (bounds : List (Extended K)) :
    List ℕ → ℕ → Option (List K)
  | [], _ => pure []
  | index :: rest, top => do
      let top ← advance bounds index bounds.length top
      let root ← hull[top]?
      let delta := (index : K) - (root : K)
      let value ← source[root]?
      pure ((delta * delta + value) :: (← readEnvelope source hull bounds rest top))

/-- The transform of one row or column, with the scratch as it is left. -/
def edt1d (source : List K) (hull : List ℕ) (bounds : List (Extended K)) :
    Option (List K × List ℕ × List (Extended K)) :=
  if source.length = 0 then some ([], hull, bounds)
  else do
    let s ← lowerEnvelope source hull bounds
    pure (← readEnvelope source s.hull s.bounds (List.range source.length) 0, s.hull, s.bounds)

/-- The first entries and the others. -/
def slice {α : Type} (l : List α) (n : ℕ) : Option (List α × List α) :=
  if n ≤ l.length then some (l.take n, l.drop n) else none

/-- The cells of the grid and the scratch of the transform. -/
structure FieldState (K : Type) where
  d : List K
  hull : List ℕ
  bounds : List (Extended K)

/-- Writes the values of a line, `place` being the cell of each. -/
def writeLine (place : ℕ → ℕ) : ℕ → List K → List K → Option (List K)
  | _, [], d => some d
  | k, value :: rest, d => do writeLine place (k + 1) rest (← setEntry d (place k) value)

/-- Writes the transform of a line over it. -/
def transformLine (place : ℕ → ℕ) (n : ℕ) (s : FieldState K) : Option (FieldState K) := do
  let src ← (List.range n).mapM fun k => s.d[place k]?
  let (hull, hull') ← slice s.hull n
  let (bounds, bounds') ← slice s.bounds (n + 1)
  let (dst, hull, bounds) ← edt1d src hull bounds
  pure ⟨← writeLine place 0 dst s.d, hull ++ hull', bounds ++ bounds'⟩

/-- Larger than the square of any distance on the grid. -/
def sentinel (K : Type) [Field K] (nx ny : ℕ) : K := ((nx * nx + ny * ny : ℕ) : K) + 1

/-- What the clearance field holds before the square root. -/
def squaredField (K : Type) [Field K] [LinearOrder K] (solid : List Bool) (nx ny : ℕ) :
    Option (List K) :=
  if nx = 0 ∨ ny = 0 then some []
  else do
    let s : FieldState K :=
      { d := solid.map fun cell => if cell then sentinel K nx ny else 0
        hull := List.replicate (max nx ny) 0
        bounds := List.replicate (max nx ny + 1) (Extended.fin 0) }
    let s ← (List.range ny).foldlM (fun s j => transformLine (fun i => j * nx + i) nx s) s
    let s ← (List.range nx).foldlM (fun s i => transformLine (fun j => j * nx + i) ny s) s
    pure s.d

/-- The clearance of every cell, `root` and `slack` being the square root and the cells that are
taken off every reading. -/
def clearanceField (root : K → K) (slack : K) (solid : List Bool) (nx ny : ℕ) (cell : K) :
    Option (List K) :=
  (squaredField K solid nx ny).map fun d =>
    d.map fun value => max (root value * cell - slack * cell) 0

end Line

section Entries

variable {α : Type}

/-- The entry at a place, the default past the end. -/
def entry (l : List α) (d : α) (i : ℕ) : α := l.getD i d

theorem getElem?_entry {l : List α} {i : ℕ} (h : i < l.length) (d : α) :
    l[i]? = some (entry l d i) := by
  simp [entry, h]

theorem entry_set {l : List α} {i : ℕ} (h : i < l.length) (d a : α) :
    entry (l.set i a) d = Function.update (entry l d) i a := by
  funext j
  by_cases hj : j = i
  · subst hj
    simp [entry, h]
  · rw [Function.update_of_ne hj]
    simp [entry, List.getElem?_set_ne (Ne.symm hj)]

theorem setEntry_of_lt {l : List α} {i : ℕ} (h : i < l.length) (a : α) :
    setEntry l i a = some (l.set i a) := if_pos h

end Entries

section Transform

variable {K : Type} [Field K] {source : List K}

theorem intersection_eq {p q : ℕ} (hp : p < source.length) (hq : q < source.length) :
    intersection source p q = some (Parabolas.crossing (entry source 0) p q) := by
  simp only [intersection, getElem?_entry hp 0, getElem?_entry hq 0]
  rfl

variable [LinearOrder K] {index top : ℕ} {hull : List ℕ} {bounds : List (Extended K)}

/-- The scratch is as long as the code slices it. -/
structure Fits (source : List K) (hull : List ℕ) (bounds : List (Extended K)) : Prop where
  hull : hull.length = source.length
  bounds : bounds.length = source.length + 1

/-- The hull over the first `m` values. -/
structure Built (source : List K) (m : ℕ) (s : HullState K) : Prop where
  fits : Fits source s.hull s.bounds
  inside : m ≤ source.length
  stack : Parabolas.Stack (entry source 0) m (entry s.hull 0) (entry s.bounds ⊥) s.top
  covers : Parabolas.Covers (entry source 0) m (entry s.hull 0) s.top
  last : entry s.bounds ⊥ (s.top + 1) = ⊤

/-- The breakpoints are read up to the parabola over the place, which is the lowest there. -/
theorem advance_eq_some {s : HullState K} (h : Built source source.length s) (fuel : ℕ)
    (hfuel : s.top < top + fuel) (htop : top ≤ s.top)
    (hlo : entry s.bounds ⊥ top ≤ Extended.fin (index : K)) :
    ∃ top', advance s.bounds index fuel top = some top' ∧ top' ≤ s.top ∧
      entry s.bounds ⊥ top' ≤ Extended.fin (index : K) ∧
      Extended.fin (index : K) ≤ entry s.bounds ⊥ (top' + 1) := by
  induction fuel generalizing top with
  | zero => omega
  | succ fuel ih =>
    have hplace : top + 1 < s.bounds.length := by
      have hlt := h.stack.top_lt
      rw [h.fits.bounds]
      omega
    rw [advance, getElem?_entry hplace ⊥]
    simp only [Option.bind_eq_bind, Option.bind_some]
    by_cases hlt : entry s.bounds ⊥ (top + 1) < Extended.fin (index : K)
    · have hne : top ≠ s.top := by
        rintro rfl
        rw [h.last] at hlt
        exact absurd hlt (not_lt_of_ge le_top)
      rw [if_pos hlt]
      exact ih (by omega) (by omega) hlt.le
    · exact ⟨top, by rw [if_neg hlt]; rfl, htop, hlo, not_lt.mp hlt⟩

/-- The least squared distance to a place, on top of the value there. -/
def IsTransform (source : List K) (index : ℕ) (v : K) : Prop :=
  IsLeast {u | ∃ (k : ℕ) (value : K), source[k]? = some value ∧
    u = ((index : K) - (k : K)) * ((index : K) - (k : K)) + value} v

theorem isTransform_of_lowest {root : ℕ} (hroot : root < source.length)
    (h : ∀ k < source.length, Parabolas.height (entry source 0) root (index : K) ≤
      Parabolas.height (entry source 0) k index) :
    IsTransform source index (Parabolas.height (entry source 0) root index) := by
  refine ⟨⟨root, _, getElem?_entry hroot 0, rfl⟩, ?_⟩
  rintro u ⟨k, value, hk, rfl⟩
  have hlt : k < source.length := (List.getElem?_eq_some_iff.mp hk).1
  obtain rfl : entry source 0 k = value := Option.some.inj ((getElem?_entry hlt 0).symm.trans hk)
  exact h k hlt

variable [IsStrictOrderedRing K]

/-- The hull does not run empty, and what stays on it is needed. -/
theorem popHull_eq_some (hfits : Fits source hull bounds) (hindex : index < source.length)
    (hstack : Parabolas.Stack (entry source 0) index (entry hull 0) (entry bounds ⊥) top)
    (hcovers : Parabolas.CoversWith (entry source 0) index (entry hull 0) top) :
    ∃ top', popHull source index hull bounds top
        (Parabolas.crossing (entry source 0) index (entry hull 0 top)) =
          some (top', Parabolas.crossing (entry source 0) index (entry hull 0 top')) ∧
      Parabolas.Stack (entry source 0) index (entry hull 0) (entry bounds ⊥) top' ∧
      Parabolas.CoversWith (entry source 0) index (entry hull 0) top' ∧
      entry bounds ⊥ top' <
        Extended.fin (Parabolas.crossing (entry source 0) index (entry hull 0 top')) := by
  have htop : top < bounds.length := by
    have hlt := hstack.top_lt
    have hlength := hfits.bounds
    omega
  induction top with
  | zero =>
    have hbelow := Parabolas.bot_lt_fin
      (Parabolas.crossing (entry source 0) index (entry hull 0 0))
    refine ⟨0, ?_, hstack, hcovers, by rwa [hstack.first]⟩
    rw [popHull, getElem?_entry htop ⊥, hstack.first]
    simp only [Option.bind_eq_bind, Option.bind_some, if_neg (not_le.mpr hbelow)]
    rfl
  | succ top ih =>
    rw [popHull, getElem?_entry htop ⊥]
    simp only [Option.bind_eq_bind, Option.bind_some]
    by_cases hle : Extended.fin (Parabolas.crossing (entry source 0) index
        (entry hull 0 (top + 1))) ≤ entry bounds ⊥ (top + 1)
    · have hpop := hstack.pop
      have hroot : top < hull.length := by
        have hlt := hpop.top_lt
        rw [hfits.hull]
        omega
      have hsource : entry hull 0 top < source.length := hpop.newest.trans hindex
      rw [if_pos hle, getElem?_entry hroot 0]
      simp only [Option.bind_some, intersection_eq hindex hsource]
      exact ih hpop (hcovers.pop hstack hle) (by omega)
    · exact ⟨top + 1, by rw [if_neg hle]; rfl, hstack, hcovers, not_le.mp hle⟩

theorem pushParabola_eq_some {s : HullState K} (h : Built source index s)
    (hindex : index < source.length) :
    ∃ s', pushParabola source s index = some s' ∧ Built source (index + 1) s' := by
  obtain ⟨top, hull, bounds⟩ := s
  obtain ⟨hfits, -, hstack, hcovers, -⟩ := h
  have hlt := hstack.top_lt
  have hhull := hfits.hull
  have hbounds := hfits.bounds
  dsimp only at hfits hstack hcovers hlt hhull hbounds
  obtain ⟨top', hpop, hstack', hcovers', hcross⟩ :=
    popHull_eq_some hfits hindex hstack hcovers.coversWith
  have hlt' := hstack'.top_lt
  have hroot : top < hull.length := by omega
  have hplace : top' + 1 < hull.length := by omega
  have hplace' : top' + 1 < bounds.length := by omega
  have hnext (b : Extended K) : top' + 2 < (bounds.set (top' + 1) b).length := by
    rw [List.length_set]
    omega
  have hsource : entry hull 0 top < source.length := hstack.newest.trans hindex
  have hpush : pushParabola source ⟨top, hull, bounds⟩ index =
      some ⟨top' + 1, hull.set (top' + 1) index,
        (bounds.set (top' + 1) (Extended.fin (Parabolas.crossing (entry source 0) index
          (entry hull 0 top')))).set (top' + 2) ⊤⟩ := by
    rw [pushParabola, getElem?_entry hroot 0]
    simp only [Option.bind_eq_bind, Option.bind_some, intersection_eq hindex hsource, hpop,
      setEntry_of_lt hplace, setEntry_of_lt hplace', setEntry_of_lt (hnext _)]
    rfl
  refine ⟨_, hpush, ⟨?_, ?_⟩, hindex, ?_, ?_, ?_⟩
  · rw [List.length_set, hhull]
  · rw [List.length_set, List.length_set, hbounds]
  · rw [entry_set hplace, entry_set (hnext _), entry_set hplace']
    exact hstack'.push hcross
  · rw [entry_set hplace]
    exact hcovers'.push
  · rw [entry_set (hnext _), Function.update_self]

theorem foldlM_pushParabola {m k : ℕ} {s : HullState K} (h : Built source m s)
    (hk : m + k ≤ source.length) :
    ∃ s', (List.range' m k).foldlM (pushParabola source) s = some s' ∧
      Built source (m + k) s' := by
  induction k generalizing m s with
  | zero => exact ⟨s, rfl, h⟩
  | succ k ih =>
    obtain ⟨s₁, hpush, hbuilt⟩ := pushParabola_eq_some h (by omega)
    obtain ⟨s', hrest, hbuilt'⟩ := ih hbuilt (by omega)
    refine ⟨s', ?_, by rwa [Nat.add_right_comm] at hbuilt'⟩
    rw [List.range'_succ, List.foldlM_cons, hpush]
    exact hrest

theorem lowerEnvelope_eq_some (hfits : Fits source hull bounds) (hpos : 0 < source.length) :
    ∃ s, lowerEnvelope source hull bounds = some s ∧ Built source source.length s := by
  have hhull := hfits.hull
  have hbounds := hfits.bounds
  have hzero : 0 < hull.length := by omega
  have hzero' : 0 < bounds.length := by omega
  have hone : 1 < (bounds.set 0 (⊥ : Extended K)).length := by
    rw [List.length_set]
    omega
  have hfirst : entry (hull.set 0 0) 0 0 = 0 := by rw [entry_set hzero, Function.update_self]
  have hbuilt : Built source 1 ⟨0, hull.set 0 0, (bounds.set 0 ⊥).set 1 ⊤⟩ := by
    refine ⟨⟨?_, ?_⟩, hpos, ?_, Parabolas.covers_one hfirst, ?_⟩
    · rw [List.length_set, hhull]
    · rw [List.length_set, List.length_set, hbounds]
    · refine Parabolas.stack_one hfirst ?_
      rw [entry_set hone, Function.update_of_ne (by omega), entry_set hzero', Function.update_self]
    · rw [entry_set hone, Function.update_self]
  obtain ⟨s, hrun, hs⟩ := foldlM_pushParabola hbuilt (k := source.length - 1) (by omega)
  refine ⟨s, ?_, by rwa [Nat.add_sub_cancel' hpos] at hs⟩
  unfold lowerEnvelope
  simp only [Option.bind_eq_bind, setEntry_of_lt hzero, setEntry_of_lt hzero', Option.bind_some,
    setEntry_of_lt hone]
  exact hrun

theorem readEnvelope_eq_some {s : HullState K} (h : Built source source.length s) {a k : ℕ}
    (htop : top ≤ s.top) (hlo : entry s.bounds ⊥ top ≤ Extended.fin (a : K)) :
    ∃ dest, readEnvelope source s.hull s.bounds (List.range' a k) top = some dest ∧
      dest.length = k ∧ ∀ i v, dest[i]? = some v → IsTransform source (a + i) v := by
  induction k generalizing a top with
  | zero => exact ⟨[], rfl, rfl, by simp⟩
  | succ k ih =>
    have hfuel : s.top < top + s.bounds.length := by
      have hlt := h.stack.top_lt
      rw [h.fits.bounds]
      omega
    obtain ⟨top', hadvance, htop', hlo', hhi⟩ := advance_eq_some h _ hfuel htop hlo
    have hroot := h.stack.root_lt htop'
    have hplace : top' < s.hull.length := by
      have hlt := h.stack.top_lt
      rw [h.fits.hull]
      omega
    have hnext : entry s.bounds ⊥ top' ≤ Extended.fin ((a + 1 : ℕ) : K) := by
      refine hlo'.trans (Parabolas.fin_le_fin.mpr ?_)
      push_cast
      exact le_add_of_nonneg_right zero_le_one
    obtain ⟨rest, hrest, hlength, hvalues⟩ := ih htop' hnext
    refine ⟨Parabolas.height (entry source 0) (entry s.hull 0 top') (a : K) :: rest, ?_, ?_, ?_⟩
    · rw [List.range'_succ, readEnvelope]
      simp only [Option.bind_eq_bind, hadvance, Option.bind_some, getElem?_entry hplace 0,
        getElem?_entry hroot 0, hrest]
      rfl
    · rw [List.length_cons, hlength]
    · intro i v hv
      cases i with
      | zero =>
        obtain rfl := Option.some.inj hv
        refine isTransform_of_lowest hroot fun k hk => ?_
        exact h.stack.lowest h.covers htop' hlo' (fun _ => hhi) hk
      | succ i =>
        have hvalue := hvalues i v hv
        rwa [Nat.add_right_comm] at hvalue

/-- The transform of a line is exact, whatever the scratch holds. -/
theorem edt1d_eq_some (hfits : Fits source hull bounds) :
    ∃ dest hull' bounds', edt1d source hull bounds = some (dest, hull', bounds') ∧
      Fits source hull' bounds' ∧ dest.length = source.length ∧
      ∀ i v, dest[i]? = some v → IsTransform source i v := by
  unfold edt1d
  by_cases hzero : source.length = 0
  · exact ⟨[], hull, bounds, if_pos hzero, hfits, hzero.symm, by simp⟩
  · obtain ⟨s, henvelope, hbuilt⟩ := lowerEnvelope_eq_some hfits (Nat.pos_of_ne_zero hzero)
    have hfirst : entry s.bounds ⊥ 0 ≤ Extended.fin ((0 : ℕ) : K) := by
      rw [hbuilt.stack.first]
      exact bot_le
    obtain ⟨dest, hread, hlength, hvalues⟩ :=
      readEnvelope_eq_some hbuilt (Nat.zero_le _) hfirst (k := source.length)
    refine ⟨dest, s.hull, s.bounds, ?_, hbuilt.fits, hlength, fun i v hv => ?_⟩
    · rw [if_neg hzero, henvelope, List.range_eq_range']
      simp only [Option.bind_eq_bind, Option.bind_some, hread]
      rfl
    · have hvalue := hvalues i v hv
      rwa [Nat.zero_add] at hvalue

end Transform

section Grid

variable {K : Type} [Field K]

theorem mapM_eq_some {α β : Type} {f : α → Option β} {g : α → β} {l : List α}
    (h : ∀ a ∈ l, f a = some (g a)) : l.mapM f = some (l.map g) := by
  induction l with
  | nil => rfl
  | cons a rest ih =>
    rw [List.forall_mem_cons] at h
    rw [List.mapM_cons, h.1, ih h.2]
    rfl

/-- The values of a line. -/
def lineOf (d : List K) (place : ℕ → ℕ) (n : ℕ) : List K :=
  (List.range n).map fun k => entry d 0 (place k)

/-- The line is in the grid, and its cells are different ones. -/
structure IsLine (place : ℕ → ℕ) (n cells : ℕ) : Prop where
  inside : ∀ k < n, place k < cells
  injective : ∀ k < n, ∀ k' < n, place k = place k' → k = k'

theorem writeLine_eq_some {place : ℕ → ℕ} {n k : ℕ} {values d : List K}
    (h : IsLine place n d.length) (hk : k + values.length ≤ n) :
    ∃ d', writeLine place k values d = some d' ∧ d'.length = d.length ∧
      (∀ i v, values[i]? = some v → entry d' 0 (place (k + i)) = v) ∧
      ∀ c, (∀ i, i < values.length → place (k + i) ≠ c) → entry d' 0 c = entry d 0 c := by
  induction values generalizing k d with
  | nil => exact ⟨d, rfl, rfl, by simp, fun _ _ => rfl⟩
  | cons value rest ih =>
    rw [List.length_cons] at hk
    have hplace := h.inside k (by omega)
    have hline : IsLine place n (d.set (place k) value).length := by rwa [List.length_set]
    obtain ⟨d', hwrite, hlength, hvalues, hothers⟩ := ih hline (by omega : k + 1 + rest.length ≤ n)
    refine ⟨d', ?_, hlength.trans List.length_set, ?_, ?_⟩
    · rw [writeLine, setEntry_of_lt hplace]
      exact hwrite
    · intro i v hv
      cases i with
      | zero =>
        obtain rfl := Option.some.inj hv
        rw [Nat.add_zero, hothers, entry_set hplace, Function.update_self]
        intro i hi heq
        have hsame := h.injective _ (by omega) _ (by omega) heq
        omega
      | succ i =>
        have hvalue := hvalues i v hv
        rwa [Nat.add_right_comm] at hvalue
    · intro c hc
      have hne : c ≠ place k := fun heq => hc 0 (by simp) (by rw [Nat.add_zero, heq])
      rw [hothers c, entry_set hplace, Function.update_of_ne hne]
      intro i hi
      have hnext := hc (i + 1) (by simpa using hi)
      rwa [Nat.add_right_comm, Nat.add_assoc]

variable [LinearOrder K]

theorem slice_eq_some {α : Type} {l : List α} {n : ℕ} (h : n ≤ l.length) :
    slice l n = some (l.take n, l.drop n) := if_pos h

/-- The scratch of the transform suffices for lines of this length. -/
structure Scratch (longest : ℕ) (s : FieldState K) : Prop where
  hull : s.hull.length = longest
  bounds : s.bounds.length = longest + 1

theorem isTransform_lineOf {place : ℕ → ℕ} {n k : ℕ} {d : List K} {v : K}
    (h : IsTransform (lineOf d place n) k v) :
    (∃ k' < n, v = ((k : K) - (k' : K)) * ((k : K) - (k' : K)) + entry d 0 (place k')) ∧
      ∀ k' < n, v ≤ ((k : K) - (k' : K)) * ((k : K) - (k' : K)) + entry d 0 (place k') := by
  have hget : ∀ k' value, (lineOf d place n)[k']? = some value ↔
      k' < n ∧ entry d 0 (place k') = value := by
    intro k' value
    simp only [lineOf, List.getElem?_map, Option.map_eq_some_iff]
    constructor
    · rintro ⟨a, ha, rfl⟩
      obtain ⟨hlt, rfl⟩ := List.getElem?_eq_some_iff.mp ha
      rw [List.length_range] at hlt
      exact ⟨hlt, by rw [List.getElem_range]⟩
    · rintro ⟨hlt, rfl⟩
      exact ⟨k', List.getElem?_range hlt, rfl⟩
  obtain ⟨⟨k', value, hk', hv⟩, hleast⟩ := h
  obtain ⟨hlt, rfl⟩ := (hget k' value).mp hk'
  exact ⟨⟨k', hlt, hv⟩, fun k' hk' => hleast ⟨k', _, (hget k' _).mpr ⟨hk', rfl⟩, rfl⟩⟩

variable [IsStrictOrderedRing K] {place : ℕ → ℕ} {n longest : ℕ} {s : FieldState K}

/-- A line is written over by its transform, the other cells stay. -/
theorem transformLine_eq_some (hline : IsLine place n s.d.length) (hscratch : Scratch longest s)
    (hn : n ≤ longest) :
    ∃ s', transformLine place n s = some s' ∧ Scratch longest s' ∧ s'.d.length = s.d.length ∧
      (∀ k < n, IsTransform (lineOf s.d place n) k (entry s'.d 0 (place k))) ∧
      ∀ c, (∀ k < n, place k ≠ c) → entry s'.d 0 c = entry s.d 0 c := by
  have hread : (List.range n).mapM (fun k => s.d[place k]?) = some (lineOf s.d place n) :=
    mapM_eq_some fun k hk => getElem?_entry (hline.inside k (List.mem_range.mp hk)) 0
  have hsrc : (lineOf s.d place n).length = n := by simp [lineOf]
  have hhull : n ≤ s.hull.length := by
    rw [hscratch.hull]
    exact hn
  have hbounds : n + 1 ≤ s.bounds.length := by
    rw [hscratch.bounds]
    omega
  have hfits : Fits (lineOf s.d place n) (s.hull.take n) (s.bounds.take (n + 1)) :=
    ⟨by rw [hsrc, List.length_take_of_le hhull], by rw [hsrc, List.length_take_of_le hbounds]⟩
  obtain ⟨dst, hull', bounds', hedt, hfits', hlength, hvalues⟩ := edt1d_eq_some hfits
  rw [hsrc] at hlength
  have hwhole : 0 + dst.length ≤ n := by omega
  obtain ⟨d', hwrite, hlength', hwritten, hothers⟩ := writeLine_eq_some hline hwhole
  refine ⟨⟨d', hull' ++ s.hull.drop n, bounds' ++ s.bounds.drop (n + 1)⟩, ?_, ⟨?_, ?_⟩, hlength',
    ?_, ?_⟩
  · unfold transformLine
    simp only [Option.bind_eq_bind, hread, Option.bind_some, slice_eq_some hhull,
      slice_eq_some hbounds, hedt, hwrite]
    rfl
  · rw [List.length_append, hfits'.hull, hsrc, List.length_drop, hscratch.hull]
    omega
  · rw [List.length_append, hfits'.bounds, hsrc, List.length_drop, hscratch.bounds]
    omega
  · intro k hk
    have hvalue := getElem?_entry (hlength.symm ▸ hk : k < dst.length) 0
    have hplace := hwritten k _ hvalue
    rw [Nat.zero_add] at hplace
    rw [hplace]
    exact hvalues k _ hvalue
  · intro c hc
    refine hothers c fun i hi => ?_
    rw [Nat.zero_add]
    exact hc i (hlength ▸ hi)

/-- The lines of a direction: they are in the grid, and no two cells are one. -/
structure AreLines (place : ℕ → ℕ → ℕ) (lines n cells : ℕ) : Prop where
  inside : ∀ l < lines, ∀ k < n, place l k < cells
  injective : ∀ l < lines, ∀ k < n, ∀ l' < lines, ∀ k' < n, place l k = place l' k' →
    l = l' ∧ k = k'

/-- A pass along one direction writes every line over by its transform. -/
theorem pass_eq_some {place : ℕ → ℕ → ℕ} {lines : ℕ} (h : AreLines place lines n s.d.length)
    (hscratch : Scratch longest s) (hn : n ≤ longest) :
    ∃ s', (List.range lines).foldlM (fun s l => transformLine (place l) n s) s = some s' ∧
      Scratch longest s' ∧ s'.d.length = s.d.length ∧
      (∀ l < lines, ∀ k < n, IsTransform (lineOf s.d (place l) n) k (entry s'.d 0 (place l k))) ∧
      ∀ c, (∀ l < lines, ∀ k < n, place l k ≠ c) → entry s'.d 0 c = entry s.d 0 c := by
  induction lines with
  | zero => exact ⟨s, rfl, hscratch, rfl, fun _ hl => absurd hl (Nat.not_lt_zero _), fun _ _ => rfl⟩
  | succ lines ih =>
    obtain ⟨s₁, hrun, hscratch₁, hlength₁, hvalues₁, hothers₁⟩ := ih
      ⟨fun l hl => h.inside l (by omega),
        fun l hl k hk l' hl' => h.injective l (by omega) k hk l' (by omega)⟩
    have hline : IsLine (place lines) n s₁.d.length := by
      rw [hlength₁]
      exact ⟨h.inside lines (by omega), fun k hk k' hk' heq =>
        (h.injective lines (by omega) k hk lines (by omega) k' hk' heq).2⟩
    obtain ⟨s', hstep, hscratch', hlength', hvalues', hothers'⟩ :=
      transformLine_eq_some hline hscratch₁ hn
    have hfresh : lineOf s₁.d (place lines) n = lineOf s.d (place lines) n := by
      refine List.map_congr_left fun k hk => hothers₁ _ fun l hl k' hk' heq => ?_
      have hsame := (h.injective l (by omega) k' hk' lines (by omega) k
        (List.mem_range.mp hk) heq).1
      omega
    refine ⟨s', ?_, hscratch', hlength'.trans hlength₁, ?_, ?_⟩
    · rw [List.range_succ, List.foldlM_append, hrun]
      simp only [Option.bind_eq_bind, Option.bind_some, List.foldlM_cons, hstep, List.foldlM_nil]
      rfl
    · intro l hl k hk
      rcases Nat.lt_succ_iff_lt_or_eq.mp hl with hlt | rfl
      · rw [hothers']
        · exact hvalues₁ l hlt k hk
        · intro k' hk' heq
          have hsame := (h.injective lines (by omega) k' hk' l hl k hk heq).1
          omega
      · rw [← hfresh]
        exact hvalues' k hk
    · intro c hc
      rw [hothers' c (hc lines (by omega)), hothers₁ c fun l hl => hc l (by omega)]

end Grid

section Field

variable {K : Type} [Field K] [LinearOrder K] [IsStrictOrderedRing K] {nx ny : ℕ}

theorem cell_lt {i j : ℕ} (hi : i < nx) (hj : j < ny) : j * nx + i < nx * ny := by
  have hrow : (j + 1) * nx ≤ ny * nx := Nat.mul_le_mul_right nx hj
  rw [Nat.succ_mul, Nat.mul_comm ny] at hrow
  omega

theorem cell_injective {i j i' j' : ℕ} (hi : i < nx) (hi' : i' < nx)
    (h : j * nx + i = j' * nx + i') : i = i' ∧ j = j' := by
  obtain rfl : i = i' := by
    have hmod := congrArg (· % nx) h
    rwa [Nat.mul_comm j, Nat.mul_comm j', Nat.mul_add_mod, Nat.mul_add_mod, Nat.mod_eq_of_lt hi,
      Nat.mod_eq_of_lt hi'] at hmod
  exact ⟨rfl, Nat.eq_of_mul_eq_mul_right (by omega) (Nat.add_right_cancel h)⟩

theorem areLines_rows : AreLines (fun j i => j * nx + i) ny nx (nx * ny) where
  inside _ hj _ hi := cell_lt hi hj
  injective _ _ _ hi _ _ _ hi' heq := (cell_injective hi hi' heq).symm

theorem areLines_columns : AreLines (fun i j => j * nx + i) nx ny (nx * ny) where
  inside _ hi _ hj := cell_lt hi hj
  injective _ hi _ _ _ hi' _ _ heq := cell_injective hi hi' heq

/-- The square of the distance of two cells. -/
def cellDistanceSq (K : Type) [Field K] (i j i' j' : ℕ) : K :=
  ((i : K) - (i' : K)) * ((i : K) - (i' : K)) + ((j : K) - (j' : K)) * ((j : K) - (j' : K))

theorem squaredField_eq_some {solid : List Bool} (hx : 1 ≤ nx) (hy : 1 ≤ ny)
    (hlength : solid.length = nx * ny) :
    ∃ d, squaredField K solid nx ny = some d ∧ d.length = nx * ny ∧ ∀ i < nx, ∀ j < ny,
      (∃ i' < nx, ∃ j' < ny, entry d 0 (j * nx + i) = cellDistanceSq K i j i' j' +
        if entry solid false (j' * nx + i') then sentinel K nx ny else 0) ∧
      ∀ i' < nx, ∀ j' < ny, entry d 0 (j * nx + i) ≤ cellDistanceSq K i j i' j' +
        if entry solid false (j' * nx + i') then sentinel K nx ny else 0 := by
  have hstart : ∀ i < nx, ∀ j < ny,
      entry (solid.map fun cell => if cell then sentinel K nx ny else 0) 0 (j * nx + i) =
        if entry solid false (j * nx + i) then sentinel K nx ny else 0 := by
    intro i hi j hj
    have hcell : j * nx + i < solid.length := hlength ▸ cell_lt hi hj
    simp [entry, hcell]
  let s : FieldState K :=
    { d := solid.map fun cell => if cell then sentinel K nx ny else 0
      hull := List.replicate (max nx ny) 0
      bounds := List.replicate (max nx ny + 1) (Extended.fin 0) }
  have hcells : s.d.length = nx * ny := by simp [s, hlength]
  have hscratch : Scratch (max nx ny) s := ⟨by simp [s], by simp [s]⟩
  have hrows : AreLines (fun j i => j * nx + i) ny nx s.d.length := hcells ▸ areLines_rows
  obtain ⟨s₁, hrun₁, hscratch₁, hlength₁, hvalues₁, -⟩ :=
    pass_eq_some hrows hscratch (le_max_left _ _)
  have hcolumns : AreLines (fun i j => j * nx + i) nx ny s₁.d.length := by
    rw [hlength₁, hcells]
    exact areLines_columns
  obtain ⟨s₂, hrun₂, -, hlength₂, hvalues₂, -⟩ :=
    pass_eq_some hcolumns hscratch₁ (le_max_right _ _)
  refine ⟨s₂.d, ?_, by rw [hlength₂, hlength₁, hcells], fun i hi j hj => ?_⟩
  · unfold squaredField
    rw [if_neg (by omega)]
    simp only [Option.bind_eq_bind]
    rw [hrun₁, Option.bind_some, hrun₂]
    rfl
  · obtain ⟨⟨j', hj', hattained⟩, hleast⟩ := isTransform_lineOf (hvalues₂ i hi j hj)
    constructor
    · obtain ⟨⟨i', hi', hrow⟩, -⟩ := isTransform_lineOf (hvalues₁ j' hj' i hi)
      refine ⟨i', hi', j', hj', ?_⟩
      rw [hattained, hrow, hstart i' hi' j' hj', cellDistanceSq]
      ring
    · intro i' hi' j' hj'
      obtain ⟨-, hrow⟩ := isTransform_lineOf (hvalues₁ j' hj' i hi)
      have hle := hrow i' hi'
      rw [hstart i' hi' j' hj'] at hle
      refine (hleast j' hj').trans ?_
      rw [cellDistanceSq]
      linarith

/-- No distance on the grid reaches the sentinel. -/
theorem cellDistanceSq_lt_sentinel {i j i' j' : ℕ} (hi : i < nx) (hj : j < ny) (hi' : i' < nx)
    (hj' : j' < ny) : cellDistanceSq K i j i' j' < sentinel K nx ny := by
  have hsquare {a b n : ℕ} (ha : a < n) (hb : b < n) :
      ((a : K) - (b : K)) * ((a : K) - (b : K)) ≤ (n : K) * n := by
    have ha' : (a : K) ≤ n := Nat.cast_le.mpr ha.le
    have hb' : (b : K) ≤ n := Nat.cast_le.mpr hb.le
    have ha₀ : (0 : K) ≤ a := Nat.cast_nonneg a
    have hb₀ : (0 : K) ≤ b := Nat.cast_nonneg b
    have hfactors := mul_nonneg (by linarith : (0 : K) ≤ n - (a - b))
      (by linarith : (0 : K) ≤ n + (a - b))
    linarith
  have hx := hsquare hi hi'
  have hy := hsquare hj hj'
  rw [cellDistanceSq, sentinel]
  push_cast
  linarith

/-- The field holds the least squared distance to a cell outside, and does not fail. -/
theorem squaredField_isLeast {solid : List Bool} (hx : 1 ≤ nx) (hy : 1 ≤ ny)
    (hlength : solid.length = nx * ny) (hbackground : false ∈ solid) :
    ∃ d, squaredField K solid nx ny = some d ∧ d.length = nx * ny ∧ ∀ i < nx, ∀ j < ny,
      ∃ v, d[j * nx + i]? = some v ∧ v < sentinel K nx ny ∧
        IsLeast {u | ∃ i' < nx, ∃ j' < ny, solid[j' * nx + i']? = some false ∧
          u = cellDistanceSq K i j i' j'} v := by
  obtain ⟨d, hfield, hcells, hvalues⟩ := squaredField_eq_some (K := K) hx hy hlength
  obtain ⟨cell, hcell⟩ := List.mem_iff_getElem?.mp hbackground
  have hlt : cell < nx * ny := hlength ▸ (List.getElem?_eq_some_iff.mp hcell).1
  refine ⟨d, hfield, hcells, fun i hi j hj => ?_⟩
  obtain ⟨⟨i', hi', j', hj', hattained⟩, hleast⟩ := hvalues i hi j hj
  have houtside {a b : ℕ} (hab : solid[b * nx + a]? = some false) :
      entry solid false (b * nx + a) = false := by
    simp [entry, hab]
  -- Some cell is outside, and no distance to it reaches the sentinel.
  have hbelow : entry d 0 (j * nx + i) < sentinel K nx ny := by
    have hcolumn : cell % nx < nx := Nat.mod_lt _ hx
    have hrow : cell / nx < ny := Nat.div_lt_of_lt_mul hlt
    have hsplit : cell / nx * nx + cell % nx = cell := Nat.div_add_mod' cell nx
    have hle := hleast _ hcolumn _ hrow
    rw [houtside (hsplit.symm ▸ hcell)] at hle
    have hfar := cellDistanceSq_lt_sentinel (K := K) hi hj hcolumn hrow
    simp only [Bool.false_eq_true, if_false, add_zero] at hle
    exact hle.trans_lt hfar
  have hnearest : entry solid false (j' * nx + i') = false := by
    by_contra hsolid
    rw [if_pos (Bool.not_eq_false _ ▸ hsolid)] at hattained
    have hnonneg : (0 : K) ≤ cellDistanceSq K i j i' j' :=
      add_nonneg (mul_self_nonneg _) (mul_self_nonneg _)
    rw [hattained] at hbelow
    linarith
  have hinside : j' * nx + i' < solid.length := hlength ▸ cell_lt hi' hj'
  refine ⟨_, getElem?_entry (hcells ▸ cell_lt hi hj) 0, hbelow, ⟨i', hi', j', hj', ?_, ?_⟩, ?_⟩
  · rw [getElem?_entry hinside false, hnearest]
  · rw [hattained, hnearest]
    simp
  · rintro u ⟨a, ha, b, hb, hab, rfl⟩
    have hle := hleast a ha b hb
    rw [houtside hab] at hle
    simpa using hle

/-- The transform of a line is the least over its values, and the one of the grid the least over the
cells outside; neither fails, whatever the scratch holds. -/
theorem distance_transform_exact (nx ny : ℕ) (hx : 1 ≤ nx) (hy : 1 ≤ ny) (solid : List Bool)
    (hlength : solid.length = nx * ny) (hbackground : false ∈ solid) :
    (∀ (source : List K) (hull : List ℕ) (bounds : List (Extended K)),
      hull.length = source.length → bounds.length = source.length + 1 →
      ∃ dest hull' bounds', edt1d source hull bounds = some (dest, hull', bounds') ∧
        dest.length = source.length ∧ ∀ i < source.length, ∃ v, dest[i]? = some v ∧
          IsLeast {u | ∃ (k : ℕ) (value : K), source[k]? = some value ∧
            u = ((i : K) - (k : K)) * ((i : K) - (k : K)) + value} v) ∧
    ∃ d, squaredField K solid nx ny = some d ∧ d.length = nx * ny ∧ ∀ i < nx, ∀ j < ny,
      ∃ v, d[j * nx + i]? = some v ∧ v < sentinel K nx ny ∧
        IsLeast {u | ∃ i' < nx, ∃ j' < ny, solid[j' * nx + i']? = some false ∧
          u = cellDistanceSq K i j i' j'} v := by
  refine ⟨?_, squaredField_isLeast hx hy hlength hbackground⟩
  intro source hull bounds hhull hbounds
  obtain ⟨dest, hull', bounds', hedt, -, hdest, hvalues⟩ := edt1d_eq_some ⟨hhull, hbounds⟩
  refine ⟨dest, hull', bounds', hedt, hdest, fun i hi => ?_⟩
  have hvalue := getElem?_entry (hdest.symm ▸ hi : i < dest.length) 0
  exact ⟨_, hvalue, hvalues i _ hvalue⟩

/-- Three cells by two, of which the first of the second row is outside. -/
theorem distance_transform_exact_corner :
    ∃ d, squaredField ℚ [true, true, true, false, true, true] 3 2 = some d ∧
      ∃ v, d[2]? = some v ∧ v < sentinel ℚ 3 2 := by
  obtain ⟨-, d, hfield, -, hvalues⟩ := distance_transform_exact (K := ℚ) 3 2 (by decide) (by decide)
    [true, true, true, false, true, true] (by decide) (by decide)
  obtain ⟨v, hv, hbelow, -⟩ := hvalues 2 (by decide) 0 (by decide)
  exact ⟨d, hfield, v, hv, hbelow⟩

example : squaredField ℚ [true, true, true, false, true, true] 3 2 = some [1, 2, 5, 0, 1, 4] := by
  decide +kernel

end Field

end DeadReckoning.Contact
