import DeadReckoning.Analyzer.Preview

/-! What the stops of a preview are: the depositions that can be accepted, one after the other, and
where the print goes on behind each of them. -/
namespace DeadReckoning.Analyzer
open Recovery (MoveKind)

section Selection

variable (model : LayerModel) (evidence : StopEvidence) (exclusions : Option ExclusionOracle)

/-- A deposition in the window at a trusted position that is not cancelled, and behind which the
next one that is kept is at a trusted position too, if there is one. -/
def selectable (m : SimMove) : Bool :=
  m.kind = .extrusion && inWindow m evidence.window && m.startPositionKnown &&
    !isExcludedMove exclusions m &&
    (firstKeptDepositionAtOrAfter model exclusions m.span.stop).all (·.startPositionKnown)

/-- Where the next deposition that is kept begins, the end of the line when there is none. -/
def nextLine (m : SimMove) : ℕ :=
  ((firstKeptDepositionAtOrAfter model exclusions m.span.stop).map (·.span.start)).getD m.span.stop

variable {model evidence exclusions}

theorem resumeAfter_eq (m : SimMove) : resumeAfter model exclusions m =
    if (firstKeptDepositionAtOrAfter model exclusions m.span.stop).all (·.startPositionKnown) then
      some (nextLine model exclusions m)
    else none := by
  unfold resumeAfter nextLine
  cases firstKeptDepositionAtOrAfter model exclusions m.span.stop with
  | none => simp
  | some next => simp

/-- The moves that become stops, each with the number of stops before it. -/
theorem foldl_addStop (lines : List ℕ) (moves : List SimMove) (stops : List PreviewStop) :
    moves.foldl (addStop model exclusions lines) stops =
      stops ++ (moves.filter fun m => m.startPositionKnown && !isExcludedMove exclusions m &&
        (firstKeptDepositionAtOrAfter model exclusions m.span.stop).all
          (·.startPositionKnown)).mapIdx fun i m =>
            stopOf model lines (stops.length + i) m (nextLine model exclusions m) := by
  induction moves generalizing stops with
  | nil => simp
  | cons m moves ih =>
    rw [List.foldl_cons, ih, addStop, resumeAfter_eq]
    by_cases hknown : m.startPositionKnown = true
    · by_cases hexcluded : isExcludedMove exclusions m = true
      · simp [hknown, hexcluded]
      · by_cases hnext : (firstKeptDepositionAtOrAfter model exclusions m.span.stop).all
            (·.startPositionKnown) = true
        · have hadd (i : ℕ) : stops.length + 1 + i = stops.length + (i + 1) := by omega
          simp [hknown, hexcluded, hnext, List.mapIdx_cons, hadd]
        · simp [hknown, hexcluded, hnext]
    · simp [hknown]

theorem buildStops_eq (lines : List ℕ) : buildStops model exclusions (rawDomain model evidence) lines =
    (model.moves.filter (selectable model evidence exclusions)).mapIdx fun i m =>
      stopOf model lines i m (nextLine model exclusions m) := by
  rw [buildStops, foldl_addStop, rawDomain, List.filter_filter, List.nil_append]
  simp only [List.length_nil, Nat.zero_add]
  congr 1
  refine List.filter_congr fun m _ => ?_
  unfold selectable
  generalize (firstKeptDepositionAtOrAfter model exclusions m.span.stop).all
    (·.startPositionKnown) = next
  cases decide (m.kind = .extrusion) <;> cases inWindow m evidence.window <;>
    cases m.startPositionKnown <;> cases isExcludedMove exclusions m <;> cases next <;> rfl

end Selection

section Order

variable {model : LayerModel} {exclusions : Option ExclusionOracle}

theorem firstKept_some {offset : ℕ} {m : SimMove}
    (h : firstKeptDepositionAtOrAfter model exclusions offset = some m) :
    m ∈ model.moves ∧ m.kind = .extrusion ∧ offset ≤ m.span.start ∧
      isExcludedMove exclusions m = false := by
  have hfind := List.find?_some h
  simp only [Bool.and_eq_true, decide_eq_true_eq, Bool.not_eq_true'] at hfind
  exact ⟨List.mem_of_find?_eq_some h, hfind.1.1, hfind.1.2, hfind.2⟩

/-- In the order of the file the first deposition that is found is the one that begins first. -/
theorem firstKept_le (horder : model.InFileOrder) {offset : ℕ} {b : SimMove} (hb : b ∈ model.moves)
    (hkind : b.kind = .extrusion) (hoffset : offset ≤ b.span.start)
    (hkept : isExcludedMove exclusions b = false) :
    ∃ d, firstKeptDepositionAtOrAfter model exclusions offset = some d ∧
      d.span.start ≤ b.span.start := by
  cases hfind : firstKeptDepositionAtOrAfter model exclusions offset with
  | none =>
    have hno := List.find?_eq_none.mp hfind b hb
    simp [hkind, hoffset, hkept] at hno
  | some d =>
    refine ⟨d, rfl, ?_⟩
    obtain ⟨-, before, after, hsplit, hbefore⟩ := List.find?_eq_some_iff_append.mp hfind
    rw [hsplit] at hb
    rcases List.mem_append.mp hb with hb | hb
    · have hno := hbefore b hb
      simp [hkind, hoffset, hkept] at hno
    · have hordered := horder.ordered
      rw [hsplit] at hordered
      have hd : d ∈ model.moves := List.mem_of_find?_eq_some hfind
      rcases List.mem_cons.mp hb with rfl | hb
      · exact le_rfl
      · rcases (List.pairwise_cons.mp (List.pairwise_append.mp hordered).2.1).1 b hb with heq | hlt
        · rw [heq]
        · exact (horder.forward d hd).trans hlt

theorem stop_le_nextLine (m : SimMove) : m.span.stop ≤ nextLine model exclusions m := by
  unfold nextLine
  cases h : firstKeptDepositionAtOrAfter model exclusions m.span.stop with
  | none => exact le_rfl
  | some d => exact (firstKept_some h).2.2.1

/-- The print goes on at a later deposition or before it. -/
theorem nextLine_le (horder : model.InFileOrder) {a b : SimMove} (hb : b ∈ model.moves)
    (hkind : b.kind = .extrusion) (hkept : isExcludedMove exclusions b = false)
    (hlater : a.span.stop ≤ b.span.start) : nextLine model exclusions a ≤ b.span.start := by
  obtain ⟨d, hd, hle⟩ := firstKept_le horder hb hkind hlater hkept
  rw [nextLine, hd]
  exact hle

/-- Of two moves that begin at different places the one that begins first has ended by then. -/
theorem LayerModel.InFileOrder.stop_le (horder : model.InFileOrder) {a b : SimMove}
    (ha : a ∈ model.moves) (hb : b ∈ model.moves) (hlt : a.span.start < b.span.start) :
    a.span.stop ≤ b.span.start := by
  have hrefl : ∀ m ∈ model.moves, m.span.start < m.span.start → m.span.stop ≤ m.span.start :=
    fun m _ hm => absurd hm (lt_irrefl _)
  refine List.Pairwise.forall_of_forall_of_flip
    hrefl (?_ : model.moves.Pairwise
      fun a b : SimMove => a.span.start < b.span.start → a.span.stop ≤ b.span.start) ?_ ha hb hlt
  · refine horder.ordered.imp fun {c d} hcd hstart => ?_
    rcases hcd with heq | hle
    · exact absurd hstart (by rw [heq]; exact lt_irrefl _)
    · exact hle
  · refine horder.ordered.imp_of_mem fun {c d} hc _ hcd hstart => ?_
    have hforward := horder.forward c hc
    rcases hcd with heq | hle
    · exact absurd hstart (by rw [heq]; exact lt_irrefl _)
    · omega

variable {evidence : StopEvidence}

theorem selectable_spec {m : SimMove} (h : selectable model evidence exclusions m = true) :
    m.kind = .extrusion ∧ m.startPositionKnown = true ∧ isExcludedMove exclusions m = false := by
  simp only [selectable, Bool.and_eq_true, decide_eq_true_eq, Bool.not_eq_true'] at h
  exact ⟨h.1.1.1.1, h.1.1.2, h.1.2⟩

/-- The stops come in the order of the file, and the print goes on in that order behind them. -/
theorem selectable_ordered (horder : model.InFileOrder) :
    (model.moves.filter (selectable model evidence exclusions)).Pairwise fun a b =>
      a.span.start ≤ b.span.start ∧
        nextLine model exclusions a ≤ nextLine model exclusions b := by
  refine (horder.ordered.filter _).imp_of_mem fun {a b} ha hb hab => ?_
  obtain ⟨ha, -⟩ := List.mem_filter.mp ha
  obtain ⟨hb, hselectable⟩ := List.mem_filter.mp hb
  obtain ⟨hkind, -, hkept⟩ := selectable_spec hselectable
  rcases hab with heq | hle
  · rw [nextLine, nextLine, heq]
    exact ⟨le_rfl, le_rfl⟩
  · exact ⟨(horder.forward a ha).trans hle, (nextLine_le horder hb hkind hkept hle).trans
      ((horder.forward b hb).trans (stop_le_nextLine b))⟩

end Order

end DeadReckoning.Analyzer
