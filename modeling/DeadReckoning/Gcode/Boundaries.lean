import DeadReckoning.Gcode.Lines

/-! Where the lines of a file may be cut: from the end of any of them the rest reads the same. -/
namespace DeadReckoning.Gcode

variable {cases : CaseMapping} {base pos : ℕ} {content data rest : Bytes}

section Shape

/-- The stream may begin later. -/
theorem linesFrom_shift (offset : ℕ) :
    linesFrom cases base (offset + pos) content rest =
      linesFrom cases (saturatingAdd base offset) pos content rest := by
  induction rest generalizing pos content with
  | nil => simp only [linesFrom, lineAt, saturatingAdd_assoc, Nat.add_assoc]
  | cons b rest ih =>
    have hbehind : offset + pos + content.length + 1 = offset + (pos + content.length + 1) := by
      omega
    unfold linesFrom
    split
    · rw [hbehind, ih]
      simp only [lineAt, saturatingAdd_assoc, Nat.add_assoc]
    · exact ih

/-- Bytes without a newline belong to the line that is being read. -/
theorem linesFrom_append {more : Bytes} (hfree : newline ∉ more) :
    linesFrom cases base pos content (more ++ rest) =
      linesFrom cases base pos (content ++ more) rest := by
  induction more generalizing content with
  | nil => simp
  | cons b more ih =>
    have hb : b ≠ newline := fun h => hfree (h ▸ List.mem_cons_self)
    rw [List.cons_append, linesFrom, if_neg hb,
      ih fun h => hfree (List.mem_cons_of_mem _ h)]
    simp

/-- The line of these bytes, which has `length` of them with its terminator. -/
def lineOf (cases : CaseMapping) (base : ℕ) (content : Bytes) (length : ℕ) : Line :=
  parseLineBytes cases content ⟨base, base + length⟩

theorem lineAt_eq_lineOf {length : ℕ} (hbase : base + length ≤ offsetMax) :
    lineAt cases base 0 content length = lineOf cases base content length := by
  have hstart : saturatingAdd base 0 = base := by
    unfold saturatingAdd
    omega
  have hstop : saturatingAdd base length = base + length := by
    unfold saturatingAdd
    omega
  rw [lineAt, lineOf, hstart, hstop]

@[simp] theorem lineIter_nil : lineIter cases [] base = [] := rfl

theorem lineIter_last (hfree : newline ∉ content) (hne : content ≠ [])
    (hbase : base + content.length ≤ offsetMax) :
    lineIter cases content base = [lineOf cases base content content.length] := by
  have happend : linesFrom cases base 0 [] (content ++ []) = linesFrom cases base 0 content [] :=
    linesFrom_append hfree
  rw [List.append_nil] at happend
  unfold lineIter
  rw [happend, linesFrom, if_neg hne, lineAt_eq_lineOf hbase]

theorem lineIter_line (hfree : newline ∉ content)
    (hbase : base + (content.length + 1) ≤ offsetMax) :
    lineIter cases (content ++ newline :: rest) base =
      lineOf cases base content (content.length + 1) ::
        lineIter cases rest (base + (content.length + 1)) := by
  have hnext : saturatingAdd base (content.length + 1) = base + (content.length + 1) := by
    unfold saturatingAdd
    omega
  unfold lineIter
  rw [linesFrom_append hfree, List.nil_append, linesFrom, if_pos rfl, lineAt_eq_lineOf hbase,
    ← hnext, ← linesFrom_shift]
  congr 2
  omega

/-- Data is a row of lines with their newlines, and perhaps a last one without. -/
theorem byLines {motive : Bytes → Prop} (nil : motive [])
    (last : ∀ content, newline ∉ content → content ≠ [] → motive content)
    (line : ∀ content rest, newline ∉ content → motive rest →
      motive (content ++ newline :: rest)) (data : Bytes) : motive data := by
  induction hlength : data.length using Nat.strong_induction_on generalizing data with
  | _ n ih =>
    by_cases hnewline : newline ∈ data
    · obtain ⟨content, rest, rfl, hfree⟩ := List.eq_append_cons_of_mem hnewline
      apply line content rest hfree
      apply ih rest.length _ rest rfl
      rw [← hlength, List.length_append, List.length_cons]
      omega
    · by_cases hempty : data = []
      · rw [hempty]
        exact nil
      · exact last data hnewline hempty

end Shape

section Tiling

/-- The lines cut the data into pieces without gaps. A piece ends behind the first newline in it, or
where the data ends, and reading from the end of any of them gives the lines behind it. -/
structure Tiles (cases : CaseMapping) (base : ℕ) (data : Bytes) (lines : List Line) : Prop where
  nonempty : ∀ line ∈ lines, line.span.start < line.span.stop
  contiguous : Contiguous base lines
  whole : stopOf base lines = base + data.length
  cut : ∀ line ∈ lines, ∃ content, newline ∉ content ∧
    line = parseLineBytes cases content line.span ∧
    (((data.drop (line.span.start - base)).take (line.span.stop - line.span.start) =
        content ++ [newline]) ∨
      ((data.drop (line.span.start - base)).take (line.span.stop - line.span.start) = content ∧
        line.span.stop = base + data.length))
  reread : ∀ before after, lines = before ++ after →
    lineIter cases (data.drop (stopOf base before - base)) (stopOf base before) = after

theorem Contiguous.le_stopOf {lines : List Line} (h : Contiguous base lines) :
    base ≤ stopOf base lines := by
  have hmono := h.stopOf_mono (Nat.zero_le lines.length)
  rwa [List.take_length, List.take_zero] at hmono

theorem Contiguous.le_start {lines : List Line} (h : Contiguous base lines) :
    ∀ line ∈ lines, base ≤ line.span.start := by
  induction lines generalizing base with
  | nil => simp
  | cons first lines ih =>
    obtain ⟨hstart, hstop, hrest⟩ := h
    intro line hline
    rcases List.mem_cons.mp hline with rfl | hline
    · exact hstart.ge
    · exact hstop.trans (ih hrest line hline)

theorem Contiguous.of_append {before after : List Line}
    (h : Contiguous base (before ++ after)) : Contiguous base before := by
  have htake := h.take before.length
  rwa [List.take_left] at htake

/-- What lies behind a line is found behind it in the data. -/
theorem drop_behind {k : ℕ} (hk : base + (content.length + 1) ≤ k) :
    (content ++ newline :: rest).drop (k - base) =
      rest.drop (k - (base + (content.length + 1))) := by
  have hsize : k - base = (content ++ [newline]).length +
      (k - (base + (content.length + 1))) := by
    rw [List.length_append, List.length_singleton]
    omega
  rw [List.append_cons, hsize, List.drop_append, List.drop_of_length_le (by omega)]
  simp

theorem lineIter_tiles (cases : CaseMapping) (data : Bytes) (base : ℕ)
    (hbase : base + data.length ≤ offsetMax) : Tiles cases base data (lineIter cases data base) := by
  induction data using byLines generalizing base with
  | nil =>
    exact
      { nonempty := by simp
        contiguous := trivial
        whole := rfl
        cut := by simp
        reread := by
          intro before after hsplit
          obtain ⟨rfl, rfl⟩ := List.append_eq_nil_iff.mp hsplit.symm
          simp }
  | last content hfree hne =>
    have hpos : 0 < content.length := List.length_pos_of_ne_nil hne
    rw [lineIter_last hfree hne hbase]
    exact
      { nonempty := by
          intro line hline
          rw [List.mem_singleton.mp hline]
          show base < base + content.length
          omega
        contiguous := ⟨rfl, Nat.le_add_right _ _, trivial⟩
        whole := rfl
        cut := by
          intro line hline
          rw [List.mem_singleton.mp hline]
          refine ⟨content, hfree, rfl, .inr ⟨?_, rfl⟩⟩
          show (content.drop (base - base)).take (base + content.length - base) = content
          rw [Nat.sub_self, Nat.add_sub_cancel_left, List.drop_zero, List.take_length]
        reread := by
          intro before after hsplit
          rcases List.singleton_eq_append_iff.mp hsplit with ⟨rfl, rfl⟩ | ⟨rfl, rfl⟩
          · show lineIter cases (content.drop (base - base)) base = _
            rw [Nat.sub_self, List.drop_zero, lineIter_last hfree hne hbase]
          · show lineIter cases (content.drop (base + content.length - base)) _ = []
            rw [Nat.add_sub_cancel_left, List.drop_length]
            rfl }
  | line content rest hfree ih =>
    rw [List.length_append, List.length_cons] at hbase
    have hbehind := ih (base + (content.length + 1)) (by omega)
    have hline : base + (content.length + 1) ≤ offsetMax := by omega
    rw [lineIter_line hfree hline]
    exact
      { nonempty := by
          intro line hmem
          rcases List.mem_cons.mp hmem with rfl | hmem
          · show base < base + (content.length + 1)
            omega
          · exact hbehind.nonempty line hmem
        contiguous := ⟨rfl, Nat.le_add_right _ _, hbehind.contiguous⟩
        whole := by
          rw [stopOf_cons]
          show stopOf (base + (content.length + 1)) _ = _
          rw [hbehind.whole, List.length_append, List.length_cons]
          omega
        cut := by
          intro line hmem
          rcases List.mem_cons.mp hmem with rfl | hmem
          · refine ⟨content, hfree, rfl, .inl ?_⟩
            show ((content ++ newline :: rest).drop (base - base)).take
              (base + (content.length + 1) - base) = content ++ [newline]
            rw [Nat.sub_self, Nat.add_sub_cancel_left, List.drop_zero, List.append_cons]
            exact List.take_left' (by simp)
          · obtain ⟨piece, hpiece, hline, hcut⟩ := hbehind.cut line hmem
            rw [drop_behind (hbehind.contiguous.le_start line hmem), List.length_append,
              List.length_cons]
            refine ⟨piece, hpiece, hline, hcut.imp id fun hlast => ⟨hlast.1, ?_⟩⟩
            rw [hlast.2]
            omega
        reread := by
          intro before after hsplit
          cases before with
          | nil =>
            rw [← List.nil_append after, ← hsplit]
            show lineIter cases ((content ++ newline :: rest).drop (base - base)) base = _
            rw [Nat.sub_self, List.drop_zero, lineIter_line hfree hline]
          | cons first before =>
            obtain ⟨rfl, htail⟩ := List.cons.inj hsplit
            have hcontiguous : Contiguous (base + (content.length + 1)) (before ++ after) := by
              rw [← List.append_eq, ← htail]
              exact hbehind.contiguous
            have hstop : stopOf base
                (lineOf cases base content (content.length + 1) :: before) =
                stopOf (base + (content.length + 1)) before := stopOf_cons _ _ _
            rw [hstop, drop_behind hcontiguous.of_append.le_stopOf]
            exact hbehind.reread before after htail }

end Tiling

end DeadReckoning.Gcode
