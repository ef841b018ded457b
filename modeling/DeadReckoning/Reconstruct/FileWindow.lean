import DeadReckoning.Reconstruct.StopSet

/-! When the window of the file has the frontier of the last context. -/
set_option linter.unusedSectionVars false

namespace DeadReckoning.Reconstruct

open Checks (bind_eq_ok ensure_eq_ok required_eq_ok)
open Gcode (Arithmetic CaseMapping Line SimConfig SimLoop lineIter offsetMax saturatingAdd simulate)
open Wal (Context)

section Simulation

variable {K : Type} [Field K] [LinearOrder K] {arith : Arithmetic K} {config : SimConfig K}

/-- The lines that were consumed are the first ones, and the offset is where the last of them
ends. -/
structure Consumed (lines : List Line) (loop : SimLoop K) : Prop where
  le : loop.linesConsumed ≤ lines.length
  resume : loop.resumeOffset = (lines.take loop.linesConsumed).getLast?.map (·.span.stop)

theorem consumed_start (lines : List Line) (state : Gcode.GcodeState K) :
    Consumed lines (SimLoop.start state) := ⟨Nat.zero_le _, rfl⟩

theorem Consumed.run {before lines : List Line} {loop : SimLoop K}
    (h : Consumed (before ++ lines) loop) (hbefore : loop.linesConsumed = before.length) :
    Consumed (before ++ lines) (loop.run arith config lines) := by
  induction lines generalizing before loop with
  | nil => exact h
  | cons line lines ih =>
    unfold SimLoop.run
    split
    · exact ⟨h.le, h.resume⟩
    · split
      · exact ⟨h.le, h.resume⟩
      · rename_i outcome state happly
        have hsplit : before ++ line :: lines = (before ++ [line]) ++ lines := by simp
        have hcount : (loop.consume arith config line outcome.moves state).linesConsumed =
            (before ++ [line]).length := by
          rw [List.length_append, List.length_singleton]
          exact congrArg (· + 1) hbefore
        have hnext : Consumed ((before ++ [line]) ++ lines)
            (loop.consume arith config line outcome.moves state) := by
          refine ⟨?_, ?_⟩
          · rw [hcount]
            exact (List.prefix_append _ _).length_le
          · rw [hcount, List.take_left, List.getLast?_concat]
            rfl
        rw [hsplit]
        dsimp only
        split
        · exact ⟨hnext.le, hnext.resume⟩
        · exact ih hnext hcount

/-- The loop only goes on. -/
theorem run_extends (lines : List Line) (loop : SimLoop K) :
    loop.linesConsumed ≤ (loop.run arith config lines).linesConsumed ∧
      loop.planned <+: (loop.run arith config lines).planned := by
  induction lines generalizing loop with
  | nil => exact ⟨le_rfl, List.prefix_rfl⟩
  | cons line lines ih =>
    unfold SimLoop.run
    split
    · exact ⟨le_rfl, List.prefix_rfl⟩
    · split
      · exact ⟨le_rfl, List.prefix_rfl⟩
      · rename_i outcome state happly
        dsimp only
        split
        · exact ⟨Nat.le_succ _, List.prefix_append _ _⟩
        · obtain ⟨hcount, hplanned⟩ := ih (loop.consume arith config line outcome.moves state)
          exact ⟨(Nat.le_succ _).trans hcount, (List.prefix_append _ _).trans hplanned⟩

/-- The first line is consumed when the budget allows a line and the line applies. -/
theorem run_consumes {line : Line} {lines : List Line} {state : Gcode.GcodeState K} :
    0 < ((SimLoop.start state).run arith config (line :: lines)).linesConsumed ↔
      config.maxLines ≠ some 0 ∧ ∃ outcome next, state.apply arith line = (.ok outcome, next) := by
  unfold SimLoop.run
  have hbudget : (config.maxLines.any fun max => max ≤ (SimLoop.start state).linesConsumed) =
      decide (config.maxLines = some 0) := by
    cases config.maxLines with
    | none => rfl
    | some cap => simp [SimLoop.start]
  rw [hbudget]
  by_cases hcap : config.maxLines = some 0
  · simp [hcap, SimLoop.start]
  · rw [if_neg (by simpa using hcap)]
    have hstate : (SimLoop.start state).state = state := rfl
    rw [hstate]
    cases happly : state.apply arith line with
    | mk result next =>
      cases result with
      | error error => simp [SimLoop.start]
      | ok outcome =>
        dsimp only
        have hone : ((SimLoop.start state).consume arith config line outcome.moves
            next).linesConsumed = 1 := rfl
        constructor
        · exact fun _ => ⟨hcap, outcome, next, rfl⟩
        · intro _
          split
          · exact Nat.one_pos
          · exact Nat.one_pos.trans_le (hone ▸ (run_extends _ _).1)

theorem simulate_consumed (arith : Arithmetic K) (config : SimConfig K)
    (state : Gcode.GcodeState K) (lines : List Line) :
    Consumed lines ((SimLoop.start state).run arith config lines) := by
  have hstart := consumed_start (K := K) ([] ++ lines) state
  exact hstart.run rfl

end Simulation

section Lines

variable {cases : CaseMapping} {base : ℕ}

/-- A line has a byte, so it ends behind the offset where the data begins. -/
theorem linesFrom_stop (cases : CaseMapping) (base pos : ℕ) (content rest : Bytes) :
    ∀ line ∈ Gcode.linesFrom cases base pos content rest,
      saturatingAdd base (pos + 1) ≤ line.span.stop ∧ line.span.stop ≤ offsetMax := by
  have hend : ∀ pos length : ℕ, 0 < length → saturatingAdd base (pos + 1) ≤
      saturatingAdd (saturatingAdd base pos) length ∧
      saturatingAdd (saturatingAdd base pos) length ≤ offsetMax := by
    intro pos length hlength
    unfold saturatingAdd
    omega
  induction rest generalizing pos content with
  | nil =>
    intro line hline
    rw [Gcode.linesFrom] at hline
    split at hline
    · cases hline
    · rename_i hcontent
      rw [List.mem_singleton.mp hline]
      exact hend pos _ (List.length_pos_iff.mpr hcontent)
  | cons b rest ih =>
    intro line hline
    rw [Gcode.linesFrom] at hline
    split at hline
    · rcases List.mem_cons.mp hline with rfl | hline
      · exact hend pos _ (Nat.succ_pos _)
      · obtain ⟨hlow, hhigh⟩ := ih _ _ line hline
        exact ⟨(Gcode.saturatingAdd_le_saturatingAdd le_rfl (by omega)).trans hlow, hhigh⟩
    · exact ih _ _ line hline

theorem collectLines_stop {tail : FileTail} {filePosition : ℕ} {maxLines : Option ℕ} {line : Line}
    (hline : line ∈ collectLines cases tail filePosition maxLines) :
    saturatingAdd filePosition 1 ≤ line.span.stop ∧ line.span.stop ≤ offsetMax := by
  unfold collectLines at hline
  apply linesFrom_stop cases filePosition 0 []
    (tail.bytes.drop (filePosition - tail.baseOffset)) line
  cases maxLines with
  | none => exact hline
  | some cap => exact List.mem_of_mem_take hline

/-- A budget of no line collects none. -/
theorem collectLines_zero (cases : CaseMapping) (tail : FileTail) (filePosition : ℕ) :
    collectLines cases tail filePosition (some 0) = [] := by
  unfold collectLines
  exact List.take_zero

/-- There is a line behind an offset only when the file goes on there. -/
theorem lt_tailEnd {tail : FileTail} {filePosition : ℕ} {maxLines : Option ℕ}
    (hne : collectLines cases tail filePosition maxLines ≠ [])
    (hbase : tail.baseOffset ≤ filePosition) (hmax : filePosition < offsetMax) :
    filePosition < tail.tailEnd := by
  have hbytes : tail.bytes.drop (filePosition - tail.baseOffset) ≠ [] := by
    intro hnone
    apply hne
    unfold collectLines
    rw [hnone]
    cases maxLines with
    | none => rfl
    | some cap => exact List.take_nil
  have hlength := List.length_pos_iff.mpr hbytes
  rw [List.length_drop] at hlength
  unfold FileTail.tailEnd saturatingAdd
  omega

end Lines

section Extension

variable {K : Type} [Field K] [LinearOrder K] {arith : Arithmetic K} {cases : CaseMapping}
  {timeline : WalTimeline K} {window : StopWindow K} {anchor : Context} {config : ReconstructConfig K}

/-- No line behind the frontier is consumed: there is none, it does not apply to the state of the
anchor, or there is no file. -/
def NothingAhead (arith : Arithmetic K) (cases : CaseMapping) (anchor : Context)
    (frontier : ℕ) (fileTail : Option FileTail) (config : ReconstructConfig K) : Prop :=
  ∀ tail ∈ fileTail, ∀ line ∈ (collectLines cases tail frontier config.sim.maxLines).head?,
    ∀ state, (anchorState anchor.gcode : Except ReconstructError (Gcode.GcodeState K)) = .ok state →
      ∃ error next, state.apply arith line = (.error error, next)

/-- The context lies on the axis of print time early enough, and in the file of the anchor. -/
def OldEnough (window : StopWindow K) (config : ReconstructConfig K) (path : String)
    (ctx : Context) : Prop :=
  sameFile path ctx = true ∧ capturedBy window (window.tA - config.maxProcessingLead) ctx = true

/-- What the extension went through. -/
structure Extended (arith : Arithmetic K) (cases : CaseMapping) (timeline : WalTimeline K)
    (window : StopWindow K) (anchor : Context) (config : ReconstructConfig K) (frontier : ℕ)
    (tail : FileTail) (state : Gcode.GcodeState K) (summary : ExtensionSummary K) : Prop where
  covered : tail.baseOffset ≤ frontier ∧ frontier ≤ tail.tailEnd
  seed : anchorState anchor.gcode = .ok state
  resume : ∃ horizon, summary.resumeOffset =
    (simulate arith { config.sim with maxDuration := some horizon } state
      (collectLines cases tail frontier config.sim.maxLines)).resumeOffset
  cap : ∃ gap, summary.frontierCap = frontierCapOffset arith timeline window
    (window.monoNsToPrintTime anchor.monoNs) state
    (collectLines cases tail frontier config.sim.maxLines) frontier tail.tailEnd config gap

/-- The extension of a frontier that the file covers. -/
theorem runExtension_some {walEvalEnd : K} {d : Degradation} {vsd : Wal.VirtualSdState}
    {tail : FileTail} {state : Gcode.GcodeState K} (hvsd : anchor.virtualSdcard = some vsd)
    (hbase : tail.baseOffset ≤ vsd.filePosition) (hend : vsd.filePosition ≤ tail.tailEnd)
    (hstate : anchorState anchor.gcode = .ok state) :
    runExtension arith cases timeline anchor window walEvalEnd (some tail) config d =
      .ok (some (extendFrom arith cases timeline anchor vsd.filePosition state window walEvalEnd tail
          config d).1,
        (extendFrom arith cases timeline anchor vsd.filePosition state window walEvalEnd tail config
          d).2) := by
  have hcovered : (decide (tail.baseOffset ≤ vsd.filePosition) &&
      decide (vsd.filePosition ≤ tail.tailEnd)) = true := by
    rw [decide_eq_true hbase, decide_eq_true hend]
    rfl
  unfold runExtension
  rw [hvsd]
  dsimp only
  rw [hcovered, hstate]
  rfl

/-- A run of the extension had nothing to extend, or extended a frontier that the file covers. -/
theorem runExtension_cases {walEvalEnd : K} {fileTail : Option FileTail} {d : Degradation}
    {ext : Option (ExtensionResult K)} {next : Degradation}
    (h : runExtension arith cases timeline anchor window walEvalEnd fileTail config d =
      .ok (ext, next)) :
    (ext = none ∧ next = { d with extensionUnavailable := true } ∧
        (anchor.virtualSdcard = none ∨ fileTail = none)) ∨
      ∃ vsd tail state, anchor.virtualSdcard = some vsd ∧ fileTail = some tail ∧
        tail.baseOffset ≤ vsd.filePosition ∧ vsd.filePosition ≤ tail.tailEnd ∧
        (anchorState anchor.gcode : Except ReconstructError (Gcode.GcodeState K)) = .ok state ∧
        ext = some (extendFrom arith cases timeline anchor vsd.filePosition state window walEvalEnd
          tail config d).1 ∧
        next = (extendFrom arith cases timeline anchor vsd.filePosition state window walEvalEnd tail
          config d).2 := by
  unfold runExtension at h
  cases hvsd : anchor.virtualSdcard with
  | none =>
    rw [hvsd] at h
    cases h
    exact .inl ⟨rfl, rfl, .inl rfl⟩
  | some vsd =>
    rw [hvsd] at h
    cases fileTail with
    | none =>
      cases h
      exact .inl ⟨rfl, rfl, .inr rfl⟩
    | some tail =>
      obtain ⟨_, hcovered, h⟩ := bind_eq_ok.mp h
      obtain ⟨state, hstate, h⟩ := bind_eq_ok.mp h
      rw [ensure_eq_ok, Bool.and_eq_true, decide_eq_true_eq, decide_eq_true_eq] at hcovered
      cases h
      exact .inr ⟨vsd, tail, state, rfl, rfl, hcovered.1, hcovered.2, hstate, rfl, rfl⟩

theorem runExtension_none {walEvalEnd : K} {fileTail : Option FileTail} {d : Degradation}
    (h : anchor.virtualSdcard = none ∨ fileTail = none) :
    runExtension arith cases timeline anchor window walEvalEnd fileTail config d =
      .ok (none, { d with extensionUnavailable := true }) := by
  unfold runExtension
  rcases h with h | h
  · rw [h]
    rfl
  · rw [h]
    cases anchor.virtualSdcard <;> rfl

theorem runExtension_ok {walEvalEnd : K} {fileTail : Option FileTail} {vsd : Wal.VirtualSdState}
    {d d' : Degradation} {extension : Option (ExtensionResult K)}
    (hvsd : anchor.virtualSdcard = some vsd)
    (h : runExtension arith cases timeline anchor window walEvalEnd fileTail config d =
      .ok (extension, d')) :
    (fileTail = none ∧ extension = none) ∨ ∃ tail state result, fileTail = some tail ∧
      extension = some result ∧ Extended arith cases timeline window anchor config vsd.filePosition
        tail state result.summary := by
  rcases runExtension_cases h with ⟨rfl, -, hnone⟩ |
    ⟨vsd', tail, state, hvsd', rfl, hbase, hend, hstate, rfl, -⟩
  · rcases hnone with hnone | hnone
    · rw [hvsd] at hnone
      cases hnone
    · exact .inl ⟨hnone, rfl⟩
  · obtain rfl : vsd = vsd' := Option.some.inj (hvsd.symm.trans hvsd')
    refine .inr ⟨tail, state, _, rfl, rfl, ⟨hbase, hend⟩, hstate, ⟨_, rfl⟩, ?_⟩
    exact ⟨_, rfl⟩

/-- The extension consumed a line when the first one applies to the state of the anchor. -/
theorem consumes_iff {lines : List Line} {state : Gcode.GcodeState K} {sim : SimConfig K}
    (hlines : sim.maxLines ≠ some 0) :
    0 < (simulate arith sim state lines).linesConsumed ↔
      ∃ line ∈ lines.head?, ∃ outcome next, state.apply arith line = (.ok outcome, next) := by
  have hcount : (simulate arith sim state lines).linesConsumed =
      ((SimLoop.start state).run arith sim lines).linesConsumed := rfl
  rw [hcount]
  cases lines with
  | nil =>
    constructor
    · intro h
      cases h
    · rintro ⟨line, hline, -⟩
      cases hline
  | cons line lines =>
    rw [run_consumes]
    constructor
    · rintro ⟨-, happly⟩
      exact ⟨line, rfl, happly⟩
    · rintro ⟨line', hline, happly⟩
      obtain rfl : line = line' := Option.some.inj hline
      exact ⟨hlines, happly⟩

theorem resume_of_consumed {lines : List Line} {state : Gcode.GcodeState K} {sim : SimConfig K}
    (h : 0 < (simulate arith sim state lines).linesConsumed) :
    ∃ line ∈ lines, (simulate arith sim state lines).resumeOffset = some line.span.stop := by
  obtain ⟨hle, hresume⟩ := simulate_consumed arith sim state lines
  set n := ((SimLoop.start state).run arith sim lines).linesConsumed with hn
  have hpos : 0 < n := h
  have hne : lines.take n ≠ [] := by
    rw [← List.length_pos_iff, List.length_take]
    omega
  refine ⟨(lines.take n).getLast hne, List.mem_of_mem_take (List.getLast_mem hne), ?_⟩
  rw [List.getLast?_eq_getLast_of_ne_nil hne] at hresume
  exact hresume

theorem resume_of_none {lines : List Line} {state : Gcode.GcodeState K} {sim : SimConfig K}
    (h : (simulate arith sim state lines).linesConsumed = 0) :
    (simulate arith sim state lines).resumeOffset = none := by
  obtain ⟨-, hresume⟩ := simulate_consumed arith sim state lines
  have hzero : ((SimLoop.start state).run arith sim lines).linesConsumed = 0 := h
  rw [hzero, List.take_zero] at hresume
  exact hresume

/-- The cap lies behind the frontier when there is a line there. -/
theorem lt_frontierCapOffset {lines : List Line} {state : Gcode.GcodeState K} {anchorPt : Option K}
    {frontier tailEnd cap : ℕ} {gap : Bool} (hne : lines ≠ [])
    (hlines : ∀ line ∈ lines, frontier < line.span.stop) (htail : frontier < tailEnd)
    (h : frontierCapOffset arith timeline window anchorPt state lines frontier tailEnd config gap =
      some cap) : frontier < cap := by
  unfold frontierCapOffset at h
  simp only [Option.bind_eq_bind, Option.bind_eq_some_iff, Option.pure_def, Option.some.injEq] at h
  obtain ⟨pt, -, _, -, spacing, -, rfl⟩ := h
  set sim : SimConfig K := { config.sim with
    maxDuration := some (frontierDt timeline window pt config spacing) } with hsim
  have hslacked : frontier < max (max ((simulate arith sim state lines).resumeOffset.getD frontier)
      frontier) ((lines[(simulate arith sim state lines).linesConsumed]?.map
        (·.span.stop)).getD tailEnd) := by
    by_cases hzero : (simulate arith sim state lines).linesConsumed = 0
    · obtain ⟨line, rest, rfl⟩ := List.exists_cons_of_ne_nil hne
      rw [hzero]
      exact lt_max_of_lt_right (hlines line List.mem_cons_self)
    · obtain ⟨line, hline, hresume⟩ := resume_of_consumed (Nat.pos_of_ne_zero hzero)
      rw [hresume]
      exact lt_max_of_lt_left (lt_max_of_lt_left (hlines line hline))
  exact lt_min hslacked htail

/-- The window ends at the frontier exactly when no line behind it is consumed. -/
theorem offsetWindow_stop {walEvalEnd : K} {fileTail : Option FileTail} {d d' : Degradation}
    {vsd : Wal.VirtualSdState} {floor : Option FloorContext}
    {extension : Option (ExtensionResult K)} (hvsd : anchor.virtualSdcard = some vsd)
    (h : runExtension arith cases timeline anchor window walEvalEnd fileTail config d =
      .ok (extension, d')) :
    ∃ w, offsetWindow anchor floor extension = some w ∧
      w.start = min ((floor.map (·.filePosition)).getD vsd.filePosition) w.stop ∧
      vsd.filePosition ≤ w.stop ∧
      (w.stop = vsd.filePosition ↔ vsd.filePosition = offsetMax ∨
        NothingAhead arith cases anchor vsd.filePosition fileTail config) := by
  set frontier := vsd.filePosition with hfrontier
  refine ⟨_, by rw [offsetWindow, hvsd]; rfl, rfl, ?_, ?_⟩
  · dsimp only
    split
    · exact le_min (le_max_right _ _) (le_max_right _ _)
    · exact le_max_right _ _
  · dsimp only
    rcases runExtension_ok hvsd h with ⟨rfl, rfl⟩ | ⟨tail, state, result, rfl, rfl, hext⟩
    · -- Without a file there is no extension.
      constructor
      · exact fun _ => .inr fun tail htail => by cases htail
      · exact fun _ => max_self _
    · obtain ⟨⟨hbase, htail⟩, hstate, ⟨horizon, hresume⟩, gap, hcap⟩ := hext
      set lines := collectLines cases tail frontier config.sim.maxLines with hlines
      set sim : SimConfig K := { config.sim with maxDuration := some horizon } with hsim
      rw [Option.bind_some, Option.bind_some, hresume, hcap]
      have hle : tail.tailEnd ≤ offsetMax := min_le_right _ _
      have hstops : ∀ line ∈ lines, saturatingAdd frontier 1 ≤ line.span.stop ∧
          line.span.stop ≤ offsetMax := fun line hline => collectLines_stop hline
      by_cases hzero : (simulate arith sim state lines).linesConsumed = 0
      · -- Nothing was consumed.
        rw [resume_of_none hzero]
        have hnothing : NothingAhead arith cases anchor frontier (some tail) config := by
          intro tail' htail' line hline state' hstate'
          obtain rfl : tail = tail' := Option.some.inj htail'
          rw [hstate, Except.ok.injEq] at hstate'
          obtain rfl := hstate'
          cases happly : state.apply arith line with
          | mk applied next =>
            cases applied with
            | error error => exact ⟨error, next, rfl⟩
            | ok outcome =>
              have hbudget : sim.maxLines ≠ some 0 := by
                intro hcapped
                have hmaxLines : config.sim.maxLines = some 0 := hcapped
                rw [hmaxLines, collectLines_zero] at hline
                cases hline
              have hpos : 0 < (simulate arith sim state lines).linesConsumed :=
                (consumes_iff hbudget).mpr ⟨line, hline, outcome, next, happly⟩
              exact absurd hzero hpos.ne'
        constructor
        · exact fun _ => .inr hnothing
        · intro _
          rw [Option.getD_none, max_self]
          split
          · exact min_eq_left (le_max_right _ _)
          · rfl
      · obtain ⟨line, hline, hresumed⟩ := resume_of_consumed (Nat.pos_of_ne_zero hzero)
        rw [hresumed, Option.getD_some]
        obtain ⟨hlow, hhigh⟩ := hstops line hline
        have hne : lines ≠ [] := List.ne_nil_of_mem hline
        by_cases hmax : frontier = offsetMax
        · -- At the largest offset every line ends where it begins.
          have hstop : max line.span.stop frontier = frontier := max_eq_right (hmax ▸ hhigh)
          rw [hstop]
          refine ⟨fun _ => .inl hmax, fun _ => ?_⟩
          split
          · exact min_eq_left (le_max_right _ _)
          · rfl
        · have hnext : frontier < saturatingAdd frontier 1 := by
            unfold saturatingAdd
            omega
          have hbehind : ∀ line ∈ lines, frontier < line.span.stop :=
            fun line hline => hnext.trans_le (hstops line hline).1
          have hmore : frontier < tail.tailEnd :=
            lt_tailEnd hne hbase (lt_of_le_of_ne (htail.trans hle) hmax)
          have hlt : ∀ c, frontierCapOffset arith timeline window
              (window.monoNsToPrintTime anchor.monoNs) state lines frontier tail.tailEnd config gap =
              some c → frontier < c := fun c hc => lt_frontierCapOffset hne hbehind hmore hc
          have hstop := hbehind line hline
          constructor
          · intro heq
            exfalso
            split at heq
            · rename_i c hc
              exact absurd heq (lt_min (lt_max_of_lt_left hstop) (lt_max_of_lt_left (hlt c hc))).ne'
            · exact absurd heq (lt_max_of_lt_left hstop).ne'
          · rintro (hat | hnothing)
            · exact (hmax hat).elim
            · exfalso
              have hbudget : sim.maxLines ≠ some 0 := by
                intro hcapped
                have hmaxLines : config.sim.maxLines = some 0 := hcapped
                apply hne
                rw [hlines, hmaxLines, collectLines_zero]
              obtain ⟨first, hfirst, outcome, next, happly⟩ :=
                (consumes_iff hbudget).mp (Nat.pos_of_ne_zero hzero)
              obtain ⟨error, next', hfails⟩ := hnothing tail rfl first hfirst state hstate
              rw [hfails] at happly
              cases happly

end Extension

section Floor

variable {K : Type} [Field K] [LinearOrder K] {timeline : WalTimeline K} {window : StopWindow K}
  {anchor : Context} {config : ReconstructConfig K} {contexts : List Context}

theorem maxByPosition_spec {best : Context} (h : maxByPosition contexts = some best) :
    best ∈ contexts ∧ ∀ c ∈ contexts, fpOf c ≤ fpOf best := by
  cases contexts with
  | nil => cases h
  | cons first rest =>
    obtain rfl := Option.some.inj h
    clear h
    induction rest using List.reverseRecOn with
    | nil => simp
    | append_singleton rest last ih =>
      rw [List.foldl_append]
      set best := rest.foldl (fun best c => if fpOf best ≤ fpOf c then c else best) first with hbest
      obtain ⟨hmem, hmax⟩ := ih
      rw [List.foldl_cons, List.foldl_nil, ← List.cons_append]
      split
      · rename_i hle
        refine ⟨List.mem_append_right _ List.mem_cons_self, fun c hc => ?_⟩
        rcases List.mem_append.mp hc with hc | hc
        · exact (hmax c hc).trans hle
        · exact (congrArg fpOf (List.mem_singleton.mp hc)).le
      · rename_i hlt
        refine ⟨List.mem_append_left _ hmem, fun c hc => ?_⟩
        rcases List.mem_append.mp hc with hc | hc
        · exact hmax c hc
        · rw [List.mem_singleton.mp hc]
          exact (not_le.mp hlt).le

theorem maxByPosition_none (h : maxByPosition contexts = none) : contexts = [] := by
  cases contexts with
  | nil => rfl
  | cons first rest => cases h

theorem minByPosition_spec {c : Context} (hc : c ∈ contexts) :
    ∃ best, minByPosition contexts = some best ∧ fpOf best ≤ fpOf c := by
  cases contexts with
  | nil => cases hc
  | cons first rest =>
    refine ⟨_, rfl, ?_⟩
    have hall : ∀ c ∈ first :: rest, fpOf (rest.foldl
        (fun best c => if fpOf c < fpOf best then c else best) first) ≤ fpOf c := by
      clear hc
      induction rest using List.reverseRecOn with
      | nil => simp
      | append_singleton rest last ih =>
        rw [List.foldl_append]
        set best := rest.foldl (fun best c => if fpOf c < fpOf best then c else best) first
        rw [List.foldl_cons, List.foldl_nil]
        intro c hc
        rw [← List.cons_append] at hc
        rcases List.mem_append.mp hc with hc | hc
        · split
          · rename_i hlt
            exact hlt.le.trans (ih c hc)
          · exact ih c hc
        · rw [List.mem_singleton.mp hc]
          split
          · exact le_rfl
          · rename_i hge
            exact not_lt.mp hge
    exact hall c hc

/-- The floor is not behind the frontier exactly when no context that is old enough is. -/
theorem floorContext_le_iff {vsd : Wal.VirtualSdState} {d : Degradation}
    (hanchor : anchor ∈ timeline.contexts) (hvsd : anchor.virtualSdcard = some vsd) :
    ((floorContext timeline window anchor config d).1.map (·.filePosition)).getD vsd.filePosition ≤
        vsd.filePosition ↔
      ∀ c ∈ timeline.contexts, OldEnough window config vsd.filePath c → fpOf c ≤ vsd.filePosition := by
  have hself : anchor ∈ timeline.contexts.filter (sameFile vsd.filePath) := by
    refine List.mem_filter.mpr ⟨hanchor, ?_⟩
    rw [sameFile, hvsd]
    exact decide_eq_true rfl
  have hposition : fpOf anchor = vsd.filePosition := by
    rw [fpOf, hvsd]
    rfl
  have hold : ∀ c, c ∈ (timeline.contexts.filter (sameFile vsd.filePath)).filter
      (capturedBy window (window.tA - config.maxProcessingLead)) ↔
      c ∈ timeline.contexts ∧ OldEnough window config vsd.filePath c := by
    intro c
    rw [List.mem_filter, List.mem_filter, and_assoc]
    rfl
  unfold floorContext
  rw [hvsd]
  dsimp only
  split
  · rename_i best hbest
    obtain ⟨hmem, hmax⟩ := maxByPosition_spec hbest
    constructor
    · intro hle c hc holdc
      exact (hmax c ((hold c).mpr ⟨hc, holdc⟩)).trans hle
    · intro hall
      obtain ⟨hbestmem, hbestold⟩ := (hold best).mp hmem
      exact hall best hbestmem hbestold
  · rename_i hnone
    have hempty := maxByPosition_none hnone
    obtain ⟨best, hbest, hle⟩ := minByPosition_spec hself
    constructor
    · intro _ c hc holdc
      have hmem := (hold c).mpr ⟨hc, holdc⟩
      rw [hempty] at hmem
      cases hmem
    · intro _
      rw [hbest]
      exact hle.trans_eq hposition

end Floor

section Claim

variable {K : Type} [Field K] [LinearOrder K] {arith : Arithmetic K} {cases : CaseMapping}
  {timeline : WalTimeline K} {window : StopWindow K} {anchor : Context} {config : ReconstructConfig K}
  {fileTail : Option FileTail} {set : PossibleStopSet K} {vsd : Wal.VirtualSdState}

/-- The window of the file has the frontier of the last context, when there is one, exactly if no
context of the same file that is old enough lies behind it, or nothing is consumed behind it. -/
theorem fileWindow_has_frontier_iff
    (hset : computeStopSet arith cases timeline window fileTail config = .ok set)
    (hanchor : timeline.contexts.getLast? = some anchor)
    (hvsd : anchor.virtualSdcard = some vsd) :
    (∃ w, set.fileWindow = some w ∧ w.start ≤ vsd.filePosition ∧ vsd.filePosition ≤ w.stop) ↔
      (∀ c ∈ timeline.contexts, OldEnough window config vsd.filePath c →
        fpOf c ≤ vsd.filePosition) ∨
      vsd.filePosition = offsetMax ∨
      NothingAhead arith cases anchor vsd.filePosition fileTail config := by
  unfold computeStopSet at hset
  obtain ⟨anchor', hrequired, hset⟩ := bind_eq_ok.mp hset
  rw [required_eq_ok, hanchor, Option.some.injEq] at hrequired
  obtain rfl := hrequired
  obtain ⟨⟨extension, d⟩, hextension, hset⟩ := bind_eq_ok.mp hset
  have hwindow : set.fileWindow = offsetWindow anchor
      (floorContext timeline window anchor config d).1 extension := by
    cases hset
    rfl
  obtain ⟨w, hw, hstart, hle, hstop⟩ := offsetWindow_stop hvsd hextension
  have hfloor := @floorContext_le_iff K _ _ timeline window anchor config vsd d
    (List.mem_of_getLast? hanchor) hvsd
  rw [hwindow, hw, ← hfloor, ← hstop]
  constructor
  · rintro ⟨w', hw', hlow, -⟩
    obtain rfl : w = w' := Option.some.inj hw'
    rw [hstart, min_le_iff] at hlow
    exact hlow.imp id fun hle' => le_antisymm hle' hle
  · intro h
    refine ⟨w, rfl, ?_, hle⟩
    rw [hstart, min_le_iff]
    exact h.imp id le_of_eq

/-- A context of the one file that is printed. -/
def contextAt (monoNs filePosition : ℕ) : Context where
  monoNs := monoNs
  virtualSdcard := some ⟨"/g/a.gcode", filePosition, none⟩
  gcode := ⟨1, 1500, 1, true, true, [0, 0, 0, 0], [50, 50, 2, 7], [50, 50, 2, 7]⟩
  transforms := ⟨false, none, none, none, false, none⟩
  heaters := []
  fans := []
  exclude := none
  printState := none
  currentLayer := none
  totalLayer := none
  printTime := none

/-- A recording of contexts only. -/
def contextTimeline (contexts : List Context) : WalTimeline ℚ where
  toolheadSegments := []
  extruderSegments := []
  otherSegments := []
  stepperRanges := []
  contexts := contexts
  markers := []
  heartbeat := none
  heartbeats := []
  cleanShutdown := false
  socketLostTail := none
  recorderStoppedTail := none
  lastMotionMonoNs := none
  scanEnd := .cleanEof
  notes := []

/-- Print time and host time are the same, and the last beat came at 30 seconds. -/
def exampleWindow : StopWindow ℚ :=
  ⟨30, 30, .heartbeatOnly, .hostDeathOrPowerLoss false, ⟨some (0, 0)⟩, []⟩

def exampleConfig : ReconstructConfig ℚ where
  mcuFreq := none
  zStepperPrefix := "stepper_z"
  stepGenLead := 1 / 2
  quietTailNs := 10 ^ 9
  maxProcessingLead := 4
  extensionHorizon := 10
  sim := ⟨300, 3000, 5, none, none⟩
  exclusionFreshnessHorizon := 5
  heartbeatPeriodNs := 10 ^ 9
  heartbeatGapTolerance := 2
  zMergeTolerance := 1 / 100
  durabilityLagNs := 0

/-- The part of the file behind the frontier, which is its fifth byte. -/
def exampleTail : FileTail := ⟨5, (lit "G1 X60 F600\n").map fun c => c.toNat.toUInt8⟩

/-- The same file was printed before: the first context is from the end of that print. -/
def reprinted : List Context := [contextAt 0 100, contextAt (28 * 10 ^ 9) 5]

/-- A print that the file was printed in once. -/
theorem fileWindow_has_frontier_once : ∃ set, computeStopSet Gcode.rationals Gcode.asciiCase
      (contextTimeline [contextAt (28 * 10 ^ 9) 5]) exampleWindow (some exampleTail) exampleConfig =
        .ok set ∧
    ((∃ w, set.fileWindow = some w ∧ w.start ≤ 5 ∧ 5 ≤ w.stop) ↔
      (∀ c ∈ [contextAt (28 * 10 ^ 9) 5], OldEnough exampleWindow exampleConfig "/g/a.gcode" c →
        fpOf c ≤ 5) ∨
      5 = offsetMax ∨
      NothingAhead Gcode.rationals Gcode.asciiCase (contextAt (28 * 10 ^ 9) 5) 5 (some exampleTail)
        exampleConfig) := by
  have hruns : (computeStopSet Gcode.rationals Gcode.asciiCase
      (contextTimeline [contextAt (28 * 10 ^ 9) 5]) exampleWindow (some exampleTail)
        exampleConfig).toOption.isSome = true := by decide +kernel
  cases hset : computeStopSet Gcode.rationals Gcode.asciiCase
      (contextTimeline [contextAt (28 * 10 ^ 9) 5]) exampleWindow (some exampleTail)
        exampleConfig with
  | error error =>
    rw [hset] at hruns
    cases hruns
  | ok set => exact ⟨set, rfl, fileWindow_has_frontier_iff hset rfl rfl⟩

/-- The window leaves the frontier of the last context out. -/
theorem fileWindow_loses_frontier :
    ¬ ∀ (timeline : WalTimeline ℚ) (window : StopWindow ℚ) (config : ReconstructConfig ℚ)
      (fileTail : Option FileTail) (set : PossibleStopSet ℚ) (anchor : Context)
      (vsd : Wal.VirtualSdState),
      computeStopSet Gcode.rationals Gcode.asciiCase timeline window fileTail config = .ok set →
      timeline.contexts.getLast? = some anchor → anchor.virtualSdcard = some vsd →
      ∃ w, set.fileWindow = some w ∧ w.start ≤ vsd.filePosition ∧ vsd.filePosition ≤ w.stop := by
  intro h
  have hrun : (computeStopSet Gcode.rationals Gcode.asciiCase (contextTimeline reprinted)
      exampleWindow (some exampleTail) exampleConfig).toOption.bind (·.fileWindow) =
        some ⟨17, 17⟩ := by decide +kernel
  cases hset : computeStopSet Gcode.rationals Gcode.asciiCase (contextTimeline reprinted)
      exampleWindow (some exampleTail) exampleConfig with
  | error error =>
    rw [hset] at hrun
    cases hrun
  | ok set =>
    obtain ⟨w, hw, hlow, -⟩ := h _ _ _ _ set (contextAt (28 * 10 ^ 9) 5) _ hset rfl rfl
    rw [hset] at hrun
    have hwindow : set.fileWindow = some ⟨17, 17⟩ := hrun
    rw [hwindow, Option.some.injEq] at hw
    subst hw
    exact absurd hlow (by decide)

end Claim

end DeadReckoning.Reconstruct
