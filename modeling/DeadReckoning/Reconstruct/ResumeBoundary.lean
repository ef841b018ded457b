import DeadReckoning.Gcode.Boundaries
import DeadReckoning.Reconstruct.Shorter

/-! A file may be read again from every offset that the simulation or the window of the file
reports: the lines behind it are the ones that were not consumed. -/
namespace DeadReckoning.Reconstruct

open Gcode (Arithmetic CaseMapping Contiguous Line SimConfig Tiles lineIter lineIter_tiles
  offsetMax simulate stopOf)
open Wal (Context)
open Checks (bind_eq_ok required_eq_ok)

variable {cases : CaseMapping} {data : Bytes} {base offset : ℕ}

section Reading

/-- A line of the data ends at the offset, or the data begins there, and what is read from there is
the rest of its lines. -/
def RereadsFrom (cases : CaseMapping) (data : Bytes) (base offset : ℕ) : Prop :=
  ∃ before after, lineIter cases data base = before ++ after ∧ offset = stopOf base before ∧
    lineIter cases (data.drop (offset - base)) offset = after

/-- So many lines end at the offset. -/
def EndsLines (cases : CaseMapping) (data : Bytes) (base offset : ℕ) : Prop :=
  ∃ n, offset = stopOf base ((lineIter cases data base).take n)

theorem EndsLines.rereads (hbase : base + data.length ≤ offsetMax)
    (h : EndsLines cases data base offset) : RereadsFrom cases data base offset := by
  obtain ⟨n, rfl⟩ := h
  have hsplit := (List.take_append_drop n (lineIter cases data base)).symm
  exact ⟨_, _, hsplit, rfl, (lineIter_tiles cases data base hbase).reread _ _ hsplit⟩

theorem endsLines_base : EndsLines cases data base base := ⟨0, rfl⟩

theorem endsLines_whole (hbase : base + data.length ≤ offsetMax) :
    EndsLines cases data base (base + data.length) := by
  refine ⟨(lineIter cases data base).length, ?_⟩
  rw [List.take_length, (lineIter_tiles cases data base hbase).whole]

theorem EndsLines.max {other : ℕ} (h : EndsLines cases data base offset)
    (h' : EndsLines cases data base other) : EndsLines cases data base (max offset other) := by
  rcases max_choice offset other with hmax | hmax
  · rwa [hmax]
  · rwa [hmax]

theorem EndsLines.min {other : ℕ} (h : EndsLines cases data base offset)
    (h' : EndsLines cases data base other) : EndsLines cases data base (min offset other) := by
  rcases min_choice offset other with hmin | hmin
  · rwa [hmin]
  · rwa [hmin]

theorem stopOf_append (before after : List Line) :
    stopOf base (before ++ after) = stopOf (stopOf base before) after := by
  unfold stopOf
  rw [List.getLast?_append]
  cases after.getLast? with
  | none => rfl
  | some line => rfl

/-- A file that is read again from one offset is cut where the rest is cut. -/
theorem RereadsFrom.trans {frontier : ℕ} (hbase : base + data.length ≤ offsetMax)
    (hfrontier : RereadsFrom cases data base frontier)
    (h : RereadsFrom cases (data.drop (frontier - base)) frontier offset) :
    RereadsFrom cases data base offset := by
  obtain ⟨before, after, hsplit, rfl, hafter⟩ := hfrontier
  obtain ⟨between, rest, hrest, rfl, -⟩ := h
  rw [hafter] at hrest
  have hwhole : lineIter cases data base = (before ++ between) ++ rest := by
    rw [hsplit, hrest, List.append_assoc]
  refine ⟨_, _, hwhole, (stopOf_append _ _).symm, ?_⟩
  have hreread := (lineIter_tiles cases data base hbase).reread _ _ hwhole
  rwa [stopOf_append] at hreread

end Reading

section Window

variable {K : Type} [Field K] [LinearOrder K] {arith : Arithmetic K} {timeline : WalTimeline K}
  {window : StopWindow K} {anchor : Context} {config : ReconstructConfig K} {frontier : ℕ}

/-- The simulation of the first lines stops where the last consumed one of them ends. -/
theorem resume_eq_stopOf (arith : Arithmetic K) (sim : SimConfig K) (state : Gcode.GcodeState K) {lines : List Line}
    (hlines : lines <+: lineIter cases data base) :
    (simulate arith sim state lines).resumeOffset.getD base = stopOf base
      ((lineIter cases data base).take (simulate arith sim state lines).linesConsumed) := by
  obtain ⟨rest, hrest⟩ := hlines
  have hle : (simulate arith sim state lines).linesConsumed ≤ lines.length :=
    (simulate_consumed arith sim state lines).1
  rw [simulate_resume, ← hrest, List.take_append_of_le_length hle]

theorem endsLines_resume (arith : Arithmetic K) (sim : SimConfig K) (state : Gcode.GcodeState K)
    {lines : List Line} (hlines : lines <+: lineIter cases data base) :
    EndsLines cases data base ((simulate arith sim state lines).resumeOffset.getD base) :=
  ⟨_, resume_eq_stopOf arith sim state hlines⟩

/-- The cap of the frontier is where a line ends. -/
theorem endsLines_frontierCap {state : Gcode.GcodeState K} {anchorPt : Option K} {gap : Bool}
    {lines : List Line} {cap : ℕ} (hbase : base + data.length ≤ offsetMax)
    (hlines : lines <+: lineIter cases data base)
    (h : frontierCapOffset arith timeline window anchorPt state lines base (base + data.length)
      config gap = some cap) : EndsLines cases data base cap := by
  unfold frontierCapOffset at h
  simp only [Option.bind_eq_bind, Option.bind_eq_some_iff, Option.pure_def, Option.some.injEq] at h
  obtain ⟨pt, -, _, -, spacing, -, rfl⟩ := h
  set sim : SimConfig K := { config.sim with
    maxDuration := some (frontierDt timeline window pt config spacing) }
  have hslack : EndsLines cases data base
      ((lines[(simulate arith sim state lines).linesConsumed]?.map (·.span.stop)).getD
        (base + data.length)) := by
    cases hnext : lines[(simulate arith sim state lines).linesConsumed]? with
    | none => exact endsLines_whole hbase
    | some line =>
      refine ⟨(simulate arith sim state lines).linesConsumed + 1, ?_⟩
      obtain ⟨rest, hrest⟩ := hlines
      obtain ⟨hindex, -⟩ := List.getElem?_eq_some_iff.mp hnext
      have hnext' : (lineIter cases data base)[(simulate arith sim state
          lines).linesConsumed]? = some line := by
        rw [← hrest, List.getElem?_append_left hindex]
        exact hnext
      exact (stopOf_take_succ base hnext').symm
  exact (((endsLines_resume arith sim state hlines).max endsLines_base).max hslack).min
    (endsLines_whole hbase)

/-- The window of the file ends where a line behind the frontier ends. -/
theorem endsLines_offsetWindow {walEvalEnd : K} {d d' : Degradation} {vsd : Wal.VirtualSdState}
    {floor : Option FloorContext} {extension : Option (ExtensionResult K)} {w : OffsetWindow}
    (hbase : base + data.length ≤ offsetMax) (hvsd : anchor.virtualSdcard = some vsd)
    (h : runExtension arith cases timeline anchor window walEvalEnd (some ⟨base, data⟩) config d =
      .ok (extension, d'))
    (hw : offsetWindow anchor floor extension = some w) :
    base ≤ vsd.filePosition ∧ vsd.filePosition ≤ base + data.length ∧
      EndsLines cases (data.drop (vsd.filePosition - base)) vsd.filePosition w.stop := by
  rcases runExtension_ok hvsd h with ⟨hnone, -⟩ | ⟨tail, state, result, htail, rfl, hext⟩
  · cases hnone
  obtain rfl := Option.some.inj htail
  obtain ⟨⟨hlow, hhigh⟩, -, ⟨horizon, hresume⟩, gap, hcap⟩ := hext
  have htailEnd : FileTail.tailEnd ⟨base, data⟩ = base + data.length := min_eq_left hbase
  rw [htailEnd] at hhigh hcap
  dsimp only at hlow
  set frontier := vsd.filePosition
  set behind := data.drop (frontier - base) with hbehind
  have hend : frontier + behind.length = base + data.length := by
    rw [hbehind, List.length_drop]
    omega
  have hlines : collectLines cases ⟨base, data⟩ frontier config.sim.maxLines <+:
      lineIter cases behind frontier := by
    unfold collectLines
    split
    · exact List.take_prefix _ _
    · exact List.prefix_rfl
  have huncapped : EndsLines cases behind frontier
      (max (result.summary.resumeOffset.getD frontier) frontier) := by
    rw [hresume]
    exact (endsLines_resume arith _ state hlines).max endsLines_base
  refine ⟨hlow, hhigh, ?_⟩
  rw [offsetWindow, hvsd, Option.map_some, Option.some.injEq] at hw
  subst hw
  dsimp only [Option.bind_some]
  split
  · rename_i cap hsome
    rw [hcap, ← hend] at hsome
    have hcapped := endsLines_frontierCap (hend.trans_le hbase) hlines hsome
    exact huncapped.min (hcapped.max endsLines_base)
  · exact huncapped

/-- The lines of the data tile it, and may be read again from every place where one ends; from where
the simulation of the first of them stops, this gives the lines that it did not consume, and the
window of the file ends at such a place behind the frontier. -/
theorem lines_are_reread (arith : Arithmetic K) (cases : CaseMapping) (data : Bytes) (base : ℕ)
    (hbase : base + data.length ≤ offsetMax) :
    Tiles cases base data (lineIter cases data base) ∧
    (∀ (sim : SimConfig K) (state : Gcode.GcodeState K) (lines : List Line) (offset : ℕ),
      lines <+: lineIter cases data base →
      (simulate arith sim state lines).resumeOffset = some offset →
      lineIter cases (data.drop (offset - base)) offset =
        (lineIter cases data base).drop (simulate arith sim state lines).linesConsumed) ∧
    ∀ (timeline : WalTimeline K) (window : StopWindow K) (config : ReconstructConfig K)
      (set : PossibleStopSet K) (w : OffsetWindow),
      computeStopSet arith cases timeline window (some ⟨base, data⟩) config = .ok set →
      set.fileWindow = some w →
      ∃ anchor vsd, timeline.contexts.getLast? = some anchor ∧ anchor.virtualSdcard = some vsd ∧
        base ≤ vsd.filePosition ∧ vsd.filePosition ≤ base + data.length ∧
        RereadsFrom cases (data.drop (vsd.filePosition - base)) vsd.filePosition w.stop ∧
        (RereadsFrom cases data base vsd.filePosition → RereadsFrom cases data base w.stop) := by
  have htiles := lineIter_tiles cases data base hbase
  refine ⟨htiles, ?_, ?_⟩
  · intro sim state lines offset hlines hresume
    have hstop := resume_eq_stopOf arith sim state hlines
    rw [hresume, Option.getD_some] at hstop
    rw [hstop]
    exact htiles.reread _ _ (List.take_append_drop _ _).symm
  · intro timeline window config set w hset hw
    unfold computeStopSet at hset
    obtain ⟨anchor, hrequired, hset⟩ := bind_eq_ok.mp hset
    rw [required_eq_ok] at hrequired
    obtain ⟨⟨extension, d⟩, hextension, hset⟩ := bind_eq_ok.mp hset
    have hwindow : set.fileWindow = offsetWindow anchor
        (floorContext timeline window anchor config d).1 extension := by
      cases hset
      rfl
    rw [hwindow] at hw
    obtain ⟨vsd, hvsd, -⟩ := Option.map_eq_some_iff.mp hw
    obtain ⟨hlow, hhigh, hends⟩ := endsLines_offsetWindow hbase hvsd hextension hw
    have hbehind : vsd.filePosition + (data.drop (vsd.filePosition - base)).length ≤
        offsetMax := by
      rw [List.length_drop]
      omega
    have hrereads := hends.rereads hbehind
    exact ⟨anchor, vsd, hrequired, hvsd, hlow, hhigh, hrereads,
      fun hfrontier => hfrontier.trans hbase hrereads⟩

/-- The file of one move, which the extension consumes. -/
theorem lines_are_reread_once : 5 + exampleTail.bytes.length ≤ offsetMax ∧
    Tiles Gcode.asciiCase 5 exampleTail.bytes (lineIter Gcode.asciiCase exampleTail.bytes 5) ∧
    ∃ set, computeStopSet Gcode.rationals Gcode.asciiCase (contextTimeline reprinted) exampleWindow
        (some exampleTail) exampleConfig = .ok set ∧ set.fileWindow = some ⟨17, 17⟩ ∧
      RereadsFrom Gcode.asciiCase exampleTail.bytes 5 17 := by
  have hbase : 5 + exampleTail.bytes.length ≤ offsetMax := by decide +kernel
  have hrun : (computeStopSet Gcode.rationals Gcode.asciiCase (contextTimeline reprinted)
      exampleWindow (some exampleTail) exampleConfig).toOption.bind (·.fileWindow) =
        some ⟨17, 17⟩ := by decide +kernel
  obtain ⟨htiles, -, hwindow⟩ :=
    lines_are_reread Gcode.rationals Gcode.asciiCase exampleTail.bytes 5 hbase
  refine ⟨hbase, htiles, ?_⟩
  cases hset : computeStopSet Gcode.rationals Gcode.asciiCase (contextTimeline reprinted)
      exampleWindow (some exampleTail) exampleConfig with
  | error error =>
    rw [hset] at hrun
    cases hrun
  | ok set =>
    rw [hset] at hrun
    have hw : set.fileWindow = some ⟨17, 17⟩ := hrun
    obtain ⟨anchor, vsd, hanchor, hvsd, -, -, hrereads, -⟩ := hwindow _ _ _ set _ hset hw
    obtain rfl := Option.some.inj hanchor
    obtain rfl := Option.some.inj hvsd
    exact ⟨set, rfl, hw, hrereads⟩

end Window

end DeadReckoning.Reconstruct
