import DeadReckoning.Reconstruct.Shorter

/-! The edge of a power failure only narrows what bounds the stop. -/
set_option linter.unusedSectionVars false

namespace DeadReckoning.Reconstruct

open Checks (bind_eq_ok required_eq_ok)
open Gcode (Arithmetic CaseMapping Line)
open Wal (Context Marker)

section Joining

variable {K : Type} [Field K] [LinearOrder K] [IsStrictOrderedRing K] {arith : Arithmetic K}
  {cases : CaseMapping} {timeline : WalTimeline K} {window : StopWindow K} {anchor : Context}
  {config : ReconstructConfig K} {fileTail : Option FileTail}
  {ext' ext : Option (ExtensionResult K)}

/-- The flags before the extension. -/
def firstFlags (timeline : WalTimeline K) (window : StopWindow K) (config : ReconstructConfig K) :
    Degradation :=
  { Degradation.none with
    observationGap := observationGapOverlapsWindow timeline window config
    powerFailCutDegenerate := (evalEnd timeline window).2.2 }

/-- The heights, the box and the filament of the journal and of the extension. -/
def joinedEvidence (arith : Arithmetic K) (cases : CaseMapping) (timeline : WalTimeline K)
    (window : StopWindow K) (fileTail : Option FileTail) (config : ReconstructConfig K)
    (anchor : Context) (extension : Option (ExtensionResult K)) (d : Degradation) :
    List (ZCandidate K) × Option (XyRegion K) × Option (Interval K) × Option (Interval K) :=
  let collapseActive := (evalEnd timeline window).2.1.isSome
  let walE := evalExtruderSpan timeline.extruderSegments window.tA (evalEnd timeline window).1
    collapseActive
  joinExtension (evalToolheadSpan timeline.toolheadSegments window.tA (evalEnd timeline window).1
      collapseActive) walE
    (fileFrameE arith cases timeline window anchor (floorContext timeline window anchor config d).1
      extension fileTail walE config (floorContext timeline window anchor config d).2).1 extension

/-- The flags behind the extension. -/
def lastFlags (arith : Arithmetic K) (cases : CaseMapping) (timeline : WalTimeline K)
    (window : StopWindow K) (fileTail : Option FileTail) (config : ReconstructConfig K)
    (anchor : Context) (extension : Option (ExtensionResult K)) (d : Degradation) : Degradation :=
  let walE := evalExtruderSpan timeline.extruderSegments window.tA (evalEnd timeline window).1
    (evalEnd timeline window).2.1.isSome
  let d := (fileFrameE arith cases timeline window anchor
    (floorContext timeline window anchor config d).1 extension fileTail walE config
    (floorContext timeline window anchor config d).2).2
  { d with
    confidence := if d.observationGap || d.extensionUnavailable || d.extensionTruncated ||
      d.extensionError then .perLayer else .perLine }

/-- The stop set, once the extension has run. -/
theorem computeStopSet_ok_iff {S : PossibleStopSet K} :
    computeStopSet arith cases timeline window fileTail config = .ok S ↔
      ∃ anchor ext d, timeline.contexts.getLast? = some anchor ∧
        runExtension arith cases timeline anchor window (evalEnd timeline window).1 fileTail config
          (firstFlags timeline window config) = .ok (ext, d) ∧
        S = { tA := window.tA
              walEvalEnd := (evalEnd timeline window).1
              zCandidates := mergeZCandidates (joinedEvidence arith cases timeline window fileTail
                config anchor ext d).1 config.zMergeTolerance
              xy := (joinedEvidence arith cases timeline window fileTail config anchor ext d).2.1
              eInternal :=
                (joinedEvidence arith cases timeline window fileTail config anchor ext d).2.2.1
              eFile := (joinedEvidence arith cases timeline window fileTail config anchor ext d).2.2.2
              fileWindow := offsetWindow anchor (floorContext timeline window anchor config d).1 ext
              extension := ext.map (·.summary)
              powerFailWindowCut := (evalEnd timeline window).2.1
              degradation := lastFlags arith cases timeline window fileTail config anchor ext d } := by
  unfold computeStopSet
  rw [bind_eq_ok]
  constructor
  · rintro ⟨anchor, hanchor, h⟩
    obtain ⟨⟨ext, d⟩, hrun, h⟩ := bind_eq_ok.mp h
    refine ⟨anchor, ext, d, required_eq_ok.mp hanchor, hrun, ?_⟩
    cases h
    rfl
  · rintro ⟨anchor, ext, d, hanchor, hrun, rfl⟩
    refine ⟨anchor, required_eq_ok.mpr hanchor, ?_⟩
    exact bind_eq_ok.mpr ⟨(ext, d), hrun, rfl⟩

/-- The box of the journal with the box of the extension. -/
def joinXy (wal ext : Option (XyRegion K)) : Option (XyRegion K) :=
  match ext, wal with
  | some e, some w => some (w.union e)
  | some e, none => some e
  | none, xy => xy

theorem joinXy_within {wal' wal ext' ext : Option (XyRegion K)} (hwal : WithinXy wal' wal)
    (hext : WithinXy ext' ext) : WithinXy (joinXy wal' ext') (joinXy wal ext) := by
  have hleft : WithinXy wal (joinXy wal ext) := by
    rintro w rfl
    cases ext with
    | none => exact ⟨w, rfl, XyRegion.subset_refl w⟩
    | some e => exact ⟨w.union e, rfl, XyRegion.subset_union_left⟩
  have hright : WithinXy ext (joinXy wal ext) := by
    rintro e rfl
    cases wal with
    | none => exact ⟨e, rfl, XyRegion.subset_refl e⟩
    | some w => exact ⟨w.union e, rfl, XyRegion.subset_union_right⟩
  have hwal' := hwal.trans hleft
  have hext' := hext.trans hright
  cases ext' with
  | none => exact hwal'
  | some e' =>
    cases wal' with
    | none => exact hext'
    | some w' =>
      obtain ⟨r, hr, hw⟩ := hwal' w' rfl
      obtain ⟨r', hr', he⟩ := hext' e' rfl
      obtain rfl : r = r' := Option.some.inj (hr.symm.trans hr')
      rintro q hq
      obtain rfl : w'.union e' = q := Option.some.inj hq
      exact ⟨r, hr, XyRegion.union_subset hw he⟩

theorem joinExtension_inside {wal' wal : ToolheadSpan K}
    {walE' walE file' file : Option (Interval K)} (hwal : wal'.Inside wal) (hE : Within walE' walE)
    (hfile : Within file' file) (h : ExtensionsInside anchor ext' ext) :
    (∀ c ∈ (joinExtension wal' walE' file' ext').1, ∃ b ∈ (joinExtension wal walE file ext).1,
        c.z ⊆ b.z) ∧
      WithinXy (joinExtension wal' walE' file' ext').2.1 (joinExtension wal walE file ext).2.1 ∧
      Within (joinExtension wal' walE' file' ext').2.2.1
        (joinExtension wal walE file ext).2.2.1 ∧
      Within (joinExtension wal' walE' file' ext').2.2.2
        (joinExtension wal walE file ext).2.2.2 := by
  cases h with
  | unavailable => exact ⟨hwal.z, hwal.xy, hE, hfile⟩
  | @available vsd r' r hvsd h =>
    refine ⟨?_, ?_, hE.union_mono h.eInternal, hfile.union_mono h.eFile⟩
    · intro c hc
      rcases List.mem_append.mp hc with hc | hc
      · obtain ⟨b, hb, hsub⟩ := hwal.z c hc
        exact ⟨b, List.mem_append_left _ hb, hsub⟩
      · exact ⟨c, List.mem_append_right _ (h.z c hc), Interval.subset_refl _⟩
    · have hjoined : WithinXy (joinXy wal'.xy r'.xy) (joinXy wal.xy r.xy) :=
        joinXy_within hwal.xy h.xy
      exact hjoined

end Joining

section Edge

variable {K : Type} [Field K] [LinearOrder K] {timeline : WalTimeline K} {window : StopWindow K}
  {markers before after : List Marker} {edge : ℕ}

/-- The recording with other markers. -/
def WalTimeline.withMarkers (t : WalTimeline K) (markers : List Marker) : WalTimeline K :=
  { t with markers := markers }

/-- One more edge in a recording without one counts unless something outlived it. -/
theorem powerFailingTail_edge (hmarkers : timeline.markers = before ++ after)
    (hnone : timeline.powerFailingTail = none) :
    (timeline.withMarkers (before ++ ⟨edge, .powerFailing⟩ :: after)).powerFailingTail =
      if timeline.edgeStands edge then some edge else none := by
  have hempty : ((((before ++ after).filter fun m => m.kind = .powerFailing).map (·.monoNs)).filter
      timeline.edgeStands) = [] := by
    rw [← hmarkers]
    exact List.max?_eq_none_iff.mp hnone
  rw [List.filter_append, List.map_append, List.filter_append, List.append_eq_nil_iff] at hempty
  have hedges : (((before ++ ⟨edge, .powerFailing⟩ :: after).filter fun m =>
      m.kind = .powerFailing).map (·.monoNs)).filter timeline.edgeStands =
      [edge].filter timeline.edgeStands := by
    rw [List.filter_append, List.map_append, List.filter_append, hempty.1, List.nil_append,
      List.filter_cons_of_pos (by rfl), List.map_cons, List.filter_cons, hempty.2, List.filter_cons,
      List.filter_nil]
  have htail : (timeline.withMarkers (before ++ ⟨edge, .powerFailing⟩ :: after)).powerFailingTail =
      ([edge].filter timeline.edgeStands).max? := by
    rw [← hedges]
    rfl
  rw [htail, List.filter_cons]
  split <;> rfl

/-- An edge that is not newer than the one that counts does not count. -/
theorem powerFailingTail_older {newest : ℕ} (hmarkers : timeline.markers = before ++ after)
    (hnewest : timeline.powerFailingTail = some newest) (hle : edge ≤ newest) :
    (timeline.withMarkers (before ++ ⟨edge, .powerFailing⟩ :: after)).powerFailingTail =
      some newest := by
  have hmember : ∀ e, e ∈ ((((before ++ ⟨edge, .powerFailing⟩ :: after).filter fun m =>
      m.kind = .powerFailing).map (·.monoNs)).filter timeline.edgeStands) →
      e = edge ∨ e ∈ (((timeline.markers.filter fun m => m.kind = .powerFailing).map
        (·.monoNs)).filter timeline.edgeStands) := by
    intro e he
    rw [hmarkers]
    simp only [List.mem_filter, List.mem_map, List.mem_append, List.mem_cons] at he ⊢
    obtain ⟨⟨m, ⟨hm | rfl | hm, hkind⟩, rfl⟩, hstands⟩ := he
    · exact .inr ⟨⟨m, ⟨.inl hm, hkind⟩, rfl⟩, hstands⟩
    · exact .inl rfl
    · exact .inr ⟨⟨m, ⟨.inr hm, hkind⟩, rfl⟩, hstands⟩
  obtain ⟨hmem, hmax⟩ := List.max?_eq_some_iff.mp hnewest
  apply List.max?_eq_some_iff.mpr
  constructor
  · rw [hmarkers] at hmem
    simp only [List.mem_filter, List.mem_map, List.mem_append] at hmem
    obtain ⟨⟨m, ⟨hm, hkind⟩, rfl⟩, hstands⟩ := hmem
    refine List.mem_filter.mpr ⟨List.mem_map_of_mem (List.mem_filter.mpr ⟨?_, hkind⟩), hstands⟩
    rcases hm with hm | hm
    · exact List.mem_append_left _ hm
    · exact List.mem_append_right _ (List.mem_cons_of_mem _ hm)
  · intro e he
    rcases hmember e he with rfl | he
    · exact hle
    · exact hmax e he

/-- The edge is no gap in the observation. -/
theorem observationGap_edge (config : ReconstructConfig K)
    (hmarkers : timeline.markers = before ++ after) :
    observationGapOverlapsWindow (timeline.withMarkers (before ++ ⟨edge, .powerFailing⟩ :: after))
        window config = observationGapOverlapsWindow timeline window config := by
  unfold observationGapOverlapsWindow
  rw [hmarkers]
  unfold WalTimeline.withMarkers
  dsimp only
  rw [List.filter_append, List.filter_append, List.filter_cons_of_neg Bool.false_ne_true]

/-- Where the evaluation ends when nothing cuts it. -/
def plannedEnd (timeline : WalTimeline K) (window : StopWindow K) : K :=
  match timeline.trapqEndTime with
  | some stop => max stop window.tB
  | none => window.tB

theorem tB_le_plannedEnd : window.tB ≤ plannedEnd timeline window := by
  unfold plannedEnd
  split
  · exact le_max_right _ _
  · exact le_rfl

/-- The planned motion ends by then. -/
theorem endTime_le_plannedEnd {s : Segment K}
    (hs : s ∈ timeline.toolheadSegments ++ timeline.extruderSegments) (hstamp : s.monoNs < 2 ^ 64) :
    s.endTime ≤ plannedEnd timeline window := by
  have hmem : s.endTime ∈ ((timeline.toolheadSegments ++ timeline.extruderSegments).filter fun s =>
      s.monoNs ≤ 2 ^ 64 - 1).map Segment.endTime := by
    refine List.mem_map_of_mem (List.mem_filter.mpr ⟨hs, ?_⟩)
    exact decide_eq_true (Nat.le_sub_one_of_lt hstamp)
  have hend : timeline.trapqEndTime = (((timeline.toolheadSegments ++
      timeline.extruderSegments).filter fun s => s.monoNs ≤ 2 ^ 64 - 1).map Segment.endTime).max? :=
    rfl
  unfold plannedEnd
  rw [hend]
  cases hmax : (((timeline.toolheadSegments ++ timeline.extruderSegments).filter fun s =>
      s.monoNs ≤ 2 ^ 64 - 1).map Segment.endTime).max? with
  | none =>
    rw [List.max?_eq_none_iff] at hmax
    rw [hmax] at hmem
    cases hmem
  | some stop => exact ((List.max?_eq_some_iff.mp hmax).2 _ hmem).trans (le_max_left _ _)

theorem evalEnd_none (h : powerFailCutPt timeline window = none) :
    evalEnd timeline window = (plannedEnd timeline window, none, false) := by
  unfold evalEnd
  rw [h]
  rfl

theorem evalEnd_cut {cut : K} (h : powerFailCutPt timeline window = some cut)
    (hcut : window.tB ≤ cut) :
    evalEnd timeline window = (min (plannedEnd timeline window) cut, some cut, false) := by
  unfold evalEnd
  rw [h]
  dsimp only
  rw [if_pos hcut]
  rfl

theorem evalEnd_degenerate {cut : K} (h : powerFailCutPt timeline window = some cut)
    (hcut : cut < window.tB) :
    evalEnd timeline window = (plannedEnd timeline window, none, true) := by
  unfold evalEnd
  rw [h]
  dsimp only
  rw [if_neg hcut.not_ge]
  rfl

/-- A cut only takes time away. -/
theorem frontierDt_le {timeline' : WalTimeline K} (config : ReconstructConfig K)
    (hnone : powerFailCutPt timeline window = none) (pt : K) (spacing : ℕ) :
    frontierDt timeline' window pt config spacing ≤ frontierDt timeline window pt config spacing := by
  unfold frontierDt powerFailDt
  rw [hnone]
  cases powerFailCutPt timeline' window with
  | none => exact le_rfl
  | some cut => exact min_le_left _ _

end Edge

section Degenerate

variable {K : Type} [Field K] [LinearOrder K] {arith : Arithmetic K} {cases : CaseMapping}
  {timeline : WalTimeline K} {window : StopWindow K} {anchor : Context}
  {config : ReconstructConfig K} {fileTail : Option FileTail} {markers : List Marker}
  {ext' ext : Option (ExtensionResult K)}

/-- The flags with the refused cut noted. -/
def Degradation.degenerate (d : Degradation) : Degradation := { d with powerFailCutDegenerate := true }

/-- A contribution without its cap. -/
def ExtensionResult.uncapped (r : ExtensionResult K) : ExtensionResult K :=
  { r with summary := { r.summary with frontierCap := none } }

variable {d' d : Degradation}

theorem extensionStartTime_degenerate (anchorPt : Option K) (h : d' = d.degenerate) :
    (extensionStartTime (timeline.withMarkers markers) window anchor anchorPt config d').2 =
      (extensionStartTime timeline window anchor anchorPt config d).2.degenerate := by
  subst h
  have hjournaled : (timeline.withMarkers markers).trapqEndTimeJournaledBy anchor.monoNs =
      timeline.trapqEndTimeJournaledBy anchor.monoNs := rfl
  unfold extensionStartTime
  dsimp only
  rw [hjournaled]
  split <;> rfl

theorem extensionZCandidates_degenerate (state : Gcode.GcodeState K) (consumed : List Line)
    (h : d' = d.degenerate) :
    (extensionZCandidates arith state consumed d').2 =
      (extensionZCandidates arith state consumed d).2.degenerate := by
  subst h
  unfold extensionZCandidates
  dsimp only
  split <;> rfl

theorem extensionXyE_degenerate (state : Gcode.GcodeState K) (moves : List (Gcode.TimedMove K))
    (h : d' = d.degenerate) :
    (extensionXyE arith state moves d').2.2 =
      (extensionXyE arith state moves d).2.2.degenerate := by
  subst h
  unfold extensionXyE
  dsimp only
  split <;> rfl

theorem extensionFileE_degenerate (state : Gcode.GcodeState K) (consumed : List Line)
    (h : d' = d.degenerate) :
    (extensionFileE arith state consumed d').2 =
      (extensionFileE arith state consumed d).2.degenerate := by
  subst h
  unfold extensionFileE
  dsimp only
  split <;> rfl

/-- The flags do not matter for the floor, nor do the markers. -/
theorem floorContext_fst (d' d : Degradation) :
    (floorContext (timeline.withMarkers markers) window anchor config d').1 =
      (floorContext timeline window anchor config d).1 := by
  have hcontexts : (timeline.withMarkers markers).contexts = timeline.contexts := rfl
  unfold floorContext
  rw [hcontexts]
  split
  · rfl
  · dsimp only
    split <;> rfl

theorem floorContext_degenerate (h : d' = d.degenerate) :
    floorContext (timeline.withMarkers markers) window anchor config d' =
      ((floorContext timeline window anchor config d).1,
        (floorContext timeline window anchor config d).2.degenerate) := by
  have hcontexts : (timeline.withMarkers markers).contexts = timeline.contexts := rfl
  subst h
  unfold floorContext
  rw [hcontexts]
  split
  · rfl
  · dsimp only
    split <;> rfl

/-- The markers change only the cap of what the extension contributes. -/
theorem extendFrom_uncapped (frontier : ℕ) (state : Gcode.GcodeState K) (walEvalEnd : K)
    (tail : FileTail) (d' d : Degradation) :
    (extendFrom arith cases (timeline.withMarkers markers) anchor frontier state window walEvalEnd
        tail config d').1.uncapped =
      (extendFrom arith cases timeline anchor frontier state window walEvalEnd tail config
        d).1.uncapped := by
  have hstart : ∀ anchorPt d', (extensionStartTime (timeline.withMarkers markers) window anchor
      anchorPt config d').1 = (extensionStartTime timeline window anchor anchorPt config .none).1 :=
    fun anchorPt d' => extensionStartTime_fst anchorPt d'
  unfold extendFrom ExtensionResult.uncapped
  dsimp only
  rw [hstart]
  conv_rhs => rw [extensionStartTime_fst]
  rfl

/-- The flag changes none of the others. -/
theorem extendFrom_degenerate (frontier : ℕ) (state : Gcode.GcodeState K) (walEvalEnd : K)
    (tail : FileTail) (h : d' = d.degenerate) :
    (extendFrom arith cases (timeline.withMarkers markers) anchor frontier state window walEvalEnd
        tail config d').2 =
      (extendFrom arith cases timeline anchor frontier state window walEvalEnd tail config
        d).2.degenerate := by
  have hunknown : (if (window.monoNsToPrintTime anchor.monoNs).isNone then
      { d' with anchorTimeUnknown := true } else d') =
      (if (window.monoNsToPrintTime anchor.monoNs).isNone then
        { d with anchorTimeUnknown := true } else d).degenerate := by
    subst h
    split <;> rfl
  have hsimulated : ∀ {d' d : Degradation} (budget capped failed : Bool), d' = d.degenerate →
      { d' with
        extensionTruncated := d'.extensionTruncated || budget || capped
        extensionError := failed } =
        { d with
          extensionTruncated := d.extensionTruncated || budget || capped
          extensionError := failed }.degenerate := by
    rintro _ d budget capped failed rfl
    rfl
  have hstart : ∀ anchorPt d', (extensionStartTime (timeline.withMarkers markers) window anchor
      anchorPt config d').1 = (extensionStartTime timeline window anchor anchorPt config .none).1 :=
    fun anchorPt d' => extensionStartTime_fst anchorPt d'
  unfold extendFrom
  dsimp only
  rw [hstart]
  conv_rhs => rw [extensionStartTime_fst]
  apply extensionFileE_degenerate
  apply extensionXyE_degenerate
  apply extensionZCandidates_degenerate
  apply hsimulated
  exact extensionStartTime_degenerate _ hunknown

theorem fileFrameE_degenerate {walE : Option (Interval K)} {floor : Option FloorContext}
    (hext : ext'.bind (·.summary.resumeOffset) = ext.bind (·.summary.resumeOffset))
    (h : d' = d.degenerate) :
    fileFrameE arith cases (timeline.withMarkers markers) window anchor floor ext' fileTail walE
        config d' =
      ((fileFrameE arith cases timeline window anchor floor ext fileTail walE config d).1,
        (fileFrameE arith cases timeline window anchor floor ext fileTail walE config
          d).2.degenerate) := by
  have hconvert : ∀ i : Interval K, convertEToFileFrame i (timeline.withMarkers markers) window anchor
      config = convertEToFileFrame i timeline window anchor config := fun _ => rfl
  subst h
  unfold fileFrameE
  dsimp only
  rw [hext]
  simp only [hconvert]
  split
  · rfl
  · split
    · rfl
    · split <;> rfl

theorem runExtension_degenerate (markers : List Marker) {walEvalEnd : K} {next : Degradation}
    (hrun : runExtension arith cases timeline anchor window walEvalEnd fileTail config d =
      .ok (ext, next)) (h : d' = d.degenerate) :
    ∃ ext', runExtension arith cases (timeline.withMarkers markers) anchor window walEvalEnd fileTail
        config d' = .ok (ext', next.degenerate) ∧
      ext'.map ExtensionResult.uncapped = ext.map ExtensionResult.uncapped := by
  rcases runExtension_cases hrun with ⟨rfl, rfl, hnone⟩ |
    ⟨vsd, tail, state, hvsd, rfl, hbase, hend, hstate, rfl, rfl⟩
  · refine ⟨none, ?_, rfl⟩
    rw [runExtension_none hnone, h]
    rfl
  · have hrun' : runExtension arith cases (timeline.withMarkers markers) anchor window walEvalEnd
        (some tail) config d' = .ok (_, _) := runExtension_some hvsd hbase hend hstate
    rw [extendFrom_degenerate vsd.filePosition state walEvalEnd tail h] at hrun'
    exact ⟨_, hrun', congrArg some (extendFrom_uncapped vsd.filePosition state walEvalEnd tail d' d)⟩

end Degenerate

section Claim

variable {K : Type} [Field K] [LinearOrder K] [IsStrictOrderedRing K] {arith : Arithmetic K}
  {cases : CaseMapping} {timeline : WalTimeline K} {window : StopWindow K}
  {config : ReconstructConfig K} {fileTail : Option FileTail} {markers before after : List Marker}
  {edge : ℕ} {S : PossibleStopSet K} {ext' ext : Option (ExtensionResult K)}

/-- What a stop set allows lies in what another one allows, heights within the tolerance. -/
structure PossibleStopSet.Inside (S' S : PossibleStopSet K) (tol : K) : Prop where
  z : ∀ c' ∈ S'.zCandidates, ∀ v ∈ c'.z, ∃ c ∈ S.zCandidates, c.z.contains v tol
  xy : WithinXy S'.xy S.xy
  eInternal : Within S'.eInternal S.eInternal
  eFile : Within S'.eFile S.eFile

/-- The stop set without what the refused cut decides: its flag, the cap of the frontier, and the
window of the file. -/
def PossibleStopSet.apartFromCut (S : PossibleStopSet K) : PossibleStopSet K :=
  { S with
    fileWindow := none
    extension := S.extension.map fun e => { e with frontierCap := none }
    degradation := S.degradation.degenerate }

/-- No context of the last one's file that is old enough lies behind its frontier. -/
def FloorBehindFrontier (timeline : WalTimeline K) (window : StopWindow K)
    (config : ReconstructConfig K) : Prop :=
  ∀ anchor ∈ timeline.contexts.getLast?, ∀ vsd ∈ anchor.virtualSdcard, ∀ c ∈ timeline.contexts,
    OldEnough window config vsd.filePath c → fpOf c ≤ vsd.filePosition

/-- Markers that leave the cut where it is change nothing. -/
theorem computeStopSet_withMarkers (arith : Arithmetic K) (cases : CaseMapping)
    (fileTail : Option FileTail)
    (hcut : powerFailCutPt (timeline.withMarkers markers) window = powerFailCutPt timeline window)
    (hgap : observationGapOverlapsWindow (timeline.withMarkers markers) window config =
      observationGapOverlapsWindow timeline window config) :
    computeStopSet arith cases (timeline.withMarkers markers) window fileTail config =
      computeStopSet arith cases timeline window fileTail config := by
  have hend : evalEnd (timeline.withMarkers markers) window = evalEnd timeline window := by
    unfold evalEnd
    rw [hcut]
    rfl
  have hdt : ∀ pt spacing, frontierDt (timeline.withMarkers markers) window pt config spacing =
      frontierDt timeline window pt config spacing := by
    intro pt spacing
    unfold frontierDt powerFailDt
    rw [hcut]
  have hextend : ∀ anchor position state walEvalEnd tail d,
      extendFrom arith cases (timeline.withMarkers markers) anchor position state window walEvalEnd
        tail config d =
      extendFrom arith cases timeline anchor position state window walEvalEnd tail config d := by
    intro anchor position state walEvalEnd tail d
    unfold extendFrom frontierCapOffset
    simp only [hdt]
    rfl
  unfold computeStopSet
  rw [hend, hgap]
  unfold runExtension
  simp only [hextend]
  rfl

/-- The evaluation ends no earlier than the committed motion and no later than the planned one, and
earlier only with a cut. -/
theorem evalEnd_between (timeline : WalTimeline K) (window : StopWindow K) :
    window.tB ≤ (evalEnd timeline window).1 ∧
      (evalEnd timeline window).1 ≤ plannedEnd timeline window ∧
      ((evalEnd timeline window).2.1.isSome = true ∨
        (evalEnd timeline window).1 = plannedEnd timeline window ∧
          (evalEnd timeline window).2.1 = none) := by
  have hplanned : window.tB ≤ plannedEnd timeline window := tB_le_plannedEnd
  cases hcut : powerFailCutPt timeline window with
  | none =>
    rw [evalEnd_none hcut]
    exact ⟨hplanned, le_rfl, .inr ⟨rfl, rfl⟩⟩
  | some cut =>
    rcases le_or_gt window.tB cut with hle | hlt
    · rw [evalEnd_cut hcut hle]
      exact ⟨le_min hplanned hle, min_le_left _ _, .inl rfl⟩
    · rw [evalEnd_degenerate hcut hlt]
      exact ⟨hplanned, le_rfl, .inr ⟨rfl, rfl⟩⟩

theorem ToolheadSpan.inside_refl (e : ToolheadSpan K) : e.Inside e where
  z := fun c hc => ⟨c, hc, Interval.subset_refl _⟩
  xy := fun r hr => ⟨r, hr, XyRegion.subset_refl r⟩

/-- Markers only narrow the stop set of a recording without a cut. -/
theorem withMarkers_narrows (hset : computeStopSet arith cases timeline window fileTail config = .ok S)
    (hbounds : window.tA ≤ window.tB) (htol : 0 ≤ config.zMergeTolerance)
    (hsegments : ∀ s ∈ timeline.toolheadSegments ++ timeline.extruderSegments,
      0 ≤ s.duration ∧ s.monoNs < 2 ^ 64)
    (hcut : powerFailCutPt timeline window = none)
    (hgap : observationGapOverlapsWindow (timeline.withMarkers markers) window config =
      observationGapOverlapsWindow timeline window config) :
    ∃ S', computeStopSet arith cases (timeline.withMarkers markers) window fileTail config = .ok S' ∧
      S'.walEvalEnd = (evalEnd (timeline.withMarkers markers) window).1 ∧
      S.walEvalEnd = plannedEnd timeline window ∧
      S'.Inside S config.zMergeTolerance ∧
      (FloorBehindFrontier timeline window config → ∀ w' ∈ S'.fileWindow, ∃ w ∈ S.fileWindow,
        w.start ≤ w'.start ∧ w'.stop ≤ w.stop) := by
  set timeline' := timeline.withMarkers markers with htimeline'
  obtain ⟨anchor, ext, d, hanchor, hrun, rfl⟩ := computeStopSet_ok_iff.mp hset
  obtain ⟨hlow, hhigh, hcollapse⟩ := evalEnd_between timeline' window
  have hplanned : plannedEnd timeline' window = plannedEnd timeline window := rfl
  have hend := evalEnd_none hcut
  rw [hplanned] at hhigh hcollapse
  rw [hend] at hrun
  have hspan : extensionSpan timeline' window anchor (evalEnd timeline' window).1 config ≤
      extensionSpan timeline window anchor (plannedEnd timeline window) config := by
    have hlater := sub_le_sub_right hhigh (extensionStartTime timeline window anchor
      (window.monoNsToPrintTime anchor.monoNs) config .none).1
    exact add_le_add_right (max_le_max_right 0 hlater) _
  have hdt : ∀ pt spacing, frontierDt timeline' window pt config spacing ≤
      frontierDt timeline window pt config spacing := frontierDt_le config hcut
  have hflags : (firstFlags timeline' window config).observationGap =
      (firstFlags timeline window config).observationGap := hgap
  obtain ⟨ext', d', hrun', hext⟩ := runExtension_inside hspan rfl hdt hflags hrun
  have hfloor : (floorContext timeline' window anchor config d').1 =
      (floorContext timeline window anchor config d).1 := floorContext_fst d' d
  refine ⟨_, computeStopSet_ok_iff.mpr ⟨anchor, ext', d', hanchor, hrun', rfl⟩, rfl, ?_, ?_, ?_⟩
  · exact congrArg (·.1) hend
  · have hevidence : ∀ s ∈ timeline.toolheadSegments ++ timeline.extruderSegments,
        0 ≤ s.duration ∧ s.endTime ≤ plannedEnd timeline window := by
      intro s hs
      obtain ⟨hduration, hstamp⟩ := hsegments s hs
      exact ⟨hduration, endTime_le_plannedEnd hs hstamp⟩
    have hstart := hbounds.trans hlow
    have hwal : (evalToolheadSpan timeline.toolheadSegments window.tA (evalEnd timeline' window).1
        (evalEnd timeline' window).2.1.isSome).Inside (evalToolheadSpan timeline.toolheadSegments
          window.tA (plannedEnd timeline window) false) := by
      rcases hcollapse with hactive | ⟨hsame, hinactive⟩
      · rw [hactive]
        exact evalToolheadSpan_narrows hhigh hstart fun s hs =>
          hevidence s (List.mem_append_left _ hs)
      · rw [hsame, hinactive]
        exact ToolheadSpan.inside_refl _
    have hwalE : Within (evalExtruderSpan timeline.extruderSegments window.tA
        (evalEnd timeline' window).1 (evalEnd timeline' window).2.1.isSome)
        (evalExtruderSpan timeline.extruderSegments window.tA (plannedEnd timeline window) false) := by
      rcases hcollapse with hactive | ⟨hsame, hinactive⟩
      · rw [hactive]
        exact evalExtruderSpan_narrows hhigh hstart fun s hs =>
          hevidence s (List.mem_append_right _ hs)
      · rw [hsame, hinactive]
        exact Within.refl _
    set now' := joinedEvidence arith cases timeline' window fileTail config anchor ext' d' with hnow'
    set now := joinedEvidence arith cases timeline window fileTail config anchor ext d with hnow
    obtain ⟨hz, hxy, hinternal, hfile⟩ : (∀ c ∈ now'.1, ∃ b ∈ now.1, c.z ⊆ b.z) ∧
        WithinXy now'.2.1 now.2.1 ∧ Within now'.2.2.1 now.2.2.1 ∧ Within now'.2.2.2 now.2.2.2 := by
      rw [hnow', hnow]
      unfold joinedEvidence
      rw [hend, hfloor]
      exact joinExtension_inside hwal hwalE
        (fileFrameE_within (evalExtruderSpan_nonempty _) hwalE rfl hext) hext
    refine ⟨?_, hxy, hinternal, hfile⟩
    intro c' hc' v hv
    obtain ⟨b, hb, hsub⟩ := hz c' (mem_of_mem_mergeZCandidates hc')
    exact mergeZCandidates_contains htol hb (Interval.mem_of_subset hsub hv)
  · intro hbehind w' hw'
    obtain ⟨vsd, hvsd⟩ : ∃ vsd, anchor.virtualSdcard = some vsd := by
      cases hvsd : anchor.virtualSdcard with
      | none =>
        have hnowindow : offsetWindow anchor (floorContext timeline' window anchor config d').1 ext' =
            none := by
          unfold offsetWindow
          rw [hvsd]
          rfl
        rw [hnowindow] at hw'
        cases hw'
      | some vsd => exact ⟨vsd, rfl⟩
    have hlow : ((floorContext timeline window anchor config d).1.map (·.filePosition)).getD
        vsd.filePosition ≤ vsd.filePosition :=
      (floorContext_le_iff (List.mem_of_getLast? hanchor) hvsd).mpr
        (hbehind anchor hanchor vsd hvsd)
    obtain ⟨w₁, w, hw₁, hw, hinside⟩ := offsetWindow_within hvsd hext hlow
    rw [hfloor, hw₁, Option.mem_some] at hw'
    subst hw'
    exact ⟨w, hw, hinside⟩

theorem uncapped_cases (h : ext'.map ExtensionResult.uncapped = ext.map ExtensionResult.uncapped) :
    (ext' = none ∧ ext = none) ∨ ∃ r' r, ext' = some r' ∧ ext = some r ∧ r'.uncapped = r.uncapped := by
  cases ext' with
  | none =>
    cases ext with
    | none => exact .inl ⟨rfl, rfl⟩
    | some r => cases h
  | some r' =>
    cases ext with
    | none => cases h
    | some r => exact .inr ⟨r', r, rfl, rfl, Option.some.inj h⟩

theorem uncapped_resume (h : ext'.map ExtensionResult.uncapped = ext.map ExtensionResult.uncapped) :
    ext'.bind (·.summary.resumeOffset) = ext.bind (·.summary.resumeOffset) := by
  rcases uncapped_cases h with ⟨rfl, rfl⟩ | ⟨r', r, rfl, rfl, hsame⟩
  · rfl
  · exact congrArg (·.summary.resumeOffset) hsame

theorem joinExtension_uncapped {wal : ToolheadSpan K} {walE eFile : Option (Interval K)}
    (h : ext'.map ExtensionResult.uncapped = ext.map ExtensionResult.uncapped) :
    joinExtension wal walE eFile ext' = joinExtension wal walE eFile ext := by
  rcases uncapped_cases h with ⟨rfl, rfl⟩ | ⟨r', r, rfl, rfl, hsame⟩
  · rfl
  · have hz : r'.z = r.z := congrArg (·.z) hsame
    have hxy : r'.xy = r.xy := congrArg (·.xy) hsame
    have hinternal : r'.eInternal = r.eInternal := congrArg (·.eInternal) hsame
    have hfile : r'.eFile = r.eFile := congrArg (·.eFile) hsame
    unfold joinExtension
    dsimp only
    rw [hz, hxy, hinternal, hfile]

/-- A refused cut changes its flag, and what hangs on the cap of the frontier. -/
theorem withMarkers_degenerate {S' : PossibleStopSet K}
    (hset : computeStopSet arith cases timeline window fileTail config = .ok S)
    (hset' : computeStopSet arith cases (timeline.withMarkers markers) window fileTail config = .ok S')
    (hend : evalEnd timeline window = (plannedEnd timeline window, none, false))
    (hend' : evalEnd (timeline.withMarkers markers) window =
      (plannedEnd timeline window, none, true))
    (hgap : observationGapOverlapsWindow (timeline.withMarkers markers) window config =
      observationGapOverlapsWindow timeline window config) : S'.apartFromCut = S.apartFromCut := by
  set timeline' := timeline.withMarkers markers with htimeline'
  obtain ⟨anchor, ext, d, hanchor, hrun, rfl⟩ := computeStopSet_ok_iff.mp hset
  obtain ⟨anchor', ext', d', hanchor', hrun', rfl⟩ := computeStopSet_ok_iff.mp hset'
  obtain rfl : anchor = anchor' := Option.some.inj (hanchor.symm.trans hanchor')
  have hflags : firstFlags timeline' window config = (firstFlags timeline window config).degenerate := by
    unfold firstFlags
    rw [hgap, hend, hend']
    rfl
  rw [hend] at hrun
  rw [hend'] at hrun'
  obtain ⟨ext₁, hrun₁, hext⟩ := runExtension_degenerate markers hrun hflags
  rw [← htimeline', hrun', Except.ok.injEq, Prod.mk.injEq] at hrun₁
  obtain ⟨rfl, rfl⟩ := hrun₁
  have hresume := uncapped_resume hext
  have hfloor : floorContext timeline' window anchor config d.degenerate =
      ((floorContext timeline window anchor config d).1,
        (floorContext timeline window anchor config d).2.degenerate) := floorContext_degenerate rfl
  have hfile : ∀ walE, fileFrameE arith cases timeline' window anchor
      (floorContext timeline window anchor config d).1 ext' fileTail walE config
      (floorContext timeline window anchor config d).2.degenerate =
      ((fileFrameE arith cases timeline window anchor
        (floorContext timeline window anchor config d).1 ext fileTail walE config
        (floorContext timeline window anchor config d).2).1,
      (fileFrameE arith cases timeline window anchor
        (floorContext timeline window anchor config d).1 ext fileTail walE config
        (floorContext timeline window anchor config d).2).2.degenerate) :=
    fun walE => fileFrameE_degenerate hresume rfl
  have hjoined : joinedEvidence arith cases timeline' window fileTail config anchor ext' d.degenerate =
      joinedEvidence arith cases timeline window fileTail config anchor ext d := by
    unfold joinedEvidence
    rw [hend, hend', hfloor]
    dsimp only
    have hwalE : timeline'.extruderSegments = timeline.extruderSegments := rfl
    have hwal : timeline'.toolheadSegments = timeline.toolheadSegments := rfl
    rw [hwal, hwalE, hfile, joinExtension_uncapped hext]
  have hlast : lastFlags arith cases timeline' window fileTail config anchor ext' d.degenerate =
      (lastFlags arith cases timeline window fileTail config anchor ext d).degenerate := by
    unfold lastFlags
    rw [hend, hend', hfloor]
    dsimp only
    have hwalE : timeline'.extruderSegments = timeline.extruderSegments := rfl
    rw [hwalE, hfile]
    rfl
  have hsummary : (ext'.map (·.summary)).map (fun e => { e with frontierCap := none }) =
      (ext.map (·.summary)).map fun e => { e with frontierCap := none } := by
    rcases uncapped_cases hext with ⟨rfl, rfl⟩ | ⟨r', r, rfl, rfl, hsame⟩
    · rfl
    · exact congrArg (fun r => some r.summary) hsame
  unfold PossibleStopSet.apartFromCut
  dsimp only
  rw [hjoined, hlast, hsummary, hend, hend']
  rfl

theorem PossibleStopSet.inside_refl (S : PossibleStopSet K) {tol : K} (htol : 0 ≤ tol) :
    S.Inside S tol where
  z := by
    intro c hc v hv
    exact ⟨c, hc, (sub_le_self _ htol).trans hv.1, hv.2.trans (le_add_of_nonneg_right htol)⟩
  xy := fun r hr => ⟨r, hr, XyRegion.subset_refl r⟩
  eInternal := Within.refl _
  eFile := Within.refl _

/-- One more edge only narrows the stop set, unless it is newer than one that has cut it. -/
theorem edge_narrows (before after : List Marker) (edge : ℕ)
    (hset : computeStopSet arith cases timeline window fileTail config = .ok S)
    (hbounds : window.tA ≤ window.tB) (htol : 0 ≤ config.zMergeTolerance)
    (hsegments : ∀ s ∈ timeline.toolheadSegments ++ timeline.extruderSegments,
      0 ≤ s.duration ∧ s.monoNs < 2 ^ 64)
    (hmarkers : timeline.markers = before ++ after)
    (hnewest : ∀ newest ∈ timeline.powerFailingTail, edge ≤ newest) :
    ∃ S', computeStopSet arith cases (timeline.withMarkers (before ++ ⟨edge, .powerFailing⟩ :: after))
        window fileTail config = .ok S' ∧
      window.tB ≤ S'.walEvalEnd ∧ S'.walEvalEnd ≤ S.walEvalEnd ∧
      (timeline.edgeStands edge = false → S' = S) ∧
      (∀ pt ∈ window.monoNsToPrintTime edge, pt + powerFailHoldUpMarginS < window.tB →
        S'.apartFromCut = S.apartFromCut) ∧
      S'.Inside S config.zMergeTolerance ∧
      (FloorBehindFrontier timeline window config → ∀ w' ∈ S'.fileWindow, ∃ w ∈ S.fileWindow,
        w.start ≤ w'.start ∧ w'.stop ≤ w.stop) := by
  set timeline' := timeline.withMarkers (before ++ ⟨edge, .powerFailing⟩ :: after) with htimeline'
  have hgap : observationGapOverlapsWindow timeline' window config =
      observationGapOverlapsWindow timeline window config := observationGap_edge config hmarkers
  obtain ⟨hlow, hhigh, -⟩ := evalEnd_between timeline' window
  -- With the cut where it was, nothing changes.
  have hunchanged : powerFailCutPt timeline' window = powerFailCutPt timeline window →
      computeStopSet arith cases timeline' window fileTail config = .ok S := fun hcut =>
    (computeStopSet_withMarkers arith cases fileTail hcut hgap).trans hset
  cases hnone : timeline.powerFailingTail with
  | some newest =>
    have hcut : powerFailCutPt timeline' window = powerFailCutPt timeline window := by
      unfold powerFailCutPt
      rw [powerFailingTail_older hmarkers hnone (hnewest newest hnone), hnone]
    have hend : S.walEvalEnd = (evalEnd timeline' window).1 := by
      obtain ⟨anchor, ext, d, -, -, rfl⟩ := computeStopSet_ok_iff.mp (hunchanged hcut)
      rfl
    exact ⟨S, hunchanged hcut, hlow.trans_eq hend.symm, le_rfl, fun _ => rfl, fun _ _ _ => rfl,
      S.inside_refl htol, fun _ w hw => ⟨w, hw, le_rfl, le_rfl⟩⟩
  | none =>
    have hcut : powerFailCutPt timeline window = none := by
      unfold powerFailCutPt
      rw [hnone]
      rfl
    have htail : timeline'.powerFailingTail =
        if timeline.edgeStands edge then some edge else none := powerFailingTail_edge hmarkers hnone
    obtain ⟨S', hset', hend', hend, hinside, hwindow⟩ :=
      withMarkers_narrows hset hbounds htol hsegments hcut hgap
    -- An edge that was outlived is no edge.
    have houtlived : timeline.edgeStands edge = false → S' = S := by
      intro houtlived
      have hcut' : powerFailCutPt timeline' window = powerFailCutPt timeline window := by
        unfold powerFailCutPt
        rw [htail, houtlived, hnone]
        rfl
      exact Except.ok.inj (hset'.symm.trans (hunchanged hcut'))
    refine ⟨S', hset', hlow.trans_eq hend'.symm, ?_, houtlived, ?_, hinside, hwindow⟩
    · rw [hend', hend]
      exact hhigh
    · intro pt hpt hearly
      by_cases hstands : timeline.edgeStands edge = true
      · have hcut' : powerFailCutPt timeline' window = some (pt + powerFailHoldUpMarginS) := by
          unfold powerFailCutPt
          rw [htail, if_pos hstands, Option.bind_some, Option.mem_def.mp hpt]
          rfl
        exact withMarkers_degenerate hset hset' (evalEnd_none hcut) (evalEnd_degenerate hcut' hearly)
          hgap
      · rw [houtlived (Bool.eq_false_iff.mpr hstands)]

/-- A move of ten seconds is planned when the last beat comes. -/
def plannedTimeline : WalTimeline ℚ :=
  { contextTimeline [contextAt (28 * 10 ^ 9) 5] with
    toolheadSegments := [⟨28 * 10 ^ 9, "toolhead", 29, 10, 5, 0, 0, 0, 2, 1, 0, 0⟩] }

/-- The power fails half a second after the last beat. -/
theorem edge_narrows_half : ∃ S S', computeStopSet Gcode.rationals Gcode.asciiCase plannedTimeline
      exampleWindow (some exampleTail) exampleConfig = .ok S ∧
    computeStopSet Gcode.rationals Gcode.asciiCase (plannedTimeline.withMarkers
      ([] ++ ⟨30500000000, .powerFailing⟩ :: [])) exampleWindow (some exampleTail) exampleConfig =
        .ok S' ∧
    30 ≤ S'.walEvalEnd ∧ S'.walEvalEnd ≤ S.walEvalEnd ∧ S'.Inside S (1 / 100) := by
  have hruns : (computeStopSet Gcode.rationals Gcode.asciiCase plannedTimeline exampleWindow
      (some exampleTail) exampleConfig).toOption.isSome = true := by decide +kernel
  have hsegments : ∀ s ∈ plannedTimeline.toolheadSegments ++ plannedTimeline.extruderSegments,
      0 ≤ s.duration ∧ s.monoNs < 2 ^ 64 := by decide +kernel
  have hnewest : ∀ newest ∈ plannedTimeline.powerFailingTail, 30500000000 ≤ newest := by
    intro newest hnewest
    cases hnewest
  cases hset : computeStopSet Gcode.rationals Gcode.asciiCase plannedTimeline exampleWindow
      (some exampleTail) exampleConfig with
  | error error =>
    rw [hset] at hruns
    cases hruns
  | ok S =>
    obtain ⟨S', hset', hlow, hhigh, -, -, hinside, -⟩ :=
      edge_narrows [] [] 30500000000 hset (by decide +kernel) (by decide +kernel) hsegments rfl
        hnewest
    exact ⟨S, S', rfl, hset', hlow, hhigh, hinside⟩

/-- A later edge widens what an earlier one has cut: the newest edge counts. -/
theorem later_edge_widens :
    ¬ ∀ (timeline : WalTimeline ℚ) (window : StopWindow ℚ) (config : ReconstructConfig ℚ)
      (fileTail : Option FileTail) (before after : List Marker) (edge : ℕ) (S S' : PossibleStopSet ℚ),
      window.tA ≤ window.tB →
      (∀ s ∈ timeline.toolheadSegments ++ timeline.extruderSegments,
        0 ≤ s.duration ∧ s.monoNs < 2 ^ 64) →
      timeline.markers = before ++ after →
      computeStopSet Gcode.rationals Gcode.asciiCase timeline window fileTail config = .ok S →
      computeStopSet Gcode.rationals Gcode.asciiCase
        (timeline.withMarkers (before ++ ⟨edge, .powerFailing⟩ :: after)) window fileTail config =
          .ok S' →
      S'.walEvalEnd ≤ S.walEvalEnd := by
  intro h
  set cut := plannedTimeline.withMarkers [⟨29 * 10 ^ 9, .powerFailing⟩] with hcutAt
  set later := cut.withMarkers ([⟨29 * 10 ^ 9, .powerFailing⟩] ++ ⟨31 * 10 ^ 9, .powerFailing⟩ :: [])
    with hlater
  have hcut : (computeStopSet Gcode.rationals Gcode.asciiCase cut exampleWindow none
      exampleConfig).toOption.map (·.walEvalEnd) = some 30 := by decide +kernel
  have hwider : (computeStopSet Gcode.rationals Gcode.asciiCase later exampleWindow none
      exampleConfig).toOption.map (·.walEvalEnd) = some 32 := by decide +kernel
  cases hset : computeStopSet Gcode.rationals Gcode.asciiCase cut exampleWindow none exampleConfig with
  | error error =>
    rw [hset] at hcut
    cases hcut
  | ok S =>
    cases hset' : computeStopSet Gcode.rationals Gcode.asciiCase later exampleWindow none
        exampleConfig with
    | error error =>
      rw [hset'] at hwider
      cases hwider
    | ok S' =>
      have hsegments : ∀ s ∈ cut.toolheadSegments ++ cut.extruderSegments,
          0 ≤ s.duration ∧ s.monoNs < 2 ^ 64 := by decide +kernel
      have hle := h cut exampleWindow exampleConfig none [⟨29 * 10 ^ 9, .powerFailing⟩] []
        (31 * 10 ^ 9) S S' (by decide +kernel) hsegments rfl hset hset'
      rw [hset] at hcut
      rw [hset'] at hwider
      have hearly : S.walEvalEnd = 30 := Option.some.inj hcut
      have hlate : S'.walEvalEnd = 32 := Option.some.inj hwider
      rw [hearly, hlate] at hle
      exact absurd hle (by decide +kernel)

end Claim

end DeadReckoning.Reconstruct
