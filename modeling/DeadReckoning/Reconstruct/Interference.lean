import DeadReckoning.Reconstruct.FileWindow
import DeadReckoning.Reconstruct.Pipeline

/-! What surrounds the epoch of the crash in a log does not reach the reconstruction. -/
namespace DeadReckoning.Reconstruct

open Gcode (Arithmetic CaseMapping)
open Wal (RecoveryScan ScanEnd WalRecord)

section Moved

/-- The span at a later place; why it begins is left out. -/
def EpochSpan.located (offset : ℕ) (e : EpochSpan) : EpochSpan :=
  { e with start := offset + e.start, stop := offset + e.stop, boundaryBefore := none }

/-- An epoch ends between the two pieces of a log, unless one of them is empty. -/
def ApartAt (older newer : List ScannedRecord) : Prop :=
  ∀ r rest, older ≠ [] → newer = r :: rest → ((partitioning older).boundary r).isSome = true

/-- The loop over a log, `p`, and over a larger one that has it at `offset`, behind the epochs
`earlier`. -/
structure Partitioning.Moved (earlier : List EpochSpan) (offset : ℕ) (p q : Partitioning) :
    Prop where
  epochs : ∃ later, q.epochs = earlier ++ later ∧
    later.map (EpochSpan.located 0) = p.epochs.map (EpochSpan.located offset)
  current : q.current.located 0 = p.current.located offset
  pending : q.pendingSocketLost = p.pendingSocketLost
  prevOffset : q.prevOffset = p.prevOffset

namespace Partitioning.Moved

variable {earlier : List EpochSpan} {offset : ℕ} {p q : Partitioning}

theorem span (h : Moved earlier offset p q) :
    q.current.start = offset + p.current.start ∧ q.current.stop = offset + p.current.stop ∧
      q.current.printing = p.current.printing ∧ q.current.hasContext = p.current.hasContext ∧
      q.current.hasMotion = p.current.hasMotion ∧ q.current.minMonoNs = p.current.minMonoNs ∧
      q.current.maxMonoNs = p.current.maxMonoNs := by
  have hcurrent := h.current
  unfold EpochSpan.located at hcurrent
  simpa using hcurrent

theorem boundary (h : Moved earlier offset p q) (r : ScannedRecord) :
    q.boundary r = p.boundary r := by
  obtain ⟨hstart, hstop, -, -, -, -, hmax⟩ := h.span
  have hopen : q.current.start < q.current.stop ↔ p.current.start < p.current.stop := by omega
  unfold Partitioning.boundary
  dsimp only
  simp only [hopen, hmax, h.pending, h.prevOffset]

theorem close (h : Moved earlier offset p q) (kind : Option EpochBoundaryKind) :
    Moved earlier offset (p.close kind) (q.close kind) := by
  cases kind with
  | none => exact h
  | some kind =>
    obtain ⟨later, hepochs, hlater⟩ := h.epochs
    obtain ⟨-, hstop, -⟩ := h.span
    exact
      { epochs := by
          refine ⟨later ++ [q.current], ?_, ?_⟩
          · simp [Partitioning.close, hepochs]
          · simp [Partitioning.close, hlater, h.current]
        current := by simp [Partitioning.close, openSpan, EpochSpan.located, hstop]
        pending := rfl
        prevOffset := h.prevOffset }

theorem fold (h : Moved earlier offset p q) (r : ScannedRecord) :
    Moved earlier offset (p.fold r) (q.fold r) where
  epochs := h.epochs
  current := by
    obtain ⟨hstart, hstop, hprinting, hcontext, hmotion, hmin, hmax⟩ := h.span
    simp [Partitioning.fold, EpochSpan.located, hstart, hstop, hprinting, hcontext, hmotion, hmin,
      hmax, Nat.add_assoc]
  pending := by
    unfold Partitioning.fold
    dsimp only
    rw [h.pending]
  prevOffset := rfl

theorem step (h : Moved earlier offset p q) (r : ScannedRecord) :
    Moved earlier offset (p.step r) (q.step r) := by
  unfold Partitioning.step
  rw [h.boundary r]
  exact (h.close _).fold r

theorem run (h : Moved earlier offset p q) (records : List ScannedRecord) :
    Moved earlier offset (records.foldl Partitioning.step p)
      (records.foldl Partitioning.step q) := by
  induction records generalizing p q with
  | nil => exact h
  | cons r records ih => exact ih (h.step r)

end Partitioning.Moved

/-- The first record behind a boundary finds the loop as at the start of a log. -/
theorem Partitioning.moved_first {older : List ScannedRecord} {r : ScannedRecord}
    (h : ((partitioning older).boundary r).isSome = true) :
    Partitioning.Moved (partitioning older).spans older.length (Partitioning.new.step r)
      ((partitioning older).step r) := by
  obtain ⟨kind, hkind⟩ := Option.isSome_iff_exists.mp h
  obtain ⟨hstop, -⟩ := stop_le_length older
  have hnew : Partitioning.new.boundary r = none := by
    simp [Partitioning.boundary, Partitioning.new, openSpan]
  unfold Partitioning.step
  rw [hkind, hnew]
  exact
    { epochs := ⟨[], by simp [Partitioning.close, Partitioning.fold, Partitioning.spans],
        by simp [Partitioning.close, Partitioning.fold, Partitioning.new]⟩
      current := by
        simp [Partitioning.close, Partitioning.fold, Partitioning.new, openSpan,
          EpochSpan.located, hstop]
      pending := by simp [Partitioning.close, Partitioning.fold, Partitioning.new]
      prevOffset := rfl }

/-- A log that stands behind a boundary of a larger one. -/
theorem partitioning_moved {older crash : List ScannedRecord} (h : ApartAt older crash)
    (hcrash : crash ≠ []) :
    ∃ earlier, Partitioning.Moved earlier older.length (partitioning crash)
      (partitioning (older ++ crash)) := by
  by_cases holder : older = []
  · subst holder
    exact ⟨[], ⟨⟨(partitioning crash).epochs, by simp, by simp⟩, by simp, rfl, rfl⟩⟩
  · obtain ⟨r, rest, rfl⟩ := List.exists_cons_of_ne_nil hcrash
    refine ⟨(partitioning older).spans, ?_⟩
    rw [partitioning_append]
    exact (Partitioning.moved_first (h r rest holder rfl)).run rest

end Moved

section Narrow

theorem newestPrinting_append_spans (older newer : List EpochSpan) :
    newestPrinting (older ++ newer) = (newestPrinting newer).or (newestPrinting older) := by
  induction newer using List.reverseRecOn with
  | nil => simp [newestPrinting, newestBy]
  | append_singleton newer e ih =>
    rw [← List.append_assoc, newestPrinting_snoc, newestPrinting_snoc, ih]
    by_cases he : e.printing = true
    · simp [he]
    · simp [he]

theorem newestPrinting_located (offset : ℕ) (spans : List EpochSpan) :
    newestPrinting (spans.map (EpochSpan.located offset)) =
      (newestPrinting spans).map (EpochSpan.located offset) := by
  induction spans using List.reverseRecOn with
  | nil => rfl
  | append_singleton spans e ih =>
    rw [List.map_append, List.map_singleton, newestPrinting_snoc, newestPrinting_snoc, ih]
    show (if e.printing = true then _ else _) = _
    by_cases he : e.printing = true
    · simp [he]
    · simp [he]

theorem newestPrinting_isSome_step {p : Partitioning} {r : ScannedRecord}
    (h : isPrintingContext r.2 = true ∨ (newestPrinting p.spans).isSome = true) :
    (newestPrinting (p.step r).spans).isSome = true := by
  unfold Partitioning.step Partitioning.spans
  rw [newestPrinting_snoc]
  by_cases hprinting : ((p.close (p.boundary r)).fold r).current.printing = true
  · rw [if_pos hprinting]
    rfl
  · rw [if_neg hprinting]
    have hidle : isPrintingContext r.2 = false := by
      simp only [Partitioning.fold] at hprinting
      simp_all
    have hsome : (newestPrinting p.spans).isSome = true := by simpa [hidle] using h
    cases hb : p.boundary r with
    | some kind => exact hsome
    | none =>
      rw [hb] at hprinting
      have hcurrent : p.current.printing = false := by
        simp only [Partitioning.fold, Partitioning.close] at hprinting
        simp_all
      unfold Partitioning.spans at hsome
      rwa [newestPrinting_snoc, hcurrent] at hsome

/-- A log with a printing context has a printing epoch. -/
theorem newestPrinting_isSome {records : List ScannedRecord}
    (h : records.any (isPrintingContext ·.2) = true) :
    (newestPrinting (partitioning records).spans).isSome = true := by
  induction records using List.reverseRecOn with
  | nil => cases h
  | append_singleton records r ih =>
    rw [partitioning_append]
    refine newestPrinting_isSome_step ?_
    rw [List.any_append, Bool.or_eq_true] at h
    rcases h with hrecords | hlast
    · exact .inr (ih hrecords)
    · exact .inl (by simpa using hlast)

/-- The crash epoch of a log is the one of a larger log that ends with it. -/
theorem narrow_behind {older crash : List ScannedRecord} {e : EpochSpan}
    (h : newestPrinting (partition crash) = some e) (hapart : ApartAt older crash) :
    ∃ e', newestPrinting (partition (older ++ crash)) = some e' ∧
      e'.located 0 = e.located older.length ∧
      (selectCrashEpoch (older ++ crash)).narrow (older ++ crash) =
        (selectCrashEpoch crash).narrow crash := by
  have hne : crash ≠ [] := by
    rintro rfl
    cases h
  have hspans : newestPrinting (partitioning crash).spans = some e := by
    simpa [partition, hne] using h
  obtain ⟨earlier, hmoved⟩ := partitioning_moved hapart hne
  obtain ⟨later, hepochs, hlater⟩ := hmoved.epochs
  have hall : (later ++ [(partitioning (older ++ crash)).current]).map (EpochSpan.located 0) =
      (partitioning crash).spans.map (EpochSpan.located older.length) := by
    simp [Partitioning.spans, hlater, hmoved.current]
  have hnewest := congrArg newestPrinting hall
  rw [newestPrinting_located, newestPrinting_located, hspans] at hnewest
  obtain ⟨e', he', hlocated⟩ := Option.map_eq_some_iff.mp hnewest
  have hwhole : newestPrinting (partition (older ++ crash)) = some e' := by
    have hlist : partition (older ++ crash) =
        earlier ++ (later ++ [(partitioning (older ++ crash)).current]) := by
      simp [partition, hne, Partitioning.spans, hepochs]
    rw [hlist, newestPrinting_append_spans, he']
    rfl
  refine ⟨e', hwhole, hlocated, ?_⟩
  have hplace : e'.start = older.length + e.start ∧ e'.stop = older.length + e.stop := by
    unfold EpochSpan.located at hlocated
    simp only [EpochSpan.mk.injEq, Nat.zero_add] at hlocated
    exact ⟨hlocated.1, hlocated.2.1⟩
  simp only [CrashEpochSelection.narrow, crashEpoch_of_printing h, crashEpoch_of_printing hwhole]
  rw [hplace.1, hplace.2, ← List.drop_drop, List.drop_left, Nat.add_sub_add_left]

/-- The crash epoch and its records are the same with older and newer epochs around the log. -/
theorem narrow_between {older crash newer : List ScannedRecord}
    (hprinting : crash.any (isPrintingContext ·.2) = true) (holder : ApartAt older crash)
    (hidle : newer.all (!isPrintingContext ·.2) = true) (hnewer : ApartAt crash newer) :
    (∃ e e', (selectCrashEpoch crash).crashEpoch = some e ∧
      (selectCrashEpoch (older ++ crash ++ newer)).crashEpoch = some e' ∧
      e'.located 0 = e.located older.length) ∧
    (selectCrashEpoch (older ++ crash ++ newer)).narrow (older ++ crash ++ newer) =
      (selectCrashEpoch crash).narrow crash := by
  have hne : crash ≠ [] := by
    rintro rfl
    cases hprinting
  obtain ⟨e, he⟩ := Option.isSome_iff_exists.mp (newestPrinting_isSome hprinting)
  have hcrash : newestPrinting (partition crash) = some e := by simpa [partition, hne] using he
  obtain ⟨e', hwhole, hlocated, hbehind⟩ := narrow_behind hcrash holder
  obtain ⟨earlier, hmoved⟩ := partitioning_moved holder hne
  have hapart : KeepsApart (older ++ crash) newer := by
    refine ⟨fun r hr => by simpa using List.all_eq_true.mp hidle r hr, ?_⟩
    intro r rest hrest
    refine .inr ?_
    rw [hmoved.boundary r]
    exact hnewer r rest hne hrest
  obtain ⟨hlater, hsame⟩ := narrow_append hwhole hapart
  constructor
  · exact ⟨e, e', crashEpoch_of_printing hcrash, crashEpoch_of_printing hlater, hlocated⟩
  · rw [hsame, hbehind]

/-- An edge is judged by the crash epoch alone, whatever else the log has. -/
theorem sidecarAdmits_between {older crash newer : List ScannedRecord}
    (hprinting : crash.any (isPrintingContext ·.2) = true) (holder : ApartAt older crash)
    (hidle : newer.all (!isPrintingContext ·.2) = true) (hnewer : ApartAt crash newer) :
    sidecarAdmits (selectCrashEpoch (older ++ crash ++ newer)).crashEpoch =
      sidecarAdmits (selectCrashEpoch crash).crashEpoch := by
  obtain ⟨⟨e, e', he, he', hlocated⟩, -⟩ := narrow_between hprinting holder hidle hnewer
  have hmax : (e'.located 0).maxMonoNs = (e.located older.length).maxMonoNs := by rw [hlocated]
  unfold EpochSpan.located at hmax
  dsimp only at hmax
  funext edge
  rw [he, he']
  simp only [sidecarAdmits, hmax]

end Narrow

section Ends

variable {K : Type}

/-- The timeline without what the end of the scan says. -/
def WalTimeline.apartFromEnd (t : WalTimeline K) : WalTimeline K :=
  { t with scanEnd := .cleanEof, notes := t.notes.filter (· ≠ .unexpectedScanEnd) }

/-- The class of a crash without the tear. -/
def CrashClass.apartFromEnd : CrashClass → CrashClass
  | .hostDeathOrPowerLoss _ => .hostDeathOrPowerLoss false
  | crash => crash

def WindowAnomaly.isCorruptScanEnd : WindowAnomaly K → Bool
  | .corruptScanEnd => true
  | _ => false

def StopWindow.apartFromEnd (w : StopWindow K) : StopWindow K :=
  { w with
    crash := w.crash.apartFromEnd
    anomalies := w.anomalies.filter fun anomaly => !anomaly.isCorruptScanEnd }

def PossibleStopSet.apartFromEpochs (s : PossibleStopSet K) : PossibleStopSet K :=
  { s with degradation := { s.degradation with crossEpochEvidenceDiscarded := false } }

def UncertaintyCause.isTail : UncertaintyCause K → Bool
  | .logTailIncomplete _ _ => true
  | _ => false

def ExclusionDiagnostic.isTail : ExclusionDiagnostic K → Bool
  | .exclusionStateUncertain cause _ => cause.isTail
  | _ => false

def ExclusionReport.apartFromEnd (r : ExclusionReport K) : ExclusionReport K :=
  { r with diagnostics := r.diagnostics.filter fun diagnostic => !diagnostic.isTail }

/-- The result without the flag about other epochs and without what the end of the scan says. -/
def Reconstruction.apartFromEnd : Reconstruction K → Reconstruction K
  | .cleanShutdown timeline => .cleanShutdown timeline.apartFromEnd
  | .recovery r =>
      .recovery ⟨r.timeline.apartFromEnd, r.window.apartFromEnd, r.stopSet.apartFromEpochs,
        r.exclusions.apartFromEnd, r.powerFailEdgeMonoNs⟩

theorem withEdge_apartFromEnd (t : WalTimeline K) (edge : Option ℕ) :
    (t.withEdge edge).apartFromEnd = t.apartFromEnd.withEdge edge := by
  unfold WalTimeline.withEdge
  cases edge with
  | none => rfl
  | some mono =>
    show (if t.cleanShutdown = true then t else _).apartFromEnd =
      if t.cleanShutdown = true then _ else _
    by_cases h : t.cleanShutdown = true
    · rw [if_pos h, if_pos h]
    · rw [if_neg h, if_neg h]
      rfl

theorem classify_apartFromEnd (t : WalTimeline K) (heartbeatMonoNs : ℕ)
    (config : ReconstructConfig K) :
    (classify t heartbeatMonoNs config).apartFromEnd =
      classify t.apartFromEnd heartbeatMonoNs config := by
  unfold classify
  rw [show t.apartFromEnd.cleanShutdown = t.cleanShutdown from rfl,
    show t.apartFromEnd.powerFailingTail = t.powerFailingTail from rfl,
    show t.apartFromEnd.socketLostTail = t.socketLostTail from rfl,
    show t.apartFromEnd.lastMotionMonoNs = t.lastMotionMonoNs from rfl]
  split_ifs with hclean hpower
  · rfl
  · rfl
  · cases t.socketLostTail with
    | some mono => rfl
    | none =>
      cases t.lastMotionMonoNs with
      | none => rfl
      | some lastMotion =>
        dsimp only
        split_ifs with hquiet
        · rfl
        · rfl

/-- Anomalies that do not speak of the end. -/
def SilentOfEnd (anomalies : List (WindowAnomaly K)) : Prop :=
  ∀ anomaly ∈ anomalies, anomaly.isCorruptScanEnd = false

theorem SilentOfEnd.filter {anomalies : List (WindowAnomaly K)} (h : SilentOfEnd anomalies) :
    (anomalies.filter fun anomaly => !anomaly.isCorruptScanEnd) = anomalies :=
  List.filter_eq_self.mpr fun anomaly hmem => by simp [h anomaly hmem]

theorem filter_one {c : Prop} [Decidable c] {anomaly : WindowAnomaly K}
    (h : anomaly.isCorruptScanEnd = false) :
    ((if c then [anomaly] else []).filter fun anomaly => !anomaly.isCorruptScanEnd) =
      if c then [anomaly] else [] := by
  by_cases hc : c
  · simp [hc, h]
  · simp [hc]

theorem filter_noted {c : Prop} [Decidable c] {a b : K} {anomaly : WindowAnomaly K}
    (h : anomaly.isCorruptScanEnd = false) :
    ((if c then (a, [anomaly]) else (b, [])).2.filter fun anomaly => !anomaly.isCorruptScanEnd) =
      (if c then (a, [anomaly]) else (b, [])).2 := by
  by_cases hc : c
  · simp [hc, h]
  · simp [hc]

theorem filter_corrupt {c : Prop} [Decidable c] :
    ((if c then [(.corruptScanEnd : WindowAnomaly K)] else []).filter fun anomaly =>
      !anomaly.isCorruptScanEnd) = [] := by
  by_cases hc : c
  · simp [hc, WindowAnomaly.isCorruptScanEnd]
  · simp [hc]

variable [Field K] [LinearOrder K]

theorem ingest_apartFromEnd (records : List ScannedRecord) (scanEnd : ScanEnd)
    (heartbeat : Option Wal.HeartbeatRecovery) :
    (ingest records scanEnd heartbeat : WalTimeline K).apartFromEnd =
      (ingest records .cleanEof heartbeat : WalTimeline K).apartFromEnd := by
  unfold ingest WalTimeline.apartFromEnd
  simp only [List.filter_append]
  cases hend : scanEnd.isExpectedAfterPowerLoss with
  | true => simp [ScanEnd.isExpectedAfterPowerLoss]
  | false => simp [ScanEnd.isExpectedAfterPowerLoss]

theorem committedEnd_silent (mcuFreq : Option K) (ranges : List Wal.StepperRange) :
    SilentOfEnd (committedEnd mcuFreq ranges).2 := by
  intro anomaly hmem
  obtain ⟨range, -, hrange⟩ := List.mem_flatMap.mp hmem
  unfold committedTime at hrange
  cases mcuFreq with
  | none => cases hrange
  | some freq =>
    dsimp only at hrange
    split_ifs at hrange
    · obtain rfl := List.mem_singleton.mp hrange
      rfl
    · cases hrange

theorem committedBound_silent (t : WalTimeline K) (config : ReconstructConfig K)
    (mcuFreq : Option K) : SilentOfEnd (committedBound t config mcuFreq).2.2 := by
  intro anomaly hmem
  unfold committedBound at hmem
  dsimp only at hmem
  split at hmem
  · exact committedEnd_silent _ _ _ hmem
  · rcases List.mem_append.mp hmem with hends | hnone
    · rcases List.mem_append.mp hends with hz | hany
      · exact committedEnd_silent _ _ _ hz
      · exact committedEnd_silent _ _ _ hany
    · split_ifs at hnone
      · obtain rfl := List.mem_singleton.mp hnone
        rfl
      · obtain rfl := List.mem_singleton.mp hnone
        rfl

theorem computeStopWindow_apartFromEnd (t : WalTimeline K)
    (receiveSeq : Option ReceiveSeqObservation) (config : ReconstructConfig K) :
    (computeStopWindow t receiveSeq config).map StopWindow.apartFromEnd =
      computeStopWindow t.apartFromEnd receiveSeq config := by
  unfold computeStopWindow
  rw [show t.apartFromEnd.heartbeat = t.heartbeat from rfl]
  cases t.heartbeat with
  | none => rfl
  | some heartbeat =>
    dsimp only [Checks.required, bind, Except.bind, pure, Except.pure, Except.map]
    rw [show committedBound t.apartFromEnd config = committedBound t config from rfl]
    have hsilent := (committedBound_silent t config
      (config.mcuFreq.filter fun freq => 0 < freq)).filter
    generalize committedBound t config (config.mcuFreq.filter fun freq => 0 < freq) = committed
      at hsilent ⊢
    obtain ⟨bound, source, anomalies⟩ := committed
    have hcorrelation : ∀ a b c : K,
        (ClockCorrelator.new.addSample a b).eventtimeToPrintTime c = some (b + (c - a)) :=
      fun _ _ _ => rfl
    have hexpected : t.apartFromEnd.scanEnd.isExpectedAfterPowerLoss = true := rfl
    simp only [hcorrelation, StopWindow.apartFromEnd, classify_apartFromEnd, List.filter_append,
      hsilent]
    congr 2
    rw [filter_noted rfl, filter_one rfl, filter_one rfl, filter_noted rfl, filter_corrupt,
      hexpected]
    rfl

theorem extensionStartTime_apartFromEnd (t : WalTimeline K) (window : StopWindow K)
    (anchor : Wal.Context) (anchorPt : Option K) (config : ReconstructConfig K) (d : Degradation) :
    extensionStartTime t.apartFromEnd window.apartFromEnd anchor anchorPt config d =
      extensionStartTime t window anchor anchorPt config d := rfl

theorem frontierCapOffset_apartFromEnd (arith : Arithmetic K) (t : WalTimeline K)
    (window : StopWindow K) (anchorPt : Option K) (state : Gcode.GcodeState K)
    (lines : List Gcode.Line) (frontier tailEnd : ℕ) (config : ReconstructConfig K) (gap : Bool) :
    frontierCapOffset arith t.apartFromEnd window.apartFromEnd anchorPt state lines frontier
        tailEnd config gap =
      frontierCapOffset arith t window anchorPt state lines frontier tailEnd config gap := rfl

theorem runExtension_apartFromEnd (arith : Arithmetic K) (cases : CaseMapping)
    (t : WalTimeline K) (anchor : Wal.Context) (window : StopWindow K) (walEvalEnd : K)
    (fileTail : Option FileTail) (config : ReconstructConfig K) (d : Degradation) :
    runExtension arith cases t.apartFromEnd anchor window.apartFromEnd walEvalEnd fileTail config d =
      runExtension arith cases t anchor window walEvalEnd fileTail config d := by
  have htime : ∀ monoNs, window.apartFromEnd.monoNsToPrintTime monoNs =
      window.monoNsToPrintTime monoNs := fun _ => rfl
  have hextend : ∀ filePosition state tail,
      extendFrom arith cases t.apartFromEnd anchor filePosition state window.apartFromEnd
          walEvalEnd tail config d =
        extendFrom arith cases t anchor filePosition state window walEvalEnd tail config d := by
    intro filePosition state tail
    unfold extendFrom
    simp only [extensionStartTime_apartFromEnd, frontierCapOffset_apartFromEnd, htime]
  unfold runExtension
  simp only [hextend]

theorem fileFrameE_apartFromEnd (arith : Arithmetic K) (cases : CaseMapping)
    (t : WalTimeline K) (window : StopWindow K) (anchor : Wal.Context)
    (floor : Option FloorContext) (extension : Option (ExtensionResult K))
    (fileTail : Option FileTail) (walE : Option (Interval K)) (config : ReconstructConfig K)
    (d : Degradation) :
    fileFrameE arith cases t.apartFromEnd window.apartFromEnd anchor floor extension fileTail walE
        config d =
      fileFrameE arith cases t window anchor floor extension fileTail walE config d := rfl

/-- The stop set reads neither the end of the scan nor the notes. -/
theorem computeStopSet_apartFromEnd (arith : Arithmetic K) (cases : CaseMapping)
    (t : WalTimeline K) (window : StopWindow K) (fileTail : Option FileTail)
    (config : ReconstructConfig K) :
    computeStopSet arith cases t.apartFromEnd window.apartFromEnd fileTail config =
      computeStopSet arith cases t window fileTail config := by
  have hend : evalEnd t.apartFromEnd window.apartFromEnd = evalEnd t window := rfl
  have hgap : observationGapOverlapsWindow t.apartFromEnd window.apartFromEnd config =
      observationGapOverlapsWindow t window config := rfl
  have hfloor : ∀ anchor d, floorContext t.apartFromEnd window.apartFromEnd anchor config d =
      floorContext t window anchor config d := fun _ _ => rfl
  unfold computeStopSet
  simp only [hend, hgap, hfloor, runExtension_apartFromEnd, fileFrameE_apartFromEnd]
  rfl

theorem uncertaintyCauses_apartFromEnd (report : ExclusionReport K) (t : WalTimeline K)
    (inputs inputs' : ExclusionInputs K) (config : ReconstructConfig K) :
    ((uncertaintyCauses report t inputs config).filter fun cause => !cause.isTail) =
      (uncertaintyCauses report t.apartFromEnd inputs' config).filter fun cause =>
        !cause.isTail := by
  unfold uncertaintyCauses
  cases report.provenance with
  | journaled =>
    dsimp only
    by_cases hnothing : nothingToCancel report = true
    · rw [if_pos hnothing, if_pos hnothing]
    · rw [if_neg hnothing, if_neg hnothing]
      by_cases hclean : t.scanEnd = .cleanEof
      · simp [WalTimeline.apartFromEnd, hclean]
      · simp [WalTimeline.apartFromEnd, hclean, UncertaintyCause.isTail]
  | noObjectsDefined | recordLost | unknown => rfl

theorem resolveExclusions_apartFromEnd (arith : Arithmetic K) (cases : CaseMapping)
    (json : JsonNumbers) (t : WalTimeline K) (window : StopWindow K) (stop : Option K)
    (file : Option FileTail) (config : ReconstructConfig K) :
    (resolveExclusions arith cases json t ⟨some window, stop, file⟩ config).apartFromEnd =
      (resolveExclusions arith cases json t.apartFromEnd ⟨some window.apartFromEnd, stop, file⟩
        config).apartFromEnd := by
  have hjournaled : journaledState t.apartFromEnd = journaledState t := rfl
  have hreport : ∀ state fileScan, journaledReport arith state fileScan t.apartFromEnd
      ⟨some window.apartFromEnd, stop, file⟩ config =
        journaledReport arith state fileScan t ⟨some window, stop, file⟩ config :=
    fun _ _ => rfl
  have hcauses := fun report => uncertaintyCauses_apartFromEnd report t
    ⟨some window, stop, file⟩ ⟨some window.apartFromEnd, stop, file⟩ config
  have htail : ∀ atRisk : List String,
      ((fun diagnostic : ExclusionDiagnostic K => !diagnostic.isTail) ∘
        fun cause => ExclusionDiagnostic.exclusionStateUncertain cause atRisk) =
          fun cause => !cause.isTail := fun _ => rfl
  unfold resolveExclusions ExclusionReport.apartFromEnd
  simp only [hjournaled, hreport, List.filter_append, List.filter_map, htail, hcauses]

end Ends

section Law

variable {K : Type} [Field K] [LinearOrder K]

/-- What the records of one epoch, and the files that belong to it, say by themselves. -/
def reconstructEpoch (arith : Arithmetic K) (cases : CaseMapping) (json : JsonNumbers)
    (records : List ScannedRecord) (heartbeat : Option Wal.HeartbeatRecovery)
    (receiveSeq : Option ReceiveSeqObservation) (edge : Option ℕ) (fileTail : Option FileTail)
    (config : ReconstructConfig K) : Except ReconstructError (Reconstruction K) := do
  config.validate
  let timeline : WalTimeline K :=
    ((ingest records .cleanEof heartbeat).withEdge edge).apartFromEnd
  if timeline.cleanShutdown then pure (.cleanShutdown timeline)
  else do
    let window ← computeStopWindow timeline receiveSeq config
    let stopSet ← computeStopSet arith cases timeline window fileTail config
    let exclusions := resolveExclusions arith cases json timeline
      ⟨some window, some stopSet.walEvalEnd, fileTail⟩ config
    pure (.recovery
      ⟨timeline, window, stopSet.apartFromEpochs, exclusions.apartFromEnd, edge⟩)

/-- A reconstruction is that of its epoch, but for the flag and the end of the scan. -/
theorem reconstruct_apartFromEnd (arith : Arithmetic K) (cases : CaseMapping)
    (json : JsonNumbers) (inputs : ReconstructInputs) (config : ReconstructConfig K) :
    (reconstruct arith cases json inputs config).map Reconstruction.apartFromEnd =
      reconstructEpoch arith cases json (inputs.selection.narrow inputs.scan.records)
        inputs.admittedHeartbeat inputs.admittedReceiveSeq inputs.admittedEdge inputs.fileTail
        config := by
  unfold reconstruct reconstructEpoch
  cases config.validate with
  | error e => rfl
  | ok =>
    dsimp only [bind, Except.bind]
    generalize hT : (ingest (inputs.selection.narrowScan inputs.scan).records
      (inputs.selection.narrowScan inputs.scan).stop inputs.admittedHeartbeat :
        WalTimeline K).withEdge inputs.admittedEdge = t
    have ht : ((ingest (inputs.selection.narrow inputs.scan.records) .cleanEof
        inputs.admittedHeartbeat : WalTimeline K).withEdge inputs.admittedEdge).apartFromEnd =
          t.apartFromEnd := by
      rw [← hT, withEdge_apartFromEnd, withEdge_apartFromEnd]
      exact congrArg (fun t : WalTimeline K => t.withEdge inputs.admittedEdge)
        (ingest_apartFromEnd _ _ _).symm
    rw [ht, show t.apartFromEnd.cleanShutdown = t.cleanShutdown from rfl]
    by_cases hclean : t.cleanShutdown = true
    · rw [if_pos hclean, if_pos hclean]
      rfl
    · rw [if_neg hclean, if_neg hclean]
      have hwindow := computeStopWindow_apartFromEnd t inputs.admittedReceiveSeq config
      cases hw : computeStopWindow t inputs.admittedReceiveSeq config with
      | error e =>
        rw [hw] at hwindow
        rw [← hwindow]
        rfl
      | ok window =>
        rw [hw] at hwindow
        rw [← hwindow]
        dsimp only [Except.map]
        rw [computeStopSet_apartFromEnd]
        cases computeStopSet arith cases t window inputs.fileTail config with
        | error e => rfl
        | ok stopSet =>
          dsimp only [pure, Except.pure, Reconstruction.apartFromEnd]
          rw [resolveExclusions_apartFromEnd]
          rfl

/-- Both reconstructions admit the same files. -/
structure SameAdmitted (whole alone : ReconstructInputs) : Prop where
  heartbeat : whole.admittedHeartbeat = alone.admittedHeartbeat
  receiveSeq : whole.admittedReceiveSeq = alone.admittedReceiveSeq
  edge : whole.admittedEdge = alone.admittedEdge
  fileTail : whole.fileTail = alone.fileTail

/-- Older and newer epochs around a log with a print change neither the records that are read nor,
with the same files, anything of the result but the flag and what the end of the scan says. -/
theorem epochs_do_not_interfere {older crash newer : List ScannedRecord}
    (hprinting : crash.any (isPrintingContext ·.2) = true) (holder : ApartAt older crash)
    (hidle : newer.all (!isPrintingContext ·.2) = true) (hnewer : ApartAt crash newer) :
    (selectCrashEpoch (older ++ crash ++ newer)).narrow (older ++ crash ++ newer) =
        (selectCrashEpoch crash).narrow crash ∧
      ∀ (arith : Arithmetic K) (cases : CaseMapping) (json : JsonNumbers)
        (config : ReconstructConfig K) (whole alone : ReconstructInputs),
        whole.scan.records = older ++ crash ++ newer → alone.scan.records = crash →
        SameAdmitted whole alone →
        (reconstruct arith cases json whole config).map Reconstruction.apartFromEnd =
          (reconstruct arith cases json alone config).map Reconstruction.apartFromEnd := by
  obtain ⟨-, hnarrow⟩ := narrow_between hprinting holder hidle hnewer
  refine ⟨hnarrow, ?_⟩
  intro arith cases json config whole alone hwhole halone hsame
  have hrecords : whole.selection.narrow whole.scan.records =
      alone.selection.narrow alone.scan.records := by
    unfold ReconstructInputs.selection
    rw [hwhole, halone]
    exact hnarrow
  rw [reconstruct_apartFromEnd, reconstruct_apartFromEnd, hrecords, hsame.heartbeat,
    hsame.receiveSeq, hsame.edge, hsame.fileTail]

/-- A print that lost its firmware. -/
def printed : List ScannedRecord :=
  [(28, .context (contextAt 7 5)), (90, .marker ⟨9, .socketLost⟩)]

def printedInputs (records : List ScannedRecord) (scanEnd : ScanEnd) : ReconstructInputs where
  scan := ⟨none, records, 0, scanEnd⟩
  heartbeat := some ⟨⟨1, 8, 0, 0, 8, 0, 0⟩, .a, none⟩
  receiveSeq := none
  fileTail := none
  powerFailEdgeMonoNs := some 9

theorem epochs_do_not_interfere_lost_twice :
    (selectCrashEpoch ([(28, .marker ⟨5, .socketLost⟩)] ++ printed ++
        [(150, .marker ⟨11, .resubscribed⟩)])).narrow ([(28, .marker ⟨5, .socketLost⟩)] ++
          printed ++ [(150, .marker ⟨11, .resubscribed⟩)]) =
        (selectCrashEpoch printed).narrow printed ∧
      (reconstruct Gcode.rationals Gcode.asciiCase ⟨fun _ => none, fun _ => none⟩
        (printedInputs ([(28, .marker ⟨5, .socketLost⟩)] ++ printed ++
          [(150, .marker ⟨11, .resubscribed⟩)]) .cleanEof) exampleConfig).map
            Reconstruction.apartFromEnd =
        (reconstruct Gcode.rationals Gcode.asciiCase ⟨fun _ => none, fun _ => none⟩
          (printedInputs printed .truncatedPayload) exampleConfig).map
            Reconstruction.apartFromEnd := by
  have hlaw := @epochs_do_not_interfere ℚ _ _ [(28, .marker ⟨5, .socketLost⟩)] printed
    [(150, .marker ⟨11, .resubscribed⟩)] (by decide) (fun r rest _ h => by cases h; decide)
    (by decide) (fun r rest _ h => by cases h; decide)
  refine ⟨hlaw.1, hlaw.2 _ _ _ _ _ _ rfl rfl ?_⟩
  exact ⟨by decide, rfl, by decide, rfl⟩

end Law

end DeadReckoning.Reconstruct
