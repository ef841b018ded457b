import DeadReckoning.Reconstruct.FileWindow
import Mathlib.Data.UInt

/-! The stop window covers all the evidence for committed motion, and more evidence only widens
it. -/
namespace DeadReckoning.Reconstruct

open Wal (Heartbeat StepperRange)

variable {K : Type} [Field K] [LinearOrder K]

section Evidence

/-- The range is of a stepper of the vertical axis. -/
def ReconstructConfig.drivesZ (config : ReconstructConfig K) (range : StepperRange) : Prop :=
  config.zStepperPrefix.toList <+: range.stepper.toList

/-- The frequency of the microcontroller, when it is one. -/
def ReconstructConfig.validFreq (config : ReconstructConfig K) : Option K :=
  config.mcuFreq.filter fun freq => 0 < freq

/-- The print time of the machine at a host time, by the sample of the heartbeat. -/
def estimateAt (heartbeat : Heartbeat) (monoNs : ℕ) : K :=
  exact (bitsValue heartbeat.estSamplePrintTime) +
    (nsToS monoNs - nsToS heartbeat.estSampleMonoNs.toNat)

/-- The end of the motion that the observation proves. -/
def receiveSeqBound (heartbeat : Heartbeat) (receiveSeq : Option ReceiveSeqObservation)
    (config : ReconstructConfig K) : Option K :=
  receiveSeq.map fun obs => estimateAt heartbeat obs.monoNs + config.stepGenLead

/-- What the window promises about the evidence of its timeline. -/
structure StopWindow.Sound (timeline : WalTimeline K) (heartbeat : Heartbeat)
    (config : ReconstructConfig K) (w : StopWindow K) : Prop where
  ordered : w.tA ≤ w.tB
  alive : w.tA ≤ exact (bitsValue heartbeat.printTime)
  estimated : ∃ estimate, w.monoNsToPrintTime heartbeat.monoNs.toNat = some estimate ∧
    w.tA ≤ estimate
  derived : ∀ range ∈ timeline.stepperRanges, config.drivesZ range →
    ∀ freq, config.validFreq = some freq → (range.lastClock : K) / freq ≤ w.tB
  reported : ∀ range ∈ timeline.stepperRanges, config.drivesZ range →
    config.validFreq = none → exact range.lastStepTime ≤ w.tB
  tolerated : ∀ range ∈ timeline.stepperRanges, config.drivesZ range →
    exact range.lastStepTime - mismatchTolerance ≤ w.tB

end Evidence

section Committed

theorem derived_le_committedTime (freq : K) (range : StepperRange) :
    (range.lastClock : K) / freq ≤ (committedTime (some freq) range).1 := by
  unfold committedTime
  dsimp only
  split
  · exact le_max_left _ _
  · exact le_rfl

/-- A clock that is far from the reported time does not lower the bound. -/
theorem reported_le_committedTime [IsStrictOrderedRing K] (mcuFreq : Option K)
    (range : StepperRange) :
    exact range.lastStepTime - mismatchTolerance ≤ (committedTime mcuFreq range).1 := by
  have hpositive : (0 : K) ≤ mismatchTolerance := by
    unfold mismatchTolerance
    positivity
  unfold committedTime
  dsimp only
  cases mcuFreq with
  | none =>
    show exact range.lastStepTime - mismatchTolerance ≤ exact range.lastStepTime
    linarith
  | some freq =>
    dsimp only
    split
    · have hreported : exact range.lastStepTime ≤
          max ((range.lastClock : K) / freq) (exact range.lastStepTime) := le_max_right _ _
      show _ ≤ max ((range.lastClock : K) / freq) (exact range.lastStepTime)
      linarith
    · have hclose : |(range.lastClock : K) / freq - exact range.lastStepTime| ≤
          mismatchTolerance := by
        rename_i hfar
        exact not_lt.mp hfar
      have hbelow := (abs_le.mp hclose).1
      show _ ≤ (range.lastClock : K) / freq
      linarith

/-- The end of more ranges is not earlier. -/
theorem committedEnd_mono (mcuFreq : Option K) {ranges more : List StepperRange}
    (hmore : ranges ⊆ more) {c : K} (hc : (committedEnd mcuFreq ranges).1 = some c) :
    ∃ c', (committedEnd mcuFreq more).1 = some c' ∧ c ≤ c' := by
  unfold committedEnd at hc ⊢
  have hmem := (List.max?_eq_some_iff.mp hc).1
  have hmem' := List.map_subset (fun range => (committedTime mcuFreq range).1) hmore hmem
  obtain ⟨c', hc'⟩ : ∃ c', (more.map fun range => (committedTime mcuFreq range).1).max? =
      some c' := by
    apply Option.isSome_iff_exists.mp
    rw [List.isSome_max?_iff]
    exact List.ne_nil_of_mem hmem'
  exact ⟨c', hc', (List.max?_eq_some_iff.mp hc').2 c hmem'⟩

theorem committedTime_le_committedEnd (mcuFreq : Option K) {ranges : List StepperRange}
    {range : StepperRange} (hrange : range ∈ ranges) :
    ∃ c, (committedEnd mcuFreq ranges).1 = some c ∧ (committedTime mcuFreq range).1 ≤ c := by
  have hsingle : [range] ⊆ ranges := by simpa using hrange
  exact committedEnd_mono mcuFreq hsingle (by simp [committedEnd])

variable {timeline : WalTimeline K} {config : ReconstructConfig K} (mcuFreq : Option K)

/-- With a range of the vertical axis, only those count. -/
theorem committedBound_drivesZ {range : StepperRange} (hrange : range ∈ timeline.stepperRanges)
    (hz : config.drivesZ range) :
    ∃ c, (committedBound timeline config mcuFreq).1 = some c ∧
      (committedEnd mcuFreq (timeline.stepperRanges.filter fun range =>
        config.zStepperPrefix.toList.isPrefixOf range.stepper.toList)).1 = some c ∧
      (committedTime mcuFreq range).1 ≤ c := by
  have hfilter : range ∈ timeline.stepperRanges.filter fun range =>
      config.zStepperPrefix.toList.isPrefixOf range.stepper.toList := by
    simp only [List.mem_filter, List.isPrefixOf_iff_prefix]
    exact ⟨hrange, hz⟩
  obtain ⟨c, hc, hle⟩ := committedTime_le_committedEnd mcuFreq hfilter
  have hbound : (committedBound timeline config mcuFreq).1 = some c := by
    unfold committedBound
    simp only [hc]
  exact ⟨c, hbound, hc, hle⟩

theorem committedBound_mono {more : List StepperRange} {range : StepperRange}
    (hrange : range ∈ timeline.stepperRanges) (hz : config.drivesZ range)
    (hmore : timeline.stepperRanges ⊆ more) {c : K}
    (hc : (committedBound timeline config mcuFreq).1 = some c) :
    ∃ c', (committedBound { timeline with stepperRanges := more } config mcuFreq).1 = some c' ∧
      c ≤ c' := by
  obtain ⟨d, hd, hend, -⟩ := committedBound_drivesZ mcuFreq hrange hz
  obtain rfl : d = c := Option.some.inj (hd.symm.trans hc)
  have hrange' : range ∈ { timeline with stepperRanges := more }.stepperRanges := hmore hrange
  obtain ⟨c', hc', hend', -⟩ := committedBound_drivesZ mcuFreq hrange' hz
  obtain ⟨e, he, hle⟩ := committedEnd_mono mcuFreq (List.filter_subset _ hmore) hend
  obtain rfl : e = c' := Option.some.inj (he.symm.trans hend')
  exact ⟨e, hc', hle⟩

end Committed

section Bounds

omit [Field K] in
/-- The wider bound is the largest of those there are. -/
theorem max_widest (committed seqBound : Option K) (source : TbSource) (tA : K) :
    max tA (widest committed seqBound source tA).1 =
      max tA (max (committed.getD tA) (seqBound.getD tA)) := by
  cases committed with
  | none =>
    cases seqBound with
    | none => simp [widest]
    | some b => simp [widest]
  | some c =>
    cases seqBound with
    | none =>
      show max tA c = max tA (max c tA)
      rw [max_comm c tA, ← max_assoc, max_self]
    | some b =>
      unfold widest
      dsimp only [Option.getD_some]
      split
      · rename_i hlt
        rw [max_eq_right hlt.le]
      · rename_i hle
        rw [max_eq_left (not_lt.mp hle)]

variable {timeline : WalTimeline K} {heartbeat : Heartbeat}
  (receiveSeq : Option ReceiveSeqObservation) (config : ReconstructConfig K)

omit [Field K] in
theorem heldBack_eq_min {α : Type} (printTime estimate : K) (anomalies : List α) :
    (if estimate < printTime then (estimate, anomalies) else (printTime, [])).1 =
      min printTime estimate := by
  split
  · rename_i hahead
    exact (min_eq_right hahead.le).symm
  · rename_i hbehind
    exact (min_eq_left (not_lt.mp hbehind)).symm

omit [Field K] in
theorem clamped_eq_max {α : Type} (rawTb tA : K) (anomalies : List α) :
    (if rawTb < tA then (tA, anomalies) else (rawTb, [])).1 = max tA rawTb := by
  split
  · rename_i hlt
    exact (max_eq_left hlt.le).symm
  · rename_i hle
    exact (max_eq_right (not_lt.mp hle)).symm

theorem receiveSeqBound_eq :
    ((receiveSeq.bind fun obs => (ClockCorrelator.new.addSample
      (nsToS heartbeat.estSampleMonoNs.toNat) (exact (bitsValue
        heartbeat.estSamplePrintTime))).eventtimeToPrintTime (nsToS obs.monoNs)).map fun pt =>
          pt + config.stepGenLead) = receiveSeqBound heartbeat receiveSeq config := by
  cases receiveSeq with
  | none => rfl
  | some obs => rfl

/-- The parts of the window that are bounds. -/
theorem computeStopWindow_bounds (hheartbeat : timeline.heartbeat = some heartbeat) :
    ∃ w, computeStopWindow timeline receiveSeq config = .ok w ∧
      w.tA = min (exact (bitsValue heartbeat.printTime))
        (estimateAt heartbeat heartbeat.monoNs.toNat) ∧
      w.tB = max w.tA (max
        ((committedBound timeline config config.validFreq).1.getD w.tA)
        ((receiveSeqBound heartbeat receiveSeq config).getD w.tA)) ∧
      w.crash = classify timeline heartbeat.monoNs.toNat config ∧
      w.correlation.sample = some (nsToS heartbeat.estSampleMonoNs.toNat,
        exact (bitsValue heartbeat.estSamplePrintTime)) := by
  obtain ⟨w, hw⟩ : ∃ w, computeStopWindow timeline receiveSeq config = .ok w := by
    unfold computeStopWindow
    rw [hheartbeat]
    exact ⟨_, rfl⟩
  have hwindow := hw
  unfold computeStopWindow at hwindow
  rw [hheartbeat] at hwindow
  simp only [Checks.required, pure, Except.pure, bind, Except.bind, Except.ok.injEq] at hwindow
  have hcorrelation : w.correlation.sample = some (nsToS heartbeat.estSampleMonoNs.toNat,
      exact (bitsValue heartbeat.estSamplePrintTime)) := by
    rw [← hwindow]
    rfl
  have htA : w.tA = min (exact (bitsValue heartbeat.printTime))
      (estimateAt heartbeat heartbeat.monoNs.toNat) := by
    rw [← hwindow]
    exact heldBack_eq_min _ _ _
  have htB : w.tB = max w.tA (widest (committedBound timeline config config.validFreq).1
      (receiveSeqBound heartbeat receiveSeq config)
      (committedBound timeline config config.validFreq).2.1 w.tA).1 := by
    rw [← receiveSeqBound_eq, ← hwindow]
    exact clamped_eq_max _ _ _
  refine ⟨w, hw, htA, htB.trans (max_widest _ _ _ _), ?_, hcorrelation⟩
  rw [← hwindow]

end Bounds

section Soundness

variable {timeline : WalTimeline K} {heartbeat : Heartbeat}

/-- The window that a log with a heartbeat gives is sound, the observation of the received blocks
only widens it, and so do further ranges behind one of the vertical axis. -/
theorem computeStopWindow_sound [IsStrictOrderedRing K]
    (hheartbeat : timeline.heartbeat = some heartbeat)
    (receiveSeq : Option ReceiveSeqObservation) (config : ReconstructConfig K) :
    ∃ w, computeStopWindow timeline receiveSeq config = .ok w ∧
      w.Sound timeline heartbeat config ∧
      (∃ w₀, computeStopWindow timeline none config = .ok w₀ ∧
        w₀.tB ≤ w.tB ∧ w.tA = w₀.tA ∧ w.crash = w₀.crash) ∧
      ∀ more, timeline.stepperRanges ⊆ more →
        (∃ range ∈ timeline.stepperRanges, config.drivesZ range) →
        ∃ w', computeStopWindow { timeline with stepperRanges := more } receiveSeq config =
          .ok w' ∧ w.tB ≤ w'.tB := by
  obtain ⟨w, hw, htA, htB, hcrash, hcorrelation⟩ := computeStopWindow_bounds receiveSeq config hheartbeat
  obtain ⟨w₀, hw₀, htA₀, htB₀, hcrash₀, -⟩ := computeStopWindow_bounds none config hheartbeat
  have hsame : w₀.tA = w.tA := htA₀.trans htA.symm
  have hcommitted : ∀ range ∈ timeline.stepperRanges, config.drivesZ range →
      (committedTime config.validFreq range).1 ≤ w.tB := by
    intro range hrange hz
    obtain ⟨c, hc, -, hle⟩ := committedBound_drivesZ config.validFreq hrange hz
    have hbound : c ≤ w.tB := by
      rw [htB, hc]
      exact (le_max_left _ _).trans (le_max_right _ _)
    exact hle.trans hbound
  refine ⟨w, hw, ?_, ⟨w₀, hw₀, ?_, hsame.symm, hcrash.trans hcrash₀.symm⟩, ?_⟩
  · exact
      { ordered := htB ▸ le_max_left _ _
        alive := htA ▸ min_le_left _ _
        estimated := by
          refine ⟨estimateAt heartbeat heartbeat.monoNs.toNat, ?_, htA ▸ min_le_right _ _⟩
          unfold StopWindow.monoNsToPrintTime ClockCorrelator.eventtimeToPrintTime
          rw [hcorrelation]
          rfl
        derived := by
          intro range hrange hz freq hfreq
          have hle := hcommitted range hrange hz
          rw [hfreq] at hle
          exact (derived_le_committedTime freq range).trans hle
        reported := by
          intro range hrange hz hfreq
          have hle := hcommitted range hrange hz
          rw [hfreq] at hle
          exact hle
        tolerated := fun range hrange hz =>
          (reported_le_committedTime _ range).trans (hcommitted range hrange hz) }
  · rw [htB, htB₀, hsame]
    apply max_le (le_max_left _ _) (max_le ?_ (le_max_left _ _))
    exact (le_max_left _ _).trans (le_max_right _ _)
  · rintro more hmore ⟨range, hrange, hz⟩
    have hheartbeat' : { timeline with stepperRanges := more }.heartbeat = some heartbeat :=
      hheartbeat
    obtain ⟨w', hw', htA', htB', -, -⟩ := computeStopWindow_bounds receiveSeq config hheartbeat'
    obtain ⟨c, hc, -, -⟩ := committedBound_drivesZ config.validFreq hrange hz
    obtain ⟨c', hc', hle⟩ := committedBound_mono config.validFreq hrange hz hmore hc
    have hsame' : w'.tA = w.tA := htA'.trans htA.symm
    refine ⟨w', hw', ?_⟩
    rw [htB, htB', hsame', hc, hc']
    exact max_le_max le_rfl (max_le_max hle le_rfl)

/-- The last beat of a print, ten seconds into it. -/
def beat : Heartbeat where
  sequence := 9
  monoNs := 10 ^ 10
  wallNs := 0
  printTime := 0x4026000000000000
  estSampleMonoNs := 10 ^ 10
  estSamplePrintTime := 0x4024000000000000
  walOffset := 0

/-- A print with vertical steps up to these clocks. -/
def beatingTimeline (clocks : List ℕ) : WalTimeline ℚ :=
  { contextTimeline [] with
    heartbeat := some beat
    stepperRanges := clocks.map fun lastClock =>
      ⟨0, "stepper_z", 0, lastClock, .fin 0, .fin (lastClock / 1000), .fin 0, 0, .fin 1, []⟩ }

def clockedConfig : ReconstructConfig ℚ := { exampleConfig with mcuFreq := some 1000 }

theorem computeStopWindow_sound_further :
    ∃ w w', computeStopWindow (beatingTimeline [9000]) (some ⟨10 ^ 10, 7⟩) clockedConfig = .ok w ∧
      computeStopWindow (beatingTimeline [9000, 12000]) (some ⟨10 ^ 10, 7⟩) clockedConfig =
        .ok w' ∧
      w.Sound (beatingTimeline [9000]) beat clockedConfig ∧ w.tB ≤ w'.tB := by
  have hheartbeat : (beatingTimeline [9000]).heartbeat = some beat := rfl
  obtain ⟨w, hw, hsound, -, hwider⟩ := computeStopWindow_sound hheartbeat (some ⟨10 ^ 10, 7⟩)
    clockedConfig
  have hvertical : ∃ range ∈ (beatingTimeline [9000]).stepperRanges,
      clockedConfig.drivesZ range := by
    refine ⟨_, List.mem_singleton_self _, ?_⟩
    show "stepper_z".toList <+: "stepper_z".toList
    exact List.prefix_rfl
  obtain ⟨w', hw', hle⟩ := hwider (beatingTimeline [9000, 12000]).stepperRanges
    (by simp [beatingTimeline]) hvertical
  exact ⟨w, w', hw, hw', hsound, hle⟩

end Soundness

end DeadReckoning.Reconstruct
