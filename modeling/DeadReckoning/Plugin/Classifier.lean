import DeadReckoning.Lib.Checks
import DeadReckoning.Lib.Median
import Mathlib.Algebra.Order.BigOperators.Group.List
import Mathlib.Analysis.SpecialFunctions.Pow.Real

/-! The classifier of one drag pass. Root mean squares are kept as their squares, and every number
is exact, so the tests for infinite values are left out. -/
namespace DeadReckoning.Plugin

open Checks Median

section Classifier

/-- Powers of positive bases, as far as the classifier depends on them. -/
structure Power (K : Type) [Field K] [LinearOrder K] where
  pow : K → K → K
  pow_pos : ∀ b e, 0 < b → 0 < pow b e
  pow_zero : ∀ b, 0 < b → pow b 0 = 1
  pow_one : ∀ b, 0 < b → pow b 1 = b
  pow_anti : ∀ b e e', 0 < b → b ≤ 1 → e ≤ e' → pow b e' ≤ pow b e

noncomputable def realPower : Power ℝ where
  pow b e := b ^ e
  pow_pos _ e hb := Real.rpow_pos_of_pos hb e
  pow_zero b _ := Real.rpow_zero b
  pow_one b _ := Real.rpow_one b
  pow_anti _ _ _ hb hone hle := Real.rpow_le_rpow_of_exponent_ge hb hone hle

def minPassSamples : ℕ := 128

def rmsWindow : ℕ := 64

section Data

variable (K : Type)

structure Sample where
  t : K
  ax : K
  ay : K
  az : K
  deriving DecidableEq

/-- Why a pass is not classified, with the numbers that are shown. -/
inductive PassInvalid where
  | tooFewSamples (n : ℕ)
  | constantSignal (n : ℕ)
  | nonIncreasing
  | sampleGap (worst median : K)
  deriving DecidableEq

structure StreamStats where
  meanSquare : K
  peakSquare : K

structure PassVerdict where
  contact : Bool
  peakSquare : K
  ratioSquare : K
  confidence : K

inductive Classified where
  | verdict (verdict : PassVerdict K)
  | invalid (invalid : PassInvalid K)

/-- What the classifier raises; the last three are never reached. -/
inductive ClassifierError where
  | noiseFloor (floor : K)
  | sensitivity (sensitivity : K)
  | anchors (sensitivity : K)
  | emptySequence
  | noWindow

end Data

variable {K : Type} [Field K] [LinearOrder K] (power : Power K)

def dtGapFactor : K := 5

def sensitivityAnchors : List (K × K) := [(0, 8), (50, 4), (100, 3 / 2)]

def multiplierFrom (s : K) : List ((K × K) × (K × K)) → Except (ClassifierError K) K
  | [] => .error (.anchors s)
  | ((s0, m0), (s1, m1)) :: anchors =>
      if s ≤ s1 then .ok (m0 * power.pow (m1 / m0) ((s - s0) / (s1 - s0)))
      else multiplierFrom s anchors

def multiplier (sensitivity : K) : Except (ClassifierError K) K := do
  ensure (0 ≤ sensitivity ∧ sensitivity ≤ 100) (.sensitivity sensitivity)
  multiplierFrom power sensitivity (sensitivityAnchors.zip sensitivityAnchors.tail)

/-- No axis ever moves. -/
def isConstant (samples : List (Sample K)) : Bool :=
  match samples with
  | [] => true
  | first :: _ => samples.all fun s => s.ax = first.ax ∧ s.ay = first.ay ∧ s.az = first.az

/-- The times between samples. -/
def gaps (samples : List (Sample K)) : List K :=
  samples.zipWith (fun a b => b.t - a.t) samples.tail

/-- The widest gap against the median gap; there is at least one. -/
def gapCheck (dts : List K) : Option (PassInvalid K) :=
  match dts.max?, median dts with
  | some worst, some m => if dtGapFactor * m < worst then some (.sampleGap worst m) else none
  | _, _ => none

def validatePassSamples (samples : List (Sample K)) : Option (PassInvalid K) :=
  if samples.length < minPassSamples then some (.tooFewSamples samples.length)
  else if isConstant samples then some (.constantSignal samples.length)
  else if (gaps samples).any (· ≤ 0) then some .nonIncreasing
  else gapCheck (gaps samples)

/-- `range(0, stop, step)`. -/
def rangeBy (stop step : ℕ) : List ℕ := List.range' 0 ((stop + step - 1) / step) step

/-- The starts of the windows; the last one ends with the list. -/
def windowOffsets (n window : ℕ) : Option (List ℕ) :=
  let stride := max 1 (window / 2)
  let offsets := rangeBy (n + 1 - window) stride
  let tail := n - window
  offsets.getLast?.map fun last => if last ≠ tail then offsets ++ [tail] else offsets

/-- The squared magnitudes, off the median of each axis. -/
def preprocess (samples : List (Sample K)) : Option (List K) := do
  let medX ← median (samples.map Sample.ax)
  let medY ← median (samples.map Sample.ay)
  let medZ ← median (samples.map Sample.az)
  return samples.map fun s => (s.ax - medX) ^ 2 + (s.ay - medY) ^ 2 + (s.az - medZ) ^ 2

/-- The mean over the window that starts here. -/
def windowMean (mag : List K) (window off : ℕ) : K := ((mag.drop off).take window).sum / window

def keepPeak (mag : List K) (window : ℕ) (peak : K) (off : ℕ) : K :=
  if peak < windowMean mag window off then windowMean mag window off else peak

def stats (samples : List (Sample K)) (window : ℕ) :
    Except (ClassifierError K) (StreamStats K) := do
  let mag ← required .emptySequence (preprocess samples)
  let offsets ← required .noWindow (windowOffsets mag.length window)
  return ⟨mag.sum / mag.length, offsets.foldl (keepPeak mag window) 0⟩

/-- Zero at the threshold, one far away from it. -/
def confidence (ratioSquare : K) : K :=
  min 1 (max 0 (2 * |ratioSquare / (1 + ratioSquare) - 1 / 2|))

def passVerdict (stats : StreamStats K) (threshold : K) : PassVerdict K :=
  let ratioSquare := stats.peakSquare / threshold ^ 2
  ⟨1 < ratioSquare, stats.peakSquare, ratioSquare, confidence ratioSquare⟩

def classifyPass (samples : List (Sample K)) (noiseFloorRms sensitivity : K) :
    Except (ClassifierError K) (Classified K) := do
  ensure (0 < noiseFloorRms) (.noiseFloor noiseFloorRms)
  let mult ← multiplier power sensitivity
  match validatePassSamples samples with
  | some invalid => return .invalid invalid
  | none =>
      let stats ← stats samples rmsWindow
      return .verdict (passVerdict stats (noiseFloorRms * mult))

end Classifier

section Windows

theorem mem_rangeBy {stop step a : ℕ} (hstep : 0 < step) :
    a ∈ rangeBy stop step ↔ a < stop ∧ step ∣ a := by
  have hcount : ∀ i, i < (stop + step - 1) / step ↔ step * i < stop := by
    intro i
    rw [Nat.lt_iff_add_one_le, Nat.le_div_iff_mul_le hstep, Nat.add_mul, Nat.mul_comm i step]
    omega
  rw [rangeBy, List.mem_range']
  constructor
  · rintro ⟨i, hi, rfl⟩
    rw [Nat.zero_add]
    exact ⟨(hcount i).mp hi, Nat.dvd_mul_right step i⟩
  · rintro ⟨hlt, i, rfl⟩
    exact ⟨i, (hcount i).mpr hlt, (Nat.zero_add _).symm⟩

/-- The windows start at the steps of the stride and where the last one fits. -/
theorem windowOffsets_spec {n window : ℕ} (hfits : window ≤ n) :
    ∃ offsets, windowOffsets n window = some offsets ∧
      ∀ a, a ∈ offsets ↔ max 1 (window / 2) ∣ a ∧ a + window ≤ n ∨ a = n - window := by
  have hmem : ∀ a, a ∈ rangeBy (n + 1 - window) (max 1 (window / 2)) ↔
      max 1 (window / 2) ∣ a ∧ a + window ≤ n := by
    intro a
    rw [mem_rangeBy (by omega), and_comm]
    have hin : a < n + 1 - window ↔ a + window ≤ n := by omega
    rw [hin]
  have hne : rangeBy (n + 1 - window) (max 1 (window / 2)) ≠ [] :=
    List.ne_nil_of_mem ((hmem 0).mpr ⟨Nat.dvd_zero _, by omega⟩)
  obtain ⟨last, hlast⟩ := Option.ne_none_iff_exists'.mp (mt List.getLast?_eq_none_iff.mp hne)
  unfold windowOffsets
  dsimp only
  rw [hlast, Option.map_some]
  by_cases htail : last = n - window
  · rw [if_neg (not_not.mpr htail)]
    refine ⟨_, rfl, fun a => ⟨fun ha => .inl ((hmem a).mp ha), ?_⟩⟩
    rintro (ha | rfl)
    · exact (hmem a).mpr ha
    · exact htail ▸ List.mem_of_getLast? hlast
  · rw [if_pos htail]
    refine ⟨_, rfl, fun a => ?_⟩
    rw [List.mem_append, hmem, List.mem_singleton]

/-- A burst of half a window lies in one of the windows, wherever it starts. -/
theorem windowOffsets_holds {n window i : ℕ} {offsets : List ℕ}
    (hoffsets : windowOffsets n window = some offsets) (hfits : window ≤ n) (hwindow : 2 ≤ window)
    (hi : i + window / 2 ≤ n) :
    ∃ off ∈ offsets, off ≤ i ∧ i + window / 2 ≤ off + window ∧ off + window ≤ n := by
  obtain ⟨offsets', hspec, hmem⟩ := windowOffsets_spec hfits
  obtain rfl := Option.some.inj (hspec.symm.trans hoffsets)
  have hstride : max 1 (window / 2) = window / 2 := by omega
  rw [hstride] at hmem
  have hdiv := Nat.div_add_mod i (window / 2)
  have hmod := Nat.mod_lt i (show 0 < window / 2 by omega)
  by_cases hin : window / 2 * (i / (window / 2)) + window ≤ n
  · exact ⟨_, (hmem _).mpr (.inl ⟨Nat.dvd_mul_right _ _, hin⟩), by omega, by omega, hin⟩
  · -- the step in front of the burst has no room left: the last window holds it
    exact ⟨n - window, (hmem _).mpr (.inr rfl), by omega, by omega, by omega⟩

theorem windowOffsets_covers {n window i : ℕ} {offsets : List ℕ}
    (hoffsets : windowOffsets n window = some offsets) (hfits : window ≤ n) (hwindow : 2 ≤ window)
    (hi : i < n) : ∃ off ∈ offsets, off ≤ i ∧ i < off + window := by
  by_cases hroom : i + window / 2 ≤ n
  · obtain ⟨off, hoff, hlow, hhigh, -⟩ := windowOffsets_holds hoffsets hfits hwindow hroom
    exact ⟨off, hoff, hlow, by omega⟩
  · obtain ⟨off, hoff, hlow, hhigh, hend⟩ :=
      windowOffsets_holds (i := n - window / 2) hoffsets hfits hwindow (by omega)
    exact ⟨off, hoff, by omega, by omega⟩

end Windows

section Peak

variable {K : Type} [Field K] [LinearOrder K] (mag : List K) (window : ℕ)

theorem keepPeak_ge (peak : K) (off : ℕ) :
    peak ≤ keepPeak mag window peak off ∧
      windowMean mag window off ≤ keepPeak mag window peak off := by
  unfold keepPeak
  split_ifs with hless
  · exact ⟨hless.le, le_rfl⟩
  · exact ⟨le_rfl, not_lt.mp hless⟩

theorem foldl_keepPeak_ge (offsets : List ℕ) (peak : K) :
    peak ≤ offsets.foldl (keepPeak mag window) peak ∧
      ∀ off ∈ offsets, windowMean mag window off ≤ offsets.foldl (keepPeak mag window) peak := by
  induction offsets generalizing peak with
  | nil => simp
  | cons off offsets ih =>
    obtain ⟨hpeak, hall⟩ := ih (keepPeak mag window peak off)
    obtain ⟨hkept, hmean⟩ := keepPeak_ge mag window peak off
    exact ⟨hkept.trans hpeak, List.forall_mem_cons.mpr ⟨hmean.trans hpeak, hall⟩⟩

variable {mag : List K} {window : ℕ} [IsStrictOrderedRing K]

theorem lt_sum {bound : K} {l : List K} (hne : l ≠ []) (h : ∀ x ∈ l, bound < x) :
    l.length * bound < l.sum := by
  have hlt := List.sum_lt_sum_of_ne_nil hne (fun _ => bound) (fun x => x) h
  simpa using hlt

/-- A burst above twice the bound lifts the mean of a window that holds it above the bound. -/
theorem lt_windowMean {bound : K} {off i : ℕ} (hnonneg : ∀ x ∈ mag, 0 ≤ x) (hwindow : 2 ≤ window)
    (heven : 2 ∣ window) (hlow : off ≤ i) (hhigh : i + window / 2 ≤ off + window)
    (hi : i + window / 2 ≤ mag.length)
    (hburst : ∀ x ∈ (mag.drop i).take (window / 2), 2 * bound < x) :
    bound < windowMean mag window off := by
  obtain ⟨half, rfl⟩ := heven
  have hhalf : 2 * half / 2 = half := by omega
  rw [hhalf] at hhigh hi hburst
  have hpos : (0 : K) < (2 * half : ℕ) := by exact_mod_cast (by omega : 0 < 2 * half)
  have hlen : ((mag.drop i).take half).length = half := by
    rw [List.length_take, List.length_drop]
    omega
  have hne : (mag.drop i).take half ≠ [] := List.ne_nil_of_length_pos (by omega)
  have hsub : ((mag.drop i).take half).Sublist ((mag.drop off).take (2 * half)) := by
    have hin : (mag.drop i).take half =
        ((((mag.drop off).take (2 * half)).drop (i - off)).take half) := by
      rw [List.drop_take, List.drop_drop, List.take_take]
      congr 1
      · omega
      · congr 1
        omega
    rw [hin]
    exact (List.take_sublist _ _).trans (List.drop_sublist _ _)
  have hall : ∀ x ∈ (mag.drop off).take (2 * half), 0 ≤ x := fun x hx =>
    hnonneg x (List.mem_of_mem_drop (List.mem_of_mem_take hx))
  have hbound := lt_sum hne hburst
  rw [hlen] at hbound
  rw [windowMean, lt_div_iff₀ hpos]
  calc bound * (2 * half : ℕ) = half * (2 * bound) := by push_cast; ring
    _ < ((mag.drop i).take half).sum := hbound
    _ ≤ ((mag.drop off).take (2 * half)).sum := hsub.sum_le_sum hall

theorem preprocess_some {samples : List (Sample K)} (hne : samples ≠ []) :
    ∃ mag, preprocess samples = some mag ∧ mag.length = samples.length ∧ ∀ x ∈ mag, 0 ≤ x := by
  have hmedian : ∀ f : Sample K → K, ∃ m, median (samples.map f) = some m := fun f =>
    (median_between (mt List.map_eq_nil_iff.mp hne)).imp fun _ h => h.1
  obtain ⟨medX, hX⟩ := hmedian Sample.ax
  obtain ⟨medY, hY⟩ := hmedian Sample.ay
  obtain ⟨medZ, hZ⟩ := hmedian Sample.az
  refine ⟨samples.map fun s => (s.ax - medX) ^ 2 + (s.ay - medY) ^ 2 + (s.az - medZ) ^ 2,
    ?_, ?_, ?_⟩
  · simp [preprocess, hX, hY, hZ]
  · exact List.length_map _
  · intro x hx
    obtain ⟨s, -, rfl⟩ := List.mem_map.mp hx
    positivity

end Peak

section Threshold

variable {K : Type} [Field K] [LinearOrder K] {power : Power K} {s s' m m' : K}

/-- The two legs between the anchors. -/
theorem multiplier_legs (h : multiplier power s = .ok m) :
    0 ≤ s ∧ s ≤ 100 ∧ (s ≤ 50 ∧ m = 8 * power.pow (4 / 8) ((s - 0) / (50 - 0)) ∨
      50 < s ∧ m = 4 * power.pow (3 / 2 / 4) ((s - 50) / (100 - 50))) := by
  simp only [multiplier, bind_eq_ok, ensure_eq_ok, decide_eq_true_eq] at h
  obtain ⟨-, ⟨hlow, hhigh⟩, hlegs⟩ := h
  simp only [sensitivityAnchors, List.tail_cons, List.zip_cons_cons, List.zip_nil_right,
    multiplierFrom] at hlegs
  refine ⟨hlow, hhigh, ?_⟩
  by_cases hhalf : s ≤ 50
  · rw [if_pos hhalf] at hlegs
    exact .inl ⟨hhalf, (Except.ok.inj hlegs).symm⟩
  · rw [if_neg hhalf, if_pos hhigh] at hlegs
    exact .inr ⟨not_le.mp hhalf, (Except.ok.inj hlegs).symm⟩

theorem multiplier_ok (power : Power K) (hlow : 0 ≤ s) (hhigh : s ≤ 100) :
    ∃ m, multiplier power s = .ok m := by
  have hchecked : ensure (decide (0 ≤ s ∧ s ≤ 100)) (ClassifierError.sensitivity s) = .ok () :=
    ensure_eq_ok.mpr (decide_eq_true ⟨hlow, hhigh⟩)
  rw [multiplier, hchecked]
  simp only [sensitivityAnchors, List.tail_cons, List.zip_cons_cons, List.zip_nil_right,
    multiplierFrom]
  by_cases hhalf : s ≤ 50
  · exact ⟨_, if_pos hhalf⟩
  · exact ⟨_, (if_neg hhalf).trans (if_pos hhigh)⟩

variable [IsStrictOrderedRing K]

theorem multiplier_pos (h : multiplier power s = .ok m) : 0 < m := by
  obtain ⟨-, -, ⟨-, rfl⟩ | ⟨-, rfl⟩⟩ := multiplier_legs h
  · exact mul_pos (by norm_num) (power.pow_pos _ _ (by norm_num))
  · exact mul_pos (by norm_num) (power.pow_pos _ _ (by norm_num))

/-- The first leg ends where the second one starts. -/
theorem multiplier_anti (h : multiplier power s = .ok m) (h' : multiplier power s' = .ok m')
    (hle : s ≤ s') : m' ≤ m := by
  have hfirst : ∀ e e', e ≤ e' → power.pow (4 / 8) e' ≤ power.pow (4 / 8) e := fun e e' he =>
    power.pow_anti _ _ _ (by norm_num) (by norm_num) he
  have hsecond : ∀ e e', e ≤ e' → power.pow (3 / 2 / 4) e' ≤ power.pow (3 / 2 / 4) e :=
    fun e e' he => power.pow_anti _ _ _ (by norm_num) (by norm_num) he
  obtain ⟨-, -, ⟨hs, rfl⟩ | ⟨hs, rfl⟩⟩ := multiplier_legs h
  · obtain ⟨-, -, ⟨-, rfl⟩ | ⟨hs', rfl⟩⟩ := multiplier_legs h'
    · have := hfirst ((s - 0) / (50 - 0)) ((s' - 0) / (50 - 0)) (by linarith)
      linarith
    · have hone := hfirst ((s - 0) / (50 - 0)) 1 (by linarith)
      have hzero := hsecond 0 ((s' - 50) / (100 - 50)) (by linarith)
      rw [power.pow_one _ (by norm_num)] at hone
      rw [power.pow_zero _ (by norm_num)] at hzero
      linarith
  · obtain ⟨-, -, ⟨hs', -⟩ | ⟨-, rfl⟩⟩ := multiplier_legs h'
    · linarith
    · have := hsecond ((s - 50) / (100 - 50)) ((s' - 50) / (100 - 50)) (by linarith)
      linarith

end Threshold

section Shift

variable {K : Type} [Field K] [LinearOrder K]

/-- A constant added to each axis. -/
def Sample.shift (dx dy dz : K) (s : Sample K) : Sample K :=
  { s with ax := s.ax + dx, ay := s.ay + dy, az := s.az + dz }

variable (dx dy dz : K) (samples : List (Sample K))

omit [LinearOrder K] in
theorem gaps_shift : gaps (samples.map (Sample.shift dx dy dz)) = gaps samples := by
  simp [gaps, ← List.map_tail, List.zipWith_map, Sample.shift]

variable [IsStrictOrderedRing K]

theorem isConstant_shift :
    isConstant (samples.map (Sample.shift dx dy dz)) = isConstant samples := by
  cases samples with
  | nil => rfl
  | cons first rest => simp [isConstant, Sample.shift, Function.comp_def]

theorem validatePassSamples_shift :
    validatePassSamples (samples.map (Sample.shift dx dy dz)) = validatePassSamples samples := by
  unfold validatePassSamples
  rw [List.length_map, isConstant_shift, gaps_shift]

theorem preprocess_shift :
    preprocess (samples.map (Sample.shift dx dy dz)) = preprocess samples := by
  have hX : (samples.map (Sample.shift dx dy dz)).map Sample.ax =
      (samples.map Sample.ax).map (· + dx) := by simp [Sample.shift]
  have hY : (samples.map (Sample.shift dx dy dz)).map Sample.ay =
      (samples.map Sample.ay).map (· + dy) := by simp [Sample.shift]
  have hZ : (samples.map (Sample.shift dx dy dz)).map Sample.az =
      (samples.map Sample.az).map (· + dz) := by simp [Sample.shift]
  unfold preprocess
  rw [hX, hY, hZ, median_map_add, median_map_add, median_map_add]
  cases median (samples.map Sample.ax) with
  | none => rfl
  | some medX =>
    cases median (samples.map Sample.ay) with
    | none => rfl
    | some medY =>
      cases median (samples.map Sample.az) with
      | none => rfl
      | some medZ => simp [Sample.shift]

theorem classifyPass_shift (power : Power K) (noiseFloorRms sensitivity : K) :
    classifyPass power (samples.map (Sample.shift dx dy dz)) noiseFloorRms sensitivity =
      classifyPass power samples noiseFloorRms sensitivity := by
  unfold classifyPass stats
  rw [validatePassSamples_shift, preprocess_shift]

end Shift

section Verdict

variable {K : Type} [Field K] [LinearOrder K] {power : Power K} {samples : List (Sample K)}
  {floor s : K}

/-- A pass that is classified was measured against the threshold. -/
theorem classifyPass_verdict {v : PassVerdict K}
    (h : classifyPass power samples floor s = .ok (.verdict v)) :
    0 < floor ∧ validatePassSamples samples = none ∧ ∃ mult measured,
      multiplier power s = .ok mult ∧ stats samples rmsWindow = .ok measured ∧
      (v.contact = true ↔ 1 < measured.peakSquare / (floor * mult) ^ 2) := by
  simp only [classifyPass, bind_eq_ok, ensure_eq_ok, decide_eq_true_eq] at h
  obtain ⟨-, hfloor, mult, hmult, h⟩ := h
  cases hvalid : validatePassSamples samples with
  | some invalid =>
    rw [hvalid] at h
    cases h
  | none =>
    rw [hvalid] at h
    obtain ⟨measured, hstats, heq⟩ := bind_eq_ok.mp h
    cases heq
    exact ⟨hfloor, rfl, mult, measured, hmult, hstats, by simp [passVerdict]⟩

theorem classifyPass_of_stats {mult : K} {measured : StreamStats K} (hfloor : 0 < floor)
    (hvalid : validatePassSamples samples = none) (hmult : multiplier power s = .ok mult)
    (hstats : stats samples rmsWindow = .ok measured)
    (habove : 1 < measured.peakSquare / (floor * mult) ^ 2) :
    ∃ v, classifyPass power samples floor s = .ok (.verdict v) ∧ v.contact = true := by
  have hensured : ensure (decide (0 < floor)) (ClassifierError.noiseFloor floor) = .ok () :=
    ensure_eq_ok.mpr (decide_eq_true hfloor)
  refine ⟨passVerdict measured (floor * mult), ?_, decide_eq_true habove⟩
  rw [classifyPass, hvalid]
  exact bind_eq_ok.mpr ⟨(), hensured, bind_eq_ok.mpr ⟨mult, hmult,
    bind_eq_ok.mpr ⟨measured, hstats, rfl⟩⟩⟩

theorem length_of_valid (hvalid : validatePassSamples samples = none) : 128 ≤ samples.length := by
  unfold validatePassSamples minPassSamples at hvalid
  split_ifs at hvalid
  omega

variable [IsStrictOrderedRing K]

/-- The measurement of a valid pass: no window is above its peak. -/
theorem stats_of_valid (hvalid : validatePassSamples samples = none) :
    ∃ mag offsets measured, preprocess samples = some mag ∧ mag.length = samples.length ∧
      (∀ x ∈ mag, 0 ≤ x) ∧ windowOffsets samples.length rmsWindow = some offsets ∧
      stats samples rmsWindow = .ok measured ∧ 0 ≤ measured.peakSquare ∧
      ∀ off ∈ offsets, windowMean mag rmsWindow off ≤ measured.peakSquare := by
  have hlong := length_of_valid hvalid
  have hne : samples ≠ [] := List.ne_nil_of_length_pos (by omega)
  obtain ⟨mag, hmag, hlen, hnonneg⟩ := preprocess_some hne
  have hfits : rmsWindow ≤ samples.length := by
    unfold rmsWindow
    omega
  obtain ⟨offsets, hoffsets, -⟩ := windowOffsets_spec hfits
  obtain ⟨hzero, hall⟩ := foldl_keepPeak_ge mag rmsWindow offsets 0
  refine ⟨mag, offsets, ⟨mag.sum / mag.length, offsets.foldl (keepPeak mag rmsWindow) 0⟩, hmag,
    hlen, hnonneg, hoffsets, ?_, hzero, hall⟩
  have hoffsets' : windowOffsets mag.length rmsWindow = some offsets := by rw [hlen, hoffsets]
  exact bind_eq_ok.mpr ⟨mag, required_eq_ok.mpr hmag,
    bind_eq_ok.mpr ⟨offsets, required_eq_ok.mpr hoffsets', rfl⟩⟩

/-- Nothing that a contact sounds like is missed. -/
structure MissesNothing (power : Power K) : Prop where
  /-- The windows are whole, and every sample lies in one. -/
  windows : ∀ samples : List (Sample K), validatePassSamples samples = none →
    ∃ offsets, windowOffsets samples.length rmsWindow = some offsets ∧
      (∀ off ∈ offsets, off + rmsWindow ≤ samples.length) ∧
      ∀ i < samples.length, ∃ off ∈ offsets, off ≤ i ∧ i < off + rmsWindow
  /-- A loud burst is a contact, wherever it starts. -/
  burst : ∀ (samples : List (Sample K)) (mag : List K) (floor s mult : K) (i : ℕ),
    validatePassSamples samples = none → 0 < floor → multiplier power s = .ok mult →
    preprocess samples = some mag → i + 32 ≤ mag.length →
    (∀ x ∈ (mag.drop i).take 32, 2 * (floor * mult) ^ 2 < x) →
    ∃ v, classifyPass power samples floor s = .ok (.verdict v) ∧ v.contact = true
  shift : ∀ (samples : List (Sample K)) (floor s dx dy dz : K),
    classifyPass power (samples.map (Sample.shift dx dy dz)) floor s =
      classifyPass power samples floor s
  /-- A contact stays one with a lower floor and a higher sensitivity. -/
  monotone : ∀ (samples : List (Sample K)) (floor floor' s s' : K) (v : PassVerdict K),
    classifyPass power samples floor s = .ok (.verdict v) → v.contact = true →
    0 < floor' → floor' ≤ floor → s ≤ s' → s' ≤ 100 →
    ∃ v', classifyPass power samples floor' s' = .ok (.verdict v') ∧ v'.contact = true

theorem classifyPass_missesNothing (power : Power K) : MissesNothing power where
  windows samples hvalid := by
    have hfits : rmsWindow ≤ samples.length := by
      have := length_of_valid hvalid
      unfold rmsWindow
      omega
    obtain ⟨offsets, hoffsets, hmem⟩ := windowOffsets_spec hfits
    refine ⟨offsets, hoffsets, fun off hoff => ?_, fun i hi => ?_⟩
    · rcases (hmem off).mp hoff with ⟨-, hin⟩ | rfl
      · exact hin
      · omega
    · exact windowOffsets_covers hoffsets hfits (by decide) hi
  burst samples mag floor s mult i hvalid hfloor hmult hmag hi hloud := by
    obtain ⟨mag', offsets, measured, hmag', hlen, hnonneg, hoffsets, hstats, -, hpeak⟩ :=
      stats_of_valid hvalid
    obtain rfl := Option.some.inj (hmag.symm.trans hmag')
    have hfits : rmsWindow ≤ samples.length := by
      have := length_of_valid hvalid
      unfold rmsWindow
      omega
    obtain ⟨off, hoff, hlow, hhigh, -⟩ :=
      windowOffsets_holds hoffsets hfits (by decide) (hlen ▸ hi)
    have hmean := lt_windowMean hnonneg (by decide) (by decide) hlow hhigh hi hloud
    have hthreshold : 0 < (floor * mult) ^ 2 := by
      have := mul_pos hfloor (multiplier_pos hmult)
      positivity
    exact classifyPass_of_stats hfloor hvalid hmult hstats
      ((one_lt_div hthreshold).mpr (hmean.trans_le (hpeak off hoff)))
  shift samples floor s dx dy dz := classifyPass_shift dx dy dz samples power floor s
  monotone samples floor floor' s s' v h hcontact hfloor' hle hsens hhigh := by
    obtain ⟨hfloor, hvalid, mult, measured, hmult, hstats, habove⟩ := classifyPass_verdict h
    obtain ⟨hlow, -⟩ := multiplier_legs hmult
    obtain ⟨mult', hmult'⟩ := multiplier_ok power (hlow.trans hsens) hhigh
    obtain ⟨-, -, measured', -, -, -, -, hstats', hpeak, -⟩ := stats_of_valid hvalid
    obtain rfl := Except.ok.inj (hstats.symm.trans hstats')
    have hpos := mul_pos hfloor' (multiplier_pos hmult')
    have hlower : floor' * mult' ≤ floor * mult :=
      mul_le_mul hle (multiplier_anti hmult hmult' hsens) (multiplier_pos hmult').le hfloor.le
    have hsquare : (floor' * mult') ^ 2 ≤ (floor * mult) ^ 2 := pow_le_pow_left₀ hpos.le hlower 2
    have hsquare_pos : 0 < (floor' * mult') ^ 2 := by positivity
    have hratio := div_le_div_of_nonneg_left hpeak hsquare_pos hsquare
    exact classifyPass_of_stats hfloor' hvalid hmult' hstats' ((habove.mp hcontact).trans_le hratio)

theorem classifyPass_missesNothing_real : MissesNothing realPower :=
  classifyPass_missesNothing realPower

end Verdict

end DeadReckoning.Plugin
