import DeadReckoning.Lib.Checks
import DeadReckoning.Lib.Combinations
import DeadReckoning.Lib.Median
import Mathlib.Data.Rat.Defs

/-! The touch sampler: touches are taken one at a time until the recent ones hold a few that
agree. Its log is left out. -/
namespace DeadReckoning.Plugin

open Checks Combinations Median

section Sampler

def minSamples : ℤ := 3

def maxMaxSamples : ℤ := 20

def maxWindow : ℤ := 10

section Config

variable (K : Type)

inductive ConfigError where
  | samples (samples : ℤ)
  | maxNoisy (maxNoisy : ℤ)
  | maxSamplesBelow (maxSamples samples : ℤ)
  | maxSamplesAbove (maxSamples : ℤ)
  | window (window samples maxNoisy : ℤ)
  | rangeNotPositive (sampleRange : K)
  | rangeAboveCap (sampleRange : K)
  deriving DecidableEq

structure ConsensusConfig where
  samples : ℤ
  maxSamples : ℤ
  maxNoisy : ℤ
  sampleRange : K
  deriving DecidableEq

structure ConsensusResult where
  median : K
  range : WithTop K
  subset : List K
  touchesUsed : ℕ
  allSamples : List K

structure ConsensusError where
  samples : ℤ
  sampleRange : K
  window : ℤ
  touches : ℕ
  allSamples : List K

/-- What ends a sequence without a result. -/
inductive SequenceError where
  | consensus (error : ConsensusError K)
  | windowTooLong (length : ℕ)
  | indexError

end Config

variable {K : Type} [Field K] [LinearOrder K]

def sampleRangeCap : K := 15 / 1000

namespace ConsensusConfig

def standard : ConsensusConfig K where
  samples := 3
  maxSamples := 10
  maxNoisy := 2
  sampleRange := 10 / 1000

def window (config : ConsensusConfig K) : ℤ := config.samples + config.maxNoisy

/-- Every number here is finite, so the test for that is left out. -/
def postInit (config : ConsensusConfig K) : Except (ConfigError K) Unit := do
  ensure (minSamples ≤ config.samples) (.samples config.samples)
  ensure (0 ≤ config.maxNoisy) (.maxNoisy config.maxNoisy)
  ensure (config.samples ≤ config.maxSamples) (.maxSamplesBelow config.maxSamples config.samples)
  ensure (config.maxSamples ≤ maxMaxSamples) (.maxSamplesAbove config.maxSamples)
  ensure (config.window ≤ maxWindow) (.window config.window config.samples config.maxNoisy)
  ensure (0 < config.sampleRange) (.rangeNotPositive config.sampleRange)
  ensure (config.sampleRange ≤ sampleRangeCap) (.rangeAboveCap config.sampleRange)

end ConsensusConfig

def computeRange : List K → WithTop K
  | a :: b :: rest => ↑((b :: rest).foldl max a - (b :: rest).foldl min a)
  | _ => ⊤

def findBestSubset (window : List K) (size : ℕ) : Except (SequenceError K) (Option (List K)) :=
  if maxWindow < window.length then .error (.windowTooLong window.length)
  else if window.length < size then .ok none
  else .ok (cheapest computeRange (combinations size window))

/-- The slice `collected[-n:]`. -/
def lastOf (n : ℕ) (collected : List K) : List K := collected.drop (collected.length - n)

variable (touch : ℕ → K) (config : ConsensusConfig K)

/-- What a round of the loop makes of the touches so far. -/
def judge (collected : List K) : Except (SequenceError K) (Option (ConsensusResult K)) :=
  if collected.length < config.samples then .ok none
  else do
    match ← findBestSubset (lastOf config.window.toNat collected) config.samples.toNat with
    | none => .ok none
    | some best =>
        if config.sampleRange < computeRange best then .ok none
        else do
          let m ← required .indexError (median best)
          return some ⟨m, computeRange best, best, collected.length, collected⟩

def collectFrom : ℕ → List K → Except (SequenceError K) (ConsensusResult K)
  | 0, collected =>
      .error (.consensus
        ⟨config.samples, config.sampleRange, config.window, collected.length, collected⟩)
  | room + 1, collected => do
      let collected := collected ++ [touch collected.length]
      match ← judge config collected with
      | none => collectFrom room collected
      | some result => return result

def runConsensus : Except (SequenceError K) (ConsensusResult K) :=
  collectFrom touch config config.maxSamples.toNat []

end Sampler

section Agreement

variable {K : Type} [LinearOrder K]

theorem computeRange_ne_top [Field K] {touches : List K} (hlen : 2 ≤ touches.length) :
    computeRange touches ≠ ⊤ := by
  match touches, hlen with
  | a :: b :: rest, _ => exact WithTop.coe_ne_top

variable [Field K] [IsStrictOrderedRing K]

/-- No two of the touches are further apart than `r`. -/
def Within (r : K) (touches : List K) : Prop := ∀ x ∈ touches, ∀ y ∈ touches, x - y ≤ r

theorem computeRange_le {r : K} {touches : List K} (hlen : 2 ≤ touches.length) :
    computeRange touches ≤ r ↔ Within r touches := by
  match touches, hlen with
  | a :: b :: rest, _ =>
    obtain ⟨hmax, habove⟩ := foldl_max_spec a (b :: rest)
    obtain ⟨hmin, hbelow⟩ := foldl_min_spec a (b :: rest)
    rw [computeRange, WithTop.coe_le_coe]
    constructor
    · intro hle x hx y hy
      have := habove x hx
      have := hbelow y hy
      linarith
    · intro hwithin
      exact hwithin _ hmax _ hmin

/-- Some choice of touches among the recent ones is as tight as the configuration asks. -/
def Agreed (config : ConsensusConfig K) (collected : List K) : Prop :=
  ∃ c, c.Sublist (lastOf config.window.toNat collected) ∧ c.length = config.samples.toNat ∧
    Within config.sampleRange c

/-- The result is read off a tightest choice of the recent touches. -/
structure Tightest (config : ConsensusConfig K) (collected : List K) (result : ConsensusResult K) :
    Prop where
  sublist : result.subset.Sublist (lastOf config.window.toNat collected)
  length : result.subset.length = config.samples.toNat
  within : Within config.sampleRange result.subset
  least : ∀ c, c.Sublist (lastOf config.window.toNat collected) →
    c.length = config.samples.toNat → computeRange result.subset ≤ computeRange c
  range : result.range = computeRange result.subset
  median : ∃ lo ∈ result.subset, ∃ hi ∈ result.subset, lo ≤ result.median ∧ result.median ≤ hi
  used : result.touchesUsed = collected.length
  all : result.allSamples = collected

end Agreement

section Rounds

variable {K : Type}

theorem length_lastOf (n : ℕ) (collected : List K) :
    (lastOf n collected).length = min collected.length n := by
  simp [lastOf]
  omega

variable [Field K] [LinearOrder K] {config : ConsensusConfig K} {collected : List K}

/-- What a configuration that was accepted says of its numbers. -/
theorem postInit_bounds (hvalid : config.postInit = .ok ()) :
    3 ≤ config.samples ∧ 0 ≤ config.maxNoisy ∧ config.samples ≤ config.maxSamples ∧
      config.window ≤ 10 := by
  simp only [ConsensusConfig.postInit, bind_eq_ok, ensure_eq_ok, decide_eq_true_eq] at hvalid
  obtain ⟨-, hsamples, -, hnoisy, -, hmax, -, -, -, hwindow, -⟩ := hvalid
  exact ⟨hsamples, hnoisy, hmax, hwindow⟩

theorem findBestSubset_of_valid (hvalid : config.postInit = .ok ())
    (henough : config.samples ≤ collected.length) :
    findBestSubset (lastOf config.window.toNat collected) config.samples.toNat =
      .ok (cheapest computeRange
        (combinations config.samples.toNat (lastOf config.window.toNat collected))) := by
  obtain ⟨hsamples, hnoisy, -, hwindow⟩ := postInit_bounds hvalid
  have hlen := length_lastOf config.window.toNat collected
  have hfits : ¬maxWindow < (lastOf config.window.toNat collected).length := by
    unfold maxWindow
    omega
  have hroom : ¬(lastOf config.window.toNat collected).length < config.samples.toNat := by
    unfold ConsensusConfig.window at hlen ⊢
    omega
  rw [findBestSubset, if_neg hfits, if_neg hroom]

theorem samples_le (hvalid : config.postInit = .ok ()) (hagreed : Agreed config collected) :
    config.samples ≤ collected.length := by
  obtain ⟨c, hsub, hsize, -⟩ := hagreed
  have hle := hsub.length_le
  rw [length_lastOf] at hle
  have := postInit_bounds hvalid
  omega

variable [IsStrictOrderedRing K]

theorem standard_postInit : (ConsensusConfig.standard : ConsensusConfig K).postInit = .ok () := by
  simp only [ConsensusConfig.postInit, bind_eq_ok, ensure_eq_ok, decide_eq_true_eq]
  norm_num [ConsensusConfig.standard, ConsensusConfig.window, minSamples, maxMaxSamples, maxWindow,
    sampleRangeCap]

theorem judge_of_valid (hvalid : config.postInit = .ok ()) (collected : List K) :
    (Agreed config collected ∧
      ∃ result, judge config collected = .ok (some result) ∧ Tightest config collected result) ∨
    (¬Agreed config collected ∧ judge config collected = .ok none) := by
  obtain ⟨hsamples, hnoisy, -, hwindow⟩ := postInit_bounds hvalid
  have hlen := length_lastOf config.window.toNat collected
  by_cases hfew : (collected.length : ℤ) < config.samples
  · right
    refine ⟨?_, if_pos hfew⟩
    rintro ⟨c, hsub, hsize, -⟩
    have := hsub.length_le
    omega
  have hbest := findBestSubset_of_valid hvalid (not_lt.mp hfew)
  have hmem : ∀ c, c ∈ combinations config.samples.toNat (lastOf config.window.toNat collected) ↔
      c.Sublist (lastOf config.window.toNat collected) ∧ c.length = config.samples.toNat :=
    fun c => mem_combinations
  have htwo : 2 ≤ config.samples.toNat := by omega
  cases hchosen : cheapest computeRange
      (combinations config.samples.toNat (lastOf config.window.toNat collected)) with
  | none =>
    right
    rw [hchosen] at hbest
    have htop := cheapest_none computeRange hchosen
    constructor
    · rintro ⟨c, hsub, hsize, -⟩
      exact computeRange_ne_top (hsize.symm ▸ htwo) (htop c ((hmem c).mpr ⟨hsub, hsize⟩))
    · rw [judge, if_neg hfew, hbest]
      rfl
  | some best =>
    rw [hchosen] at hbest
    obtain ⟨hin, hleast⟩ := cheapest_some computeRange hchosen
    obtain ⟨hsub, hsize⟩ := (hmem best).mp hin
    by_cases hwide : config.sampleRange < computeRange best
    · right
      constructor
      · rintro ⟨c, hsub', hsize', hwithin⟩
        have hle := (computeRange_le (hsize'.symm ▸ htwo)).mpr hwithin
        exact absurd (hwide.trans_le (hleast c ((hmem c).mpr ⟨hsub', hsize'⟩))) hle.not_gt
      · rw [judge, if_neg hfew, hbest]
        exact if_pos hwide
    · left
      have hwithin := (computeRange_le (hsize.symm ▸ htwo)).mp (not_lt.mp hwide)
      have hne : best ≠ [] := List.length_pos_iff.mp (by omega)
      obtain ⟨m, hm, hbetween⟩ := median_between hne
      refine ⟨⟨best, hsub, hsize, hwithin⟩,
        ⟨m, computeRange best, best, collected.length, collected⟩, ?_, ?_⟩
      · rw [judge, if_neg hfew, hbest]
        refine (if_neg hwide).trans ?_
        rw [hm]
        rfl
      · exact ⟨hsub, hsize, hwithin,
          fun c hsub' hsize' => hleast c ((hmem c).mpr ⟨hsub', hsize'⟩), rfl, hbetween, rfl, rfl⟩

/-- The first `n` touches. -/
def first (touch : ℕ → K) (n : ℕ) : List K := (List.range n).map touch

omit [Field K] [LinearOrder K] [IsStrictOrderedRing K] in
theorem first_succ (touch : ℕ → K) (n : ℕ) :
    first touch n ++ [touch (first touch n).length] = first touch (n + 1) := by
  simp [first, List.range_succ]

/-- The loop ends at the first touch with which the recent ones agree, or at its last one. -/
theorem collectFrom_first (hvalid : config.postInit = .ok ()) (touch : ℕ → K) (room k : ℕ) :
    (∃ n, k < n ∧ n ≤ k + room ∧ Agreed config (first touch n) ∧
      (∀ m, k < m → m < n → ¬Agreed config (first touch m)) ∧
      ∃ result, collectFrom touch config room (first touch k) = .ok result ∧
        Tightest config (first touch n) result) ∨
    ((∀ n, k < n → n ≤ k + room → ¬Agreed config (first touch n)) ∧
      collectFrom touch config room (first touch k) = .error (.consensus
        ⟨config.samples, config.sampleRange, config.window, k + room,
          first touch (k + room)⟩)) := by
  induction room generalizing k with
  | zero =>
    right
    constructor
    · intro n hlow hhigh
      omega
    · simp [collectFrom, first]
  | succ room ih =>
    have hround : collectFrom touch config (room + 1) (first touch k) =
        (judge config (first touch (k + 1)) >>= fun
          | none => collectFrom touch config room (first touch (k + 1))
          | some result => .ok result) := by
      rw [← first_succ]
      rfl
    rw [hround]
    rcases judge_of_valid hvalid (first touch (k + 1)) with
      ⟨hagreed, result, hjudge, htightest⟩ | ⟨hnot, hjudge⟩
    · left
      refine ⟨k + 1, by omega, by omega, hagreed, ?_, result, ?_, htightest⟩
      · intro m hlow hhigh
        omega
      · rw [hjudge]
        rfl
    · have hnext : (judge config (first touch (k + 1)) >>= fun
          | none => collectFrom touch config room (first touch (k + 1))
          | some result => .ok result) = collectFrom touch config room (first touch (k + 1)) := by
        rw [hjudge]
        rfl
      rw [hnext]
      rcases ih (k + 1) with ⟨n, hlow, hhigh, hagreed, hbefore, hrun⟩ | ⟨hnone, hrun⟩
      · left
        refine ⟨n, by omega, by omega, hagreed, ?_, hrun⟩
        intro m hm hmn
        by_cases hfirst : m = k + 1
        · rw [hfirst]
          exact hnot
        · exact hbefore m (by omega) hmn
      · right
        constructor
        · intro n hn hnroom
          by_cases hfirst : n = k + 1
          · rw [hfirst]
            exact hnot
          · exact hnone n (by omega) (by omega)
        · rw [hrun]
          have hsum : k + 1 + room = k + (room + 1) := by omega
          rw [hsum]

/-- The recent ones of the first `k` touches agree, and the loop may take that many. -/
def AgreesAt (config : ConsensusConfig K) (touch : ℕ → K) (k : ℕ) : Prop :=
  config.samples ≤ k ∧ k ≤ config.maxSamples ∧ Agreed config (first touch k)

/-- What a sequence of touches comes to. -/
structure Consensus (config : ConsensusConfig K) (touch : ℕ → K) : Prop where
  succeeds : (∃ result, runConsensus touch config = .ok result) ↔ ∃ k, AgreesAt config touch k
  earliest : ∀ result, runConsensus touch config = .ok result →
    IsLeast {k | AgreesAt config touch k} result.touchesUsed
  tightest : ∀ result, runConsensus touch config = .ok result →
    Tightest config (first touch result.touchesUsed) result
  exhausted : (¬∃ k, AgreesAt config touch k) →
    runConsensus touch config = .error (.consensus
      ⟨config.samples, config.sampleRange, config.window, config.maxSamples.toNat,
        first touch config.maxSamples.toNat⟩)

theorem runConsensus_consensus (hvalid : config.postInit = .ok ()) (touch : ℕ → K) :
    Consensus config touch := by
  have hbounds := postInit_bounds hvalid
  have hlen : ∀ n, (first touch n).length = n := fun n => by simp [first]
  have hrun : runConsensus touch config =
      collectFrom touch config config.maxSamples.toNat (first touch 0) := rfl
  rcases collectFrom_first hvalid touch config.maxSamples.toNat 0 with
    ⟨n, -, hhigh, hagreed, hbefore, result, hok, htightest⟩ | ⟨hnone, herror⟩
  · rw [← hrun] at hok
    have hused : result.touchesUsed = n := htightest.used.trans (hlen n)
    have hsamples := samples_le hvalid hagreed
    rw [hlen] at hsamples
    have hat : AgreesAt config touch n := ⟨hsamples, by omega, hagreed⟩
    have hsame : ∀ r, runConsensus touch config = .ok r → r = result := fun r hr =>
      Except.ok.inj (hr.symm.trans hok)
    constructor
    · exact ⟨fun _ => ⟨n, hat⟩, fun _ => ⟨result, hok⟩⟩
    · intro r hr
      rw [hsame r hr, hused]
      refine ⟨hat, fun k hk => ?_⟩
      obtain ⟨hlow, -, hk⟩ := hk
      by_contra hless
      exact hbefore k (by omega) (by omega) hk
    · intro r hr
      rw [hsame r hr, hused]
      exact htightest
    · exact fun h => absurd ⟨n, hat⟩ h
  · rw [← hrun, Nat.zero_add] at herror
    have hno : ¬∃ k, AgreesAt config touch k := by
      rintro ⟨k, hlow, hhigh, hk⟩
      exact hnone k (by omega) (by omega) hk
    have hfail : ∀ r, runConsensus touch config ≠ .ok r := by
      intro r hr
      rw [herror] at hr
      cases hr
    constructor
    · exact ⟨fun ⟨r, hr⟩ => absurd hr (hfail r), fun h => absurd h hno⟩
    · exact fun r hr => absurd hr (hfail r)
    · exact fun r hr => absurd hr (hfail r)
    · exact fun _ => herror

/-- Three touches in five agree, with the two bad ones in between. -/
theorem runConsensus_noisy :
    Consensus (ConsensusConfig.standard : ConsensusConfig ℚ)
      (fun n => if n % 2 = 0 then 1 else n) :=
  runConsensus_consensus standard_postInit _

end Rounds

end DeadReckoning.Plugin
