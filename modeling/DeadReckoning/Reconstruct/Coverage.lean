import DeadReckoning.Lib.Gaps
import DeadReckoning.Reconstruct.Exclude

/-! What the heartbeats prove of the writer's liveness. -/
namespace DeadReckoning.Reconstruct

open Wal (Heartbeat)

/-- The stamps of the beats in a stretch that is open at its start. -/
def beatsInside (heartbeats : List Heartbeat) (fromMonoNs toMonoNs : ℕ) : List ℕ :=
  (heartbeats.map (·.monoNs.toNat)).filter fun mono =>
    decide (fromMonoNs < mono) && decide (mono ≤ toMonoNs)

/-- The newest beat at or before the start of the stretch, else that start. -/
def startAnchor (heartbeats : List Heartbeat) (fromMonoNs : ℕ) : ℕ :=
  (((heartbeats.map (·.monoNs.toNat)).filter (· ≤ fromMonoNs)).max?).getD fromMonoNs

/-- The steps between the anchor, the beats of the stretch and its end. -/
def livenessSpans (heartbeats : List Heartbeat) (fromMonoNs toMonoNs : ℕ) : List (ℕ × ℕ) :=
  Gaps.spans (startAnchor heartbeats fromMonoNs)
    (beatsInside heartbeats fromMonoNs toMonoNs ++ [toMonoNs])

/-- The last beat of the stream at or before the start, where the walk begins. -/
def walkStart (heartbeats : List Heartbeat) (fromMonoNs : ℕ) : Option ℕ :=
  (heartbeats.map (·.monoNs.toNat)).reverse.find? (· ≤ fromMonoNs)

def walkSpans (heartbeats : List Heartbeat) (fromMonoNs toMonoNs : ℕ) : List (ℕ × ℕ) :=
  Gaps.spans ((walkStart heartbeats fromMonoNs).getD fromMonoNs)
    (beatsInside heartbeats fromMonoNs toMonoNs ++ [toMonoNs])

theorem noteHole_eq_keepLargest (start stop maxGapNs : ℕ) (worst : Option (ℕ × ℕ)) :
    noteHole start stop maxGapNs worst =
      Gaps.keepLargest (fun span => span.2 - span.1) maxGapNs worst (start, stop) := rfl

section Walk

variable {heartbeats : List Heartbeat} {fromMonoNs toMonoNs maxGapNs : ℕ}

/-- The walk keeps the largest of its steps that is above the tolerance. -/
theorem heartbeatCoverage_eq (h : fromMonoNs < toMonoNs) :
    heartbeatCoverage heartbeats fromMonoNs toMonoNs maxGapNs =
      if (walkStart heartbeats fromMonoNs).isNone &&
          (beatsInside heartbeats fromMonoNs toMonoNs).isEmpty then .absent
      else match (walkSpans heartbeats fromMonoNs toMonoNs).foldl
          (Gaps.keepLargest (fun span => span.2 - span.1) maxGapNs) none with
        | none => .continuous
        | some (start, stop) => .interrupted start stop := by
  unfold heartbeatCoverage
  rw [if_neg (Nat.not_le.mpr h)]
  simp only [Gaps.foldl_carried (fun worst start stop => noteHole start stop maxGapNs worst)]
  rw [walkSpans, Gaps.spans_append_singleton, List.foldl_append]
  simp only [List.foldl_cons, List.foldl_nil, noteHole_eq_keepLargest, Prod.mk.eta, walkStart,
    beatsInside]
  rfl

/-- There is something to walk over exactly where some beat is at or before the end. -/
theorem absent_iff (h : fromMonoNs < toMonoNs) :
    ((walkStart heartbeats fromMonoNs).isNone &&
        (beatsInside heartbeats fromMonoNs toMonoNs).isEmpty) = true ↔
      ¬∃ hb ∈ heartbeats, hb.monoNs.toNat ≤ toMonoNs := by
  simp only [walkStart, beatsInside, Bool.and_eq_true, Option.isNone_iff_eq_none,
    List.find?_eq_none, List.isEmpty_iff, List.filter_eq_nil_iff, List.mem_reverse, List.mem_map,
    decide_eq_true_eq, forall_exists_index, and_imp, forall_apply_eq_imp_iff₂, not_exists,
    not_and, not_le]
  constructor
  · rintro ⟨hlate, hout⟩ hb hmem
    exact hout hb hmem (hlate hb hmem)
  · intro hlate
    exact ⟨fun hb hmem => h.trans (hlate hb hmem), fun hb hmem _ => hlate hb hmem⟩

/-- The coverage is continuous exactly where no step of the walk is above the tolerance. -/
theorem heartbeatCoverage_continuous_iff (h : fromMonoNs < toMonoNs) :
    heartbeatCoverage heartbeats fromMonoNs toMonoNs maxGapNs = .continuous ↔
      (∃ hb ∈ heartbeats, hb.monoNs.toNat ≤ toMonoNs) ∧
        ∀ span ∈ walkSpans heartbeats fromMonoNs toMonoNs, span.2 - span.1 ≤ maxGapNs := by
  have hkept := Gaps.kept_foldl (fun span : ℕ × ℕ => span.2 - span.1) maxGapNs
    (walkSpans heartbeats fromMonoNs toMonoNs)
  rw [heartbeatCoverage_eq h]
  by_cases habsent : ∃ hb ∈ heartbeats, hb.monoNs.toNat ≤ toMonoNs
  · rw [if_neg (fun hnone => (absent_iff h).mp hnone habsent)]
    cases hfold : (walkSpans heartbeats fromMonoNs toMonoNs).foldl
        (Gaps.keepLargest (fun span => span.2 - span.1) maxGapNs) none with
    | none =>
      rw [hfold] at hkept
      exact ⟨fun _ => ⟨habsent, hkept⟩, fun _ => rfl⟩
    | some worst =>
      rw [hfold] at hkept
      obtain ⟨hmem, hlarge, _⟩ := hkept
      constructor
      · intro hcontra
        simp at hcontra
      · intro hall
        exact absurd (hall.2 worst hmem) (Nat.not_le.mpr hlarge)
  · rw [if_pos ((absent_iff h).mpr habsent)]
    simp [habsent]

/-- A reported hole is a step of the walk, and none is larger. -/
theorem largest_of_interrupted (h : fromMonoNs < toMonoNs) {start stop : ℕ}
    (hi : heartbeatCoverage heartbeats fromMonoNs toMonoNs maxGapNs = .interrupted start stop) :
    (start, stop) ∈ walkSpans heartbeats fromMonoNs toMonoNs ∧
      ∀ span ∈ walkSpans heartbeats fromMonoNs toMonoNs, span.2 - span.1 ≤ stop - start := by
  have hkept := Gaps.kept_foldl (fun span : ℕ × ℕ => span.2 - span.1) maxGapNs
    (walkSpans heartbeats fromMonoNs toMonoNs)
  rw [heartbeatCoverage_eq h] at hi
  split at hi
  · simp at hi
  · split at hi
    · simp at hi
    · rename_i hfold
      obtain ⟨rfl, rfl⟩ := HeartbeatCoverage.interrupted.inj hi
      rw [hfold] at hkept
      exact ⟨hkept.1, hkept.2.2⟩

theorem walkStart_getD_le :
    (walkStart heartbeats fromMonoNs).getD fromMonoNs ≤ fromMonoNs := by
  cases hstart : walkStart heartbeats fromMonoNs with
  | none => exact le_rfl
  | some anchor => simpa using List.find?_some hstart

/-- In a stream in order the walk begins at the newest beat at or before the start. -/
theorem walkSpans_eq_livenessSpans (fromMonoNs toMonoNs : ℕ)
    (hs : heartbeats.Pairwise fun first second => first.monoNs ≤ second.monoNs) :
    walkSpans heartbeats fromMonoNs toMonoNs = livenessSpans heartbeats fromMonoNs toMonoNs := by
  have hsorted : (heartbeats.map (·.monoNs.toNat)).Pairwise (· ≤ ·) :=
    List.pairwise_map.mpr (hs.imp fun h => UInt64.le_iff_toNat_le.mp h)
  rw [walkSpans, livenessSpans, walkStart, startAnchor, Gaps.find?_reverse_eq_max? hsorted]

end Walk

theorem heartbeatCoverage_hides_no_hole (heartbeats : List Heartbeat)
    (fromMonoNs toMonoNs maxGapNs : ℕ) (h : fromMonoNs < toMonoNs) :
    (heartbeatCoverage heartbeats fromMonoNs toMonoNs maxGapNs = .continuous →
      ∀ a b, fromMonoNs ≤ a → b ≤ toMonoNs → maxGapNs < b - a →
        ∃ hb ∈ heartbeats, a < hb.monoNs.toNat ∧ hb.monoNs.toNat < b) ∧
    (heartbeats.Pairwise (fun first second => first.monoNs ≤ second.monoNs) →
      (heartbeatCoverage heartbeats fromMonoNs toMonoNs maxGapNs = .continuous ↔
        (∃ hb ∈ heartbeats, hb.monoNs.toNat ≤ toMonoNs) ∧
          ∀ span ∈ livenessSpans heartbeats fromMonoNs toMonoNs, span.2 - span.1 ≤ maxGapNs) ∧
      ∀ start stop,
        heartbeatCoverage heartbeats fromMonoNs toMonoNs maxGapNs = .interrupted start stop →
          (start, stop) ∈ livenessSpans heartbeats fromMonoNs toMonoNs ∧
            ∀ span ∈ livenessSpans heartbeats fromMonoNs toMonoNs,
              span.2 - span.1 ≤ stop - start) := by
  constructor
  · intro hc a b ha hb hgap
    obtain ⟨-, hspans⟩ := (heartbeatCoverage_continuous_iff h).mp hc
    obtain ⟨mono, hmem, hlo, hhi⟩ :=
      Gaps.exists_between hspans (walkStart_getD_le.trans ha) hb hgap
    obtain ⟨beat, hbeat, rfl⟩ := List.mem_map.mp (List.mem_of_mem_filter hmem)
    exact ⟨beat, hbeat, hlo, hhi⟩
  · intro hs
    have hsame := walkSpans_eq_livenessSpans fromMonoNs toMonoNs hs
    rw [← hsame]
    exact ⟨heartbeatCoverage_continuous_iff h, fun _ _ hi => largest_of_interrupted h hi⟩

def beatAt (monoNs : UInt64) : Heartbeat :=
  { sequence := 0, monoNs, wallNs := 0, printTime := 0, estSampleMonoNs := 0,
    estSamplePrintTime := 0, walOffset := 0 }

/-- Beats at 8, 20 and 30 leave a stretch from 10 to 40 no hole of more than 12. -/
theorem heartbeatCoverage_hides_no_hole_steady :
    heartbeatCoverage [beatAt 8, beatAt 20, beatAt 30] 10 40 12 = .continuous ∧
      ∃ hb ∈ [beatAt 8, beatAt 20, beatAt 30], 12 < hb.monoNs.toNat ∧ hb.monoNs.toNat < 25 := by
  have hc : heartbeatCoverage [beatAt 8, beatAt 20, beatAt 30] 10 40 12 = .continuous := by decide
  exact ⟨hc, (heartbeatCoverage_hides_no_hole [beatAt 8, beatAt 20, beatAt 30] 10 40 12
    (by decide)).1 hc 12 25 (by decide) (by decide) (by decide)⟩

end DeadReckoning.Reconstruct
