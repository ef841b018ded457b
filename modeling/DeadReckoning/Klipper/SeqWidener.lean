import Mathlib.Data.List.Chain
import Mathlib.Data.List.Pairwise
import Mathlib.Data.UInt
import Mathlib.Tactic.Common

/-! The receive counter of a controller, widened from the 32 bits that are reported of it. -/
namespace DeadReckoning.Klipper

section Widener

structure WidenerState where
  lastRaw : UInt32
  widened : UInt64
  deriving DecidableEq

/-- How an observation relates to the one before. -/
inductive SeqKind where
  | first
  | advanced (delta : UInt32)
  | unchanged
  | regressed (apparentBackstep : UInt32)
  deriving DecidableEq

structure SeqUpdate where
  widened : UInt64
  kind : SeqKind
  deriving DecidableEq

structure ReceiveSeqWidener where
  state : Option WidenerState
  deriving DecidableEq

/-- `u64::saturating_add`. -/
def saturatingAdd64 (a b : UInt64) : UInt64 := if a + b < a then .ofNat (2 ^ 64 - 1) else a + b

/-- The low 32 bits of a reading. -/
def lowWord (raw : UInt64) : UInt32 := (raw &&& 0xFFFFFFFF).toUInt32

namespace ReceiveSeqWidener

def new : ReceiveSeqWidener := ⟨none⟩

def current (w : ReceiveSeqWidener) : Option UInt64 := w.state.map WidenerState.widened

def observe (w : ReceiveSeqWidener) (raw : UInt64) : ReceiveSeqWidener × SeqUpdate :=
  let raw := lowWord raw
  match w.state with
  | none => (⟨some ⟨raw, raw.toUInt64⟩⟩, ⟨raw.toUInt64, .first⟩)
  | some state =>
      let delta := raw - state.lastRaw
      if delta = 0 then (⟨some ⟨raw, state.widened⟩⟩, ⟨state.widened, .unchanged⟩)
      else if delta < 0x80000000 then
        let widened := saturatingAdd64 state.widened delta.toUInt64
        (⟨some ⟨raw, widened⟩⟩, ⟨widened, .advanced delta⟩)
      else (⟨some ⟨raw, state.widened⟩⟩, ⟨state.widened, .regressed (-delta)⟩)

/-- What is reported for the readings, one after another. -/
def observeAll : ReceiveSeqWidener → List UInt64 → List SeqUpdate
  | _, [] => []
  | w, raw :: raws => (w.observe raw).2 :: observeAll (w.observe raw).1 raws

end ReceiveSeqWidener

end Widener

section Words

theorem lowWord_toNat (raw : UInt64) : (lowWord raw).toNat = raw.toNat % 2 ^ 32 := by
  have hmask : raw.toNat % 4294967296 &&& 4294967295 = raw.toNat % 4294967296 % 2 ^ 32 :=
    Nat.and_two_pow_sub_one_eq_mod _ 32
  simp [lowWord, hmask]

theorem saturatingAdd64_toNat (a b : UInt64) :
    (saturatingAdd64 a b).toNat = min (a.toNat + b.toNat) (2 ^ 64 - 1) := by
  have ha : a.toNat < 2 ^ 64 := a.toNat_lt
  have hb : b.toNat < 2 ^ 64 := b.toNat_lt
  simp only [saturatingAdd64, UInt64.lt_iff_toNat_lt, UInt64.toNat_add]
  split
  · rw [UInt64.toNat_ofNat']
    omega
  · rw [UInt64.toNat_add]
    omega

/-- The step from one counter value to the next, as the low words of the two show it. -/
theorem sub_toNat {a b : UInt32} {m n : ℕ} (ha : a.toNat = m % 2 ^ 32) (hb : b.toNat = n % 2 ^ 32)
    (hle : m ≤ n) (hstep : n - m < 2 ^ 31) : (b - a).toNat = n - m := by
  rw [UInt32.toNat_sub]
  omega

end Words

namespace ReceiveSeqWidener

variable {w : ReceiveSeqWidener} {raw : UInt64}

section Step

theorem state_observe (w : ReceiveSeqWidener) (raw : UInt64) :
    (w.observe raw).1.state = some ⟨lowWord raw, (w.observe raw).2.widened⟩ := by
  unfold observe
  cases w.state with
  | none => rfl
  | some s =>
    dsimp only
    split_ifs <;> rfl

theorem current_observe (w : ReceiveSeqWidener) (raw : UInt64) :
    (w.observe raw).1.current = some (w.observe raw).2.widened := by
  simp [current, state_observe]

/-- What a reading adds, by how far it is in front of the last one. -/
theorem observe_widened {s : WidenerState} (hstate : w.state = some s) :
    (w.observe raw).2.widened.toNat =
      if (lowWord raw - s.lastRaw).toNat < 2 ^ 31 then
        min (s.widened.toNat + (lowWord raw - s.lastRaw).toNat) (2 ^ 64 - 1)
      else s.widened.toNat := by
  have hroom : s.widened.toNat < 2 ^ 64 := s.widened.toNat_lt
  unfold observe
  simp only [hstate]
  by_cases hsame : lowWord raw - s.lastRaw = 0
  · simp only [hsame, if_true]
    simp
    omega
  rw [if_neg hsame]
  have hhalf : lowWord raw - s.lastRaw < 0x80000000 ↔ (lowWord raw - s.lastRaw).toNat < 2 ^ 31 := by
    rw [UInt32.lt_iff_toNat_lt]
    simp
  by_cases hnear : (lowWord raw - s.lastRaw).toNat < 2 ^ 31
  · rw [if_pos (hhalf.mpr hnear), if_pos hnear]
    exact saturatingAdd64_toNat _ _
  · rw [if_neg (mt hhalf.mp hnear), if_neg hnear]

/-- A reading that is called a regression leaves the widened value where it is. -/
theorem observe_regressed {back : UInt32} (h : (w.observe raw).2.kind = .regressed back) :
    w.current = some (w.observe raw).2.widened := by
  unfold observe at h ⊢
  unfold current
  cases hstate : w.state with
  | none =>
    rw [hstate] at h
    cases h
  | some s =>
    rw [hstate] at h
    dsimp only at h ⊢
    split_ifs at h ⊢
    rfl

theorem current_le {held : UInt64} (h : w.current = some held) (raw : UInt64) :
    held ≤ (w.observe raw).2.widened := by
  obtain ⟨s, hstate, rfl⟩ := Option.map_eq_some_iff.mp h
  have hroom : s.widened.toNat < 2 ^ 64 := s.widened.toNat_lt
  rw [UInt64.le_iff_toNat_le, observe_widened hstate]
  split <;> omega

/-- A counter that moves on by less than half a turn of the low word is followed exactly. -/
theorem observe_follows {c c' v : UInt64} (hstate : w.state = some ⟨lowWord c, v⟩)
    (hraw : lowWord raw = lowWord c') (hle : c.toNat ≤ c'.toNat)
    (hstep : c'.toNat - c.toNat < 2 ^ 31) :
    (w.observe raw).2.widened.toNat = min (v.toNat + (c'.toNat - c.toNat)) (2 ^ 64 - 1) := by
  have hdelta : (lowWord raw - lowWord c).toNat = c'.toNat - c.toNat := by
    rw [hraw]
    exact sub_toNat (lowWord_toNat c) (lowWord_toNat c') hle hstep
  rw [observe_widened hstate, hdelta, if_pos hstep]

end Step

section Run

/-- A counter that never goes back and moves by less than half a turn of the low word. -/
def Steady (counters : List UInt64) : Prop :=
  counters.IsChain fun c c' => c.toNat ≤ c'.toNat ∧ c'.toNat - c.toNat < 2 ^ 31

/-- The readings are the counter values, or these cut down to their low words. -/
def ReadingsOf (raws counters : List UInt64) : Prop :=
  List.Forall₂ (fun raw c => lowWord raw = lowWord c) raws counters

/-- The widened values at two places are as far apart as the counters there. -/
def Exact (p q : SeqUpdate × UInt64) : Prop :=
  p.1.widened.toNat + (q.2.toNat - p.2.toNat) < 2 ^ 64 →
    q.1.widened.toNat = p.1.widened.toNat + (q.2.toNat - p.2.toNat)

theorem Steady.le {c : UInt64} {counters : List UInt64} (h : Steady (c :: counters)) :
    ∀ c' ∈ counters, c.toNat ≤ c'.toNat := by
  have hchain : (c :: counters).IsChain fun a b => a.toNat ≤ b.toNat := h.imp fun _ _ h => h.1
  have : IsTrans UInt64 fun a b => a.toNat ≤ b.toNat := ⟨fun _ _ _ => le_trans⟩
  exact (List.pairwise_cons.mp hchain.pairwise).1

theorem exact_behind {counters raws : List UInt64} {c : UInt64} {u : SeqUpdate}
    (hstate : w.state = some ⟨lowWord c, u.widened⟩) (hsteady : Steady (c :: counters))
    (hraws : ReadingsOf raws counters) :
    ∀ q ∈ (w.observeAll raws).zip counters, Exact (u, c) q := by
  induction counters generalizing w raws c u with
  | nil => simp
  | cons c' counters ih =>
    obtain ⟨raw, raws, hraw, hrest, rfl⟩ := List.forall₂_cons_right_iff.mp hraws
    obtain ⟨⟨hle, hstep⟩, htail⟩ := List.isChain_cons_cons.mp hsteady
    have hnext := observe_follows hstate hraw hle hstep
    have hstate' := state_observe w raw
    rw [hraw] at hstate'
    intro q hq hroom
    dsimp only at hroom ⊢
    rcases List.mem_cons.mp hq with rfl | hq
    · dsimp only at hroom ⊢
      omega
    · -- the counter is here at or behind `c'`, so nothing was cut off on the way to it
      have hahead : c'.toNat ≤ q.2.toNat := Steady.le htail q.2 (List.of_mem_zip hq).2
      have hfollowed := ih hstate' htail hrest q hq
      unfold Exact at hfollowed
      dsimp only at hfollowed
      omega

theorem exact_pairwise {counters raws : List UInt64} (hsteady : Steady counters)
    (hraws : ReadingsOf raws counters) : ((w.observeAll raws).zip counters).Pairwise Exact := by
  induction counters generalizing w raws with
  | nil => simp
  | cons c counters ih =>
    obtain ⟨raw, raws, hraw, hrest, rfl⟩ := List.forall₂_cons_right_iff.mp hraws
    have hstate := state_observe w raw
    rw [hraw] at hstate
    exact List.pairwise_cons.mpr
      ⟨exact_behind hstate hsteady hrest, ih (List.IsChain.tail hsteady) hrest⟩

theorem current_le_all {held : UInt64} (h : w.current = some held) (raws : List UInt64) :
    ∀ u ∈ w.observeAll raws, held ≤ u.widened := by
  induction raws generalizing w held with
  | nil => simp [observeAll]
  | cons raw raws ih =>
    intro u hu
    rcases List.mem_cons.mp hu with rfl | hu
    · exact current_le h raw
    · exact UInt64.le_trans (current_le h raw) (ih (current_observe w raw) u hu)

theorem observeAll_pairwise (w : ReceiveSeqWidener) (raws : List UInt64) :
    (w.observeAll raws).Pairwise fun u u' => u.widened ≤ u'.widened := by
  induction raws generalizing w with
  | nil => simp [observeAll]
  | cons raw raws ih =>
    exact List.pairwise_cons.mpr ⟨current_le_all (current_observe w raw) raws, ih _⟩

/-- The widened counter, from any state of the widener on. -/
structure Refines (w : ReceiveSeqWidener) : Prop where
  length : ∀ raws, (w.observeAll raws).length = raws.length
  /-- It follows a steady counter, for as long as there is room in 64 bits. -/
  exact : ∀ raws counters, Steady counters → ReadingsOf raws counters →
    ((w.observeAll raws).zip counters).Pairwise Exact
  /-- It never goes back, whatever is read. -/
  monotone : ∀ raws, (w.observeAll raws).Pairwise fun u u' => u.widened ≤ u'.widened
  held : ∀ raws v, w.current = some v → ∀ u ∈ w.observeAll raws, v ≤ u.widened
  /-- At a regression it is held, and goes on from there with the counter that was read. -/
  regressed : ∀ raw back raws counters c, (w.observe raw).2.kind = .regressed back →
    lowWord raw = lowWord c → Steady (c :: counters) → ReadingsOf raws counters →
    w.current = some (w.observe raw).2.widened ∧
      ∀ q ∈ ((w.observe raw).1.observeAll raws).zip counters, Exact ((w.observe raw).2, c) q

theorem length_observeAll (w : ReceiveSeqWidener) (raws : List UInt64) :
    (w.observeAll raws).length = raws.length := by
  induction raws generalizing w with
  | nil => rfl
  | cons raw raws ih => simp [observeAll, ih]

theorem observeAll_refines (w : ReceiveSeqWidener) : w.Refines where
  length := length_observeAll w
  exact _ _ hsteady hraws := exact_pairwise hsteady hraws
  monotone := observeAll_pairwise w
  held raws _ hcurrent := current_le_all hcurrent raws
  regressed raw _ raws counters c hkind hraw hsteady hraws := by
    have hstate := state_observe w raw
    rw [hraw] at hstate
    exact ⟨observe_regressed hkind, exact_behind hstate hsteady hraws⟩

/-- A turn of the low word, then a restart of the controller. -/
example : ((new.observeAll [0xFFFFFFFE, 0x1, 0x80000005, 0x80000009]).map SeqUpdate.widened) =
    [0xFFFFFFFE, 0x100000001, 0x100000001, 0x100000005] := by decide

end Run

end ReceiveSeqWidener

end DeadReckoning.Klipper
