import DeadReckoning.Lib.Decimal
import DeadReckoning.Lib.Lines
import DeadReckoning.Wal.Frame

/-! The segments of a log directory: their names, how they are listed, and how their scans become
the one scan that recovery reads. -/
namespace DeadReckoning.Recording

open Wal

section Names

def segmentFileName (index : ℕ) : Text := lit "wal-" ++ Decimal.padded 6 index ++ lit ".plr"

def stripSuffix (ending s : Text) : Option Text :=
  (Text.stripPrefix ending.reverse s.reverse).map List.reverse

/-- The number that the digits spell, if sixty-four bits hold it. -/
def parseU64 (digits : Text) : Option ℕ :=
  if Nat.ofDigitChars 10 digits 0 < 2 ^ 64 then some (Nat.ofDigitChars 10 digits 0) else none

/-- The index in the name of a segment, `none` for any other file. -/
def segmentIndex (name : Text) : Option ℕ := do
  let rest ← Text.stripPrefix (lit "wal-") name
  let digits ← stripSuffix (lit ".plr") rest
  if digits.isEmpty || !digits.all Char.isDigit then none else parseU64 digits

theorem stripSuffix_append (ending s : Text) : stripSuffix ending (s ++ ending) = some s := by
  have hstrip : Text.stripPrefix ending.reverse (s ++ ending).reverse = some s.reverse :=
    Text.stripPrefix_eq_some.mpr List.reverse_append
  rw [stripSuffix, hstrip, Option.map_some, List.reverse_reverse]

theorem padded_ne_nil (width n : ℕ) : Decimal.padded width n ≠ [] := by
  intro hnil
  have hdigits := (List.append_eq_nil_iff.mp hnil).2
  exact Nat.toDigits_ne_nil hdigits

theorem segmentIndex_segmentFileName {index : ℕ} (h : index < 2 ^ 64) :
    segmentIndex (segmentFileName index) = some index := by
  have hstrip : Text.stripPrefix (lit "wal-") (segmentFileName index) =
      some (Decimal.padded 6 index ++ lit ".plr") :=
    Text.stripPrefix_eq_some.mpr (by rw [segmentFileName, List.append_assoc])
  have hdigits : (Decimal.padded 6 index).all Char.isDigit = true :=
    List.all_eq_true.mpr fun c hc => Decimal.isDigit_of_mem_padded hc
  have hsome : (Decimal.padded 6 index).isEmpty = false :=
    List.isEmpty_eq_false_iff.mpr (padded_ne_nil 6 index)
  rw [segmentIndex, hstrip, Option.bind_eq_bind, Option.bind_some, stripSuffix_append,
    Option.bind_some, hsome, hdigits, parseU64, Decimal.ofDigitChars_padded, if_pos h]
  rfl

theorem segmentIndex_lt {name : Text} {index : ℕ} (h : segmentIndex name = some index) :
    index < 2 ^ 64 := by
  simp only [segmentIndex, Option.bind_eq_bind, Option.bind_eq_some_iff] at h
  obtain ⟨rest, -, digits, -, h⟩ := h
  split at h
  · cases h
  · rw [parseU64, Option.ite_none_right_eq_some, Option.some.injEq] at h
    exact h.2 ▸ h.1

theorem segmentFileName_injective {i j : ℕ} (h : segmentFileName i = segmentFileName j) : i = j := by
  have hdigits : Decimal.padded 6 i = Decimal.padded 6 j :=
    List.append_cancel_right (List.append_cancel_left (by
      simpa only [segmentFileName, List.append_assoc] using h))
  rw [← Decimal.ofDigitChars_padded 6 i, hdigits, Decimal.ofDigitChars_padded]

end Names

section Directories

/-- The names in a directory and what the files hold. -/
abbrev Directory := List (Text × Bytes)

def listSegments (dir : Directory) : List (ℕ × Bytes) :=
  (dir.filterMap fun entry => (segmentIndex entry.1).map fun index => (index, entry.2)).mergeSort
    fun a b => a.1 ≤ b.1

/-- One more than the largest index there is. -/
def nextSegmentIndex (dir : Directory) : ℕ :=
  (dir.filterMap fun entry => segmentIndex entry.1).foldl max 0 + 1

def maxSegmentRead : ℕ := 2 ^ 30

def scanSegment (codec : Codec) (bytes : Bytes) : RecoveryScan :=
  scan codec (bytes.take maxSegmentRead)

/-- The records of all scans, with the rest of the last one. -/
def mergeScans (scans : List RecoveryScan) : Option RecoveryScan :=
  scans.getLast?.map fun last => { last with records := scans.flatMap (·.records) }

/-- The scan of the newest segments, at most so many; `none` when there is no segment. -/
def loadMergedTail (codec : Codec) (dir : Directory) (maxSegments : ℕ) : Option RecoveryScan :=
  let segments := listSegments dir
  mergeScans ((segments.drop (segments.length - maxSegments)).map fun s => scanSegment codec s.2)

/-- The scan of all segments. -/
def loadMerged (codec : Codec) (dir : Directory) : Option RecoveryScan :=
  loadMergedTail codec dir (listSegments dir).length

/-- The names are different, and a name with an index is the one the recorder gives it. -/
structure Named (dir : Directory) : Prop where
  nodup : (dir.map Prod.fst).Nodup
  own : ∀ entry ∈ dir, ∀ i, segmentIndex entry.1 = some i → entry.1 = segmentFileName i

/-- What the segment holds. -/
def segment (dir : Directory) (index : ℕ) : Option Bytes := dir.lookup (segmentFileName index)

/-- The records that are read from the segment. -/
def recordsAt (codec : Codec) (dir : Directory) (index : ℕ) : List WalRecord :=
  ((segment dir index).map fun bytes => (scanSegment codec bytes).records.map Prod.snd).getD []

variable {codec : Codec} {dir : Directory}

theorem mem_indexed (h : Named dir) {i : ℕ} {bytes : Bytes} :
    (i, bytes) ∈ (dir.filterMap fun entry =>
      (segmentIndex entry.1).map fun index => (index, entry.2)) ↔
        i < 2 ^ 64 ∧ segment dir i = some bytes := by
  rw [segment, Lines.lookup_eq_some_iff_mem h.nodup, List.mem_filterMap]
  constructor
  · rintro ⟨entry, hentry, hindex⟩
    obtain ⟨j, hj, hpair⟩ := Option.map_eq_some_iff.mp hindex
    obtain ⟨rfl, rfl⟩ := Prod.mk.inj hpair
    exact ⟨segmentIndex_lt hj, h.own entry hentry j hj ▸ hentry⟩
  · rintro ⟨hi, hentry⟩
    exact ⟨_, hentry, by rw [segmentIndex_segmentFileName hi, Option.map_some]⟩

theorem nodup_indexed (h : Named dir) : (dir.filterMap fun entry =>
    (segmentIndex entry.1).map fun index => (index, entry.2)).Nodup := by
  rw [List.Nodup, List.pairwise_filterMap]
  refine (List.pairwise_map.mp h.nodup).imp_of_mem ?_
  intro entry entry' hentry hentry' hne p hp q hq heq
  obtain ⟨i, hi, rfl⟩ := Option.map_eq_some_iff.mp hp
  obtain ⟨j, hj, rfl⟩ := Option.map_eq_some_iff.mp hq
  rw [h.own entry hentry i hi, h.own entry' hentry' j hj, (Prod.mk.inj heq).1] at hne
  exact hne rfl

/-- The segments in the order of their indices. -/
theorem listSegments_eq (h : Named dir) {n : ℕ} (hn : n ≤ 2 ^ 64)
    (hlast : ∀ i, n ≤ i → i < 2 ^ 64 → segment dir i = none) :
    listSegments dir = (List.range n).filterMap fun i =>
      (segment dir i).map fun bytes => (i, bytes) := by
  have hmem : ∀ p, p ∈ ((List.range n).filterMap fun i =>
      (segment dir i).map fun bytes => (i, bytes)) ↔ p.1 < n ∧ segment dir p.1 = some p.2 := by
    rintro ⟨i, bytes⟩
    rw [List.mem_filterMap]
    constructor
    · rintro ⟨j, hj, hpair⟩
      obtain ⟨found, hfound, hpair⟩ := Option.map_eq_some_iff.mp hpair
      obtain ⟨rfl, rfl⟩ := Prod.mk.inj hpair
      exact ⟨List.mem_range.mp hj, hfound⟩
    · rintro ⟨hi, hsegment⟩
      exact ⟨i, List.mem_range.mpr hi, by rw [hsegment, Option.map_some]⟩
  have hsorted : ((List.range n).filterMap fun i =>
      (segment dir i).map fun bytes => (i, bytes)).Pairwise fun a b => a.1 < b.1 := by
    rw [List.pairwise_filterMap]
    refine (List.pairwise_lt_range (n := n)).imp ?_
    intro i j hij p hp q hq
    obtain ⟨_, -, rfl⟩ := Option.map_eq_some_iff.mp hp
    obtain ⟨_, -, rfl⟩ := Option.map_eq_some_iff.mp hq
    exact hij
  have hperm : (dir.filterMap fun entry =>
      (segmentIndex entry.1).map fun index => (index, entry.2)).Perm
        ((List.range n).filterMap fun i => (segment dir i).map fun bytes => (i, bytes)) := by
    rw [List.perm_ext_iff_of_nodup (nodup_indexed h) (hsorted.imp fun hlt heq => by
      rw [heq] at hlt
      exact lt_irrefl _ hlt)]
    rintro ⟨i, bytes⟩
    rw [mem_indexed h, hmem]
    constructor
    · rintro ⟨hi, hsegment⟩
      refine ⟨?_, hsegment⟩
      by_contra hge
      rw [hlast i (not_lt.mp hge) hi] at hsegment
      cases hsegment
    · rintro ⟨hi, hsegment⟩
      exact ⟨hi.trans_le hn, hsegment⟩
  refine List.Perm.eq_of_pairwise ?_ ?_ (hsorted.imp fun hlt => decide_eq_true hlt.le)
    ((List.mergeSort_perm _ _).trans hperm)
  · rintro ⟨i, bytes⟩ ⟨j, bytes'⟩ hp hq hij hji
    have hsame : i = j := Nat.le_antisymm (of_decide_eq_true hij) (of_decide_eq_true hji)
    subst hsame
    have hfirst := ((mem_indexed h).mp (List.mem_mergeSort.mp hp)).2
    have hsecond := ((hmem _).mp hq).2
    rw [hfirst] at hsecond
    rw [Option.some.inj hsecond]
  · refine List.pairwise_mergeSort (fun a b c hab hbc => ?_) (fun a b => ?_) _
    · simp only [decide_eq_true_eq] at hab hbc ⊢
      exact hab.trans hbc
    · simp only [Bool.or_eq_true, decide_eq_true_eq]
      exact Nat.le_total _ _

theorem segment_none_of_next (h : Named dir) {i : ℕ} (hi : i < 2 ^ 64)
    (hnext : nextSegmentIndex dir ≤ i) : segment dir i = none := by
  cases hsegment : segment dir i with
  | none => rfl
  | some bytes =>
    have hmem : i ∈ dir.filterMap fun entry => segmentIndex entry.1 := by
      have hentry := (Lines.lookup_eq_some_iff_mem h.nodup).mp hsegment
      exact List.mem_filterMap.mpr ⟨_, hentry, segmentIndex_segmentFileName hi⟩
    have hle : ∀ (l : List ℕ) (a : ℕ), a ≤ l.foldl max a ∧ ∀ j ∈ l, j ≤ l.foldl max a := by
      intro l
      induction l with
      | nil => simp
      | cons j l ih =>
        intro a
        obtain ⟨hstart, hrest⟩ := ih (max a j)
        refine ⟨(le_max_left a j).trans hstart, ?_⟩
        intro k hk
        rcases List.mem_cons.mp hk with rfl | hk
        · exact (le_max_right a k).trans hstart
        · exact hrest k hk
    have hbound := (hle _ 0).2 i hmem
    rw [nextSegmentIndex] at hnext
    omega

/-- Everything that is read from the directory, in order. -/
def journal (codec : Codec) (dir : Directory) : List WalRecord :=
  ((loadMerged codec dir).map fun merged => merged.records.map Prod.snd).getD []

/-- What is read are the records of the segments, one after the other. -/
theorem journal_eq (h : Named dir) {n : ℕ} (hn : n ≤ 2 ^ 64)
    (hlast : ∀ i, n ≤ i → i < 2 ^ 64 → segment dir i = none) :
    journal codec dir = (List.range n).flatMap (recordsAt codec dir) := by
  have hread : journal codec dir =
      (listSegments dir).flatMap fun s => (scanSegment codec s.2).records.map Prod.snd := by
    unfold journal loadMerged loadMergedTail mergeScans
    dsimp only
    rw [Nat.sub_self, List.drop_zero]
    cases hlist : listSegments dir with
    | nil => rfl
    | cons s rest =>
      rw [List.getLast?_map, List.getLast?_cons]
      simp only [Option.map_some, Option.getD_some, List.flatMap_map, List.map_flatMap]
  rw [hread, listSegments_eq h hn hlast]
  clear hread hlast
  induction n with
  | zero => rfl
  | succ n ih =>
    rw [List.range_succ, List.filterMap_append, List.flatMap_append, List.flatMap_append,
      ih (by omega), List.flatMap_singleton]
    congr 1
    unfold recordsAt
    cases hsegment : segment dir n with
    | none => simp [hsegment]
    | some bytes => simp [hsegment]

/-- The newest segments give the end of what all give, with the same header and the same end. -/
theorem loadMergedTail_suffix {k : ℕ} {part whole : RecoveryScan} (hpart :
    loadMergedTail codec dir k = some part) (hwhole : loadMerged codec dir = some whole) :
    part.records <:+ whole.records ∧ part.header = whole.header ∧
      part.truncationOffset = whole.truncationOffset ∧ part.stop = whole.stop := by
  unfold loadMerged at hwhole
  unfold loadMergedTail mergeScans at hpart hwhole
  dsimp only at hpart hwhole
  rw [Nat.sub_self, List.drop_zero] at hwhole
  obtain ⟨last, hlast, rfl⟩ := Option.map_eq_some_iff.mp hwhole
  obtain ⟨last', hlast', rfl⟩ := Option.map_eq_some_iff.mp hpart
  rw [List.map_drop, List.getLast?_drop] at hlast'
  split at hlast'
  · cases hlast'
  · rw [hlast] at hlast'
    obtain rfl := Option.some.inj hlast'
    refine ⟨?_, rfl, rfl, rfl⟩
    dsimp only
    rw [List.map_drop]
    obtain ⟨front, hfront⟩ := List.drop_suffix ((listSegments dir).length - k)
      ((listSegments dir).map fun s => scanSegment codec s.2)
    rw [← hfront, List.flatMap_append, hfront]
    exact List.suffix_append _ _

end Directories

end DeadReckoning.Recording
