import DeadReckoning.Wal.Record
import Mathlib.Data.List.Induction

/-! The epochs of a log: runs of records of one boot and one firmware session. Recovery reads the
newest epoch that was printing, and nothing of the others. -/
namespace DeadReckoning.Reconstruct

open Wal

section Partition

def rebootMonoRegressionNs : ℕ := 1000000000

/-- A record and the offset of its frame in its own segment. -/
abbrev ScannedRecord := ℕ × WalRecord

inductive EpochBoundaryKind where
  | hostReboot (lastMonoNs nextMonoNs : ℕ)
  | firmwareRestart (socketLostMonoNs : ℕ)
  deriving DecidableEq

structure EpochSpan where
  start : ℕ
  stop : ℕ
  boundaryBefore : Option EpochBoundaryKind
  printing : Bool
  hasContext : Bool
  hasMotion : Bool
  minMonoNs : ℕ
  maxMonoNs : ℕ
  deriving DecidableEq

def EpochSpan.containsMono (e : EpochSpan) (monoNs : ℕ) : Bool :=
  e.minMonoNs ≤ monoNs && monoNs ≤ e.maxMonoNs

def isPrintingContext : WalRecord → Bool
  | .context c => c.virtualSdcard.any fun v => v.filePath ≠ ""
  | _ => false

def isMotion : WalRecord → Bool
  | .trapqSegment _ | .stepperRange _ => true
  | _ => false

def isContext : WalRecord → Bool
  | .context _ => true
  | _ => false

/-- The epochs that ended, and the one under construction; its `stop` is the index of the record
to come. -/
structure Partitioning where
  epochs : List EpochSpan
  current : EpochSpan
  pendingSocketLost : Option ℕ
  prevOffset : Option ℕ
  deriving DecidableEq

namespace Partitioning

/-- An epoch that no record has joined. -/
def openSpan (start : ℕ) (boundaryBefore : Option EpochBoundaryKind) : EpochSpan :=
  ⟨start, start, boundaryBefore, false, false, false, 2 ^ 64 - 1, 0⟩

def new : Partitioning := ⟨[], openSpan 0 none, none, none⟩

/-- Why a new epoch begins at the record, if one does; the sum wraps as a release build has it. -/
def boundary (p : Partitioning) (scanned : ScannedRecord) : Option EpochBoundaryKind :=
  let mono := scanned.2.monoNs
  let newSegment := p.prevOffset.any fun prev => scanned.1 ≤ prev
  if p.current.start < p.current.stop ∧ newSegment = true ∧
      (mono + rebootMonoRegressionNs) % 2 ^ 64 ≤ p.current.maxMonoNs then
    some (.hostReboot p.current.maxMonoNs mono)
  else p.pendingSocketLost.map .firmwareRestart

/-- The epoch under construction is closed where a new one begins. -/
def close (p : Partitioning) : Option EpochBoundaryKind → Partitioning
  | some kind => ⟨p.epochs ++ [p.current], openSpan p.current.stop (some kind), none, p.prevOffset⟩
  | none => p

def fold (p : Partitioning) (scanned : ScannedRecord) : Partitioning :=
  let record := scanned.2
  let mono := record.monoNs
  { p with
    current := { p.current with
      stop := p.current.stop + 1
      printing := p.current.printing || isPrintingContext record
      hasContext := p.current.hasContext || isContext record
      hasMotion := p.current.hasMotion || isMotion record
      minMonoNs := min p.current.minMonoNs mono
      maxMonoNs := max p.current.maxMonoNs mono }
    pendingSocketLost := match record with
      | .marker ⟨_, .socketLost⟩ => some mono
      | _ => p.pendingSocketLost
    prevOffset := some scanned.1 }

def step (p : Partitioning) (scanned : ScannedRecord) : Partitioning :=
  (p.close (p.boundary scanned)).fold scanned

def spans (p : Partitioning) : List EpochSpan := p.epochs ++ [p.current]

end Partitioning

def partitioning (records : List ScannedRecord) : Partitioning :=
  records.foldl Partitioning.step .new

def partition (records : List ScannedRecord) : List EpochSpan :=
  if records.isEmpty then [] else (partitioning records).spans

end Partition

section Selection

/-- The index of the newest epoch of a kind. -/
def newestBy (pred : EpochSpan → Bool) : List EpochSpan → Option ℕ
  | [] => none
  | e :: rest => match newestBy pred rest with
      | some i => some (i + 1)
      | none => if pred e then some 0 else none

structure CrashEpochSelection where
  epochs : List EpochSpan
  selected : Option ℕ
  deriving DecidableEq

namespace CrashEpochSelection

def crashEpoch (s : CrashEpochSelection) : Option EpochSpan := s.selected.bind fun i => s.epochs[i]?

def isNewest (s : CrashEpochSelection) : Bool := s.selected.any fun i => i + 1 = s.epochs.length

/-- The records of the crash epoch. -/
def narrow (s : CrashEpochSelection) (records : List ScannedRecord) : List ScannedRecord :=
  match s.crashEpoch with
  | some e => (records.drop e.start).take (e.stop - e.start)
  | none => records

end CrashEpochSelection

def selectCrashEpoch (records : List ScannedRecord) : CrashEpochSelection :=
  let epochs := partition records
  ⟨epochs, (newestBy (fun e => e.printing) epochs).orElse fun _ =>
    (newestBy (fun e => e.hasContext) epochs).orElse fun _ =>
      if epochs.length = 0 then none else some (epochs.length - 1)⟩

end Selection

section Admission

/-- Whether a file that the newest process rewrites belongs to the crash epoch. -/
def epochAdmits (epoch : Option EpochSpan) (isNewest : Bool) (monoNs : ℕ) : Bool :=
  match epoch with
  | some e => if isNewest then e.minMonoNs ≤ monoNs else e.containsMono monoNs
  | none => false

def sidecarAdmitSmallSlackNs : ℕ := 1000000000

def sidecarAdmitDrainSlackNs : ℕ := 10000000000

/-- Whether the edge of a power failure lies next to the newest stamp of the crash epoch. -/
def sidecarAdmits (epoch : Option EpochSpan) (edge : ℕ) : Bool :=
  match epoch with
  | some e => e.maxMonoNs - sidecarAdmitSmallSlackNs ≤ edge &&
      edge ≤ min (e.maxMonoNs + sidecarAdmitDrainSlackNs) (2 ^ 64 - 1)
  | none => false

end Admission

section Newest

theorem newestBy_snoc (pred : EpochSpan → Bool) (epochs : List EpochSpan) (e : EpochSpan) :
    newestBy pred (epochs ++ [e]) =
      if pred e then some epochs.length else newestBy pred epochs := by
  induction epochs with
  | nil => simp [newestBy]
  | cons first epochs ih =>
    simp only [List.cons_append, newestBy, ih]
    by_cases h : pred e = true <;> simp [h]

theorem newestBy_lt {pred : EpochSpan → Bool} {epochs : List EpochSpan} {i : ℕ}
    (h : newestBy pred epochs = some i) : ∃ e, epochs[i]? = some e ∧ pred e = true := by
  induction epochs generalizing i with
  | nil => cases h
  | cons first epochs ih =>
    simp only [newestBy] at h
    split at h
    · rename_i j hj
      obtain rfl := Option.some.inj h
      simpa using ih hj
    · split at h
      · rename_i hfirst
        obtain rfl := Option.some.inj h
        exact ⟨first, rfl, hfirst⟩
      · cases h

/-- The epoch that recovery reads while one was printing. -/
def newestPrinting (epochs : List EpochSpan) : Option EpochSpan :=
  (newestBy (fun e => e.printing) epochs).bind fun i => epochs[i]?

theorem newestPrinting_snoc (epochs : List EpochSpan) (e : EpochSpan) :
    newestPrinting (epochs ++ [e]) = if e.printing then some e else newestPrinting epochs := by
  unfold newestPrinting
  rw [newestBy_snoc]
  cases he : e.printing with
  | true => simp
  | false =>
    cases hnewest : newestBy (fun e => e.printing) epochs with
    | none => simp
    | some i =>
      obtain ⟨e', hi, _⟩ := newestBy_lt hnewest
      obtain ⟨hlt, _⟩ := List.getElem?_eq_some_iff.mp hi
      simp [List.getElem?_append_left hlt]

theorem crashEpoch_of_printing {records : List ScannedRecord} {e : EpochSpan}
    (h : newestPrinting (partition records) = some e) :
    (selectCrashEpoch records).crashEpoch = some e := by
  obtain ⟨i, hi, he⟩ := Option.bind_eq_some_iff.mp h
  simp [selectCrashEpoch, CrashEpochSelection.crashEpoch, hi, he]

/-- A record of an idle printer, where the printing epoch has ended or ends, leaves the newest
printing epoch as it was. -/
theorem Partitioning.newestPrinting_step {p : Partitioning} {r : ScannedRecord}
    (hidle : isPrintingContext r.2 = false)
    (hapart : p.current.printing = false ∨ (p.boundary r).isSome = true) :
    newestPrinting (p.step r).spans = newestPrinting p.spans ∧
      (p.step r).current.printing = false := by
  unfold Partitioning.step Partitioning.spans
  cases hb : p.boundary r with
  | some kind =>
    have hnew : ((p.close (some kind)).fold r).current.printing = false := by
      simp [Partitioning.close, Partitioning.fold, Partitioning.openSpan, hidle]
    refine ⟨?_, hnew⟩
    rw [newestPrinting_snoc, hnew]
    rfl
  | none =>
    have hcurrent : p.current.printing = false := by simpa [hb] using hapart
    have hstill : ((p.close none).fold r).current.printing = false := by
      simp [Partitioning.close, Partitioning.fold, hcurrent, hidle]
    refine ⟨?_, hstill⟩
    rw [newestPrinting_snoc, newestPrinting_snoc, hstill, hcurrent]
    rfl

theorem partitioning_append (records more : List ScannedRecord) :
    partitioning (records ++ more) = more.foldl Partitioning.step (partitioning records) :=
  List.foldl_append

/-- What an idle printer records behind an epoch that has ended. -/
def KeepsApart (records more : List ScannedRecord) : Prop :=
  (∀ r ∈ more, isPrintingContext r.2 = false) ∧ ∀ r rest, more = r :: rest →
    (partitioning records).current.printing = false ∨
      ((partitioning records).boundary r).isSome = true

theorem newestPrinting_append {records more : List ScannedRecord} (h : KeepsApart records more) :
    newestPrinting (partitioning (records ++ more)).spans =
      newestPrinting (partitioning records).spans := by
  have hidle : ∀ (p : Partitioning) (rs : List ScannedRecord),
      (∀ r ∈ rs, isPrintingContext r.2 = false) → p.current.printing = false →
      newestPrinting (rs.foldl Partitioning.step p).spans = newestPrinting p.spans := by
    intro p rs
    induction rs generalizing p with
    | nil => exact fun _ _ => rfl
    | cons r rs ih =>
      intro hrs hp
      obtain ⟨hsame, hnext⟩ := Partitioning.newestPrinting_step (hrs r (by simp)) (.inl hp)
      exact (ih _ (fun r' hr' => hrs r' (by simp [hr'])) hnext).trans hsame
  rw [partitioning_append]
  cases more with
  | nil => rfl
  | cons r rest =>
    obtain ⟨hsame, hnext⟩ := Partitioning.newestPrinting_step (h.1 r (by simp)) (h.2 r rest rfl)
    exact (hidle _ rest (fun r' hr' => h.1 r' (by simp [hr'])) hnext).trans hsame

/-- Every span ends where the records do, or before. -/
theorem stop_le_length (records : List ScannedRecord) :
    (partitioning records).current.stop = records.length ∧
      ∀ e ∈ (partitioning records).epochs, e.stop ≤ records.length := by
  induction records using List.reverseRecOn with
  | nil => simp [partitioning, Partitioning.new, Partitioning.openSpan]
  | append_singleton records r ih =>
    obtain ⟨hcurrent, hepochs⟩ := ih
    rw [partitioning_append, List.foldl_cons, List.foldl_nil]
    unfold Partitioning.step
    cases hb : (partitioning records).boundary r with
    | none =>
      refine ⟨by simp [Partitioning.close, Partitioning.fold, hcurrent], ?_⟩
      intro e he
      have hle := hepochs e he
      simp only [List.length_append, List.length_singleton]
      omega
    | some kind =>
      refine ⟨by simp [Partitioning.close, Partitioning.fold, Partitioning.openSpan, hcurrent], ?_⟩
      intro e he
      simp only [List.length_append, List.length_singleton]
      rcases List.mem_append.mp he with hold | hlast
      · have hle := hepochs e hold
        omega
      · obtain rfl := List.mem_singleton.mp hlast
        omega

theorem partition_append_eq {records more : List ScannedRecord} (h : records ≠ []) :
    partition (records ++ more) = (partitioning (records ++ more)).spans := by
  simp [partition, h]

theorem newestPrinting_stop_le {records : List ScannedRecord} {e : EpochSpan}
    (h : newestPrinting (partitioning records).spans = some e) : e.stop ≤ records.length := by
  obtain ⟨i, _, he⟩ := Option.bind_eq_some_iff.mp h
  have hmem := List.mem_of_getElem? he
  obtain ⟨hcurrent, hepochs⟩ := stop_le_length records
  rcases List.mem_append.mp hmem with hold | hlast
  · exact hepochs e hold
  · obtain rfl := List.mem_singleton.mp hlast
    omega

/-- The crash epoch and its records stay what they were, whatever an idle printer adds. -/
theorem narrow_append {records more : List ScannedRecord} {e : EpochSpan}
    (h : newestPrinting (partition records) = some e) (hmore : KeepsApart records more) :
    newestPrinting (partition (records ++ more)) = some e ∧
      (selectCrashEpoch (records ++ more)).narrow (records ++ more) =
        (selectCrashEpoch records).narrow records := by
  have hne : records ≠ [] := by
    rintro rfl
    cases h
  have hspans : newestPrinting (partitioning records).spans = some e := by
    simpa [partition, hne] using h
  have hlater : newestPrinting (partition (records ++ more)) = some e := by
    rw [partition_append_eq hne, newestPrinting_append hmore, hspans]
  refine ⟨hlater, ?_⟩
  have hstop := newestPrinting_stop_le hspans
  simp only [CrashEpochSelection.narrow, crashEpoch_of_printing h, crashEpoch_of_printing hlater]
  rw [List.drop_append, List.take_append_of_le_length]
  rw [List.length_drop]
  omega

end Newest

end DeadReckoning.Reconstruct
