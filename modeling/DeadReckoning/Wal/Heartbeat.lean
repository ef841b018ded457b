import DeadReckoning.Lib.Bytes
import DeadReckoning.Lib.Checks
import DeadReckoning.Lib.Runs
import DeadReckoning.Wal.Record

/-! The heartbeat file: two slots written in turn, so that a torn write spares the other one.
Whatever beats, cuts and restarts came before, the newest beat that was fully written is the
one recovered. -/
namespace DeadReckoning.Wal

open Bytes Checks

section Format

def heartbeatSlotMagic : Bytes := [80, 72, 66, 49]

def heartbeatSlotLen : ℕ := 64

def heartbeatFileLen : ℕ := 2 * heartbeatSlotLen

inductive SlotId where
  | a
  | b
  deriving DecidableEq

namespace SlotId

def offset : SlotId → ℕ
  | a => 0
  | b => heartbeatSlotLen

def other : SlotId → SlotId
  | a => b
  | b => a

@[simp] theorem other_other (s : SlotId) : s.other.other = s := by cases s <;> rfl

theorem other_ne (s : SlotId) : s.other ≠ s := by cases s <;> decide

end SlotId

/-- Even beats stand in the first slot, odd ones in the second. -/
def slotForSequence (sequence : UInt64) : SlotId := if sequence % 2 = 0 then .a else .b

inductive SlotError where
  | tooShort (len : ℕ)
  | badMagic
  | crcMismatch
  deriving DecidableEq

inductive HeartbeatError where
  | oversizedFile (len : ℕ)
  | unrecoverable (slotA slotB : SlotError)
  deriving DecidableEq

structure HeartbeatRecovery where
  heartbeat : Heartbeat
  slot : SlotId
  torn : Option (SlotId × SlotError)
  deriving DecidableEq

/-- The words of a beat, in the order of the slot. -/
def Heartbeat.words (h : Heartbeat) : List UInt64 :=
  [h.sequence, h.monoNs, h.wallNs, h.printTime, h.estSampleMonoNs, h.estSamplePrintTime,
    h.walOffset]

/-- The bytes under the checksum of a slot. -/
def Heartbeat.crcRegion (h : Heartbeat) : Bytes := heartbeatSlotMagic ++ h.words.flatMap ofU64

def encodeSlot (h : Heartbeat) : Bytes := h.crcRegion ++ ofU32 (crc32c h.crcRegion)

def decodeSlot (bytes : Bytes) : Except SlotError Heartbeat := do
  ensure (heartbeatSlotLen ≤ bytes.length) (.tooShort bytes.length)
  let slot := bytes.take heartbeatSlotLen
  let crcEnd := heartbeatSlotLen - 4
  let stored ← required .crcMismatch (leU32 slot crcEnd)
  ensure (crc32c (slot.take crcEnd) = stored) .crcMismatch
  ensure (heartbeatSlotMagic.isPrefixOf slot) .badMagic
  let sequence ← required .crcMismatch (leU64 slot 4)
  let monoNs ← required .crcMismatch (leU64 slot 12)
  let wallNs ← required .crcMismatch (leU64 slot 20)
  let printTime ← required .crcMismatch (leU64 slot 28)
  let estSampleMonoNs ← required .crcMismatch (leU64 slot 36)
  let estSamplePrintTime ← required .crcMismatch (leU64 slot 44)
  let walOffset ← required .crcMismatch (leU64 slot 52)
  pure ⟨sequence, monoNs, wallNs, printTime, estSampleMonoNs, estSamplePrintTime, walOffset⟩

/-- The candidate lies less than half the circle ahead. -/
def sequenceIsNewer (candidate other : UInt64) : Bool :=
  candidate - other ≠ 0 && candidate - other < (1 : UInt64) <<< 63

def recoverHeartbeat (bytes : Bytes) : Except HeartbeatError HeartbeatRecovery :=
  if heartbeatFileLen < bytes.length then .error (.oversizedFile bytes.length)
  else match decodeSlot bytes, decodeSlot (bytes.drop heartbeatSlotLen) with
    | .ok a, .ok b =>
        if sequenceIsNewer b.sequence a.sequence then .ok ⟨b, .b, none⟩ else .ok ⟨a, .a, none⟩
    | .ok a, .error e => .ok ⟨a, .a, some (.b, e)⟩
    | .error e, .ok b => .ok ⟨b, .b, some (.a, e)⟩
    | .error slotA, .error slotB => .error (.unrecoverable slotA slotB)

theorem length_heartbeat_crcRegion (h : Heartbeat) : h.crcRegion.length = 60 := by
  simp [Heartbeat.crcRegion, Heartbeat.words, heartbeatSlotMagic]

theorem length_encodeSlot (h : Heartbeat) : (encodeSlot h).length = heartbeatSlotLen := by
  simp [encodeSlot, length_heartbeat_crcRegion, heartbeatSlotLen]

/-- A beat reads back from the slot it was written to. -/
theorem decodeSlot_encodeSlot (h : Heartbeat) : decodeSlot (encodeSlot h) = .ok h := by
  have hregion := length_heartbeat_crcRegion h
  have hlength := length_encodeSlot h
  have hslot : (encodeSlot h).take heartbeatSlotLen = encodeSlot h := by
    rw [← hlength, List.take_length]
  have hfront : (encodeSlot h).take (heartbeatSlotLen - 4) = h.crcRegion :=
    List.take_left' hregion
  have hstored : leU32 (encodeSlot h) (heartbeatSlotLen - 4) = some (crc32c h.crcRegion) :=
    leU32_append h.crcRegion [] _ (by simp [encodeSlot]) hregion
  have hmagic : heartbeatSlotMagic.isPrefixOf (encodeSlot h) = true := by
    rw [List.isPrefixOf_iff_prefix, encodeSlot, Heartbeat.crcRegion, List.append_assoc]
    exact List.prefix_append _ _
  have hword : ∀ (i : ℕ) (v : UInt64), h.words[i]? = some v →
      leU64 (encodeSlot h) (4 + 8 * i) = some v := fun i v hv =>
    leU64_flatMap heartbeatSlotMagic (ofU32 (crc32c h.crcRegion)) h.words hv
  unfold decodeSlot
  simp only [bind_eq_ok, ensure_eq_ok, required_eq_ok, decide_eq_true_eq, hslot, hfront, hmagic]
  exact ⟨(), hlength.ge, _, hstored, (), rfl, (), trivial, _, hword 0 _ rfl, _, hword 1 _ rfl, _,
    hword 2 _ rfl, _, hword 3 _ rfl, _, hword 4 _ rfl, _, hword 5 _ rfl, _, hword 6 _ rfl, rfl⟩

/-- A slot is read from its own bytes alone. -/
theorem decodeSlot_append {slot : Bytes} (hslot : slot.length = heartbeatSlotLen) (rest : Bytes) :
    decodeSlot (slot ++ rest) = decodeSlot slot := by
  have htake : (slot ++ rest).take heartbeatSlotLen = slot.take heartbeatSlotLen := by
    rw [List.take_left' hslot, ← hslot, List.take_length]
  have hlong : heartbeatSlotLen ≤ (slot ++ rest).length := by simp [hslot]
  unfold decodeSlot
  simp only [htake, hlong, hslot.ge, decide_true]
  rfl

theorem slotForSequence_add_one (n : UInt64) :
    slotForSequence (n + 1) = (slotForSequence n).other := by
  have hparity : ∀ m : UInt64, m % 2 = 0 ↔ m.toNat % 2 = 0 := by
    intro m
    rw [← UInt64.toNat_inj, UInt64.toNat_mod]
    rfl
  have hnext : (n + 1).toNat = (n.toNat + 1) % 2 ^ 64 := by simp [UInt64.toNat_add]
  unfold slotForSequence
  simp only [hparity, hnext]
  by_cases h : n.toNat % 2 = 0
  · rw [if_pos h, if_neg (by omega)]
    rfl
  · rw [if_neg h, if_pos (by omega)]
    rfl

/-- The comparison wraps: a beat is newer than the one before it, wherever the counter is. -/
theorem sequenceIsNewer_add_one (n : UInt64) : sequenceIsNewer (n + 1) n = true := by
  have hforward : n + 1 - n = 1 := by grind
  unfold sequenceIsNewer
  rw [hforward]
  decide

theorem not_sequenceIsNewer_add_one (n : UInt64) : sequenceIsNewer n (n + 1) = false := by
  have hbackward : n - (n + 1) = 0xFFFFFFFFFFFFFFFF := by grind
  unfold sequenceIsNewer
  rw [hbackward]
  decide

end Format

section File

/-- The bytes of one slot. -/
structure Slot where
  bytes : Bytes
  length_eq : bytes.length = heartbeatSlotLen
  deriving DecidableEq

namespace Slot

/-- Where the file was only given its size. -/
def zero : Slot := ⟨List.replicate heartbeatSlotLen 0, List.length_replicate⟩

def encode (h : Heartbeat) : Slot := ⟨encodeSlot h, length_encodeSlot h⟩

def decode (s : Slot) : Except SlotError Heartbeat := decodeSlot s.bytes

@[simp] theorem decode_encode (h : Heartbeat) : (encode h).decode = .ok h := decodeSlot_encodeSlot h

theorem decode_zero : zero.decode = .error .crcMismatch := by decide +kernel

end Slot

structure HeartbeatFile where
  slotA : Slot
  slotB : Slot
  deriving DecidableEq

namespace HeartbeatFile

def bytes (f : HeartbeatFile) : Bytes := f.slotA.bytes ++ f.slotB.bytes

def slot (f : HeartbeatFile) : SlotId → Slot
  | .a => f.slotA
  | .b => f.slotB

/-- One slot rewritten in place. -/
def write (f : HeartbeatFile) (i : SlotId) (s : Slot) : HeartbeatFile :=
  match i with
  | .a => { f with slotA := s }
  | .b => { f with slotB := s }

@[simp] theorem slot_write (f : HeartbeatFile) (i : SlotId) (s : Slot) : (f.write i s).slot i = s := by
  cases i <;> rfl

@[simp] theorem slot_write_other (f : HeartbeatFile) (i : SlotId) (s : Slot) :
    (f.write i s).slot i.other = f.slot i.other := by
  cases i <;> rfl

@[simp] theorem write_slot (f : HeartbeatFile) (i : SlotId) : f.write i (f.slot i) = f := by
  cases i <;> rfl

/-- The slots stand at their offsets. -/
theorem bytes_at_offset (f : HeartbeatFile) (i : SlotId) :
    slice f.bytes i.offset heartbeatSlotLen = some (f.slot i).bytes := by
  apply slice_eq_some.mpr
  cases i with
  | a => exact ⟨[], f.slotB.bytes, rfl, rfl, f.slotA.length_eq⟩
  | b => exact ⟨f.slotA.bytes, [], by simp [bytes, slot], f.slotA.length_eq, f.slotB.length_eq⟩

theorem recoverHeartbeat_bytes (f : HeartbeatFile) :
    recoverHeartbeat f.bytes = match f.slotA.decode, f.slotB.decode with
      | .ok a, .ok b =>
          if sequenceIsNewer b.sequence a.sequence then .ok ⟨b, .b, none⟩ else .ok ⟨a, .a, none⟩
      | .ok a, .error e => .ok ⟨a, .a, some (.b, e)⟩
      | .error e, .ok b => .ok ⟨b, .b, some (.a, e)⟩
      | .error slotA, .error slotB => .error (.unrecoverable slotA slotB) := by
  have hlength : ¬ heartbeatFileLen < f.bytes.length := by
    have hA := f.slotA.length_eq
    have hB := f.slotB.length_eq
    simp only [bytes, List.length_append, heartbeatFileLen]
    omega
  have hdrop : f.bytes.drop heartbeatSlotLen = f.slotB.bytes := List.drop_left' f.slotA.length_eq
  have hfirst : decodeSlot f.bytes = f.slotA.decode := decodeSlot_append f.slotA.length_eq _
  unfold recoverHeartbeat
  rw [if_neg hlength, hdrop, hfirst]
  rfl

/-- A beat in one slot is recovered when the other slot is torn or holds the beat before. -/
theorem recoverHeartbeat_newest {f : HeartbeatFile} {i : SlotId} {h : Heartbeat}
    (hslot : (f.slot i).decode = .ok h)
    (hother : ∀ g, (f.slot i.other).decode = .ok g → h.sequence = g.sequence + 1) :
    ∃ r, recoverHeartbeat f.bytes = .ok r ∧ r.heartbeat = h ∧ r.slot = i := by
  rw [recoverHeartbeat_bytes]
  cases i with
  | a =>
    have hA : f.slotA.decode = .ok h := hslot
    cases hB : f.slotB.decode with
    | error e =>
      rw [hA]
      exact ⟨_, rfl, rfl, rfl⟩
    | ok g =>
      have holder : sequenceIsNewer g.sequence h.sequence = false := by
        rw [hother g hB]
        exact not_sequenceIsNewer_add_one g.sequence
      rw [hA]
      simp only [holder]
      exact ⟨_, rfl, rfl, rfl⟩
  | b =>
    have hB : f.slotB.decode = .ok h := hslot
    cases hA : f.slotA.decode with
    | error e =>
      rw [hB]
      exact ⟨_, rfl, rfl, rfl⟩
    | ok g =>
      have hnewer : sequenceIsNewer h.sequence g.sequence = true := by
        rw [hother g hA]
        exact sequenceIsNewer_add_one g.sequence
      rw [hB]
      simp only [hnewer]
      exact ⟨_, rfl, rfl, rfl⟩

/-- Nothing is recovered while neither slot holds a beat. -/
theorem recoverHeartbeat_blank {f : HeartbeatFile} (h : ∀ i, ∃ e, (f.slot i).decode = .error e) :
    ∃ e, recoverHeartbeat f.bytes = .error e := by
  obtain ⟨eA, hA⟩ := h .a
  obtain ⟨eB, hB⟩ := h .b
  simp only [slot] at hA hB
  rw [recoverHeartbeat_bytes, hA, hB]
  exact ⟨_, rfl⟩

end HeartbeatFile

end File

section History

/-- What the service samples for a beat; the sequence is its own. -/
structure BeatSample where
  monoNs : UInt64
  wallNs : UInt64
  printTime : F64Bits
  estSampleMonoNs : UInt64
  estSamplePrintTime : F64Bits
  walOffset : UInt64
  deriving DecidableEq

def BeatSample.beat (s : BeatSample) (sequence : UInt64) : Heartbeat :=
  ⟨sequence, s.monoNs, s.wallNs, s.printTime, s.estSampleMonoNs, s.estSamplePrintTime, s.walOffset⟩

/-- A beat whose bytes all reached the disk: its write returned, or the power was cut in it. -/
inductive WrittenBeat where
  | completed (beat : Heartbeat)
  | inFlight (beat : Heartbeat)
  deriving DecidableEq

def WrittenBeat.beat : WrittenBeat → Heartbeat
  | completed beat | inFlight beat => beat

/-- The file, the service while it runs, and the beats written so far. -/
structure HeartbeatService where
  file : HeartbeatFile
  hbSeq : Option UInt64
  written : List WrittenBeat
  deriving DecidableEq

inductive HeartbeatEvent where
  | start
  | beat (sample : BeatSample)
  | stop
  | cut (sample : BeatSample) (left : Slot)

/-- The sequence a started service goes on with. -/
def resumeSequence (bytes : Bytes) : UInt64 :=
  match recoverHeartbeat bytes with
  | .ok r => r.heartbeat.sequence + 1
  | .error _ => 0

/-- What a cut in the write of a beat may leave of the slot. -/
def MayLeave (old new left : Slot) : Prop := left.decode.isOk = false ∨ left = old ∨ left = new

instance (old new left : Slot) : Decidable (MayLeave old new left) :=
  inferInstanceAs (Decidable (_ ∨ _ ∨ _))

namespace HeartbeatService

/-- Before the first start: the file has its size, and no beat. -/
def fresh : HeartbeatService := ⟨⟨.zero, .zero⟩, none, []⟩

/-- The slot of the beat holds it. -/
def wrote (s : HeartbeatService) (w : WrittenBeat) (hbSeq : Option UInt64) : HeartbeatService :=
  ⟨s.file.write (slotForSequence w.beat.sequence) (.encode w.beat), hbSeq, s.written ++ [w]⟩

def writeHeartbeatSlot (s : HeartbeatService) (n : UInt64) (sample : BeatSample) :
    HeartbeatService :=
  s.wrote (.completed (sample.beat n)) (some (n + 1))

def cutIn (s : HeartbeatService) (n : UInt64) (sample : BeatSample) (left : Slot) :
    HeartbeatService :=
  if left = .encode (sample.beat n) then s.wrote (.inFlight (sample.beat n)) none
  else { s with file := s.file.write (slotForSequence n) left, hbSeq := none }

def step : Runs.Step HeartbeatService HeartbeatEvent
  | s, .start => match s.hbSeq with
      | none => some { s with hbSeq := some (resumeSequence s.file.bytes) }
      | some _ => none
  | s, .beat sample => s.hbSeq.map fun n => s.writeHeartbeatSlot n sample
  | s, .stop => s.hbSeq.map fun _ => { s with hbSeq := none }
  | s, .cut sample left => s.hbSeq.bind fun n =>
      if MayLeave (s.file.slot (slotForSequence n)) (.encode (sample.beat n)) left then
        some (s.cutIn n sample left)
      else none

/-- The beat stands in its slot, and the other slot is torn or holds the beat before. -/
def Holds (file : HeartbeatFile) (h : Heartbeat) : Prop :=
  (file.slot (slotForSequence h.sequence)).decode = .ok h ∧
    ∀ g, (file.slot (slotForSequence h.sequence).other).decode = .ok g →
      h.sequence = g.sequence + 1

/-- The written beats are numbered in a row, and the file holds the last one. -/
structure Intact (s : HeartbeatService) : Prop where
  numbered : ∀ (i : ℕ) (w : WrittenBeat), s.written[i]? = some w → w.beat.sequence = .ofNat i
  blank : s.written = [] → ∀ i, ∃ e, (s.file.slot i).decode = .error e
  newest : ∀ w, s.written.getLast? = some w → Holds s.file w.beat
  next : ∀ n, s.hbSeq = some n → n = .ofNat s.written.length

theorem Holds.recover {file : HeartbeatFile} {h : Heartbeat} (hh : Holds file h) :
    ∃ r, recoverHeartbeat file.bytes = .ok r ∧ r.heartbeat = h ∧
      r.slot = slotForSequence h.sequence :=
  file.recoverHeartbeat_newest hh.1 hh.2

theorem intact_fresh : Intact fresh where
  numbered := by simp [fresh]
  blank _ i := ⟨.crcMismatch, by cases i <;> exact Slot.decode_zero⟩
  newest := by simp [fresh]
  next := by simp [fresh]

theorem Intact.stop {s : HeartbeatService} (h : Intact s) : Intact { s with hbSeq := none } :=
  { h with next := nofun }

theorem Intact.last_sequence {s : HeartbeatService} (h : Intact s) {w : WrittenBeat}
    (hw : s.written.getLast? = some w) :
    UInt64.ofNat s.written.length = w.beat.sequence + 1 := by
  obtain ⟨before, hbefore⟩ := List.getLast?_eq_some_iff.mp hw
  have hnumber := h.numbered before.length w (by simp [hbefore])
  rw [hnumber, hbefore]
  simp [UInt64.ofNat_add]

/-- A service that starts goes on where the last written beat left off. -/
theorem Intact.start {s : HeartbeatService} (h : Intact s) :
    Intact { s with hbSeq := some (resumeSequence s.file.bytes) } := by
  have hresume : resumeSequence s.file.bytes = .ofNat s.written.length := by
    unfold resumeSequence
    cases hlast : s.written.getLast? with
    | none =>
      have hempty := List.getLast?_eq_none_iff.mp hlast
      obtain ⟨e, he⟩ := HeartbeatFile.recoverHeartbeat_blank (h.blank hempty)
      rw [he, hempty]
      rfl
    | some w =>
      obtain ⟨r, hr, hbeat, _⟩ := (h.newest w hlast).recover
      rw [hr, h.last_sequence hlast, ← hbeat]
  refine { h with next := ?_ }
  intro n hn
  rw [← Option.some.inj hn, hresume]

/-- A beat that was fully written is the one the file holds. -/
theorem Intact.wrote {s : HeartbeatService} (h : Intact s) {w : WrittenBeat}
    {hbSeq : Option UInt64} (hsequence : w.beat.sequence = .ofNat s.written.length)
    (hnext : ∀ n, hbSeq = some n → n = .ofNat (s.written.length + 1)) :
    Intact (s.wrote w hbSeq) where
  numbered i v hv := by
    simp only [HeartbeatService.wrote, List.getElem?_append] at hv
    split at hv
    · exact h.numbered i v hv
    · rename_i hi
      obtain ⟨hi', rfl⟩ : i - s.written.length = 0 ∧ w = v := by
        simpa [List.getElem?_singleton] using hv
      rw [hsequence]
      congr 1
      omega
  blank hempty := by simp [HeartbeatService.wrote] at hempty
  newest v hv := by
    obtain rfl : w = v := by simpa [HeartbeatService.wrote] using hv
    constructor
    · simp [HeartbeatService.wrote]
    · intro g hg
      simp only [HeartbeatService.wrote, HeartbeatFile.slot_write_other] at hg
      cases hlast : s.written.getLast? with
      | none =>
        obtain ⟨e, he⟩ := h.blank (List.getLast?_eq_none_iff.mp hlast)
          (slotForSequence w.beat.sequence).other
        rw [he] at hg
        cases hg
      | some u =>
        -- The other slot is the one of the beat before.
        have hafter : w.beat.sequence = u.beat.sequence + 1 := by
          rw [hsequence, h.last_sequence hlast]
        rw [hafter, slotForSequence_add_one, SlotId.other_other, (h.newest u hlast).1] at hg
        cases hg
        exact hafter
  next := by simpa [HeartbeatService.wrote] using hnext

/-- A torn write spares the slot of the beat before. -/
theorem Intact.torn {s : HeartbeatService} (h : Intact s) {left : Slot} {e : SlotError}
    (hleft : left.decode = .error e) :
    Intact { s with
      file := s.file.write (slotForSequence (.ofNat s.written.length)) left, hbSeq := none } where
  numbered := h.numbered
  blank hempty i := by
    obtain rfl | hi : i = slotForSequence (.ofNat s.written.length) ∨
        i = (slotForSequence (.ofNat s.written.length)).other := by
      cases i <;> cases slotForSequence (.ofNat s.written.length) <;> simp [SlotId.other]
    · exact ⟨e, by simpa using hleft⟩
    · subst hi
      simpa using h.blank hempty _
  newest w hw := by
    have hslot : slotForSequence (.ofNat s.written.length) =
        (slotForSequence w.beat.sequence).other := by
      rw [h.last_sequence hw, slotForSequence_add_one]
    constructor
    · have hspared := s.file.slot_write_other (slotForSequence w.beat.sequence).other left
      rw [SlotId.other_other] at hspared
      simp only [hslot, hspared]
      exact (h.newest w hw).1
    · intro g hg
      simp only [hslot, HeartbeatFile.slot_write, hleft] at hg
      cases hg
  next := nofun

theorem Intact.cutIn {s : HeartbeatService} (h : Intact s) {n : UInt64} (hn : s.hbSeq = some n)
    {sample : BeatSample} {left : Slot}
    (hleft : MayLeave (s.file.slot (slotForSequence n)) (.encode (sample.beat n)) left) :
    Intact (s.cutIn n sample left) := by
  have hnext := h.next n hn
  unfold HeartbeatService.cutIn
  split
  · exact h.wrote hnext nofun
  · rename_i hnew
    rcases hleft with hfail | rfl | hfull
    · cases hdecode : left.decode with
      | error e =>
        rw [hnext]
        exact h.torn hdecode
      | ok g => rw [hdecode] at hfail; cases hfail
    · rw [HeartbeatFile.write_slot]
      exact h.stop
    · exact absurd hfull hnew

theorem step_intact {s t : HeartbeatService} {e : HeartbeatEvent} (h : Intact s)
    (hstep : step s e = some t) : Intact t := by
  cases e with
  | start =>
    simp only [step] at hstep
    cases hseq : s.hbSeq with
    | none =>
      rw [hseq] at hstep
      exact Option.some.inj hstep ▸ h.start
    | some n =>
      rw [hseq] at hstep
      cases hstep
  | beat sample =>
    obtain ⟨n, hn, rfl⟩ := Option.map_eq_some_iff.mp hstep
    have hnext := h.next n hn
    apply h.wrote (w := .completed (sample.beat n)) hnext
    intro m hm
    rw [← Option.some.inj hm, hnext]
    simp [UInt64.ofNat_add]
  | stop =>
    obtain ⟨n, _, rfl⟩ := Option.map_eq_some_iff.mp hstep
    exact h.stop
  | cut sample left =>
    obtain ⟨n, hn, hcut⟩ := Option.bind_eq_some_iff.mp hstep
    split at hcut
    · rename_i hleft
      exact Option.some.inj hcut ▸ h.cutIn hn hleft
    · cases hcut

theorem run_intact {s : HeartbeatService} {events : List HeartbeatEvent}
    (hrun : Runs.run step fresh events = some s) : Intact s :=
  Runs.run_invariant intact_fresh (fun _ _ _ h => step_intact h) hrun

/-- A beat is recovered: the completed one, or the one in flight after it whose bytes were all
written. Its number is that many further, around the circle. -/
def GivesBack (file : HeartbeatFile) (h : Heartbeat) (after : List WrittenBeat) : Prop :=
  ∃ r, recoverHeartbeat file.bytes = .ok r ∧
    (after = [] ∧ r.heartbeat = h ∨ ∃ earlier, after = earlier ++ [.inFlight r.heartbeat]) ∧
    r.heartbeat.sequence = h.sequence + .ofNat after.length

/-- Once a beat has completed, neither cuts nor restarts lose it. -/
theorem recover_newest {s : HeartbeatService} {events : List HeartbeatEvent}
    (hrun : Runs.run step fresh events = some s) {before after : List WrittenBeat} {h : Heartbeat}
    (hwritten : s.written = before ++ .completed h :: after)
    (hafter : ∀ w ∈ after, ∃ g, w = .inFlight g) : GivesBack s.file h after := by
  have hintact := run_intact hrun
  have hsequence := hintact.numbered before.length (.completed h) (by simp [hwritten])
  simp only [WrittenBeat.beat] at hsequence
  cases after using List.reverseRecOn with
  | nil =>
    obtain ⟨r, hr, hbeat, _⟩ := (hintact.newest (.completed h) (by simp [hwritten])).recover
    refine ⟨r, hr, .inl ⟨rfl, hbeat⟩, ?_⟩
    rw [hbeat]
    simp [WrittenBeat.beat]
  | append_singleton earlier w =>
    obtain ⟨g, rfl⟩ := hafter w (by simp)
    have hsplit : s.written = (before ++ .completed h :: earlier) ++ [.inFlight g] := by
      simp [hwritten]
    obtain ⟨r, hr, hbeat, _⟩ := (hintact.newest (.inFlight g) (by rw [hsplit, List.getLast?_concat])).recover
    have hnumber := hintact.numbered (before ++ .completed h :: earlier).length (.inFlight g)
      (by rw [hsplit, List.getElem?_concat_length])
    simp only [WrittenBeat.beat] at hbeat hnumber
    refine ⟨r, hr, .inr ⟨earlier, by rw [hbeat]⟩, ?_⟩
    rw [hbeat, hnumber, hsequence, ← UInt64.ofNat_add]
    simp

def exampleSample : BeatSample := ⟨1000, 2000, 0, 900, 0, 32⟩

/-- Two beats, a torn third one, and a restart whose first write reaches the disk. -/
def exampleEvents : List HeartbeatEvent :=
  [.start, .beat exampleSample, .beat exampleSample, .cut exampleSample .zero, .start,
    .cut exampleSample (.encode (exampleSample.beat 2))]

def exampleEnd : HeartbeatService :=
  ⟨⟨.encode (exampleSample.beat 2), .encode (exampleSample.beat 1)⟩, none,
    [.completed (exampleSample.beat 0), .completed (exampleSample.beat 1),
      .inFlight (exampleSample.beat 2)]⟩

theorem recover_newest_torn : Runs.run step fresh exampleEvents = some exampleEnd ∧
    GivesBack exampleEnd.file (exampleSample.beat 1) [.inFlight (exampleSample.beat 2)] := by
  have hrun : Runs.run step fresh exampleEvents = some exampleEnd := by decide +kernel
  exact ⟨hrun, @recover_newest _ _ hrun [.completed (exampleSample.beat 0)] _ _ rfl (by simp)⟩

end HeartbeatService

end History

end DeadReckoning.Wal
