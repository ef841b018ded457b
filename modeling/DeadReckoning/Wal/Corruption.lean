import DeadReckoning.Lib.Crc
import DeadReckoning.Wal.Frame
import DeadReckoning.Wal.Heartbeat

/-! What the checksums of the log and of the heartbeat file are good for: a burst of up to thirty-two
bits is never taken for data. -/
namespace DeadReckoning.Wal

open Bytes Checks Crc

section Seals

variable {bytes : Bytes} {codec : Codec}

theorem sealed_frame (codec : Codec) (record : WalRecord) : Sealed (frame codec record) :=
  ⟨_, rfl⟩

/-- The frame of a record that was read is sealed. -/
theorem sealed_of_parseFrame {record : WalRecord} {n : ℕ}
    (h : parseFrame codec bytes = .ok (record, n)) :
    ∃ len, leU32 bytes 4 = some len ∧ n = frameHeaderLen + len.toNat + frameTrailerLen ∧
      Sealed (bytes.take n) := by
  simp only [parseFrame, parsePayload, bind_eq_ok, ensure_eq_ok, required_eq_ok, decide_eq_true_eq,
    pure, Except.pure, Except.ok.injEq, Prod.mk.injEq] at h
  obtain ⟨_, -, _, -, _, -, _, -, len, hlen, _, -, _, hinside, stored, hstored, _, hcrc, _, -, _, -,
    _, -, _, -, -, rfl⟩ := h
  refine ⟨len, hlen, rfl, @sealed_of_checked _ (frameHeaderLen + len.toNat) stored ?_ ?_ ?_⟩
  · rw [List.length_take, Nat.min_eq_left hinside]
    rfl
  · rw [← hstored, leU32, leU32, frameTrailerLen, slice_take (Nat.le_refl _)]
  · rw [List.take_take, Nat.min_eq_left (Nat.le_add_right _ _), hcrc]

theorem SegmentHeader.sealed_encode (header : SegmentHeader) : Sealed header.encode := ⟨_, rfl⟩

theorem SegmentHeader.sealed_of_decode {header : SegmentHeader}
    (h : SegmentHeader.decode bytes = .ok header) : Sealed (bytes.take segmentHeaderLen) := by
  have hlength := SegmentHeader.decode_ok_length h
  rw [SegmentHeader.decode_take hlength] at h
  unfold SegmentHeader.decode at h
  split at h
  · cases h
  · split at h
    · cases h
    · obtain ⟨stored, hstored, h⟩ := bind_eq_ok.mp h
      split at h
      · cases h
      · rename_i hcrc
        refine sealed_of_checked ?_ (required_eq_ok.mp hstored) (not_not.mp hcrc)
        rw [List.length_take]
        exact Nat.min_eq_left hlength

theorem sealed_encodeSlot (h : Heartbeat) : Sealed (encodeSlot h) := ⟨_, rfl⟩

theorem sealed_of_decodeSlot {h : Heartbeat} (hok : decodeSlot bytes = .ok h) :
    Sealed (bytes.take heartbeatSlotLen) := by
  simp only [decodeSlot, bind_eq_ok, ensure_eq_ok, required_eq_ok, decide_eq_true_eq] at hok
  obtain ⟨_, hlength, stored, hstored, _, hcrc, -⟩ := hok
  refine sealed_of_checked ?_ hstored hcrc
  rw [List.length_take]
  exact Nat.min_eq_left hlength

end Seals

section Segments

variable {codec : Codec}

/-- A damaged frame does not parse, as long as its length field is what it was. -/
theorem parseFrame_burst {record : WalRecord} {damaged rest : Bytes} {result : WalRecord × ℕ}
    (haccepted : Accepted codec record) (hburst : Burst (frame codec record) damaged)
    (hlength : leU32 damaged 4 = leU32 (frame codec record) 4)
    (h : parseFrame codec (damaged ++ rest) = .ok result) : damaged = frame codec record := by
  obtain ⟨payload, hpayload, hmax, hframe⟩ := haccepted.frame_eq
  obtain ⟨found, n⟩ := result
  obtain ⟨len, hlen, rfl, hsealed⟩ := sealed_of_parseFrame h
  have hwritten : leU32 (frame codec record) 4 = some (UInt32.ofNat payload.length) := by
    have hsplit := frameBytes_append record.kind payload []
    rw [List.append_nil, List.append_nil] at hsplit
    rw [hframe]
    exact leU32_append (frameMagic ++ [payloadFormatJson, record.kind.asU8]) _ _ hsplit rfl
  have hdamaged : damaged.length = frameHeaderLen + payload.length + frameTrailerLen := by
    rw [← hburst.length_eq, hframe, length_frameBytes]
  have hsame : leU32 (damaged ++ rest) 4 = leU32 damaged 4 := by
    rw [leU32, leU32, ← @slice_take (damaged ++ rest) 4 4 damaged.length, List.take_left' rfl]
    rw [hdamaged, frameHeaderLen]
    omega
  have hcount : len.toNat = payload.length := by
    rw [hsame, hlength, hwritten, Option.some.injEq] at hlen
    rw [← hlen, toNat_ofNat_length hmax]
  rw [hcount, ← hdamaged, List.take_left' rfl] at hsealed
  exact hburst.eq_of_sealed (sealed_frame codec record) hsealed

/-- The frames of a segment end with the bytes, not with a frame that says so. -/
theorem parseFrame_ne_cleanEof {bytes : Bytes} : parseFrame codec bytes ≠ .error .cleanEof := by
  intro h
  simp only [parseFrame, parsePayload, bind_eq_error, ensure_eq_error, required_eq_error,
    reduceCtorEq, and_false, false_or, exists_false, pure, Except.pure] at h

theorem decode_ne_cleanEof {bytes : Bytes} :
    SegmentHeader.decode bytes ≠ .error .cleanEof := by
  intro h
  unfold SegmentHeader.decode at h
  split at h
  · cases h
  · split at h
    · cases h
    · simp only [bind_eq_error, required_eq_error, reduceCtorEq, and_false, false_or] at h
      obtain ⟨stored, -, h⟩ := h
      split at h
      · cases h
      · simp only [bind_eq_error, required_eq_error, reduceCtorEq, and_false, false_or] at h
        obtain ⟨version, -, h⟩ := h
        split at h
        · cases h
        · simp only [bind_eq_error, required_eq_error, reduceCtorEq, and_false, false_or,
            exists_false, pure, Except.pure] at h

/-- A header that is hit by a burst is refused, and so is the whole segment. -/
theorem scan_header_burst {header : SegmentHeader} {damaged : Bytes}
    (hburst : Burst header.encode damaged) (hdamaged : damaged ≠ header.encode) (rest : Bytes) :
    ∃ stop, stop ≠ .cleanEof ∧ scan codec (damaged ++ rest) = ⟨none, [], 0, stop⟩ := by
  have hlength : damaged.length = segmentHeaderLen :=
    hburst.length_eq.symm.trans (SegmentHeader.length_encode header)
  cases hdecode : SegmentHeader.decode (damaged ++ rest) with
  | ok found =>
    have hsealed := SegmentHeader.sealed_of_decode hdecode
    rw [List.take_left' hlength] at hsealed
    exact absurd (hburst.eq_of_sealed header.sealed_encode hsealed) hdamaged
  | error stop =>
    exact ⟨stop, fun hclean => decode_ne_cleanEof (hclean ▸ hdecode), scan_of_decode_error hdecode⟩

/-- A scan sees a burst. In the header of a segment it costs the segment; in a frame, off the length
field, it leaves exactly the records in front of that frame, whatever has happened to the bytes
behind it. -/
structure SeesBurst (codec : Codec) (header : SegmentHeader) (written : List ScannedRecord)
    (bytes : Bytes) : Prop where
  opening : ∀ damaged, Burst (bytes.take segmentHeaderLen) damaged →
    damaged ≠ bytes.take segmentHeaderLen → ∀ rest, ∃ stop, stop ≠ .cleanEof ∧
      scan codec (damaged ++ rest) = ⟨none, [], 0, stop⟩
  frame : ∀ i start record, written[i]? = some (start, record) → ∀ damaged,
    Burst (frame codec record) damaged → damaged ≠ frame codec record →
    leU32 damaged 4 = leU32 (frame codec record) 4 → ∀ rest, ∃ stop, stop ≠ .cleanEof ∧
      scan codec (bytes.take start ++ damaged ++ rest) = ⟨some header, written.take i, start, stop⟩

/-- The records behind a prefix of the written ones. -/
theorem placed_split {pos i start : ℕ} {records : List WalRecord} {record : WalRecord}
    (h : (placed (frame codec) pos records)[i]? = some (start, record)) :
    ∃ before after, records = before ++ record :: after ∧
      start = pos + (before.flatMap (frame codec)).length ∧
      (placed (frame codec) pos records).take i = placed (frame codec) pos before := by
  have hvalues : (placed (frame codec) pos records).map Prod.snd = records := placed_map_snd _ _
  have hrecord : records[i]? = some record := by
    rw [← hvalues, List.getElem?_map, h]
    rfl
  obtain ⟨hi, hget⟩ := List.getElem?_eq_some_iff.mp hrecord
  have hsplit : records = records.take i ++ record :: records.drop (i + 1) := by
    rw [← hget, ← List.drop_eq_getElem_cons hi, List.take_append_drop]
  have hcount : (placed (frame codec) pos (records.take i)).length = i := by
    rw [← List.length_map Prod.snd, placed_map_snd, List.length_take]
    exact Nat.min_eq_left hi.le
  have hplaced : placed (frame codec) pos records = placed (frame codec) pos (records.take i) ++
      placed (frame codec) (pos + ((records.take i).flatMap (frame codec)).length)
        (record :: records.drop (i + 1)) := by
    rw [← placed_append, ← hsplit]
  refine ⟨_, _, hsplit, ?_, ?_⟩
  · rw [hplaced, List.getElem?_append_right hcount.le, hcount, Nat.sub_self] at h
    exact (congrArg Prod.fst (Option.some.inj h)).symm
  · rw [hplaced, List.take_left' hcount]

/-- A segment is written as its header and its frames, and no burst in either goes unseen. -/
theorem scan_sees_burst (hcodec : codec.RoundTrips) {createdWallNs createdMonoNs : UInt64}
    {records : List WalRecord} {starts : List ℕ} {w : WalWriter}
    (hw : (WalWriter.create (.new createdWallNs createdMonoNs)).appendAll codec records =
      .ok (starts, w)) :
    SeesBurst codec (.new createdWallNs createdMonoNs) (starts.zip records) w.inner := by
  obtain ⟨haccepted, hinner, hplaced⟩ := appendAll_ok hw
  set header := SegmentHeader.new createdWallNs createdMonoNs with hheader
  have hlength : header.encode.length = segmentHeaderLen := SegmentHeader.length_encode _
  have hwritten : w.inner = header.encode ++ records.flatMap (frame codec) := hinner
  constructor
  · intro damaged hburst hdamaged rest
    rw [hwritten, List.take_left' hlength] at hburst hdamaged
    exact scan_header_burst hburst hdamaged rest
  · intro i start record hrecord damaged hburst hdamaged hfield rest
    rw [hplaced] at hrecord ⊢
    obtain ⟨before, after, rfl, rfl, htake⟩ := placed_split hrecord
    have hfront : w.inner.take (segmentHeaderLen + (before.flatMap (frame codec)).length) =
        header.encode ++ before.flatMap (frame codec) := by
      rw [hwritten, List.flatMap_append, ← List.append_assoc]
      exact List.take_left' (by rw [List.length_append, hlength])
    have hnonempty : damaged ++ rest ≠ [] := by
      intro hnil
      have hpositive := List.length_pos_iff.mpr ((frameWriter hcodec).nonempty record)
      rw [hburst.length_eq, (List.append_eq_nil_iff.mp hnil).1] at hpositive
      exact lt_irrefl 0 hpositive
    have hshown : (placed (frame codec) (WalWriter.create header).offset
        (before ++ record :: after)).take i = placed (frame codec) segmentHeaderLen before := htake
    have hoffset : (WalWriter.create header).offset = segmentHeaderLen := rfl
    rw [hshown, hoffset, hfront, List.append_assoc, List.append_assoc]
    cases hparse : parseFrame codec (damaged ++ rest) with
    | ok result =>
      exact absurd (parseFrame_burst (haccepted record (by simp)) hburst hfield hparse) hdamaged
    | error stop =>
      refine ⟨stop, fun hclean => parseFrame_ne_cleanEof (hclean ▸ hparse), ?_⟩
      have hscans := (frameWriter hcodec).scans_stopped
        (fun r hr => haccepted r (List.mem_append_left _ hr)) segmentHeaderLen hnonempty hparse
      rw [scan_of_scans (SegmentHeader.decode_encode header rfl _) (by
        rw [List.drop_left' hlength]
        exact hscans)]
      rfl

theorem appendAll_exampleWriter : (WalWriter.create (.new 1 2)).appendAll exampleCodec
    [exampleMarker] = .ok ([segmentHeaderLen], exampleWriter) := by
  have happend : (WalWriter.create (.new 1 2)).append exampleCodec exampleMarker =
      .ok (segmentHeaderLen, exampleWriter) :=
    append_eq_ok.mpr ⟨exampleMarker_accepted, rfl, rfl⟩
  rw [WalWriter.appendAll, happend]
  rfl

theorem scan_sees_burst_marker :
    SeesBurst exampleCodec (.new 1 2) ([segmentHeaderLen].zip [exampleMarker])
      exampleWriter.inner :=
  scan_sees_burst exampleCodec_roundTrips appendAll_exampleWriter

end Segments

section Beats

open HeartbeatService

/-- A burst in a slot that held a beat makes it unreadable. -/
theorem decodeSlot_burst {s damaged : Slot} {h : Heartbeat} (hok : s.decode = .ok h)
    (hburst : Burst s.bytes damaged.bytes) (hne : damaged ≠ s) :
    damaged.decode = .error .crcMismatch := by
  have hlength : damaged.bytes.take heartbeatSlotLen = damaged.bytes := by
    rw [← damaged.length_eq, List.take_length]
  have hsealed : Sealed s.bytes := by
    have htake := sealed_of_decodeSlot hok
    rwa [← s.length_eq, List.take_length] at htake
  have hbroken : ¬ Sealed damaged.bytes := by
    intro hseal
    have hsame := hburst.eq_of_sealed hsealed hseal
    cases s
    cases damaged
    exact hne (by simpa using hsame)
  unfold Slot.decode
  cases hdecode : decodeSlot damaged.bytes with
  | ok g =>
    have htake := sealed_of_decodeSlot hdecode
    rw [hlength] at htake
    exact absurd htake hbroken
  | error e =>
    simp only [decodeSlot, bind_eq_error, ensure_eq_error, required_eq_error, hlength] at hdecode
    rcases hdecode with ⟨hshort, -⟩ | ⟨_, -, ⟨-, rfl⟩ | ⟨stored, hstored, ⟨-, rfl⟩ | ⟨_, hcrc, -⟩⟩⟩
    · rw [damaged.length_eq, decide_eq_false_iff_not] at hshort
      exact absurd (Nat.le_refl _) hshort
    · rfl
    · rfl
    · rw [required_eq_ok] at hstored
      rw [ensure_eq_ok, decide_eq_true_eq] at hcrc
      exact absurd (sealed_of_checked damaged.length_eq hstored hcrc) hbroken

/-- What is recovered once one of two readable slots is unreadable. -/
theorem recoverHeartbeat_write_torn {f : HeartbeatFile} {i : SlotId} {left : Slot} {e : SlotError}
    {g : Heartbeat} (hleft : left.decode = .error e) (hother : (f.slot i.other).decode = .ok g) :
    recoverHeartbeat (f.write i left).bytes = .ok ⟨g, i.other, some (i, e)⟩ := by
  rw [HeartbeatFile.recoverHeartbeat_bytes]
  cases i with
  | a =>
    have hB : f.slotB.decode = .ok g := hother
    simp only [HeartbeatFile.write, hleft, hB]
    rfl
  | b =>
    have hA : f.slotA.decode = .ok g := hother
    simp only [HeartbeatFile.write, hleft, hA]
    rfl

/-- Each slot that can be read holds a beat that was written. -/
def Honest (s : HeartbeatService) : Prop :=
  ∀ i h, (s.file.slot i).decode = .ok h → ∃ w ∈ s.written, w.beat = h

theorem honest_fresh : Honest fresh := by
  intro i h hdecode
  have hblank : (fresh.file.slot i).decode = .error .crcMismatch := by
    cases i <;> exact Slot.decode_zero
  rw [hblank] at hdecode
  cases hdecode

/-- A slot is rewritten with what says nothing new. -/
theorem Honest.write {s : HeartbeatService} (h : Honest s) {j : SlotId} {left : Slot}
    {hbSeq : Option UInt64} {written : List WrittenBeat} (hmore : ∀ w ∈ s.written, w ∈ written)
    (hleft : ∀ g, left.decode = .ok g → ∃ w ∈ written, w.beat = g) :
    Honest ⟨s.file.write j left, hbSeq, written⟩ := by
  intro i g hdecode
  by_cases hij : i = j
  · subst hij
    rw [HeartbeatFile.slot_write] at hdecode
    exact hleft g hdecode
  · have hother : i = j.other := by
      cases i <;> cases j <;> simp_all [SlotId.other]
    subst hother
    rw [HeartbeatFile.slot_write_other] at hdecode
    obtain ⟨w, hw, hbeat⟩ := h j.other g hdecode
    exact ⟨w, hmore w hw, hbeat⟩

theorem Honest.wrote {s : HeartbeatService} (h : Honest s) (w : WrittenBeat)
    (hbSeq : Option UInt64) : Honest (s.wrote w hbSeq) := by
  apply h.write (fun v hv => List.mem_append_left _ hv)
  intro g hg
  rw [Slot.decode_encode] at hg
  exact ⟨w, by simp, Except.ok.inj hg⟩

theorem step_honest {s t : HeartbeatService} {e : HeartbeatEvent} (h : Honest s)
    (hstep : step s e = some t) : Honest t := by
  cases e with
  | start =>
    simp only [HeartbeatService.step] at hstep
    split at hstep
    · cases hstep
      exact h
    · cases hstep
  | beat sample =>
    obtain ⟨n, -, rfl⟩ := Option.map_eq_some_iff.mp hstep
    exact h.wrote _ _
  | stop =>
    obtain ⟨n, -, rfl⟩ := Option.map_eq_some_iff.mp hstep
    exact h
  | cut sample left =>
    obtain ⟨n, -, hcut⟩ := Option.bind_eq_some_iff.mp hstep
    split at hcut
    · rename_i hmay
      cases hcut
      unfold HeartbeatService.cutIn
      split
      · exact h.wrote _ _
      · rename_i hnew
        apply h.write (fun _ hv => hv)
        intro g hg
        rcases hmay with hfail | hold | hfull
        · rw [hg] at hfail
          cases hfail
        · exact h _ g (hold ▸ hg)
        · exact absurd hfull hnew
    · cases hcut

/-- After any history of the heartbeat file a burst in one of its slots, while both can be read, is
seen: the recovery reports that slot and gives the beat of the other one, which is a beat that was
written and the newest or the one before it. -/
theorem recover_burst {s : HeartbeatService} {events : List HeartbeatEvent}
    (hrun : Runs.run step fresh events = some s) {w : WrittenBeat}
    (hw : s.written.getLast? = some w) {g : Heartbeat}
    (hg : (s.file.slot (slotForSequence w.beat.sequence).other).decode = .ok g) {i : SlotId}
    {damaged : Slot} (hburst : Burst (s.file.slot i).bytes damaged.bytes)
    (hne : damaged ≠ s.file.slot i) :
    recoverHeartbeat (s.file.write i damaged).bytes =
        .ok ⟨if i = slotForSequence w.beat.sequence then g else w.beat, i.other,
          some (i, .crcMismatch)⟩ ∧
      (∃ v ∈ s.written, v.beat = g) ∧ w.beat.sequence = g.sequence + 1 := by
  have hintact := run_intact hrun
  obtain ⟨hnewest, holder⟩ := hintact.newest w hw
  have hhonest : Honest s :=
    Runs.run_invariant honest_fresh (fun _ _ _ hs => step_honest hs) hrun
  refine ⟨?_, hhonest _ g hg, holder g hg⟩
  by_cases hi : i = slotForSequence w.beat.sequence
  · rw [if_pos hi]
    subst hi
    exact recoverHeartbeat_write_torn (decodeSlot_burst hnewest hburst hne) hg
  · rw [if_neg hi]
    have hother : i = (slotForSequence w.beat.sequence).other := by
      cases i <;> cases hslot : slotForSequence w.beat.sequence <;> simp_all [SlotId.other]
    have hback : i.other = slotForSequence w.beat.sequence := by rw [hother, SlotId.other_other]
    refine recoverHeartbeat_write_torn (decodeSlot_burst (h := g) ?_ hburst hne) ?_
    · rw [hother]
      exact hg
    · rw [hback]
      exact hnewest

/-- The slot of a beat, its magic damaged. -/
def scratched (h : Heartbeat) : Slot :=
  ⟨0 :: (encodeSlot h).tail, by simp [length_encodeSlot, heartbeatSlotLen]⟩

theorem burst_scratched (h : Heartbeat) : Burst (Slot.encode h).bytes (scratched h).bytes :=
  ⟨[], [80], [0], (encodeSlot h).tail, rfl, rfl, rfl, by decide⟩

theorem scratched_ne (h : Heartbeat) : scratched h ≠ Slot.encode h := by
  intro heq
  have hbytes := congrArg (fun s => s.bytes.head?) heq
  cases hbytes

def exampleBeats : HeartbeatService :=
  ⟨⟨.encode (exampleSample.beat 0), .encode (exampleSample.beat 1)⟩, some 2,
    [.completed (exampleSample.beat 0), .completed (exampleSample.beat 1)]⟩

theorem recover_burst_scratched :
    recoverHeartbeat (exampleBeats.file.write .b (scratched (exampleSample.beat 1))).bytes =
        .ok ⟨exampleSample.beat 0, .a, some (.b, .crcMismatch)⟩ ∧
      (∃ v ∈ exampleBeats.written, v.beat = exampleSample.beat 0) ∧
      (exampleSample.beat 1).sequence = (exampleSample.beat 0).sequence + 1 := by
  have hrun : Runs.run step fresh
      [.start, .beat exampleSample, .beat exampleSample] = some exampleBeats := by decide +kernel
  exact @recover_burst _ _ hrun (.completed (exampleSample.beat 1)) rfl (exampleSample.beat 0)
    (Slot.decode_encode _) .b _ (burst_scratched _) (scratched_ne _)

end Beats

end DeadReckoning.Wal
