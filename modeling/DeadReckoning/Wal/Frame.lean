import DeadReckoning.Lib.Bytes
import DeadReckoning.Lib.Checks
import DeadReckoning.Lib.Frames
import DeadReckoning.Lib.Text
import DeadReckoning.Wal.Record

/-! The segments of the log: a header, then one frame a record. The writer appends frames, the
scan finds the longest valid front of whatever is on the disk. -/
namespace DeadReckoning.Wal

open Bytes Checks

section Format

def segmentMagic : Bytes := [80, 76, 82, 45, 87, 65, 76, 0]

def formatVersion : UInt32 := 1

def segmentHeaderLen : ℕ := 32

def frameHeaderLen : ℕ := 8

def frameTrailerLen : ℕ := 4

/-- Where the checksum of the segment header stands. -/
def segmentCrcEnd : ℕ := segmentHeaderLen - frameTrailerLen

def frameMagic : Bytes := [0xD5, 0xAA]

def payloadFormatJson : UInt8 := 1

def maxPayloadLen : ℕ := 2 ^ 20

/-- The JSON of a record, written and read. -/
structure Codec where
  toVec : WalRecord → Option Bytes
  fromSlice : Bytes → Option WalRecord

/-- What was written of finite numbers reads back. -/
def Codec.RoundTrips (codec : Codec) : Prop :=
  ∀ record payload, record.valuesAreFinite = true → codec.toVec record = some payload →
    codec.fromSlice payload = some record

inductive WalError where
  | serialize
  | payloadTooLarge (len max : ℕ)
  | nonFiniteValue
  | resumeOffsetTooSmall (offset header : ℕ)
  deriving DecidableEq

inductive ScanEnd where
  | cleanEof
  | truncatedSegmentHeader (len : ℕ)
  | badSegmentMagic
  | segmentHeaderCrcMismatch
  | unsupportedVersion (version : UInt32)
  | truncatedFrameHeader
  | truncatedPayload
  | badFrameMagic
  | oversizedLength (len : UInt32)
  | frameCrcMismatch
  | unsupportedPayloadFormat (tag : UInt8)
  | unknownRecordKind (kind : UInt8)
  | malformedPayload
  | recordKindMismatch (headerKind : UInt8)
  deriving DecidableEq

/-- What a power cut in the middle of a write leaves. -/
def ScanEnd.isExpectedAfterPowerLoss : ScanEnd → Bool
  | cleanEof | truncatedSegmentHeader _ | truncatedFrameHeader | truncatedPayload => true
  | _ => false

end Format

section Header

structure SegmentHeader where
  version : UInt32
  createdWallNs : UInt64
  createdMonoNs : UInt64
  deriving DecidableEq

namespace SegmentHeader

def new (createdWallNs createdMonoNs : UInt64) : SegmentHeader :=
  ⟨formatVersion, createdWallNs, createdMonoNs⟩

/-- The bytes under the checksum of the header. -/
def crcRegion (h : SegmentHeader) : Bytes :=
  segmentMagic ++ ofU32 h.version ++ ofU64 h.createdWallNs ++ ofU64 h.createdMonoNs

def encode (h : SegmentHeader) : Bytes := h.crcRegion ++ ofU32 (crc32c h.crcRegion)

def decode (bytes : Bytes) : Except ScanEnd SegmentHeader :=
  if bytes.length < segmentHeaderLen then .error (.truncatedSegmentHeader bytes.length)
  else if !segmentMagic.isPrefixOf bytes then .error .badSegmentMagic
  else do
    let stored ← required (.truncatedSegmentHeader bytes.length) (leU32 bytes segmentCrcEnd)
    if crc32c (bytes.take segmentCrcEnd) ≠ stored then .error .segmentHeaderCrcMismatch
    else do
      let version ← required .segmentHeaderCrcMismatch (leU32 bytes 8)
      if version ≠ formatVersion then .error (.unsupportedVersion version)
      else do
        let createdWallNs ← required .segmentHeaderCrcMismatch (leU64 bytes 12)
        let createdMonoNs ← required .segmentHeaderCrcMismatch (leU64 bytes 20)
        pure ⟨version, createdWallNs, createdMonoNs⟩

@[simp] theorem length_crcRegion (h : SegmentHeader) : h.crcRegion.length = 28 := by
  simp [crcRegion, segmentMagic]

@[simp] theorem length_encode (h : SegmentHeader) : h.encode.length = 32 := by
  simp [encode]

/-- A header of this format decodes, whatever stands behind it. -/
theorem decode_encode (h : SegmentHeader) (hversion : h.version = formatVersion) (rest : Bytes) :
    decode (h.encode ++ rest) = .ok h := by
  have hlength : ¬ (h.encode ++ rest).length < segmentHeaderLen := by
    simp [segmentHeaderLen]
  have hmagic : segmentMagic.isPrefixOf (h.encode ++ rest) = true := by
    rw [List.isPrefixOf_iff_prefix, encode, crcRegion]
    simp only [List.append_assoc]
    exact List.prefix_append _ _
  have hregion : (h.encode ++ rest).take segmentCrcEnd = h.crcRegion := by
    rw [encode, List.append_assoc]
    exact List.take_left' h.length_crcRegion
  have hstored : leU32 (h.encode ++ rest) segmentCrcEnd =
      some (crc32c h.crcRegion) :=
    leU32_append h.crcRegion rest _ rfl h.length_crcRegion
  have hread : leU32 (h.encode ++ rest) 8 = some h.version := by
    apply leU32_append segmentMagic (ofU64 h.createdWallNs ++ ofU64 h.createdMonoNs ++
      ofU32 (crc32c h.crcRegion) ++ rest) h.version _ rfl
    simp only [encode, crcRegion, List.append_assoc]
  have hwall : leU64 (h.encode ++ rest) 12 = some h.createdWallNs := by
    apply leU64_append (segmentMagic ++ ofU32 h.version) (ofU64 h.createdMonoNs ++
      ofU32 (crc32c h.crcRegion) ++ rest) h.createdWallNs _ (by simp [segmentMagic])
    simp only [encode, crcRegion, List.append_assoc]
  have hmono : leU64 (h.encode ++ rest) 20 = some h.createdMonoNs := by
    apply leU64_append (segmentMagic ++ ofU32 h.version ++ ofU64 h.createdWallNs)
      (ofU32 (crc32c h.crcRegion) ++ rest) h.createdMonoNs _ (by simp [segmentMagic])
    simp only [encode, crcRegion, List.append_assoc]
  rw [decode, if_neg hlength, hmagic, hstored, hread, hwall, hmono, hregion]
  simp [required, hversion, bind, Except.bind, pure, Except.pure]
  rw [← hversion]

/-- The header is read from the first bytes alone. -/
theorem decode_take {bytes : Bytes} (hlength : segmentHeaderLen ≤ bytes.length) :
    decode bytes = decode (bytes.take segmentHeaderLen) := by
  have hfull : (bytes.take segmentHeaderLen).length = segmentHeaderLen := by
    rw [List.length_take]
    omega
  have hmagic : segmentMagic.isPrefixOf bytes =
      segmentMagic.isPrefixOf (bytes.take segmentHeaderLen) := by
    rw [Bool.eq_iff_iff, List.isPrefixOf_iff_prefix, List.isPrefixOf_iff_prefix,
      List.prefix_take_iff]
    simp [segmentMagic, segmentHeaderLen]
  have hregion : (bytes.take segmentHeaderLen).take segmentCrcEnd =
      bytes.take segmentCrcEnd := by
    rw [List.take_take]
    rfl
  have h32 : ∀ start, start + 4 ≤ segmentHeaderLen →
      leU32 (bytes.take segmentHeaderLen) start = leU32 bytes start := by
    intro start hstart
    rw [leU32, leU32, slice_take hstart]
  have h64 : ∀ start, start + 8 ≤ segmentHeaderLen →
      leU64 (bytes.take segmentHeaderLen) start = leU64 bytes start := by
    intro start hstart
    rw [leU64, leU64, slice_take hstart]
  obtain ⟨stored, hstored⟩ : ∃ stored, leU32 bytes segmentCrcEnd = some stored := by
    rw [leU32, slice, if_pos]
    · exact ⟨_, rfl⟩
    · simp only [segmentCrcEnd, segmentHeaderLen, frameTrailerLen] at *
      omega
  have hlong : ¬ bytes.length < segmentHeaderLen := by omega
  have hfront : ¬ (bytes.take segmentHeaderLen).length < segmentHeaderLen := by omega
  rw [decode, decode, if_neg hlong, if_neg hfront, hmagic, hregion, h32 _ (by decide),
    h32 _ (by decide), h64 _ (by decide), h64 _ (by decide), hstored]
  rfl

theorem decode_ok_length {bytes : Bytes} {h : SegmentHeader} (hok : decode bytes = .ok h) :
    segmentHeaderLen ≤ bytes.length := by
  rw [decode] at hok
  split at hok
  · cases hok
  · omega

end SegmentHeader

end Header

section Writer

/-- The bytes under the checksum of a frame. -/
def frameCrcRegion (kind : RecordKind) (payload : Bytes) : Bytes :=
  frameMagic ++ [payloadFormatJson, kind.asU8] ++ ofU32 (UInt32.ofNat payload.length) ++ payload

def frameBytes (kind : RecordKind) (payload : Bytes) : Bytes :=
  frameCrcRegion kind payload ++ ofU32 (crc32c (frameCrcRegion kind payload))

/-- What was handed to the stream, and where the next frame begins. The stream of a segment is
shorter than any machine integer. -/
structure WalWriter where
  inner : Bytes
  offset : ℕ

namespace WalWriter

def create (header : SegmentHeader) : WalWriter := ⟨header.encode, segmentHeaderLen⟩

def resume (inner : Bytes) (offset : ℕ) : Except WalError WalWriter :=
  if offset < segmentHeaderLen then .error (.resumeOffsetTooSmall offset segmentHeaderLen)
  else .ok ⟨inner, offset⟩

/-- Appends the frame of a record and tells where it begins. -/
def append (codec : Codec) (w : WalWriter) (record : WalRecord) :
    Except WalError (ℕ × WalWriter) := do
  ensure record.valuesAreFinite .nonFiniteValue
  let payload ← required .serialize (codec.toVec record)
  ensure (payload.length ≤ maxPayloadLen) (.payloadTooLarge payload.length maxPayloadLen)
  let frame := frameBytes record.kind payload
  pure (w.offset, ⟨w.inner ++ frame, w.offset + frame.length⟩)

/-- Appends one record after the other. -/
def appendAll (codec : Codec) : WalWriter → List WalRecord → Except WalError (List ℕ × WalWriter)
  | w, [] => .ok ([], w)
  | w, record :: records => do
      let (start, w) ← append codec w record
      let (starts, w) ← appendAll codec w records
      pure (start :: starts, w)

end WalWriter

/-- The records that the writer does not refuse. -/
def Accepted (codec : Codec) (record : WalRecord) : Prop :=
  record.valuesAreFinite = true ∧
    ∃ payload, codec.toVec record = some payload ∧ payload.length ≤ maxPayloadLen

/-- The frame of a record. -/
def frame (codec : Codec) (record : WalRecord) : Bytes :=
  frameBytes record.kind ((codec.toVec record).getD [])

@[simp] theorem length_frameCrcRegion (kind : RecordKind) (payload : Bytes) :
    (frameCrcRegion kind payload).length = frameHeaderLen + payload.length := by
  simp [frameCrcRegion, frameMagic, frameHeaderLen]
  omega

@[simp] theorem length_frameBytes (kind : RecordKind) (payload : Bytes) :
    (frameBytes kind payload).length = frameHeaderLen + payload.length + frameTrailerLen := by
  simp [frameBytes, frameTrailerLen]

theorem append_eq_ok {codec : Codec} {w w' : WalWriter} {record : WalRecord} {start : ℕ} :
    w.append codec record = .ok (start, w') ↔ Accepted codec record ∧ start = w.offset ∧
      w' = ⟨w.inner ++ frame codec record, w.offset + (frame codec record).length⟩ := by
  simp only [WalWriter.append, bind_eq_ok, ensure_eq_ok, required_eq_ok, decide_eq_true_eq, pure,
    Except.pure, Except.ok.injEq, Prod.mk.injEq, Accepted, frame]
  constructor
  · rintro ⟨_, hfinite, payload, hpayload, _, hlength, rfl, rfl⟩
    rw [hpayload]
    exact ⟨⟨hfinite, payload, rfl, hlength⟩, rfl, rfl⟩
  · rintro ⟨⟨hfinite, payload, hpayload, hlength⟩, rfl, rfl⟩
    rw [hpayload]
    exact ⟨(), hfinite, payload, rfl, (), hlength, rfl, rfl⟩

theorem appendAll_ok {codec : Codec} {w w' : WalWriter} {records : List WalRecord}
    {starts : List ℕ} (h : w.appendAll codec records = .ok (starts, w')) :
    (∀ record ∈ records, Accepted codec record) ∧
      w'.inner = w.inner ++ records.flatMap (frame codec) ∧
      starts.zip records = placed (frame codec) w.offset records := by
  induction records generalizing w starts with
  | nil =>
    rw [WalWriter.appendAll, Except.ok.injEq, Prod.mk.injEq] at h
    obtain ⟨rfl, rfl⟩ := h
    simp [placed]
  | cons record records ih =>
    obtain ⟨⟨start, w₁⟩, hone, h⟩ := bind_eq_ok.mp h
    obtain ⟨⟨starts', w₂⟩, hrest, h⟩ := bind_eq_ok.mp h
    obtain ⟨rfl, rfl⟩ := Prod.mk.inj (Except.ok.inj h)
    obtain ⟨haccepted, rfl, rfl⟩ := append_eq_ok.mp hone
    obtain ⟨hall, hinner, hplaced⟩ := ih hrest
    refine ⟨?_, ?_, ?_⟩
    · intro r hr
      rcases List.mem_cons.mp hr with rfl | hr
      · exact haccepted
      · exact hall r hr
    · rw [hinner, List.flatMap_cons, List.append_assoc]
    · rw [List.zip_cons_cons, hplaced, placed]

end Writer

section Parser

/-- The part of a frame behind its header. -/
def parsePayload (codec : Codec) (formatTag kindTag : UInt8) (payloadLen : UInt32)
    (remaining : Bytes) : Except ScanEnd (WalRecord × ℕ) := do
  ensure (payloadLen.toNat ≤ maxPayloadLen) (.oversizedLength payloadLen)
  let crcRegionLen := frameHeaderLen + payloadLen.toNat
  let frameLen := crcRegionLen + frameTrailerLen
  ensure (frameLen ≤ remaining.length) .truncatedPayload
  let storedCrc ← required .truncatedPayload (leU32 remaining crcRegionLen)
  ensure (crc32c (remaining.take crcRegionLen) = storedCrc) .frameCrcMismatch
  ensure (formatTag = payloadFormatJson) (.unsupportedPayloadFormat formatTag)
  let expectedKind ← required (.unknownRecordKind kindTag) (RecordKind.fromU8 kindTag)
  let payload := (remaining.take crcRegionLen).drop frameHeaderLen
  let record ← required .malformedPayload (codec.fromSlice payload)
  ensure (record.kind = expectedKind) (.recordKindMismatch kindTag)
  pure (record, frameLen)

/-- The record at the front of the bytes and the length of its frame. -/
def parseFrame (codec : Codec) (remaining : Bytes) : Except ScanEnd (WalRecord × ℕ) := do
  ensure (frameHeaderLen ≤ remaining.length) .truncatedFrameHeader
  ensure (frameMagic.isPrefixOf remaining) .badFrameMagic
  let formatTag ← required .truncatedFrameHeader remaining[2]?
  let kindTag ← required .truncatedFrameHeader remaining[3]?
  let payloadLen ← required .truncatedFrameHeader (leU32 remaining 4)
  parsePayload codec formatTag kindTag payloadLen remaining

variable {codec : Codec}

theorem parsePayload_congr {formatTag kindTag : UInt8} {payloadLen : UInt32}
    {bs bs' : Bytes} {record : WalRecord} {n : ℕ} (hn : n ≤ bs'.length)
    (htake : bs.take n = bs'.take n)
    (h : parsePayload codec formatTag kindTag payloadLen bs = .ok (record, n)) :
    frameHeaderLen ≤ n ∧ n ≤ bs.length ∧
      parsePayload codec formatTag kindTag payloadLen bs' = .ok (record, n) := by
  simp only [parsePayload, bind_eq_ok, ensure_eq_ok, required_eq_ok, decide_eq_true_eq, pure,
    Except.pure, Except.ok.injEq, Prod.mk.injEq] at h ⊢
  obtain ⟨_, hmax, _, hinside, crc, hcrc, _, hsum, _, hformat, kind, hkind, r, hpayload, _, hsame,
    rfl, rfl⟩ := h
  have hregion : bs.take (frameHeaderLen + payloadLen.toNat) =
      bs'.take (frameHeaderLen + payloadLen.toNat) := by
    have hboth := congrArg (List.take (frameHeaderLen + payloadLen.toNat)) htake
    rw [List.take_take, List.take_take, Nat.min_eq_left (Nat.le_add_right _ _)] at hboth
    exact hboth
  have hstored : leU32 bs' (frameHeaderLen + payloadLen.toNat) = some crc := by
    have hend : frameHeaderLen + payloadLen.toNat + 4 ≤
        frameHeaderLen + payloadLen.toNat + frameTrailerLen := Nat.le_refl _
    rw [← hcrc, leU32, leU32, ← @slice_take bs' _ _ _ hend, ← @slice_take bs _ _ _ hend, htake]
  rw [hregion] at hsum hpayload
  refine ⟨?_, hinside, (), hmax, (), hn, crc, hstored, (), hsum, (), hformat, kind, hkind, r,
    hpayload, (), hsame, rfl, rfl⟩
  omega

/-- A frame is read from its own bytes alone. -/
theorem parseFrame_congr {bs bs' : Bytes} {record : WalRecord} {n : ℕ} (hn : n ≤ bs'.length)
    (htake : bs.take n = bs'.take n) (h : parseFrame codec bs = .ok (record, n)) :
    frameHeaderLen ≤ n ∧ n ≤ bs.length ∧ parseFrame codec bs' = .ok (record, n) := by
  simp only [parseFrame, bind_eq_ok, ensure_eq_ok, required_eq_ok, decide_eq_true_eq] at h ⊢
  obtain ⟨_, hlength, _, hmagic, formatTag, hformat, kindTag, hkind, payloadLen, hlen, hbody⟩ := h
  obtain ⟨hheader, hinside, hbody'⟩ := parsePayload_congr hn htake hbody
  have hget : ∀ i, i < frameHeaderLen → bs'[i]? = bs[i]? := by
    intro i hi
    have hboth := congrArg (·[i]?) htake
    simp only [List.getElem?_take] at hboth
    rw [if_pos (by omega), if_pos (by omega)] at hboth
    exact hboth.symm
  have hbegins : frameMagic.isPrefixOf bs' = true := by
    rw [List.isPrefixOf_iff_prefix] at hmagic ⊢
    have hfront : frameMagic <+: bs.take n := by
      rw [List.prefix_take_iff]
      exact ⟨hmagic, by simp only [frameMagic, frameHeaderLen, List.length_cons,
        List.length_nil] at *; omega⟩
    rw [htake] at hfront
    exact hfront.trans (List.take_prefix n bs')
  have hword : leU32 bs' 4 = some payloadLen := by
    have hfour : 4 + 4 ≤ n := hheader
    rw [← hlen, leU32, leU32, ← @slice_take bs' _ _ _ hfour, ← @slice_take bs _ _ _ hfour, htake]
  refine ⟨hheader, hinside, (), by omega, (), hbegins, formatTag, ?_, kindTag, ?_, payloadLen,
    hword, hbody'⟩
  · rw [hget 2 (by decide), hformat]
  · rw [hget 3 (by decide), hkind]

theorem parseFrame_length {bs : Bytes} {record : WalRecord} {n : ℕ}
    (h : parseFrame codec bs = .ok (record, n)) : frameHeaderLen ≤ n ∧ n ≤ bs.length := by
  have hinside : n ≤ bs.length := by
    simp only [parseFrame, parsePayload, bind_eq_ok, ensure_eq_ok, decide_eq_true_eq, pure,
      Except.pure, Except.ok.injEq, Prod.mk.injEq] at h
    obtain ⟨_, -, _, -, _, -, _, -, _, -, _, -, _, hinside, _, -, _, -, _, -, _, -, _, -, _, -, -,
      rfl⟩ := h
    exact hinside
  exact ⟨(parseFrame_congr hinside rfl h).1, hinside⟩

/-- The parser of the log's frames. -/
def frames (codec : Codec) : FrameParser UInt8 WalRecord ScanEnd where
  parse := parseFrame codec
  positive := by
    intro bs record n h
    have hinside := parseFrame_length h
    simp only [frameHeaderLen] at hinside
    omega
  inside := fun h => (parseFrame_length h).2
  front := by
    intro bs record n h rest
    have hinside := (parseFrame_length h).2
    have hlength : (bs.take n).length = n := by
      rw [List.length_take]
      omega
    have htake : bs.take n = (bs.take n ++ rest).take n := by
      rw [List.take_append_of_le_length (Nat.le_of_eq hlength.symm), List.take_take, Nat.min_self]
    have hn : n ≤ (bs.take n ++ rest).length := by
      rw [List.length_append]
      omega
    exact (parseFrame_congr hn htake h).2.2

/-- The header of a frame leads to the rest of it. -/
theorem parseFrame_header {kindTag : UInt8} {payloadLen : UInt32} {rest : Bytes} :
    parseFrame codec (frameMagic ++ [payloadFormatJson, kindTag] ++ ofU32 payloadLen ++ rest) =
      parsePayload codec payloadFormatJson kindTag payloadLen
        (frameMagic ++ [payloadFormatJson, kindTag] ++ ofU32 payloadLen ++ rest) := by
  have hlen : leU32 (frameMagic ++ [payloadFormatJson, kindTag] ++ ofU32 payloadLen ++ rest) 4 =
      some payloadLen := leU32_append _ rest payloadLen rfl rfl
  rw [parseFrame, hlen]
  simp [ensure, required, bind, Except.bind, frameMagic, frameHeaderLen, List.isPrefixOf]

end Parser

section Frames

variable {codec : Codec} {record : WalRecord}

/-- Why the scan stops inside a frame of which that many bytes are there. -/
def tornEnd (k : ℕ) : ScanEnd :=
  if k < frameHeaderLen then .truncatedFrameHeader else .truncatedPayload

theorem Accepted.frame_eq (h : Accepted codec record) : ∃ payload,
    codec.toVec record = some payload ∧ payload.length ≤ maxPayloadLen ∧
      frame codec record = frameBytes record.kind payload := by
  obtain ⟨-, payload, hpayload, hlength⟩ := h
  exact ⟨payload, hpayload, hlength, by rw [frame, hpayload]; rfl⟩

theorem toNat_ofNat_length {payload : Bytes} (h : payload.length ≤ maxPayloadLen) :
    (UInt32.ofNat payload.length).toNat = payload.length := by
  apply UInt32.toNat_ofNat_of_lt'
  simp only [maxPayloadLen] at h
  exact Nat.lt_of_le_of_lt h (by decide)

theorem frameBytes_append (kind : RecordKind) (payload rest : Bytes) :
    frameBytes kind payload ++ rest =
      frameMagic ++ [payloadFormatJson, kind.asU8] ++ ofU32 (UInt32.ofNat payload.length) ++
        (payload ++ ofU32 (crc32c (frameCrcRegion kind payload)) ++ rest) := by
  rw [frameBytes]
  nth_rewrite 1 [frameCrcRegion]
  simp only [List.append_assoc]

/-- A whole frame parses as its record. -/
theorem parseFrame_frame (hcodec : codec.RoundTrips) (h : Accepted codec record) (rest : Bytes) :
    parseFrame codec (frame codec record ++ rest) =
      .ok (record, (frame codec record).length) := by
  obtain ⟨payload, hpayload, hlength, hframe⟩ := h.frame_eq
  have hlen := toNat_ofNat_length hlength
  have hregion : (frameBytes record.kind payload ++ rest).take (frameHeaderLen + payload.length) =
      frameCrcRegion record.kind payload := by
    rw [frameBytes, List.append_assoc]
    exact List.take_left' (length_frameCrcRegion _ _)
  have hstored : leU32 (frameBytes record.kind payload ++ rest) (frameHeaderLen + payload.length) =
      some (crc32c (frameCrcRegion record.kind payload)) :=
    leU32_append (frameCrcRegion record.kind payload) rest _ rfl (length_frameCrcRegion _ _)
  have hbody : (frameCrcRegion record.kind payload).drop frameHeaderLen = payload :=
    List.drop_left' (by simp [frameMagic, frameHeaderLen])
  have hinside : frameHeaderLen + payload.length + frameTrailerLen ≤
      (frameBytes record.kind payload ++ rest).length := by
    rw [List.length_append, length_frameBytes]
    omega
  rw [hframe, frameBytes_append, parseFrame_header, ← frameBytes_append, parsePayload, hlen]
  simp only [hregion, hstored, hbody, hcodec record payload h.1 hpayload, hlength, hinside,
    ensure, required, RecordKind.fromU8_asU8, decide_true, bind, Except.bind, pure, Except.pure,
    length_frameBytes, if_true]

/-- A frame that is cut parses as torn. -/
theorem parseFrame_cut (h : Accepted codec record) {k : ℕ} (hk : k < (frame codec record).length) :
    parseFrame codec ((frame codec record).take k) = .error (tornEnd k) := by
  obtain ⟨payload, -, hlength, hframe⟩ := h.frame_eq
  rw [hframe, length_frameBytes] at hk
  rw [hframe]
  by_cases hheader : k < frameHeaderLen
  · have hshort : ((frameBytes record.kind payload).take k).length = k := by
      rw [List.length_take, length_frameBytes]
      omega
    have hfew : ¬ frameHeaderLen ≤ k := by omega
    rw [parseFrame, hshort, tornEnd, if_pos hheader]
    simp [ensure, bind, Except.bind, hfew]
  · obtain ⟨j, rfl⟩ : ∃ j, k = frameHeaderLen + j := ⟨k - frameHeaderLen, by omega⟩
    have hcut : (frameBytes record.kind payload).take (frameHeaderLen + j) =
        frameMagic ++ [payloadFormatJson, record.kind.asU8] ++
          ofU32 (UInt32.ofNat payload.length) ++
          (payload ++ ofU32 (crc32c (frameCrcRegion record.kind payload))).take j := by
      have hsplit := frameBytes_append record.kind payload []
      rw [List.append_nil, List.append_nil] at hsplit
      rw [hsplit]
      have hfront : (frameMagic ++ [payloadFormatJson, record.kind.asU8] ++
          ofU32 (UInt32.ofNat payload.length)).length = frameHeaderLen := by
        simp [frameMagic, frameHeaderLen]
      rw [← hfront, List.take_length_add_append]
    have hshort : ((frameBytes record.kind payload).take (frameHeaderLen + j)).length =
        frameHeaderLen + j := by
      rw [List.length_take, length_frameBytes]
      omega
    have hpast : ¬ frameHeaderLen + payload.length + frameTrailerLen ≤ frameHeaderLen + j := by
      omega
    rw [tornEnd, if_neg hheader, hcut, parseFrame_header, ← hcut, parsePayload, hshort,
      toNat_ofNat_length hlength]
    simp [ensure, bind, Except.bind, hlength, hpast]

/-- The writer of the log writes frames that its parser reads. -/
theorem frameWriter (hcodec : codec.RoundTrips) :
    FrameWriter (frames codec) (Accepted codec) (frame codec) tornEnd where
  nonempty := by
    intro record
    apply List.length_pos_iff.mp
    rw [frame, length_frameBytes]
    simp [frameHeaderLen]
  whole := fun _ h rest => parseFrame_frame hcodec h rest
  cut := fun _ h _ _ hk => parseFrame_cut h hk

end Frames

section Reader

/-- Where the frame of a record begins, and the record. -/
abbrev ScannedRecord := ℕ × WalRecord

/-- The result of a scan: the valid front and why it ends. -/
structure RecoveryScan where
  header : Option SegmentHeader
  records : List ScannedRecord
  truncationOffset : ℕ
  stop : ScanEnd
  deriving DecidableEq

structure WalReader where
  bytes : Bytes
  pos : ℕ
  header : Option SegmentHeader
  stop : Option ScanEnd

namespace WalReader

def new (bytes : Bytes) : WalReader :=
  match SegmentHeader.decode bytes with
  | .ok header => ⟨bytes, segmentHeaderLen, some header, none⟩
  | .error stop => ⟨bytes, 0, none, some stop⟩

/-- The next record, or the reason why there is none, which stays. -/
def nextRecord (codec : Codec) (r : WalReader) : Option ScannedRecord × WalReader :=
  match r.stop with
  | some _ => (none, r)
  | none =>
      if (r.bytes.drop r.pos).isEmpty then (none, { r with stop := some .cleanEof })
      else
        match parseFrame codec (r.bytes.drop r.pos) with
        | .ok (record, frameLen) => (some (r.pos, record), { r with pos := r.pos + frameLen })
        | .error stop => (none, { r with stop := some stop })

/-- Reads until there is no next record. A frame is not empty, so there are fewer turns than
bytes. -/
def readAll (codec : Codec) : ℕ → WalReader → List ScannedRecord × WalReader
  | 0, r => ([], r)
  | turns + 1, r =>
      match r.nextRecord codec with
      | (some record, r) => ((record :: (readAll codec turns r).1), (readAll codec turns r).2)
      | (none, r) => ([], r)

end WalReader

def scan (codec : Codec) (bytes : Bytes) : RecoveryScan :=
  let (records, reader) := (WalReader.new bytes).readAll codec (bytes.length + 1)
  ⟨reader.header, records, reader.pos, reader.stop.getD .cleanEof⟩

variable {codec : Codec} {bytes : Bytes} {header : SegmentHeader}

/-- The reader computes the scan of the frames. -/
theorem readAll_scans {pos stop : ℕ} {left : Bytes} {records : List ScannedRecord}
    {e : Option ScanEnd} (h : (frames codec).Scans pos left records stop e)
    (hleft : bytes.drop pos = left) {turns : ℕ} (hturns : left.length < turns)
    (header : Option SegmentHeader) :
    WalReader.readAll codec turns ⟨bytes, pos, header, none⟩ =
      (records, ⟨bytes, stop, header, some (e.getD .cleanEof)⟩) := by
  induction h generalizing turns with
  | finished pos =>
    cases turns with
    | zero => omega
    | succ turns => simp [WalReader.readAll, WalReader.nextRecord, hleft]
  | @stopped pos left stop hne hparse =>
    cases turns with
    | zero => omega
    | succ turns =>
      have herror : parseFrame codec (bytes.drop pos) = .error stop := hleft ▸ hparse
      have hsome : (bytes.drop pos).isEmpty = false := by simpa [hleft] using hne
      simp [WalReader.readAll, WalReader.nextRecord, herror, hsome]
  | @frame pos left record n records stop e hparse hrest ih =>
    cases turns with
    | zero => omega
    | succ turns =>
      have hlength := parseFrame_length hparse
      simp only [frameHeaderLen] at hlength
      have hok : parseFrame codec (bytes.drop pos) = .ok (record, n) := hleft ▸ hparse
      have hsome : (bytes.drop pos).isEmpty = false := by
        rw [hleft, List.isEmpty_eq_false_iff, ← List.length_pos_iff]
        omega
      have hnext : bytes.drop (pos + n) = left.drop n := by
        rw [← hleft, List.drop_drop]
      have hfewer : (left.drop n).length < turns := by
        rw [List.length_drop]
        omega
      simp [WalReader.readAll, WalReader.nextRecord, hok, hsome, ih hnext hfewer]

theorem scan_of_decode_error {stop : ScanEnd} (h : SegmentHeader.decode bytes = .error stop) :
    scan codec bytes = ⟨none, [], 0, stop⟩ := by
  simp [scan, WalReader.new, h, WalReader.readAll, WalReader.nextRecord]

theorem scan_of_scans {stop : ℕ} {records : List ScannedRecord} {e : Option ScanEnd}
    (hheader : SegmentHeader.decode bytes = .ok header)
    (h : (frames codec).Scans segmentHeaderLen (bytes.drop segmentHeaderLen) records stop e) :
    scan codec bytes = ⟨some header, records, stop, e.getD .cleanEof⟩ := by
  have hturns : (bytes.drop segmentHeaderLen).length < bytes.length + 1 := by
    rw [List.length_drop]
    omega
  rw [scan, WalReader.new, hheader]
  simp only [readAll_scans h rfl hturns, Option.getD_some]

end Reader

section Laws

/-- The scan of a written segment cut after `k` bytes: the records whose whole frame is there. -/
structure DurablePrefix (codec : Codec) (header : SegmentHeader) (written : List ScannedRecord)
    (k : ℕ) (s : RecoveryScan) : Prop where
  records : s.records = wholeBefore (frame codec) k written
  header : s.header = if k < segmentHeaderLen then none else some header
  truncationOffset : s.truncationOffset =
    if k < segmentHeaderLen then 0 else lastEnd (frame codec) segmentHeaderLen s.records
  clean : s.stop = .cleanEof ↔ k = segmentHeaderLen ∨
    ∃ p ∈ written, k = p.1 + (frame codec p.2).length
  torn : s.stop = .cleanEof ∨ s.stop = .truncatedSegmentHeader k ∨
    s.stop = .truncatedFrameHeader ∨ s.stop = .truncatedPayload
  expected : s.stop.isExpectedAfterPowerLoss = true

variable {codec : Codec}

theorem tornEnd_ne (k : ℕ) : tornEnd k ≠ .cleanEof := by
  rw [tornEnd]
  split <;> exact nofun

/-- A cut before the end of the header leaves nothing. -/
theorem durablePrefix_header {bytes : Bytes} {header : SegmentHeader}
    {records : List WalRecord} {k : ℕ} (hk : k ≤ bytes.length) (hshort : k < segmentHeaderLen) :
    DurablePrefix codec header (placed (frame codec) segmentHeaderLen records) k
      (scan codec (bytes.take k)) := by
  have hlength : (bytes.take k).length = k := by
    rw [List.length_take]
    omega
  have hdecode : SegmentHeader.decode (bytes.take k) = .error (.truncatedSegmentHeader k) := by
    rw [SegmentHeader.decode, hlength, if_pos hshort]
  have hnone : ∀ p ∈ placed (frame codec) segmentHeaderLen records,
      k < p.1 + (frame codec p.2).length := by
    intro p hp
    have hle := le_of_mem_placed hp
    omega
  rw [scan_of_decode_error hdecode]
  refine ⟨?_, (if_pos hshort).symm, (if_pos hshort).symm, ?_, .inr (.inl rfl), rfl⟩
  · symm
    rw [wholeBefore, List.filter_eq_nil_iff]
    intro p hp
    have hlt := hnone p hp
    simp only [decide_eq_true_eq]
    omega
  · constructor
    · rintro ⟨⟩
    · rintro (rfl | ⟨p, hp, rfl⟩)
      · exact (lt_irrefl _ hshort).elim
      · exact (lt_irrefl _ (hnone p hp)).elim

/-- Whatever is cut from a written segment, the scan finds the records before the cut. -/
theorem scan_take (hcodec : codec.RoundTrips) {createdWallNs createdMonoNs : UInt64}
    {records : List WalRecord} {starts : List ℕ} {w : WalWriter}
    (hw : (WalWriter.create (.new createdWallNs createdMonoNs)).appendAll codec records =
      .ok (starts, w)) {k : ℕ} (hk : k ≤ w.inner.length) :
    DurablePrefix codec (.new createdWallNs createdMonoNs) (starts.zip records) k
      (scan codec (w.inner.take k)) := by
  obtain ⟨haccepted, hinner, hplaced⟩ := appendAll_ok hw
  rw [hplaced]
  by_cases hshort : k < segmentHeaderLen
  · exact durablePrefix_header hk hshort
  · obtain ⟨j, rfl⟩ : ∃ j, k = segmentHeaderLen + j := ⟨k - segmentHeaderLen, by omega⟩
    have hinner' : w.inner = (SegmentHeader.new createdWallNs createdMonoNs).encode ++
        records.flatMap (frame codec) := hinner
    have hheader : (SegmentHeader.new createdWallNs createdMonoNs).encode.length =
        segmentHeaderLen := SegmentHeader.length_encode _
    rw [hinner', List.length_append, hheader] at hk
    have hcut : w.inner.take (segmentHeaderLen + j) =
        (SegmentHeader.new createdWallNs createdMonoNs).encode ++
          (records.flatMap (frame codec)).take j := by
      rw [hinner', ← hheader, List.take_length_add_append]
    have hdecode := SegmentHeader.decode_encode (.new createdWallNs createdMonoNs) rfl
      ((records.flatMap (frame codec)).take j)
    have hscans := (frameWriter hcodec).scans_take haccepted segmentHeaderLen j (by omega)
    have hscan := scan_of_scans hdecode (by rw [List.drop_left' hheader]; exact hscans)
    have hle : lastEnd (frame codec) segmentHeaderLen (wholeBefore (frame codec)
        (segmentHeaderLen + j) (placed (frame codec) segmentHeaderLen records)) ≤
        segmentHeaderLen + j := lastEnd_wholeBefore_le (by omega)
    have hclean := @FrameWriter.lastEnd_eq_cut_iff _ _ _ _ _ _ _ (frameWriter hcodec) records
      segmentHeaderLen j
    rw [hcut, hscan]
    refine ⟨rfl, (if_neg hshort).symm, (if_neg hshort).symm, ?_, ?_, ?_⟩
    · have hzero : (tornBy tornEnd (segmentHeaderLen + j - lastEnd (frame codec) segmentHeaderLen
          (wholeBefore (frame codec) (segmentHeaderLen + j)
            (placed (frame codec) segmentHeaderLen records)))).getD .cleanEof = .cleanEof ↔
          lastEnd (frame codec) segmentHeaderLen (wholeBefore (frame codec)
            (segmentHeaderLen + j) (placed (frame codec) segmentHeaderLen records)) =
          segmentHeaderLen + j := by
        rw [tornBy]
        split
        · simp only [Option.getD_none, true_iff]
          omega
        · simp only [Option.getD_some, tornEnd_ne, false_iff]
          omega
      rw [hzero, hclean]
      have hfirst : j = 0 ↔ segmentHeaderLen + j = segmentHeaderLen := by omega
      exact or_congr hfirst (exists_congr fun p => and_congr_right fun _ => eq_comm)
    · rw [tornBy]
      split
      · exact .inl rfl
      · rw [Option.getD_some, tornEnd]
        split
        · exact .inr (.inr (.inl rfl))
        · exact .inr (.inr (.inr rfl))
    · rw [tornBy]
      split
      · rfl
      · rw [Option.getD_some, tornEnd]
        split <;> rfl

/-- A marker as the log holds it. -/
def exampleMarker : WalRecord := .marker ⟨7, .cleanShutdown⟩

def examplePayload : Bytes :=
  (lit "\x7b\"type\":\"Marker\",\"mono_ns\":7,\"kind\":\x7b\"kind\":\"CleanShutdown\"\x7d\x7d").map
    fun c => UInt8.ofNat c.toNat

/-- The JSON of the one record. -/
def exampleCodec : Codec where
  toVec record := if record = exampleMarker then some examplePayload else none
  fromSlice payload := if payload = examplePayload then some exampleMarker else none

theorem exampleCodec_roundTrips : exampleCodec.RoundTrips := by
  intro record payload _ h
  simp only [exampleCodec, Option.ite_none_right_eq_some, Option.some.injEq] at h ⊢
  exact ⟨h.2.symm, h.1.symm⟩

theorem exampleMarker_accepted : Accepted exampleCodec exampleMarker :=
  ⟨rfl, examplePayload, by simp [exampleCodec], by decide⟩

/-- A segment with the one record. -/
def exampleWriter : WalWriter where
  inner := (SegmentHeader.new 1 2).encode ++ frame exampleCodec exampleMarker
  offset := segmentHeaderLen + (frame exampleCodec exampleMarker).length

theorem scan_take_marker :
    (WalWriter.create (.new 1 2)).appendAll exampleCodec [exampleMarker] =
      .ok ([segmentHeaderLen], exampleWriter) ∧
    DurablePrefix exampleCodec (.new 1 2) ([segmentHeaderLen].zip [exampleMarker]) 40
      (scan exampleCodec (exampleWriter.inner.take 40)) := by
  have happend : (WalWriter.create (.new 1 2)).append exampleCodec exampleMarker =
      .ok (segmentHeaderLen, exampleWriter) :=
    append_eq_ok.mpr ⟨exampleMarker_accepted, rfl, rfl⟩
  have hall : (WalWriter.create (.new 1 2)).appendAll exampleCodec [exampleMarker] =
      .ok ([segmentHeaderLen], exampleWriter) := by
    rw [WalWriter.appendAll, happend]
    rfl
  refine ⟨hall, scan_take exampleCodec_roundTrips hall ?_⟩
  simp only [exampleWriter, List.length_append, SegmentHeader.length_encode, frame,
    length_frameBytes, frameHeaderLen]
  omega

/-- What the scan of any bytes is good for: cut where it stopped, they scan the same, and a
writer goes on there. -/
structure Resumable (codec : Codec) (segment : SegmentHeader) (bytes : Bytes) (s : RecoveryScan) :
    Prop where
  header : s.header = some segment
  inside : s.truncationOffset ≤ bytes.length
  /-- The frames follow one another from the header to where the scan stopped. -/
  tiles : ∃ lengths : List ℕ, lengths.length = s.records.length ∧
    Tiles segmentHeaderLen ((s.records.zip lengths).map fun p => (p.1.1, p.1.1 + p.2))
      s.truncationOffset ∧
    ∀ p ∈ s.records.zip lengths, parseFrame codec (bytes.drop p.1.1) = .ok (p.1.2, p.2)
  rescan : scan codec (bytes.take s.truncationOffset) = { s with stop := .cleanEof }
  /-- A record appended there is the next of the scan. -/
  appended : ∃ w, WalWriter.resume (bytes.take s.truncationOffset) s.truncationOffset = .ok w ∧
    ∀ record start w', w.append codec record = .ok (start, w') → start = s.truncationOffset ∧
      scan codec w'.inner =
        ⟨some segment, s.records ++ [(start, record)], w'.offset, .cleanEof⟩

/-- Any bytes whose header is valid can be cut where their scan stops, and written on. -/
theorem scan_resumable (hcodec : codec.RoundTrips) (bytes : Bytes) :
    (∀ header, SegmentHeader.decode bytes = .ok header →
      Resumable codec header bytes (scan codec bytes)) ∧
    ∀ stop, SegmentHeader.decode bytes = .error stop →
      scan codec bytes = ⟨none, [], 0, stop⟩ := by
  constructor
  · intro header hdecode
    have hlength := SegmentHeader.decode_ok_length hdecode
    obtain ⟨records, stop, e, hscans⟩ := (frames codec).exists_scans segmentHeaderLen
      (bytes.drop segmentHeaderLen)
    have hle := hscans.le
    rw [List.length_drop] at hle
    rw [scan_of_scans hdecode hscans]
    -- The front of the bytes keeps the header, whatever follows it.
    have hfront : ∀ more, SegmentHeader.decode (bytes.take stop ++ more) = .ok header := by
      intro more
      have hlong : segmentHeaderLen ≤ (bytes.take stop).length := by
        rw [List.length_take]
        omega
      have hall : segmentHeaderLen ≤ (bytes.take stop ++ more).length := by
        rw [List.length_append]
        omega
      rw [SegmentHeader.decode_take hall, List.take_append_of_le_length hlong, List.take_take,
        Nat.min_eq_left hle.1, ← SegmentHeader.decode_take hlength, hdecode]
    have hdrop : ∀ more, (bytes.take stop ++ more).drop segmentHeaderLen =
        (bytes.drop segmentHeaderLen).take (stop - segmentHeaderLen) ++ more := by
      intro more
      have hlong : segmentHeaderLen ≤ (bytes.take stop).length := by
        rw [List.length_take]
        omega
      rw [List.drop_append_of_le_length hlong, List.drop_take]
    have hinside : stop ≤ bytes.length := by omega
    refine ⟨rfl, hinside, ?_, ?_, ?_⟩
    · obtain ⟨lengths, hlengths, htiles, hread⟩ := hscans.tiles
      refine ⟨lengths, hlengths, htiles, fun p hp => ?_⟩
      obtain ⟨hpos, hparse⟩ := hread p hp
      have hsum : segmentHeaderLen + (p.1.1 - segmentHeaderLen) = p.1.1 := by omega
      rw [List.drop_drop, hsum] at hparse
      exact hparse
    · have hcut := hfront []
      rw [List.append_nil] at hcut
      have hbytes := hdrop []
      rw [List.append_nil, List.append_nil] at hbytes
      exact scan_of_scans hcut (by rw [hbytes]; exact hscans.rescan)
    · refine ⟨⟨bytes.take stop, stop⟩, ?_, ?_⟩
      · exact if_neg (Nat.not_lt.mpr hle.1)
      · intro record start w' happend
        obtain ⟨haccepted, hstart, rfl⟩ := append_eq_ok.mp happend
        have hstart' : start = stop := hstart
        rw [hstart']
        refine ⟨rfl, ?_⟩
        have hparse := parseFrame_frame hcodec haccepted []
        rw [List.append_nil] at hparse
        have hone : (frames codec).Scans stop (frame codec record) [(stop, record)]
            (stop + (frame codec record).length) none := by
          apply FrameParser.Scans.frame hparse
          rw [List.drop_length]
          exact .finished _
        exact scan_of_scans (hfront _) (by rw [hdrop]; exact hscans.resume hone)
  · exact fun stop hdecode => scan_of_decode_error hdecode

/-- A segment whose only frame is torn after its first byte. -/
def exampleTorn : Bytes := (SegmentHeader.new 1 2).encode ++ frameMagic.take 1

theorem scan_resumable_torn :
    Resumable exampleCodec (.new 1 2) exampleTorn (scan exampleCodec exampleTorn) := by
  have hdecode : SegmentHeader.decode exampleTorn = .ok (.new 1 2) :=
    SegmentHeader.decode_encode (.new 1 2) rfl (frameMagic.take 1)
  exact (scan_resumable exampleCodec_roundTrips exampleTorn).1 _ hdecode

end Laws

end DeadReckoning.Wal
