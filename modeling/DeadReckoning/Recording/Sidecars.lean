import DeadReckoning.Lib.Crc

/-! The files of fixed length beside the log: the newest counter of received lines and the edge of a
power failure. Each is a magic, words and a checksum over both, written over itself or renamed. -/
namespace DeadReckoning.Recording

open Bytes Crc

section Format

def sidecarMagicLen : ℕ := 4

/-- What a sidecar holds of these words. -/
def encodeSidecar (magic : Bytes) (words : List UInt64) : Bytes :=
  let region := magic ++ words.flatMap ofU64
  region ++ ofU32 (crc32c region)

/-- The words one after the other. -/
def readWords (bytes : Bytes) (start : ℕ) : ℕ → Option (List UInt64)
  | 0 => some []
  | n + 1 => do
      let word ← leU64 bytes start
      let words ← readWords bytes (start + 8) n
      some (word :: words)

/-- The words of a sidecar, of which there are so many; what stands behind it is not looked at. -/
def decodeSidecar (magic : Bytes) (count : ℕ) (bytes : Bytes) : Option (List UInt64) :=
  let crcEnd := sidecarMagicLen + 8 * count
  if bytes.length < crcEnd + 4 then none
  else
    let buf := bytes.take (crcEnd + 4)
    if buf.take sidecarMagicLen ≠ magic then none
    else do
      let stored ← leU32 buf crcEnd
      if crc32c (buf.take crcEnd) ≠ stored then none else readWords buf sidecarMagicLen count

/-- "PFE1" -/
def powerFailSidecarMagic : Bytes := [80, 70, 69, 49]

def powerFailSidecarLen : ℕ := 16

def encodePowerFailEdge (edgeMonoNs : UInt64) : Bytes :=
  encodeSidecar powerFailSidecarMagic [edgeMonoNs]

def decodePowerFailEdge (bytes : Bytes) : Option UInt64 :=
  (decodeSidecar powerFailSidecarMagic 1 bytes).bind fun words => words[0]?

/-- "PSQ1" -/
def seqFileMagic : Bytes := [80, 83, 81, 49]

def seqFileLen : ℕ := 24

def encodeSeq (monoNs widened : UInt64) : Bytes := encodeSidecar seqFileMagic [monoNs, widened]

/-- The time of the observation and the counter. -/
def decodeSeq (bytes : Bytes) : Option (UInt64 × UInt64) := do
  let words ← decodeSidecar seqFileMagic 2 bytes
  let monoNs ← words[0]?
  let widened ← words[1]?
  some (monoNs, widened)

end Format

section Laws

variable {magic bytes : Bytes} {words : List UInt64} {count : ℕ}

theorem length_flatMap_ofU64 (words : List UInt64) :
    (words.flatMap ofU64).length = 8 * words.length := by
  induction words with
  | nil => rfl
  | cons w words ih =>
    rw [List.flatMap_cons, List.length_append, ih, length_ofU64, List.length_cons]
    omega

theorem length_encodeSidecar (hmagic : magic.length = sidecarMagicLen) :
    (encodeSidecar magic words).length = sidecarMagicLen + 8 * words.length + 4 := by
  simp only [encodeSidecar, List.length_append, length_flatMap_ofU64, length_ofU32, hmagic]

theorem sealed_encodeSidecar (magic : Bytes) (words : List UInt64) :
    Sealed (encodeSidecar magic words) :=
  ⟨_, rfl⟩

theorem readWords_flatMap (before after : Bytes) (words : List UInt64) :
    readWords (before ++ words.flatMap ofU64 ++ after) before.length words.length = some words := by
  induction words generalizing before with
  | nil => rfl
  | cons w words ih =>
    have hfirst : leU64 (before ++ (w :: words).flatMap ofU64 ++ after) before.length = some w :=
      leU64_append before (words.flatMap ofU64 ++ after) w (by simp) rfl
    have hrest := ih (before ++ ofU64 w)
    rw [List.length_append, length_ofU64] at hrest
    rw [List.length_cons, readWords, hfirst, Option.bind_eq_bind, Option.bind_some]
    rw [List.flatMap_cons, ← List.append_assoc, hrest]
    rfl

/-- The words that were read stand in the string. -/
theorem readWords_eq_some {start : ℕ} (h : readWords bytes start count = some words) :
    words.length = count ∧ (bytes.drop start).take (8 * count) = words.flatMap ofU64 := by
  induction count generalizing start words with
  | zero =>
    obtain rfl := Option.some.inj h
    simp
  | succ n ih =>
    simp only [readWords, Option.bind_eq_bind, Option.bind_eq_some_iff, Option.some.injEq] at h
    obtain ⟨word, hword, rest, hrest, rfl⟩ := h
    obtain ⟨hlength, htake⟩ := ih hrest
    obtain ⟨before, after, rfl, rfl⟩ := leU64_eq_some hword
    refine ⟨by rw [List.length_cons, hlength], ?_⟩
    have hdrop : (before ++ ofU64 word ++ after).drop before.length = ofU64 word ++ after := by
      rw [List.append_assoc, List.drop_left]
    have hnext : (before ++ ofU64 word ++ after).drop (before.length + 8) = after := by
      rw [← List.drop_drop, hdrop]
      exact List.drop_left' (length_ofU64 word)
    rw [hnext] at htake
    rw [hdrop, List.flatMap_cons, ← htake, Nat.mul_succ, Nat.add_comm, List.take_append,
      length_ofU64, Nat.add_sub_cancel_left]
    rw [List.take_of_length_le (by rw [length_ofU64]; omega)]

/-- A sidecar is read just when it holds what is written of these words. -/
theorem decodeSidecar_eq_some_iff (hmagic : magic.length = sidecarMagicLen) :
    decodeSidecar magic count bytes = some words ↔ words.length = count ∧
      bytes.take (sidecarMagicLen + 8 * count + 4) = encodeSidecar magic words := by
  unfold decodeSidecar
  constructor
  · intro h
    dsimp only at h
    split at h
    · cases h
    · rename_i hlong
      split at h
      · cases h
      · rename_i hmagicIs
        obtain ⟨stored, hstored, h⟩ := Option.bind_eq_some_iff.mp h
        split at h
        · cases h
        · rename_i hcrc
          obtain ⟨hlength, hwords⟩ := readWords_eq_some h
          refine ⟨hlength, ?_⟩
          set buf := bytes.take (sidecarMagicLen + 8 * count + 4) with hbuf
          have hcount : buf.length = sidecarMagicLen + 8 * count + 4 := by
            rw [hbuf, List.length_take]
            omega
          have hchecked := eq_of_checked hcount hstored (not_not.mp hcrc)
          have hregion : buf.take (sidecarMagicLen + 8 * count) =
              magic ++ words.flatMap ofU64 := by
            rw [List.take_add, not_not.mp hmagicIs, hwords]
          rw [encodeSidecar, hchecked, hregion]
  · rintro ⟨rfl, hbytes⟩
    have hlong := congrArg List.length hbytes
    rw [length_encodeSidecar hmagic, List.length_take] at hlong
    have hregion : (magic ++ words.flatMap ofU64).length = sidecarMagicLen + 8 * words.length := by
      rw [List.length_append, hmagic, length_flatMap_ofU64]
    have hfront : (encodeSidecar magic words).take (sidecarMagicLen + 8 * words.length) =
        magic ++ words.flatMap ofU64 := List.take_left' hregion
    have hopening : (encodeSidecar magic words).take sidecarMagicLen = magic := by
      rw [encodeSidecar, List.append_assoc]
      exact List.take_left' hmagic
    have hstored : leU32 (encodeSidecar magic words) (sidecarMagicLen + 8 * words.length) =
        some (crc32c (magic ++ words.flatMap ofU64)) :=
      leU32_append _ [] _ (List.append_nil _).symm hregion
    have hwords : readWords (encodeSidecar magic words) sidecarMagicLen words.length =
        some words := by
      rw [← hmagic]
      exact readWords_flatMap magic _ words
    dsimp only
    rw [if_neg (by omega), hbytes, hopening, if_neg (not_not.mpr rfl), hstored, hfront]
    simpa using hwords

end Laws

section Files

theorem decodePowerFailEdge_eq_some_iff {bytes : Bytes} {edge : UInt64} :
    decodePowerFailEdge bytes = some edge ↔
      bytes.take powerFailSidecarLen = encodePowerFailEdge edge := by
  unfold decodePowerFailEdge
  rw [Option.bind_eq_some_iff]
  constructor
  · rintro ⟨words, hwords, hedge⟩
    obtain ⟨hlength, hbytes⟩ := (decodeSidecar_eq_some_iff rfl).mp hwords
    obtain ⟨word, rfl⟩ := List.length_eq_one_iff.mp hlength
    obtain rfl := Option.some.inj hedge
    exact hbytes
  · intro hbytes
    exact ⟨[edge], (decodeSidecar_eq_some_iff rfl).mpr ⟨rfl, hbytes⟩, rfl⟩

theorem decodeSeq_eq_some_iff {bytes : Bytes} {monoNs widened : UInt64} :
    decodeSeq bytes = some (monoNs, widened) ↔
      bytes.take seqFileLen = encodeSeq monoNs widened := by
  unfold decodeSeq
  rw [Option.bind_eq_bind, Option.bind_eq_some_iff]
  constructor
  · rintro ⟨words, hwords, hboth⟩
    obtain ⟨hlength, hbytes⟩ := (decodeSidecar_eq_some_iff rfl).mp hwords
    obtain ⟨first, second, rfl⟩ := List.length_eq_two.mp hlength
    obtain ⟨rfl, rfl⟩ := Prod.mk.inj (Option.some.inj hboth)
    exact hbytes
  · intro hbytes
    exact ⟨[monoNs, widened], (decodeSidecar_eq_some_iff rfl).mpr ⟨rfl, hbytes⟩, rfl⟩

/-- A sidecar gives its value just when its first bytes are what is written of that value: neither a
file that was cut short, nor one of the other kind, nor one that a burst has hit is taken for an
observation. -/
structure ReadsOnly {α : Type} (len : ℕ) (encode : α → Bytes) (decode : Bytes → Option α) : Prop where
  reads : ∀ bytes a, decode bytes = some a ↔ bytes.take len = encode a
  short : ∀ bytes, bytes.length < len → decode bytes = none
  burst : ∀ a damaged rest, Burst (encode a) damaged → damaged ≠ encode a →
    decode (damaged ++ rest) = none

theorem ReadsOnly.of_sealed {α : Type} {len : ℕ} {encode : α → Bytes} {decode : Bytes → Option α}
    (hreads : ∀ bytes a, decode bytes = some a ↔ bytes.take len = encode a)
    (hlength : ∀ a, (encode a).length = len) (hsealed : ∀ a, Sealed (encode a)) :
    ReadsOnly len encode decode where
  reads := hreads
  short bytes hshort := by
    cases hdecode : decode bytes with
    | none => rfl
    | some a =>
      have hbytes := congrArg List.length ((hreads bytes a).mp hdecode)
      rw [List.length_take, hlength] at hbytes
      omega
  burst a damaged rest hburst hdamaged := by
    cases hdecode : decode (damaged ++ rest) with
    | none => rfl
    | some b =>
      have hbytes := (hreads _ b).mp hdecode
      rw [List.take_left' (hburst.length_eq.symm.trans (hlength a))] at hbytes
      exact absurd (hburst.eq_of_sealed (hsealed a) (hbytes ▸ hsealed b)) hdamaged

/-- Both sidecars give only what was written to them, and neither is taken for the other. -/
theorem sidecars_read_only :
    ReadsOnly powerFailSidecarLen encodePowerFailEdge decodePowerFailEdge ∧
    ReadsOnly seqFileLen (fun p : UInt64 × UInt64 => encodeSeq p.1 p.2) decodeSeq ∧
    ∀ edge monoNs widened rest, decodeSeq (encodePowerFailEdge edge ++ rest) = none ∧
      decodePowerFailEdge (encodeSeq monoNs widened ++ rest) = none := by
  refine ⟨.of_sealed (fun _ _ => decodePowerFailEdge_eq_some_iff)
      (fun _ => length_encodeSidecar rfl) fun _ => sealed_encodeSidecar _ _,
    .of_sealed (fun _ _ => decodeSeq_eq_some_iff) (fun _ => length_encodeSidecar rfl)
      fun _ => sealed_encodeSidecar _ _, fun edge monoNs widened rest => ⟨?_, ?_⟩⟩
  · cases hdecode : decodeSeq (encodePowerFailEdge edge ++ rest) with
    | none => rfl
    | some p => cases congrArg (fun bytes => bytes[1]?) (decodeSeq_eq_some_iff.mp hdecode)
  · cases hdecode : decodePowerFailEdge (encodeSeq monoNs widened ++ rest) with
    | none => rfl
    | some p => cases congrArg (fun bytes => bytes[1]?) (decodePowerFailEdge_eq_some_iff.mp hdecode)

end Files

end DeadReckoning.Recording
