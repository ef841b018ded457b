import Mathlib.Data.List.Basic
import Mathlib.Data.Nat.ModEq

/-! Byte strings: little-endian numbers of a fixed width, reading them inside a string, and
the Castagnoli checksum. -/

abbrev Bytes := List UInt8

namespace Bytes

/-- The `width` low bytes of a number, the lowest first. -/
def ofNat : ℕ → ℕ → Bytes
  | 0, _ => []
  | width + 1, n => UInt8.ofNat n :: ofNat width (n / 256)

/-- The number whose bytes these are, the lowest first. -/
def toNat : Bytes → ℕ
  | [] => 0
  | b :: bs => b.toNat + 256 * toNat bs

@[simp] theorem length_ofNat (width n : ℕ) : (ofNat width n).length = width := by
  induction width generalizing n with
  | zero => rfl
  | succ width ih => simp [ofNat, ih]

theorem toNat_ofNat (width n : ℕ) : toNat (ofNat width n) = n % 256 ^ width := by
  induction width generalizing n with
  | zero => simp [ofNat, toNat, Nat.mod_one]
  | succ width ih =>
    have hbyte : (UInt8.ofNat n).toNat = n % 256 := by simp
    rw [ofNat, toNat, ih, hbyte, pow_succ', Nat.mod_mul]

theorem toNat_lt (bs : Bytes) : toNat bs < 256 ^ bs.length := by
  induction bs with
  | nil => simp [toNat]
  | cons b bs ih =>
    have hb : b.toNat < 256 := b.toNat_lt
    rw [toNat, List.length_cons, pow_succ]
    omega

theorem ofNat_toNat (bs : Bytes) : ofNat bs.length (toNat bs) = bs := by
  induction bs with
  | nil => rfl
  | cons b bs ih =>
    have hb : b.toNat < 256 := b.toNat_lt
    have hlow : UInt8.ofNat (b.toNat + 256 * toNat bs) = b := by
      apply UInt8.toNat_inj.mp
      rw [UInt8.toNat_ofNat']
      omega
    have hhigh : (b.toNat + 256 * toNat bs) / 256 = toNat bs := by omega
    rw [List.length_cons, toNat, ofNat, hlow, hhigh, ih]

def ofU32 (v : UInt32) : Bytes := ofNat 4 v.toNat

def ofU64 (v : UInt64) : Bytes := ofNat 8 v.toNat

@[simp] theorem length_ofU32 (v : UInt32) : (ofU32 v).length = 4 := length_ofNat 4 _

@[simp] theorem length_ofU64 (v : UInt64) : (ofU64 v).length = 8 := length_ofNat 8 _

/-- The bytes of the range, when the string is long enough. -/
def slice (bs : Bytes) (start width : ℕ) : Option Bytes :=
  if start + width ≤ bs.length then some ((bs.drop start).take width) else none

def leU32 (bs : Bytes) (start : ℕ) : Option UInt32 :=
  (slice bs start 4).map fun word => UInt32.ofNat (toNat word)

def leU64 (bs : Bytes) (start : ℕ) : Option UInt64 :=
  (slice bs start 8).map fun word => UInt64.ofNat (toNat word)

theorem slice_eq_some {bs word : Bytes} {start width : ℕ} :
    slice bs start width = some word ↔
      ∃ before after, bs = before ++ word ++ after ∧ before.length = start ∧
        word.length = width := by
  unfold slice
  constructor
  · intro h
    split at h
    · rename_i hle
      obtain rfl := Option.some.inj h
      refine ⟨bs.take start, (bs.drop start).drop width, ?_, ?_, ?_⟩
      · rw [List.append_assoc, List.take_append_drop, List.take_append_drop]
      · rw [List.length_take]
        omega
      · rw [List.length_take, List.length_drop]
        omega
    · cases h
  · rintro ⟨before, after, rfl, rfl, rfl⟩
    rw [if_pos (by simp), List.append_assoc, List.drop_left, List.take_left]

theorem slice_append {bs : Bytes} (before word after : Bytes)
    (h : bs = before ++ word ++ after) : slice bs before.length word.length = some word :=
  slice_eq_some.mpr ⟨before, after, h, rfl, rfl⟩

theorem leU32_append {bs : Bytes} {start : ℕ} (before after : Bytes) (v : UInt32)
    (h : bs = before ++ ofU32 v ++ after) (hstart : before.length = start) :
    leU32 bs start = some v := by
  subst hstart
  have hslice := slice_append before (ofU32 v) after h
  rw [length_ofU32] at hslice
  have hvalue : UInt32.ofNat (toNat (ofU32 v)) = v := by
    have hlt := v.toNat_lt
    rw [ofU32, toNat_ofNat, Nat.mod_eq_of_lt (by omega), UInt32.ofNat_toNat]
  rw [leU32, hslice, Option.map_some, hvalue]

theorem leU64_append {bs : Bytes} {start : ℕ} (before after : Bytes) (v : UInt64)
    (h : bs = before ++ ofU64 v ++ after) (hstart : before.length = start) :
    leU64 bs start = some v := by
  subst hstart
  have hslice := slice_append before (ofU64 v) after h
  rw [length_ofU64] at hslice
  have hvalue : UInt64.ofNat (toNat (ofU64 v)) = v := by
    have hlt := v.toNat_lt
    rw [ofU64, toNat_ofNat, Nat.mod_eq_of_lt (by omega), UInt64.ofNat_toNat]
  rw [leU64, hslice, Option.map_some, hvalue]

/-- A word that was read stands in the string. -/
theorem leU32_eq_some {bs : Bytes} {start : ℕ} {v : UInt32} (h : leU32 bs start = some v) :
    ∃ before after, bs = before ++ ofU32 v ++ after ∧ before.length = start := by
  obtain ⟨word, hslice, hv⟩ := Option.map_eq_some_iff.mp h
  obtain ⟨before, after, hbs, hbefore, hword⟩ := slice_eq_some.mp hslice
  have hlt : toNat word < 2 ^ 32 := by
    have := toNat_lt word
    rw [hword] at this
    omega
  have hnat : v.toNat = toNat word := by
    rw [← hv, UInt32.toNat_ofNat_of_lt' hlt]
  refine ⟨before, after, ?_, hbefore⟩
  rw [hbs, ofU32, hnat]
  nth_rewrite 1 [← ofNat_toNat word]
  rw [hword]

theorem leU64_eq_some {bs : Bytes} {start : ℕ} {v : UInt64} (h : leU64 bs start = some v) :
    ∃ before after, bs = before ++ ofU64 v ++ after ∧ before.length = start := by
  obtain ⟨word, hslice, hv⟩ := Option.map_eq_some_iff.mp h
  obtain ⟨before, after, hbs, hbefore, hword⟩ := slice_eq_some.mp hslice
  have hlt : toNat word < 2 ^ 64 := by
    have := toNat_lt word
    rw [hword] at this
    omega
  have hnat : v.toNat = toNat word := by
    rw [← hv, UInt64.toNat_ofNat_of_lt' hlt]
  refine ⟨before, after, ?_, hbefore⟩
  rw [hbs, ofU64, hnat]
  nth_rewrite 1 [← ofNat_toNat word]
  rw [hword]

/-- The words of a row, read at their places. -/
theorem leU64_flatMap (before after : Bytes) (words : List UInt64) {i : ℕ} {v : UInt64}
    (hi : words[i]? = some v) :
    leU64 (before ++ words.flatMap ofU64 ++ after) (before.length + 8 * i) = some v := by
  induction words generalizing before i with
  | nil => simp at hi
  | cons w words ih =>
    cases i with
    | zero =>
      simp only [List.getElem?_cons_zero, Option.some.injEq] at hi
      subst hi
      exact leU64_append before (words.flatMap ofU64 ++ after) w (by simp) rfl
    | succ i =>
      have hrest := ih (before ++ ofU64 w) hi
      have hplace : before.length + 8 * (i + 1) = (before ++ ofU64 w).length + 8 * i := by
        simp only [List.length_append, length_ofU64]
        omega
      rw [hplace, ← hrest]
      simp

/-- The bytes read are those of the front that reaches as far. -/
theorem slice_take {bs : Bytes} {start width n : ℕ} (hn : start + width ≤ n) :
    slice (bs.take n) start width = slice bs start width := by
  unfold slice
  have hlength : start + width ≤ (bs.take n).length ↔ start + width ≤ bs.length := by
    rw [List.length_take]
    omega
  simp only [hlength, List.drop_take, List.take_take]
  rw [Nat.min_eq_left (by omega)]

end Bytes

section Checksum

def polynomialReflected : UInt32 := 0x82F63B78

/-- The entry of the lookup table at a byte. -/
def crcEntry (i : UInt32) : UInt32 :=
  (List.range 8).foldl
    (fun crc _ => if crc &&& 1 = 1 then (crc >>> 1) ^^^ polynomialReflected else crc >>> 1) i

def crcUpdate (crc : UInt32) (byte : UInt8) : UInt32 :=
  (crc >>> 8) ^^^ crcEntry ((crc ^^^ byte.toUInt32) &&& 0xFF)

/-- The CRC32C of a byte string. -/
def crc32c (data : Bytes) : UInt32 := ~~~ (data.foldl crcUpdate 0xFFFFFFFF)

example : crc32c [49, 50, 51, 52, 53, 54, 55, 56, 57] = 0xE3069283 := by decide +kernel

end Checksum
