import DeadReckoning.Lib.Bytes
import Mathlib.Logic.Function.Iterate

/-! Cyclic checksums with reflected bits, of any width. A register is shifted once for each bit; the
shift is linear in exclusive or and loses nothing, so that two strings which differ in no more
consecutive bytes than the register holds never leave the same register. -/
namespace Crc

section Register

variable {n : ℕ} {p : BitVec n}

/-- One bit of the division by the polynomial. -/
def shift (p c : BitVec n) : BitVec n := if c.getLsbD 0 then (c >>> 1) ^^^ p else c >>> 1

def shifts (p : BitVec n) (k : ℕ) (c : BitVec n) : BitVec n := (shift p)^[k] c

/-- One byte. -/
def step (p c : BitVec n) (b : UInt8) : BitVec n := shifts p 8 (c ^^^ b.toBitVec.setWidth n)

/-- What the bytes leave in the register. -/
def remainder (p c : BitVec n) (data : Bytes) : BitVec n := data.foldl (step p) c

/-- The bytes as one word, the first one lowest. -/
def word (n : ℕ) (data : Bytes) : BitVec n := BitVec.ofNat n (Bytes.toNat data)

theorem shift_xor (p a b : BitVec n) : shift p (a ^^^ b) = shift p a ^^^ shift p b := by
  unfold shift
  simp only [BitVec.getLsbD_xor, BitVec.ushiftRight_xor_distrib]
  cases a.getLsbD 0 <;> cases b.getLsbD 0 <;> simp only [Bool.false_xor, Bool.true_xor, Bool.not_true,
    Bool.not_false, Bool.false_eq_true, if_true, if_false]
  · rw [BitVec.xor_assoc]
  · rw [BitVec.xor_assoc, BitVec.xor_assoc, BitVec.xor_comm p]
  · rw [BitVec.xor_assoc, BitVec.xor_comm p, BitVec.xor_assoc, BitVec.xor_self, BitVec.xor_zero]

/-- The highest bit tells which bit was shifted out. -/
theorem msb_shift (hp : p.msb = true) (c : BitVec n) : (shift p c).msb = c.getLsbD 0 := by
  have hclear : (c >>> 1).msb = false := by
    rw [BitVec.msb_eq_getLsbD_last, BitVec.getLsbD_ushiftRight]
    exact BitVec.getLsbD_of_ge c _ (by omega)
  unfold shift
  cases h : c.getLsbD 0 with
  | false => simp [hclear]
  | true => simp [BitVec.msb_xor, hclear, hp]

theorem shift_injective (hp : p.msb = true) : Function.Injective (shift p) := by
  intro a b h
  have hlow : a.getLsbD 0 = b.getLsbD 0 := by
    rw [← msb_shift hp a, ← msb_shift hp b, h]
  have hhigh : a >>> 1 = b >>> 1 := by
    unfold shift at h
    rw [hlow] at h
    split at h
    · exact (BitVec.xor_left_inj _).mp h
    · exact h
  apply BitVec.eq_of_getLsbD_eq
  intro i _
  cases i with
  | zero => exact hlow
  | succ i =>
    have hbit := congrArg (fun c => BitVec.getLsbD c i) hhigh
    simpa [BitVec.getLsbD_ushiftRight, Nat.add_comm 1 i] using hbit

theorem shifts_injective (hp : p.msb = true) (k : ℕ) : Function.Injective (shifts p k) :=
  (shift_injective hp).iterate k

theorem shifts_xor (p : BitVec n) (k : ℕ) (a b : BitVec n) :
    shifts p k (a ^^^ b) = shifts p k a ^^^ shifts p k b := by
  induction k generalizing a b with
  | zero => rfl
  | succ k ih =>
    simp only [shifts, Function.iterate_succ_apply] at ih ⊢
    rw [shift_xor, ih]

theorem shifts_add (p : BitVec n) (j k : ℕ) (c : BitVec n) :
    shifts p (j + k) c = shifts p j (shifts p k c) := Function.iterate_add_apply _ _ _ _

/-- While zeros are shifted out the register only moves. -/
theorem shifts_high {c : BitVec n} {k : ℕ} (h : ∀ i < k, c.getLsbD i = false) :
    shifts p k c = c >>> k := by
  induction k with
  | zero => simp [shifts]
  | succ k ih =>
    have hlow : (c >>> k).getLsbD 0 = false := by simpa using h k (by omega)
    have hmoved := ih fun i hi => h i (by omega)
    unfold shifts at hmoved ⊢
    rw [Function.iterate_succ_apply', hmoved]
    simp only [shift, hlow, Bool.false_eq_true, if_false, BitVec.shiftRight_add]

end Register

section Words

variable {n : ℕ} {p : BitVec n}

theorem toNat_word {data : Bytes} (h : 8 * data.length ≤ n) :
    (word n data).toNat = Bytes.toNat data := by
  have hlt := Bytes.toNat_lt data
  have hpow : 256 ^ data.length ≤ 2 ^ n := by
    have hbase : (256 : ℕ) = 2 ^ 8 := rfl
    rw [hbase, ← pow_mul]
    exact Nat.pow_le_pow_right (by omega) h
  rw [word, BitVec.toNat_ofNat, Nat.mod_eq_of_lt (by omega)]

theorem word_injective {a b : Bytes} (ha : 8 * a.length ≤ n) (hlength : a.length = b.length)
    (h : word n a = word n b) : a = b := by
  have hnat : Bytes.toNat a = Bytes.toNat b := by
    rw [← toNat_word ha, h, toNat_word (hlength ▸ ha)]
  rw [← Bytes.ofNat_toNat a, ← Bytes.ofNat_toNat b, hnat, hlength]

/-- The first byte lies under the others. -/
theorem word_cons {b : UInt8} {data : Bytes} (h : 8 * (data.length + 1) ≤ n) :
    word n (b :: data) = b.toBitVec.setWidth n ^^^ word n data <<< 8 := by
  have hword := @toNat_word n data (by omega)
  have hall := @toNat_word n (b :: data) h
  have hlt : Bytes.toNat (b :: data) < 2 ^ n := by rw [← hall]; exact (word n (b :: data)).isLt
  have hb : b.toNat < 2 ^ 8 := b.toNat_lt
  rw [Bytes.toNat] at hlt hall
  apply BitVec.eq_of_toNat_eq
  rw [hall, BitVec.toNat_xor, BitVec.toNat_shiftLeft, BitVec.toNat_setWidth, hword,
    UInt8.toNat_toBitVec, Nat.mod_eq_of_lt (by omega), Nat.shiftLeft_eq,
    Nat.mod_eq_of_lt (by omega), Nat.xor_comm, Nat.mul_comm]
  have hor := Nat.two_pow_add_eq_or_of_lt hb (Bytes.toNat data)
  have hxor : Bytes.toNat data * 2 ^ 8 ^^^ b.toNat = 2 ^ 8 * Bytes.toNat data ||| b.toNat := by
    rw [Nat.mul_comm]
    apply Nat.eq_of_testBit_eq
    intro i
    rw [Nat.testBit_xor, Nat.testBit_or, Nat.testBit_two_pow_mul]
    by_cases hi : 8 ≤ i
    · have hzero : b.toNat.testBit i = false :=
        Nat.testBit_lt_two_pow (hb.trans_le (Nat.pow_le_pow_right (by omega) hi))
      simp [hzero]
    · simp [hi]
  rw [hxor, ← hor]
  omega

/-- The register after as many bytes as it holds at most: they are one word. -/
theorem remainder_word (c : BitVec n) {data : Bytes} (h : 8 * data.length ≤ n) :
    remainder p c data = shifts p (8 * data.length) (c ^^^ word n data) := by
  induction data generalizing c with
  | nil => simp [remainder, shifts, word, Bytes.toNat]
  | cons b data ih =>
    rw [List.length_cons] at h
    have hword := @toNat_word n data (by omega)
    have hlt := Bytes.toNat_lt data
    have hpow : 256 ^ data.length ≤ 2 ^ (n - 8) := by
      have hbase : (256 : ℕ) = 2 ^ 8 := rfl
      rw [hbase, ← pow_mul]
      exact Nat.pow_le_pow_right (by omega) (by omega)
    have hback : shifts p 8 (word n data <<< 8) = word n data := by
      rw [shifts_high fun i hi => by simp [hi]]
      apply BitVec.eq_of_getLsbD_eq
      intro i hi
      rw [BitVec.getLsbD_ushiftRight, BitVec.getLsbD_shiftLeft]
      by_cases hlow : 8 + i < n
      · simp [hlow]
      · have hzero : (word n data).getLsbD i = false := by
          rw [BitVec.getLsbD, hword]
          exact Nat.testBit_lt_two_pow
            (by have := Nat.pow_le_pow_right (n := 2) (by omega) (show n - 8 ≤ i by omega); omega)
        simp [hlow, hzero]
    have hstep : remainder p c (b :: data) =
        remainder p (shifts p 8 (c ^^^ b.toBitVec.setWidth n)) data := rfl
    rw [hstep, ih _ (by omega), List.length_cons, Nat.mul_succ, shifts_add, word_cons h,
      ← BitVec.xor_assoc, shifts_xor p 8 (c ^^^ b.toBitVec.setWidth n), hback]

theorem step_injective (hp : p.msb = true) (b : UInt8) : Function.Injective (step p · b) := by
  intro c d h
  exact (BitVec.xor_left_inj _).mp (shifts_injective hp 8 h)

theorem remainder_injective (hp : p.msb = true) (data : Bytes) :
    Function.Injective (remainder p · data) := by
  induction data with
  | nil => exact fun _ _ h => h
  | cons b data ih => exact fun c d h => step_injective hp b (ih h)

theorem remainder_append (c : BitVec n) (a b : Bytes) :
    remainder p c (a ++ b) = remainder p (remainder p c a) b := List.foldl_append

/-- A burst that fits the register is always seen. -/
theorem eq_of_remainder_eq (hp : p.msb = true) {c : BitVec n} {before after a b : Bytes}
    (hlength : a.length = b.length) (hfits : 8 * a.length ≤ n)
    (h : remainder p c (before ++ a ++ after) = remainder p c (before ++ b ++ after)) : a = b := by
  have hfits' : 8 * b.length ≤ n := by rwa [← hlength]
  rw [remainder_append, remainder_append, remainder_append, remainder_append] at h
  have hbefore := remainder_injective hp after h
  rw [remainder_word _ hfits, remainder_word _ hfits', hlength] at hbefore
  exact word_injective hfits hlength
    ((BitVec.xor_right_inj _).mp (shifts_injective hp (8 * b.length) hbefore))

end Words

section Castagnoli

/-- The polynomial of the table. -/
def castagnoli : BitVec 32 := polynomialReflected.toBitVec

theorem msb_castagnoli : castagnoli.msb = true := by decide

theorem toBitVec_shift (c : UInt32) :
    (if c &&& 1 = 1 then (c >>> 1) ^^^ polynomialReflected else c >>> 1).toBitVec =
      shift castagnoli c.toBitVec := by
  have hlow : c &&& 1 = 1 ↔ c.toBitVec.getLsbD 0 = true := by
    rw [← UInt32.toBitVec_inj, UInt32.toBitVec_and]
    have hone : c.toBitVec &&& (1 : UInt32).toBitVec =
        (BitVec.ofBool (c.toBitVec.getLsbD 0)).setWidth 32 :=
      BitVec.and_one_eq_setWidth_ofBool_getLsbD
    rw [hone]
    cases c.toBitVec.getLsbD 0 <;> decide
  unfold shift
  by_cases h : c.toBitVec.getLsbD 0 = true
  · rw [if_pos (hlow.mpr h), if_pos h, UInt32.toBitVec_xor, UInt32.toBitVec_shiftRight]
    rfl
  · rw [if_neg (mt hlow.mp h), if_neg h, UInt32.toBitVec_shiftRight]
    rfl

/-- An entry of the table is eight shifts of its index. -/
theorem toBitVec_crcEntry (i : UInt32) : (crcEntry i).toBitVec = shifts castagnoli 8 i.toBitVec := by
  have hturns : crcEntry i = (fun c : UInt32 =>
      if c &&& 1 = 1 then (c >>> 1) ^^^ polynomialReflected else c >>> 1)^[8] i := rfl
  have hiterate : ∀ (k : ℕ) (c : UInt32), ((fun c : UInt32 =>
      if c &&& 1 = 1 then (c >>> 1) ^^^ polynomialReflected else c >>> 1)^[k] c).toBitVec =
        shifts castagnoli k c.toBitVec := by
    intro k
    induction k with
    | zero => exact fun c => rfl
    | succ k ih =>
      intro c
      rw [Function.iterate_succ_apply, ih, toBitVec_shift]
      rfl
  rw [hturns, hiterate]

/-- The table does a byte at once. -/
theorem toBitVec_crcUpdate (crc : UInt32) (byte : UInt8) :
    (crcUpdate crc byte).toBitVec = step castagnoli crc.toBitVec byte := by
  set x : BitVec 32 := crc.toBitVec ^^^ byte.toBitVec.setWidth 32 with hx
  have hbyte : (byte.toBitVec.setWidth 32) >>> 8 = 0#32 := by
    apply BitVec.eq_of_getLsbD_eq
    intro i _
    simp
  have hhigh : crc.toBitVec >>> 8 = x >>> 8 := by
    rw [hx, BitVec.ushiftRight_xor_distrib, hbyte, BitVec.xor_zero]
  have hmask : ∀ i, (0xFF#32).getLsbD i = decide (i < 8) := by
    intro i
    rw [show (0xFF#32) = BitVec.ofNat 32 (2 ^ 8 - 1) from rfl, BitVec.getLsbD_ofNat,
      Nat.testBit_two_pow_sub_one]
    by_cases hi : i < 8 <;> simp [hi]
    omega
  have hsplit : ∀ y : BitVec 32, y = (y &&& ~~~0xFF#32) ^^^ (y &&& 0xFF#32) := by
    intro y
    apply BitVec.eq_of_getLsbD_eq
    intro i hi
    rw [BitVec.getLsbD_xor, BitVec.getLsbD_and, BitVec.getLsbD_and, BitVec.getLsbD_not, hmask]
    by_cases hlow : i < 8 <;> simp [hlow, hi]
  have hclear : ∀ i < 8, (x &&& ~~~0xFF#32).getLsbD i = false := by
    intro i hi
    rw [BitVec.getLsbD_and, BitVec.getLsbD_not, hmask]
    simp [hi]
  have hrest : (x &&& ~~~0xFF#32) >>> 8 = x >>> 8 := by
    apply BitVec.eq_of_getLsbD_eq
    intro i _
    rw [BitVec.getLsbD_ushiftRight, BitVec.getLsbD_ushiftRight, BitVec.getLsbD_and,
      BitVec.getLsbD_not, hmask]
    by_cases hi : 8 + i < 32
    · simp [hi]
    · simp [BitVec.getLsbD_of_ge x (8 + i) (by omega)]
  have hindex : ((crc ^^^ byte.toUInt32) &&& 0xFF).toBitVec = x &&& 0xFF#32 := by
    rw [UInt32.toBitVec_and, UInt32.toBitVec_xor]
    rfl
  have hmoved : (crc >>> 8).toBitVec = crc.toBitVec >>> 8 := by
    rw [UInt32.toBitVec_shiftRight]
    rfl
  rw [crcUpdate, UInt32.toBitVec_xor, toBitVec_crcEntry, hindex, hmoved, hhigh, ← hrest,
    ← shifts_high hclear, ← shifts_xor, ← hsplit x]
  rfl

theorem toBitVec_crc32c (data : Bytes) :
    (crc32c data).toBitVec = ~~~remainder castagnoli (BitVec.allOnes 32) data := by
  have hfold : ∀ (crc : UInt32), (data.foldl crcUpdate crc).toBitVec =
      remainder castagnoli crc.toBitVec data := by
    induction data with
    | nil => exact fun crc => rfl
    | cons b data ih =>
      intro crc
      rw [List.foldl_cons, ih, toBitVec_crcUpdate]
      rfl
  have hnot : (crc32c data).toBitVec = ~~~(data.foldl crcUpdate 0xFFFFFFFF).toBitVec := rfl
  rw [hnot, hfold]
  rfl

/-- A string that ends with the checksum of what stands before it. -/
def Sealed (s : Bytes) : Prop := ∃ region, s = region ++ Bytes.ofU32 (crc32c region)

/-- A string whose checksum was found to be right ends with it. -/
theorem eq_of_checked {s : Bytes} {n : ℕ} {stored : UInt32} (hlength : s.length = n + 4)
    (hstored : Bytes.leU32 s n = some stored) (hcrc : crc32c (s.take n) = stored) :
    s = s.take n ++ Bytes.ofU32 (crc32c (s.take n)) := by
  obtain ⟨before, after, hs, hbefore⟩ := Bytes.leU32_eq_some hstored
  have hnil : after = [] := by
    rw [hs, List.length_append, List.length_append, Bytes.length_ofU32] at hlength
    exact List.length_eq_zero_iff.mp (by omega)
  subst hnil
  rw [List.append_nil] at hs
  have htake : s.take n = before := by rw [hs, List.take_left' hbefore]
  rw [hcrc, htake, ← hs]

theorem sealed_of_checked {s : Bytes} {n : ℕ} {stored : UInt32} (hlength : s.length = n + 4)
    (hstored : Bytes.leU32 s n = some stored) (hcrc : crc32c (s.take n) = stored) : Sealed s :=
  ⟨_, eq_of_checked hlength hstored hcrc⟩

/-- Whatever a sealed string says, it leaves one and the same register. -/
theorem remainder_of_sealed {s : Bytes} (h : Sealed s) :
    remainder castagnoli (BitVec.allOnes 32) s =
      shifts castagnoli 32 (BitVec.allOnes 32) := by
  obtain ⟨region, rfl⟩ := h
  have hlength := Bytes.length_ofU32 (crc32c region)
  have hword : word 32 (Bytes.ofU32 (crc32c region)) = (crc32c region).toBitVec := by
    have hlt := (crc32c region).toNat_lt
    rw [word, Bytes.ofU32, Bytes.toNat_ofNat, Nat.mod_eq_of_lt (by omega)]
    exact BitVec.eq_of_toNat_eq (by simp)
  rw [remainder_append, remainder_word _ (by omega), hword, hlength, toBitVec_crc32c]
  have hall : ∀ r : BitVec 32, r ^^^ ~~~r = BitVec.allOnes 32 := by
    intro r
    rw [← BitVec.xor_allOnes, ← BitVec.xor_assoc, BitVec.xor_self, BitVec.zero_xor]
  rw [hall]

/-- Two strings of one length that differ in at most four consecutive bytes. -/
def Burst (s t : Bytes) : Prop :=
  ∃ before a b after, s = before ++ a ++ after ∧ t = before ++ b ++ after ∧
    a.length = b.length ∧ a.length ≤ 4

theorem Burst.length_eq {s t : Bytes} (h : Burst s t) : s.length = t.length := by
  obtain ⟨before, a, b, after, rfl, rfl, hlength, -⟩ := h
  simp [hlength]

/-- No burst leads from one sealed string to another. -/
theorem Burst.eq_of_sealed {s t : Bytes} (h : Burst s t) (hs : Sealed s) (ht : Sealed t) :
    t = s := by
  obtain ⟨before, a, b, after, rfl, rfl, hlength, hfits⟩ := h
  obtain rfl := eq_of_remainder_eq msb_castagnoli hlength (by omega)
    ((remainder_of_sealed hs).trans (remainder_of_sealed ht).symm)
  rfl

end Castagnoli

end Crc
