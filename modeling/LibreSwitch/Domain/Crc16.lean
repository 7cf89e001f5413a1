import Mathlib.Tactic
import LibreSwitch.Library.ByteString

/-!
# The record checksum

`crc16` of `domain/crc16.h`: CRC-16/CCITT-FALSE, bit by bit, most significant bit first.

A turn of the register is linear in exclusive or (`crcBit_xor`), so that the checksum of changed
data differs from that of the data by the checksum of the change alone (`crc16_xor`). It loses
nothing: the register can be run backwards (`crcBitBack_crcBit`).
-/

set_option autoImplicit false
set_option relaxedAutoImplicit false

namespace LibreSwitch.Domain

open LibreSwitch.Library

/-- One turn of the inner loop. -/
def crcBit (crc : UInt16) : UInt16 :=
  if crc &&& 0x8000 ≠ 0 then (crc <<< 1) ^^^ 0x1021 else crc <<< 1

/-- One turn of the outer loop. -/
def crcByte (crc : UInt16) (byte : UInt8) : UInt16 :=
  crcBit^[8] (crc ^^^ (byte.toUInt16 <<< 8))

def crc16 (data : Bytes) (crc : UInt16 := 0xFFFF) : UInt16 :=
  data.foldl crcByte crc

/-- The check value of the standard: the checksum of `123456789`. -/
example : crc16 (ascii "123456789") = 0x29B1 := by decide +kernel

/-! ### Linearity -/

/-- The bit that an inner turn shifts out. -/
theorem high_iff (crc : UInt16) : crc &&& 0x8000 ≠ 0 ↔ crc.toBitVec.getLsbD 15 = true := by
  have hmask : (0x8000 : UInt16).toBitVec = BitVec.twoPow 16 15 := by decide
  rw [Ne, ← UInt16.toBitVec_inj, UInt16.toBitVec_and, hmask, BitVec.and_twoPow]
  cases crc.toBitVec.getLsbD 15 with
  | false => simp
  | true => simp

/-- A turn of the register is linear. -/
theorem crcBit_xor (first second : UInt16) :
    crcBit (first ^^^ second) = crcBit first ^^^ crcBit second := by
  have hhigh : (first ^^^ second).toBitVec.getLsbD 15 =
      (first.toBitVec.getLsbD 15 ^^ second.toBitVec.getLsbD 15) := by
    rw [UInt16.toBitVec_xor, BitVec.getLsbD_xor]
  unfold crcBit
  simp only [high_iff, hhigh, UInt16.shiftLeft_xor]
  cases first.toBitVec.getLsbD 15 with
  | false =>
    cases second.toBitVec.getLsbD 15 with
    | false => rfl
    | true => simp [UInt16.xor_assoc]
  | true =>
    cases second.toBitVec.getLsbD 15 with
    | false => 
      simp
      ac_rfl
    | true =>
      have hcancel (a b c : UInt16) : a ^^^ c ^^^ (b ^^^ c) = a ^^^ b := by
        rw [UInt16.xor_comm b c, UInt16.xor_assoc, ← UInt16.xor_assoc c c, UInt16.xor_self,
          UInt16.zero_xor]
      simp [hcancel]

/-- So is any number of turns. -/
theorem iterate_crcBit_xor (turns : ℕ) (first second : UInt16) :
    crcBit^[turns] (first ^^^ second) = crcBit^[turns] first ^^^ crcBit^[turns] second := by
  induction turns generalizing first second with
  | zero => rfl
  | succ turns ih =>
    simp only [Function.iterate_succ_apply, crcBit_xor, ih]

theorem iterate_crcBit_zero (turns : ℕ) : crcBit^[turns] 0 = 0 :=
  Function.iterate_fixed rfl turns

/-! ### The register backwards -/

/-- A turn of the register backwards. -/
def crcBitBack (crc : UInt16) : UInt16 :=
  if crc &&& 1 ≠ 0 then ((crc ^^^ 0x1021) >>> 1) ||| 0x8000 else crc >>> 1

/-- The bit that says which way an inner turn went. -/
theorem low_iff (crc : UInt16) : crc &&& 1 ≠ 0 ↔ crc.toBitVec.getLsbD 0 = true := by
  have hmask : (1 : UInt16).toBitVec = BitVec.twoPow 16 0 := by decide
  have hne : BitVec.twoPow 16 0 ≠ 0#16 := by decide
  rw [Ne, ← UInt16.toBitVec_inj, UInt16.toBitVec_and, hmask, BitVec.and_twoPow]
  cases crc.toBitVec.getLsbD 0 with
  | false => simp
  | true => simpa using hne

/-- A shift to the left and back keeps all bits but the highest. -/
theorem getLsbD_shift (crc : UInt16) {index : ℕ} (hindex : index < 16) :
    ((crc <<< 1) >>> 1).toBitVec.getLsbD index =
      (decide (index ≠ 15) && crc.toBitVec.getLsbD index) := by
  by_cases hlast : index = 15
  · subst hlast
    simp
  · have hnext : 1 + index < 16 := by omega
    simp [hlast, hnext, BitVec.getLsbD_eq_getElem hindex]

/-- A turn of the register loses nothing. -/
theorem crcBitBack_crcBit : Function.LeftInverse crcBitBack crcBit := by
  intro crc
  have hmask : (0x8000 : UInt16).toBitVec = BitVec.twoPow 16 15 := by decide
  rw [← UInt16.toBitVec_inj]
  refine BitVec.eq_of_getLsbD_eq fun index hindex ↦ ?_
  unfold crcBitBack crcBit
  by_cases hhigh : crc &&& 0x8000 ≠ 0
  · -- The polynomial was added, so the lowest bit is set and the highest one was.
    have hlow : (crc <<< 1 ^^^ 0x1021) &&& 1 ≠ 0 := (low_iff _).mpr (by simp)
    rw [if_pos hhigh, if_pos hlow, UInt16.xor_assoc, UInt16.xor_self, UInt16.xor_zero,
      UInt16.toBitVec_or, BitVec.getLsbD_or, getLsbD_shift crc hindex, hmask, BitVec.getLsbD_twoPow]
    rw [high_iff] at hhigh
    by_cases hlast : index = 15
    · subst hlast
      rw [hhigh]
      rfl
    · simp [hlast, Ne.symm hlast]
  · have hlow : ¬ (crc <<< 1) &&& 1 ≠ 0 := by
      rw [low_iff]
      simp
    rw [if_neg hhigh, if_neg hlow, getLsbD_shift crc hindex]
    rw [high_iff, Bool.not_eq_true] at hhigh
    by_cases hlast : index = 15
    · subst hlast
      rw [hhigh, Bool.and_false]
    · simp [hlast]

/-- Two registers that agree after some turns agreed before. -/
theorem iterate_crcBit_inj {turns : ℕ} {first second : UInt16}
    (hsame : crcBit^[turns] first = crcBit^[turns] second) : first = second :=
  (crcBitBack_crcBit.iterate turns).injective hsame

theorem iterate_crcBit_eq_zero {turns : ℕ} {crc : UInt16} (hzero : crcBit^[turns] crc = 0) :
    crc = 0 :=
  iterate_crcBit_inj (hzero.trans (iterate_crcBit_zero turns).symm)

/-! ### The checksum of bytes -/

theorem crcByte_xor (crc crc' : UInt16) (byte byte' : UInt8) :
    crcByte (crc ^^^ crc') (byte ^^^ byte') = crcByte crc byte ^^^ crcByte crc' byte' := by
  rw [crcByte, crcByte, crcByte, ← iterate_crcBit_xor, UInt8.toUInt16_xor, UInt16.shiftLeft_xor]
  congr 1
  ac_rfl

/-- The checksum is linear: a difference of the data is a difference of the checksum, whatever the
data. -/
theorem crc16_xor {data flips : Bytes} (hsize : data.length = flips.length) (crc crc' : UInt16) :
    crc16 (List.zipWith (· ^^^ ·) data flips) (crc ^^^ crc') =
      crc16 data crc ^^^ crc16 flips crc' := by
  induction data generalizing flips crc crc' with
  | nil =>
    obtain rfl := List.length_eq_zero_iff.mp hsize.symm
    rfl
  | cons byte data ih =>
    cases flips with
    | nil => cases hsize
    | cons flip flips =>
      have hrest := ih (Nat.succ.inj hsize) (crcByte crc byte) (crcByte crc' flip)
      rw [← crcByte_xor] at hrest
      exact hrest

/-- A byte in the low half of the register is shifted into the high half. -/
theorem iterate_crcBit_low (byte : UInt8) :
    crcBit^[8] byte.toUInt16 = byte.toUInt16 <<< 8 := by
  have hall : ∀ value < 256, crcBit^[8] (UInt8.ofNat value).toUInt16 =
      (UInt8.ofNat value).toUInt16 <<< 8 := by decide +kernel
  have hbyte := hall byte.toNat byte.toNat_lt
  rwa [UInt8.ofNat_toNat] at hbyte

/-- Two bytes as one word, the first of them high. -/
def word (high low : UInt8) : UInt16 := high.toUInt16 <<< 8 ^^^ low.toUInt16

theorem crc16_pair (high low : UInt8) : crc16 [high, low] 0 = crcBit^[16] (word high low) := by
  have hpair : crc16 [high, low] 0 = crcByte (crcByte 0 high) low := rfl
  have hsplit : crcBit^[16] (word high low) = crcBit^[8] (crcBit^[8] (word high low)) :=
    Function.iterate_add_apply crcBit 8 8 _
  rw [hpair, hsplit, word, iterate_crcBit_xor 8 (high.toUInt16 <<< 8), iterate_crcBit_low, crcByte,
    crcByte, UInt16.zero_xor]

theorem toNat_word (high low : UInt8) : (word high low).toNat = 2 ^ 8 * high.toNat + low.toNat := by
  have hlow : low.toNat < 2 ^ 8 := low.toNat_lt
  have hhigh : high.toNat < 2 ^ 8 := high.toNat_lt
  have hshift : (high.toUInt16 <<< 8).toNat = 2 ^ 8 * high.toNat := by
    simp [UInt16.toNat_shiftLeft, Nat.shiftLeft_eq]
    omega
  rw [word, UInt16.toNat_xor, hshift, UInt8.toNat_toUInt16]
  refine Nat.eq_of_testBit_eq fun index ↦ ?_
  rw [Nat.testBit_xor, Nat.testBit_two_pow_mul_add _ hlow, Nat.testBit_two_pow_mul]
  by_cases hindex : index < 8
  · simp [hindex, Nat.not_le_of_lt hindex]
  · have hnone : low.toNat.testBit index = false :=
      Nat.testBit_lt_two_pow (lt_of_lt_of_le hlow (Nat.pow_le_pow_right (by decide) (by omega)))
    simp [hindex, hnone, Nat.le_of_not_lt hindex]

/-- Zero bytes in front of the data leave a zero register alone. -/
theorem crc16_cons_zero (data : Bytes) : crc16 (0 :: data) 0 = crc16 data 0 := by
  have hfirst : crcByte 0 0 = 0 := by decide
  rw [crc16, List.foldl_cons, hfirst, ← crc16]

theorem crc16_append (first second : Bytes) (crc : UInt16) :
    crc16 (first ++ second) crc = crc16 second (crc16 first crc) :=
  List.foldl_append

/-- One more byte comes into the high half of the register. -/
theorem crc16_concat (data : Bytes) (byte : UInt8) (crc : UInt16) :
    crc16 (data ++ [byte]) crc = crcBit^[8] (crc16 data crc ^^^ byte.toUInt16 <<< 8) := by
  rw [crc16_append]
  rfl

/-- Zero bytes behind the data do not hide it. -/
theorem crc16_concat_zero {data : Bytes} (hzero : crc16 (data ++ [0]) 0 = 0) :
    crc16 data 0 = 0 := by
  rw [crc16_concat] at hzero
  simpa using iterate_crcBit_eq_zero hzero

end LibreSwitch.Domain
