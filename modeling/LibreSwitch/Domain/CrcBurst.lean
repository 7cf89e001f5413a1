import Mathlib.Tactic
import LibreSwitch.Domain.Crc16

/-!
# Bursts and the checksum

What the checksum says about a few changed bytes in a row whose changed bits lie within sixteen
places. Three bytes of data are detected (`crc16_triple_eq_zero`). Two bytes of data against the low
byte of the checksum are detected but for four cases (`mem_undetected`). Both rest on the
checksum of a pair of bytes being one to one: a pair with a given checksum is the one that the
register run backwards gives.
-/

set_option autoImplicit false
set_option relaxedAutoImplicit false

namespace LibreSwitch.Domain

open LibreSwitch.Library

/-! ### Bits of bytes -/

@[elab_as_elim]
theorem forall_byte {p : UInt8 → Prop} (hall : ∀ value < 256, p (UInt8.ofNat value))
    (byte : UInt8) : p byte := by
  have hbyte := hall byte.toNat byte.toNat_lt
  rwa [UInt8.ofNat_toNat] at hbyte

/-- A bit of a byte, the most significant first. -/
def bitOf (byte : UInt8) (index : ℕ) : Bool := byte.toBitVec.getMsbD index

/-- No bit of the second byte is at or behind the place of a bit of the first. -/
def Within (first last : UInt8) : Prop :=
  ∀ index < 8, ∀ later < 8, index ≤ later → bitOf first index = true → bitOf last later = false

instance (first last : UInt8) : Decidable (Within first last) :=
  inferInstanceAs (Decidable (∀ index < 8, ∀ later < 8, _ → _ → _))

/-- A byte other than zero has a bit. -/
theorem exists_bitOf {byte : UInt8} (hbyte : byte ≠ 0) : ∃ index < 8, bitOf byte index = true := by
  revert hbyte
  refine forall_byte ?_ byte
  decide +kernel

/-! ### Words that the checksum maps to a byte -/

/-- The pair of bytes whose checksum, from a zero register, is a word. -/
def crcPreimage (crc : UInt16) : UInt8 × UInt8 :=
  ((crcBitBack^[16] crc >>> 8).toUInt8, (crcBitBack^[16] crc).toUInt8)

theorem eq_crcPreimage {high low : UInt8} {crc : UInt16} (hcrc : crc16 [high, low] 0 = crc) :
    (high, low) = crcPreimage crc := by
  have hback : crcBitBack^[16] crc = word high low := by
    rw [← hcrc, crc16_pair]
    exact crcBitBack_crcBit.iterate 16 (word high low)
  have hfirst : (word high low >>> 8).toUInt8 = high := by
    have height : (8 : UInt16).toNat % 16 = 8 := rfl
    have hlow := low.toNat_lt
    have hhigh := high.toNat_lt
    rw [← UInt8.toNat_inj, UInt16.toNat_toUInt8, UInt16.toNat_shiftRight, toNat_word, height,
      Nat.shiftRight_eq_div_pow]
    omega
  have hsecond : (word high low).toUInt8 = low := by
    have hlow := low.toNat_lt
    rw [← UInt8.toNat_inj, UInt16.toNat_toUInt8, toNat_word]
    omega
  rw [crcPreimage, hback, hfirst, hsecond]

/-- Three bytes with all their bits within sixteen places are detected. -/
theorem crc16_triple_eq_zero {first middle last : UInt8} (hwithin : Within first last)
    (hzero : crc16 [first, middle, last] 0 = 0) : first = 0 := by
  have hpair : crc16 [first, middle] 0 = last.toUInt16 <<< 8 := by
    have hlast := crc16_concat [first, middle] last 0
    rw [List.cons_append, List.singleton_append, hzero] at hlast
    exact UInt16.xor_eq_zero_iff.mp (iterate_crcBit_eq_zero hlast.symm)
  have hall (byte : UInt8) : Within (crcPreimage (byte.toUInt16 <<< 8)).1 byte →
      (crcPreimage (byte.toUInt16 <<< 8)).1 = 0 := by
    refine forall_byte ?_ byte
    decide +kernel
  have hlast := hall last
  rw [← eq_crcPreimage hpair] at hlast
  exact hlast hwithin

/-- The changes of the last two data bytes and the low byte of the checksum, all within sixteen
places, that the checksum does not detect. -/
def undetected : List (UInt8 × UInt8 × UInt8) :=
  [(0x11, 0x8A, 0x80), (0x08, 0xC5, 0x40), (0x19, 0x4F, 0xC0), (0x02, 0x35, 0x94)]

theorem mem_undetected {first middle last : UInt8} (hfirst : first ≠ 0)
    (hwithin : Within first last) (hcrc : crc16 [first, middle] 0 = last.toUInt16) :
    (first, middle, last) ∈ undetected := by
  have hall (byte : UInt8) : (crcPreimage byte.toUInt16).1 = 0 ∨
      ¬ Within (crcPreimage byte.toUInt16).1 byte ∨
      ((crcPreimage byte.toUInt16).1, (crcPreimage byte.toUInt16).2, byte) ∈ undetected := by
    refine forall_byte ?_ byte
    decide +kernel
  have hlast := hall last
  rw [← eq_crcPreimage hcrc] at hlast
  exact (hlast.resolve_left hfirst).resolve_left (not_not_intro hwithin)

end LibreSwitch.Domain
