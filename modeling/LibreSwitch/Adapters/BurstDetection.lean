import Mathlib.Data.List.GetD
import LibreSwitch.Adapters.BurstCorruption

/-!
# Bursts in data of any length

What the checksum of the stored record is worth against a burst when it is compared as a number,
and not as the two bytes that stand in the record: two strings of one length whose differing bits
lie within sixteen consecutive positions never have the same checksum, from no value of the
register (`crc16_detects_burst`).

The difference of two checksums is the checksum of the difference, from a zero register. Zero bytes
in front of it leave that register alone, and zero bytes behind it hide nothing, so three bytes in
a row remain, for which `crc16_triple_eq_zero` speaks (`eq_zero_of_burst`).
-/

set_option autoImplicit false
set_option relaxedAutoImplicit false

namespace LibreSwitch.Adapters

open LibreSwitch.Library LibreSwitch.Domain

/-! ### Bits of a difference -/

theorem getD_xor {first second : Bytes} (hlength : first.length = second.length) (index : ℕ) :
    (List.zipWith (· ^^^ ·) first second).getD index 0 =
      first.getD index 0 ^^^ second.getD index 0 := by
  rw [List.getD_eq_getElem?_getD, List.getD_eq_getElem?_getD, List.getD_eq_getElem?_getD,
    List.getElem?_zipWith]
  by_cases hindex : index < first.length
  · rw [List.getElem?_eq_getElem hindex, List.getElem?_eq_getElem (hlength ▸ hindex)]
    rfl
  · rw [List.getElem?_eq_none (by omega), List.getElem?_eq_none (by omega)]
    rfl

/-- A bit of the difference of two strings says whether they differ there. -/
theorem bitAt_xor {first second : Bytes} (hlength : first.length = second.length)
    (position : ℕ) : bitAt (List.zipWith (· ^^^ ·) first second) position =
      (bitAt first position ^^ bitAt second position) := by
  rw [bitAt, bitAt, bitAt, getD_xor hlength, bitOf, bitOf, bitOf, UInt8.toBitVec_xor,
    BitVec.getMsbD_xor]

theorem bitAt_cons (byte : UInt8) (bytes : Bytes) (position : ℕ) :
    bitAt (byte :: bytes) (position + 8) = bitAt bytes position := by
  rw [bitAt, bitAt, Nat.add_div_right position (by decide), Nat.add_mod_right, List.getD_cons_succ]

/-- What is behind the first byte of a burst is a burst. -/
theorem Burst.tail {byte : UInt8} {flips : Bytes} (hburst : Burst (byte :: flips)) :
    Burst flips := by
  obtain ⟨start, hwindow⟩ := hburst
  refine ⟨start - 8, fun position hset ↦ ?_⟩
  have hbounds := hwindow (position + 8) ((bitAt_cons byte flips position).trans hset)
  omega

/-! ### The checksum of a burst -/

/-- Zero bytes behind the data do not hide it. -/
theorem crc16_append_zeros {data behind : Bytes} (hbehind : ∀ byte ∈ behind, byte = 0)
    (hzero : crc16 (data ++ behind) 0 = 0) : crc16 data 0 = 0 := by
  induction behind using List.reverseRecOn with
  | nil => rwa [List.append_nil] at hzero
  | append_singleton behind byte ih =>
    obtain rfl := hbehind byte (by simp)
    rw [← List.append_assoc] at hzero
    exact ih (fun other hother ↦ hbehind other (List.mem_append_left _ hother))
      (crc16_concat_zero hzero)

/-- A burst that starts with its first byte has a checksum. -/
theorem head_eq_zero_of_burst {byte : UInt8} {flips : Bytes} (hburst : Burst (byte :: flips))
    (hzero : crc16 (byte :: flips) 0 = 0) : byte = 0 := by
  by_contra hne
  have hwithin : Within byte (flips.getD 1 0) := hburst.within 0
  have hbehind : ∀ other ∈ flips.drop 2, other = 0 := by
    intro other hother
    obtain ⟨index, hindex, rfl⟩ := List.getElem_of_mem hother
    rw [List.length_drop] at hindex
    have hfar := hburst.eq_zero 0 (2 + index + 1) hne (by omega)
    rwa [List.getD_cons_succ, List.getD_eq_getElem _ _ (by omega), ← List.getElem_drop] at hfar
  -- two zero bytes more, so that there are three bytes in any case
  have hpadded : crc16 (byte :: flips ++ [0, 0]) 0 = 0 := by
    rw [crc16_append, hzero, crc16_cons_zero, crc16_cons_zero]
    rfl
  rcases flips with _ | ⟨middle, _ | ⟨last, behind⟩⟩
  · exact hne (crc16_triple_eq_zero hwithin hpadded)
  · exact hne (crc16_triple_eq_zero hwithin (crc16_concat_zero hpadded))
  · have hsplit : byte :: middle :: last :: behind = [byte, middle, last] ++ behind := rfl
    rw [hsplit] at hzero
    exact hne (crc16_triple_eq_zero hwithin (crc16_append_zeros hbehind hzero))

/-- Only a difference of nothing but zeros has no checksum, if it is a burst. -/
theorem eq_zero_of_burst {flips : Bytes} (hburst : Burst flips) (hzero : crc16 flips 0 = 0) :
    ∀ byte ∈ flips, byte = 0 := by
  induction flips with
  | nil => exact fun byte hbyte ↦ absurd hbyte List.not_mem_nil
  | cons first flips ih =>
    obtain rfl := head_eq_zero_of_burst hburst hzero
    rw [crc16_cons_zero] at hzero
    rintro byte (_ | ⟨_, hbyte⟩)
    · rfl
    · exact ih hburst.tail hzero byte hbyte

/-- Strings without a difference are the same. -/
theorem eq_of_xor_eq_zero {first second : Bytes} (hlength : first.length = second.length)
    (hzero : ∀ byte ∈ List.zipWith (· ^^^ ·) first second, byte = 0) : first = second := by
  induction first generalizing second with
  | nil => exact (List.length_eq_zero_iff.mp hlength.symm).symm
  | cons byte first ih =>
    cases second with
    | nil => cases hlength
    | cons other second =>
      rw [List.zipWith_cons_cons, List.forall_mem_cons] at hzero
      rw [UInt8.xor_eq_zero_iff.mp hzero.1, ih (Nat.succ.inj hlength) hzero.2]

/-- The checksum detects every burst: from any value of the register it is different for two
different strings of one length whose differing bits lie within sixteen consecutive positions. -/
theorem crc16_detects_burst (crc : UInt16) {data data' : Bytes}
    (hlength : data.length = data'.length) (hne : data ≠ data') {start : ℕ}
    (hwithin : ∀ position, bitAt data position ≠ bitAt data' position →
      start ≤ position ∧ position < start + 16) :
    crc16 data crc ≠ crc16 data' crc := by
  intro hsame
  have hburst : Burst (List.zipWith (· ^^^ ·) data data') := by
    refine ⟨start, fun position hset ↦ hwithin position ?_⟩
    rw [bitAt_xor hlength] at hset
    exact bne_iff_ne.mp hset
  have hzero : crc16 (List.zipWith (· ^^^ ·) data data') 0 = 0 := by
    have hdifference := crc16_xor hlength crc crc
    rwa [UInt16.xor_self, hsame, UInt16.xor_self] at hdifference
  exact hne (eq_of_xor_eq_zero hlength (eq_zero_of_burst hburst hzero))

/-- Sixteen flipped bits across three bytes, from the last bit of the first of them on. -/
theorem crc16_detects_burst_across :
    ([0x12, 0x34, 0x56] : Bytes).length = ([0x13, 0xCB, 0xA8] : Bytes).length ∧
      ([0x12, 0x34, 0x56] : Bytes) ≠ [0x13, 0xCB, 0xA8] ∧
      (∀ position, bitAt [0x12, 0x34, 0x56] position ≠ bitAt [0x13, 0xCB, 0xA8] position →
        7 ≤ position ∧ position < 7 + 16) ∧
      crc16 [0x12, 0x34, 0x56] 0 ≠ crc16 [0x13, 0xCB, 0xA8] 0 := by
  have hlength : ([0x12, 0x34, 0x56] : Bytes).length = ([0x13, 0xCB, 0xA8] : Bytes).length := rfl
  have hne : ([0x12, 0x34, 0x56] : Bytes) ≠ [0x13, 0xCB, 0xA8] := by decide
  have hwithin (position : ℕ)
      (hdiffer : bitAt [0x12, 0x34, 0x56] position ≠ bitAt [0x13, 0xCB, 0xA8] position) :
      7 ≤ position ∧ position < 7 + 16 := by
    by_cases hinside : position < 24
    · have hall : ∀ position < 24,
          bitAt [0x12, 0x34, 0x56] position ≠ bitAt [0x13, 0xCB, 0xA8] position →
            7 ≤ position ∧ position < 7 + 16 := by
        decide +kernel
      exact hall position hinside hdiffer
    · refine absurd ?_ hdiffer
      rw [bitAt, bitAt, List.getD_eq_default _ _ (by simp; omega),
        List.getD_eq_default _ _ (by simp; omega)]
  exact ⟨hlength, hne, hwithin, crc16_detects_burst 0 hlength hne hwithin⟩

end LibreSwitch.Adapters
