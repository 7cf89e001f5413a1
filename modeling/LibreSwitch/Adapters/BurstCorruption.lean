import Mathlib.Tactic
import LibreSwitch.Domain.CrcBurst
import LibreSwitch.Adapters.FlashDbStatePersistence

/-!
# Bursts in the stored record

What the checksum of the stored relay states is worth against a burst: flipped bits that all lie
within sixteen consecutive bit positions of the record, which is as far as a checksum of sixteen
bits reaches. It detects every burst within the data. But the field behind the data is
little-endian, so that the two bytes of the checksum stand in the record the other way round than
the polynomial has them, and a burst over the last data bytes and the field can agree with itself.
`burst_harmless_iff` says which bursts change a relay.
-/

set_option autoImplicit false
set_option relaxedAutoImplicit false

namespace LibreSwitch.Adapters

open LibreSwitch.Library LibreSwitch.Domain LibreSwitch.Platform

/-! ### Corrupted records -/

/-- A bit of a byte string: bytes in order, the most significant bit of each first. -/
def bitAt (bytes : Bytes) (position : ℕ) : Bool :=
  bitOf (bytes.getD (position / 8) 0) (position % 8)

/-- The bits that are set lie within sixteen consecutive positions. -/
def Burst (flips : Bytes) : Prop :=
  ∃ start, ∀ position, bitAt flips position = true → start ≤ position ∧ position < start + 16

/-- A bit of one byte of a burst and a bit of another are less than sixteen places apart. -/
theorem Burst.apart {flips : Bytes} (hburst : Burst flips) {first last index later : ℕ}
    (hindex : index < 8) (hlater : later < 8)
    (hfirst : bitOf (flips.getD first 0) index = true)
    (hlast : bitOf (flips.getD last 0) later = true) :
    8 * last + later < 8 * first + index + 16 := by
  obtain ⟨start, hwindow⟩ := hburst
  have hat (byte place : ℕ) (hplace : place < 8) (hset : bitOf (flips.getD byte 0) place = true) :
      start ≤ 8 * byte + place ∧ 8 * byte + place < start + 16 := by
    refine hwindow (8 * byte + place) ?_
    rw [bitAt, Nat.mul_add_div (by decide), Nat.div_eq_of_lt hplace, Nat.add_zero,
      Nat.mul_add_mod, Nat.mod_eq_of_lt hplace]
    exact hset
  have := hat first index hindex hfirst
  have := hat last later hlater hlast
  omega

/-- Two bytes behind a byte of a burst its bits come to an end. -/
theorem Burst.within {flips : Bytes} (hburst : Burst flips) (first : ℕ) :
    Within (flips.getD first 0) (flips.getD (first + 2) 0) := by
  intro index hindex later hlater hle hset
  by_contra hlast
  have := hburst.apart hindex hlater hset (by simpa using hlast)
  omega

/-- Three bytes behind a byte of a burst that has a bit there is none. -/
theorem Burst.eq_zero {flips : Bytes} (hburst : Burst flips) (first last : ℕ)
    (hfirst : flips.getD first 0 ≠ 0) (hlast : first + 3 ≤ last) : flips.getD last 0 = 0 := by
  by_contra hne
  obtain ⟨index, hindex, hset⟩ := exists_bitOf hfirst
  obtain ⟨later, hlater, hset'⟩ := exists_bitOf hne
  have := hburst.apart hindex hlater hset hset'
  omega

namespace FlashDbStatePersistence

/-- The store with some bits of the stored record flipped. -/
def corrupt (flips : Bytes) (persist : FlashDbStatePersistence KvMap) :
    FlashDbStatePersistence KvMap :=
  ⟨⟨fun key ↦
    if key = kKey then (persist.kv.blobs key).map fun blob ↦ List.zipWith (· ^^^ ·) blob flips
    else persist.kv.blobs key⟩⟩

/-- The bytes of a saved record, with some bits flipped. -/
def corrupted (snapshot : PersistedRelayState) (flips : Bytes) : Bytes :=
  List.zipWith (· ^^^ ·) (pack snapshot).toBytes flips

/-- The byte a record has for a state. -/
def stateByte (state : RelayState) : UInt8 := if state = .on then 1 else 0

theorem toBytes_pack (snapshot : PersistedRelayState) : (pack snapshot).toBytes =
    [0x31, 0x54, 0x53, 0x52, 1, stateByte (snapshot.channel 0), stateByte (snapshot.channel 1),
      stateByte (snapshot.channel 2), stateByte (snapshot.channel 3), 0] ++
        littleEndian 2 (computeCrc (pack snapshot)).toNat := by
  have hmagic : littleEndian 4 kMagic.toNat = [0x31, 0x54, 0x53, 0x52] := by decide +kernel
  have hstate : List.ofFn (pack snapshot).state = [stateByte (snapshot.channel 0),
      stateByte (snapshot.channel 1), stateByte (snapshot.channel 2),
      stateByte (snapshot.channel 3)] := rfl
  have hsame : (pack snapshot).magic = kMagic := rfl
  rw [Record.toBytes, hstate, hsame, hmagic]
  rfl

theorem word_xor (high low high' low' : UInt8) :
    word (high ^^^ high') (low ^^^ low') = word high low ^^^ word high' low' := by
  rw [word, word, word, UInt8.toUInt16_xor, UInt8.toUInt16_xor, UInt16.shiftLeft_xor]
  ac_rfl

/-- The bytes of a word in memory, the low byte first. -/
theorem ofLittleEndian_pair (low high : UInt8) :
    ofLittleEndian [low, high] = (word high low).toNat := by
  rw [toNat_word]
  simp [ofLittleEndian]
  omega

/-- Numbers in memory are equal if their bytes are. -/
theorem ofLittleEndian_inj (first second : Bytes) (hlength : first.length = second.length) :
    ofLittleEndian first = ofLittleEndian second ↔ first = second := by
  refine ⟨fun hsame ↦ ?_, fun hsame ↦ congrArg ofLittleEndian hsame⟩
  rw [← littleEndian_ofLittleEndian first, hlength, hsame, littleEndian_ofLittleEndian]

theorem xor_eq_left_iff (byte flip : UInt8) : byte ^^^ flip = byte ↔ flip = 0 := by
  rw [← UInt8.xor_right_inj (a := flip) byte, UInt8.xor_zero]

/-- A corrupted record is accepted exactly if the gates are untouched and the change of the checksum
is the checksum of the change. -/
theorem isRecord_corrupted (snapshot : PersistedRelayState)
    (e0 e1 e2 e3 e4 e5 e6 e7 e8 e9 e10 e11 : UInt8) :
    IsRecord (corrupted snapshot [e0, e1, e2, e3, e4, e5, e6, e7, e8, e9, e10, e11]) ↔
      [e0, e1, e2, e3, e4] = [0, 0, 0, 0, 0] ∧ crc16 [e5, e6, e7, e8, e9] 0 = word e11 e10 := by
  obtain ⟨data, hdata⟩ : ∃ data, [0x31, 0x54, 0x53, 0x52, 1, stateByte (snapshot.channel 0),
    stateByte (snapshot.channel 1), stateByte (snapshot.channel 2), stateByte (snapshot.channel 3),
    0] = data := ⟨_, rfl⟩
  obtain ⟨low, high, hfield⟩ : ∃ low high,
      littleEndian 2 (computeCrc (pack snapshot)).toNat = [low, high] := ⟨_, _, rfl⟩
  have hcrc : word high low = crc16 data := by
    have hstored : ofLittleEndian (littleEndian 2 (computeCrc (pack snapshot)).toNat) =
        (computeCrc (pack snapshot)).toNat :=
      ofLittleEndian_littleEndian (computeCrc (pack snapshot)).toNat_lt
    rw [hfield, ofLittleEndian_pair, UInt16.toNat_inj] at hstored
    rw [hstored, computeCrc, toBytes_pack, ← hdata]
    rfl
  have hbytes : corrupted snapshot [e0, e1, e2, e3, e4, e5, e6, e7, e8, e9, e10, e11] =
      List.zipWith (· ^^^ ·) data [e0, e1, e2, e3, e4, e5, e6, e7, e8, e9] ++
        [low ^^^ e10, high ^^^ e11] := by
    rw [corrupted, toBytes_pack, hfield, ← hdata]
    rfl
  have hchanged : crc16 (List.zipWith (· ^^^ ·) data [e0, e1, e2, e3, e4, e5, e6, e7, e8, e9]) =
      crc16 data ^^^ crc16 [e0, e1, e2, e3, e4, e5, e6, e7, e8, e9] 0 := by
    rw [← crc16_xor (by rw [← hdata]; rfl), UInt16.xor_zero]
  have hgates : ofLittleEndian [0x31 ^^^ e0, 0x54 ^^^ e1, 0x53 ^^^ e2, 0x52 ^^^ e3] = 0x52535431 ∧
      1 ^^^ e4 = 1 ↔ [e0, e1, e2, e3, e4] = [0, 0, 0, 0, 0] := by
    have hmagic : (0x52535431 : ℕ) = ofLittleEndian [0x31, 0x54, 0x53, 0x52] := by decide
    have hsame := ofLittleEndian_inj [0x31 ^^^ e0, 0x54 ^^^ e1, 0x53 ^^^ e2, 0x52 ^^^ e3]
      [0x31, 0x54, 0x53, 0x52] (by simp)
    rw [hmagic, hsame]
    simp only [List.cons.injEq, xor_eq_left_iff, and_true, and_assoc]
  have hlast : ofLittleEndian [low ^^^ e10, high ^^^ e11] =
      (crc16 data ^^^ crc16 [e0, e1, e2, e3, e4, e5, e6, e7, e8, e9] 0).toNat ↔
        crc16 [e0, e1, e2, e3, e4, e5, e6, e7, e8, e9] 0 = word e11 e10 := by
    rw [ofLittleEndian_pair, UInt16.toNat_inj, word_xor, hcrc, UInt16.xor_right_inj, eq_comm]
  obtain ⟨blob, hblob⟩ : ∃ blob,
      corrupted snapshot [e0, e1, e2, e3, e4, e5, e6, e7, e8, e9, e10, e11] = blob := ⟨_, rfl⟩
  have hlength : blob.length = 12 := by rw [← hblob, hbytes, ← hdata]; rfl
  have hmagic : blob.take 4 = [0x31 ^^^ e0, 0x54 ^^^ e1, 0x53 ^^^ e2, 0x52 ^^^ e3] := by
    rw [← hblob, hbytes, ← hdata]
    rfl
  have hversion : blob.getD 4 0 = 1 ^^^ e4 := by rw [← hblob, hbytes, ← hdata]; rfl
  have hdrop : blob.drop 10 = [low ^^^ e10, high ^^^ e11] := by rw [← hblob, hbytes, ← hdata]; rfl
  have htake : blob.take 10 =
      List.zipWith (· ^^^ ·) data [e0, e1, e2, e3, e4, e5, e6, e7, e8, e9] := by
    rw [← hblob, hbytes, ← hdata]
    rfl
  rw [hblob, IsRecord, hmagic, hversion, hdrop, htake, hchanged, hlast, and_iff_right hlength,
    ← and_assoc, hgates]
  refine and_congr_right fun hzero ↦ ?_
  obtain ⟨rfl, rfl, rfl, rfl, rfl⟩ : e0 = 0 ∧ e1 = 0 ∧ e2 = 0 ∧ e3 = 0 ∧ e4 = 0 := by
    simpa using hzero
  rw [crc16_cons_zero, crc16_cons_zero, crc16_cons_zero, crc16_cons_zero, crc16_cons_zero]

/-- The state that a corrupted record gives a channel. -/
theorem recordState_corrupted (snapshot : PersistedRelayState) (flips : Bytes)
    (hsize : flips.length = kRecordSize) {channel : ℕ} (hchannel : channel < kMaxChannels) :
    recordState (corrupted snapshot flips) channel =
      if stateByte (snapshot.channel channel) ^^^ flips.getD (5 + channel) 0 ≠ 0 then .on
      else .off := by
  have hbyte : (corrupted snapshot flips).getD (5 + channel) 0 =
      stateByte (snapshot.channel channel) ^^^ flips.getD (5 + channel) 0 := by
    rw [corrupted, toBytes_pack]
    match flips, hsize, channel, hchannel with
    | [_, _, _, _, _, _, _, _, _, _, _, _], _, 0, _ => rfl
    | [_, _, _, _, _, _, _, _, _, _, _, _], _, 1, _ => rfl
    | [_, _, _, _, _, _, _, _, _, _, _, _], _, 2, _ => rfl
    | [_, _, _, _, _, _, _, _, _, _, _, _], _, 3, _ => rfl
  rw [recordState, hbyte]
  simp only [hchannel, true_and]

theorem loadRelayState_corrupt (persist : FlashDbStatePersistence KvMap)
    (snapshot : PersistedRelayState) {flips : Bytes} (hsize : flips.length = kRecordSize) :
    StatePersistencePort.loadRelayState
        (corrupt flips (StatePersistencePort.saveRelayState persist snapshot).2) =
      if IsRecord (corrupted snapshot flips) then
        { channel := recordState (corrupted snapshot flips), valid := true }
      else {} := by
  have hlength : (corrupted snapshot flips).length = kRecordSize := by
    rw [corrupted, List.length_zipWith, hsize, Record.length_toBytes, Nat.min_self]
  have hstored : (corrupt flips (StatePersistencePort.saveRelayState persist snapshot).2).kv.blobs
      kKey = some (corrupted snapshot flips) := by
    simp [corrupt, StatePersistencePort.saveRelayState, KvStore.setBlob, corrupted]
  have hload := loadRelayState_eq
    (corrupt flips (StatePersistencePort.saveRelayState persist snapshot).2).kv
  rw [hstored, Option.getD_some, List.take_of_length_le (le_of_eq hlength)] at hload
  exact hload

/-! ### Which bursts change a relay -/

/-- The bursts that change the byte of the last state and are not detected. -/
def missed : List Bytes :=
  undetected.map fun change ↦ [0, 0, 0, 0, 0, 0, 0, 0, change.1, change.2.1, change.2.2, 0]

/-- An accepted burst leaves the states alone, or it is one of a few. -/
theorem untouched_or_missed {snapshot : PersistedRelayState} {flips : Bytes}
    (hsize : flips.length = kRecordSize) (hburst : Burst flips)
    (haccepted : IsRecord (corrupted snapshot flips)) :
    (∀ channel < kMaxChannels, flips.getD (5 + channel) 0 = 0) ∨ flips ∈ missed := by
  match flips, hsize with
  | [e0, e1, e2, e3, e4, e5, e6, e7, e8, e9, e10, e11], _ =>
    rw [isRecord_corrupted] at haccepted
    obtain ⟨hgates, hcrc⟩ := haccepted
    obtain ⟨rfl, rfl, rfl, rfl, rfl⟩ : e0 = 0 ∧ e1 = 0 ∧ e2 = 0 ∧ e3 = 0 ∧ e4 = 0 := by
      simpa using hgates
    -- a first change at one of the states of channels 0, 1 and 2 ends within the data
    have hfirst : e5 = 0 := by
      by_contra hne
      obtain rfl : e8 = 0 := hburst.eq_zero 5 8 hne (by decide)
      obtain rfl : e9 = 0 := hburst.eq_zero 5 9 hne (by decide)
      obtain rfl : e10 = 0 := hburst.eq_zero 5 10 hne (by decide)
      obtain rfl : e11 = 0 := hburst.eq_zero 5 11 hne (by decide)
      have hzero : crc16 ([e5, e6, e7] ++ [0] ++ [0]) 0 = 0 := hcrc
      exact hne (crc16_triple_eq_zero (hburst.within 5)
        (crc16_concat_zero (crc16_concat_zero hzero)))
    subst hfirst
    rw [crc16_cons_zero] at hcrc
    have hsecond : e6 = 0 := by
      by_contra hne
      obtain rfl : e9 = 0 := hburst.eq_zero 6 9 hne (by decide)
      obtain rfl : e10 = 0 := hburst.eq_zero 6 10 hne (by decide)
      obtain rfl : e11 = 0 := hburst.eq_zero 6 11 hne (by decide)
      have hzero : crc16 ([e6, e7, e8] ++ [0]) 0 = 0 := hcrc
      exact hne (crc16_triple_eq_zero (hburst.within 6) (crc16_concat_zero hzero))
    subst hsecond
    rw [crc16_cons_zero] at hcrc
    have hthird : e7 = 0 := by
      by_contra hne
      obtain rfl : e10 = 0 := hburst.eq_zero 7 10 hne (by decide)
      obtain rfl : e11 = 0 := hburst.eq_zero 7 11 hne (by decide)
      exact hne (crc16_triple_eq_zero (hburst.within 7) hcrc)
    subst hthird
    rw [crc16_cons_zero] at hcrc
    -- a first change at the state of channel 3 reaches into the checksum field
    by_cases hfourth : e8 = 0
    · subst hfourth
      refine .inl fun channel hchannel ↦ ?_
      match channel, hchannel with
      | 0, _ => rfl
      | 1, _ => rfl
      | 2, _ => rfl
      | 3, _ => rfl
    · obtain rfl : e11 = 0 := hburst.eq_zero 8 11 hfourth (by decide)
      have hlow : crc16 [e8, e9] 0 = e10.toUInt16 := by
        rw [hcrc, word]
        exact UInt16.zero_xor
      exact .inr (List.mem_map.mpr
        ⟨(e8, e9, e10), mem_undetected hfourth (hburst.within 8) hlow, rfl⟩)

/-- What was loaded is not valid, or is what was saved. -/
def Faithful (loaded saved : PersistedRelayState) : Prop :=
  loaded.valid = false ∨ ∀ channel < kMaxChannels, loaded.channel channel = saved.channel channel

instance (loaded saved : PersistedRelayState) : Decidable (Faithful loaded saved) :=
  inferInstanceAs (Decidable (_ ∨ ∀ channel < _, _))

/-- A burst in the stored record leaves a load invalid or right, but for a few bursts, which turn
on the last relay if it was saved as off. -/
theorem burst_harmless_iff (persist : FlashDbStatePersistence KvMap)
    (snapshot : PersistedRelayState) {flips : Bytes} (hsize : flips.length = kRecordSize)
    (hburst : Burst flips) :
    Faithful (StatePersistencePort.loadRelayState
        (corrupt flips (StatePersistencePort.saveRelayState persist snapshot).2)) snapshot ↔
      ¬ (snapshot.channel 3 = .off ∧ flips ∈ missed) := by
  have hkept (state : RelayState) : (if stateByte state ^^^ 0 ≠ 0 then .on else .off) = state := by
    cases state with
    | off => rfl
    | on => rfl
  have hmissed : ∀ flips ∈ missed, flips.getD 5 0 = 0 ∧ flips.getD 6 0 = 0 ∧ flips.getD 7 0 = 0 ∧
      flips.getD 8 0 ≠ 0 ∧ stateByte .on ^^^ flips.getD 8 0 ≠ 0 := by
    decide
  rw [loadRelayState_corrupt persist snapshot hsize]
  by_cases haccepted : IsRecord (corrupted snapshot flips)
  · rw [if_pos haccepted, Faithful, or_iff_right (by simp)]
    constructor
    · rintro hall ⟨hoff, hmiss⟩
      obtain ⟨-, -, -, hset, -⟩ := hmissed flips hmiss
      have hlast : recordState (corrupted snapshot flips) 3 = snapshot.channel 3 :=
        hall 3 (by decide)
      have hon : stateByte .off ^^^ flips.getD (5 + 3) 0 ≠ 0 := by simpa [stateByte] using hset
      rw [recordState_corrupted snapshot flips hsize (by decide), hoff, if_pos hon] at hlast
      cases hlast
    · intro hnot channel hchannel
      show recordState (corrupted snapshot flips) channel = snapshot.channel channel
      rw [recordState_corrupted snapshot flips hsize hchannel]
      rcases untouched_or_missed hsize hburst haccepted with huntouched | hmiss
      · rw [huntouched channel hchannel, hkept]
      · obtain ⟨h5, h6, h7, -, hset⟩ := hmissed flips hmiss
        have hon : snapshot.channel 3 = .on := by
          cases hstate : snapshot.channel 3 with
          | off => exact absurd ⟨hstate, hmiss⟩ hnot
          | on => rfl
        match channel, hchannel with
        | 0, _ => rw [h5, hkept]
        | 1, _ => rw [h6, hkept]
        | 2, _ => rw [h7, hkept]
        | 3, _ => rw [hon, if_pos hset]
  · rw [if_neg haccepted]
    refine iff_of_true (.inl rfl) fun hmiss ↦ haccepted ?_
    obtain ⟨change, hchange, rfl⟩ := List.mem_map.mp hmiss.2
    have hcrc : ∀ change ∈ undetected,
        decide (crc16 [0, 0, 0, change.1, change.2.1] 0 = word 0 change.2.2) = true :=
      List.all_eq_true.mp (by decide +kernel)
    exact (isRecord_corrupted snapshot _ _ _ _ _ _ _ _ _ _ _ _).mpr 
      ⟨rfl, of_decide_eq_true (hcrc change hchange)⟩

/-- One bit of the state of the last relay, and some bits behind it. -/
def crossingBurst : Bytes := [0, 0, 0, 0, 0, 0, 0, 0, 0x08, 0xC5, 0x40, 0]

theorem burst_crossingBurst : Burst crossingBurst := by
  refine ⟨68, fun position hset ↦ ?_⟩
  by_cases hposition : position < 96
  · have hall : ∀ position < 96, bitAt crossingBurst position = true →
        68 ≤ position ∧ position < 68 + 16 := by
      decide +kernel
    exact hall position hposition hset
  · have hsize : crossingBurst.length ≤ position / 8 := by
      show 12 ≤ position / 8
      omega
    have hbehind : crossingBurst.getD (position / 8) 0 = 0 := by
      rw [List.getD_eq_getElem?_getD, List.getElem?_eq_none hsize, Option.getD_none]
    rw [bitAt, hbehind, bitOf] at hset
    simp at hset

theorem burst_harmless_iff_witness :
    Faithful (StatePersistencePort.loadRelayState (corrupt crossingBurst
        (StatePersistencePort.saveRelayState (FlashDbStatePersistence.mk (storing [])) {}).2)) {} ↔
      ¬ (({} : PersistedRelayState).channel 3 = .off ∧ crossingBurst ∈ missed) :=
  burst_harmless_iff ⟨storing []⟩ {} rfl burst_crossingBurst

/-- A burst can turn on a relay that was saved as off. -/
theorem burst_turns_on : ¬ ∀ (persist : FlashDbStatePersistence KvMap)
    (snapshot : PersistedRelayState) (flips : Bytes), flips.length = kRecordSize → Burst flips →
      Faithful (StatePersistencePort.loadRelayState
        (corrupt flips (StatePersistencePort.saveRelayState persist snapshot).2)) snapshot := by
  intro hharmless
  have hload := hharmless ⟨storing []⟩ {} crossingBurst rfl burst_crossingBurst
  revert hload
  decide +kernel

end FlashDbStatePersistence

end LibreSwitch.Adapters
