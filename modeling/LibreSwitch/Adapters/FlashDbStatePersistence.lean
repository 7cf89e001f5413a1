import Mathlib.Tactic
import LibreSwitch.Domain.Crc16
import LibreSwitch.Domain.BootPolicy
import LibreSwitch.Platform.KvStore

/-!
# Persisted relay states

`FlashDbStatePersistence` of `adapters/flashdb_state_persistence.h`: the relay states as a record
of twelve bytes with a magic number, a version and a checksum, under one key of the key-value
store. `Record` has the fields of the source's struct, `Record.toBytes` and `Record.ofBytes` are
its memory image, little-endian, and `toBytes_ofBytes` and `ofBytes_toBytes` say that they are
inverse to each other.

`IsRecord` says of a byte string that it is a record the adapter accepts, without mentioning the
struct. `loadRelayState_eq` connects the two. `boot_restores_or_off` is the safety of a boot
(R-7) for every content of the store, and `boot_accepts_longer_blob` the one content on which
the store's read, cut at the size of the record, makes a difference.
-/

set_option autoImplicit false
set_option relaxedAutoImplicit false

namespace LibreSwitch.Adapters

open LibreSwitch.Library LibreSwitch.Domain LibreSwitch.Platform

/-! ### The record -/

/-- `FlashDbStatePersistence::Record`. -/
structure Record where
  magic : UInt32
  version : UInt8
  state : Fin kMaxChannels → UInt8
  pad : UInt8
  crc : UInt16

/-- `sizeof(Record)`. -/
def kRecordSize : ℕ := 12

/-- `offsetof(Record, crc)`. -/
def kCrcOffset : ℕ := 10

namespace Record

/-- The bytes of a record in memory. -/
def toBytes (record : Record) : Bytes :=
  littleEndian 4 record.magic.toNat ++ record.version :: List.ofFn record.state ++
    record.pad :: littleEndian 2 record.crc.toNat

/-- The record in a zeroed buffer with these bytes at its start. -/
def ofBytes (bytes : Bytes) : Record where
  magic := UInt32.ofNat (ofLittleEndian (bytes.take 4))
  version := bytes.getD 4 0
  state channel := bytes.getD (5 + channel) 0
  pad := bytes.getD 9 0
  crc := UInt16.ofNat (ofLittleEndian ((bytes.drop kCrcOffset).take 2))

@[simp] theorem length_toBytes (record : Record) : record.toBytes.length = kRecordSize := by
  simp only [toBytes, List.length_append, List.length_cons, List.length_ofFn, length_littleEndian]
  rfl

theorem toBytes_ofBytes {bytes : Bytes} (hsize : bytes.length = kRecordSize) :
    (ofBytes bytes).toBytes = bytes := by
  match bytes, hsize with
  | [b0, b1, b2, b3, b4, b5, b6, b7, b8, b9, b10, b11], _ =>
    have hmagic : (UInt32.ofNat (ofLittleEndian [b0, b1, b2, b3])).toNat =
        ofLittleEndian [b0, b1, b2, b3] := by
      have hlt := ofLittleEndian_lt [b0, b1, b2, b3]
      rw [UInt32.toNat_ofNat', Nat.mod_eq_of_lt (by simpa using hlt)]
    have hcrc : (UInt16.ofNat (ofLittleEndian [b10, b11])).toNat = ofLittleEndian [b10, b11] := by
      have hlt := ofLittleEndian_lt [b10, b11]
      rw [UInt16.toNat_ofNat', Nat.mod_eq_of_lt (by simpa using hlt)]
    have hfour := littleEndian_ofLittleEndian [b0, b1, b2, b3]
    have htwo := littleEndian_ofLittleEndian [b10, b11]
    simp only [List.length_cons, List.length_nil, Nat.reduceAdd] at hfour htwo
    simp only [toBytes, ofBytes, kCrcOffset, List.take_succ_cons, List.take_zero,
      List.drop_succ_cons, List.drop_zero, hmagic, hcrc, hfour, htwo]
    rfl

theorem ofBytes_toBytes (record : Record) : ofBytes record.toBytes = record := by
  obtain ⟨magic, version, state, pad, crc⟩ := record
  have hmagic : ofLittleEndian (littleEndian 4 magic.toNat) = magic.toNat :=
    ofLittleEndian_littleEndian magic.toNat_lt
  have hcrc : ofLittleEndian (littleEndian 2 crc.toNat) = crc.toNat :=
    ofLittleEndian_littleEndian crc.toNat_lt
  have htake : (toBytes ⟨magic, version, state, pad, crc⟩).take 4 =
      littleEndian 4 magic.toNat := rfl
  have hdrop : ((toBytes ⟨magic, version, state, pad, crc⟩).drop kCrcOffset).take 2 =
      littleEndian 2 crc.toNat := rfl
  simp only [ofBytes, htake, hdrop, hmagic, hcrc, UInt32.ofNat_toNat, UInt16.ofNat_toNat]
  congr 1
  funext channel
  match channel with
  | ⟨0, _⟩ | ⟨1, _⟩ | ⟨2, _⟩ | ⟨3, _⟩ => rfl

end Record

/-! ### The adapter -/

/-- `FlashDbStatePersistence`, with the store it refers to. -/
structure FlashDbStatePersistence (κ : Type) where
  kv : κ

namespace FlashDbStatePersistence

def kKey : Bytes := ascii "relay_state"

def kMagic : UInt32 := 0x52535431

def kVersion : UInt8 := 1

/-- `computeCrc`: the checksum of the bytes before the checksum field. -/
def computeCrc (record : Record) : UInt16 := crc16 (record.toBytes.take kCrcOffset)

/-- The part of `loadRelayState` after the read: the gates, then the states. -/
def unpack (size : ℕ) (record : Record) : PersistedRelayState :=
  if size ≠ kRecordSize then {}
  else if record.magic ≠ kMagic then {}
  else if record.version ≠ kVersion then {}
  else if record.crc ≠ computeCrc record then {}
  else
    { channel := fun channel ↦
        if hchannel : channel < kMaxChannels then
          if record.state ⟨channel, hchannel⟩ ≠ 0 then .on else .off
        else .off
      valid := true }

/-- The part of `saveRelayState` before the write. -/
def pack (snapshot : PersistedRelayState) : Record :=
  let record : Record :=
    { magic := kMagic
      version := kVersion
      state := fun channel ↦ if snapshot.channel channel = .on then 1 else 0
      pad := 0
      crc := 0 }
  { record with crc := computeCrc record }

instance {κ : Type} [KvStore κ] : StatePersistencePort (FlashDbStatePersistence κ) where
  loadRelayState persist :=
    let read := KvStore.getBlob persist.kv kKey kRecordSize
    unpack read.1 (Record.ofBytes read.2)
  saveRelayState persist snapshot :=
    let written := KvStore.setBlob persist.kv kKey (pack snapshot).toBytes
    (if written.1 then .success else .fail .internalInvariant, ⟨written.2⟩)

/-- The checksum does not depend on the checksum field. -/
theorem computeCrc_crc (record : Record) (crc : UInt16) :
    computeCrc { record with crc := crc } = computeCrc record := rfl

/-- What was packed is unpacked again. -/
theorem unpack_pack (snapshot : PersistedRelayState) :
    unpack kRecordSize (pack snapshot) =
      { channel := fun channel ↦
          if channel < kMaxChannels then snapshot.channel channel else .off
        valid := true } := by
  have hcrc : (pack snapshot).crc = computeCrc (pack snapshot) := (computeCrc_crc _ _).symm
  have hmagic : (pack snapshot).magic = kMagic := rfl
  have hversion : (pack snapshot).version = kVersion := rfl
  simp only [unpack, hmagic, hversion, ← hcrc, ne_eq, not_true_eq_false, if_false]
  congr 1
  funext channel
  by_cases hchannel : channel < kMaxChannels
  · cases hstate : snapshot.channel channel <;> simp [pack, hchannel, hstate]
  · simp [hchannel]

/-- Loading from the store gives what was saved last, for every channel a record holds. -/
theorem loadRelayState_saveRelayState (persist : FlashDbStatePersistence KvMap)
    (snapshot : PersistedRelayState) :
    StatePersistencePort.loadRelayState (StatePersistencePort.saveRelayState persist snapshot).2 =
      { channel := fun channel ↦
          if channel < kMaxChannels then snapshot.channel channel else .off
        valid := true } := by
  rw [← unpack_pack]
  have hread := KvMap.getBlob_setBlob persist.kv kKey (le_of_eq (pack snapshot).length_toBytes)
  simp only [StatePersistencePort.loadRelayState, StatePersistencePort.saveRelayState, hread,
    Record.ofBytes_toBytes, Record.length_toBytes]

/-! ### Which contents are accepted -/

/-- A byte string is a record with the right magic number, version and checksum. -/
def IsRecord (blob : Bytes) : Prop :=
  blob.length = 12 ∧ ofLittleEndian (blob.take 4) = 0x52535431 ∧ blob.getD 4 0 = 1 ∧
    ofLittleEndian (blob.drop 10) = (crc16 (blob.take 10)).toNat

instance (blob : Bytes) : Decidable (IsRecord blob) :=
  inferInstanceAs (Decidable (_ ∧ _ ∧ _ ∧ _))

/-- The state a record gives a channel. -/
def recordState (blob : Bytes) (channel : ℕ) : RelayState :=
  if channel < kMaxChannels ∧ blob.getD (5 + channel) 0 ≠ 0 then .on else .off

/-- The gates accept a buffer exactly when it is a record, and read its states. -/
theorem unpack_ofBytes (blob : Bytes) : unpack blob.length (Record.ofBytes blob) =
    if IsRecord blob then { channel := recordState blob, valid := true } else {} := by
  by_cases hsize : blob.length = kRecordSize
  · have hmagicLt := ofLittleEndian_lt (blob.take 4)
    have hcrcLt := ofLittleEndian_lt (blob.drop kCrcOffset)
    have hcrcSize : (blob.drop kCrcOffset).length = 2 := by rw [List.length_drop, hsize]; rfl
    rw [List.length_take, hsize] at hmagicLt
    rw [hcrcSize] at hcrcLt
    have hmagic : (Record.ofBytes blob).magic = kMagic ↔
        ofLittleEndian (blob.take 4) = 0x52535431 := by
      rw [← UInt32.toNat_inj, Record.ofBytes, UInt32.toNat_ofNat',
        Nat.mod_eq_of_lt (by simpa [kRecordSize] using hmagicLt)]
      rfl
    have hcrc : (Record.ofBytes blob).crc = computeCrc (Record.ofBytes blob) ↔
        ofLittleEndian (blob.drop 10) = (crc16 (blob.take 10)).toNat := by
      rw [computeCrc, Record.toBytes_ofBytes hsize, ← UInt16.toNat_inj, Record.ofBytes,
        List.take_of_length_le (le_of_eq hcrcSize), UInt16.toNat_ofNat',
        Nat.mod_eq_of_lt (by simpa using hcrcLt)]
      rfl
    have hversion : (Record.ofBytes blob).version = kVersion ↔ blob.getD 4 0 = 1 := Iff.rfl
    by_cases hrecord : IsRecord blob
    · obtain ⟨-, hfour, hone, hlast⟩ := id hrecord
      rw [unpack, if_neg (not_not_intro hsize), if_neg (not_not_intro (hmagic.mpr hfour)),
        if_neg (not_not_intro (hversion.mpr hone)), if_neg (not_not_intro (hcrc.mpr hlast)),
        if_pos hrecord]
      congr 1
      funext channel
      by_cases hchannel : channel < kMaxChannels
      · simp [hchannel, recordState, Record.ofBytes]
      · simp [hchannel, recordState]
    · rw [if_neg hrecord]
      unfold unpack
      split_ifs with hlength hfour hone hlast
      · rfl
      · rfl
      · rfl
      · rfl
      · exact absurd ⟨hsize, hmagic.mp (not_not.mp hfour), hversion.mp (not_not.mp hone),
          hcrc.mp (not_not.mp hlast)⟩ hrecord
  · have hnot : ¬ IsRecord blob := fun hrecord ↦ hsize hrecord.1
    rw [unpack, if_pos hsize, if_neg hnot]

/-- Loading reads the first twelve bytes stored, and accepts them exactly when they are a
record. -/
theorem loadRelayState_eq (kv : KvMap) :
    StatePersistencePort.loadRelayState (FlashDbStatePersistence.mk kv) =
      if IsRecord (((kv.blobs kKey).getD []).take kRecordSize) then
        { channel := recordState (((kv.blobs kKey).getD []).take kRecordSize), valid := true }
      else {} :=
  unpack_ofBytes _

/-! ### Booting from the store -/

/-- Power-up from a store, with a sink that records the drives. -/
def bootFrom (kv : KvMap) (channelCount : ℕ) : RelayController DriveLog :=
  BootPolicy.boot { sink := [] } channelCount (FlashDbStatePersistence.mk kv) .restoreLast

/-- The state a store gives a channel at power-up. -/
theorem bootTarget_eq (kv : KvMap) (channel : ℕ) :
    BootPolicy.bootTarget (FlashDbStatePersistence.mk kv) .restoreLast channel =
      if IsRecord (((kv.blobs kKey).getD []).take kRecordSize) then
        recordState (((kv.blobs kKey).getD []).take kRecordSize) channel
      else .off := by
  rw [BootPolicy.bootTarget, loadRelayState_eq]
  by_cases hrecord : IsRecord (((kv.blobs kKey).getD []).take kRecordSize)
  · simp [hrecord]
  · simp [hrecord]

/-- The state bytes of a record are among the bytes that are read. -/
theorem recordState_take_eq_on_iff (blob : Bytes) {channel : ℕ}
    (hchannel : channel < kMaxChannels) :
    recordState (blob.take kRecordSize) channel = .on ↔ blob.getD (5 + channel) 0 ≠ 0 := by
  have hread : 5 + channel < kRecordSize := by
    simp only [kMaxChannels] at hchannel
    simp only [kRecordSize]
    omega
  have hbyte : (blob.take kRecordSize).getD (5 + channel) 0 = blob.getD (5 + channel) 0 := by
    rw [List.getD_eq_getElem?_getD, List.getElem?_take_of_lt hread, List.getD_eq_getElem?_getD]
  simp only [recordState, hchannel, hbyte, true_and]
  split_ifs with hset
  · exact ⟨fun _ ↦ hset, fun _ ↦ rfl⟩
  · exact ⟨nofun, fun hne ↦ absurd hne hset⟩

/-- For every content of the store and every channel count, a boot either finds a record at the
start of the stored bytes and every present channel has the state of its byte, or every present
channel is off. No channel that ends off was ever driven on, and no absent channel was driven. -/
theorem boot_restores_or_off (kv : KvMap) (channelCount : ℕ)
    (hcount : 0 < channelCount ∧ channelCount ≤ kMaxChannels) :
    ((∃ blob, kv.blobs kKey = some blob ∧ IsRecord (blob.take 12) ∧
        ∀ channel < channelCount, ((bootFrom kv channelCount).state channel = .on ↔
          blob.getD (5 + channel) 0 ≠ 0)) ∨
      ((∀ blob, kv.blobs kKey = some blob → ¬ IsRecord (blob.take 12)) ∧
        ∀ channel < channelCount, (bootFrom kv channelCount).state channel = .off)) ∧
    ∀ drive ∈ (bootFrom kv channelCount).sink, drive.1 < channelCount ∧
      (drive.2 = .on → (bootFrom kv channelCount).state drive.1 = .on) := by
  have hstate (channel : ℕ) (hpresent : channel < channelCount) :
      (bootFrom kv channelCount).state channel =
        BootPolicy.bootTarget (FlashDbStatePersistence.mk kv) .restoreLast channel :=
    BootPolicy.state_boot _ hcount _ _ hpresent
  have hdrives : (bootFrom kv channelCount).sink =
      (List.range channelCount).map (fun channel ↦ (channel, RelayState.off)) ++
        (List.range channelCount).map fun channel ↦
          (channel, BootPolicy.bootTarget (FlashDbStatePersistence.mk kv)
            .restoreLast channel) := by
    rw [bootFrom, BootPolicy.boot_eq _ hcount, RelayController.sink_applyEach]
    simp only [RelayController.sink_applyEach, List.nil_append]
  refine ⟨?_, fun drive hdrive ↦ ?_⟩
  · by_cases hrecord : IsRecord (((kv.blobs kKey).getD []).take kRecordSize)
    · cases hstored : kv.blobs kKey with
      | none => simp [hstored, IsRecord] at hrecord
      | some blob =>
        rw [hstored, Option.getD_some] at hrecord
        refine .inl ⟨blob, rfl, hrecord, fun channel hpresent ↦ ?_⟩
        rw [hstate channel hpresent, bootTarget_eq, hstored, Option.getD_some, if_pos hrecord]
        exact recordState_take_eq_on_iff blob (lt_of_lt_of_le hpresent hcount.2)
    · refine .inr ⟨fun blob hstored ↦ ?_, fun channel hpresent ↦ ?_⟩
      · rwa [hstored] at hrecord
      · rw [hstate channel hpresent, bootTarget_eq, if_neg hrecord]
  · rw [hdrives] at hdrive
    rcases List.mem_append.mp hdrive with hoff | htarget
    · obtain ⟨channel, hpresent, rfl⟩ := List.mem_map.mp hoff
      exact ⟨List.mem_range.mp hpresent, nofun⟩
    · obtain ⟨channel, hpresent, rfl⟩ := List.mem_map.mp htarget
      refine ⟨List.mem_range.mp hpresent, fun hon ↦ ?_⟩
      rw [hstate channel (List.mem_range.mp hpresent)]
      exact hon

/-- A store that holds one blob under the key of the relay states. -/
def storing (blob : Bytes) : KvMap := ⟨fun key ↦ if key = kKey then some blob else none⟩

/-- A record of all channels on, with one more byte behind it. -/
def longerBlob : Bytes := (pack { channel := fun _ ↦ .on }).toBytes ++ [0]

theorem boot_restores_or_off_witness :
    ((∃ blob, (storing longerBlob).blobs kKey = some blob ∧ IsRecord (blob.take 12) ∧
        ∀ channel < 4, ((bootFrom (storing longerBlob) 4).state channel = .on ↔
          blob.getD (5 + channel) 0 ≠ 0)) ∨
      ((∀ blob, (storing longerBlob).blobs kKey = some blob → ¬ IsRecord (blob.take 12)) ∧
        ∀ channel < 4, (bootFrom (storing longerBlob) 4).state channel = .off)) ∧
    ∀ drive ∈ (bootFrom (storing longerBlob) 4).sink, drive.1 < 4 ∧
      (drive.2 = .on → (bootFrom (storing longerBlob) 4).state drive.1 = .on) :=
  boot_restores_or_off (storing longerBlob) 4 (by decide)

/-- A blob longer than a record is not a record, and yet a boot from it turns a relay on: the read
stops at twelve bytes. -/
theorem boot_accepts_longer_blob :
    ¬ ((IsRecord longerBlob ∧ ∀ channel < 1,
        ((bootFrom (storing longerBlob) 1).state channel = .on ↔
        longerBlob.getD (5 + channel) 0 ≠ 0)) ∨
      ∀ channel < 1, (bootFrom (storing longerBlob) 1).state channel = .off) := by
  rintro (⟨hrecord, -⟩ | hoff)
  · exact absurd hrecord.1 (by decide)
  · have hon : (bootFrom (storing longerBlob) 1).state 0 = .on := by decide +kernel
    rw [hoff 0 (by decide)] at hon
    exact absurd hon (by decide)

end FlashDbStatePersistence

end LibreSwitch.Adapters
