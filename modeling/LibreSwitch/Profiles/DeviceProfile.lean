import Mathlib.Tactic
import LibreSwitch.Library.ByteString
import LibreSwitch.Domain.RelayController

/-!
# Device profiles

`DeviceProfile` of `profiles/device_profile.h`, the registry of `profiles/profile_registry.h` with
its default pins, and the lookup of `profiles/profile_resolver.h`. A profile maps the channels of
one hardware variant to pins and carries the hardware-compatibility family an over-the-air image
is checked against. The family is a C string, kept here as its bytes without the terminator.

`ProfileResolver.hwCompatMatches_iff` is the specification of the check, and `kProfiles_pins` says
that the registered pin maps are real and free of conflicts.
-/

set_option autoImplicit false
set_option relaxedAutoImplicit false

namespace LibreSwitch.Profiles

open LibreSwitch.Library LibreSwitch.Domain

/-- `kNoPin`: the sentinel of an unused slot. -/
def kNoPin : UInt8 := 0xFF

/-- `ChannelMap`. -/
structure ChannelMap where
  relayPin : UInt8 := kNoPin
  touchPin : UInt8 := kNoPin
  deriving DecidableEq, Repr

/-- `ProfileId`. -/
inductive ProfileId
  | switch1G
  | switch2G
  | switch3G
  | switch4G
  deriving DecidableEq, Repr

/-- `DeviceProfile`, as far as the firmware reads it. -/
structure DeviceProfile where
  id : ProfileId
  channelCount : ℕ
  channels : ℕ → ChannelMap
  hwCompatFamily : Bytes

/-- `kHwFamily`. -/
def kHwFamily : Bytes := ascii "bk7231n.relay_touch"

def kRefCh0 : ChannelMap := ⟨6, 24⟩
def kRefCh1 : ChannelMap := ⟨8, 20⟩
def kRefCh2 : ChannelMap := ⟨9, 7⟩
def kRefCh3 : ChannelMap := ⟨26, 14⟩

/-- The slots of a channel array whose initializer lists the given maps. -/
def slots (maps : List ChannelMap) (channel : ℕ) : ChannelMap :=
  maps.getD channel {}

def kSwitch4G : DeviceProfile :=
  ⟨.switch4G, 4, slots [kRefCh0, kRefCh1, kRefCh2, kRefCh3], kHwFamily⟩

def kSwitch3G : DeviceProfile := ⟨.switch3G, 3, slots [kRefCh0, kRefCh1, kRefCh2], kHwFamily⟩

def kSwitch2G : DeviceProfile := ⟨.switch2G, 2, slots [kRefCh0, kRefCh1], kHwFamily⟩

def kSwitch1G : DeviceProfile := ⟨.switch1G, 1, slots [kRefCh0], kHwFamily⟩

def kProfiles : List DeviceProfile := [kSwitch1G, kSwitch2G, kSwitch3G, kSwitch4G]

namespace ProfileResolver

/-- `resolve`: the registered profile of an id. -/
def resolve (id : ProfileId) : Option DeviceProfile :=
  kProfiles.find? fun profile ↦ profile.id = id

/-- `resolveRaw`: validates the stored byte first. -/
def resolveRaw (rawId : UInt8) : Option DeviceProfile :=
  match rawId with
  | 1 => resolve .switch1G
  | 2 => resolve .switch2G
  | 3 => resolve .switch3G
  | 4 => resolve .switch4G
  | _ => none

/-- `cstrEqual`: compares two C strings held in byte lists, where the end of a list stands for
the terminator. -/
def cstrEqual : Bytes → Bytes → Bool
  | [], [] => true
  | [], b :: _ => b = 0
  | a :: _, [] => a = 0
  | a :: as, b :: bs => if a ≠ 0 ∧ a = b then cstrEqual as bs else a = b

/-- `hwCompatMatches`. -/
def hwCompatMatches (profile : DeviceProfile) (imageFamily : Bytes)
    (imageChannelCount : ℕ) : Bool :=
  if imageChannelCount ≠ profile.channelCount then false
  else cstrEqual imageFamily profile.hwCompatFamily

/-- `cstrEqual` compares the C strings. -/
theorem cstrEqual_iff (first second : Bytes) :
    cstrEqual first second = true ↔ cString first = cString second := by
  induction first generalizing second with
  | nil => cases second <;> simp [cstrEqual, cString, List.takeWhile_cons]
  | cons a as ih =>
    cases second with
    | nil => simp [cstrEqual, cString, List.takeWhile_cons]
    | cons b bs =>
      by_cases hzero : a = 0
      · subst hzero
        by_cases hb : b = 0
        · simp [cstrEqual, cString, hb]
        · simp [cstrEqual, cString, hb, Ne.symm hb]
      · by_cases hsame : a = b
        · subst hsame
          have hstep := ih bs
          simp only [cString] at hstep
          simp [cstrEqual, cString, hzero, hstep]
        · by_cases hb : b = 0
          · simp [cstrEqual, cString, hzero, hb]
          · simp [cstrEqual, cString, hzero, hsame, hb]

/-- An image fits the device when the channel counts and the family strings are equal. -/
theorem hwCompatMatches_iff (profile : DeviceProfile) (imageFamily : Bytes)
    (imageChannelCount : ℕ) : hwCompatMatches profile imageFamily imageChannelCount = true ↔
      imageChannelCount = profile.channelCount ∧
        cString imageFamily = cString profile.hwCompatFamily := by
  by_cases hcount : imageChannelCount = profile.channelCount
  · simp [hwCompatMatches, hcount, cstrEqual_iff]
  · simp [hwCompatMatches, hcount]

end ProfileResolver

/-- Every registered profile has between one and `kMaxChannels` channels, all of them with real
relay and touch pins, no two with the same relay pin. -/
theorem kProfiles_pins : ∀ profile ∈ kProfiles,
    (0 < profile.channelCount ∧ profile.channelCount ≤ kMaxChannels) ∧
      (∀ channel < profile.channelCount, (profile.channels channel).relayPin ≠ kNoPin ∧
        (profile.channels channel).touchPin ≠ kNoPin) ∧
      ∀ first < profile.channelCount, ∀ second < profile.channelCount,
        (profile.channels first).relayPin = (profile.channels second).relayPin →
          first = second := by
  decide

end LibreSwitch.Profiles
