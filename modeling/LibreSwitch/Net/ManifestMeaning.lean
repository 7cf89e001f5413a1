import Mathlib.Tactic
import LibreSwitch.Net.OtaManifest

/-!
# What a valid manifest means

A valid manifest should say what its payload says: each field is the last value of its key
(`Says`), and a payload whose last values are not all good is not valid (`Sound`). The numbers of
`size` and `ch` are read in 32 bits, and up to ten digits of them, so a number from 2^32 on is read
as another one. `parse_says_iff` shows that this is the only exception.
-/

set_option autoImplicit false
set_option relaxedAutoImplicit false

namespace LibreSwitch.Net.OtaManifestCodec

open LibreSwitch.Library LibreSwitch.Domain

/-- Every field is the last value of its key. -/
structure Says (payload : Bytes) (manifest : OtaManifest) : Prop where
  url : ∃ value, LastValue (ascii "url") payload value ∧ HoldsText manifest.url value
  sig : ∃ value, LastValue (ascii "sig") payload value ∧ HoldsText manifest.sigB64 value
  hw : ∃ value, LastValue (ascii "hw") payload value ∧ HoldsText manifest.hwFamily value
  ver : ∃ value, LastValue (ascii "ver") payload value ∧ VersionText value manifest.version
  ch : ∃ value, LastValue (ascii "ch") payload value ∧ Spells value manifest.hwChannels
  size : ∃ value, LastValue (ascii "size") payload value ∧ Spells value manifest.sizeBytes.toNat

/-- Every last value fits its field: no text is too long, no value malformed and no number out of
range. -/
structure Sound (payload : Bytes) : Prop where
  url : ∀ value, LastValue (ascii "url") payload value → value.length < 160
  sig : ∀ value, LastValue (ascii "sig") payload value → value.length < 120
  hw : ∀ value, LastValue (ascii "hw") payload value → value.length < 40
  ver : ∀ value, LastValue (ascii "ver") payload value → ∃ version, VersionText value version
  ch : ∀ value, LastValue (ascii "ch") payload value → ∃ n ≤ kMaxChannels, Numeral value n
  size : ∀ value, LastValue (ascii "size") payload value → ∃ n < 2 ^ 32, Numeral value n

/-- The last numbers of `size` and `ch` have 32 bits. -/
def InRange (payload : Bytes) : Prop :=
  ∀ value, LastValue (ascii "size") payload value ∨ LastValue (ascii "ch") payload value →
    decimalValue value < 2 ^ 32

/-- A property of one last value of a key is one of all. -/
theorem LastValue.of_exists {key payload : Bytes} {Good : Bytes → Prop} (hkey : IsKey key)
    (hgood : ∃ value, LastValue key payload value ∧ Good value) :
    ∀ value, LastValue key payload value → Good value := by
  obtain ⟨value, hlast, hvalue⟩ := hgood
  exact fun value' hlast' ↦ hlast.unique hkey hlast' ▸ hvalue

/-- With its numbers in range, an acceptable payload is sound. -/
theorem Acceptable.sound {payload : Bytes} (haccept : Acceptable payload)
    (hrange : InRange payload) : Sound payload where
  url := LastValue.of_exists (by decide) haccept.url
  sig := LastValue.of_exists (by decide) haccept.sig
  hw := LastValue.of_exists (by decide) haccept.hw
  ver := LastValue.of_exists (by decide) haccept.ver
  ch := by
    intro value hlast
    obtain ⟨n, hnumeral, -, hmax⟩ := LastValue.of_exists (by decide) haccept.ch value hlast
    have hn : n < 2 ^ 32 := hnumeral.2.value_eq ▸ hrange value (.inr hlast)
    exact ⟨n, Nat.mod_eq_of_lt hn ▸ hmax, hnumeral⟩
  size := by
    intro value hlast
    obtain ⟨n, hnumeral⟩ := LastValue.of_exists (by decide) haccept.size value hlast
    exact ⟨n, hnumeral.2.value_eq ▸ hrange value (.inl hlast), hnumeral⟩

/-- With its numbers in range, an acceptable payload is what its manifest says. -/
theorem Acceptable.says {payload : Bytes} (haccept : Acceptable payload)
    (hrange : InRange payload) : Says payload (parse payload) := by
  obtain ⟨url, hurl, hurlFits⟩ := haccept.url
  obtain ⟨sig, hsig, hsigFits⟩ := haccept.sig
  obtain ⟨hw, hhw, hhwFits⟩ := haccept.hw
  obtain ⟨ver, hver, version, hversion⟩ := haccept.ver
  obtain ⟨ch, hch, channels, hchannels, -, hmax⟩ := haccept.ch
  obtain ⟨size, hsize, n, hn⟩ := haccept.size
  have hchannelsLt : channels < 2 ^ 32 := hchannels.2.value_eq ▸ hrange ch (.inr hch)
  have hnLt : n < 2 ^ 32 := hn.2.value_eq ▸ hrange size (.inl hsize)
  have hsmall : channels % 2 ^ 32 ≤ 255 := hmax.trans (by decide)
  have hword : (UInt32.ofNat n).toNat = n % 2 ^ 32 := UInt32.toNat_ofNat'
  rw [parse_eq haccept.length_pos haccept.length_le]
  refine ⟨⟨url, hurl, ?_⟩, ⟨sig, hsig, ?_⟩, ⟨hw, hhw, ?_⟩, ⟨ver, hver, ?_⟩, ⟨ch, hch, ?_⟩,
    ⟨size, hsize, ?_⟩⟩
  · exact text_read (by decide) Parsing.owns_url hurl hurlFits {}
  · exact text_read (by decide) Parsing.owns_sig hsig hsigFits {}
  · exact text_read (by decide) Parsing.owns_hw hhw hhwFits {}
  · have hfield : (({} : Parsing).parseLoop payload).m.version = version :=
      value_read (by decide) Parsing.owns_ver hver (parseVer_eq_some_iff.mpr hversion) {}
    exact hfield.symm ▸ hversion
  · have hfield : (({} : Parsing).parseLoop payload).m.hwChannels = channels % 2 ^ 32 :=
      value_read (by decide) Parsing.owns_ch hch
        (parseU8_eq_some_iff.mpr ⟨hchannels.1, hsmall, channels, hchannels.2, rfl⟩) {}
    rw [Nat.mod_eq_of_lt hchannelsLt] at hfield
    exact hfield.symm ▸ hchannels.2
  · have hfield : (({} : Parsing).parseLoop payload).m.sizeBytes = .ofNat n :=
      value_read (by decide) Parsing.owns_size hsize
        (parseU32_eq_some_iff.mpr ⟨hn.1, n, hn.2, hword⟩) {}
    rw [Nat.mod_eq_of_lt hnLt] at hword
    exact (congrArg UInt32.toNat hfield).trans hword |>.symm ▸ hn.2

/-- A valid manifest says what its payload says, and no other payload is valid, exactly when a
payload that passes every check has its numbers below 2^32. -/
theorem parse_says_iff (payload : Bytes) :
    (((parse payload).valid = true → Says payload (parse payload)) ∧
      (¬ Sound payload → (parse payload).valid = false)) ↔
    (Acceptable payload → InRange payload) := by
  constructor
  · rintro ⟨-, hsound⟩ haccept
    have hvalid := (valid_iff payload).mpr haccept
    have hgood : Sound payload := by
      by_contra hnot
      exact absurd (hsound hnot) (by rw [hvalid]; decide)
    rintro value (hlast | hlast)
    · obtain ⟨n, hn, hnumeral⟩ := hgood.size value hlast
      exact hnumeral.2.value_eq.symm ▸ hn
    · obtain ⟨n, hn, hnumeral⟩ := hgood.ch value hlast
      exact hnumeral.2.value_eq.symm ▸ hn.trans_lt (by decide)
  · intro hrange
    constructor
    · intro hvalid
      have haccept := (valid_iff payload).mp hvalid
      exact haccept.says (hrange haccept)
    · intro hnot
      by_contra hvalid
      have haccept := (valid_iff payload).mp (Bool.not_eq_false _ ▸ hvalid)
      exact hnot (haccept.sound (hrange haccept))

/-- A manifest with a size of 2^32 + 1 is valid, for an image of one byte. -/
theorem parse_wraps :
    ¬ ∀ payload, ((parse payload).valid = true → Says payload (parse payload)) ∧
      (¬ Sound payload → (parse payload).valid = false) := by
  intro hall
  obtain ⟨payload, hpayload⟩ : ∃ payload, payload =
    ascii "url=u;ver=1.2.3;sig=s;hw=h;ch=4;size=4294967297" := ⟨_, rfl⟩
  have hlast : LastValue (ascii "size") payload (ascii "4294967297") := by
    refine ⟨by decide, (tokens payload).take 5, [], by rw [hpayload]; decide, by simp⟩
  have hparse : (parse payload).valid = true ∧ (parse payload).sizeBytes = 1 := by
    rw [parse_eq (by rw [hpayload]; decide) (by rw [hpayload]; decide), parseLoop_eq_foldl,
      hpayload]
    decide
  obtain ⟨value, hvalue, hspells⟩ := ((hall payload).1 hparse.1).size
  rw [hvalue.unique (by decide) hlast, hparse.2] at hspells
  exact absurd hspells.value_eq (by decide)

end LibreSwitch.Net.OtaManifestCodec
