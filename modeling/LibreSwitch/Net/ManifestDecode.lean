import Mathlib.Tactic
import LibreSwitch.Net.OtaManifest

/-!
# Decoding a rendered manifest

A manifest can be written down in many ways: its tokens in any order, any of the four separators
between them, empty tokens and tokens of unknown keys among them, and the downgrade flag left out
when it is not set (`Renders`). In each of them every key of the manifest has one value, so that is
the last one, and `parse` gives the manifest back (`parse_of_renders`).
-/

set_option autoImplicit false
set_option relaxedAutoImplicit false

namespace LibreSwitch.Net.OtaManifestCodec

open LibreSwitch.Library LibreSwitch.Domain

/-! ### Renderings -/

/-- A text of a given size at most, without separators and zero bytes. -/
structure FieldText (limit : ℕ) (text : Bytes) : Prop where
  length_pos : 1 ≤ text.length
  length_le : text.length ≤ limit
  no_separator : ∀ byte ∈ text, isSeparator byte = false
  no_zero : (0 : UInt8) ∉ text

/-- The field values of a manifest. -/
structure FieldValues where
  url : Bytes
  sig : Bytes
  hw : Bytes
  version : FwVersion
  channels : ℕ
  size : UInt32
  dg : Bool
  url_text : FieldText 159 url
  sig_text : FieldText 119 sig
  hw_text : FieldText 39 hw
  channels_pos : 1 ≤ channels
  channels_le : channels ≤ kMaxChannels

/-- A version as text. -/
def versionText (version : FwVersion) : Bytes :=
  decimal version.major.toNat ++
    46 :: (decimal version.minor.toNat ++ 46 :: decimal version.patch.toNat)

/-- The keys and values of the required fields. -/
def FieldValues.required (values : FieldValues) : List (Bytes × Bytes) :=
  [(ascii "url", values.url), (ascii "ver", versionText values.version),
    (ascii "sig", values.sig), (ascii "hw", values.hw), (ascii "ch", decimal values.channels),
    (ascii "size", decimal values.size.toNat)]

/-- The downgrade flag, which may be left out when it is not set. -/
def IsFlag (dg : Bool) (flag : List (Bytes × Bytes)) : Prop :=
  flag = [(ascii "dg", ascii (if dg then "1" else "0"))] ∨ dg = false ∧ flag = []

def knownKeys : List Bytes :=
  [ascii "url", ascii "ver", ascii "sig", ascii "hw", ascii "ch", ascii "size", ascii "dg"]

/-- A token as it is written. -/
def tokenOf (entry : Bytes × Bytes) : Bytes := entry.1 ++ 61 :: entry.2

/-- A token of no known key; it may be empty. -/
structure Ignored (token : Bytes) : Prop where
  no_separator : ∀ byte ∈ token, isSeparator byte = false
  unknown : ∀ key ∈ knownKeys, ¬ key ++ [61] <+: token

/-- Tokens with a separator before each but the first. -/
def joinTokens (first : Bytes) (rest : List (UInt8 × Bytes)) : Bytes :=
  first ++ rest.flatMap fun part ↦ part.1 :: part.2

/-- The payload is the tokens of the manifest and some ignored ones, in any order and with any
separators. -/
def Renders (values : FieldValues) (payload : Bytes) : Prop :=
  ∃ first rest flag ignored, payload = joinTokens first rest ∧
    (∀ part ∈ rest, isSeparator part.1 = true) ∧ IsFlag values.dg flag ∧
    (∀ token ∈ ignored, Ignored token) ∧
    (first :: rest.map Prod.snd).Perm ((values.required ++ flag).map tokenOf ++ ignored)

/-! ### The entries of a rendering -/

/-- Joined tokens are split where they were joined. -/
theorem tokens_joinTokens {first : Bytes} {rest : List (UInt8 × Bytes)}
    (hseparators : ∀ part ∈ rest, isSeparator part.1 = true)
    (htokens : ∀ token ∈ first :: rest.map Prod.snd, ∀ byte ∈ token, isSeparator byte = false) :
    tokens (joinTokens first rest) = first :: rest.map Prod.snd := by
  induction rest generalizing first with
  | nil =>
    rw [joinTokens, List.flatMap_nil, List.append_nil, tokens,
      List.splitOnP_eq_singleton (htokens first (by simp))]
    rfl
  | cons part rest ih =>
    have hjoin : joinTokens first (part :: rest) = first ++ part.1 :: joinTokens part.2 rest := rfl
    have hrest : tokens (joinTokens part.2 rest) = part.2 :: rest.map Prod.snd :=
      ih (fun other hother ↦ hseparators other (by simp [hother]))
        fun token htoken ↦ htokens token (List.mem_cons_of_mem _ htoken)
    rw [hjoin, tokens, List.splitOnP_append_cons_of_forall_mem (htokens first (by simp)) part.1
      (hseparators part (by simp))]
    exact congrArg (first :: ·) hrest

theorem isSeparator_of_isDigit {byte : UInt8} (hdigit : isDigit byte = true) :
    isSeparator byte = false := by
  by_contra hseparator
  simp only [isSeparator, Bool.not_eq_false, Bool.or_eq_true, decide_eq_true_eq] at hseparator
  obtain ((rfl | rfl) | rfl) | rfl := hseparator <;> exact absurd hdigit (by decide)

theorem no_separator_of_all {text : Bytes} (hall : text.all (! isSeparator ·) = true) :
    ∀ byte ∈ text, isSeparator byte = false :=
  fun byte hbyte ↦ by simpa using List.all_eq_true.mp hall byte hbyte

/-- What a rendered entry is like. -/
structure Writable (entry : Bytes × Bytes) : Prop where
  key_mem : entry.1 ∈ knownKeys
  value_ne : entry.2 ≠ []
  no_separator : ∀ byte ∈ entry.2, isSeparator byte = false

theorem isKey_of_mem {key : Bytes} (hkey : key ∈ knownKeys) : IsKey key :=
  (by decide : ∀ key ∈ knownKeys, IsKey key) key hkey

namespace Writable

variable {entry : Bytes × Bytes}

theorem of_fieldText {key value : Bytes} {limit : ℕ} (hkey : key ∈ knownKeys)
    (hvalue : FieldText limit value) : Writable (key, value) :=
  ⟨hkey, List.ne_nil_of_length_pos hvalue.length_pos, hvalue.no_separator⟩

theorem of_decimal {key : Bytes} (hkey : key ∈ knownKeys) (n : ℕ) : Writable (key, decimal n) :=
  ⟨hkey, decimal_ne_nil n, fun _ hbyte ↦ isSeparator_of_isDigit (isDigit_of_mem_decimal hbyte)⟩

theorem of_version {key : Bytes} (hkey : key ∈ knownKeys) (version : FwVersion) :
    Writable (key, versionText version) := by
  refine ⟨hkey, by simp [versionText], fun byte hbyte ↦ ?_⟩
  simp only [versionText, List.mem_append, List.mem_cons] at hbyte
  obtain hmajor | rfl | hminor | rfl | hpatch := hbyte
  · exact isSeparator_of_isDigit (isDigit_of_mem_decimal hmajor)
  · decide
  · exact isSeparator_of_isDigit (isDigit_of_mem_decimal hminor)
  · decide
  · exact isSeparator_of_isDigit (isDigit_of_mem_decimal hpatch)

theorem token_no_separator (hentry : Writable entry) :
    ∀ byte ∈ tokenOf entry, isSeparator byte = false := by
  have hkeys : ∀ key ∈ knownKeys, key.all (! isSeparator ·) = true := by decide
  intro byte hbyte
  obtain hkey | hvalue := List.mem_append.mp hbyte
  · exact no_separator_of_all (hkeys _ hentry.key_mem) byte hkey
  · obtain rfl | hvalue := List.mem_cons.mp hvalue
    · decide
    · exact hentry.no_separator byte hvalue

theorem keyValue_tokenOf (hentry : Writable entry) : keyValue (tokenOf entry) = some entry :=
  (isKey_of_mem hentry.key_mem).keyValue_eq hentry.value_ne

end Writable

theorem FieldValues.writable (values : FieldValues) {flag : List (Bytes × Bytes)}
    (hflag : IsFlag values.dg flag) : ∀ entry ∈ values.required ++ flag, Writable entry := by
  intro entry hentry
  obtain hrequired | hmem := List.mem_append.mp hentry
  · simp only [required, List.mem_cons, List.not_mem_nil, or_false] at hrequired
    obtain rfl | rfl | rfl | rfl | rfl | rfl := hrequired
    · exact .of_fieldText (by decide) values.url_text
    · exact .of_version (by decide) values.version
    · exact .of_fieldText (by decide) values.sig_text
    · exact .of_fieldText (by decide) values.hw_text
    · exact .of_decimal (by decide) _
    · exact .of_decimal (by decide) _
  · obtain rfl | ⟨-, rfl⟩ := hflag
    · obtain rfl := List.mem_singleton.mp hmem
      cases values.dg with
      | true => exact ⟨by decide, by decide, no_separator_of_all (by decide)⟩
      | false => exact ⟨by decide, by decide, no_separator_of_all (by decide)⟩
    · cases hmem

/-- No key is rendered twice. -/
theorem FieldValues.nodup_keys (values : FieldValues) {flag : List (Bytes × Bytes)}
    (hflag : IsFlag values.dg flag) : ((values.required ++ flag).map Prod.fst).Nodup := by
  obtain rfl | ⟨-, rfl⟩ := hflag
  · exact (by decide : knownKeys.Nodup)
  · exact (by decide : knownKeys.dropLast.Nodup)

/-- The entries of a rendering with a known key are those of the manifest. -/
theorem Renders.exists_flag {values : FieldValues} {payload : Bytes}
    (hrenders : Renders values payload) :
    ∃ flag, IsFlag values.dg flag ∧ ∀ key ∈ knownKeys, ∀ value,
      (key, value) ∈ entries payload ↔ (key, value) ∈ values.required ++ flag := by
  obtain ⟨first, rest, flag, ignored, rfl, hseparators, hflag, hignored, hperm⟩ := hrenders
  have hwritable := values.writable hflag
  have hclean : ∀ token ∈ first :: rest.map Prod.snd, ∀ byte ∈ token, isSeparator byte = false := by
    intro token htoken
    obtain hours | hother := List.mem_append.mp (hperm.mem_iff.mp htoken)
    · obtain ⟨entry, hentry, rfl⟩ := List.mem_map.mp hours
      exact (hwritable entry hentry).token_no_separator
    · exact (hignored token hother).no_separator
  refine ⟨flag, hflag, fun key hkey value ↦ ?_⟩
  rw [entries, tokens_joinTokens hseparators hclean, List.mem_filterMap]
  constructor
  · rintro ⟨token, htoken, hsplit⟩
    obtain hours | hother := List.mem_append.mp (hperm.mem_iff.mp htoken)
    · obtain ⟨entry, hentry, rfl⟩ := List.mem_map.mp hours
      rw [(hwritable entry hentry).keyValue_tokenOf] at hsplit
      exact Option.some.inj hsplit ▸ hentry
    · obtain ⟨-, -, -, rfl⟩ := keyValue_eq_some_iff.mp hsplit
      exact absurd ⟨value, by simp⟩ ((hignored _ hother).unknown key hkey)
  · intro hentry
    exact ⟨_, hperm.mem_iff.mpr (List.mem_append_left _ (List.mem_map_of_mem hentry)),
      (hwritable _ hentry).keyValue_tokenOf⟩

/-- The value of each required key is the last one. -/
theorem Renders.lastValue {values : FieldValues} {payload : Bytes}
    (hrenders : Renders values payload) :
    ∀ entry ∈ values.required, LastValue entry.1 payload entry.2 := by
  obtain ⟨flag, hflag, hentries⟩ := hrenders.exists_flag
  intro entry hentry
  have hmem : entry ∈ values.required ++ flag := List.mem_append_left _ hentry
  have hkey := (values.writable hflag entry hmem).key_mem
  refine (isKey_of_mem hkey).lastValue_iff.mpr (lastEntry_of_only ?_ fun other hother ↦ ?_)
  · exact (hentries _ hkey _).mpr hmem
  · exact congrArg Prod.snd <| List.inj_on_of_nodup_map (values.nodup_keys hflag)
      ((hentries _ hkey _).mp hother) hmem rfl

/-- The downgrade flag is read as it was rendered, or left out. -/
theorem Renders.allowDowngrade_eq {values : FieldValues} {payload : Bytes}
    (hrenders : Renders values payload) :
    (({} : Parsing).parseLoop payload).m.allowDowngrade = values.dg := by
  obtain ⟨flag, hflag, hentries⟩ := hrenders.exists_flag
  have hdg := hentries (ascii "dg") (by decide)
  have hkeys : values.required.map Prod.fst = knownKeys.dropLast := rfl
  have hrequired (value : Bytes) : (ascii "dg", value) ∉ values.required := by
    intro hmem
    have hkey := List.mem_map_of_mem (f := Prod.fst) hmem
    rw [hkeys] at hkey
    exact absurd hkey (by decide : ascii "dg" ∉ knownKeys.dropLast)
  simp only [List.mem_append, hrequired, false_or] at hdg
  rw [parseLoop_eq_runEntries]
  obtain rfl | ⟨hunset, rfl⟩ := hflag
  · have hlast : LastEntry (entries payload) (ascii "dg")
        (ascii (if values.dg then "1" else "0")) :=
      lastEntry_of_only ((hdg _).mpr (by simp)) fun other hother ↦ by
        simpa using (hdg other).mp hother
    obtain ⟨_, hheld⟩ := Parsing.owns_dg.run_last hlast {}
    rw [hheld]
    cases values.dg <;> decide
  · have habsent : ∀ entry ∈ entries payload, entry.1 ≠ ascii "dg" := by
      rintro ⟨key, value⟩ hentry rfl
      exact List.not_mem_nil ((hdg value).mp hentry)
    exact (Parsing.owns_dg.run_absent habsent {}).trans hunset.symm

theorem versionText_spec (version : FwVersion) : VersionText (versionText version) version :=
  ⟨_, _, _, rfl, spells_decimal _, spells_decimal _, spells_decimal _⟩

theorem numeral_decimal {n : ℕ} (hn : n < 2 ^ 32) : Numeral (decimal n) n :=
  ⟨length_decimal_le (by norm_num) (hn.trans (by norm_num)), spells_decimal n⟩

theorem LastValue.length_pos {key payload value : Bytes} (hkey : IsKey key)
    (hlast : LastValue key payload value) : 1 ≤ payload.length := by
  obtain ⟨before, after, hentries, -⟩ := hkey.lastValue_iff.mp hlast
  refine List.length_pos_of_ne_nil ?_
  rintro rfl
  have hnone : entries [] = [] := by decide
  rw [hnone] at hentries
  simp at hentries

theorem holdsString_of_holdsText {buffer text : Bytes} {limit : ℕ} (htext : FieldText limit text)
    (hholds : HoldsText buffer text) : HoldsString buffer text := by
  obtain ⟨rest, rfl⟩ := hholds
  exact ⟨by simp, cString_append_zero htext.no_zero rest⟩

/-- Every rendering of a manifest that fits the bound of the payload is read as that manifest. -/
theorem parse_of_renders {values : FieldValues} {payload : Bytes}
    (hrenders : Renders values payload) (hlength : payload.length ≤ 1024) :
    (parse payload).valid = true ∧ HoldsString (parse payload).url values.url ∧
      HoldsString (parse payload).sigB64 values.sig ∧
      HoldsString (parse payload).hwFamily values.hw ∧
      (parse payload).version = values.version ∧ (parse payload).hwChannels = values.channels ∧
      (parse payload).sizeBytes = values.size ∧
      (parse payload).allowDowngrade = values.dg := by
  have hlast := hrenders.lastValue
  simp only [FieldValues.required, List.forall_mem_cons] at hlast
  obtain ⟨hurl, hver, hsig, hhw, hch, hsize, -⟩ := hlast
  have hchannels : values.channels < 2 ^ 32 := values.channels_le.trans_lt (by decide)
  have hmod : values.channels % 2 ^ 32 = values.channels := Nat.mod_eq_of_lt hchannels
  have hurlFits := Nat.lt_succ_of_le values.url_text.length_le
  have hsigFits := Nat.lt_succ_of_le values.sig_text.length_le
  have hhwFits := Nat.lt_succ_of_le values.hw_text.length_le
  have hversion := versionText_spec values.version
  have haccept : Acceptable payload :=
    ⟨hurl.length_pos (by decide), hlength, ⟨_, hurl, hurlFits⟩, ⟨_, hsig, hsigFits⟩,
      ⟨_, hhw, hhwFits⟩, ⟨_, hver, _, hversion⟩,
      ⟨_, hch, _, numeral_decimal hchannels, by rw [hmod]; exact values.channels_pos,
        by rw [hmod]; exact values.channels_le⟩,
      ⟨_, hsize, _, numeral_decimal values.size.toNat_lt⟩⟩
  refine ⟨(valid_iff payload).mpr haccept, ?_⟩
  rw [parse_eq haccept.length_pos hlength]
  refine ⟨holdsString_of_holdsText values.url_text ?_, holdsString_of_holdsText values.sig_text ?_,
    holdsString_of_holdsText values.hw_text ?_, ?_, ?_, ?_, hrenders.allowDowngrade_eq⟩
  · exact text_read (by decide) Parsing.owns_url hurl hurlFits {}
  · exact text_read (by decide) Parsing.owns_sig hsig hsigFits {}
  · exact text_read (by decide) Parsing.owns_hw hhw hhwFits {}
  · exact value_read (by decide) Parsing.owns_ver hver (parseVer_eq_some_iff.mpr hversion) {}
  · have hsmall : values.channels ≤ 255 := values.channels_le.trans (by decide)
    obtain ⟨hdigits, hspells⟩ := numeral_decimal hchannels
    exact value_read (by decide) Parsing.owns_ch hch
      (parseU8_eq_some_iff.mpr ⟨hdigits, hsmall, _, hspells, hmod.symm⟩) {}
  · obtain ⟨hdigits, hspells⟩ := numeral_decimal values.size.toNat_lt
    exact value_read (by decide) Parsing.owns_size hsize
      (parseU32_eq_some_iff.mpr ⟨hdigits, _, hspells,
        (Nat.mod_eq_of_lt values.size.toNat_lt).symm⟩) {}

/-- A manifest with a padded signature and the downgrade flag. -/
def paddedValues : FieldValues where
  url := ascii "https://h/fw.uf2"
  sig := ascii "QUI="
  hw := ascii "bk7231n.relay_touch"
  version := ⟨1, 2, 3⟩
  channels := 4
  size := 123456
  dg := true
  url_text := ⟨by decide, by decide, no_separator_of_all (by decide), by decide⟩
  sig_text := ⟨by decide, by decide, no_separator_of_all (by decide), by decide⟩
  hw_text := ⟨by decide, by decide, no_separator_of_all (by decide), by decide⟩
  channels_pos := by decide
  channels_le := by decide

/-- Its tokens in another order, with all four separators, an unknown key and two empty tokens. -/
def paddedPayload : Bytes :=
  ascii "size=123456&&x=1\nsig=QUI=;hw=bk7231n.relay_touch;ch=4\rver=1.2.3;" ++
    ascii "dg=1;url=https://h/fw.uf2;"

theorem paddedPayload_renders : Renders paddedValues paddedPayload := by
  refine ⟨ascii "size=123456", [(38, []), (38, ascii "x=1"), (10, ascii "sig=QUI="),
    (59, ascii "hw=bk7231n.relay_touch"), (59, ascii "ch=4"), (13, ascii "ver=1.2.3"),
    (59, ascii "dg=1"), (59, ascii "url=https://h/fw.uf2"), (59, [])],
    [(ascii "dg", ascii "1")], [[], ascii "x=1", []], by decide, by decide, .inl rfl, ?_, by decide⟩
  intro token htoken
  simp only [List.mem_cons, List.not_mem_nil, or_false] at htoken
  obtain rfl | rfl | rfl := htoken
  · exact ⟨no_separator_of_all (by decide), by decide⟩
  · exact ⟨no_separator_of_all (by decide), by decide⟩
  · exact ⟨no_separator_of_all (by decide), by decide⟩

theorem parse_of_renders_witness :
    (parse paddedPayload).valid = true ∧ HoldsString (parse paddedPayload).sigB64 (ascii "QUI=") ∧
      (parse paddedPayload).sizeBytes = 123456 ∧ (parse paddedPayload).allowDowngrade = true := by
  obtain ⟨hvalid, -, hsig, -, -, -, hsize, hdg⟩ :=
    parse_of_renders paddedPayload_renders (by decide)
  exact ⟨hvalid, hsig, hsize, hdg⟩

end LibreSwitch.Net.OtaManifestCodec
