import Mathlib.Tactic
import LibreSwitch.Library.KeyedUpdates
import LibreSwitch.Net.MqttTopics
import LibreSwitch.Net.OtaService

/-!
# The manifest codec

`OtaManifestCodec` of `net/ota_manifest.h`: `key=value` tokens between separators, each assigned to
the field of its key. A later token overwrites an earlier one of its key, and with the field the
flag that says whether the field is good; unknown keys, keys without a value and tokens without
`=` are passed over. The texts are copied into zeroed buffers.

`parseU32_eq_some_iff` and `parseVer_eq_some_iff` are the specifications of the number and version
readers. The loop over the payload is a run over its entries (`parseLoop_eq_runEntries`), in which
each field is owned by one key, so a field shows the last value of its key.
-/

set_option autoImplicit false
set_option relaxedAutoImplicit false

namespace LibreSwitch.Net.OtaManifestCodec

open LibreSwitch.Library LibreSwitch.Domain

/-! ### Values -/

/-- `copyTo`: the buffer afterwards, and whether the text fits it with its terminator. -/
def copyTo (dst : Bytes) (cap : ℕ) (v : Bytes) : Bytes × Bool :=
  if v.length + 1 > cap then (dst, false) else (v ++ 0 :: dst.drop (v.length + 1), true)

/-- `parseU32`, in the 32 bits of its number. -/
def parseU32 (v : Bytes) : Option UInt32 :=
  if v.length = 0 ∨ v.length > 10 then none
  else v.foldlM (fun r byte ↦ if isDigit byte then some (r * 10 + (byte.toUInt32 - 48)) else none) 0

/-- `parseU8`. -/
def parseU8 (v : Bytes) : Option ℕ :=
  match parseU32 v with
  | none => none
  | some r => if r > 255 then none else some r.toUInt8.toNat

/-- The variables of the loop of `parseVer`: the parts that are complete, the number of the next
one, and whether it has a digit. -/
structure VerScan where
  parts : List UInt32 := []
  cur : UInt32 := 0
  any : Bool := false

/-- One byte of a version. -/
def VerScan.read (scan : VerScan) (byte : UInt8) : Option VerScan :=
  if byte = 46 then
    if !scan.any || scan.parts.length ≥ 2 then none
    else some ⟨scan.parts ++ [scan.cur], 0, false⟩
  else if isDigit byte then
    let cur := scan.cur * 10 + (byte.toUInt32 - 48)
    if cur > 65535 then none else some { scan with cur := cur, any := true }
  else none

/-- `parseVer`. -/
def parseVer (v : Bytes) : Option FwVersion :=
  match v.foldlM VerScan.read {} with
  | none => none
  | some scan =>
    match scan.parts with
    | [major, minor] =>
      if scan.any then some ⟨major.toUInt16, minor.toUInt16, scan.cur.toUInt16⟩ else none
    | _ => none

/-! ### Tokens -/

/-- The bytes between tokens. -/
def isSeparator (byte : UInt8) : Bool := byte = 59 || byte = 38 || byte = 10 || byte = 13

/-- The key and the value of a token that has both. -/
def keyValue (token : Bytes) : Option (Bytes × Bytes) :=
  match token.dropWhile (· ≠ 61) with
  | [] => none
  | _ :: v =>
    if token.takeWhile (· ≠ 61) = [] ∨ v = [] then none else some (token.takeWhile (· ≠ 61), v)

/-- The variables of `parse`: the manifest and what it has so far. -/
structure Parsing where
  m : OtaManifest :=
    { url := zeroed 160 [], sigB64 := zeroed 120 [], hwFamily := zeroed 40 [] }
  haveUrl : Bool := false
  haveVer : Bool := false
  haveSig : Bool := false
  haveHw : Bool := false
  haveCh : Bool := false
  haveSize : Bool := false

namespace Parsing

/-- A value goes to the field of its key. -/
def assign (parsing : Parsing) (k v : Bytes) : Parsing :=
  if k = ascii "url" then
    let copied := copyTo parsing.m.url 160 v
    { parsing with m := { parsing.m with url := copied.1 }, haveUrl := copied.2 }
  else if k = ascii "sig" then
    let copied := copyTo parsing.m.sigB64 120 v
    { parsing with m := { parsing.m with sigB64 := copied.1 }, haveSig := copied.2 }
  else if k = ascii "hw" then
    let copied := copyTo parsing.m.hwFamily 40 v
    { parsing with m := { parsing.m with hwFamily := copied.1 }, haveHw := copied.2 }
  else if k = ascii "ver" then
    { parsing with
      m := { parsing.m with version := (parseVer v).getD parsing.m.version }
      haveVer := (parseVer v).isSome }
  else if k = ascii "ch" then
    { parsing with
      m := { parsing.m with hwChannels := (parseU8 v).getD parsing.m.hwChannels }
      haveCh := (parseU8 v).isSome }
  else if k = ascii "size" then
    { parsing with
      m := { parsing.m with sizeBytes := (parseU32 v).getD parsing.m.sizeBytes }
      haveSize := (parseU32 v).isSome }
  else if k = ascii "dg" then
    { parsing with m := { parsing.m with allowDowngrade := v.head? = some 49 } }
  else parsing

/-- One token. -/
def parseToken (parsing : Parsing) (token : Bytes) : Parsing :=
  match keyValue token with
  | none => parsing
  | some (k, v) => parsing.assign k v

/-- The loop of `parse`: the token up to the next separator, then what stands behind that. -/
def parseLoop (parsing : Parsing) (payload : Bytes) : Parsing :=
  if payload.length = 0 then parsing
  else
    (parsing.parseToken (payload.takeWhile (! isSeparator ·))).parseLoop
      ((payload.dropWhile (! isSeparator ·)).drop 1)
termination_by payload.length
decreasing_by
  have hdrop := (List.dropWhile_suffix (l := payload) (! isSeparator ·)).length_le
  rw [List.length_drop]
  omega

/-- Whether everything required was read. -/
def isValid (parsing : Parsing) : Bool :=
  parsing.haveUrl && parsing.haveVer && parsing.haveSig && parsing.haveHw && parsing.haveCh &&
    parsing.haveSize && 1 ≤ parsing.m.hwChannels && parsing.m.hwChannels ≤ kMaxChannels

end Parsing

/-- `parse`. -/
def parse (payload : Bytes) : OtaManifest :=
  if payload.length = 0 ∨ payload.length > 1024 then ({} : Parsing).m
  else
    let parsing := ({} : Parsing).parseLoop payload
    { parsing.m with valid := parsing.isValid }

/-! ### Reading numbers -/

/-- A guarded fold goes through if every byte passes the guard. -/
theorem foldlM_guard {σ : Type} (p : UInt8 → Bool) (f : σ → UInt8 → σ) (text : Bytes) (start : σ) :
    text.foldlM (fun r byte ↦ if p byte then some (f r byte) else none) start =
      if text.all p then some (text.foldl f start) else none := by
  induction text generalizing start with
  | nil => rfl
  | cons byte rest ih =>
    rw [List.foldlM_cons, List.all_cons, List.foldl_cons]
    cases p byte with
    | true => exact ih (f start byte)
    | false => rfl

/-- A number of at most ten digits is read modulo the width of the field. -/
theorem parseU32_eq_some_iff {v : Bytes} {r : UInt32} :
    parseU32 v = some r ↔ v.length ≤ 10 ∧ ∃ n, Spells v n ∧ r.toNat = n % 2 ^ 32 := by
  have hloop : v.foldlM (fun r byte ↦
      if isDigit byte then some (r * 10 + (byte.toUInt32 - 48)) else none) (0 : UInt32) =
        if v.all isDigit then some (MqttTopics.digitLoop v) else none := foldlM_guard _ _ v 0
  rw [parseU32, hloop]
  constructor
  · intro hparse
    split_ifs at hparse with hlength hdigits
    have hall := List.all_eq_true.mp hdigits
    refine ⟨by omega, decimalValue v, ⟨?_, hall, rfl⟩, ?_⟩
    · exact fun hnil ↦ hlength (.inl (by rw [hnil]; rfl))
    · rw [← Option.some.inj hparse, MqttTopics.toNat_digitLoop hall]
  · rintro ⟨hlength, n, hspells, hr⟩
    have hpos := List.length_pos_of_ne_nil hspells.ne_nil
    rw [if_neg (by omega), if_pos (List.all_eq_true.mpr hspells.all_digits)]
    refine congrArg some (UInt32.toNat_inj.mp ?_)
    rw [MqttTopics.toNat_digitLoop hspells.all_digits, hspells.value_eq, hr]

theorem parseU8_eq_some_iff {v : Bytes} {channels : ℕ} :
    parseU8 v = some channels ↔
      v.length ≤ 10 ∧ channels ≤ 255 ∧ ∃ n, Spells v n ∧ channels = n % 2 ^ 32 := by
  have hnarrow (r : UInt32) (hr : r.toNat ≤ 255) : r.toUInt8.toNat = r.toNat := by
    rw [UInt32.toNat_toUInt8]
    omega
  rw [parseU8]
  constructor
  · intro hparse
    cases hr : parseU32 v with
    | none => rw [hr] at hparse; cases hparse
    | some r =>
      simp only [hr] at hparse
      split_ifs at hparse with hlarge
      have hle := UInt32.le_iff_toNat_le.mp (UInt32.not_lt.mp hlarge)
      change r.toNat ≤ 255 at hle
      obtain ⟨hlength, n, hspells, hvalue⟩ := parseU32_eq_some_iff.mp hr
      have hchannels := (hnarrow r hle).symm.trans (Option.some.inj hparse)
      exact ⟨hlength, hchannels ▸ hle, n, hspells, hchannels ▸ hvalue⟩
  · rintro ⟨hlength, hle, n, hspells, rfl⟩
    have hvalue : (UInt32.ofNat n).toNat = n % 2 ^ 32 := UInt32.toNat_ofNat'
    have hr := parseU32_eq_some_iff.mpr ⟨hlength, n, hspells, hvalue⟩
    have hsmall : ¬ UInt32.ofNat n > 255 := by
      rw [gt_iff_lt, UInt32.lt_iff_toNat_lt, hvalue]
      exact not_lt.mpr hle
    simp only [hr, if_neg hsmall, hnarrow _ (hvalue ▸ hle), hvalue]

/-! ### Reading versions -/

/-- The text is three numbers between dots, the parts of the version. -/
def VersionText (v : Bytes) (version : FwVersion) : Prop :=
  ∃ major minor patch, v = major ++ 46 :: (minor ++ 46 :: patch) ∧
    Spells major version.major.toNat ∧ Spells minor version.minor.toNat ∧
    Spells patch version.patch.toNat

/-- A complete part. -/
def Part (text : Bytes) (part : UInt32) : Prop := Spells text part.toNat ∧ part.toNat ≤ 65535

namespace VerScan

/-- What the variables hold after some text: its complete parts, each closed by a dot, and the
digits behind them. -/
structure Holds (scan : VerScan) (text : Bytes) (texts : List Bytes) (digits : Bytes) : Prop where
  shape : text = texts.flatMap (· ++ [46]) ++ digits
  parts_read : List.Forall₂ Part texts scan.parts
  all_digits : ∀ byte ∈ digits, isDigit byte = true
  cur_eq : scan.cur.toNat = decimalValue digits
  cur_le : scan.cur.toNat ≤ 65535
  any_iff : scan.any = true ↔ digits ≠ []

/-- One more digit, as a number. -/
theorem toNat_next {cur : UInt32} {byte : UInt8} (hcur : cur.toNat ≤ 65535)
    (hbyte : isDigit byte = true) :
    (cur * 10 + (byte.toUInt32 - 48)).toNat = cur.toNat * 10 + (byte.toNat - 48) := by
  have hten : (10 : UInt32).toNat = 10 := rfl
  have hbound : byte.toNat < 256 := byte.toNat_lt
  rw [UInt32.toNat_add, UInt32.toNat_mul, MqttTopics.toNat_digit hbyte, hten]
  omega

/-- One byte closes a part or adds a digit to the next one. -/
theorem Holds.read {scan scan' : VerScan} {text digits : Bytes} {texts : List Bytes} {byte : UInt8}
    (hholds : scan.Holds text texts digits) (hread : scan.read byte = some scan') :
    ∃ texts' digits', scan'.Holds (text ++ [byte]) texts' digits' := by
  simp only [VerScan.read] at hread
  split_ifs at hread with hdot hfull hdigit hlarge
  · obtain rfl := Option.some.inj hread
    simp only [Bool.or_eq_true, not_or, Bool.not_eq_true', Bool.not_eq_false] at hfull
    refine ⟨texts ++ [digits], [], ⟨?_, ?_, by simp, rfl, by simp, by simp⟩⟩
    · rw [hholds.shape, hdot]
      simp
    · have hpart : Part digits scan.cur :=
        ⟨⟨hholds.any_iff.mp hfull.1, hholds.all_digits, hholds.cur_eq.symm⟩, hholds.cur_le⟩
      exact List.rel_append hholds.parts_read (.cons hpart .nil)
  · obtain rfl := Option.some.inj hread
    have hnext := toNat_next hholds.cur_le hdigit
    refine ⟨texts, digits ++ [byte], ⟨?_, hholds.parts_read, ?_, ?_, ?_, by simp⟩⟩
    · rw [hholds.shape, List.append_assoc]
    · intro other hother
      obtain hmem | hlast := List.mem_append.mp hother
      · exact hholds.all_digits other hmem
      · rwa [List.mem_singleton.mp hlast]
    · exact hnext.trans (by rw [decimalValue_concat, hholds.cur_eq])
    · exact UInt32.le_iff_toNat_le.mp (UInt32.not_lt.mp hlarge)

/-- The loop, from its start. -/
theorem exists_holds {text : Bytes} {scan : VerScan}
    (hloop : text.foldlM VerScan.read {} = some scan) :
    ∃ texts digits, scan.Holds text texts digits := by
  induction text using List.reverseRecOn generalizing scan with
  | nil =>
    obtain rfl := Option.some.inj hloop
    exact ⟨[], [], ⟨rfl, .nil, by simp, rfl, by simp, by simp⟩⟩
  | append_singleton text byte ih =>
    rw [List.foldlM_append] at hloop
    obtain ⟨before, hbefore, hbyte⟩ := Option.bind_eq_some_iff.mp hloop
    obtain ⟨texts, digits, hholds⟩ := ih hbefore
    rw [List.foldlM_cons] at hbyte
    obtain ⟨after, hread, hafter⟩ := Option.bind_eq_some_iff.mp hbyte
    obtain rfl := Option.some.inj hafter
    exact hholds.read hread

/-- A run of digits, as a number of 16 bits. -/
theorem foldlM_digits (parts : List UInt32) {digits : Bytes}
    (hdigits : ∀ byte ∈ digits, isDigit byte = true) (hle : decimalValue digits ≤ 65535) :
    ∃ cur : UInt32, cur.toNat = decimalValue digits ∧
      digits.foldlM VerScan.read ⟨parts, 0, false⟩ = some ⟨parts, cur, !digits.isEmpty⟩ := by
  induction digits using List.reverseRecOn with
  | nil => exact ⟨0, rfl, rfl⟩
  | append_singleton digits byte ih =>
    have hbyte : isDigit byte = true := hdigits byte (by simp)
    have hnot : byte ≠ 46 := by
      rintro rfl
      exact absurd hbyte (by decide)
    rw [decimalValue_concat] at hle
    obtain ⟨cur, hcur, hloop⟩ := ih (fun other hother ↦ hdigits other (by simp [hother])) (by omega)
    have hcurLe : cur.toNat ≤ 65535 := by omega
    have hnext := toNat_next hcurLe hbyte
    rw [hcur] at hnext
    refine ⟨_, hnext.trans (decimalValue_concat digits byte).symm, ?_⟩
    have hsmall : ¬ cur * 10 + (byte.toUInt32 - 48) > 65535 := by
      rw [gt_iff_lt, UInt32.lt_iff_toNat_lt, hnext]
      exact not_lt.mpr hle
    rw [List.foldlM_append, hloop]
    simp [VerScan.read, hnot, hbyte, hsmall]

/-- A part, as a number of 16 bits. -/
theorem foldlM_part (parts : List UInt32) {digits : Bytes} {part : UInt16}
    (hspells : Spells digits part.toNat) :
    ∃ cur : UInt32, cur.toNat = part.toNat ∧
      digits.foldlM VerScan.read ⟨parts, 0, false⟩ = some ⟨parts, cur, true⟩ := by
  have hword : part.toNat < 2 ^ 16 := part.toNat_lt
  have hle : decimalValue digits ≤ 65535 := by
    rw [hspells.value_eq]
    omega
  have hsome : (!digits.isEmpty) = true := by simpa using hspells.ne_nil
  obtain ⟨cur, hcur, hloop⟩ := foldlM_digits parts hspells.all_digits hle
  exact ⟨cur, hcur.trans hspells.value_eq, hsome ▸ hloop⟩

/-- The dot behind a part, while fewer than two are complete. -/
theorem read_dot (parts : List UInt32) (hparts : parts.length < 2) (cur : UInt32) :
    VerScan.read ⟨parts, cur, true⟩ 46 = some ⟨parts ++ [cur], 0, false⟩ := by
  simp [VerScan.read, hparts]

end VerScan

theorem toNat_toUInt16 {part : UInt32} (hpart : part.toNat ≤ 65535) :
    part.toUInt16.toNat = part.toNat := by
  rw [UInt32.toNat_toUInt16]
  omega

/-- What the version reader takes is three numbers between dots. -/
theorem versionText_of_parseVer {v : Bytes} {version : FwVersion}
    (hparse : parseVer v = some version) : VersionText v version := by
  rw [parseVer] at hparse
  cases hloop : v.foldlM VerScan.read {} with
  | none => rw [hloop] at hparse; cases hparse
  | some scan =>
    rw [hloop] at hparse
    obtain ⟨parts, cur, any⟩ := scan
    obtain ⟨texts, digits, hshape, hread, hdigits, hcur, hle, hany⟩ := VerScan.exists_holds hloop
    obtain ⟨major, minor, rfl⟩ : ∃ major minor, parts = [major, minor] := by
      rcases parts with _ | ⟨major, _ | ⟨minor, _ | ⟨extra, rest⟩⟩⟩
      · cases hparse
      · cases hparse
      · exact ⟨major, minor, rfl⟩
      · cases hparse
    obtain ⟨first, _, hmajor, hrest, rfl⟩ := List.forall₂_cons_right_iff.mp hread
    obtain ⟨second, _, hminor, hnil, rfl⟩ := List.forall₂_cons_right_iff.mp hrest
    obtain rfl := List.forall₂_nil_right_iff.mp hnil
    simp only at hparse hcur hle hany
    split_ifs at hparse with hsome
    obtain rfl := Option.some.inj hparse
    refine ⟨first, second, digits, ?_, ?_, ?_, ⟨hany.mp hsome, hdigits, ?_⟩⟩
    · rw [hshape]
      simp
    · rw [toNat_toUInt16 hmajor.2]
      exact hmajor.1
    · rw [toNat_toUInt16 hminor.2]
      exact hminor.1
    · rw [toNat_toUInt16 hle, hcur]

/-- Three numbers between dots are read. -/
theorem parseVer_of_versionText {v : Bytes} {version : FwVersion}
    (htext : VersionText v version) : parseVer v = some version := by
  obtain ⟨major, minor, patch, rfl, hmajor, hminor, hpatch⟩ := htext
  have hback {cur : UInt32} {part : UInt16} (heq : cur.toNat = part.toNat) :
      cur.toUInt16 = part := by
    have hword : part.toNat < 2 ^ 16 := part.toNat_lt
    rw [← UInt16.toNat_inj, toNat_toUInt16 (by omega), heq]
  obtain ⟨first, hfirst, hloop₁⟩ := VerScan.foldlM_part [] hmajor
  obtain ⟨second, hsecond, hloop₂⟩ := VerScan.foldlM_part [first] hminor
  obtain ⟨third, hthird, hloop₃⟩ := VerScan.foldlM_part [first, second] hpatch
  have hloop : (major ++ 46 :: (minor ++ 46 :: patch)).foldlM VerScan.read {} =
      some ⟨[first, second], third, true⟩ := by
    rw [List.foldlM_append, hloop₁]
    simp only [Option.bind_eq_bind, Option.bind_some, List.foldlM_cons,
      VerScan.read_dot [] (by decide), List.nil_append]
    rw [List.foldlM_append, hloop₂]
    simp only [Option.bind_eq_bind, Option.bind_some, List.foldlM_cons,
      VerScan.read_dot [first] (by simp), List.singleton_append]
    exact hloop₃
  rw [parseVer, hloop]
  simp only [if_true, hback hfirst, hback hsecond, hback hthird]

/-- The version reader takes exactly three numbers of 16 bits between dots. -/
theorem parseVer_eq_some_iff {v : Bytes} {version : FwVersion} :
    parseVer v = some version ↔ VersionText v version :=
  ⟨versionText_of_parseVer, parseVer_of_versionText⟩

/-! ### The payload as a list of entries -/

theorem keyValue_eq_some_iff {token k v : Bytes} :
    keyValue token = some (k, v) ↔
      k ≠ [] ∧ v ≠ [] ∧ (61 : UInt8) ∉ k ∧ token = k ++ 61 :: v := by
  rw [keyValue]
  constructor
  · intro hsplit
    cases hrest : token.dropWhile (· ≠ 61) with
    | nil => rw [hrest] at hsplit; cases hsplit
    | cons byte value =>
      simp only [hrest] at hsplit
      split_ifs at hsplit with hempty
      obtain ⟨rfl, rfl⟩ := Prod.mk.inj (Option.some.inj hsplit)
      obtain ⟨htoken, hstop⟩ := eq_takeWhile_append_cons hrest
      obtain rfl : byte = 61 := by simpa using hstop
      refine ⟨fun hnil ↦ hempty (.inl hnil), fun hnil ↦ hempty (.inr hnil), fun hmem ↦ ?_, htoken⟩
      simpa using of_mem_takeWhile 61 hmem
  · rintro ⟨hk, hv, hnot, rfl⟩
    have hall : ∀ byte ∈ k, decide (byte ≠ 61) = true :=
      fun byte hbyte ↦ decide_eq_true fun heq ↦ hnot (heq ▸ hbyte)
    rw [dropWhile_append_cons hall (by decide), takeWhile_append_cons hall (by decide)]
    exact if_neg fun hempty ↦ hempty.elim hk hv

/-- The tokens of a payload. A separator at its end adds an empty token, which has no effect. -/
def tokens (payload : Bytes) : List Bytes := payload.splitOnP isSeparator

/-- The keys and values of a payload, in order. -/
def entries (payload : Bytes) : List (Bytes × Bytes) := (tokens payload).filterMap keyValue

/-- The loop takes one token after the other. -/
theorem parseLoop_eq_foldl (parsing : Parsing) (payload : Bytes) :
    parsing.parseLoop payload = (tokens payload).foldl Parsing.parseToken parsing := by
  induction parsing, payload using Parsing.parseLoop.induct with
  | case1 parsing payload hnil =>
    obtain rfl := List.length_eq_zero_iff.mp hnil
    rw [Parsing.parseLoop, if_pos hnil]
    rfl
  | case2 parsing payload hne ih =>
    have hall : ∀ byte ∈ payload.takeWhile (! isSeparator ·), isSeparator byte = false :=
      fun byte hbyte ↦ by simpa using of_mem_takeWhile byte hbyte
    rw [Parsing.parseLoop, if_neg hne, ih]
    cases hrest : payload.dropWhile (! isSeparator ·) with
    | nil =>
      have hpayload := List.takeWhile_append_dropWhile (p := (! isSeparator ·)) (l := payload)
      rw [hrest, List.append_nil] at hpayload
      rw [hpayload] at hall ⊢
      rw [tokens, tokens, List.splitOnP_eq_singleton hall]
      rfl
    | cons separator rest =>
      obtain ⟨hpayload, hstop⟩ := eq_takeWhile_append_cons hrest
      have hseparator : isSeparator separator = true := by simpa using hstop
      have hsplit : tokens payload = payload.takeWhile (! isSeparator ·) :: tokens rest := by
        conv_lhs => rw [hpayload]
        exact List.splitOnP_append_cons_of_forall_mem hall separator hseparator rest
      rw [hsplit, List.foldl_cons, List.drop_one, List.tail_cons]

/-- The loop is a run over the entries of the payload. -/
theorem parseLoop_eq_runEntries (parsing : Parsing) (payload : Bytes) :
    parsing.parseLoop payload = runEntries Parsing.assign parsing (entries payload) := by
  rw [parseLoop_eq_foldl, runEntries, entries, List.foldl_filterMap]
  refine List.foldl_ext _ _ _ fun parsing token _ ↦ ?_
  rw [Parsing.parseToken]
  cases keyValue token with
  | none => rfl
  | some entry => rfl

/-! ### The fields of a manifest -/

/-- The last token with this key that has a value. -/
def LastValue (key payload value : Bytes) : Prop :=
  value ≠ [] ∧ ∃ before after, tokens payload = before ++ (key ++ 61 :: value) :: after ∧
    ∀ other, other ≠ [] → key ++ 61 :: other ∉ after

/-- A text that can stand before `=`. -/
def IsKey (key : Bytes) : Prop := key ≠ [] ∧ (61 : UInt8) ∉ key

instance (key : Bytes) : Decidable (IsKey key) := inferInstanceAs (Decidable (_ ∧ _))

theorem IsKey.keyValue_eq {key value : Bytes} (hkey : IsKey key) (hvalue : value ≠ []) :
    keyValue (key ++ 61 :: value) = some (key, value) :=
  keyValue_eq_some_iff.mpr ⟨hkey.1, hvalue, hkey.2, rfl⟩

/-- The last token of a key is its last entry. -/
theorem IsKey.lastValue_iff {key payload value : Bytes} (hkey : IsKey key) :
    LastValue key payload value ↔ LastEntry (entries payload) key value := by
  constructor
  · rintro ⟨hvalue, before, after, htokens, hafter⟩
    refine ⟨before.filterMap keyValue, after.filterMap keyValue, ?_, ?_⟩
    · rw [entries, htokens, List.filterMap_append,
        List.filterMap_cons_some (hkey.keyValue_eq hvalue)]
    · rintro ⟨other, otherValue⟩ hentry rfl
      obtain ⟨token, htoken, hsplit⟩ := List.mem_filterMap.mp hentry
      obtain ⟨-, hne, -, rfl⟩ := keyValue_eq_some_iff.mp hsplit
      exact hafter otherValue hne htoken
  · rintro ⟨before, after, hentries, hafter⟩
    obtain ⟨first, second, htokens, -, hsecond⟩ := List.filterMap_eq_append_iff.mp hentries
    obtain ⟨passed, token, rest, rfl, -, hsplit, hrest⟩ := List.filterMap_eq_cons_iff.mp hsecond
    obtain ⟨-, hvalue, -, rfl⟩ := keyValue_eq_some_iff.mp hsplit
    refine ⟨hvalue, first ++ passed, rest, ?_, fun other hother hmem ↦ ?_⟩
    · rw [htokens, List.append_assoc]
    · have hentry : (key, other) ∈ after :=
        hrest ▸ List.mem_filterMap.mpr ⟨_, hmem, hkey.keyValue_eq hother⟩
      exact hafter (key, other) hentry rfl

/-- What a text field and its flag become. -/
def copied (cap : ℕ) (held : Bytes × Bool) (v : Bytes) : Bytes × Bool := copyTo held.1 cap v

/-- What another field and its flag become. -/
def readInto {α : Type} (read : Bytes → Option α) (held : α × Bool) (v : Bytes) : α × Bool :=
  ((read v).getD held.1, (read v).isSome)

theorem copied_iff {cap : ℕ} (held : Bytes × Bool) (v : Bytes) :
    (copied cap held v).2 = true ↔ v.length < cap := by
  rw [copied, copyTo]
  split_ifs with hlong
  · exact iff_of_false (by decide) (by omega)
  · exact iff_of_true rfl (by omega)

namespace Parsing

theorem owns_url :
    Owns assign (fun parsing ↦ (parsing.m.url, parsing.haveUrl)) (ascii "url") (copied 160) where
  here _ _ := rfl
  elsewhere parsing k v hk := by
    rw [assign, if_neg hk]
    split_ifs <;> rfl

theorem owns_sig :
    Owns assign (fun parsing ↦ (parsing.m.sigB64, parsing.haveSig)) (ascii "sig") (copied 120) where
  here _ _ := rfl
  elsewhere parsing k v hk := by
    rw [assign]
    split_ifs <;> rfl

theorem owns_hw :
    Owns assign (fun parsing ↦ (parsing.m.hwFamily, parsing.haveHw)) (ascii "hw") (copied 40) where
  here _ _ := rfl
  elsewhere parsing k v hk := by
    rw [assign]
    split_ifs <;> rfl

theorem owns_ver : Owns assign (fun parsing ↦ (parsing.m.version, parsing.haveVer)) (ascii "ver")
    (readInto parseVer) where
  here _ _ := rfl
  elsewhere parsing k v hk := by
    rw [assign]
    split_ifs <;> rfl

theorem owns_ch : Owns assign (fun parsing ↦ (parsing.m.hwChannels, parsing.haveCh)) (ascii "ch")
    (readInto parseU8) where
  here _ _ := rfl
  elsewhere parsing k v hk := by
    rw [assign]
    split_ifs <;> rfl

theorem owns_size : Owns assign (fun parsing ↦ (parsing.m.sizeBytes, parsing.haveSize))
    (ascii "size") (readInto parseU32) where
  here _ _ := rfl
  elsewhere parsing k v hk := by
    rw [assign]
    split_ifs <;> rfl

theorem owns_dg : Owns assign (fun parsing ↦ parsing.m.allowDowngrade) (ascii "dg")
    (fun _ v ↦ decide (v.head? = some 49)) where
  here _ _ := rfl
  elsewhere parsing k v hk := by
    rw [assign]
    split_ifs <;> rfl

end Parsing

/-- The buffer holds the bytes of a text, with a terminator behind them. -/
def HoldsText (buffer text : Bytes) : Prop := ∃ rest, buffer = text ++ 0 :: rest

section Fields

variable {payload key value : Bytes} {α : Type}

/-- After the loop, a text field holds the last value of its key, if that fits. -/
theorem text_read {get : Parsing → Bytes × Bool} {cap : ℕ} (hkey : IsKey key)
    (howns : Owns Parsing.assign get key (copied cap)) (hlast : LastValue key payload value)
    (hfits : value.length < cap) (parsing : Parsing) :
    HoldsText (get (parsing.parseLoop payload)).1 value := by
  obtain ⟨held, hheld⟩ := howns.run_last (hkey.lastValue_iff.mp hlast) parsing
  refine ⟨held.1.drop (value.length + 1), ?_⟩
  rw [parseLoop_eq_runEntries, hheld, copied, copyTo, if_neg (by omega)]

/-- After the loop, another field is what its reader makes of the last value of its key. -/
theorem value_read {get : Parsing → α × Bool} {read : Bytes → Option α} {result : α}
    (hkey : IsKey key) (howns : Owns Parsing.assign get key (readInto read))
    (hlast : LastValue key payload value) (hread : read value = some result) (parsing : Parsing) :
    (get (parsing.parseLoop payload)).1 = result := by
  obtain ⟨held, hheld⟩ := howns.run_last (hkey.lastValue_iff.mp hlast) parsing
  rw [parseLoop_eq_runEntries, hheld, readInto, hread]
  rfl

/-- The flag of a text field says whether the last value of its key fits. -/
theorem text_flag_iff {get : Parsing → Bytes × Bool} {cap : ℕ} (hkey : IsKey key)
    (howns : Owns Parsing.assign get key (copied cap)) (hstart : (get {}).2 = false)
    (payload : Bytes) :
    (get (({} : Parsing).parseLoop payload)).2 = true ↔
      ∃ value, LastValue key payload value ∧ value.length < cap := by
  simp only [parseLoop_eq_runEntries, hkey.lastValue_iff]
  exact howns.flag_iff copied_iff hstart _

/-- The flag of another field says whether its reader takes the last value of its key. -/
theorem value_flag_iff {get : Parsing → α × Bool} {read : Bytes → Option α} (hkey : IsKey key)
    (howns : Owns Parsing.assign get key (readInto read)) (hstart : (get {}).2 = false)
    (payload : Bytes) :
    (get (({} : Parsing).parseLoop payload)).2 = true ↔
      ∃ value, LastValue key payload value ∧ ∃ result, read value = some result := by
  simp only [parseLoop_eq_runEntries, hkey.lastValue_iff]
  refine howns.flag_iff (fun held v ↦ ?_) hstart _
  rw [readInto, Option.isSome_iff_exists]

end Fields

/-! ### Valid manifests -/

/-- The number is spelled with at most ten digits. -/
def Numeral (value : Bytes) (n : ℕ) : Prop := value.length ≤ 10 ∧ Spells value n

/-- What makes a payload a valid manifest: the last value of each required key is good. The
numbers are taken modulo the width of `uint32_t`. -/
structure Acceptable (payload : Bytes) : Prop where
  length_pos : 1 ≤ payload.length
  length_le : payload.length ≤ 1024
  url : ∃ value, LastValue (ascii "url") payload value ∧ value.length < 160
  sig : ∃ value, LastValue (ascii "sig") payload value ∧ value.length < 120
  hw : ∃ value, LastValue (ascii "hw") payload value ∧ value.length < 40
  ver : ∃ value, LastValue (ascii "ver") payload value ∧ ∃ version, VersionText value version
  ch : ∃ value, LastValue (ascii "ch") payload value ∧ ∃ n, Numeral value n ∧
    1 ≤ n % 2 ^ 32 ∧ n % 2 ^ 32 ≤ kMaxChannels
  size : ∃ value, LastValue (ascii "size") payload value ∧ ∃ n, Numeral value n

/-- Within its bounds, a payload is read by the loop. -/
theorem parse_eq {payload : Bytes} (hpos : 1 ≤ payload.length) (hle : payload.length ≤ 1024) :
    parse payload =
      let parsing := ({} : Parsing).parseLoop payload
      { parsing.m with valid := parsing.isValid } := by
  rw [parse, if_neg (by omega)]

theorem LastValue.unique {key payload value value' : Bytes} (hkey : IsKey key)
    (hlast : LastValue key payload value) (hlast' : LastValue key payload value') :
    value = value' :=
  (hkey.lastValue_iff.mp hlast).unique (hkey.lastValue_iff.mp hlast')

/-- The channel count is read and in range exactly if the last value of `ch` says so, modulo the
width of `uint32_t`. -/
theorem channels_iff (payload : Bytes) :
    ((({} : Parsing).parseLoop payload).haveCh = true ∧
      1 ≤ (({} : Parsing).parseLoop payload).m.hwChannels ∧
      (({} : Parsing).parseLoop payload).m.hwChannels ≤ kMaxChannels) ↔
    ∃ value, LastValue (ascii "ch") payload value ∧ ∃ n, Numeral value n ∧
      1 ≤ n % 2 ^ 32 ∧ n % 2 ^ 32 ≤ kMaxChannels := by
  have hflag := value_flag_iff (by decide) Parsing.owns_ch rfl payload
  constructor
  · rintro ⟨hhave, hrange⟩
    obtain ⟨value, hlast, channels, hread⟩ := hflag.mp hhave
    have hfield : (({} : Parsing).parseLoop payload).m.hwChannels = channels :=
      value_read (by decide) Parsing.owns_ch hlast hread {}
    obtain ⟨hlength, -, n, hspells, hn⟩ := parseU8_eq_some_iff.mp hread
    refine ⟨value, hlast, n, ⟨hlength, hspells⟩, ?_⟩
    rw [← hn, ← hfield]
    exact hrange
  · rintro ⟨value, hlast, n, ⟨hlength, hspells⟩, hrange⟩
    have hsmall : n % 2 ^ 32 ≤ 255 := hrange.2.trans (by decide)
    have hread := parseU8_eq_some_iff.mpr ⟨hlength, hsmall, n, hspells, rfl⟩
    have hfield : (({} : Parsing).parseLoop payload).m.hwChannels = n % 2 ^ 32 :=
      value_read (by decide) Parsing.owns_ch hlast hread {}
    refine ⟨hflag.mpr ⟨value, hlast, _, hread⟩, ?_⟩
    rw [hfield]
    exact hrange

/-- A payload is a valid manifest exactly if it is acceptable. -/
theorem valid_iff (payload : Bytes) : (parse payload).valid = true ↔ Acceptable payload := by
  have hurl := text_flag_iff (by decide) Parsing.owns_url rfl payload
  have hsig := text_flag_iff (by decide) Parsing.owns_sig rfl payload
  have hhw := text_flag_iff (by decide) Parsing.owns_hw rfl payload
  have hver := value_flag_iff (by decide) Parsing.owns_ver rfl payload
  have hch := channels_iff payload
  have hsize := value_flag_iff (by decide) Parsing.owns_size rfl payload
  simp only [parseVer_eq_some_iff] at hver
  have hnumeral (value : Bytes) :
      (∃ result, parseU32 value = some result) ↔ ∃ n, Numeral value n := by
    constructor
    · rintro ⟨r, hread⟩
      obtain ⟨hlength, n, hspells, -⟩ := parseU32_eq_some_iff.mp hread
      exact ⟨n, hlength, hspells⟩
    · rintro ⟨n, hlength, hspells⟩
      exact ⟨.ofNat n, parseU32_eq_some_iff.mpr ⟨hlength, n, hspells, UInt32.toNat_ofNat'⟩⟩
  simp only [hnumeral] at hsize
  by_cases hbounds : 1 ≤ payload.length ∧ payload.length ≤ 1024
  · rw [parse_eq hbounds.1 hbounds.2]
    simp only [Parsing.isValid, Bool.and_eq_true, decide_eq_true_eq, and_assoc]
    constructor
    · rintro ⟨hhaveUrl, hhaveVer, hhaveSig, hhaveHw, hhaveCh, hhaveSize, hrange⟩
      exact ⟨hbounds.1, hbounds.2, hurl.mp hhaveUrl, hsig.mp hhaveSig, hhw.mp hhaveHw,
        hver.mp hhaveVer, hch.mp ⟨hhaveCh, hrange⟩, hsize.mp hhaveSize⟩
    · intro haccept
      obtain ⟨hhaveCh, hrange⟩ := hch.mpr haccept.ch
      exact ⟨hurl.mpr haccept.url, hver.mpr haccept.ver, hsig.mpr haccept.sig,
        hhw.mpr haccept.hw, hhaveCh, hsize.mpr haccept.size, hrange⟩
  · rw [parse, if_pos (by omega)]
    exact iff_of_false (by decide) fun haccept ↦ hbounds ⟨haccept.length_pos, haccept.length_le⟩

end LibreSwitch.Net.OtaManifestCodec
