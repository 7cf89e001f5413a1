import Mathlib.Tactic
import LibreSwitch.Library.ByteString
import LibreSwitch.Domain.RelayController

/-!
# Topics and payloads

`MqttTopics` of `net/mqtt_topics.h` and `MqttPayload` of `net/mqtt_payload.h`. A topic is a C string
without its terminator; a payload is a byte string of a given length that may hold zero bytes.

The matchers of the source search the full topic. `endsWith_topic` and `strstr_topic` say what
their searches come to on a topic `<root>/<id>/<rest>` whose root and id are single levels: the
search is one of the rest alone, except that a root ending in `cmd` before the id `relay` is taken
for the start of a relay command (`Shadowed`, `strstr_topic_shadowed`). `parseChannel_eq_some_iff`
is the specification of the digit loop, with the narrowing of its number to eight bits.
-/

set_option autoImplicit false
set_option relaxedAutoImplicit false

namespace LibreSwitch.Net

open LibreSwitch.Library LibreSwitch.Domain

/-- The separator of topic levels. -/
def slash : UInt8 := 47

/-! ### Topics -/

/-- `kMaxTopicLen`. -/
def kMaxTopicLen : ℕ := 96

/-- `MqttTopics`, with its two texts. -/
structure MqttTopics where
  root : Bytes
  id : Bytes

namespace MqttTopics

/-- The full topic of a suffix. -/
def full (topics : MqttTopics) (suffix : Bytes) : Bytes :=
  topics.root ++ slash :: (topics.id ++ slash :: suffix)

/-- `fmt`: the text that fits the buffer, and whether it is the whole topic. -/
def fmt (topics : MqttTopics) (n : ℕ) (suffix : Bytes) : Bytes × Bool :=
  ((topics.full suffix).take (n - 1), (topics.full suffix).length < n)

/-- What fits the buffer is the whole topic. -/
theorem fst_fmt {topics : MqttTopics} {n : ℕ} {suffix : Bytes}
    (hfits : (topics.fmt n suffix).2 = true) : (topics.fmt n suffix).1 = topics.full suffix := by
  have hlength : (topics.full suffix).length < n := of_decide_eq_true hfits
  exact List.take_of_length_le (by omega)

def cmdWildcard (topics : MqttTopics) (n : ℕ) : Bytes × Bool := topics.fmt n (ascii "cmd/#")

def cmdRelaySet (topics : MqttTopics) (n channel : ℕ) : Bytes × Bool :=
  topics.fmt n (ascii "cmd/relay/" ++ decimal channel ++ ascii "/set")

def isSystemOta (topic : Bytes) : Bool := endsWith topic (ascii "cmd/system/ota")

def isSystemConfirm (topic : Bytes) : Bool := endsWith topic (ascii "cmd/system/confirm")

def evtRelayState (topics : MqttTopics) (n channel : ℕ) : Bytes × Bool :=
  topics.fmt n (ascii "evt/relay/" ++ decimal channel ++ ascii "/state")

def evtOnline (topics : MqttTopics) (n : ℕ) : Bytes × Bool :=
  topics.fmt n (ascii "evt/system/online")

/-- The digit loop of `parseRelaySetChannel`, in the 32 bits of `unsigned`. -/
def digitLoop (digits : Bytes) : UInt32 :=
  digits.foldl (fun value digit ↦ value * 10 + (digit.toUInt32 - 48)) 0

/-- `parseRelaySetChannel` behind the `cmd/relay/` it found: digits, then `/set`. The number is
narrowed to the eight bits of a channel. -/
def parseChannel (text : Bytes) : Option ℕ :=
  if text.takeWhile isDigit = [] then none
  else if (ascii "/set").isPrefixOf (text.dropWhile isDigit) then
    some (digitLoop (text.takeWhile isDigit)).toUInt8.toNat
  else none

def parseRelaySetChannel (topic : Bytes) : Option ℕ :=
  match strstr (ascii "cmd/relay/") topic with
  | none => none
  | some found => parseChannel (found.drop (ascii "cmd/relay/").length)

def isRelayAllSet (topic : Bytes) : Bool := (strstr (ascii "cmd/relay/all/set") topic).isSome

end MqttTopics

/-! ### Payloads -/

namespace MqttPayload

def isSpace (byte : UInt8) : Bool := byte = 32 || byte = 9 || byte = 10 || byte = 13

/-- The part of `parseRelaySet` at the value. -/
def parseValue (text : Bytes) : Option Bool :=
  if (ascii "true").isPrefixOf text then some true
  else if (ascii "false").isPrefixOf text then some false
  else none

/-- `parseRelaySet`: the first `"on"`, the next colon, then the value. The copy of the payload ends
at its first zero byte. -/
def parseRelaySet (data : Bytes) : Option Bool :=
  if data.length = 0 ∨ data.length > 64 then none
  else
    match strstr (ascii "\"on\"") (cString data) with
    | none => none
    | some key =>
      match key.dropWhile (· ≠ 58) with
      | [] => none
      | _ :: text => parseValue (text.dropWhile isSpace)

def sourceName : CommandSource → Bytes
  | .local_ => ascii "local"
  | .cloud => ascii "cloud"
  | .lan => ascii "lan"
  | .boot => ascii "boot"
  | .internal => ascii "internal"

/-- What `snprintf` into a buffer of a given size is kept: the text if it fits, else nothing. -/
def fit (n : ℕ) (text : Bytes) : Bytes := if text.length < n then text else []

/-- The text of a relay state event. -/
def relayStateText (state : RelayState) (source : CommandSource) (ts : UInt32) : Bytes :=
  ascii "\x7b\"on\":" ++ ascii (if state = .on then "true" else "false") ++ ascii ",\"src\":\"" ++
    sourceName source ++ ascii "\",\"ts\":" ++ decimal ts.toNat ++ ascii "\x7d"

def relayState (n : ℕ) (state : RelayState) (source : CommandSource) (ts : UInt32) : Bytes :=
  fit n (relayStateText state source ts)

def online (n : ℕ) (isOnline : Bool) : Bytes :=
  fit n (ascii "\x7b\"online\":" ++ ascii (if isOnline then "true" else "false") ++ ascii "\x7d")

/-- Every relay state event fits the 64 bytes it is written to. -/
theorem relayState_eq_text (state : RelayState) (source : CommandSource) (ts : UInt32) :
    relayState 64 state source ts = relayStateText state source ts := by
  have hdigits : (decimal ts.toNat).length ≤ 10 :=
    length_decimal_le (by norm_num) (lt_of_lt_of_le ts.toNat_lt (by norm_num))
  have hsource : (sourceName source).length ≤ 8 := by cases source <;> decide
  have hstate : (ascii (if state = .on then "true" else "false")).length ≤ 5 := by
    cases state <;> decide
  have hkey : (ascii "\x7b\"on\":").length = 6 := by decide
  have hsrc : (ascii ",\"src\":\"").length = 8 := by decide
  have hts : (ascii "\",\"ts\":").length = 7 := by decide
  have hend : (ascii "\x7d").length = 1 := by decide
  refine if_pos ?_
  simp only [relayStateText, List.length_append, hkey, hsrc, hts, hend]
  omega

theorem relayStateText_ne_nil (state : RelayState) (source : CommandSource) (ts : UInt32) :
    relayStateText state source ts ≠ [] :=
  List.append_ne_nil_of_right_ne_nil _ (by decide)

end MqttPayload

example : MqttPayload.parseRelaySet (ascii "\x7b\"on\" : true\x7d") = some true := by decide

/-! ### The topics delivered to one device -/

namespace MqttTopics

/-- The root and the id are single topic levels. -/
structure Levels (topics : MqttTopics) : Prop where
  root_level : slash ∉ topics.root
  id_level : slash ∉ topics.id

/-- What the subscription `cmd/#` delivers: the level `cmd` and everything below it. -/
def UnderCmd (rest : Bytes) : Prop := rest = ascii "cmd" ∨ ascii "cmd/" <+: rest

/-- The root and the id of the device read as the start of a relay command. -/
def Shadowed (topics : MqttTopics) : Prop := ascii "cmd" <:+ topics.root ∧ topics.id = ascii "relay"

theorem UnderCmd.starts {rest : Bytes} (hrest : UnderCmd rest) : ascii "cmd" <+: rest := by
  obtain rfl | hpre := hrest
  · exact List.prefix_rfl
  · exact (by decide : ascii "cmd" <+: ascii "cmd/").trans hpre

/-- A text that starts otherwise is no start of what is delivered. -/
theorem UnderCmd.not_prefix {rest pattern : Bytes} (hrest : UnderCmd rest)
    (hpattern : pattern.head? ≠ some 99) (hne : pattern ≠ []) : ¬ pattern <+: rest := by
  intro hpre
  obtain ⟨behind, rfl⟩ := hrest.starts
  cases pattern with
  | nil => exact hne rfl
  | cons byte pattern =>
    obtain ⟨heq, -⟩ := List.cons_prefix_cons.mp hpre
    exact hpattern (by rw [heq]; rfl)

/-- A suffix that has no level `cmd` behind a separator is compared with the rest alone. -/
theorem endsWith_topic {topics : MqttTopics} {rest suffix : Bytes} (hrest : UnderCmd rest)
    (hsuffix : ¬ ascii "/cmd" <:+: suffix) :
    endsWith (topics.full rest) suffix = true ↔ suffix <:+ rest := by
  have hfull : slash :: rest <:+ topics.full rest :=
    ⟨topics.root ++ slash :: topics.id, by simp [full]⟩
  rw [endsWith_iff]
  constructor
  · intro hends
    by_cases hlength : suffix.length ≤ rest.length
    · exact List.suffix_of_suffix_length_le hends ((List.suffix_cons _ _).trans hfull) hlength
    · have hlong : (slash :: rest).length ≤ suffix.length := by
        rw [List.length_cons]
        omega
      have hinside : slash :: rest <:+ suffix :=
        List.suffix_of_suffix_length_le hfull hends hlong
      have hcmd : ascii "/cmd" <+: slash :: rest :=
        List.cons_prefix_cons.mpr ⟨rfl, hrest.starts⟩
      exact absurd (hcmd.isInfix.trans hinside.isInfix) hsuffix
  · intro hends
    exact hends.trans ((List.suffix_cons _ _).trans hfull)

/-- A search for `cmd/relay/…` passes over the root and the id, unless they read as its start. -/
theorem strstr_topic {topics : MqttTopics} (hlevels : topics.Levels) {rest : Bytes}
    (hrest : UnderCmd rest) (more : Bytes) (hclear : ¬ (Shadowed topics ∧ more <+: rest)) :
    strstr (ascii "cmd/relay/" ++ more) (topics.full rest) =
      strstr (ascii "cmd/relay/" ++ more) rest := by
  have hpattern : ascii "cmd/relay/" ++ more =
      ascii "cmd" ++ slash :: (ascii "relay" ++ slash :: more) := rfl
  have hcmd : slash ∉ ascii "cmd" := by decide
  have hrelay : slash ∉ ascii "relay" := by decide
  have hroot : strstr (ascii "cmd/relay/" ++ more) (topics.full rest) =
      strstr (ascii "cmd/relay/" ++ more) (topics.id ++ slash :: rest) := by
    refine strstr_segment fun tail htail hpre ↦ ?_
    have hlevel : slash ∉ tail := fun hmem ↦ hlevels.root_level (htail.mem hmem)
    rw [hpattern, segment_prefix_iff hcmd hlevel,
      segment_prefix_iff hrelay hlevels.id_level] at hpre
    obtain ⟨rfl, hid, hmore⟩ := hpre
    exact hclear ⟨⟨htail, hid.symm⟩, hmore⟩
  have hid : strstr (ascii "cmd/relay/" ++ more) (topics.id ++ slash :: rest) =
      strstr (ascii "cmd/relay/" ++ more) rest := by
    refine strstr_segment fun tail htail hpre ↦ ?_
    have hlevel : slash ∉ tail := fun hmem ↦ hlevels.id_level (htail.mem hmem)
    rw [hpattern, segment_prefix_iff hcmd hlevel] at hpre
    have hhead : (ascii "relay" ++ slash :: more).head? ≠ some 99 := by
      change some (114 : UInt8) ≠ some 99
      decide
    exact hrest.not_prefix hhead (by simp [ascii]) hpre.2
  rw [hroot, hid]

/-- A shadowed device finds its own root and id. -/
theorem strstr_topic_shadowed {topics : MqttTopics} (hlevels : topics.Levels)
    (hshadowed : Shadowed topics) (rest : Bytes) :
    strstr (ascii "cmd/relay/") (topics.full rest) = some (ascii "cmd/relay/" ++ rest) := by
  obtain ⟨⟨before, hroot⟩, hid⟩ := hshadowed
  have hfull : topics.full rest = before ++ (ascii "cmd/relay/" ++ rest) := by
    rw [full, ← hroot, hid, List.append_assoc]
    rfl
  rw [hfull, strstr_append, strstr_of_prefix (List.prefix_append _ _)]
  intro tail htail hsuffix hpre
  have hlevel : slash ∉ tail ++ ascii "cmd" := by
    intro hmem
    refine hlevels.root_level (hroot ▸ ?_)
    exact (List.mem_append.mp hmem).elim
      (fun h ↦ List.mem_append_left _ (hsuffix.mem h)) (List.mem_append_right _)
  have hshape : tail ++ (ascii "cmd/relay/" ++ rest) =
      (tail ++ ascii "cmd") ++ slash :: (ascii "relay/" ++ rest) := by
    rw [List.append_assoc]
    rfl
  have hpattern : ascii "cmd/relay/" = ascii "cmd" ++ slash :: ascii "relay/" := rfl
  rw [hshape, hpattern, segment_prefix_iff (by decide) hlevel] at hpre
  exact htail (List.self_eq_append_left.mp hpre.1)

/-! ### The channel of a topic -/

/-- The number of a digit, in the 32 bits of `unsigned`. -/
theorem toNat_digit {digit : UInt8} (hdigit : isDigit digit = true) :
    (digit.toUInt32 - 48).toNat = digit.toNat - 48 := by
  simp only [isDigit, Bool.and_eq_true, decide_eq_true_eq, UInt8.le_iff_toNat_le] at hdigit
  have hword : digit.toUInt32.toNat = digit.toNat := rfl
  rw [UInt32.toNat_sub_of_le _ _ (by rw [UInt32.le_iff_toNat_le, hword]; exact hdigit.1), hword]
  rfl

/-- The digit loop reads the number modulo the width of `unsigned`. -/
theorem toNat_digitLoop {digits : Bytes} (hdigits : ∀ byte ∈ digits, isDigit byte = true) :
    (digitLoop digits).toNat = decimalValue digits % 2 ^ 32 := by
  have hloop (value : UInt32) (number : ℕ) (hvalue : value.toNat = number % 2 ^ 32) :
      (digits.foldl (fun value digit ↦ value * 10 + (digit.toUInt32 - 48)) value).toNat =
        digits.foldl (fun value digit ↦ value * 10 + (digit.toNat - 48)) number % 2 ^ 32 := by
    induction digits generalizing value number with
    | nil => exact hvalue
    | cons digit rest ih =>
      rw [List.foldl_cons, List.foldl_cons]
      apply ih fun byte hbyte ↦ hdigits byte (List.mem_cons_of_mem _ hbyte)
      rw [UInt32.toNat_add, UInt32.toNat_mul, toNat_digit (hdigits digit (List.mem_cons_self ..)),
        hvalue]
      have hten : (10 : UInt32).toNat = 10 := rfl
      rw [hten]
      omega
  exact hloop 0 0 rfl

/-- The narrowing keeps the number modulo 256. -/
theorem toNat_toUInt8_digitLoop {digits : Bytes} (hdigits : ∀ byte ∈ digits, isDigit byte = true) :
    (digitLoop digits).toUInt8.toNat = decimalValue digits % 256 := by
  rw [UInt32.toNat_toUInt8, toNat_digitLoop hdigits]
  omega

/-- The text starts with a decimal number, followed by `/set`. -/
structure SetsChannel (text digits behind : Bytes) : Prop where
  shape : text = digits ++ (ascii "/set" ++ behind)
  digits_ne : digits ≠ []
  all_digits : ∀ byte ∈ digits, isDigit byte = true

theorem SetsChannel.takeWhile_eq {text digits behind : Bytes}
    (hsets : SetsChannel text digits behind) : text.takeWhile isDigit = digits := by
  rw [hsets.shape, List.takeWhile_append_of_pos hsets.all_digits]
  exact List.append_nil digits

theorem SetsChannel.dropWhile_eq {text digits behind : Bytes}
    (hsets : SetsChannel text digits behind) :
    text.dropWhile isDigit = ascii "/set" ++ behind := by
  rw [hsets.shape, List.dropWhile_append_of_pos hsets.all_digits]
  rfl

theorem parseChannel_eq_some_iff {text : Bytes} {channel : ℕ} :
    parseChannel text = some channel ↔
      ∃ digits behind, SetsChannel text digits behind ∧ decimalValue digits % 256 = channel := by
  constructor
  · intro hparse
    rw [parseChannel] at hparse
    split_ifs at hparse with hdigits hset
    obtain ⟨behind, hbehind⟩ := List.isPrefixOf_iff_prefix.mp hset
    have hall : ∀ byte ∈ text.takeWhile isDigit, isDigit byte = true :=
      List.all_eq_true.mp List.all_takeWhile
    refine ⟨text.takeWhile isDigit, behind, ⟨?_, hdigits, hall⟩, ?_⟩
    · rw [hbehind, List.takeWhile_append_dropWhile]
    · rw [← toNat_toUInt8_digitLoop hall]
      exact Option.some.inj hparse
  · rintro ⟨digits, behind, hsets, rfl⟩
    have hset : (ascii "/set").isPrefixOf (text.dropWhile isDigit) = true := by
      rw [hsets.dropWhile_eq]
      exact List.isPrefixOf_iff_prefix.mpr (List.prefix_append _ _)
    rw [parseChannel, hsets.takeWhile_eq, if_neg hsets.digits_ne, if_pos hset,
      toNat_toUInt8_digitLoop hsets.all_digits]

end MqttTopics

end LibreSwitch.Net
