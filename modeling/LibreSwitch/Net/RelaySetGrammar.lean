import Mathlib.Tactic
import LibreSwitch.Net.MqttTopics

/-!
# The grammar of a relay command

A relay command is `{"on":true}` or `{"on":false}`, with blanks wherever they separate tokens
(`Command`). `parseRelaySet` searches for the key, then for a colon, and compares the start of what
follows: it looks at no byte before the key, between the key and the colon, or behind the value.
`parseRelaySet_eq_some_iff` says which payloads it takes for a command (`Reads`), and a payload is
read so in one way only (`Reads.unique`). All commands are among them. The others are the payloads
where one of the three parts it skips is not what the grammar has there, so the parser accepts the
grammar exactly on the payloads that are `Strict`.
-/

set_option autoImplicit false
set_option relaxedAutoImplicit false

namespace LibreSwitch.Net.MqttPayload

open LibreSwitch.Library

/-! ### Commands -/

/-- The key of a relay command, with its quotes. -/
def onKey : Bytes := ascii "\"on\""

def literal (value : Bool) : Bytes := ascii (if value then "true" else "false")

/-- A run of blanks. -/
def Blanks (text : Bytes) : Prop := ∀ byte ∈ text, isSpace byte = true

/-- One byte among blanks. -/
def Among (byte : UInt8) (text : Bytes) : Prop :=
  ∃ first second, Blanks first ∧ Blanks second ∧ text = first ++ byte :: second

/-- A text with the key, a colon behind it and a value behind that. -/
def layout (before between blanks : Bytes) (value : Bool) (behind : Bytes) : Bytes :=
  before ++ (onKey ++ (between ++ 58 :: (blanks ++ (literal value ++ behind))))

/-- The grammar: `ws { ws "on" ws : ws lit ws } ws`. -/
def Command (value : Bool) (data : Bytes) : Prop :=
  ∃ before between blanks behind, Among 123 before ∧ Blanks between ∧ Blanks blanks ∧
    Among 125 behind ∧ data = layout before between blanks value behind

/-- Without its blanks a command is one of two texts. -/
theorem Command.filter_eq {value : Bool} {data : Bytes} (hcommand : Command value data) :
    data.filter (! isSpace ·) = 123 :: onKey ++ 58 :: literal value ++ [125] := by
  have hblanks {text : Bytes} (htext : Blanks text) : text.filter (! isSpace ·) = [] := by
    refine List.filter_eq_nil_iff.mpr fun byte hbyte ↦ ?_
    rw [htext byte hbyte]
    decide
  have hamong {byte : UInt8} {text : Bytes} (hbyte : isSpace byte = false)
      (htext : Among byte text) : text.filter (! isSpace ·) = [byte] := by
    obtain ⟨first, second, hfirst, hsecond, rfl⟩ := htext
    rw [List.filter_append, hblanks hfirst, List.filter_cons_of_pos (by rw [hbyte]; rfl),
      hblanks hsecond, List.nil_append]
  have hkey : onKey.filter (! isSpace ·) = onKey := by decide
  have hliteral : (literal value).filter (! isSpace ·) = literal value := by
    cases value <;> decide
  obtain ⟨before, between, blanks, behind, hbefore, hbetween, hvalue, hbehind, rfl⟩ := hcommand
  simp only [layout, List.filter_append, hamong rfl hbefore, hkey, hblanks hbetween,
    List.filter_cons_of_pos (p := (! isSpace ·)) (a := 58) rfl, hblanks hvalue, hliteral,
    hamong rfl hbehind, List.nil_append, List.cons_append, List.append_assoc]

/-! ### What the parser reads -/

/-- The payload is read so: the first key, the first colon behind it, then blanks and a value, all
before the first zero byte. -/
structure Reads (data before between blanks : Bytes) (value : Bool) (behind : Bytes) : Prop where
  shape : data = layout before between blanks value behind
  first_key : ¬ onKey <:+: before ++ onKey.dropLast
  before_zero : (0 : UInt8) ∉ before
  first_colon : (58 : UInt8) ∉ between
  between_zero : (0 : UInt8) ∉ between
  blanks_run : Blanks blanks

/-- There is no colon in the key. -/
theorem ne_colon_of_mem_onKey : ∀ byte ∈ onKey, decide (byte ≠ 58) = true :=
  List.all_eq_true.mp (by decide)

theorem dropWhile_literal {blanks behind : Bytes} (hblanks : Blanks blanks) (value : Bool) :
    (blanks ++ (literal value ++ behind)).dropWhile isSpace = literal value ++ behind := by
  cases value with
  | true => exact dropWhile_append_cons hblanks (by decide)
  | false => exact dropWhile_append_cons hblanks (by decide)

/-- A value is read at its own literal and nowhere else. -/
theorem parseValue_eq_some_iff {text : Bytes} {value : Bool} :
    parseValue text = some value ↔ literal value <+: text := by
  have hboth : literal true <+: text → ¬ literal false <+: text := by
    rintro ⟨first, rfl⟩ ⟨second, hsecond⟩
    exact absurd (List.cons_eq_cons.mp hsecond).1 (by decide)
  simp only [parseValue, List.isPrefixOf_iff_prefix]
  change (if literal true <+: text then some true else
    if literal false <+: text then some false else none) = some value ↔ _
  split_ifs with htrue hfalse
  · cases value with
    | true => exact iff_of_true rfl htrue
    | false => exact iff_of_false (by decide) (hboth htrue)
  · cases value with
    | true => exact iff_of_false (by decide) htrue
    | false => exact iff_of_true rfl hfalse
  · cases value with
    | true => exact iff_of_false (by decide) htrue
    | false => exact iff_of_false (by decide) hfalse

namespace Reads

variable {data before between blanks behind : Bytes} {value : Bool}

/-- The C string of the payload ends behind the value at the earliest. -/
theorem cString_eq (hreads : Reads data before between blanks value behind) :
    cString data = layout before between blanks value (cString behind) := by
  have hkey : (0 : UInt8) ∉ onKey := by decide
  have hcolon : (0 : UInt8) ∉ [(58 : UInt8)] := by decide
  have hblanks : (0 : UInt8) ∉ blanks := fun hmem ↦
    absurd (hreads.blanks_run 0 hmem) (by decide)
  have hliteral : (0 : UInt8) ∉ literal value := by cases value <;> decide
  rw [hreads.shape, layout, ← List.singleton_append, cString_append hreads.before_zero,
    cString_append hkey, cString_append hreads.between_zero, cString_append hcolon,
    cString_append hblanks, cString_append hliteral]
  rfl

theorem strstr_eq (hreads : Reads data before between blanks value behind) :
    strstr onKey (cString data) =
      some (onKey ++ (between ++ 58 :: (blanks ++ (literal value ++ cString behind)))) :=
  (strstr_eq_pattern_append_iff (by decide)).mpr ⟨before, hreads.cString_eq, hreads.first_key⟩

theorem dropWhile_colon (hreads : Reads data before between blanks value behind) (text : Bytes) :
    (onKey ++ (between ++ 58 :: text)).dropWhile (· ≠ 58) = 58 :: text := by
  rw [List.dropWhile_append_of_pos ne_colon_of_mem_onKey]
  exact dropWhile_append_cons
    (fun byte hbyte ↦ decide_eq_true fun heq ↦ hreads.first_colon (heq ▸ hbyte)) (by decide)

theorem parse_eq (hreads : Reads data before between blanks value behind)
    (hlength : data.length ≤ 64) : parseRelaySet data = some value := by
  have hne : data.length ≠ 0 := by
    rw [hreads.shape, layout]
    simp
  have hfound : strstr (ascii "\"on\"") (cString data) =
      some (onKey ++ (between ++ 58 :: (blanks ++ (literal value ++ cString behind)))) :=
    hreads.strstr_eq
  rw [parseRelaySet, if_neg (by omega)]
  simp only [hfound, hreads.dropWhile_colon, dropWhile_literal hreads.blanks_run]
  exact parseValue_eq_some_iff.mpr (List.prefix_append _ _)

/-- A payload is read in one way only. -/
theorem unique (hreads : Reads data before between blanks value behind)
    {before' between' blanks' behind' : Bytes} {value' : Bool}
    (hreads' : Reads data before' between' blanks' value' behind') :
    before = before' ∧ between = between' ∧ behind = behind' := by
  have hkey := Option.some.inj (hreads.strstr_eq.symm.trans hreads'.strstr_eq)
  have hcolon := congrArg (List.dropWhile (· ≠ 58)) hkey
  rw [hreads.dropWhile_colon, hreads'.dropWhile_colon] at hcolon
  have htext := (List.cons_eq_cons.mp hcolon).2
  have hbetween : between = between' := by
    rw [htext] at hkey
    exact List.append_cancel_right (List.append_cancel_left hkey)
  have hstart := congrArg (List.dropWhile isSpace) htext
  rw [dropWhile_literal hreads.blanks_run, dropWhile_literal hreads'.blanks_run] at hstart
  have hblanks : blanks = blanks' := by
    rw [hstart] at htext
    exact List.append_cancel_right htext
  have hvalue : value = value' := by
    have hhere := parseValue_eq_some_iff.mpr (List.prefix_append (literal value) (cString behind))
    rw [hstart, parseValue_eq_some_iff.mpr (List.prefix_append _ _)] at hhere
    exact (Option.some.inj hhere).symm
  subst hbetween hblanks hvalue
  have hbefore : before = before' := by
    have hcString := hreads.cString_eq.symm.trans hreads'.cString_eq
    rw [layout, layout, hkey] at hcString
    exact List.append_cancel_right hcString
  subst hbefore
  have hdata := hreads.shape.symm.trans hreads'.shape
  rw [layout, layout] at hdata
  have hrest := List.append_cancel_left (List.append_cancel_left hdata)
  have hlast := (List.cons_eq_cons.mp (List.append_cancel_left hrest)).2
  exact ⟨rfl, rfl, List.append_cancel_left (List.append_cancel_left hlast)⟩

end Reads

/-- The three searches of the parser, put together. -/
theorem exists_reads {data key text behind : Bytes} {colon : UInt8} {value : Bool}
    (hkey : strstr onKey (cString data) = some key)
    (hcolon : key.dropWhile (· ≠ 58) = colon :: text)
    (hvalue : text.dropWhile isSpace = literal value ++ behind) :
    ∃ before between blanks behind, Reads data before between blanks value behind := by
  obtain ⟨-, -, ⟨found, rfl⟩, -⟩ := strstr_eq_some_iff.mp hkey
  obtain ⟨before, hstring, hfirst⟩ := (strstr_eq_pattern_append_iff (by decide)).mp hkey
  rw [List.dropWhile_append_of_pos ne_colon_of_mem_onKey] at hcolon
  obtain ⟨hfound, hstop⟩ := eq_takeWhile_append_cons hcolon
  obtain rfl : colon = 58 := by simpa using hstop
  have hbetween : ∀ byte ∈ found.takeWhile (· ≠ 58), decide (byte ≠ 58) = true := of_mem_takeWhile
  obtain ⟨between, hrun⟩ : ∃ between, found.takeWhile (· ≠ 58) = between := ⟨_, rfl⟩
  rw [hrun] at hfound hbetween
  subst hfound
  obtain ⟨blanks, htext, hblanks⟩ : ∃ blanks, text = blanks ++ (literal value ++ behind) ∧
      Blanks blanks :=
    ⟨text.takeWhile isSpace, by rw [← hvalue, List.takeWhile_append_dropWhile], of_mem_takeWhile⟩
  have hzero : (0 : UInt8) ∉ before ++ (onKey ++ (between ++ 58 :: text)) :=
    hstring ▸ zero_notMem_cString data
  have hdata := cString_append_rest data
  rw [hstring, htext] at hdata
  refine ⟨before, between, blanks, behind ++ data.dropWhile (· ≠ 0),
    ⟨hdata.symm.trans ?_, hfirst, ?_, ?_, ?_, hblanks⟩⟩
  · simp only [layout, List.append_assoc, List.cons_append]
  · exact fun hmem ↦ hzero (List.mem_append_left _ hmem)
  · exact fun hmem ↦ by simpa using hbetween 58 hmem
  · exact fun hmem ↦ hzero
      (List.mem_append_right _ (List.mem_append_right _ (List.mem_append_left _ hmem)))

/-- The parser takes exactly the payloads it can read so for a command. -/
theorem parseRelaySet_eq_some_iff {data : Bytes} {value : Bool} :
    parseRelaySet data = some value ↔
      data.length ≤ 64 ∧ ∃ before between blanks behind,
        Reads data before between blanks value behind := by
  constructor
  · intro hparse
    rw [parseRelaySet] at hparse
    split_ifs at hparse with hlength
    refine ⟨by omega, ?_⟩
    cases hkey : strstr (ascii "\"on\"") (cString data) with
    | none => rw [hkey] at hparse; cases hparse
    | some key =>
      rw [hkey] at hparse
      cases hcolon : key.dropWhile (· ≠ 58) with
      | nil => simp only [hcolon] at hparse; cases hparse
      | cons colon text =>
        simp only [hcolon] at hparse
        obtain ⟨behind, hvalue⟩ := parseValue_eq_some_iff.mp hparse
        exact exists_reads hkey hcolon hvalue.symm
  · rintro ⟨hlength, before, between, blanks, behind, hreads⟩
    exact hreads.parse_eq hlength

/-! ### The payloads on which the parser is the grammar -/

/-- Every command is read as one. -/
theorem Command.reads {data : Bytes} {value : Bool} (hcommand : Command value data) :
    ∃ before between blanks behind, Reads data before between blanks value behind ∧
      Among 123 before ∧ Blanks between ∧ Among 125 behind := by
  obtain ⟨before, between, blanks, behind, hbefore, hbetween, hblanks, hbehind, hdata⟩ := hcommand
  have hoff {text : Bytes} (htext : Blanks text) {byte : UInt8} (hbyte : isSpace byte = false) :
      byte ∉ text := fun hmem ↦ by simp [htext byte hmem] at hbyte
  obtain ⟨first, second, hfirst, hsecond, rfl⟩ := hbefore
  have hnot (byte : UInt8) (hbyte : isSpace byte = false) (hne : byte ≠ 123) :
      byte ∉ first ++ 123 :: second := by
    simp [hoff hfirst hbyte, hoff hsecond hbyte, hne]
  refine ⟨_, between, blanks, behind, ⟨hdata, ?_, hnot 0 rfl (by decide), hoff hbetween rfl,
    hoff hbetween rfl, hblanks⟩, ⟨first, second, hfirst, hsecond, rfl⟩, hbetween, hbehind⟩
  -- The key has two quotes, and there is one quote so far.
  intro hinfix
  have hquotes := hinfix.sublist.count_le (34 : UInt8)
  rw [List.count_append, List.count_eq_zero.mpr (hnot 34 rfl (by decide))] at hquotes
  exact absurd hquotes (by decide)

/-- If the payload can be read as a command, then the parts that the parser skips are as the
grammar has them. -/
def Strict (data : Bytes) : Prop :=
  data.length ≤ 64 → ∀ before between blanks value behind,
    Reads data before between blanks value behind →
      Among 123 before ∧ Blanks between ∧ Among 125 behind

/-- The parser accepts the grammar exactly on the strict payloads. -/
theorem parseRelaySet_exact_iff (data : Bytes) :
    (∀ value, parseRelaySet data = some value ↔
      1 ≤ data.length ∧ data.length ≤ 64 ∧ Command value data) ↔ Strict data := by
  constructor
  · intro hexact hlength before between blanks value behind hreads
    obtain ⟨-, -, hcommand⟩ := (hexact value).mp (hreads.parse_eq hlength)
    obtain ⟨_, _, _, _, hreads', hbefore, hbetween, hbehind⟩ := hcommand.reads
    obtain ⟨rfl, rfl, rfl⟩ := hreads.unique hreads'
    exact ⟨hbefore, hbetween, hbehind⟩
  · intro hstrict value
    constructor
    · intro hparse
      obtain ⟨hlength, before, between, blanks, behind, hreads⟩ :=
        parseRelaySet_eq_some_iff.mp hparse
      obtain ⟨hbefore, hbetween, hbehind⟩ := hstrict hlength _ _ _ _ _ hreads
      have hne : data.length ≠ 0 := fun hzero ↦ by simp [parseRelaySet, hzero] at hparse
      exact ⟨by omega, hlength, before, between, blanks, behind, hbefore, hbetween,
        hreads.blanks_run, hbehind, hreads.shape⟩
    · rintro ⟨-, hlength, hcommand⟩
      obtain ⟨_, _, _, _, hreads, -, -, -⟩ := hcommand.reads
      exact hreads.parse_eq hlength

/-- A text of another key is taken for the key, and the value of the next key for its value. -/
theorem parseRelaySet_misreads :
    ¬ ∀ data value, parseRelaySet data = some value ↔
      1 ≤ data.length ∧ data.length ≤ 64 ∧ Command value data := by
  intro hexact
  have hparse : parseRelaySet (ascii "\x7b\"led\":\"on\",\"lock\":true\x7d") = some true := by
    decide
  obtain ⟨-, -, hcommand⟩ := (hexact _ _).mp hparse
  exact absurd hcommand.filter_eq (by decide)

end LibreSwitch.Net.MqttPayload
