import Mathlib.Data.List.DropRight
import LibreSwitch.Library.ByteString

/-!
# Requests in the text of HTTP/1.1

What a server makes of the bytes on a connection: a request line, header fields up to an empty line,
and a body as long as the fields say. Lines end in CRLF. `parse` reads one request from the front
and leaves what is behind it. It refuses what servers disagree about: other line ends, blanks in the
target, control characters, and more than one field about the length of the body.

`parse_render_iff` is the round trip. A request that was written down is read back, with nothing
taken from or left to what is behind it, exactly if it is `WellFormed`.
-/

set_option autoImplicit false
set_option relaxedAutoImplicit false

namespace LibreSwitch.Library

/-- A request. -/
structure HttpRequest where
  method : Bytes
  target : Bytes
  fields : List (Bytes × Bytes)
  body : Bytes
  deriving DecidableEq

namespace HttpRequest

/-! ### Lines -/

/-- The end of a line. -/
def crlf : Bytes := [13, 10]

/-- The first line, and what is behind its end. -/
def line : Bytes → Option (Bytes × Bytes)
  | first :: second :: rest =>
    if first = 13 ∧ second = 10 then some ([], rest)
    else (line (second :: rest)).map fun found ↦ (first :: found.1, found.2)
  | _ => none

theorem line_append {text : Bytes} (htext : (13 : UInt8) ∉ text) (rest : Bytes) :
    line (text ++ crlf ++ rest) = some (text, rest) := by
  induction text with
  | nil => rfl
  | cons first text ih =>
    have hfirst : (13 : UInt8) ≠ first := List.ne_of_not_mem_cons htext
    have hmore : (13 : UInt8) ∉ text := List.not_mem_of_not_mem_cons htext
    have hpair : ∃ second behind, text ++ crlf ++ rest = second :: behind := by
      cases text with
      | nil => exact ⟨_, _, rfl⟩
      | cons second behind => exact ⟨_, _, rfl⟩
    obtain ⟨second, behind, hbehind⟩ := hpair
    rw [List.cons_append, List.cons_append, hbehind, line, if_neg fun heq ↦ hfirst heq.1.symm,
      ← hbehind, ih hmore]
    rfl

/-! ### Header fields -/

/-- The bytes of names: digits, letters, and the other bytes of a `token`. -/
def isTchar (byte : UInt8) : Bool :=
  isDigit byte || 65 ≤ byte && byte ≤ 90 || 97 ≤ byte && byte ≤ 122 ||
    [33, 35, 36, 37, 38, 39, 42, 43, 45, 46, 94, 95, 96, 124, 126].contains byte

/-- The bytes of values. -/
def isValueByte (byte : UInt8) : Bool := byte = 9 || 32 ≤ byte && byte ≠ 127

/-- The white space around values. -/
def isOws (byte : UInt8) : Bool := byte = 32 || byte = 9

/-- A text without the white space around it. -/
def trimOws (text : Bytes) : Bytes := (text.dropWhile isOws).rdropWhile isOws

theorem trimOws_trimOws (text : Bytes) : trimOws (trimOws text) = trimOws text := by
  have hstart : (trimOws text).dropWhile isOws = trimOws text := by
    rw [List.dropWhile_eq_self_iff]
    intro hpos
    have hne : text.dropWhile isOws ≠ [] := by
      intro hnil
      rw [trimOws, hnil] at hpos
      exact absurd hpos (lt_irrefl 0)
    have hhead : (trimOws text)[0] = (text.dropWhile isOws).head hne := by
      rw [List.head_eq_getElem]
      exact (List.rdropWhile_prefix isOws (text.dropWhile isOws)).getElem hpos
    rw [hhead, List.head_dropWhile_not isOws hne]
    exact Bool.false_ne_true
  rw [trimOws, hstart, trimOws, List.rdropWhile_idempotent]

theorem trimOws_of_forall {text : Bytes} (htext : ∀ byte ∈ text, isOws byte = false) :
    trimOws text = text := by
  have hstart : text.dropWhile isOws = text := by
    rw [List.dropWhile_eq_self_iff]
    intro hpos
    rw [htext _ (List.getElem_mem hpos)]
    exact Bool.false_ne_true
  rw [trimOws, hstart, List.rdropWhile_eq_self_iff]
  intro hne
  rw [htext _ (List.getLast_mem hne)]
  exact Bool.false_ne_true

/-- A field of a header is read from its line. -/
def parseField (text : Bytes) : Option (Bytes × Bytes) :=
  match strchr 58 text with
  | none => none
  | some found =>
    let name := text.takeWhile (· ≠ 58)
    let value := trimOws found.tail
    if name ≠ [] ∧ name.all isTchar = true ∧ value.all isValueByte = true then some (name, value)
    else none

def renderField (field : Bytes × Bytes) : Bytes := field.1 ++ 58 :: 32 :: field.2

/-- A name, and a value without white space around it. -/
structure FieldOk (field : Bytes × Bytes) : Prop where
  name_ne : field.1 ≠ []
  name : field.1.all isTchar = true
  value : field.2.all isValueByte = true
  trimmed : trimOws field.2 = field.2

theorem notMem_of_all {text : Bytes} {p : UInt8 → Bool} {byte : UInt8} (htext : text.all p = true)
    (hbyte : p byte = false) : byte ∉ text := by
  intro hmem
  rw [List.all_eq_true.mp htext byte hmem] at hbyte
  cases hbyte

theorem parseField_renderField {field : Bytes × Bytes} (hfield : FieldOk field) :
    parseField (renderField field) = some field := by
  have hcolon : (58 : UInt8) ∉ field.1 := notMem_of_all hfield.name (by decide)
  have hvalue : trimOws (32 :: field.2) = field.2 := hfield.trimmed
  unfold parseField renderField
  rw [strchr_append_cons hcolon, takeWhile_ne_append_cons hcolon]
  simp only [List.tail_cons, hvalue]
  exact if_pos ⟨hfield.name_ne, hfield.name, hfield.value⟩

theorem fieldOk_of_parseField {text : Bytes} {field : Bytes × Bytes}
    (hparse : parseField text = some field) : FieldOk field := by
  unfold parseField at hparse
  cases hfound : strchr 58 text with
  | none =>
    rw [hfound] at hparse
    cases hparse
  | some found =>
    rw [hfound] at hparse
    simp only at hparse
    split_ifs at hparse with hok
    obtain rfl := Option.some.inj hparse
    exact ⟨hok.1, hok.2.1, hok.2.2, trimOws_trimOws _⟩

/-- The fields up to the empty line. Every line of a field has bytes, so as many rounds as there are
bytes are enough. -/
def parseFields : ℕ → Bytes → Option (List (Bytes × Bytes) × Bytes)
  | 0, _ => none
  | rounds + 1, input =>
    match line input with
    | none => none
    | some ([], rest) => some ([], rest)
    | some (text, rest) =>
      match parseField text with
      | none => none
      | some field =>
        (parseFields rounds rest).map fun parsed ↦ (field :: parsed.1, parsed.2)

def renderFields (fields : List (Bytes × Bytes)) : Bytes :=
  (fields.flatMap fun field ↦ renderField field ++ crlf) ++ crlf

theorem length_le_renderFields (fields : List (Bytes × Bytes)) :
    fields.length ≤ (renderFields fields).length := by
  unfold renderFields
  induction fields with
  | nil => exact Nat.zero_le _
  | cons field fields ih =>
    simp only [List.flatMap_cons, List.length_cons, List.length_append, renderField] at ih ⊢
    omega

theorem parseFields_renderFields {fields : List (Bytes × Bytes)}
    (hfields : ∀ field ∈ fields, FieldOk field) (rest : Bytes) {rounds : ℕ}
    (hrounds : fields.length < rounds) :
    parseFields rounds (renderFields fields ++ rest) = some (fields, rest) := by
  induction fields generalizing rounds with
  | nil =>
    obtain ⟨rounds, rfl⟩ := Nat.exists_eq_succ_of_ne_zero (Nat.ne_zero_of_lt hrounds)
    rfl
  | cons field fields ih =>
    obtain ⟨rounds, rfl⟩ := Nat.exists_eq_succ_of_ne_zero (Nat.ne_zero_of_lt hrounds)
    have hfield := hfields field List.mem_cons_self
    have hcr : (13 : UInt8) ∉ renderField field := by
      unfold renderField
      rw [List.mem_append, List.mem_cons, List.mem_cons, not_or, not_or, not_or]
      exact ⟨notMem_of_all hfield.name (by decide), by decide, by decide,
        notMem_of_all hfield.value (by decide)⟩
    have hne : renderField field ≠ [] := List.append_ne_nil_of_left_ne_nil hfield.name_ne _
    have hline : line (renderFields (field :: fields) ++ rest) =
        some (renderField field, renderFields fields ++ rest) := by
      have hsplit : renderFields (field :: fields) ++ rest =
          renderField field ++ crlf ++ (renderFields fields ++ rest) := by
        simp only [renderFields, List.flatMap_cons, List.append_assoc]
      rw [hsplit, line_append hcr]
    unfold parseFields
    rw [hline]
    obtain ⟨byte, more, hmore⟩ := List.exists_cons_of_ne_nil hne
    rw [hmore]
    simp only
    rw [← hmore, parseField_renderField hfield]
    simp only
    rw [ih (fun other hother ↦ hfields other (List.mem_cons_of_mem _ hother))
      (Nat.lt_of_succ_lt_succ hrounds)]
    rfl

theorem fieldOk_of_parseFields {rounds : ℕ} {input rest : Bytes} {fields : List (Bytes × Bytes)}
    (hparse : parseFields rounds input = some (fields, rest)) :
    ∀ field ∈ fields, FieldOk field := by
  induction rounds generalizing input fields with
  | zero => cases hparse
  | succ rounds ih =>
    unfold parseFields at hparse
    cases hline : line input with
    | none =>
      rw [hline] at hparse
      cases hparse
    | some found =>
      obtain ⟨text, behind⟩ := found
      rw [hline] at hparse
      cases text with
      | nil =>
        obtain ⟨rfl, -⟩ := Prod.mk.inj (Option.some.inj hparse)
        exact fun field hfield ↦ absurd hfield List.not_mem_nil
      | cons byte text =>
        simp only at hparse
        cases hfield : parseField (byte :: text) with
        | none =>
          rw [hfield] at hparse
          cases hparse
        | some field =>
          rw [hfield] at hparse
          obtain ⟨⟨others, last⟩, hparsed, heq⟩ := Option.map_eq_some_iff.mp hparse
          obtain ⟨rfl, rfl⟩ := Prod.mk.inj heq
          rw [List.forall_mem_cons]
          exact ⟨fieldOk_of_parseField hfield, ih hparsed⟩

/-! ### Whole requests -/

/-- A name in lower case. -/
def lower (name : Bytes) : Bytes :=
  name.map fun byte ↦ if 65 ≤ byte && byte ≤ 90 then byte + 32 else byte

/-- The fields that say how long the body is. -/
def lengthFields (fields : List (Bytes × Bytes)) : List (Bytes × Bytes) :=
  fields.filter fun field ↦
    lower field.1 = ascii "content-length" || lower field.1 = ascii "transfer-encoding"

/-- The length of the body, if the fields agree on one and give it as a number. -/
def contentLength (fields : List (Bytes × Bytes)) : Option ℕ :=
  match lengthFields fields with
  | [] => some 0
  | [field] =>
    if lower field.1 = ascii "content-length" ∧ field.2 ≠ [] ∧ field.2.all isDigit = true then
      some (decimalValue field.2)
    else none
  | _ => none

/-- The bytes of targets. -/
def isTargetByte (byte : UInt8) : Bool := 32 < byte && byte ≠ 127

/-- The request line, and the first line behind it. -/
def parseStart (input : Bytes) : Option (Bytes × Bytes × Bytes) :=
  match line input with
  | none => none
  | some (text, rest) =>
    match text.splitOn 32 with
    | [method, target, version] =>
      if method ≠ [] ∧ method.all isTchar = true ∧ target ≠ [] ∧ target.all isTargetByte = true ∧
          version = ascii "HTTP/1.1" then
        some (method, target, rest)
      else none
    | _ => none

/-- One request from the front, and what is behind it. -/
def parse (input : Bytes) : Option (HttpRequest × Bytes) :=
  match parseStart input with
  | none => none
  | some (method, target, rest) =>
    match parseFields (rest.length + 1) rest with
    | none => none
    | some (fields, rest) =>
      match contentLength fields with
      | none => none
      | some length =>
        if length ≤ rest.length then
          some (⟨method, target, fields, rest.take length⟩, rest.drop length)
        else none

/-- The head of a request, without the empty line. -/
def renderStart (method target : Bytes) : Bytes :=
  method ++ 32 :: (target ++ 32 :: ascii "HTTP/1.1")

/-- A request written down. -/
def render (request : HttpRequest) : Bytes :=
  renderStart request.method request.target ++ crlf ++
    (renderFields request.fields ++ request.body)

/-- A request that every server reads as it was meant. -/
structure WellFormed (request : HttpRequest) : Prop where
  method_ne : request.method ≠ []
  method : request.method.all isTchar = true
  target_ne : request.target ≠ []
  target : request.target.all isTargetByte = true
  fields : ∀ field ∈ request.fields, FieldOk field
  length : contentLength request.fields = some request.body.length

theorem parseStart_renderStart {method target : Bytes} (hmethod_ne : method ≠ [])
    (hmethod : method.all isTchar = true) (htarget_ne : target ≠ [])
    (htarget : target.all isTargetByte = true) (rest : Bytes) :
    parseStart (renderStart method target ++ crlf ++ rest) = some (method, target, rest) := by
  have hcr : (13 : UInt8) ∉ renderStart method target := by
    unfold renderStart
    rw [List.mem_append, List.mem_cons, List.mem_append, List.mem_cons, not_or, not_or, not_or,
      not_or]
    exact ⟨notMem_of_all hmethod (by decide), by decide, notMem_of_all htarget (by decide),
      by decide, by decide⟩
  have hsplit : (renderStart method target).splitOn 32 = [method, target, ascii "HTTP/1.1"] := by
    unfold renderStart
    rw [List.splitOn_append_cons_self_of_not_mem (notMem_of_all hmethod (by decide)),
      List.splitOn_append_cons_self_of_not_mem (notMem_of_all htarget (by decide))]
    rfl
  unfold parseStart
  rw [line_append hcr]
  simp only [hsplit]
  exact if_pos ⟨hmethod_ne, hmethod, htarget_ne, htarget, trivial⟩

theorem ok_of_parseStart {input method target rest : Bytes}
    (hparse : parseStart input = some (method, target, rest)) :
    method ≠ [] ∧ method.all isTchar = true ∧ target ≠ [] ∧ target.all isTargetByte = true := by
  unfold parseStart at hparse
  cases hline : line input with
  | none =>
    rw [hline] at hparse
    cases hparse
  | some found =>
    rw [hline] at hparse
    simp only at hparse
    split at hparse
    · split_ifs at hparse with hok
      obtain ⟨rfl, heq⟩ := Prod.mk.inj (Option.some.inj hparse)
      obtain ⟨rfl, -⟩ := Prod.mk.inj heq
      exact ⟨hok.1, hok.2.1, hok.2.2.1, hok.2.2.2.1⟩
    · cases hparse

theorem parse_render {request : HttpRequest} (hrequest : request.WellFormed) (rest : Bytes) :
    parse (request.render ++ rest) = some (request, rest) := by
  have hstart := parseStart_renderStart hrequest.method_ne hrequest.method hrequest.target_ne
    hrequest.target (renderFields request.fields ++ (request.body ++ rest))
  have hrounds : request.fields.length <
      (renderFields request.fields ++ (request.body ++ rest)).length + 1 := by
    have hlength := length_le_renderFields request.fields
    rw [List.length_append]
    omega
  have hfields := parseFields_renderFields hrequest.fields (request.body ++ rest) hrounds
  have hsame : request.render ++ rest = renderStart request.method request.target ++ crlf ++
      (renderFields request.fields ++ (request.body ++ rest)) := by
    simp only [render, List.append_assoc]
  unfold parse
  rw [hsame, hstart]
  simp only
  rw [hfields]
  simp only
  rw [hrequest.length]
  simp only
  rw [if_pos (by simp), List.take_left, List.drop_left]

/-- What is read is well formed. -/
theorem wellFormed_of_parse {input rest : Bytes} {request : HttpRequest}
    (hparse : parse input = some (request, rest)) : request.WellFormed := by
  unfold parse at hparse
  cases hstart : parseStart input with
  | none =>
    rw [hstart] at hparse
    cases hparse
  | some start =>
    obtain ⟨method, target, behind⟩ := start
    rw [hstart] at hparse
    simp only at hparse
    cases hfields : parseFields (behind.length + 1) behind with
    | none =>
      rw [hfields] at hparse
      cases hparse
    | some parsed =>
      obtain ⟨fields, last⟩ := parsed
      rw [hfields] at hparse
      simp only at hparse
      cases hlength : contentLength fields with
      | none =>
        rw [hlength] at hparse
        cases hparse
      | some length =>
        rw [hlength] at hparse
        simp only at hparse
        split_ifs at hparse with hfits
        obtain ⟨rfl, -⟩ := Prod.mk.inj (Option.some.inj hparse)
        obtain ⟨hmethod_ne, hmethod, htarget_ne, htarget⟩ := ok_of_parseStart hstart
        refine ⟨hmethod_ne, hmethod, htarget_ne, htarget, fieldOk_of_parseFields hfields, ?_⟩
        rw [hlength, List.length_take, min_eq_left hfits]

/-- A request is read back, with nothing taken from or left to what is behind it, exactly if it is
well formed. -/
theorem parse_render_iff (request : HttpRequest) (rest : Bytes) :
    parse (request.render ++ rest) = some (request, rest) ↔ request.WellFormed :=
  ⟨wellFormed_of_parse, fun hrequest ↦ parse_render hrequest rest⟩

end HttpRequest

end LibreSwitch.Library
