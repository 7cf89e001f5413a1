import Mathlib.Tactic
import LibreSwitch.Library.ByteString

/-!
# The enrollment response

`EnrollmentResponseCodec` of `net/enrollment_response.h`: a body of lines, where a line that starts
with `@@` names the field whose value begins on the next line and runs up to the next such line, or
to the end, without trailing line ends. The parser copies nothing: a field is a position in the
body and a length. `EnrollmentField.text` are the bytes it stands for.

The loop of the source takes one line at a time, so `parse` is a fold over the lines of the body,
with the offset of the line as part of its state. `inBounds_parse` says that every field lies inside
the body, so a field that is present has bytes (`text_ne_nil_of_present`).
-/

set_option autoImplicit false
set_option relaxedAutoImplicit false

namespace LibreSwitch.Net

open LibreSwitch.Library

/-- The members of `EnrollmentResponse` that hold a field. -/
inductive FieldName
  | deviceId
  | mqttHost
  | mqttRoot
  | tlsCa
  | tlsCert
  | tlsKey
  deriving DecidableEq, Repr

/-- `EnrollmentField`: a part of the body that was parsed, as an offset and a length. -/
structure EnrollmentField where
  ptr : Option ℕ := none
  len : ℕ := 0
  deriving DecidableEq, Repr

namespace EnrollmentField

def present (field : EnrollmentField) : Bool := field.ptr.isSome && field.len > 0

/-- The bytes of a field. -/
def text (body : Bytes) (field : EnrollmentField) : Bytes :=
  match field.ptr with
  | none => []
  | some ptr => (body.drop ptr).take field.len

/-- The field lies inside the body. -/
def InBounds (body : Bytes) (field : EnrollmentField) : Prop :=
  ∀ ptr, field.ptr = some ptr → ptr + field.len ≤ body.length

theorem present_of_text_ne_nil {body : Bytes} {field : EnrollmentField}
    (htext : field.text body ≠ []) : field.present = true := by
  obtain ⟨ptr, len⟩ := field
  cases ptr with
  | none => exact absurd rfl htext
  | some ptr =>
    cases len with
    | zero => exact absurd (by simp [text]) htext
    | succ len => rfl

theorem length_text {body : Bytes} {field : EnrollmentField} (hbounds : field.InBounds body)
    (hpresent : field.present = true) : (field.text body).length = field.len := by
  obtain ⟨ptr, len⟩ := field
  cases ptr with
  | none => cases hpresent
  | some ptr =>
    have hend : ptr + len ≤ body.length := hbounds ptr rfl
    simp only [text, List.length_take, List.length_drop]
    omega

end EnrollmentField

/-- `EnrollmentResponse`. -/
structure EnrollmentResponse where
  field : FieldName → EnrollmentField := fun _ ↦ {}
  valid : Bool := false

namespace EnrollmentResponse

/-- The bytes of a field of a response that was parsed from a body. -/
def text (response : EnrollmentResponse) (body : Bytes) (name : FieldName) : Bytes :=
  (response.field name).text body

end EnrollmentResponse

namespace EnrollmentResponseCodec

def kMaxResponse : ℕ := 8192

/-- `fieldFor`: the member that a marker names. -/
def fieldFor (name : Bytes) : Option FieldName :=
  if name = ascii "device_id" then some .deviceId
  else if name = ascii "mqtt_host" then some .mqttHost
  else if name = ascii "mqtt_root" then some .mqttRoot
  else if name = ascii "tls_ca" then some .tlsCa
  else if name = ascii "tls_cert" then some .tlsCert
  else if name = ascii "tls_key" then some .tlsKey
  else none

/-- The loop of `trimEnd`: the length without trailing line ends. -/
def trimLength (body : Bytes) (ptr : ℕ) : ℕ → ℕ
  | 0 => 0
  | n + 1 =>
    if body.getD (ptr + n) 0 = 10 ∨ body.getD (ptr + n) 0 = 13 then trimLength body ptr n
    else n + 1

/-- `trimEnd`: the field ends here. -/
def trimEnd (body : Bytes) (field : EnrollmentField) (stop : ℕ) : EnrollmentField :=
  match field.ptr with
  | none => { field with len := 0 }
  | some ptr => { field with len := trimLength body ptr (stop - ptr) }

/-- The state of the loop of `parse`: the offset of the line, the member whose value is being
accrued, and the members. -/
structure Scan where
  i : ℕ := 0
  cur : Option FieldName := none
  field : FieldName → EnrollmentField := fun _ ↦ {}

/-- Closes the current field. -/
def Scan.close (body : Bytes) (scan : Scan) (stop : ℕ) : FieldName → EnrollmentField :=
  match scan.cur with
  | none => scan.field
  | some name => Function.update scan.field name (trimEnd body (scan.field name) stop)

/-- The name on a marker line: what follows `@@`, without a carriage return at the end. -/
def markerName (line : Bytes) : Bytes :=
  let name := line.drop 2
  if name.getLast? = some 13 then name.dropLast else name

/-- One round of the loop of `parse`, for the line at the offset of the state. -/
def scanLine (body : Bytes) (scan : Scan) (line : Bytes) : Scan :=
  let eol := scan.i + line.length
  if (ascii "@@").isPrefixOf line then
    let closed := scan.close body scan.i
    match fieldFor (markerName line) with
    | none => { i := eol + 1, cur := none, field := closed }
    | some name =>
      { i := eol + 1
        cur := some name
        field := Function.update closed name { ptr := some (min (eol + 1) body.length), len := 0 } }
  else { scan with i := eol + 1 }

/-- The fields after the last line. -/
def scanFields (body : Bytes) : FieldName → EnrollmentField :=
  ((body.splitOn 10).foldl (scanLine body) {}).close body body.length

/-- `EnrollmentResponseCodec::parse`. -/
def parse (body : Bytes) : EnrollmentResponse :=
  if body.length = 0 ∨ body.length > kMaxResponse then {}
  else
    { field := scanFields body
      valid := (scanFields body .tlsCa).present && (scanFields body .tlsCert).present &&
        (scanFields body .tlsKey).present && (scanFields body .mqttHost).present }

example : (parse (ascii "@@tls_ca\nca\n@@mqtt_host\r\nh\r\n\n")).text
    (ascii "@@tls_ca\nca\n@@mqtt_host\r\nh\r\n\n") .mqttHost = ascii "h" := by decide

/-! ### The fields lie inside the body -/

theorem trimLength_le (body : Bytes) (ptr n : ℕ) : trimLength body ptr n ≤ n := by
  induction n with
  | zero => exact le_rfl
  | succ n ih =>
    unfold trimLength
    split_ifs
    · exact ih.trans (Nat.le_succ n)
    · exact le_rfl

theorem inBounds_trimEnd {body : Bytes} {field : EnrollmentField} (hbounds : field.InBounds body)
    {stop : ℕ} (hstop : stop ≤ body.length) : (trimEnd body field stop).InBounds body := by
  obtain ⟨ptr, len⟩ := field
  intro start hstart
  cases ptr with
  | none => cases hstart
  | some ptr =>
    obtain rfl : ptr = start := by simpa [trimEnd] using hstart
    have hfirst : ptr + len ≤ body.length := hbounds ptr rfl
    have hle := trimLength_le body ptr (stop - ptr)
    simp only [trimEnd]
    omega

theorem inBounds_close {body : Bytes} {scan : Scan}
    (hbounds : ∀ name, (scan.field name).InBounds body) {stop : ℕ} (hstop : stop ≤ body.length)
    (name : FieldName) : (scan.close body stop name).InBounds body := by
  unfold Scan.close
  cases hcur : scan.cur with
  | none => exact hbounds name
  | some current =>
    by_cases hname : name = current
    · subst hname
      simp only [Function.update_self]
      exact inBounds_trimEnd (hbounds name) hstop
    · simp only [Function.update_of_ne hname]
      exact hbounds name

theorem inBounds_scanLine {body : Bytes} {scan : Scan} {line : Bytes}
    (hbounds : ∀ name, (scan.field name).InBounds body) (hline : scan.i ≤ body.length)
    (name : FieldName) : ((scanLine body scan line).field name).InBounds body := by
  have hclosed := inBounds_close hbounds hline
  unfold scanLine
  split_ifs with hmarker
  · cases hfield : fieldFor (markerName line) with
    | none => exact hclosed name
    | some current =>
      by_cases hname : name = current
      · subst hname
        intro ptr hptr
        simp only [Function.update_self, Option.some.injEq] at hptr ⊢
        omega
      · simp only [Function.update_of_ne hname]
        exact hclosed name
  · exact hbounds name

theorem i_scanLine (body : Bytes) (scan : Scan) (line : Bytes) :
    (scanLine body scan line).i = scan.i + line.length + 1 := by
  unfold scanLine
  split_ifs
  · cases fieldFor (markerName line) <;> rfl
  · rfl

/-- The lines that are left reach to the end of the body, so every line starts inside it. -/
theorem inBounds_foldl {body : Bytes} {lines : List Bytes} {scan : Scan}
    (hlines : lines ≠ [] → scan.i + ([10].intercalate lines).length = body.length)
    (hbounds : ∀ name, (scan.field name).InBounds body) (name : FieldName) :
    ((lines.foldl (scanLine body) scan).field name).InBounds body := by
  induction lines generalizing scan with
  | nil => exact hbounds name
  | cons line rest ih =>
    have hlength := hlines (List.cons_ne_nil line rest)
    have hline : scan.i ≤ body.length := by omega
    refine ih (fun hrest ↦ ?_) fun other ↦ inBounds_scanLine hbounds hline other
    obtain ⟨next, more, rfl⟩ := List.exists_cons_of_ne_nil hrest
    rw [List.intercalate_cons_cons, List.length_append, List.length_append,
      List.length_singleton] at hlength
    rw [i_scanLine]
    omega

/-- Every field of a parsed response lies inside the body. -/
theorem inBounds_parse (body : Bytes) (name : FieldName) :
    ((parse body).field name).InBounds body := by
  unfold parse
  split_ifs
  · intro ptr hptr
    cases hptr
  · refine inBounds_close (fun other ↦ inBounds_foldl (fun _ ↦ ?_) (fun _ _ hptr ↦ ?_) other)
      le_rfl name
    · rw [List.intercalate_splitOn]
      exact Nat.zero_add _
    · cases hptr

/-- A field that is present has bytes. -/
theorem text_ne_nil_of_present {body : Bytes} {name : FieldName}
    (hpresent : ((parse body).field name).present = true) : (parse body).text body name ≠ [] := by
  have hlength := EnrollmentField.length_text (inBounds_parse body name) hpresent
  have hpos : 0 < ((parse body).field name).len := by
    simp only [EnrollmentField.present, Bool.and_eq_true, decide_eq_true_eq] at hpresent
    exact hpresent.2
  exact List.ne_nil_of_length_pos (by rw [EnrollmentResponse.text, hlength]; exact hpos)

/-- The bytes of the fields that `parse` finds in a body. -/
def fields (body : Bytes) (name : FieldName) : Bytes := (parse body).text body name

theorem present_iff {body : Bytes} {name : FieldName} :
    ((parse body).field name).present = true ↔ fields body name ≠ [] :=
  ⟨text_ne_nil_of_present, EnrollmentField.present_of_text_ne_nil⟩

/-- The fields without which a response is not valid. -/
def Required (name : FieldName) : Prop :=
  name = .tlsCa ∨ name = .tlsCert ∨ name = .tlsKey ∨ name = .mqttHost

/-- A response is valid exactly when each required field has bytes. -/
theorem valid_iff {body : Bytes} :
    (parse body).valid = true ↔ ∀ name, Required name → fields body name ≠ [] := by
  have hpresent : (parse body).valid = true ↔
      ∀ name, Required name → ((parse body).field name).present = true := by
    unfold parse Required
    split_ifs
    · refine iff_of_false (by simp) fun hall ↦ ?_
      exact absurd (hall .tlsCa (.inl rfl)) Bool.false_ne_true
    · simp [and_assoc]
  rw [hpresent]
  exact forall_congr' fun name ↦ imp_congr_right fun _ ↦ present_iff

end EnrollmentResponseCodec

end LibreSwitch.Net
