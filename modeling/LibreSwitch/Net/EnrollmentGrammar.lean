import Mathlib.Data.List.DropRight
import LibreSwitch.Net.EnrollmentResponse

/-!
# The lines of an enrollment response

What `EnrollmentResponseCodec.parse` finds, in terms of the lines of the body alone. The value of a
field are the lines between its last marker line and the next marker line of any name, without the
line ends at their end (`HasValue`). The parser gets there with offsets that are opened, closed and
opened again while it passes over the lines. `scanLine_marks` and `Settled.foldl` say what one line
and all later lines do to a field, and `fields_of_hasValue` puts them together.

`Renders` is a response as a server writes it, and `hasValue_of_renders` that it is read back.
-/

set_option autoImplicit false
set_option relaxedAutoImplicit false

namespace LibreSwitch.Net

open LibreSwitch.Library

namespace EnrollmentResponseCodec

/-! ### Lines and values -/

/-- The name of a field on its marker line. -/
def label : FieldName → Bytes
  | .deviceId => ascii "device_id"
  | .mqttHost => ascii "mqtt_host"
  | .mqttRoot => ascii "mqtt_root"
  | .tlsCa => ascii "tls_ca"
  | .tlsCert => ascii "tls_cert"
  | .tlsKey => ascii "tls_key"

/-- A line that begins a field, known or unknown. -/
def IsMarker (line : Bytes) : Prop := ascii "@@" <+: line

/-- The marker line of a field, with a carriage return at its end or without. -/
def Marks (name : FieldName) (line : Bytes) : Prop :=
  line = ascii "@@" ++ label name ∨ line = ascii "@@" ++ label name ++ [13]

instance (line : Bytes) : Decidable (IsMarker line) := inferInstanceAs (Decidable (_ <+: _))

instance (name : FieldName) (line : Bytes) : Decidable (Marks name line) :=
  inferInstanceAs (Decidable (_ ∨ _))

def isEol (byte : UInt8) : Bool := byte = 10 || byte = 13

/-- A text without the line ends at its end. -/
def trimmed (text : Bytes) : Bytes := text.rdropWhile isEol

/-- Lines, each with its line feed. -/
def joined (lines : List Bytes) : Bytes := lines.flatMap (· ++ [10])

/-- The value of a field in a body: the lines behind its last marker line, up to the next marker
line of any name. -/
structure HasValue (body : Bytes) (name : FieldName) (text : Bytes) : Prop where
  exists_split : ∃ before marker value rest,
    body.splitOn 10 = before ++ marker :: (value ++ rest) ∧ Marks name marker ∧
      (∀ line ∈ value ++ rest, ¬ Marks name line) ∧ (∀ line ∈ value, ¬ IsMarker line) ∧
      (∀ line ∈ rest.head?, IsMarker line) ∧ text = trimmed (joined value)

/-! ### Joining lines -/

@[simp] theorem joined_append (first second : List Bytes) :
    joined (first ++ second) = joined first ++ joined second := List.flatMap_append

@[simp] theorem joined_cons (line : Bytes) (rest : List Bytes) :
    joined (line :: rest) = line ++ [10] ++ joined rest := List.flatMap_cons

theorem intercalate_append (first : List Bytes) {second : List Bytes} (hsecond : second ≠ []) :
    [10].intercalate (first ++ second) = joined first ++ [10].intercalate second := by
  induction first with
  | nil => rfl
  | cons line rest ih =>
    obtain ⟨next, more, hmore⟩ := List.exists_cons_of_ne_nil
      (List.append_ne_nil_of_right_ne_nil rest hsecond)
    rw [List.cons_append, joined_cons, List.append_assoc _ (joined rest), ← ih, hmore,
      List.intercalate_cons_cons]

/-- Joined lines end with one line feed more. -/
theorem joined_eq {lines : List Bytes} (hlines : lines ≠ []) :
    joined lines = [10].intercalate lines ++ [10] := by
  obtain ⟨before, last, rfl⟩ := (List.eq_nil_or_concat' lines).resolve_left hlines
  rw [intercalate_append before (List.cons_ne_nil _ _), joined_append]
  simp [joined]

@[simp] theorem trimmed_append_eol (text : Bytes) {byte : UInt8} (hbyte : isEol byte = true) :
    trimmed (text ++ [byte]) = trimmed text := List.rdropWhile_concat_pos _ _ _ hbyte

/-! ### Marker lines -/

theorem fieldFor_eq_some_iff {text : Bytes} {name : FieldName} :
    fieldFor text = some name ↔ text = label name := by
  constructor
  · intro hfield
    unfold fieldFor at hfield
    split_ifs at hfield with h1 h2 h3 h4 h5 h6 <;> cases hfield <;> assumption
  · rintro rfl
    cases name <;> decide

theorem getLast?_label (name : FieldName) : (label name).getLast? ≠ some 13 := by
  cases name <;> decide

theorem markerName_append (rest : Bytes) : markerName (ascii "@@" ++ rest) =
    if rest.getLast? = some 13 then rest.dropLast else rest := by
  have hdrop : (ascii "@@" ++ rest).drop 2 = rest := List.drop_left' (by decide)
  rw [markerName, hdrop]

/-- The parser opens a field at exactly its marker lines. -/
theorem marks_iff {name : FieldName} {line : Bytes} :
    Marks name line ↔ IsMarker line ∧ fieldFor (markerName line) = some name := by
  rw [fieldFor_eq_some_iff]
  constructor
  · rintro (rfl | rfl)
    · refine ⟨List.prefix_append _ _, ?_⟩
      rw [markerName_append, if_neg (getLast?_label name)]
    · refine ⟨⟨label name ++ [13], by rw [List.append_assoc]⟩, ?_⟩
      rw [List.append_assoc, markerName_append, if_pos List.getLast?_concat, List.dropLast_concat]
  · rintro ⟨⟨rest, rfl⟩, hname⟩
    rw [markerName_append] at hname
    split_ifs at hname with hreturn
    · obtain ⟨front, rfl⟩ : ∃ front, rest = front ++ [13] :=
        ⟨rest.dropLast, (List.dropLast_append_getLast? 13 hreturn).symm⟩
      rw [List.dropLast_concat] at hname
      exact .inr (by rw [hname, List.append_assoc])
    · exact .inl (by rw [hname])

/-! ### What a line does to a field -/

section Scanning

variable {body line : Bytes} {name : FieldName} {scan : Scan}

theorem isPrefixOf_of_isMarker (hmarker : IsMarker line) :
    (ascii "@@").isPrefixOf line = true := List.isPrefixOf_iff_prefix.mpr hmarker

/-- A line that is no marker only moves the offset. -/
theorem scanLine_of_not_isMarker (hmarker : ¬ IsMarker line) :
    scanLine body scan line = { scan with i := scan.i + line.length + 1 } :=
  if_neg fun hprefixOf ↦ hmarker (List.isPrefixOf_iff_prefix.mp hprefixOf)

theorem foldl_of_not_isMarker {lines : List Bytes} (hlines : ∀ line ∈ lines, ¬ IsMarker line) :
    lines.foldl (scanLine body) scan = { scan with i := scan.i + (joined lines).length } := by
  induction lines generalizing scan with
  | nil => rfl
  | cons line rest ih =>
    rw [List.foldl_cons, scanLine_of_not_isMarker (hlines line (List.mem_cons_self ..)),
      ih fun other hother ↦ hlines other (List.mem_cons_of_mem _ hother), joined_cons]
    simp only [List.length_append, List.length_singleton, Scan.mk.injEq, and_self, and_true]
    omega

theorem i_foldl (lines : List Bytes) :
    (lines.foldl (scanLine body) scan).i = scan.i + (joined lines).length := by
  induction lines generalizing scan with
  | nil => rfl
  | cons line rest ih =>
    rw [List.foldl_cons, ih, i_scanLine, joined_cons]
    simp only [List.length_append, List.length_singleton]
    omega

/-- A marker line of a field opens it behind the line. -/
theorem scanLine_marks (hmarks : Marks name line) :
    (scanLine body scan line).cur = some name ∧ (scanLine body scan line).field name =
      { ptr := some (min (scan.i + line.length + 1) body.length), len := 0 } := by
  obtain ⟨hmarker, hfield⟩ := marks_iff.mp hmarks
  unfold scanLine
  rw [if_pos (isPrefixOf_of_isMarker hmarker), hfield]
  exact ⟨rfl, Function.update_self ..⟩

/-- A field is not the one whose value is being accrued, and this is what it holds. -/
structure Settled (name : FieldName) (field : EnrollmentField) (scan : Scan) : Prop where
  cur_ne : scan.cur ≠ some name
  field_eq : scan.field name = field

variable {field : EnrollmentField}

theorem Settled.close (hsettled : Settled name field scan) (stop : ℕ) :
    scan.close body stop name = field := by
  unfold Scan.close
  cases hcur : scan.cur with
  | none => exact hsettled.field_eq
  | some current =>
    have hne : name ≠ current := fun heq ↦ hsettled.cur_ne (by rw [hcur, heq])
    simp only [Function.update_of_ne hne]
    exact hsettled.field_eq

/-- A marker line of another field closes what is open and leaves this field as it is then. -/
theorem settled_of_isMarker (hmarker : IsMarker line) (hother : ¬ Marks name line)
    (hclosed : scan.close body scan.i name = field) :
    Settled name field (scanLine body scan line) := by
  unfold scanLine
  rw [if_pos (isPrefixOf_of_isMarker hmarker)]
  cases hfield : fieldFor (markerName line) with
  | none => exact ⟨nofun, hclosed⟩
  | some current =>
    have hne : name ≠ current := fun heq ↦ hother (marks_iff.mpr ⟨hmarker, heq ▸ hfield⟩)
    refine ⟨fun hcur ↦ hne (Option.some.inj hcur).symm, ?_⟩
    simp only [Function.update_of_ne hne]
    exact hclosed

theorem Settled.scanLine (hsettled : Settled name field scan) (hother : ¬ Marks name line) :
    Settled name field (scanLine body scan line) := by
  by_cases hmarker : IsMarker line
  · exact settled_of_isMarker hmarker hother (hsettled.close _)
  · rw [scanLine_of_not_isMarker hmarker]
    exact ⟨hsettled.cur_ne, hsettled.field_eq⟩

/-- A settled field stays as it is until a marker line opens it. -/
theorem Settled.foldl {lines : List Bytes} (hlines : ∀ line ∈ lines, ¬ Marks name line)
    (hsettled : Settled name field scan) :
    Settled name field (lines.foldl (EnrollmentResponseCodec.scanLine body) scan) := by
  induction lines generalizing scan with
  | nil => exact hsettled
  | cons line rest ih =>
    exact ih (fun other hother ↦ hlines other (List.mem_cons_of_mem _ hother))
      (hsettled.scanLine (hlines line (List.mem_cons_self ..)))

end Scanning

/-! ### The value of a field -/

/-- What is left of a slice when its line ends are trimmed. -/
theorem take_trimLength (body : Bytes) (ptr n : ℕ) (hn : ptr + n ≤ body.length) :
    (body.drop ptr).take (trimLength body ptr n) = trimmed ((body.drop ptr).take n) := by
  induction n with
  | zero => rfl
  | succ n ih =>
    have hlt : n < (body.drop ptr).length := by rw [List.length_drop]; omega
    have hbyte : body.getD (ptr + n) 0 = (body.drop ptr)[n] := by
      rw [List.getD_eq_getElem?_getD, List.getElem_drop, List.getElem?_eq_getElem (by omega)]
      rfl
    rw [List.take_succ_eq_append_getElem hlt, trimLength, hbyte]
    split_ifs with heol
    · rw [ih (by omega), trimmed_append_eol _ (by simpa [isEol] using heol)]
    · rw [trimmed, List.rdropWhile_concat_neg _ _ _ (by simpa [isEol] using heol),
        List.take_succ_eq_append_getElem hlt]

/-- The bytes of a field that was opened behind `front` and closed behind `middle`. -/
theorem text_trimEnd (front middle back : Bytes) (len : ℕ) :
    (trimEnd (front ++ middle ++ back) { ptr := some front.length, len := len }
      (front ++ middle).length).text (front ++ middle ++ back) = trimmed middle := by
  have hslice : ((front ++ middle ++ back).drop front.length).take
      ((front ++ middle).length - front.length) = middle := by
    rw [List.append_assoc, List.drop_left, List.length_append, Nat.add_sub_cancel_left,
      List.take_left]
  rw [EnrollmentField.text]
  simp only [trimEnd]
  rw [take_trimLength _ _ _ (by simp only [List.length_append]; omega), hslice]

/-- The member that is accrued ends where it is closed. -/
theorem close_of_cur (body : Bytes) (scan : Scan) {name : FieldName} (hcur : scan.cur = some name)
    (stop : ℕ) : scan.close body stop name = trimEnd body (scan.field name) stop := by
  rw [Scan.close, hcur]
  exact Function.update_self ..

/-- The value lines of a field that was just opened, up to the next marker line or the end. -/
theorem text_of_opened {name : FieldName} {body : Bytes} (before : List Bytes) (marker : Bytes)
    {value rest : List Bytes}
    (hsplit : body = [10].intercalate (before ++ marker :: (value ++ rest)))
    (hothers : ∀ line ∈ rest, ¬ Marks name line) (hvalue : ∀ line ∈ value, ¬ IsMarker line)
    (hrest : ∀ line ∈ rest.head?, IsMarker line) {scan : Scan}
    (hi : scan.i = (joined (before ++ [marker])).length) (hcur : scan.cur = some name)
    (hfield : scan.field name = { ptr := some (min scan.i body.length), len := 0 }) :
    (((value ++ rest).foldl (scanLine body) scan).close body body.length name).text body =
      trimmed (joined value) := by
  have hlines : before ++ marker :: (value ++ rest) = (before ++ [marker]) ++ (value ++ rest) := by
    rw [List.append_assoc, List.singleton_append]
  rw [List.foldl_append, foldl_of_not_isMarker hvalue]
  set front := joined (before ++ [marker]) with hfront
  cases rest with
  | nil =>
    rw [List.foldl_nil, close_of_cur body { scan with i := scan.i + (joined value).length } hcur]
    simp only [hfield]
    rcases List.eq_nil_or_concat' value with rfl | ⟨more, last, hmore⟩
    · -- a marker line at the end of the body, without a line feed
      have hmin : min scan.i body.length = body.length := by
        rw [List.append_nil, intercalate_append before (List.cons_ne_nil _ _)] at hsplit
        rw [hi, hfront, hsplit, joined_append]
        simp [joined]
      have htext := text_trimEnd body [] [] 0
      simp only [List.append_nil] at htext
      rw [hmin, htext]
      rfl
    · have hne : value ≠ [] := by rw [hmore]; exact List.append_ne_nil_of_right_ne_nil _ nofun
      have hbody : body = front ++ [10].intercalate value := by
        rw [hsplit, hlines, List.append_nil, intercalate_append _ hne]
      have hmin : min scan.i body.length = front.length := by
        rw [hi, hbody, List.length_append]
        omega
      have htext := text_trimEnd front ([10].intercalate value) [] 0
      rw [List.append_nil, ← hbody] at htext
      rw [hmin, htext, joined_eq hne, trimmed_append_eol _ (by decide)]
  | cons next more =>
    have hbody : body = front ++ joined value ++ [10].intercalate (next :: more) := by
      rw [hsplit, hlines, intercalate_append _ (by simp), intercalate_append _ (by simp),
        List.append_assoc]
    have hmin : min scan.i body.length = front.length := by
      rw [hi, hbody, List.length_append, List.length_append]
      omega
    have hsettled := settled_of_isMarker (hrest next rfl)
      (hothers next (List.mem_cons_self ..))
      (close_of_cur body { scan with i := scan.i + (joined value).length } hcur _)
    rw [List.foldl_cons, (hsettled.foldl fun line hline ↦
      hothers line (List.mem_cons_of_mem _ hline)).close]
    have hstop : scan.i + (joined value).length = (front ++ joined value).length := by
      rw [hi, List.length_append]
    simp only [hfield]
    rw [hmin, hstop, hbody]
    exact text_trimEnd front (joined value) _ 0

/-- The fold of `parse` finds the value of a field. -/
theorem text_scanFields {body text : Bytes} {name : FieldName} (hvalue : HasValue body name text) :
    (scanFields body name).text body = text := by
  obtain ⟨before, marker, value, rest, hsplit, hmarks, hothers, hplain, hrest, htext⟩ := hvalue
  set scan := before.foldl (scanLine body) {} with hscan
  have hi : (scanLine body scan marker).i = (joined (before ++ [marker])).length := by
    rw [i_scanLine, hscan, i_foldl, joined_append]
    simp [joined]
    omega
  obtain ⟨hcur, hfield⟩ : (scanLine body scan marker).cur = some name ∧ _ := scanLine_marks hmarks
  rw [scanFields, hsplit, List.foldl_append, List.foldl_cons, htext]
  refine text_of_opened before marker ?_ (fun line hline ↦
    hothers line (List.mem_append_right _ hline)) hplain hrest hi hcur ?_
  · rw [← hsplit, List.intercalate_splitOn]
  · rw [i_scanLine]
    exact hfield

section Parsed

variable {body : Bytes} {name : FieldName}

theorem parse_field (hpos : 0 < body.length) (hmax : body.length ≤ kMaxResponse) :
    (parse body).field = scanFields body := by
  rw [parse, if_neg (by omega)]

theorem fields_of_hasValue (hpos : 0 < body.length) (hmax : body.length ≤ kMaxResponse)
    {text : Bytes} (hvalue : HasValue body name text) : fields body name = text := by
  rw [fields, EnrollmentResponse.text, parse_field hpos hmax]
  exact text_scanFields hvalue

/-- A field that no line marks is absent. -/
theorem field_of_not_marks (hpos : 0 < body.length) (hmax : body.length ≤ kMaxResponse)
    (hnone : ∀ line ∈ body.splitOn 10, ¬ Marks name line) : (parse body).field name = {} := by
  rw [parse_field hpos hmax]
  have hstart : Settled name {} {} := ⟨(Option.some_ne_none name).symm, rfl⟩
  exact (hstart.foldl hnone).close _

/-- Among lines of which one has a property, there is a last one. -/
theorem exists_last {lines : List Bytes} {p : Bytes → Prop} (hline : ∃ line ∈ lines, p line) :
    ∃ before last rest, lines = before ++ last :: rest ∧ p last ∧ ∀ line ∈ rest, ¬ p line := by
  induction lines with
  | nil => simp at hline
  | cons line rest ih =>
    by_cases hrest : ∃ other ∈ rest, p other
    · obtain ⟨before, last, behind, rfl, hlast⟩ := ih hrest
      exact ⟨line :: before, last, behind, rfl, hlast⟩
    · push Not at hrest
      obtain ⟨other, hother, hp⟩ := hline
      rcases List.mem_cons.mp hother with rfl | hmem
      · exact ⟨[], other, rest, rfl, hp, hrest⟩
      · exact absurd hp (hrest other hmem)

theorem exists_hasValue (hmarked : ∃ line ∈ body.splitOn 10, Marks name line) :
    ∃ text, HasValue body name text := by
  obtain ⟨before, marker, behind, hsplit, hmarks, hothers⟩ := exists_last hmarked
  have hbehind := List.takeWhile_append_dropWhile (p := fun line ↦ ! decide (IsMarker line))
    (l := behind)
  refine ⟨_, ⟨before, marker, _, _, by rw [hbehind]; exact hsplit, hmarks,
    by rw [hbehind]; exact hothers, fun line hline ↦ ?_, fun line hline ↦ ?_, rfl⟩⟩
  · simpa using List.mem_takeWhile_imp hline
  · have hnot := List.head?_dropWhile_not (fun line ↦ ! decide (IsMarker line)) behind
    rw [Option.mem_def.mp hline] at hnot
    simpa using hnot

/-- The value of a field by the lines of the body is what the parser returns for it. -/
theorem hasValue_iff (hpos : 0 < body.length) (hmax : body.length ≤ kMaxResponse) {text : Bytes} :
    HasValue body name text ↔
      (∃ line ∈ body.splitOn 10, Marks name line) ∧ fields body name = text := by
  constructor
  · intro hvalue
    have hfields := fields_of_hasValue hpos hmax hvalue
    obtain ⟨before, marker, value, rest, hsplit, hmarks, -⟩ := hvalue
    exact ⟨⟨marker, by rw [hsplit]; simp, hmarks⟩, hfields⟩
  · rintro ⟨hmarked, rfl⟩
    obtain ⟨text, hvalue⟩ := exists_hasValue hmarked
    rwa [fields_of_hasValue hpos hmax hvalue]

end Parsed

/-! ### Responses as a server writes them -/

/-- A line feed, or a carriage return and a line feed. -/
inductive IsEol : Bytes → Prop
  | lf : IsEol [10]
  | crlf : IsEol [13, 10]

/-- What may stand behind `@@` on a marker line. -/
structure IsLabel (name : Bytes) : Prop where
  notMem : 10 ∉ name
  getLast?_ne : name.getLast? ≠ some 13

/-- A value that no marker line and no line end can be mistaken for. -/
structure IsPlain (value : Bytes) : Prop where
  not_isMarker : ∀ line ∈ value.splitOn 10, ¬ IsMarker line
  trimmed_eq : trimmed value = value

/-- A body with fields in the order they are written, known or not. Each line ends with a line feed
or with a carriage return and a line feed, the last one possibly with neither, and an empty value
may leave out its line. -/
inductive Renders : List (Bytes × Bytes) → Bytes → Prop
  | nil : Renders [] []
  | field {name value eol eol' body : Bytes} {rest : List (Bytes × Bytes)} :
      IsLabel name → IsPlain value → IsEol eol → IsEol eol' → Renders rest body →
        Renders ((name, value) :: rest) (ascii "@@" ++ name ++ eol ++ (value ++ eol' ++ body))
  | empty {name eol body : Bytes} {rest : List (Bytes × Bytes)} :
      IsLabel name → IsEol eol → Renders rest body →
        Renders ((name, []) :: rest) (ascii "@@" ++ name ++ eol ++ body)
  | last {name value eol : Bytes} : IsLabel name → IsPlain value → IsEol eol →
      Renders [(name, value)] (ascii "@@" ++ name ++ eol ++ value)
  | bare {name : Bytes} : IsLabel name → Renders [(name, [])] (ascii "@@" ++ name)

/-- The same in lines: each field has its marker line and the lines of its value. -/
inductive Reads : List (Bytes × Bytes) → List Bytes → Prop
  | nil {lines : List Bytes} : lines = [] ∨ lines = [[]] → Reads [] lines
  | cons {name value ret : Bytes} {rest : List (Bytes × Bytes)} {lines behind : List Bytes} :
      IsLabel name → ret = [] ∨ ret = [13] → (∀ line ∈ lines, ¬ IsMarker line) →
        trimmed (joined lines) = value → Reads rest behind →
          Reads ((name, value) :: rest) ((ascii "@@" ++ name ++ ret) :: (lines ++ behind))

/-- A field without a line of its own for its value. -/
theorem Reads.empty {name ret : Bytes} {rest : List (Bytes × Bytes)} {behind : List Bytes}
    (hname : IsLabel name) (hret : ret = [] ∨ ret = [13]) (hrest : Reads rest behind) :
    Reads ((name, []) :: rest) ((ascii "@@" ++ name ++ ret) :: behind) := by
  rw [← List.nil_append behind]
  exact .cons hname hret nofun rfl hrest

/-- A line end is a line feed, behind a carriage return or behind nothing. -/
theorem IsEol.exists_eq {eol : Bytes} (heol : IsEol eol) :
    ∃ ret : Bytes, (ret = [] ∨ ret = [13]) ∧ eol = ret ++ [10] := by
  cases heol
  · exact ⟨[], .inl rfl, rfl⟩
  · exact ⟨[13], .inr rfl, rfl⟩

theorem notMem_markerLine {name ret : Bytes} (hname : IsLabel name) (hret : ret = [] ∨ ret = [13]) :
    (10 : UInt8) ∉ ascii "@@" ++ name ++ ret := by
  have hat : (10 : UInt8) ∉ ascii "@@" := by decide
  have hend : (10 : UInt8) ∉ ret := by rcases hret with rfl | rfl <;> decide
  simp [hat, hname.notMem, hend]

/-- A carriage return at the end of a value makes no marker line. -/
theorem not_isMarker_splitOn {value ret : Bytes}
    (hvalue : ∀ line ∈ value.splitOn 10, ¬ IsMarker line)
    (hret : ret = [] ∨ ret = [13]) : ∀ line ∈ (value ++ ret).splitOn 10, ¬ IsMarker line := by
  rcases hret with rfl | rfl
  · rwa [List.append_nil]
  · obtain ⟨before, last, hsplit⟩ := (List.eq_nil_or_concat' (value.splitOn 10)).resolve_left
      (List.splitOn_ne_nil _ _)
    have hlines : ∀ line ∈ before ++ [last ++ [13]], (10 : UInt8) ∉ line := fun line hline ↦ by
      have hpart : ∀ part ∈ before ++ [last], (10 : UInt8) ∉ part := fun part hpart ↦
        notMem_of_mem_splitOn (hsplit ▸ hpart)
      simp only [List.mem_append, List.mem_singleton] at hline hpart
      rcases hline with hline | rfl
      · exact hpart line (.inl hline)
      · simp [hpart last (.inr rfl)]
    have hjoin : value ++ [13] = [10].intercalate (before ++ [last ++ [13]]) := by
      have hback : [10].intercalate (value.splitOn 10) = value := List.intercalate_splitOn 10
      rw [← hback, hsplit, intercalate_append _ (List.cons_ne_nil _ _),
        intercalate_append _ (List.cons_ne_nil _ _)]
      simp
    rw [hjoin, List.splitOn_intercalate _ hlines (by simp)]
    intro line hline
    rw [List.mem_append, List.mem_singleton] at hline
    rcases hline with hline | rfl
    · exact hvalue line (by rw [hsplit]; exact List.mem_append_left _ hline)
    · intro hmarker
      rcases List.prefix_concat_iff.mp hmarker with heq | hlast
      · have hend := congrArg List.getLast? heq
        rw [List.getLast?_concat] at hend
        exact absurd hend (by decide)
      · exact hvalue last (by rw [hsplit]; simp) hlast

/-- The lines of a field and of what follows it. -/
theorem splitOn_field {name ret : Bytes} (value behind : Bytes) (hname : IsLabel name)
    (hret : ret = [] ∨ ret = [13]) :
    (ascii "@@" ++ name ++ (ret ++ [10]) ++ (value ++ behind)).splitOn 10 =
      (ascii "@@" ++ name ++ ret) :: (value ++ behind).splitOn 10 := by
  rw [← List.append_assoc _ ret, List.append_assoc _ [10], List.singleton_append,
    List.splitOn_append_cons_self, List.splitOn_eq_singleton (notMem_markerLine hname hret),
    List.singleton_append]

theorem Renders.reads {sections : List (Bytes × Bytes)} {body : Bytes}
    (hrenders : Renders sections body) : Reads sections (body.splitOn 10) := by
  induction hrenders with
  | nil => exact .nil (.inr (List.splitOn_nil _))
  | @field name value eol eol' body rest hname hvalue heol heol' hrest ih =>
    obtain ⟨ret, hret, rfl⟩ := heol.exists_eq
    obtain ⟨ret', hret', rfl⟩ := heol'.exists_eq
    have hlines : (value ++ (ret' ++ [10]) ++ body).splitOn 10 =
        (value ++ ret').splitOn 10 ++ body.splitOn 10 := by
      rw [← List.append_assoc, List.append_assoc _ [10], List.singleton_append,
        List.splitOn_append_cons_self]
    rw [List.append_assoc value, splitOn_field _ _ hname hret, ← List.append_assoc value, hlines]
    refine .cons hname hret (not_isMarker_splitOn hvalue.not_isMarker hret') ?_ ih
    rw [joined_eq (List.splitOn_ne_nil _ _), List.intercalate_splitOn,
      trimmed_append_eol _ (by decide)]
    rcases hret' with rfl | rfl
    · rw [List.append_nil, hvalue.trimmed_eq]
    · rw [trimmed_append_eol _ (by decide), hvalue.trimmed_eq]
  | @empty name eol body rest hname heol hrest ih =>
    obtain ⟨ret, hret, rfl⟩ := heol.exists_eq
    have hlines := splitOn_field [] body hname hret
    rw [List.nil_append] at hlines
    rw [hlines]
    exact Reads.empty hname hret ih
  | @last name value eol hname hvalue heol =>
    obtain ⟨ret, hret, rfl⟩ := heol.exists_eq
    have hlines := splitOn_field value [] hname hret
    rw [List.append_nil] at hlines
    rw [hlines, ← List.append_nil (value.splitOn 10)]
    refine .cons hname hret hvalue.not_isMarker ?_ (.nil (.inl rfl))
    rw [joined_eq (List.splitOn_ne_nil _ _), List.intercalate_splitOn,
      trimmed_append_eol _ (by decide), hvalue.trimmed_eq]
  | @bare name hname =>
    have hline := notMem_markerLine hname (.inl rfl)
    have hlines : (ascii "@@" ++ name).splitOn 10 = [ascii "@@" ++ name ++ []] := by
      rw [List.splitOn_eq_singleton (by simpa using hline), List.append_nil]
    rw [hlines]
    exact Reads.empty hname (.inl rfl) (.nil (.inl rfl))

/-- The marker line of a section marks the field it is named after, and no other. -/
theorem marks_markerLine_iff {first ret : Bytes} {name : FieldName} (hlabel : IsLabel first)
    (hret : ret = [] ∨ ret = [13]) :
    Marks name (ascii "@@" ++ first ++ ret) ↔ first = label name := by
  have hmarker : IsMarker (ascii "@@" ++ first ++ ret) :=
    ⟨first ++ ret, (List.append_assoc ..).symm⟩
  rw [marks_iff, and_iff_right hmarker, fieldFor_eq_some_iff, List.append_assoc, markerName_append]
  rcases hret with rfl | rfl
  · rw [List.append_nil, if_neg hlabel.getLast?_ne]
  · rw [if_pos List.getLast?_concat, List.dropLast_concat]

namespace Reads

variable {sections : List (Bytes × Bytes)} {lines : List Bytes} {name : FieldName}

theorem not_isMarker_of_mem {lines : List Bytes} (hlines : lines = [] ∨ lines = [[]]) :
    ∀ line ∈ lines, ¬ IsMarker line := by
  rcases hlines with rfl | rfl
  · nofun
  · intro line hline
    rw [List.mem_singleton.mp hline]
    decide

/-- Only the sections of a field have its marker line. -/
theorem not_marks (hreads : Reads sections lines)
    (hsections : ∀ entry ∈ sections, entry.1 ≠ label name) : ∀ line ∈ lines, ¬ Marks name line := by
  induction hreads with
  | nil hlines =>
    exact fun line hline hmarks ↦ not_isMarker_of_mem hlines line hline (marks_iff.mp hmarks).1
  | cons hlabel hret hplain _ _ ih =>
    intro line hline
    rcases List.mem_cons.mp hline with rfl | hline
    · rw [marks_markerLine_iff hlabel hret]
      exact hsections _ (List.mem_cons_self ..)
    rcases List.mem_append.mp hline with hline | hline
    · exact fun hmarks ↦ hplain line hline (marks_iff.mp hmarks).1
    · exact ih (fun entry hentry ↦ hsections entry (List.mem_cons_of_mem _ hentry)) line hline

/-- Behind the value of a section is the marker line of the next one, or nothing but the end. -/
theorem exists_gap (hreads : Reads sections lines) : ∃ gap behind, lines = gap ++ behind ∧
    (gap = [] ∨ gap = [[]]) ∧ ∀ line ∈ behind.head?, IsMarker line := by
  cases hreads with
  | nil hlines => exact ⟨lines, [], (List.append_nil _).symm, hlines, nofun⟩
  | @cons name _ ret _ _ _ hlabel =>
    refine ⟨[], _, rfl, .inl rfl, fun line hline ↦ ?_⟩
    obtain rfl : ascii "@@" ++ name ++ ret = line := by simpa using hline
    exact ⟨name ++ ret, (List.append_assoc ..).symm⟩

/-- The lines of a section, between those before it and those behind it. -/
theorem exists_section {before after : List (Bytes × Bytes)} {value : Bytes}
    (hreads : Reads (before ++ (label name, value) :: after) lines) :
    ∃ front marker middle behind, lines = front ++ marker :: (middle ++ behind) ∧
      Marks name marker ∧ (∀ line ∈ middle, ¬ IsMarker line) ∧ trimmed (joined middle) = value ∧
        Reads after behind := by
  induction before generalizing lines with
  | nil =>
    cases hreads with
    | cons hlabel hret hplain hvalue hrest =>
      exact ⟨[], _, _, _, rfl, (marks_markerLine_iff hlabel hret).mpr rfl, hplain, hvalue, hrest⟩
  | cons entry before ih =>
    cases hreads with
    | @cons first _ ret _ own _ _ _ _ _ hrest =>
      obtain ⟨front, marker, middle, behind, rfl, hfound⟩ := ih hrest
      refine ⟨(ascii "@@" ++ first ++ ret) :: (own ++ front), marker, middle, behind, ?_, hfound⟩
      simp only [List.cons_append, List.append_assoc]

/-- The last section of a field has the value of the field. -/
theorem hasValue {body value : Bytes} {before after : List (Bytes × Bytes)}
    (hreads : Reads (before ++ (label name, value) :: after) (body.splitOn 10))
    (hafter : ∀ entry ∈ after, entry.1 ≠ label name) : HasValue body name value := by
  obtain ⟨front, marker, middle, behind, hlines, hmarks, hplain, hvalue, hreads⟩ :=
    hreads.exists_section
  obtain ⟨gap, behind, rfl, hgap, hhead⟩ := hreads.exists_gap
  refine ⟨front, marker, middle ++ gap, behind, by rw [hlines, List.append_assoc], hmarks,
    fun line hline ↦ ?_, fun line hline ↦ ?_, hhead, ?_⟩
  · rw [List.append_assoc] at hline
    rcases List.mem_append.mp hline with hline | hline
    · exact fun hmarks ↦ hplain line hline (marks_iff.mp hmarks).1
    · exact hreads.not_marks hafter line hline
  · rcases List.mem_append.mp hline with hline | hline
    · exact hplain line hline
    · exact not_isMarker_of_mem hgap line hline
  · rw [joined_append, ← hvalue]
    rcases hgap with rfl | rfl
    · simp [joined]
    · exact (trimmed_append_eol _ (by decide)).symm

end Reads

/-- A response as a server writes it is read back: each field has the value of its last section. -/
theorem hasValue_of_renders {body value : Bytes} {name : FieldName}
    {before after : List (Bytes × Bytes)}
    (hrenders : Renders (before ++ (label name, value) :: after) body)
    (hafter : ∀ entry ∈ after, entry.1 ≠ label name) : HasValue body name value :=
  hrenders.reads.hasValue hafter

/-- A field that no section is named after has no marker line. -/
theorem not_marks_of_renders {body : Bytes} {name : FieldName} {sections : List (Bytes × Bytes)}
    (hrenders : Renders sections body) (hsections : ∀ entry ∈ sections, entry.1 ≠ label name) :
    ∀ line ∈ body.splitOn 10, ¬ Marks name line := hrenders.reads.not_marks hsections

/-- For every body that is not refused for its length, the parser returns for each marked field its
value by the lines of the body and nothing for the others, the response is valid exactly when the
required fields have bytes, and every slice lies inside the body. A response that a server wrote is
read back as it was written. -/
theorem parse_eq_lines {body : Bytes} (hpos : 0 < body.length)
    (hmax : body.length ≤ kMaxResponse) :
    (∀ name text, HasValue body name text ↔
      (∃ line ∈ body.splitOn 10, Marks name line) ∧ fields body name = text) ∧
    (∀ name, (∀ line ∈ body.splitOn 10, ¬ Marks name line) → (parse body).field name = {}) ∧
    ((parse body).valid = true ↔ fields body .tlsCa ≠ [] ∧ fields body .tlsCert ≠ [] ∧
      fields body .tlsKey ≠ [] ∧ fields body .mqttHost ≠ []) ∧
    (∀ name, ((parse body).field name).InBounds body) ∧
    (∀ sections, Renders sections body → ∀ name,
      (∀ before value after, sections = before ++ (label name, value) :: after →
        (∀ entry ∈ after, entry.1 ≠ label name) → fields body name = value) ∧
      ((∀ entry ∈ sections, entry.1 ≠ label name) → (parse body).field name = {})) := by
  refine ⟨fun name text ↦ hasValue_iff hpos hmax, fun name ↦ field_of_not_marks hpos hmax, ?_,
    inBounds_parse body, fun sections hrenders name ↦ ⟨?_, fun hsections ↦ ?_⟩⟩
  · rw [valid_iff]
    simp [Required]
  · rintro before value after rfl hafter
    exact fields_of_hasValue hpos hmax (hasValue_of_renders hrenders hafter)
  · exact field_of_not_marks hpos hmax (not_marks_of_renders hrenders hsections)

/-- A body of two fields and an unknown one, with both line ends. -/
theorem parse_eq_lines_witness :
    fields (ascii "@@SSENROLL/1\n@@mqtt_host\r\nh\r\n") .mqttHost = ascii "h" ∧
      (parse (ascii "@@SSENROLL/1\n@@mqtt_host\r\nh\r\n")).field .tlsCa = {} := by
  have hrenders : Renders [(ascii "SSENROLL/1", []), (ascii "mqtt_host", ascii "h")]
      (ascii "@@SSENROLL/1\n@@mqtt_host\r\nh\r\n") :=
    .empty ⟨by decide, by decide⟩ .lf
      (@Renders.field _ _ [13, 10] _ _ _ ⟨by decide, by decide⟩ ⟨by decide, by decide⟩
        .crlf .crlf .nil)
  obtain ⟨-, -, -, -, hback⟩ := @parse_eq_lines
    (ascii "@@SSENROLL/1\n@@mqtt_host\r\nh\r\n") (by decide) (by decide)
  exact ⟨(hback _ hrenders .mqttHost).1 [(ascii "SSENROLL/1", [])] _ [] rfl nofun,
    (hback _ hrenders .tlsCa).2 (by decide)⟩

end EnrollmentResponseCodec

end LibreSwitch.Net
