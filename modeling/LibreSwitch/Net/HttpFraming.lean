import LibreSwitch.Net.HttpDelivery
import LibreSwitch.Net.HttpDownloader

/-!
# Where the head of a response ends

The downloader and the enrollment read the head of a response line by line into a buffer of 256
bytes and take the first empty line for its end. A longer line comes in parts of 255 bytes. If such
a line with its carriage return is a multiple of 255 bytes long, or one byte longer, its last part
is the bare end of the line, which looks like the empty line (`Splits`): the head ends there, and
what is left of it is taken for body.

`OkResponse` is a response with status 200, and `stop` computes from the lengths of its lines what
is unread when the loop over them stops (`wp_readHead`). `headExact_iff` follows: however the
response comes in segments, its head is read to the end and no further if and only if no line of it
splits.
-/

set_option autoImplicit false
set_option relaxedAutoImplicit false

namespace LibreSwitch.Net

open LibreSwitch.Library

namespace HttpFraming

open NetworkClient Delivery

/-! ### Responses -/

/-- The bytes of a line, with its end. -/
def lineBytes (line : Bytes) : Bytes := line ++ [13, 10]

/-- A line without zero bytes and without the bytes that end a line. -/
structure Clean (line : Bytes) : Prop where
  zero_notMem : (0 : UInt8) ∉ line
  newline_notMem : (10 : UInt8) ∉ line
  return_notMem : (13 : UInt8) ∉ line

/-- A status line with the code 200: what follows the code, if anything, begins with a blank. -/
def IsOkStatus (line : Bytes) : Prop :=
  ∃ (major minor : UInt8) (reason : Bytes), isDigit major = true ∧ isDigit minor = true ∧
    (reason = [] ∨ reason.head? = some 32) ∧
    line = ascii "HTTP/" ++ [major, 46, minor] ++ ascii " 200" ++ reason

/-- The usual status line. -/
theorem isOkStatus_ok : IsOkStatus (ascii "HTTP/1.1 200 OK") :=
  ⟨49, 49, ascii " OK", rfl, rfl, .inr rfl, rfl⟩

theorem clean_ok : Clean (ascii "HTTP/1.1 200 OK") := ⟨by decide, by decide, by decide⟩

/-- A response with status 200 whose header lines are not empty. -/
structure OkResponse where
  status : Bytes
  headers : List Bytes
  body : Bytes
  isOkStatus : IsOkStatus status
  clean_status : Clean status
  clean_headers : ∀ line ∈ headers, Clean line
  headers_ne_nil : ∀ line ∈ headers, line ≠ []

/-- The header lines and the empty line behind them. -/
def OkResponse.lines (response : OkResponse) : List Bytes := response.headers ++ [[]]

/-- The response as it is sent. -/
def OkResponse.bytes (response : OkResponse) : Bytes :=
  lineBytes response.status ++ (response.lines.flatMap lineBytes ++ response.body)

/-! ### Where the loop over the header lines stops -/

/-- The last part of the line that is read into the buffer is empty, or a bare carriage return. -/
def Splits (line : Bytes) : Prop := (line.length + 1) % (kLineCap - 1) ≤ 1

instance (line : Bytes) : Decidable (Splits line) := inferInstanceAs (Decidable (_ ≤ _))

/-- What is unread when the loop stops that still has this many bytes of a line in front of it, and
then these lines; none if it does not stop before the body. -/
def stop (body : Bytes) : ℕ → List Bytes → Option Bytes
  | left, [] => if left % (kLineCap - 1) ≤ 1 then some body else none
  | left, line :: lines =>
    if left % (kLineCap - 1) ≤ 1 then some ((line :: lines).flatMap lineBytes ++ body)
    else stop body (line.length + 1) lines

/-- The rest of a line with the carriage return behind it. -/
structure LineRest (text : Bytes) : Prop where
  zero_notMem : (0 : UInt8) ∉ text
  newline_notMem : (10 : UInt8) ∉ text
  ends : text = [] ∨ text.getLast? = some 13

theorem Clean.lineRest {line : Bytes} (hclean : Clean line) : LineRest (line ++ [13]) := by
  refine ⟨fun hmem ↦ ?_, fun hmem ↦ ?_, .inr List.getLast?_concat⟩
  · rcases List.mem_append.mp hmem with hmem | hmem
    · exact hclean.zero_notMem hmem
    · exact absurd (List.mem_singleton.mp hmem) (by decide)
  · rcases List.mem_append.mp hmem with hmem | hmem
    · exact hclean.newline_notMem hmem
    · exact absurd (List.mem_singleton.mp hmem) (by decide)

theorem LineRest.drop {text : Bytes} (hrest : LineRest text) (count : ℕ) :
    LineRest (text.drop count) := by
  refine ⟨fun hmem ↦ hrest.zero_notMem (List.mem_of_mem_drop hmem),
    fun hmem ↦ hrest.newline_notMem (List.mem_of_mem_drop hmem), ?_⟩
  by_cases hless : count < text.length
  · refine .inr ?_
    have hne : text ≠ [] := List.ne_nil_of_length_pos (by omega)
    rw [List.getLast?_drop, if_neg (by omega)]
    exact hrest.ends.resolve_left hne
  · exact .inl (List.drop_of_length_le (by omega))

theorem stripped_concat (line : Bytes) : stripped (line ++ [13]) = line := by
  rw [stripped, if_pos List.getLast?_concat, List.dropLast_concat]

/-- Without its carriage return it is empty if it has one byte at most. -/
theorem LineRest.stripped_eq_nil_iff {text : Bytes} (hrest : LineRest text) :
    stripped text = [] ↔ text.length ≤ 1 := by
  unfold stripped
  rcases hrest.ends with rfl | hlast
  · exact iff_of_true rfl (Nat.zero_le _)
  · rw [if_pos hlast, ← List.length_eq_zero_iff, List.length_dropLast]
    omega

theorem getD_eq_zero_iff (buffer : Bytes) : buffer.getD 0 0 = 0 ↔ cString buffer = [] := by
  cases buffer with
  | nil => exact iff_of_true rfl rfl
  | cons byte rest =>
    rw [List.getD_cons_zero, cString]
    by_cases hbyte : byte = 0
    · rw [List.takeWhile_cons_of_neg (by simp [hbyte])]
      exact iff_of_true hbyte rfl
    · rw [List.takeWhile_cons_of_pos (by simpa using hbyte)]
      exact iff_of_false hbyte (List.cons_ne_nil _ _)

theorem stop_of_le {body : Bytes} {left : ℕ} {lines : List Bytes}
    (hleft : left % (kLineCap - 1) ≤ 1) :
    stop body left lines = some (lines.flatMap lineBytes ++ body) := by
  cases lines with
  | nil => exact if_pos hleft
  | cons line lines => exact if_pos hleft

theorem length_le_of_stop {body leftover : Bytes} {left : ℕ} {lines : List Bytes}
    (hstop : stop body left lines = some leftover) :
    leftover.length ≤ (lines.flatMap lineBytes ++ body).length := by
  induction lines generalizing left with
  | nil =>
    rw [stop, Option.ite_none_right_eq_some] at hstop
    rw [Option.some.inj hstop.2]
    exact le_rfl
  | cons line lines ih =>
    rw [stop] at hstop
    split_ifs at hstop with hleft
    · rw [Option.some.inj hstop]
    · refine (ih hstop).trans ?_
      rw [List.flatMap_cons, List.append_assoc, @List.length_append _ (lineBytes line)]
      exact Nat.le_add_left _ _

/-- A part that fills the buffer leaves as much of the line as it is longer. -/
theorem stop_sub {body : Bytes} {left : ℕ} {lines : List Bytes} (hleft : kLineCap - 1 ≤ left) :
    stop body (left - (kLineCap - 1)) lines = stop body left lines := by
  have hmod : (left - (kLineCap - 1)) % (kLineCap - 1) = left % (kLineCap - 1) :=
    (Nat.mod_eq_sub_mod hleft).symm
  cases lines with
  | nil => rw [stop, stop, hmod]
  | cons line lines => rw [stop, stop, hmod]

/-- What is unread in front of a line of the head: the rest of the line with its end, further lines
and the body. Of these the loop will leave `leftover`. -/
structure Ahead (body leftover text : Bytes) (lines : List Bytes) (unread : Bytes) : Prop where
  lineRest : LineRest text
  clean : ∀ line ∈ lines, Clean line
  stop_eq : stop body text.length lines = some leftover
  unread_eq : unread = text ++ 10 :: (lines.flatMap lineBytes ++ body)

section LineRead

variable {body leftover text : Bytes} {lines : List Bytes} {delivery last : Delivery}
  {result : Bool × Bytes}

theorem wp_readLine_of_ahead {buffer : Bytes} (hbuffer : buffer.length = kLineCap)
    (hlive : delivery.Live) (hahead : Ahead body leftover text lines delivery.unread) :
    setting.wp guard (readLine buffer kLineCap)
      (LineRead delivery [] text (lines.flatMap lineBytes ++ body) (kLineCap - 1)) delivery :=
  wp_readLine hbuffer hahead.lineRest.zero_notMem hahead.lineRest.newline_notMem hlive
    hahead.unread_eq

variable (hread : LineRead delivery [] text (lines.flatMap lineBytes ++ body) (kLineCap - 1)
  result last)

include hread

/-- The line in the buffer is empty if no more than its end was left of it. -/
theorem cString_eq_nil_iff (hrest : LineRest text) : cString result.2 = [] ↔ text.length ≤ 1 := by
  rcases Nat.lt_or_ge text.length (kLineCap - 1) with hshort | hlong
  · rw [(hread.whole hshort).1, List.nil_append]
    exact hrest.stripped_eq_nil_iff
  · have hpos : 1 < kLineCap - 1 := by decide
    rw [(hread.full hlong).1, List.nil_append, ← List.length_eq_zero_iff, List.length_take]
    omega

/-- Behind a line that does not end the head stands less of the head than before. -/
theorem ahead_of_lineRead (hahead : Ahead body leftover text lines delivery.unread)
    (hmore : 1 < text.length) :
    ∃ text' lines', Ahead body leftover text' lines' last.unread ∧
      text'.length + (lines'.flatMap lineBytes).length <
        text.length + (lines.flatMap lineBytes).length := by
  have hstop := hahead.stop_eq
  rcases Nat.lt_or_ge text.length (kLineCap - 1) with hshort | hlong
  · have hlast := (hread.whole hshort).2
    have hmod : text.length % (kLineCap - 1) = text.length := Nat.mod_eq_of_lt hshort
    cases lines with
    | nil =>
      rw [stop, if_neg (by omega)] at hstop
      cases hstop
    | cons next more =>
      rw [stop, if_neg (by omega)] at hstop
      have hnext := hahead.clean next List.mem_cons_self
      refine ⟨next ++ [13], more, ⟨hnext.lineRest, fun other hother ↦
        hahead.clean other (List.mem_cons_of_mem _ hother), ?_, ?_⟩, ?_⟩
      · rw [List.length_append]
        exact hstop
      · rw [hlast, List.flatMap_cons, lineBytes]
        simp only [List.append_assoc]
        rfl
      · rw [List.flatMap_cons, List.length_append, List.length_append, lineBytes,
          List.length_append]
        simp only [List.length_cons, List.length_nil]
        omega
  · refine ⟨text.drop (kLineCap - 1), lines, ⟨hahead.lineRest.drop _, hahead.clean, ?_,
      (hread.full hlong).2⟩, ?_⟩
    · rw [List.length_drop, stop_sub hlong]
      exact hstop
    · have hpos : 0 < kLineCap - 1 := by decide
      rw [List.length_drop]
      omega

end LineRead

/-- What the loop over the header lines leaves unread. -/
structure Headed (delivery : Delivery) (leftover : Bytes) (headed : Bool) (last : Delivery) :
    Prop where
  headed : headed = true
  live : last.Live
  taken_eq : last.taken = delivery.taken
  unread_eq : last.unread = leftover

theorem Headed.of_taken_eq {delivery next last : Delivery} {leftover : Bytes} {headed : Bool}
    (hheaded : Headed next leftover headed last) (htaken : next.taken = delivery.taken) :
    Headed delivery leftover headed last :=
  ⟨hheaded.headed, hheaded.live, hheaded.taken_eq.trans htaken, hheaded.unread_eq⟩

theorem wp_skipHeaders {body leftover : Bytes} {rounds : ℕ} {text buffer : Bytes}
    {lines : List Bytes} (hbuffer : buffer.length = kLineCap)
    (hrounds : text.length + (lines.flatMap lineBytes).length < rounds) {delivery : Delivery}
    (hlive : delivery.Live) (hahead : Ahead body leftover text lines delivery.unread) :
    setting.wp guard (skipHeaders rounds buffer) (Headed delivery leftover) delivery := by
  induction rounds generalizing text buffer lines delivery with
  | zero => exact absurd hrounds (Nat.not_lt_zero _)
  | succ rounds ih =>
    unfold skipHeaders
    apply Setting.wp_bind
    refine Setting.wp_mono ?_ (wp_readLine_of_ahead hbuffer hlive hahead)
    rintro ⟨found, line⟩ last hread
    have hfound : found = true := hread.found
    rw [hfound]
    simp only [Bool.not_true, Bool.false_eq_true, ↓reduceIte, getD_eq_zero_iff]
    split_ifs with hblank
    · have hshort : text.length ≤ 1 := (cString_eq_nil_iff hread hahead.lineRest).mp hblank
      have hfits : text.length < kLineCap - 1 := hshort.trans_lt (by decide)
      have hend : stop body text.length lines = some (lines.flatMap lineBytes ++ body) :=
        stop_of_le ((Nat.mod_eq_of_lt hfits).trans_le hshort)
      rw [hahead.stop_eq] at hend
      exact Setting.quiet_alone.wp_ret_iff.mpr ⟨rfl, hread.live, hread.taken_eq,
        (hread.whole hfits).2.trans (Option.some.inj hend).symm⟩
    · have hmore : 1 < text.length := not_le.mp fun hshort ↦
        hblank ((cString_eq_nil_iff hread hahead.lineRest).mpr hshort)
      obtain ⟨text', lines', hahead', hless⟩ := ahead_of_lineRead hread hahead hmore
      exact Setting.wp_mono (fun _ _ hheaded ↦ hheaded.of_taken_eq hread.taken_eq)
        (ih hread.length_eq (by omega) hread.live hahead')

/-! ### The status line -/

theorem takeWhile_isDigit_of_head {rest : Bytes}
    (hrest : ∀ byte ∈ rest.head?, isDigit byte = false) : rest.takeWhile isDigit = [] := by
  cases rest with
  | nil => rfl
  | cons byte rest => exact List.takeWhile_cons_of_neg (by rw [hrest byte rfl]; decide)

/-- The code is 200 whatever stands behind it, if that is not a digit. -/
theorem statusOk_of_prefix {line : Bytes} {major minor : UInt8} {behind : Bytes}
    (hmajor : isDigit major = true) (hminor : isDigit minor = true)
    (hbehind : ∀ byte ∈ behind.head?, isDigit byte = false)
    (hline : cString line = ascii "HTTP/" ++ [major, 46, minor] ++ ascii " 200" ++ behind) :
    statusOk line = true := by
  have hmajor' : (32 : UInt8) ≠ major := by
    rintro rfl
    cases hmajor
  have hminor' : (32 : UInt8) ≠ minor := by
    rintro rfl
    cases hminor
  have hversion : (32 : UInt8) ∉ ascii "HTTP/" ++ [major, 46, minor] := by
    intro hmem
    rcases List.mem_append.mp hmem with hmem | hmem
    · exact absurd hmem (by decide)
    · simp [hmajor', hminor'] at hmem
  have hfound : strchr 32 (cString line) = some (32 :: (ascii "200" ++ behind)) := by
    rw [hline, List.append_assoc (ascii "HTTP/" ++ [major, 46, minor])]
    exact strchr_append_cons hversion _
  have hcode : ∀ byte ∈ ascii "200", isDigit byte = true := List.all_eq_true.mp rfl
  have hdigits : (ascii "200" ++ behind).takeWhile isDigit = ascii "200" := by
    rw [List.takeWhile_append_of_pos hcode, takeWhile_isDigit_of_head hbehind, List.append_nil]
  unfold statusOk
  rw [hfound]
  exact decide_eq_true (congrArg (fun digits ↦ ((decimalValue digits : ℕ) : ℤ)) hdigits)

/-- The first part of a status line that is read, whole or not, has the code. -/
theorem statusOk_of_isOkStatus {status line : Bytes} (hstatus : IsOkStatus status) {count : ℕ}
    (hcount : 12 ≤ count) (hline : cString line = (status ++ [13]).take count ∨
      cString line = status) : statusOk line = true := by
  obtain ⟨major, minor, reason, hmajor, hminor, hreason, rfl⟩ := hstatus
  have hhead : ∀ byte ∈ reason.head?, isDigit byte = false := by
    rintro byte hbyte
    rcases hreason with rfl | hblank
    · cases hbyte
    · rw [hblank] at hbyte
      obtain rfl := Option.some.inj hbyte
      rfl
  have hend : ∀ byte ∈ ((reason ++ [13]).take (count - 12)).head?, isDigit byte = false := by
    intro byte hbyte
    rw [List.head?_take] at hbyte
    split_ifs at hbyte
    · cases hbyte
    · cases reason with
      | nil =>
        obtain rfl := Option.some.inj hbyte
        rfl
      | cons first rest => exact hhead byte hbyte
  rcases hline with hline | hline
  · refine statusOk_of_prefix hmajor hminor hend ?_
    rw [hline, List.append_assoc _ reason, List.take_append]
    have hlength : (ascii "HTTP/" ++ [major, 46, minor] ++ ascii " 200").length = 12 := rfl
    rw [hlength, List.take_of_length_le (hlength.le.trans hcount)]
  · exact statusOk_of_prefix hmajor hminor hhead hline

/-- The status line is longer than an empty line. -/
theorem length_status {status : Bytes} (hstatus : IsOkStatus status) : 12 ≤ status.length := by
  obtain ⟨major, minor, reason, -, -, -, rfl⟩ := hstatus
  rw [List.length_append]
  exact Nat.le_add_right _ _

section Head

variable {response : OkResponse}

theorem OkResponse.clean_lines : ∀ line ∈ response.lines, Clean line := by
  intro line hline
  rcases List.mem_append.mp hline with hheader | hempty
  · exact response.clean_headers line hheader
  · rw [List.mem_singleton.mp hempty]
    exact ⟨List.not_mem_nil, List.not_mem_nil, List.not_mem_nil⟩

theorem OkResponse.bytes_eq (response : OkResponse) : response.bytes =
    (response.status ++ [13]) ++ 10 :: (response.lines.flatMap lineBytes ++ response.body) := by
  rw [OkResponse.bytes, lineBytes]
  simp only [List.append_assoc]
  rfl

/-- The head of a response is read up to where the loop over its lines stops. -/
theorem wp_readHead {leftover buffer : Bytes} {rounds : ℕ}
    (hstop : stop response.body (response.status.length + 1) response.lines = some leftover)
    (hbuffer : buffer.length = kLineCap) (hrounds : response.bytes.length < rounds)
    {delivery : Delivery} (hlive : delivery.Live) (hunread : delivery.unread = response.bytes) :
    setting.wp guard (readHead rounds buffer) (Headed delivery leftover) delivery := by
  have hlong := length_status response.isOkStatus
  have hcount : 12 ≤ kLineCap - 1 := by decide
  have hbytes := congrArg List.length response.bytes_eq
  simp only [List.length_append, List.length_cons, List.length_nil] at hbytes
  have hahead : Ahead response.body leftover (response.status ++ [13]) response.lines
      delivery.unread := by
    refine ⟨response.clean_status.lineRest, response.clean_lines, ?_,
      hunread.trans response.bytes_eq⟩
    rw [List.length_append]
    exact hstop
  unfold readHead
  apply Setting.wp_bind
  refine Setting.wp_mono ?_ (wp_readLine_of_ahead hbuffer hlive hahead)
  rintro ⟨found, line⟩ last hread
  have hfound : found = true := hread.found
  have hok : statusOk line = true := by
    refine statusOk_of_isOkStatus response.isOkStatus hcount ?_
    rcases Nat.lt_or_ge (response.status ++ [13]).length (kLineCap - 1) with hshort | hfull
    · exact .inr ((hread.whole hshort).1.trans (stripped_concat response.status))
    · exact .inl (hread.full hfull).1
  have hmore : 1 < (response.status ++ [13]).length := by
    rw [List.length_append]
    exact Nat.lt_add_right _ (Nat.lt_of_lt_of_le (by decide) hlong)
  obtain ⟨text, lines, hahead', hless⟩ := ahead_of_lineRead hread hahead hmore
  rw [List.length_append, List.length_singleton] at hless
  rw [hfound]
  simp only [hok, Bool.not_true, Bool.false_eq_true, ↓reduceIte]
  exact Setting.wp_mono (fun _ _ hheaded ↦ hheaded.of_taken_eq hread.taken_eq)
    (wp_skipHeaders hread.length_eq (by omega) hread.live hahead')

theorem OkResponse.length_le_of_stop {leftover : Bytes}
    (hstop : stop response.body (response.status.length + 1) response.lines = some leftover) :
    leftover.length ≤ response.bytes.length := by
  refine (HttpFraming.length_le_of_stop hstop).trans ?_
  rw [OkResponse.bytes, @List.length_append _ (lineBytes response.status)]
  exact Nat.le_add_left _ _

/-- The connection brings this text, and nothing of it was read into a buffer yet. -/
structure Brings (delivery : Delivery) (text : Bytes) : Prop where
  live : delivery.Live
  unread_eq : delivery.unread = text
  taken_eq : delivery.taken = []

/-- However the response comes, the head is read to its end and no further. -/
def HeadExact (response : OkResponse) : Prop :=
  ∀ (rounds : ℕ) (line : Bytes) (delivery : Delivery), response.bytes.length < rounds →
    line.length = kLineCap → Brings delivery response.bytes →
      setting.wp guard (readHead rounds line)
        (fun headed last ↦ headed = true ∧ last.unread = response.body) delivery

/-- No line of the head splits in front of its end. -/
def Whole (response : OkResponse) : Prop :=
  ∀ line ∈ response.status :: response.headers, ¬ Splits line

instance : Decidable (Whole response) := inferInstanceAs (Decidable (∀ line ∈ _, _))

/-- Where no line splits, the loop stops in front of the body. -/
theorem stop_of_whole {body : Bytes} {left : ℕ} {headers : List Bytes}
    (hleft : ¬ left % (kLineCap - 1) ≤ 1) (hheaders : ∀ line ∈ headers, ¬ Splits line) :
    stop body left (headers ++ [[]]) = some body := by
  induction headers generalizing left with
  | nil =>
    rw [List.nil_append, stop, if_neg hleft]
    rfl
  | cons line headers ih =>
    rw [List.cons_append, stop, if_neg hleft]
    exact ih (hheaders line List.mem_cons_self)
      fun other hother ↦ hheaders other (List.mem_cons_of_mem _ hother)

/-- Where a line splits, the loop stops at a line end in front of the body. -/
theorem stop_of_splits {body : Bytes} {left : ℕ} {headers : List Bytes}
    (hsplits : left % (kLineCap - 1) ≤ 1 ∨ ∃ line ∈ headers, Splits line) :
    ∃ before, before ≠ [] ∧ stop body left (headers ++ [[]]) = some (before ++ body) := by
  have hnonempty (headers : List Bytes) : (headers ++ [[]]).flatMap lineBytes ≠ [] := by
    rw [List.flatMap_append]
    exact List.append_ne_nil_of_right_ne_nil _ (List.cons_ne_nil _ _)
  induction headers generalizing left with
  | nil =>
    obtain hleft | ⟨line, hline, -⟩ := hsplits
    · exact ⟨_, hnonempty [], stop_of_le hleft⟩
    · exact absurd hline List.not_mem_nil
  | cons line headers ih =>
    by_cases hleft : left % (kLineCap - 1) ≤ 1
    · exact ⟨_, hnonempty (line :: headers), stop_of_le hleft⟩
    · rw [List.cons_append, stop, if_neg hleft]
      obtain ⟨other, hother, hsplit⟩ := hsplits.resolve_left hleft
      refine ih ?_
      rcases List.mem_cons.mp hother with rfl | hlater
      · exact .inl hsplit
      · exact .inr ⟨other, hlater, hsplit⟩

theorem stop_response_of_whole (hwhole : Whole response) :
    stop response.body (response.status.length + 1) response.lines = some response.body :=
  stop_of_whole (hwhole _ List.mem_cons_self)
    fun line hline ↦ hwhole line (List.mem_cons_of_mem _ hline)

theorem stop_response_of_not_whole (hsplits : ¬ Whole response) :
    ∃ before, before ≠ [] ∧ stop response.body (response.status.length + 1) response.lines =
      some (before ++ response.body) := by
  simp only [Whole, not_forall, not_not] at hsplits
  obtain ⟨line, hline, hsplit⟩ := hsplits
  refine stop_of_splits ?_
  rcases List.mem_cons.mp hline with rfl | hheader
  · exact .inl hsplit
  · exact .inr ⟨line, hheader, hsplit⟩

/-- The whole response has arrived. -/
def arrivedAll (text : Bytes) : Delivery := { arrived := text, coming := [] }

theorem brings_arrivedAll (text : Bytes) : Brings (arrivedAll text) text :=
  ⟨nofun, List.append_nil _, rfl⟩

/-- Where everything has arrived, every call is answered. -/
theorem exists_answers {delivery : Delivery} (hcoming : delivery.coming = [])
    {request : ClientCall} (hguard : guard delivery request) :
    ∃ answer delivery', delivery.Answers request answer delivery' ∧ delivery'.coming = [] := by
  cases request with
  | unending => exact absurd rfl hguard
  | connect host port => exact ⟨(1 : ℤ), delivery, ⟨rfl, rfl⟩, hcoming⟩
  | available =>
    refine ⟨(delivery.arrived.length : ℤ), delivery, ⟨.nothing, ?_⟩, hcoming⟩
    split_ifs with harrived
    · rw [harrived]
      exact le_rfl
    · exact ⟨Int.natCast_pos.mpr (List.length_pos_of_ne_nil harrived), le_rfl⟩
  | connected => exact ⟨true, delivery, ⟨fun _ ↦ rfl, rfl⟩, hcoming⟩
  | read => exact ⟨_, _, ⟨rfl, rfl⟩, hcoming⟩
  | readInto want =>
    refine ⟨⟨delivery.arrived.take want, List.length_take_le _ _⟩, _,
      ⟨List.take_prefix _ _, fun hwant harrived ↦ ?_, rfl⟩, hcoming⟩
    exact List.ne_nil_of_length_pos (by
      have hpos := List.length_pos_of_ne_nil harrived
      rw [List.length_take]
      omega)
  | delay ms => exact ⟨(), _, ⟨fun hmore ↦ absurd hcoming hmore, rfl⟩, hcoming⟩
  | setCACert ca => exact ⟨(), delivery, rfl, hcoming⟩
  | print text => exact ⟨(), delivery, rfl, hcoming⟩
  | stop => exact ⟨(), delivery, rfl, hcoming⟩

/-- The head is read to its end and no further if and only if no line splits. -/
theorem headExact_iff : HeadExact response ↔ Whole response := by
  constructor
  · intro hexact
    by_contra hsplits
    obtain ⟨before, hbefore, hstop⟩ := stop_response_of_not_whole hsplits
    have hbrings := brings_arrivedAll response.bytes
    have hbuffer : (List.replicate kLineCap (0 : UInt8)).length = kLineCap := List.length_replicate
    have hread := Setting.wp_and
      (wp_readHead hstop hbuffer (Nat.lt_succ_self _) hbrings.live hbrings.unread_eq)
      (hexact _ _ _ (Nat.lt_succ_self _) hbuffer hbrings)
    obtain ⟨headed, last, hheaded, -, hunread⟩ := Setting.exists_of_wp
      (fun _ _ hcoming hguard ↦ exists_answers hcoming hguard) rfl hread
    have hsame : before ++ response.body = response.body := hheaded.unread_eq.symm.trans hunread
    exact hbefore (List.append_left_eq_self.mp hsame)
  · intro hwhole rounds line delivery hrounds hline hbrings
    refine Setting.wp_mono (fun headed last hheaded ↦ ⟨hheaded.headed, hheaded.unread_eq⟩)
      (wp_readHead (stop_response_of_whole hwhole) hline hrounds hbrings.live hbrings.unread_eq)

end Head

end HttpFraming

end LibreSwitch.Net
