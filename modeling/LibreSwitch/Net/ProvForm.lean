import Mathlib.Tactic
import LibreSwitch.Net.HttpEnrollment
import LibreSwitch.Net.ProvisioningService

/-!
# The portal form

`ProvForm` of `net/provisioning_types.h`: URL decoding into a bounded buffer, the search of a field
in a form body, and the parse of a submission. A body is a C string.

The search looks for the next `=` anywhere in the rest of the body, so a segment without one is
taken for the beginning of the name in the next segment that has one. `fieldLoop_intercalate` says
what it finds: the first segment of the key among those that are reached (`reached`), which are the
pairs that do not stand directly behind a segment without `=`. `form_exact_iff` compares this with
the first segment of the key among all of them.
-/

set_option autoImplicit false
set_option relaxedAutoImplicit false

namespace LibreSwitch.Net

open LibreSwitch.Library

namespace ProvForm

/-! ### URL decoding -/

def isHex (c : UInt8) : Bool :=
  (48 ≤ c && c ≤ 57) || (97 ≤ c && c ≤ 102) || (65 ≤ c && c ≤ 70)

def hexVal (c : UInt8) : UInt8 :=
  if 48 ≤ c && c ≤ 57 then c - 48
  else if 97 ≤ c && c ≤ 102 then c - 97 + 10
  else c - 65 + 10

/-- The byte that a `%XX` stands for, if the bytes from `c` on are one, and what follows it. -/
def escape (c : UInt8) (rest : Bytes) : Option (UInt8 × Bytes) :=
  match rest with
  | high :: low :: behind =>
    if c = 37 ∧ isHex high = true ∧ isHex low = true then
      some (hexVal high <<< 4 ||| hexVal low, behind)
    else none
  | _ => none

/-- The loop of `urlDecode`, with the room that is left in front of the terminator. -/
def decodeLoop : ℕ → Bytes → Bytes
  | 0, _ => []
  | _ + 1, [] => []
  | room + 1, c :: rest =>
    if c = 43 then 32 :: decodeLoop room rest
    else
      match escape c rest with
      | some (byte, behind) => byte :: decodeLoop room behind
      | none => c :: decodeLoop room rest

/-- `urlDecode`: the bytes it puts in front of the terminator. -/
def urlDecode (text : Bytes) (outCap : ℕ) : Bytes := decodeLoop (outCap - 1) text

/-- The decoding of a whole text; no byte of it stands for more than one. -/
def decoding (text : Bytes) : Bytes := decodeLoop text.length text

/-! ### The search of a field -/

/-- The loop of `field`. Every round passes over an `=` at least. -/
def fieldLoop (key : Bytes) (outCap : ℕ) : ℕ → Bytes → Bool × Bytes
  | 0, _ => (false, [])
  | rounds + 1, p =>
    match strchr 61 p with
    | none => (false, [])
    | some eq =>
      if p.takeWhile (· ≠ 61) = key then
        (true, urlDecode (eq.tail.takeWhile (· ≠ 38)) outCap)
      else
        match strchr 38 eq.tail with
        | none => (false, [])
        | some amp => fieldLoop key outCap rounds amp.tail

/-- `field`: whether the key was present, and the text put into the buffer. -/
def field (body key : Bytes) (outCap : ℕ) : Bool × Bytes :=
  fieldLoop key outCap (body.length + 1) body

/-- `parse`: the credentials of a submission. -/
def parse (body : Bytes) : ProvisioningCredentials :=
  let ssid := cString (field body (ascii "ssid") kMaxSsid).2
  { ssid := ssid
    pass := cString (field body (ascii "pass") kMaxPass).2
    token := cString (field body (ascii "token") kMaxToken).2
    valid := ssid ≠ [] }

example : parse (ascii "ssid=My%20Net&pass=p+q") =
    { ssid := ascii "My Net", pass := ascii "p q", valid := true } := by decide

/-! ### What decoding comes to -/

theorem escape_eq_some {c byte : UInt8} {rest behind : Bytes}
    (hescape : escape c rest = some (byte, behind)) :
    c = 37 ∧ ∃ high low, isHex high = true ∧ isHex low = true ∧ rest = high :: low :: behind := by
  unfold escape at hescape
  split at hescape
  · rename_i high low behind'
    split_ifs at hescape with hhex
    obtain ⟨-, rfl⟩ := Prod.mk.inj (Option.some.inj hescape)
    exact ⟨hhex.1, high, low, hhex.2.1, hhex.2.2, rfl⟩
  · cases hescape

/-- What is decoded is no longer than the text. -/
theorem length_decodeLoop_le (room : ℕ) (text : Bytes) :
    (decodeLoop room text).length ≤ text.length := by
  induction room generalizing text with
  | zero => exact Nat.zero_le _
  | succ room ih =>
    cases text with
    | nil => exact le_rfl
    | cons c rest =>
      have hrest := ih rest
      unfold decodeLoop
      split_ifs
      · exact Nat.succ_le_succ hrest
      · cases hescape : escape c rest with
        | none => exact Nat.succ_le_succ hrest
        | some read =>
          obtain ⟨-, high, low, -, -, rfl⟩ := escape_eq_some hescape
          have hbehind := ih read.2
          simp only [List.length_cons]
          omega

/-- Less room cuts off the end. -/
theorem decodeLoop_eq_take {room more : ℕ} (hroom : room ≤ more) (text : Bytes) :
    decodeLoop room text = (decodeLoop more text).take room := by
  induction room generalizing more text with
  | zero => rfl
  | succ room ih =>
    obtain ⟨more, rfl⟩ : ∃ less, more = less + 1 := ⟨more - 1, by omega⟩
    have hless : room ≤ more := by omega
    cases text with
    | nil => rfl
    | cons c rest =>
      unfold decodeLoop
      split_ifs
      · rw [List.take_succ_cons, ih hless]
      · cases escape c rest with
        | none => exact congrArg (c :: ·) (ih hless rest)
        | some read => exact congrArg (read.1 :: ·) (ih hless read.2)

/-- With room for the whole text the decoding is whole. -/
theorem decodeLoop_eq_decoding {room : ℕ} {text : Bytes} (hroom : text.length ≤ room) :
    decodeLoop room text = decoding text := by
  rw [decoding, decodeLoop_eq_take hroom, List.take_of_length_le (length_decodeLoop_le room text)]

/-- `urlDecode` decodes the text and cuts the result off at the capacity of the buffer. -/
theorem urlDecode_eq_take (text : Bytes) (outCap : ℕ) :
    urlDecode text outCap = (decoding text).take (outCap - 1) := by
  rcases le_total (outCap - 1) text.length with hshort | hlong
  · exact decodeLoop_eq_take hshort text
  · rw [urlDecode, decodeLoop_eq_decoding hlong, List.take_of_length_le]
    exact (length_decodeLoop_le _ _).trans hlong

/-! ### What the search comes to -/

/-- The segments of a body: pairs, bare names and empty ones. -/
def segments (body : Bytes) : List Bytes := body.splitOn 38

/-- The value in a segment, if it is a pair of this key. -/
def valueOf (key segment : Bytes) : Option Bytes :=
  if (key ++ [61]).isPrefixOf segment then some (segment.drop (key.length + 1)) else none

/-- The pairs that the search takes for what they are: those that do not stand directly behind a
bare or an empty segment. The flag says whether the segment in front is one of these. -/
def reached : Bool → List Bytes → List Bytes
  | _, [] => []
  | hidden, segment :: rest =>
    if 61 ∈ segment then
      if hidden then reached false rest else segment :: reached false rest
    else reached true rest

/-- What `field` says of a value. -/
def answer (outCap : ℕ) : Option Bytes → Bool × Bytes
  | some value => (true, (decoding value).take (outCap - 1))
  | none => (false, [])

theorem valueOf_eq_some_iff {key segment value : Bytes} :
    valueOf key segment = some value ↔ segment = key ++ 61 :: value := by
  unfold valueOf
  split_ifs with hkey
  · rw [List.isPrefixOf_iff_prefix] at hkey
    obtain ⟨behind, rfl⟩ := hkey
    have hdrop : (key ++ [61] ++ behind).drop (key.length + 1) = behind :=
      List.drop_left' (by simp)
    rw [hdrop, Option.some.injEq, List.append_assoc, List.append_cancel_left_eq]
    simp
  · refine iff_of_false nofun ?_
    rintro rfl
    exact hkey (List.isPrefixOf_iff_prefix.mpr ⟨value, by simp⟩)

/-- A segment in front of the first `=` is a pair of the key if its name is the key. -/
theorem valueOf_pair {key name value : Bytes} (hkey : (61 : UInt8) ∉ key)
    (hname : (61 : UInt8) ∉ name) :
    valueOf key (name ++ 61 :: value) = if name = key then some value else none := by
  split_ifs with heq
  · exact valueOf_eq_some_iff.mpr (by rw [heq])
  · rw [Option.eq_none_iff_forall_ne_some]
    intro other hother
    have hsplit := congrArg (List.takeWhile (· ≠ 61)) (valueOf_eq_some_iff.mp hother)
    rw [takeWhile_ne_append_cons hname, takeWhile_ne_append_cons hkey] at hsplit
    exact heq hsplit

/-- The first pair is the last one of the body. -/
theorem fieldLoop_pair_end {key first value : Bytes} (hfirst : (61 : UInt8) ∉ first)
    (hvalue : (38 : UInt8) ∉ value) (outCap rounds : ℕ) :
    fieldLoop key outCap (rounds + 1) (first ++ 61 :: value) =
      if first = key then answer outCap (some value) else answer outCap none := by
  rw [fieldLoop, strchr_append_cons hfirst, takeWhile_ne_append_cons hfirst]
  simp only [List.tail_cons, takeWhile_ne_of_notMem hvalue, strchr_of_notMem hvalue,
    urlDecode_eq_take]
  rfl

/-- The next pair is looked for behind the first one. -/
theorem fieldLoop_pair_cons {key first value later : Bytes} (hfirst : (61 : UInt8) ∉ first)
    (hvalue : (38 : UInt8) ∉ value) (outCap rounds : ℕ) :
    fieldLoop key outCap (rounds + 1) (first ++ 61 :: (value ++ 38 :: later)) =
      if first = key then answer outCap (some value) else fieldLoop key outCap rounds later := by
  rw [fieldLoop, strchr_append_cons hfirst, takeWhile_ne_append_cons hfirst]
  simp only [List.tail_cons, takeWhile_ne_append_cons hvalue, strchr_append_cons hvalue,
    urlDecode_eq_take]
  rfl

/-- What is found from a pair on, behind a text that was taken for the beginning of its name. -/
theorem findSome?_reached_pair {key before name value : Bytes} (hkey : (61 : UInt8) ∉ key)
    (hamp : (38 : UInt8) ∉ key) (hname : (61 : UInt8) ∉ name)
    (hhidden : before = [] ∨ (38 : UInt8) ∈ before) (rest : List Bytes) :
    (reached (38 ∈ before) ((name ++ 61 :: value) :: rest)).findSome? (valueOf key) =
      if before ++ name = key then some value
      else (reached false rest).findSome? (valueOf key) := by
  rcases hhidden with rfl | hhidden
  · have hreached : reached (decide ((38 : UInt8) ∈ ([] : Bytes)))
        ((name ++ 61 :: value) :: rest) = (name ++ 61 :: value) :: reached false rest := by
      simp [reached]
    rw [hreached, List.findSome?_cons, valueOf_pair hkey hname, List.nil_append]
    split_ifs <;> rfl
  · have hnot : ¬ before ++ name = key := fun heq ↦ hamp (heq ▸ List.mem_append_left _ hhidden)
    have hreached : reached (decide ((38 : UInt8) ∈ before)) ((name ++ 61 :: value) :: rest) =
        reached false rest := by
      simp [reached, hhidden]
    rw [if_neg hnot, hreached]

/-- What the search finds in a body of these segments, when it stands behind a text without `=`
that was taken for the beginning of a name. -/
theorem fieldLoop_intercalate {key : Bytes} (hkey : (61 : UInt8) ∉ key)
    (hamp : (38 : UInt8) ∉ key) (outCap : ℕ) {parts : List Bytes}
    (hparts : ∀ segment ∈ parts, (38 : UInt8) ∉ segment) (before : Bytes)
    (hbefore : (61 : UInt8) ∉ before) (hhidden : before = [] ∨ (38 : UInt8) ∈ before) (rounds : ℕ)
    (hrounds : (before ++ [38].intercalate parts).length < rounds) :
    fieldLoop key outCap rounds (before ++ [38].intercalate parts) =
      answer outCap ((reached (38 ∈ before) parts).findSome? (valueOf key)) := by
  induction parts generalizing before rounds with
  | nil =>
    obtain ⟨rounds, rfl⟩ : ∃ fewer, rounds = fewer + 1 := ⟨rounds - 1, by omega⟩
    have hnone : (61 : UInt8) ∉ before ++ [38].intercalate [] := by simpa using hbefore
    rw [fieldLoop, strchr_of_notMem hnone]
    rfl
  | cons segment rest ih =>
    have hsegment := hparts segment (List.mem_cons_self ..)
    have hrest : ∀ other ∈ rest, (38 : UInt8) ∉ other :=
      fun other hother ↦ hparts other (List.mem_cons_of_mem _ hother)
    by_cases hpair : (61 : UInt8) ∈ segment
    · obtain ⟨name, value, rfl, hname⟩ := List.eq_append_cons_of_mem hpair
      obtain ⟨rounds, rfl⟩ : ∃ fewer, rounds = fewer + 1 := ⟨rounds - 1, by omega⟩
      have hvalue : (38 : UInt8) ∉ value := fun hmem ↦ hsegment (by simp [hmem])
      have hfirst : (61 : UInt8) ∉ before ++ name := by simp [hbefore, hname]
      rw [findSome?_reached_pair hkey hamp hname hhidden]
      cases rest with
      | nil =>
        have hsplit : before ++ [38].intercalate [name ++ 61 :: value] =
            (before ++ name) ++ 61 :: value := by simp
        rw [hsplit, fieldLoop_pair_end hfirst hvalue]
        split_ifs <;> rfl
      | cons next more =>
        have hsplit : before ++ [38].intercalate ((name ++ 61 :: value) :: next :: more) =
            (before ++ name) ++ 61 :: (value ++ 38 :: [38].intercalate (next :: more)) := by
          rw [List.intercalate_cons_cons]
          simp
        have hfewer : ([] ++ [38].intercalate (next :: more)).length < rounds := by
          rw [hsplit] at hrounds
          simp only [List.length_append, List.length_cons] at hrounds
          simp only [List.nil_append]
          omega
        rw [hsplit, fieldLoop_pair_cons hfirst hvalue]
        split_ifs with hfound
        · rfl
        · -- the next pair is looked for with nothing in front of it
          exact ih hrest [] List.not_mem_nil (.inl rfl) rounds hfewer
    · have hreached : reached (decide ((38 : UInt8) ∈ before)) (segment :: rest) =
          reached true rest := by simp [reached, hpair]
      rw [hreached]
      cases rest with
      | nil =>
        obtain ⟨rounds, rfl⟩ : ∃ fewer, rounds = fewer + 1 := ⟨rounds - 1, by omega⟩
        have hnone : (61 : UInt8) ∉ before ++ [38].intercalate [segment] := by
          simp [hbefore, hpair]
        rw [fieldLoop, strchr_of_notMem hnone]
        rfl
      | cons next more =>
        have hmerged : before ++ [38].intercalate (segment :: next :: more) =
            (before ++ segment ++ [38]) ++ [38].intercalate (next :: more) := by
          rw [List.intercalate_cons_cons]
          simp
        have hmore := ih hrest (before ++ segment ++ [38]) (by simp [hbefore, hpair])
          (.inr (by simp)) rounds (by rw [← hmerged]; exact hrounds)
        rw [hmerged, hmore]
        simp

/-! ### Whether the right field is found -/

/-- The value in the first pair of a key. -/
def firstValue (key : Bytes) (parts : List Bytes) : Option Bytes := parts.findSome? (valueOf key)

/-- `field` finds the first pair of the key among those that are reached. -/
theorem field_eq {key : Bytes} (hkey : (61 : UInt8) ∉ key) (hamp : (38 : UInt8) ∉ key)
    (body : Bytes) (outCap : ℕ) :
    field body key outCap = answer outCap (firstValue key (reached false (segments body))) := by
  have hbody : [38].intercalate (segments body) = body := List.intercalate_splitOn 38
  have hloop := @fieldLoop_intercalate key hkey hamp outCap (segments body)
    (fun _ hsegment ↦ notMem_of_mem_splitOn hsegment) [] List.not_mem_nil (.inl rfl)
    (body.length + 1) (by rw [List.nil_append, hbody]; exact Nat.lt_succ_self _)
  rw [List.nil_append, hbody] at hloop
  exact hloop

/-- `field` returns true exactly when some segment is a pair of the key, with the decoding of the
first one in the buffer, and leaves the buffer empty otherwise. -/
structure FieldExact (body key : Bytes) (outCap : ℕ) : Prop where
  present_iff : (field body key outCap).1 = true ↔ ∃ value, key ++ 61 :: value ∈ segments body
  text_eq {before after : List Bytes} {value : Bytes}
    (hsplit : segments body = before ++ (key ++ 61 :: value) :: after)
    (hfirst : ∀ other, key ++ 61 :: other ∉ before) :
    (field body key outCap).2 = (decoding value).take (outCap - 1)
  text_absent (habsent : ∀ value, key ++ 61 :: value ∉ segments body) :
    (field body key outCap).2 = []

theorem valueOf_eq_none_iff {key segment : Bytes} :
    valueOf key segment = none ↔ ∀ value, segment ≠ key ++ 61 :: value := by
  rw [Option.eq_none_iff_forall_ne_some]
  exact forall_congr' fun value ↦ not_congr valueOf_eq_some_iff

theorem firstValue_eq_some_iff {key value : Bytes} {parts : List Bytes} :
    firstValue key parts = some value ↔ ∃ before after,
      parts = before ++ (key ++ 61 :: value) :: after ∧ ∀ other, key ++ 61 :: other ∉ before := by
  rw [firstValue, List.findSome?_eq_some_iff]
  constructor
  · rintro ⟨before, segment, after, rfl, hvalue, hbefore⟩
    refine ⟨before, after, by rw [valueOf_eq_some_iff.mp hvalue], fun other hother ↦ ?_⟩
    exact valueOf_eq_none_iff.mp (hbefore _ hother) other rfl
  · rintro ⟨before, after, rfl, hbefore⟩
    refine ⟨before, _, after, rfl, valueOf_eq_some_iff.mpr rfl, fun segment hsegment ↦ ?_⟩
    exact valueOf_eq_none_iff.mpr fun other heq ↦ hbefore other (heq ▸ hsegment)

theorem firstValue_eq_none_iff {key : Bytes} {parts : List Bytes} :
    firstValue key parts = none ↔ ∀ value, key ++ 61 :: value ∉ parts := by
  rw [firstValue, List.findSome?_eq_none_iff]
  constructor
  · intro hnone value hmem
    exact valueOf_eq_none_iff.mp (hnone _ hmem) value rfl
  · intro hnone segment hsegment
    exact valueOf_eq_none_iff.mpr fun value heq ↦ hnone value (heq ▸ hsegment)

theorem fieldExact_iff {body key : Bytes} {outCap : ℕ} :
    FieldExact body key outCap ↔
      field body key outCap = answer outCap (firstValue key (segments body)) := by
  cases hfirst : firstValue key (segments body) with
  | none =>
    have habsent := firstValue_eq_none_iff.mp hfirst
    constructor
    · intro hexact
      have hfalse : (field body key outCap).1 = false := by
        rw [← Bool.not_eq_true, hexact.present_iff]
        exact not_exists.mpr habsent
      exact Prod.ext hfalse (hexact.text_absent habsent)
    · intro heq
      refine ⟨?_, fun {_ _ value} hsplit _ ↦ ?_, fun _ ↦ congrArg Prod.snd heq⟩
      · rw [heq]
        exact iff_of_false Bool.false_ne_true (not_exists.mpr habsent)
      · have hmem : key ++ 61 :: value ∈ segments body := by rw [hsplit]; simp
        exact absurd hmem (habsent value)
  | some value =>
    obtain ⟨before, after, hsplit, hbefore⟩ := firstValue_eq_some_iff.mp hfirst
    have hpresent : ∃ value, key ++ 61 :: value ∈ segments body :=
      ⟨value, by rw [hsplit]; simp⟩
    constructor
    · intro hexact
      exact Prod.ext (hexact.present_iff.mpr hpresent) (hexact.text_eq hsplit hbefore)
    · intro heq
      refine ⟨?_, fun {before' after' value'} hsplit' hbefore' ↦ ?_, fun habsent ↦ ?_⟩
      · rw [heq]
        exact iff_of_true rfl hpresent
      · have hsame : firstValue key (segments body) = some value' :=
          firstValue_eq_some_iff.mpr ⟨before', after', hsplit', hbefore'⟩
        obtain rfl : value = value' := Option.some.inj (hfirst.symm.trans hsame)
        exact congrArg Prod.snd heq
      · exact absurd hpresent (not_exists.mpr habsent)

/-- The text of a value that a submission is accepted with. -/
def Acceptable (value : Bytes) : Prop := ∃ byte rest, decoding value = byte :: rest ∧ byte ≠ 0

/-- A submission is valid exactly when there is an `ssid` segment and the first one decodes to
something that does not start with a zero byte. -/
def ParseExact (body : Bytes) : Prop :=
  (parse body).valid = true ↔
    ∃ value, firstValue (ascii "ssid") (segments body) = some value ∧ Acceptable value

/-- The first pair of the key is one of those that are reached, or else the first that is reached
leaves the same text. -/
def Found (key body : Bytes) (outCap : ℕ) : Prop :=
  ∀ value, firstValue key (segments body) = some value →
    ∃ other, firstValue key (reached false (segments body)) = some other ∧
      (decoding other).take (outCap - 1) = (decoding value).take (outCap - 1)

/-- What is reached is among the segments. -/
theorem mem_of_mem_reached {hidden : Bool} {parts : List Bytes} {segment : Bytes}
    (hsegment : segment ∈ reached hidden parts) : segment ∈ parts := by
  induction parts generalizing hidden with
  | nil => exact hsegment
  | cons first rest ih =>
    unfold reached at hsegment
    split_ifs at hsegment with hpair hhidden
    · exact List.mem_cons_of_mem _ (ih hsegment)
    · rcases List.mem_cons.mp hsegment with rfl | hlater
      · exact List.mem_cons_self ..
      · exact List.mem_cons_of_mem _ (ih hlater)
    · exact List.mem_cons_of_mem _ (ih hsegment)

theorem fieldExact_iff_found {key : Bytes} (hkey : (61 : UInt8) ∉ key) (hamp : (38 : UInt8) ∉ key)
    (body : Bytes) (outCap : ℕ) : FieldExact body key outCap ↔ Found key body outCap := by
  rw [fieldExact_iff, field_eq hkey hamp, Found]
  cases hfirst : firstValue key (segments body) with
  | none =>
    have hreached : firstValue key (reached false (segments body)) = none :=
      firstValue_eq_none_iff.mpr fun value hmem ↦
        firstValue_eq_none_iff.mp hfirst value (mem_of_mem_reached hmem)
    simp [hreached]
  | some value =>
    cases hreached : firstValue key (reached false (segments body)) with
    | none => simp [answer]
    | some other => simp [answer]

/-- A submission is valid exactly when the first `ssid` segment that is reached is acceptable. -/
theorem valid_parse_iff (body : Bytes) : (parse body).valid = true ↔
    ∃ value, firstValue (ascii "ssid") (reached false (segments body)) = some value ∧
      Acceptable value := by
  have hfield := @field_eq (ascii "ssid") (by decide) (by decide) body kMaxSsid
  rw [parse, decide_eq_true_eq, hfield]
  cases firstValue (ascii "ssid") (reached false (segments body)) with
  | none => simp [answer, cString]
  | some value =>
    have hstarts : cString ((decoding value).take (kMaxSsid - 1)) ≠ [] ↔ Acceptable value := by
      unfold Acceptable
      cases decoding value with
      | nil => simp [cString]
      | cons byte rest =>
        by_cases hzero : byte = 0
        · simp [cString, kMaxSsid, hzero]
        · simp [cString, kMaxSsid, hzero]
    simp [answer, hstarts]

/-- Exactly when a form is read as its segments say: a field of a key without `=` and `&`, for any
key and buffer, and the validity of the whole. -/
theorem form_exact_iff (body : Bytes) :
    (∀ key outCap, (61 : UInt8) ∉ key → (38 : UInt8) ∉ key →
      (FieldExact body key outCap ↔ Found key body outCap)) ∧
    (ParseExact body ↔
      ((∃ value, firstValue (ascii "ssid") (reached false (segments body)) = some value ∧
          Acceptable value) ↔
        ∃ value, firstValue (ascii "ssid") (segments body) = some value ∧ Acceptable value)) := by
  refine ⟨fun key outCap hkey hamp ↦ fieldExact_iff_found hkey hamp body outCap, ?_⟩
  rw [ParseExact, valid_parse_iff]

/-- A form whose first segment has no `=`. -/
def bareFirst : Bytes := ascii "setup&ssid=home&pass=secret"

theorem form_exact_iff_witness :
    FieldExact bareFirst (ascii "pass") kMaxPass ↔ Found (ascii "pass") bareFirst kMaxPass :=
  (form_exact_iff bareFirst).1 (ascii "pass") kMaxPass (by decide) (by decide)

/-- The network name is there, but the segment in front of it hides it. -/
theorem field_misses :
    ¬ ∀ body key outCap, (61 : UInt8) ∉ key → (38 : UInt8) ∉ key →
      FieldExact body key outCap ∧ ParseExact body := by
  intro hall
  obtain ⟨hfield, -⟩ := hall bareFirst (ascii "ssid") kMaxSsid (by decide) (by decide)
  have hpresent : ascii "ssid" ++ 61 :: ascii "home" ∈ segments bareFirst := by decide
  have htrue := hfield.present_iff.mpr ⟨_, hpresent⟩
  exact absurd htrue (by decide)

end ProvForm

end LibreSwitch.Net
