import Mathlib.Tactic
import Mathlib.Data.List.TakeWhile
import Mathlib.Data.Nat.Digits.Defs

/-!
# Byte strings and C strings

Byte strings are lists of bytes. A C string held in a longer buffer is the part before its first
zero byte (`cString`); a C string on its own is a byte string without zero bytes. The searches of
the C library are given by their documented behaviour: `strstr` returns the rest of the text from
the first occurrence of the pattern on, and `endsWith` compares the tail. `strstr_eq_some_iff` and
`endsWith_iff` are their specifications in terms of prefixes, infixes and suffixes.

`zeroed` is a buffer into which something was read, and `holdsString_zeroed_iff` says when that is
a C string inside the buffer.

`decimal` is what `%u` prints and `decimalValue` what a digit loop reads; `decimalValue_decimal` is
the round trip, `zeroPadded` is what is printed to a width, `Spells` says that a text of digits
reads as a number, and `atoi` reads a number with blanks and a sign before it. `littleEndian` and
`ofLittleEndian` are the memory image of an unsigned integer.
-/

set_option autoImplicit false
set_option relaxedAutoImplicit false

namespace LibreSwitch.Library

/-- A byte string. -/
abbrev Bytes := List UInt8

/-- The bytes of an ASCII literal. -/
def ascii (text : String) : Bytes :=
  text.toList.map fun character ↦ character.toNat.toUInt8

/-- The C string at the start of a buffer: the bytes before the first zero. -/
def cString (buffer : Bytes) : Bytes := buffer.takeWhile (· ≠ 0)

theorem zero_notMem_cString (buffer : Bytes) : (0 : UInt8) ∉ cString buffer := by
  intro hmem
  have hall : (cString buffer).all (· ≠ 0) = true := List.all_takeWhile
  simpa using List.all_eq_true.mp hall 0 hmem

/-- The C string in front of a zero byte is all that stands there, if that has no other zero. -/
theorem cString_append_zero {text : Bytes} (htext : (0 : UInt8) ∉ text) (behind : Bytes) :
    cString (text ++ 0 :: behind) = text := by
  have hall : ∀ byte ∈ text, decide (byte ≠ 0) = true := by
    intro byte hbyte
    exact decide_eq_true fun hzero ↦ htext (hzero ▸ hbyte)
  rw [cString, List.takeWhile_append_of_pos hall, List.takeWhile_cons_of_neg (by simp),
    List.append_nil]

/-- A first part without zeros belongs to the C string. -/
theorem cString_append {text : Bytes} (htext : (0 : UInt8) ∉ text) (behind : Bytes) :
    cString (text ++ behind) = text ++ cString behind :=
  List.takeWhile_append_of_pos fun _ hbyte ↦ decide_eq_true fun hzero ↦ htext (hzero ▸ hbyte)

/-- The C string starts the buffer. -/
theorem cString_append_rest (buffer : Bytes) :
    cString buffer ++ buffer.dropWhile (· ≠ 0) = buffer := List.takeWhile_append_dropWhile

/-! ### Runs -/

/-- A run stops at the first byte that does not belong to it. -/
theorem dropWhile_append_cons {first rest : Bytes} {byte : UInt8} {p : UInt8 → Bool}
    (hfirst : ∀ other ∈ first, p other = true) (hbyte : p byte = false) :
    (first ++ byte :: rest).dropWhile p = byte :: rest := by
  rw [List.dropWhile_append_of_pos hfirst, List.dropWhile_cons_of_neg (by rw [hbyte]; decide)]

theorem takeWhile_append_cons {first rest : Bytes} {byte : UInt8} {p : UInt8 → Bool}
    (hfirst : ∀ other ∈ first, p other = true) (hbyte : p byte = false) :
    (first ++ byte :: rest).takeWhile p = first := by
  rw [List.takeWhile_append_of_pos hfirst, List.takeWhile_cons_of_neg (by rw [hbyte]; decide),
    List.append_nil]

/-- What stands in front of the first occurrence of a byte. -/
theorem takeWhile_ne_append_cons {byte : UInt8} {first : Bytes} (hfirst : byte ∉ first)
    (rest : Bytes) : (first ++ byte :: rest).takeWhile (· ≠ byte) = first :=
  takeWhile_append_cons (fun _ hother ↦ decide_eq_true fun heq ↦ hfirst (heq ▸ hother)) (by simp)

theorem takeWhile_ne_of_notMem {byte : UInt8} {text : Bytes} (hnone : byte ∉ text) :
    text.takeWhile (· ≠ byte) = text :=
  List.takeWhile_eq_self_iff.mpr fun _ hother ↦
    decide_eq_true fun heq ↦ hnone (heq ▸ hother)

theorem of_mem_takeWhile {text : Bytes} {p : UInt8 → Bool} :
    ∀ byte ∈ text.takeWhile p, p byte = true := List.all_eq_true.mp List.all_takeWhile

/-- What is left behind a run begins with the byte that stopped it. -/
theorem eq_takeWhile_append_cons {text rest : Bytes} {byte : UInt8} {p : UInt8 → Bool}
    (hstop : text.dropWhile p = byte :: rest) :
    text = text.takeWhile p ++ byte :: rest ∧ p byte = false := by
  constructor
  · rw [← hstop, List.takeWhile_append_dropWhile]
  · have hhead := List.head?_dropWhile_not p text
    rw [hstop] at hhead
    exact hhead

/-- No part of a split text has the byte at which it was split. -/
theorem notMem_of_mem_splitOn {byte : UInt8} {text part : Bytes}
    (hpart : part ∈ text.splitOn byte) :
    byte ∉ part := by
  induction text generalizing part with
  | nil =>
    rw [List.splitOn_nil, List.mem_singleton] at hpart
    rw [hpart]
    exact List.not_mem_nil
  | cons first rest ih =>
    obtain ⟨head, others, hsplit⟩ := List.exists_cons_of_ne_nil (List.splitOn_ne_nil byte rest)
    rw [hsplit] at ih
    rw [List.splitOn_cons_eq_if_modifyHead, hsplit] at hpart
    split_ifs at hpart with hfirst
    · rcases List.mem_cons.mp hpart with rfl | hlater
      · exact List.not_mem_nil
      · exact ih hlater
    · rcases List.mem_cons.mp hpart with rfl | hlater
      · have hhead : byte ∉ head := ih (List.mem_cons_self ..)
        have hne : byte ≠ first := fun heq ↦ hfirst (by rw [heq]; exact beq_self_eq_true first)
        exact fun hmem ↦ (List.mem_cons.mp hmem).elim hne hhead
      · exact ih (List.mem_cons_of_mem _ hlater)

/-! ### Buffers -/

/-- A zeroed buffer of a given size with some bytes at its start. -/
def zeroed (size : ℕ) (bytes : Bytes) : Bytes := bytes ++ List.replicate (size - bytes.length) 0

/-- The buffer holds exactly this C string, with the terminator inside the buffer. -/
def HoldsString (buffer text : Bytes) : Prop := (0 : UInt8) ∈ buffer ∧ cString buffer = text

/-- What is read into a zeroed buffer is a C string there exactly when it leaves room for the
terminator and has no zero byte of its own. -/
theorem holdsString_zeroed_iff {size : ℕ} {text : Bytes} :
    HoldsString (zeroed size (text.take size)) text ↔ (0 : UInt8) ∉ text ∧ text.length < size := by
  constructor
  · intro hholds
    obtain ⟨hzero, hstring⟩ := hholds
    have htext : (0 : UInt8) ∉ text := hstring ▸ zero_notMem_cString _
    refine ⟨htext, ?_⟩
    by_contra hlong
    have hnone : size - (text.take size).length = 0 := by
      rw [List.length_take]
      omega
    rw [zeroed, hnone, List.replicate_zero, List.append_nil] at hzero
    exact htext (List.mem_of_mem_take hzero)
  · intro hfits
    obtain ⟨htext, hlength⟩ := hfits
    obtain ⟨room, hroom⟩ : ∃ room, size - text.length = room + 1 :=
      ⟨size - text.length - 1, by omega⟩
    rw [List.take_of_length_le hlength.le, zeroed, hroom, List.replicate_succ]
    exact ⟨by simp, cString_append_zero htext _⟩

/-! ### Searching -/

/-- `strchr`: the rest of a C string from the first occurrence of a byte on. -/
def strchr (byte : UInt8) (text : Bytes) : Option Bytes :=
  match text.dropWhile (· ≠ byte) with
  | [] => none
  | found => some found

theorem strchr_of_notMem {byte : UInt8} {text : Bytes} (hnone : byte ∉ text) :
    strchr byte text = none := by
  have hdrop : text.dropWhile (· ≠ byte) = [] := by
    rw [List.dropWhile_eq_nil_iff]
    intro other hother
    exact decide_eq_true fun heq ↦ hnone (heq ▸ hother)
  rw [strchr, hdrop]

/-- The search stops at the first occurrence. -/
theorem strchr_append_cons {byte : UInt8} {first : Bytes} (hfirst : byte ∉ first) (rest : Bytes) :
    strchr byte (first ++ byte :: rest) = some (byte :: rest) := by
  have hdrop : (first ++ byte :: rest).dropWhile (· ≠ byte) = byte :: rest :=
    dropWhile_append_cons
      (fun other hother ↦ decide_eq_true fun heq ↦ hfirst (heq ▸ hother)) (by simp)
  rw [strchr, hdrop]

/-- A first part without the byte is passed over. -/
theorem strchr_append_of_notMem {byte : UInt8} {first : Bytes} (hfirst : byte ∉ first)
    (rest : Bytes) : strchr byte (first ++ rest) = strchr byte rest := by
  have hdrop : (first ++ rest).dropWhile (· ≠ byte) = rest.dropWhile (· ≠ byte) :=
    List.dropWhile_append_of_pos fun other hother ↦
      decide_eq_true fun heq ↦ hfirst (heq ▸ hother)
  rw [strchr, hdrop, strchr]

theorem suffix_of_strchr {byte : UInt8} {text found : Bytes}
    (hfound : strchr byte text = some found) : found <:+ text := by
  have hdrop : text.dropWhile (· ≠ byte) <:+ text := List.dropWhile_suffix _
  unfold strchr at hfound
  split at hfound
  · cases hfound
  · rwa [← Option.some.inj hfound]

/-- The rest of the text from the first occurrence of the pattern on. -/
def strstr (pattern : Bytes) : Bytes → Option Bytes
  | [] => if pattern.isPrefixOf [] then some [] else none
  | byte :: rest =>
    if pattern.isPrefixOf (byte :: rest) then some (byte :: rest) else strstr pattern rest

/-- `endsWith`: compares the last bytes of a text with a suffix. -/
def endsWith (text suffix : Bytes) : Bool :=
  text.length ≥ suffix.length && text.drop (text.length - suffix.length) = suffix

theorem endsWith_iff {text suffix : Bytes} : endsWith text suffix = true ↔ suffix <:+ text := by
  simp only [endsWith, Bool.and_eq_true, decide_eq_true_eq]
  constructor
  · rintro ⟨_, hdrop⟩
    rw [← hdrop]
    exact List.drop_suffix _ _
  · rintro ⟨before, rfl⟩
    simp

/-- What `strstr` finds is an occurrence of the pattern, and no occurrence starts before it. -/
theorem strstr_eq_some_iff {pattern text found : Bytes} :
    strstr pattern text = some found ↔
      ∃ before, text = before ++ found ∧ pattern <+: found ∧
        ∀ shorter rest, shorter.length < before.length → text = shorter ++ rest →
          ¬ pattern <+: rest := by
  induction text with
  | nil =>
    simp only [strstr]
    split_ifs with hpre
    · have hpattern : pattern <+: [] := List.isPrefixOf_iff_prefix.mp hpre
      constructor
      · rintro ⟨⟩
        exact ⟨[], rfl, hpattern, by simp⟩
      · rintro ⟨before, heq, -, -⟩
        obtain ⟨-, rfl⟩ := List.append_eq_nil_iff.mp heq.symm
        rfl
    · have hpattern : ¬ pattern <+: [] := fun h ↦ hpre (List.isPrefixOf_iff_prefix.mpr h)
      simp only [false_iff, not_exists, not_and]
      intro before heq hfound
      obtain ⟨-, rfl⟩ := List.append_eq_nil_iff.mp heq.symm
      exact absurd hfound hpattern
  | cons byte rest ih =>
    simp only [strstr]
    split_ifs with hpre
    · have hpattern : pattern <+: byte :: rest := List.isPrefixOf_iff_prefix.mp hpre
      constructor
      · rintro ⟨⟩
        exact ⟨[], rfl, hpattern, by simp⟩
      · rintro ⟨before, heq, -, hfirst⟩
        cases before with
        | nil => rw [heq]; rfl
        | cons head tail => exact absurd hpattern (hfirst [] (byte :: rest) (by simp) rfl)
    · have hpattern : ¬ pattern <+: byte :: rest :=
        fun h ↦ hpre (List.isPrefixOf_iff_prefix.mpr h)
      rw [ih]
      constructor
      · rintro ⟨before, rfl, hfound, hfirst⟩
        refine ⟨byte :: before, rfl, hfound, ?_⟩
        intro shorter tail hshorter heq
        cases shorter with
        | nil => rw [List.nil_append] at heq; rwa [← heq]
        | cons head shorter =>
          obtain ⟨-, heq⟩ := List.cons_eq_cons.mp heq
          exact hfirst shorter tail (by simpa using hshorter) heq
      · rintro ⟨before, heq, hfound, hfirst⟩
        cases before with
        | nil => exact absurd (heq ▸ hfound) hpattern
        | cons head before =>
          obtain ⟨rfl, rfl⟩ := List.cons_eq_cons.mp heq
          exact ⟨before, rfl, hfound, fun shorter tail hshorter heq ↦
            hfirst (byte :: shorter) tail (by simpa using hshorter) (by rw [heq]; rfl)⟩

/-- `strstr` finds a pattern exactly when it occurs. -/
theorem strstr_isSome_iff {pattern text : Bytes} :
    (strstr pattern text).isSome = true ↔ pattern <:+: text := by
  induction text with
  | nil => simp [strstr, List.isPrefixOf_iff_prefix]
  | cons byte rest ih =>
    simp only [strstr]
    split_ifs with hpre
    · have hpattern : pattern <+: byte :: rest := List.isPrefixOf_iff_prefix.mp hpre
      simp [hpattern.isInfix]
    · have hpattern : ¬ pattern <+: byte :: rest :=
        fun h ↦ hpre (List.isPrefixOf_iff_prefix.mpr h)
      rw [ih, List.infix_cons_iff]
      simp [hpattern]

/-- What `strstr` finds, as a split of the text: up to the last byte of what was found the pattern
does not occur. -/
theorem strstr_eq_pattern_append_iff {pattern text behind : Bytes} (hpattern : pattern ≠ []) :
    strstr pattern text = some (pattern ++ behind) ↔
      ∃ before, text = before ++ (pattern ++ behind) ∧
        ¬ pattern <:+: before ++ pattern.dropLast := by
  have hlength : pattern.dropLast.length + 1 = pattern.length := by
    have := List.length_pos_of_ne_nil hpattern
    rw [List.length_dropLast]
    omega
  have hlast : pattern = pattern.dropLast ++ [pattern.getLast hpattern] :=
    (List.dropLast_append_getLast hpattern).symm
  rw [strstr_eq_some_iff]
  refine exists_congr fun before ↦ and_congr_right fun htext ↦ ?_
  constructor
  · rintro ⟨-, hfirst⟩ ⟨shorter, rest, hinfix⟩
    have hcount := congrArg List.length hinfix
    simp only [List.length_append] at hcount
    refine hfirst shorter (pattern ++ (rest ++ pattern.getLast hpattern :: behind)) (by omega) ?_
      (List.prefix_append _ _)
    calc text = before ++ pattern.dropLast ++ pattern.getLast hpattern :: behind := by
          rw [htext, List.append_assoc, ← List.singleton_append, ← List.append_assoc _ [_], ← hlast]
      _ = shorter ++ (pattern ++ (rest ++ pattern.getLast hpattern :: behind)) := by
          rw [← hinfix]
          simp only [List.append_assoc]
  · intro hnone
    refine ⟨List.prefix_append _ _, ?_⟩
    rintro shorter rest hshorter heq ⟨tail, rfl⟩
    have hhere : shorter ++ pattern <+: text := ⟨tail, by rw [heq, List.append_assoc]⟩
    have hupto : before ++ pattern.dropLast <+: text := by
      rw [htext]
      exact List.prefix_append_right_inj _ |>.mpr
        ((List.dropLast_prefix _).trans (List.prefix_append _ _))
    have hinside : shorter ++ pattern <+: before ++ pattern.dropLast := by
      refine List.prefix_of_prefix_length_le hhere hupto ?_
      simp only [List.length_append]
      omega
    exact hnone ((List.suffix_append _ _).isInfix.trans hinside.isInfix)

/-- Where no occurrence starts inside the first part, the search goes on behind it. -/
theorem strstr_append {pattern first : Bytes} {rest : Bytes}
    (hnone : ∀ tail, tail ≠ [] → tail <:+ first → ¬ pattern <+: tail ++ rest) :
    strstr pattern (first ++ rest) = strstr pattern rest := by
  induction first with
  | nil => rfl
  | cons byte first ih =>
    have hhere : ¬ pattern <+: byte :: first ++ rest :=
      hnone (byte :: first) (by simp) (List.suffix_refl _)
    have hpre : ¬ pattern.isPrefixOf (byte :: (first ++ rest)) = true :=
      fun h ↦ hhere (List.isPrefixOf_iff_prefix.mp h)
    rw [List.cons_append, strstr, if_neg hpre]
    exact ih fun tail htail hsuffix ↦ hnone tail htail (hsuffix.trans (List.suffix_cons _ _))

/-- A text that starts with the pattern is found whole. -/
theorem strstr_of_prefix {pattern text : Bytes} (hpre : pattern <+: text) :
    strstr pattern text = some text := by
  have hpos : pattern.isPrefixOf text = true := List.isPrefixOf_iff_prefix.mpr hpre
  cases text with
  | nil => rw [strstr, if_pos hpos]
  | cons byte rest => rw [strstr, if_pos hpos]

/-! ### Segments -/

/-- Texts cut at a separator are compared segment by segment. -/
theorem segment_prefix_iff {separator : UInt8} {first second rest tail : Bytes}
    (hfirst : separator ∉ first) (hsecond : separator ∉ second) :
    first ++ separator :: rest <+: second ++ separator :: tail ↔
      first = second ∧ rest <+: tail := by
  induction first generalizing second with
  | nil =>
    cases second with
    | nil => simp [List.cons_prefix_cons]
    | cons byte second =>
      have hbyte : separator ≠ byte := fun heq ↦ hsecond (by simp [heq])
      simp [List.cons_prefix_cons, hbyte]
  | cons byte first ih =>
    have hfirst' : separator ∉ first := fun hmem ↦ hfirst (List.mem_cons_of_mem _ hmem)
    cases second with
    | nil =>
      have hbyte : byte ≠ separator := fun heq ↦ hfirst (by simp [heq])
      simp [List.cons_prefix_cons, hbyte]
    | cons byte' second =>
      have hsecond' : separator ∉ second := fun hmem ↦ hsecond (List.mem_cons_of_mem _ hmem)
      simp only [List.cons_append, List.cons_prefix_cons, List.cons.injEq, ih hfirst' hsecond',
        and_assoc]

/-- A search passes over a segment in whose tails no occurrence starts. -/
theorem strstr_segment {pattern segment text : Bytes} {separator : UInt8}
    (hnone : ∀ tail, tail <:+ segment → ¬ pattern <+: tail ++ separator :: text) :
    strstr pattern (segment ++ separator :: text) = strstr pattern text := by
  have hcons : segment ++ separator :: text = (segment ++ [separator]) ++ text := by simp
  rw [hcons, strstr_append]
  intro tail htail hsuffix hpre
  obtain hnil | ⟨inner, rfl, hinner⟩ := List.suffix_concat_iff.mp hsuffix
  · exact htail hnil
  · exact hnone inner hinner (by simpa using hpre)

/-! ### Decimal numbers -/

/-- Whether a byte is one of the ten digits. -/
def isDigit (byte : UInt8) : Bool := 48 ≤ byte && byte ≤ 57

/-- The number a digit loop reads, most significant digit first. -/
def decimalValue (digits : Bytes) : ℕ :=
  digits.foldl (fun value digit ↦ value * 10 + (digit.toNat - 48)) 0

/-- The digits `%u` prints. -/
def decimal (n : ℕ) : Bytes :=
  if n = 0 then [48] else (Nat.digits 10 n).reverse.map fun digit ↦ UInt8.ofNat (48 + digit)

theorem decimal_ne_nil (n : ℕ) : decimal n ≠ [] := by
  unfold decimal
  split_ifs with hzero
  · simp
  · simpa [Nat.digits_eq_nil_iff_eq_zero] using hzero

theorem toNat_ofNat_digit {digit : ℕ} (hdigit : digit < 10) :
    (UInt8.ofNat (48 + digit)).toNat = 48 + digit := by
  rw [UInt8.toNat_ofNat']
  omega

theorem isDigit_of_mem_decimal {n : ℕ} {byte : UInt8} (hbyte : byte ∈ decimal n) :
    isDigit byte = true := by
  unfold decimal at hbyte
  split_ifs at hbyte with hzero
  · rw [List.mem_singleton.mp hbyte]
    rfl
  · obtain ⟨digit, hdigit, rfl⟩ := List.mem_map.mp hbyte
    have hlt : digit < 10 := Nat.digits_lt_base (by norm_num) (List.mem_reverse.mp hdigit)
    have hnat := toNat_ofNat_digit hlt
    simp only [isDigit, Bool.and_eq_true, decide_eq_true_eq, UInt8.le_iff_toNat_le, hnat]
    exact ⟨Nat.le_add_right 48 digit, by change 48 + digit ≤ 57; omega⟩

theorem length_decimal_le {n width : ℕ} (hwidth : 0 < width) (hn : n < 10 ^ width) :
    (decimal n).length ≤ width := by
  unfold decimal
  split_ifs with hzero
  · exact hwidth
  · rw [List.length_map, List.length_reverse]
    exact (Nat.digits_length_le_iff (by norm_num) n).mpr hn

/-- Reading what was printed gives the number back. -/
theorem decimalValue_decimal (n : ℕ) : decimalValue (decimal n) = n := by
  unfold decimal
  split_ifs with hzero
  · rw [hzero]
    rfl
  · have hfold (digits : List ℕ) (hdigits : ∀ digit ∈ digits, digit < 10) :
        decimalValue (digits.reverse.map fun digit ↦ UInt8.ofNat (48 + digit)) =
          Nat.ofDigits 10 digits := by
      induction digits with
      | nil => rfl
      | cons digit rest ih =>
        have hrest := ih fun other hother ↦ hdigits other (by simp [hother])
        have hdigit := toNat_ofNat_digit (hdigits digit (by simp))
        rw [List.reverse_cons, List.map_append, decimalValue, List.foldl_append]
        rw [decimalValue] at hrest
        rw [hrest, Nat.ofDigits_cons]
        simp only [List.map_cons, List.map_nil, List.foldl_cons, List.foldl_nil, hdigit]
        omega
    rw [hfold _ fun digit hdigit ↦ Nat.digits_lt_base (by norm_num) hdigit, Nat.ofDigits_digits]

/-- The number grows by one digit at its end. -/
theorem decimalValue_concat (digits : Bytes) (digit : UInt8) :
    decimalValue (digits ++ [digit]) = decimalValue digits * 10 + (digit.toNat - 48) := by
  rw [decimalValue, List.foldl_append]
  rfl

/-- What `%05lu` and its like print: the digits with zeros in front, up to a given width. -/
def zeroPadded (width n : ℕ) : Bytes :=
  List.replicate (width - (decimal n).length) 48 ++ decimal n

/-- Zeros in front do not change the number. -/
theorem decimalValue_zeroPadded (width n : ℕ) : decimalValue (zeroPadded width n) = n := by
  have hzeros (count : ℕ) (digits : Bytes) :
      decimalValue (List.replicate count 48 ++ digits) = decimalValue digits := by
    induction count with
    | zero => rfl
    | succ count ih =>
      rw [List.replicate_succ, List.cons_append, decimalValue, List.foldl_cons]
      exact ih
  rw [zeroPadded, hzeros, decimalValue_decimal]

theorem zeroPadded_injective (width : ℕ) : Function.Injective (zeroPadded width) := by
  intro first second heq
  rw [← decimalValue_zeroPadded width first, heq, decimalValue_zeroPadded]

/-- A text of digits, with leading zeros or without, that reads as a number. -/
structure Spells (text : Bytes) (n : ℕ) : Prop where
  ne_nil : text ≠ []
  all_digits : ∀ byte ∈ text, isDigit byte = true
  value_eq : decimalValue text = n

theorem spells_decimal (n : ℕ) : Spells (decimal n) n :=
  ⟨decimal_ne_nil n, fun _ ↦ isDigit_of_mem_decimal, decimalValue_decimal n⟩

/-- The blanks of `isspace`. -/
def isBlank (byte : UInt8) : Bool := byte = 32 || 9 ≤ byte && byte ≤ 13

/-- `atoi`: blanks, a sign, digits. Numbers beyond the range of `int` are not wrapped. -/
def atoi (text : Bytes) : ℤ :=
  match text.dropWhile isBlank with
  | 45 :: digits => -(decimalValue (digits.takeWhile isDigit) : ℤ)
  | 43 :: digits => decimalValue (digits.takeWhile isDigit)
  | digits => decimalValue (digits.takeWhile isDigit)

/-- `atoi` reads a number up to what follows its digits. -/
theorem atoi_of_spells {digits behind : Bytes} {n : ℕ} (hspells : Spells digits n)
    (hbehind : ∀ byte ∈ behind.head?, isDigit byte = false) : atoi (digits ++ behind) = n := by
  obtain ⟨hne, hdigits, hvalue⟩ := hspells
  obtain ⟨first, rest, rfl⟩ := List.exists_cons_of_ne_nil hne
  have hfirst : isDigit first = true := hdigits first (List.mem_cons_self ..)
  have hread : (first :: rest ++ behind).takeWhile isDigit = first :: rest := by
    rw [List.takeWhile_append_of_pos hdigits]
    cases behind with
    | nil => rw [List.takeWhile_nil, List.append_nil]
    | cons byte behind =>
      rw [List.takeWhile_cons_of_neg (by simp [hbehind byte (by simp)]), List.append_nil]
  have hblank : isBlank first = false ∧ first ≠ 45 ∧ first ≠ 43 := by
    refine ⟨?_, ?_, ?_⟩ <;> grind [isDigit, isBlank]
  have hdrop : (first :: rest ++ behind).dropWhile isBlank = first :: (rest ++ behind) := by
    rw [List.cons_append, List.dropWhile_cons_of_neg (by simp [hblank.1])]
  rw [atoi, hdrop]
  split
  · exact absurd (List.cons.inj ‹_›).1 hblank.2.1
  · exact absurd (List.cons.inj ‹_›).1 hblank.2.2
  · rw [← List.cons_append, hread, hvalue]

/-! ### Integers in memory -/

/-- The bytes of an integer of a given width, least significant first. -/
def littleEndian : ℕ → ℕ → Bytes
  | 0, _ => []
  | width + 1, n => UInt8.ofNat n :: littleEndian width (n / 256)

/-- The integer whose bytes these are, least significant first. -/
def ofLittleEndian : Bytes → ℕ
  | [] => 0
  | byte :: rest => byte.toNat + 256 * ofLittleEndian rest

@[simp] theorem length_littleEndian (width n : ℕ) : (littleEndian width n).length = width := by
  induction width generalizing n with
  | zero => rfl
  | succ width ih => rw [littleEndian, List.length_cons, ih]

theorem ofLittleEndian_lt (bytes : Bytes) : ofLittleEndian bytes < 256 ^ bytes.length := by
  induction bytes with
  | nil => simp [ofLittleEndian]
  | cons byte rest ih =>
    have hbyte : byte.toNat < 256 := byte.toNat_lt
    rw [ofLittleEndian, List.length_cons, pow_succ]
    omega

theorem ofLittleEndian_littleEndian {width n : ℕ} (hn : n < 256 ^ width) :
    ofLittleEndian (littleEndian width n) = n := by
  induction width generalizing n with
  | zero =>
    rw [pow_zero, Nat.lt_one_iff] at hn
    rw [hn]
    rfl
  | succ width ih =>
    have hrest : n / 256 < 256 ^ width := by
      rw [pow_succ] at hn
      omega
    rw [littleEndian, ofLittleEndian, ih hrest, UInt8.toNat_ofNat']
    omega

theorem littleEndian_ofLittleEndian (bytes : Bytes) :
    littleEndian bytes.length (ofLittleEndian bytes) = bytes := by
  induction bytes with
  | nil => rfl
  | cons byte rest ih =>
    have hbyte : byte.toNat < 256 := byte.toNat_lt
    have hhead : UInt8.ofNat (byte.toNat + 256 * ofLittleEndian rest) = byte := by
      apply UInt8.toNat_inj.mp
      rw [UInt8.toNat_ofNat']
      omega
    have htail : (byte.toNat + 256 * ofLittleEndian rest) / 256 = ofLittleEndian rest := by omega
    rw [ofLittleEndian, List.length_cons, littleEndian, hhead, htail, ih]

end LibreSwitch.Library
