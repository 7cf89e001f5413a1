import Mathlib.Data.List.GetD
import LibreSwitch.Net.ProvForm

/-!
# Decoding any form encoding into a buffer

`ProvForm.urlDecode` gives the text that the portal reads out of an encoded field. Here the same
function is followed store by store, with its index into the input, its index into the buffer and
its look ahead for an escape (`urlDecodeInto`). `urlDecodeInto_eq` says that it stores the decoded
text from index 0 on, one byte after the other, and the terminator behind it.

A text has many encodings: every byte may be written as itself, as an escape with digits of either
case, or, if it is a space, as `+`, and each byte on its own (`Encodes`). All of them decode to the
text (`decodeLoop_encoding`), cut off where the room in the buffer ends.
-/

set_option autoImplicit false
set_option relaxedAutoImplicit false

namespace LibreSwitch.Net

open LibreSwitch.Library

namespace ProvForm

/-! ### The stores -/

/-- A store `out[index] = byte`. -/
structure Store where
  index : ℕ
  byte : UInt8
  deriving DecidableEq, Repr

/-- The stores that put a text into a buffer, from an index on. -/
def stores : ℕ → Bytes → List Store
  | _, [] => []
  | o, byte :: rest => ⟨o, byte⟩ :: stores (o + 1) rest

/-- A buffer and what lies around it, after some stores. -/
def stored (out : ℕ → UInt8) (done : List Store) : ℕ → UInt8 :=
  done.foldl (fun memory store ↦ Function.update memory store.index store.byte) out

theorem stores_append (o : ℕ) (first second : Bytes) :
    stores o (first ++ second) = stores o first ++ stores (o + first.length) second := by
  induction first generalizing o with
  | nil => rfl
  | cons byte rest ih =>
    rw [List.cons_append, stores, ih, List.length_cons, stores, List.cons_append,
      Nat.add_right_comm, Nat.add_assoc]

/-- The stores of a text stay behind their first index and in front of its end. -/
theorem index_of_mem_stores {store : Store} {o : ℕ} {text : Bytes}
    (hstore : store ∈ stores o text) : o ≤ store.index ∧ store.index < o + text.length := by
  induction text generalizing o with
  | nil => exact absurd hstore List.not_mem_nil
  | cons byte rest ih =>
    rw [List.length_cons]
    rcases List.mem_cons.mp hstore with rfl | hlater
    · exact ⟨le_rfl, by simp⟩
    · have hbounds := ih hlater
      omega

/-- A cell that no store of a text concerns keeps its byte. -/
theorem stored_stores_of_lt (out : ℕ → UInt8) {index o : ℕ} (hbefore : index < o) (text : Bytes) :
    stored out (stores o text) index = out index := by
  induction text generalizing o out with
  | nil => rfl
  | cons byte rest ih =>
    have hrest := ih (Function.update out o byte) (Nat.lt_succ_of_lt hbefore)
    exact hrest.trans (Function.update_of_ne hbefore.ne byte out)

/-- The stores of a text put it into the buffer and leave the rest of it. -/
theorem stored_stores (out : ℕ → UInt8) (o offset : ℕ) (text : Bytes) :
    stored out (stores o text) (o + offset) = text.getD offset (out (o + offset)) := by
  induction text generalizing o offset out with
  | nil => rfl
  | cons byte rest ih =>
    cases offset with
    | zero =>
      exact (stored_stores_of_lt _ (Nat.lt_succ_self o) rest).trans
        (Function.update_self o byte out)
    | succ offset =>
      have hrest := ih (Function.update out o byte) (o + 1) offset
      rw [Nat.add_right_comm, Function.update_of_ne (by omega)] at hrest
      exact hrest

/-! ### The loop on its buffers -/

/-- The loop of `urlDecode`, with its index `i` into the input and its index `o` into the buffer.
Every round passes over a byte of the input at least. -/
def urlDecodeIntoLoop (text : Bytes) (outCap : ℕ) : ℕ → ℕ → ℕ → ℕ × List Store
  | 0, _, o => (o, [])
  | rounds + 1, i, o =>
    if i < text.length ∧ o + 1 < outCap then
      let c := text.getD i 0
      if c = 43 then
        (urlDecodeIntoLoop text outCap rounds (i + 1) (o + 1)).map id (⟨o, 32⟩ :: ·)
      else if c = 37 ∧ i + 2 < text.length ∧ isHex (text.getD (i + 1) 0) = true ∧
          isHex (text.getD (i + 2) 0) = true then
        let byte := hexVal (text.getD (i + 1) 0) <<< 4 ||| hexVal (text.getD (i + 2) 0)
        (urlDecodeIntoLoop text outCap rounds (i + 3) (o + 1)).map id (⟨o, byte⟩ :: ·)
      else (urlDecodeIntoLoop text outCap rounds (i + 1) (o + 1)).map id (⟨o, c⟩ :: ·)
    else (o, [])

/-- `urlDecode`: the length it returns and the stores it makes, in their order. -/
def urlDecodeInto (text : Bytes) (outCap : ℕ) : ℕ × List Store :=
  let (o, done) := urlDecodeIntoLoop text outCap text.length 0 0
  (o, done ++ [⟨o, 0⟩])

/-- The look ahead from a place of the input is the one of the rest from there on. -/
theorem escape_drop (text : Bytes) (c : UInt8) (i : ℕ) :
    escape c (text.drop (i + 1)) =
      if c = 37 ∧ i + 2 < text.length ∧ isHex (text.getD (i + 1) 0) = true ∧
          isHex (text.getD (i + 2) 0) = true then
        some (hexVal (text.getD (i + 1) 0) <<< 4 ||| hexVal (text.getD (i + 2) 0),
          text.drop (i + 3))
      else none := by
  by_cases hlook : i + 2 < text.length
  · have hnext : text.drop (i + 1) = text[i + 1] :: text[i + 2] :: text.drop (i + 3) := by
      rw [List.drop_eq_getElem_cons (by omega), List.drop_eq_getElem_cons hlook]
    rw [hnext, escape, List.getD_eq_getElem _ _ (by omega), List.getD_eq_getElem _ _ hlook]
    simp only [hlook, true_and]
  · have hshort : (text.drop (i + 1)).length < 2 := by
      rw [List.length_drop]
      omega
    rw [if_neg fun hescape ↦ hlook hescape.2.1]
    match text.drop (i + 1), hshort with
    | [], _ => rfl
    | [_], _ => rfl

/-- The loop stores what the rest of the input decodes to, as far as there is room. -/
theorem urlDecodeIntoLoop_eq (text : Bytes) (outCap : ℕ) {rounds i : ℕ}
    (hrounds : text.length ≤ i + rounds) (o : ℕ) :
    urlDecodeIntoLoop text outCap rounds i o =
      (o + (decodeLoop (outCap - (o + 1)) (text.drop i)).length,
        stores o (decodeLoop (outCap - (o + 1)) (text.drop i))) := by
  induction rounds generalizing i o with
  | zero =>
    have hend : decodeLoop (outCap - (o + 1)) (text.drop i) = [] := by
      rw [List.drop_of_length_le (Nat.add_zero i ▸ hrounds)]
      cases outCap - (o + 1) <;> rfl
    rw [hend]
    rfl
  | succ rounds ih =>
    rw [urlDecodeIntoLoop]
    split_ifs with hround
    · obtain ⟨hi, ho⟩ := hround
      have hroom : outCap - (o + 1) = outCap - (o + 1 + 1) + 1 := by omega
      have hnext : text.drop i = text.getD i 0 :: text.drop (i + 1) := by
        rw [List.drop_eq_getElem_cons hi, List.getD_eq_getElem text 0 hi]
      have hcount (decoded : ℕ) : o + 1 + decoded = o + (decoded + 1) := by omega
      rw [hroom, hnext, decodeLoop, escape_drop]
      dsimp only
      split_ifs with hplus hescape
      · rw [ih (by omega), Prod.map_apply, hcount]
        rfl
      · rw [ih (by omega), Prod.map_apply, hcount]
        rfl
      · rw [ih (by omega), Prod.map_apply, hcount]
        rfl
    · have hend : decodeLoop (outCap - (o + 1)) (text.drop i) = [] := by
        rcases not_and_or.mp hround with hi | ho
        · rw [List.drop_of_length_le (by omega)]
          cases outCap - (o + 1) <;> rfl
        · rw [Nat.sub_eq_zero_of_le (by omega), decodeLoop]
      rw [hend]
      rfl

/-- `urlDecode` stores the decoded text and its terminator, and returns the length of the text. -/
theorem urlDecodeInto_eq (text : Bytes) (outCap : ℕ) :
    urlDecodeInto text outCap =
      ((urlDecode text outCap).length, stores 0 (urlDecode text outCap ++ [0])) := by
  rw [urlDecodeInto, urlDecodeIntoLoop_eq text outCap (by omega) 0, List.drop_zero, stores_append]
  simp only [Nat.zero_add]
  rfl

/-! ### The encodings of a text -/

/-- A hexadecimal digit, of either case, and its value. -/
def HexDigit (digit : UInt8) (value : ℕ) : Prop :=
  (ascii "0123456789abcdef")[value]? = some digit ∨
    (ascii "0123456789ABCDEF")[value]? = some digit

/-- The form encodings of a text. -/
inductive Encodes : Bytes → Bytes → Prop
  | nil : Encodes [] []
  | raw {byte : UInt8} {encoded text : Bytes} (hpercent : byte ≠ 37) (hplus : byte ≠ 43)
      (hrest : Encodes encoded text) : Encodes (byte :: encoded) (byte :: text)
  | plus {encoded text : Bytes} (hrest : Encodes encoded text) :
      Encodes (43 :: encoded) (32 :: text)
  | escaped {high low byte : UInt8} {encoded text : Bytes} (hhigh : HexDigit high (byte.toNat / 16))
      (hlow : HexDigit low (byte.toNat % 16)) (hrest : Encodes encoded text) :
      Encodes (37 :: high :: low :: encoded) (byte :: text)

/-- The digits are read as their values. -/
theorem hexVal_of_hexDigit {digit : UInt8} {value : ℕ} (hdigit : HexDigit digit value) :
    isHex digit = true ∧ hexVal digit = UInt8.ofNat value := by
  have hvalue : value < 16 := by
    rcases hdigit with hlower | hupper
    · exact (List.getElem?_eq_some_iff.mp hlower).1
    · exact (List.getElem?_eq_some_iff.mp hupper).1
  have hread : ∀ value < 16, ∀ digits ∈ [ascii "0123456789abcdef", ascii "0123456789ABCDEF"],
      ∀ digit ∈ digits[value]?, isHex digit = true ∧ hexVal digit = UInt8.ofNat value := by
    decide +kernel
  rcases hdigit with hlower | hupper
  · exact hread value hvalue _ (by simp) digit hlower
  · exact hread value hvalue _ (by simp) digit hupper

/-- A byte is put together again from its two halves. -/
theorem halves_or (byte : UInt8) :
    UInt8.ofNat (byte.toNat / 16) <<< 4 ||| UInt8.ofNat (byte.toNat % 16) = byte := by
  have hall : ∀ n < 256, UInt8.ofNat (n / 16) <<< 4 ||| UInt8.ofNat (n % 16) = UInt8.ofNat n := by
    decide +kernel
  exact (hall byte.toNat byte.toNat_lt).trans byte.ofNat_toNat

/-- Every encoding of a text decodes to it, as far as there is room. -/
theorem decodeLoop_encoding {encoded text : Bytes} (hencodes : Encodes encoded text) (room : ℕ) :
    decodeLoop room encoded = text.take room := by
  induction hencodes generalizing room with
  | nil => cases room <;> rfl
  | @raw byte encoded text hpercent hplus _ ih =>
    cases room with
    | zero => rfl
    | succ room =>
      have hescape : escape byte encoded = none := by
        rw [Option.eq_none_iff_forall_ne_some]
        exact fun read hread ↦ hpercent (escape_eq_some hread).1
      rw [decodeLoop, if_neg hplus, hescape, List.take_succ_cons, ih]
  | plus _ ih =>
    cases room with
    | zero => rfl
    | succ room => rw [decodeLoop, if_pos rfl, List.take_succ_cons, ih]
  | @escaped high low byte encoded text hhigh hlow _ ih =>
    cases room with
    | zero => rfl
    | succ room =>
      obtain ⟨hisHigh, hvalHigh⟩ := hexVal_of_hexDigit hhigh
      obtain ⟨hisLow, hvalLow⟩ := hexVal_of_hexDigit hlow
      have hescape : escape 37 (high :: low :: encoded) = some (byte, encoded) := by
        rw [escape, if_pos ⟨rfl, hisHigh, hisLow⟩, hvalHigh, hvalLow, halves_or]
      rw [decodeLoop, if_neg (by decide), hescape, List.take_succ_cons]
      exact congrArg (byte :: ·) (ih room)

/-- Every encoding of a text is decoded to it within the buffer: the stores are those of the text,
cut off in front of the last place, and of the terminator, so nothing at or behind the capacity is
touched, and the length of what was kept of the text is returned. -/
theorem urlDecodeInto_encoding {encoded text : Bytes} (hencodes : Encodes encoded text)
    {outCap : ℕ} (hcap : 1 ≤ outCap) :
    let result := urlDecodeInto encoded outCap
    result.1 = min text.length (outCap - 1) ∧
      result.2 = stores 0 (text.take result.1 ++ [0]) ∧
      (∀ store ∈ result.2, store.index < outCap) ∧
      ∀ out index,
        stored out result.2 index = (text.take result.1 ++ [0]).getD index (out index) := by
  have hlength : (text.take (outCap - 1)).length = min text.length (outCap - 1) := by
    rw [List.length_take, Nat.min_comm]
  have htake : text.take (min text.length (outCap - 1)) = text.take (outCap - 1) := by
    rw [Nat.min_comm, ← List.take_eq_take_min]
  rw [urlDecodeInto_eq, urlDecode, decodeLoop_encoding hencodes]
  dsimp only
  rw [hlength, htake]
  refine ⟨rfl, rfl, fun store hstore ↦ ?_, fun out index ↦ ?_⟩
  · have hbound := (index_of_mem_stores hstore).2
    rw [List.length_append, hlength, List.length_singleton] at hbound
    omega
  · have hindex := stored_stores out 0 index (text.take (outCap - 1) ++ [0])
    rwa [Nat.zero_add] at hindex

/-- `a b&` with a space as `+` and an escape at the very end, into four bytes. -/
theorem urlDecodeInto_encoding_escape :
    Encodes (ascii "a+b%26") (ascii "a b&") ∧
      urlDecodeInto (ascii "a+b%26") 4 = (3, [⟨0, 97⟩, ⟨1, 32⟩, ⟨2, 98⟩, ⟨3, 0⟩]) ∧
      (urlDecodeInto (ascii "a+b%26") 4).1 = min (ascii "a b&").length (4 - 1) := by
  have hencodes : Encodes (ascii "a+b%26") (ascii "a b&") :=
    .raw (by decide) (by decide) (.plus (.raw (by decide) (by decide)
      (.escaped (.inl (by decide)) (.inl (by decide)) .nil)))
  exact ⟨hencodes, by decide, (urlDecodeInto_encoding hencodes (by decide : 1 ≤ 4)).1⟩

end ProvForm

end LibreSwitch.Net
