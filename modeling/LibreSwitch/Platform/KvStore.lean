import Mathlib.Logic.Function.Basic
import LibreSwitch.Library.ByteString
import LibreSwitch.Library.Interaction

/-!
# The key-value store

The seam `KvStore` of `platform/kv_store.h`, and the store the FlashDB binding gives: a map from
keys to byte strings that reads at most as many bytes as the caller's buffer holds and reports how
many it read.

`KvCall` is the seam as the calls a program makes. `KvMap.Answers` is the store under such calls,
any write of which may fail: a write or an erase that fails leaves the old value. `Faithful` and
`afterAll` are the same for the calls of a whole run.
-/

set_option autoImplicit false
set_option relaxedAutoImplicit false

namespace LibreSwitch.Platform

open LibreSwitch.Library

/-- The seam `KvStore`. A read returns the size reported and the bytes put into the buffer. -/
class KvStore (κ : Type) where
  setBlob : κ → Bytes → Bytes → Bool × κ
  getBlob : κ → Bytes → ℕ → ℕ × Bytes
  erase : κ → Bytes → Bool × κ

/-- A store whose writes succeed. -/
structure KvMap where
  blobs : Bytes → Option Bytes

instance : KvStore KvMap where
  setBlob kv key data := (true, ⟨Function.update kv.blobs key (some data)⟩)
  getBlob kv key bufLen :=
    ((((kv.blobs key).getD []).take bufLen).length, ((kv.blobs key).getD []).take bufLen)
  erase kv key := (true, ⟨Function.update kv.blobs key none⟩)

namespace KvMap

theorem getBlob_eq (kv : KvMap) (key : Bytes) (bufLen : ℕ) :
    KvStore.getBlob kv key bufLen =
      ((((kv.blobs key).getD []).take bufLen).length, ((kv.blobs key).getD []).take bufLen) := rfl

/-- A blob that fits the buffer is read back whole. -/
theorem getBlob_setBlob (kv : KvMap) (key : Bytes) {data : Bytes} {bufLen : ℕ}
    (hfits : data.length ≤ bufLen) :
    KvStore.getBlob (KvStore.setBlob kv key data).2 key bufLen = (data.length, data) := by
  simp [KvStore.setBlob, getBlob_eq, List.take_of_length_le hfits]

end KvMap

/-- The calls on a `KvStore`. -/
inductive KvCall
  | setBlob (key data : Bytes)
  | getBlob (key : Bytes) (bufLen : ℕ)
  | erase (key : Bytes)
  deriving DecidableEq

/-- What they answer. -/
abbrev KvAns : KvCall → Type
  | .setBlob _ _ => Bool
  | .getBlob _ _ => ℕ × Bytes
  | .erase _ => Bool

/-- A call on the store with its answer. -/
abbrev KvEvent := Prog.Event KvCall KvAns

/-- The key, the data and the result of an event that is a write. -/
def writeOf : KvEvent → Option ((Bytes × Bytes) × Bool)
  | ⟨.setBlob key data, stored⟩ => some ((key, data), stored)
  | _ => none

namespace KvMap

/-- The store after an answered call: a write or an erase has its effect if it succeeded. -/
def after (kv : KvMap) : (request : KvCall) → KvAns request → KvMap
  | .setBlob key data, stored => if stored then (KvStore.setBlob kv key data).2 else kv
  | .getBlob _ _, _ => kv
  | .erase key, erased => if erased then (KvStore.erase kv key).2 else kv

/-- The answers of the store: reads are faithful, writes and erases may fail. -/
def Allows (kv : KvMap) : (request : KvCall) → KvAns request → Prop
  | .getBlob key bufLen, read => read = KvStore.getBlob kv key bufLen
  | _, _ => True

/-- A call on the store, its answer and the store it leaves. -/
def Answers (kv : KvMap) (request : KvCall) (reply : KvAns request) (kv' : KvMap) : Prop :=
  kv.Allows request reply ∧ kv' = kv.after request reply

/-- The store whose writes succeed, under a call. -/
def respond (kv : KvMap) : (request : KvCall) → KvAns request × KvMap
  | .setBlob key data => KvStore.setBlob kv key data
  | .getBlob key bufLen => (KvStore.getBlob kv key bufLen, kv)
  | .erase key => KvStore.erase kv key

/-- The store whose writes succeed answers as a store can. -/
theorem answers_respond (kv : KvMap) (request : KvCall) :
    kv.Answers request (kv.respond request).1 (kv.respond request).2 := by
  cases request with
  | setBlob key data => exact ⟨trivial, rfl⟩
  | getBlob key bufLen => exact ⟨rfl, rfl⟩
  | erase key => exact ⟨trivial, rfl⟩

@[simp] theorem after_getBlob (kv : KvMap) (key : Bytes) (bufLen : ℕ) (read : ℕ × Bytes) :
    kv.after (.getBlob key bufLen) read = kv := rfl

@[simp] theorem after_setBlob_false (kv : KvMap) (key data : Bytes) :
    kv.after (.setBlob key data) false = kv := rfl

@[simp] theorem blobs_after_setBlob (kv : KvMap) (key data : Bytes) :
    (kv.after (.setBlob key data) true).blobs = Function.update kv.blobs key (some data) := rfl

@[simp] theorem after_erase_false (kv : KvMap) (key : Bytes) :
    kv.after (.erase key) false = kv := rfl

@[simp] theorem blobs_after_erase (kv : KvMap) (key : Bytes) :
    (kv.after (.erase key) true).blobs = Function.update kv.blobs key none := rfl

instance (kv : KvMap) (request : KvCall) (reply : KvAns request) :
    Decidable (kv.Allows request reply) :=
  match request with
  | .setBlob _ _ => isTrue trivial
  | .getBlob _ _ => inferInstanceAs (Decidable (_ = _))
  | .erase _ => isTrue trivial

/-- A successful write or erase of a key. -/
def Touches (key : Bytes) : KvEvent → Prop
  | ⟨.setBlob written _, stored⟩ => written = key ∧ stored = true
  | ⟨.getBlob _ _, _⟩ => False
  | ⟨.erase erased, done⟩ => erased = key ∧ done = true

theorem blobs_after_setBlob_of_ne {written key : Bytes} (hkey : key ≠ written) (kv : KvMap)
    (data : Bytes) (stored : Bool) :
    (kv.after (.setBlob written data) stored).blobs key = kv.blobs key := by
  cases stored with
  | false => rfl
  | true => rw [blobs_after_setBlob, Function.update_of_ne hkey]

theorem blobs_after_erase_of_ne {erased key : Bytes} (hkey : key ≠ erased) (kv : KvMap)
    (done : Bool) : (kv.after (.erase erased) done).blobs key = kv.blobs key := by
  cases done with
  | false => rfl
  | true => rw [blobs_after_erase, Function.update_of_ne hkey]

/-- A call that does not write or erase a key leaves its value. -/
theorem blobs_after_of_not_touches {key : Bytes} {event : KvEvent} (htouches : ¬ Touches key event)
    (kv : KvMap) : (kv.after event.request event.answer).blobs key = kv.blobs key := by
  obtain ⟨request, answer⟩ := event
  cases request with
  | getBlob read bufLen => rfl
  | setBlob written data =>
    by_cases hkey : key = written
    · have hfailed : answer = false := by
        by_contra hstored
        exact htouches ⟨hkey.symm, Bool.eq_true_of_not_eq_false hstored⟩
      rw [hfailed]
      rfl
    · exact blobs_after_setBlob_of_ne hkey kv data answer
  | erase erased =>
    by_cases hkey : key = erased
    · have hfailed : answer = false := by
        by_contra hdone
        exact htouches ⟨hkey.symm, Bool.eq_true_of_not_eq_false hdone⟩
      rw [hfailed]
      rfl
    · exact blobs_after_erase_of_ne hkey kv answer

/-! ### The store under the calls of a run -/

/-- The store after the calls of a run. -/
def afterAll (kv : KvMap) (events : List KvEvent) : KvMap :=
  events.foldl (fun kv event ↦ kv.after event.request event.answer) kv

/-- The store gives the answers of the run. -/
def Faithful : KvMap → List KvEvent → Prop
  | _, [] => True
  | kv, event :: events =>
    kv.Allows event.request event.answer ∧ (kv.after event.request event.answer).Faithful events

@[simp] theorem afterAll_nil (kv : KvMap) : kv.afterAll [] = kv := rfl

@[simp] theorem afterAll_cons (kv : KvMap) (event : KvEvent) (events : List KvEvent) :
    kv.afterAll (event :: events) = (kv.after event.request event.answer).afterAll events := rfl

@[simp] theorem afterAll_append (kv : KvMap) (first second : List KvEvent) :
    kv.afterAll (first ++ second) = (kv.afterAll first).afterAll second := List.foldl_append

@[simp] theorem faithful_nil (kv : KvMap) : kv.Faithful [] := trivial

@[simp] theorem faithful_cons {kv : KvMap} {event : KvEvent} {events : List KvEvent} :
    kv.Faithful (event :: events) ↔ kv.Allows event.request event.answer ∧
      (kv.after event.request event.answer).Faithful events := Iff.rfl

theorem faithful_append {kv : KvMap} {first second : List KvEvent} :
    kv.Faithful (first ++ second) ↔ kv.Faithful first ∧ (kv.afterAll first).Faithful second := by
  induction first generalizing kv with
  | nil => simp
  | cons event first ih => rw [List.cons_append, faithful_cons, ih, faithful_cons, and_assoc]; rfl

instance decidableFaithful : (kv : KvMap) → (events : List KvEvent) →
    Decidable (kv.Faithful events)
  | _, [] => isTrue trivial
  | kv, event :: events =>
    have := decidableFaithful (kv.after event.request event.answer) events
    inferInstanceAs (Decidable (_ ∧ _))

/-- A key that no call writes or erases keeps its value. -/
theorem blobs_afterAll {key : Bytes} {events : List KvEvent}
    (hevents : ∀ event ∈ events, ¬ Touches key event) (kv : KvMap) :
    (kv.afterAll events).blobs key = kv.blobs key := by
  induction events generalizing kv with
  | nil => rfl
  | cons event events ih =>
    rw [afterAll_cons, ih fun other hother ↦ hevents other (List.mem_cons_of_mem _ hother)]
    exact blobs_after_of_not_touches (hevents event List.mem_cons_self) kv

end KvMap

end LibreSwitch.Platform
