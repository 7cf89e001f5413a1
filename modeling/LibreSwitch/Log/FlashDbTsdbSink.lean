import LibreSwitch.Library.Ring
import LibreSwitch.Platform.KvStore

/-!
# The ring of the log

`FlashDbTsdbSink` of `log/log_impl.h`: the log is a ring of records in a key-value store of its own,
with a key for each slot and one more, `loghead`, for the slot that comes next. An append writes the
record and then the head, and `begin` reads the head back after a reboot.

`RingWorld` is the store and the records whose append got to the write of the head. Its ghost `torn`
is set while a record has been written and the head has not moved over it, through any number of
power cycles. At every moment of every life the records completed last stand behind the head that
the next `begin` reads, all of a full turn of them, and all but the oldest of it while the ring is
torn (`recent_kept`).
-/

set_option autoImplicit false
set_option relaxedAutoImplicit false

namespace LibreSwitch.Log

open LibreSwitch.Library LibreSwitch.Library.Ring LibreSwitch.Platform

/-- The calls of the sink on FlashDB. -/
inductive SinkCall
  | kvdbInit (name partitionName : Bytes)
  | kv (request : KvCall)

/-- What they answer: whether the database came up, and what the store answers. -/
abbrev SinkAns : SinkCall → Type
  | .kvdbInit _ _ => Bool
  | .kv request => KvAns request

def kRingSlots : UInt32 := 2048

/-- `FlashDbTsdbSink`, apart from its database. -/
structure FlashDbTsdbSink where
  head : UInt32 := 0
  ready : Bool := false
  deriving DecidableEq, Repr

namespace FlashDbTsdbSink

open Prog (ask)

/-- The key of a slot. It is at most eleven bytes long and fits the buffer of twelve. -/
def slotKey (slot : ℕ) : Bytes := ascii "e" ++ zeroPadded 5 slot

def loadHead : Prog SinkCall SinkAns UInt32 := do
  let read ← ask (SinkCall.kv (.getBlob (ascii "loghead") 4))
  return if read.1 = 4 then UInt32.ofNat (ofLittleEndian read.2) % kRingSlots else 0

def begin (sink : FlashDbTsdbSink) (partitionName : Bytes) :
    Prog SinkCall SinkAns (FlashDbTsdbSink × Bool) := do
  let started ← ask (SinkCall.kvdbInit (ascii "log") partitionName)
  if started then
    let head ← loadHead
    return ({ head := head, ready := true }, true)
  else return ({ sink with ready := false }, false)

def saveHead (sink : FlashDbTsdbSink) : Prog SinkCall SinkAns Unit := do
  let _ ← ask (SinkCall.kv (.setBlob (ascii "loghead") (littleEndian 4 sink.head.toNat)))
  return

/-- The sort key is not used: the slots keep the order. -/
def append (sink : FlashDbTsdbSink) (record : Bytes) (_sortKey : UInt32) :
    Prog SinkCall SinkAns (FlashDbTsdbSink × Bool) := do
  if !sink.ready then return (sink, false)
  let stored ← ask (SinkCall.kv (.setBlob (slotKey sink.head.toNat) record))
  if !stored then return (sink, false)
  let sink := { sink with head := (sink.head + 1) % kRingSlots }
  sink.saveHead
  return (sink, true)

/-! ### Heads and slots -/

theorem toNat_kRingSlots : kRingSlots.toNat = 2048 := rfl

theorem slotKey_injective : Function.Injective slotKey := fun _ _ heq ↦
  zeroPadded_injective 5 (List.append_cancel_left heq)

theorem slotKey_ne_loghead (slot : ℕ) : slotKey slot ≠ ascii "loghead" := by
  intro heq
  have hfirst : (101 : UInt8) = 108 := (List.cons.inj heq).1
  exact absurd hfirst (by decide)

theorem toNat_advance {head : UInt32} (hhead : head.toNat < kRingSlots.toNat) :
    ((head + 1) % kRingSlots).toNat = (head.toNat + 1) % kRingSlots.toNat := by
  have hsum : (head + 1).toNat = head.toNat + 1 := by
    rw [UInt32.toNat_add, UInt32.toNat_one]
    rw [toNat_kRingSlots] at hhead
    omega
  rw [UInt32.toNat_mod, hsum]

/-! ### The head that is read back -/

/-- The answers of a store that comes up. -/
def comesUp (kv : KvMap) : (request : SinkCall) → SinkAns request × KvMap
  | .kvdbInit _ _ => (true, kv)
  | .kv request => kv.respond request

/-- The head that the next `begin` recovers. -/
def recoveredHead (kv : KvMap) : UInt32 :=
  ((({} : FlashDbTsdbSink).begin (ascii "userdata")).runOn comesUp kv).1.1.head

/-- The head in the image under `loghead`, as it is read. -/
def headOf (image : Bytes) : UInt32 :=
  if image.length = 4 then UInt32.ofNat (ofLittleEndian image) % kRingSlots else 0

theorem recoveredHead_eq (kv : KvMap) :
    recoveredHead kv = headOf (((kv.blobs (ascii "loghead")).getD []).take 4) := rfl

theorem recoveredHead_congr {kv kv' : KvMap}
    (hsame : kv'.blobs (ascii "loghead") = kv.blobs (ascii "loghead")) :
    recoveredHead kv' = recoveredHead kv := by
  rw [recoveredHead_eq, recoveredHead_eq, hsame]

theorem recoveredHead_lt (kv : KvMap) : (recoveredHead kv).toNat < kRingSlots.toNat := by
  rw [recoveredHead_eq, headOf]
  split_ifs with hwhole
  · rw [UInt32.toNat_mod]
    exact Nat.mod_lt _ (by decide)
  · decide

/-- A head that was saved is read back. -/
theorem recoveredHead_saved {kv : KvMap} {head : UInt32}
    (hsaved : kv.blobs (ascii "loghead") = some (littleEndian 4 head.toNat))
    (hhead : head.toNat < kRingSlots.toNat) : recoveredHead kv = head := by
  have hlength : (littleEndian 4 head.toNat).length = 4 := length_littleEndian 4 head.toNat
  rw [recoveredHead_eq, hsaved, Option.getD_some, List.take_of_length_le hlength.le, headOf,
    if_pos hlength, ofLittleEndian_littleEndian (by norm_num; exact head.toNat_lt),
    UInt32.ofNat_toNat]
  apply UInt32.toNat_inj.mp
  rw [UInt32.toNat_mod, Nat.mod_eq_of_lt hhead]

/-! ### The sink at work -/

/-- The operations on the sink. -/
inductive Operation
  | begin (partitionName : Bytes)
  | append (record : Bytes) (sortKey : UInt32)

/-- The sink as an object with state. -/
def component : Component SinkCall SinkAns FlashDbTsdbSink Operation where
  handle
    | sink, .begin partitionName => do
      let (sink, _) ← sink.begin partitionName
      return sink
    | sink, .append record sortKey => do
      let (sink, _) ← sink.append record sortKey
      return sink

/-- The store, the records whose append came to the write of the head, the last one first, the
record of the append that runs, and whether the record in the slot at the head was written there
while the head has not moved. -/
structure RingWorld where
  kv : KvMap
  completed : List Bytes := []
  pending : Bytes := []
  torn : Bool := false

/-- After a write of the sink. -/
def RingWorld.written (world : RingWorld) (key data : Bytes) : RingWorld :=
  if key = ascii "loghead" then
    { world with
      kv := world.kv.after (.setBlob key data) true
      completed := world.pending :: world.completed
      torn := false }
  else { world with kv := world.kv.after (.setBlob key data) true, torn := true }

/-- An answered call: the database comes up or not, reads are faithful and writes succeed. -/
def RingWorld.Answers (world : RingWorld) :
    (request : SinkCall) → SinkAns request → RingWorld → Prop
  | .kvdbInit _ _, _, world' => world' = world
  | .kv (.setBlob key data), stored, world' => stored = true ∧ world' = world.written key data
  | .kv (.getBlob key bufLen), read, world' =>
    read = KvStore.getBlob world.kv key bufLen ∧ world' = world
  | .kv (.erase key), erased, world' =>
    world' = { world with kv := world.kv.after (.erase key) erased }

/-- FlashDB around the sink. -/
def setting : Setting SinkCall SinkAns RingWorld where
  answers := RingWorld.Answers

/-- An operation starts. -/
def starts (world : RingWorld) : Operation → RingWorld → Prop
  | .begin _, world' => world' = world
  | .append record _, world' => world' = { world with pending := record }

/-- A power cycle, at any moment: the store is what remains, and the sink is constructed anew. -/
def boots (world : RingWorld) (sink : FlashDbTsdbSink) (world' : RingWorld) : Prop :=
  sink = {} ∧ world' = { world with pending := [] }

/-- The record in a slot. -/
def cells (kv : KvMap) (slot : ℕ) : Option Bytes := kv.blobs (slotKey slot)

/-- How far behind the head the records are kept. -/
def depth (torn : Bool) : ℕ := if torn then kRingSlots.toNat - 1 else kRingSlots.toNat

/-- The next `begin` recovers this head, and the records completed last stand behind it. -/
structure Stands (head : UInt32) (world : RingWorld) : Prop where
  head_eq : recoveredHead world.kv = head
  keeps : Keeps kRingSlots.toNat head.toNat (depth world.torn) (cells world.kv) world.completed

/-- The records completed last stand behind the head that the next `begin` recovers. -/
def Sound (world : RingWorld) : Prop := Stands (recoveredHead world.kv) world

/-- A sink that is ready has the head that the next `begin` would recover. -/
structure Resting (sink : FlashDbTsdbSink) (world : RingWorld) : Prop where
  sound : Sound world
  head_eq : sink.ready = true → recoveredHead world.kv = sink.head

/-- What holds at every call. -/
def guard (world : RingWorld) (_ : SinkCall) : Prop := Sound world

section Stands

variable {head : UInt32} {world : RingWorld}

theorem Stands.sound (hstands : Stands head world) : Sound world := by
  unfold Sound
  rw [hstands.head_eq]
  exact hstands

theorem Stands.head_lt (hstands : Stands head world) : head.toNat < kRingSlots.toNat := by
  rw [← hstands.head_eq]
  exact recoveredHead_lt world.kv

theorem Stands.short (hstands : Stands head world) :
    Keeps kRingSlots.toNat head.toNat (kRingSlots.toNat - 1) (cells world.kv) world.completed := by
  refine hstands.keeps.mono ?_
  unfold depth
  split_ifs
  · exact le_rfl
  · exact Nat.sub_le _ _

theorem Resting.stands {sink : FlashDbTsdbSink} (hresting : Resting sink world)
    (hready : sink.ready = true) : Stands sink.head world := by
  rw [← hresting.head_eq hready]
  exact hresting.sound

end Stands

/-! ### The two writes of an append -/

section Writes

variable (world : RingWorld)

theorem written_record (slot : ℕ) (record : Bytes) :
    world.written (slotKey slot) record =
      { world with kv := world.kv.after (.setBlob (slotKey slot) record) true, torn := true } :=
  if_neg (slotKey_ne_loghead slot)

theorem written_head (image : Bytes) :
    world.written (ascii "loghead") image =
      { world with
        kv := world.kv.after (.setBlob (ascii "loghead") image) true
        completed := world.pending :: world.completed
        torn := false } := if_pos rfl

theorem cells_after_record (kv : KvMap) (slot : ℕ) (record : Bytes) :
    cells (kv.after (.setBlob (slotKey slot) record) true) slot = some record := by
  rw [cells, KvMap.blobs_after_setBlob, Function.update_self]

theorem cells_after_record_of_ne (kv : KvMap) {slot other : ℕ} (hne : other ≠ slot)
    (record : Bytes) :
    cells (kv.after (.setBlob (slotKey slot) record) true) other = cells kv other :=
  KvMap.blobs_after_setBlob_of_ne (fun heq ↦ hne (slotKey_injective heq)) kv record true

theorem cells_after_head (kv : KvMap) (image : Bytes) (slot : ℕ) :
    cells (kv.after (.setBlob (ascii "loghead") image) true) slot = cells kv slot :=
  KvMap.blobs_after_setBlob_of_ne (slotKey_ne_loghead slot) kv image true

end Writes

/-- The write of a record tears the ring at the head and touches no other slot. -/
theorem Stands.record {head : UInt32} {world : RingWorld} (hstands : Stands head world)
    (record : Bytes) : Stands head (world.written (slotKey head.toNat) record) := by
  rw [written_record]
  refine ⟨?_, hstands.short.write hstands.head_lt fun slot _ hslot ↦ ?_⟩
  · have hsame := KvMap.blobs_after_setBlob_of_ne (slotKey_ne_loghead head.toNat).symm world.kv
      record true
    exact (recoveredHead_congr hsame).trans hstands.head_eq
  · exact cells_after_record_of_ne world.kv hslot record

/-- The write of the head completes the append. -/
theorem Stands.advance {head : UInt32} {world : RingWorld} (hstands : Stands head world)
    (hrecord : cells world.kv head.toNat = some world.pending) :
    Stands ((head + 1) % kRingSlots)
      (world.written (ascii "loghead") (littleEndian 4 ((head + 1) % kRingSlots).toNat)) := by
  have hadvance := toNat_advance hstands.head_lt
  have hlt : ((head + 1) % kRingSlots).toNat < kRingSlots.toNat := by
    rw [hadvance]
    exact Nat.mod_lt _ (by decide)
  rw [written_head]
  refine ⟨recoveredHead_saved ?_ hlt, ?_⟩
  · rw [KvMap.blobs_after_setBlob, Function.update_self]
  · have hfull := hstands.short.advance hstands.head_lt hrecord
    rw [← hadvance] at hfull
    exact hfull.congr hlt fun slot _ ↦ cells_after_head world.kv _ slot

theorem wp_append (sink : FlashDbTsdbSink) (record : Bytes) (sortKey : UInt32)
    {world : RingWorld} (hresting : Resting sink world) (hpending : world.pending = record) :
    setting.wp guard (sink.append record sortKey) (fun result ↦ Resting result.1) world := by
  unfold append
  cases hready : sink.ready with
  | false => exact Setting.quiet_alone.wp_ret_iff.mpr hresting
  | true =>
    have hstands := hresting.stands hready
    refine Setting.quiet_alone.wp_call_iff.mpr ⟨hresting.sound, ?_⟩
    rintro stored world' ⟨rfl, rfl⟩
    have htorn := hstands.record record
    refine Setting.quiet_alone.wp_call_iff.mpr ⟨htorn.sound, ?_⟩
    rintro saved world' ⟨rfl, rfl⟩
    have hdone := htorn.advance (by
      rw [written_record, hpending]
      exact cells_after_record world.kv _ record)
    exact Setting.quiet_alone.wp_ret_iff.mpr ⟨hdone.sound, fun _ ↦ hdone.head_eq⟩

theorem wp_begin (sink : FlashDbTsdbSink) (partitionName : Bytes) {world : RingWorld}
    (hsound : Sound world) :
    setting.wp guard (sink.begin partitionName) (fun result ↦ Resting result.1) world := by
  unfold begin
  refine Setting.quiet_alone.wp_call_iff.mpr ⟨hsound, ?_⟩
  rintro started world' rfl
  cases started with
  | false => exact Setting.quiet_alone.wp_ret_iff.mpr ⟨hsound, nofun⟩
  | true =>
    refine Setting.quiet_alone.wp_call_iff.mpr ⟨hsound, ?_⟩
    rintro read world' ⟨rfl, rfl⟩
    exact Setting.quiet_alone.wp_ret_iff.mpr ⟨hsound, fun _ ↦ rfl⟩

/-! ### All lives -/

theorem wp_handle (sink : FlashDbTsdbSink) (operation : Operation) (world world' : RingWorld)
    (hresting : Resting sink world) (hstart : starts world operation world') :
    setting.wp guard (component.handle sink operation) Resting world' := by
  cases operation with
  | begin partitionName =>
    obtain rfl := hstart
    apply Setting.wp_bind
    refine Setting.wp_mono ?_ (wp_begin sink partitionName hresting.sound)
    intro result world' hresting'
    exact Setting.quiet_alone.wp_ret_iff.mpr hresting'
  | append record sortKey =>
    obtain rfl := hstart
    have hresting' : Resting sink { world with pending := record } :=
      ⟨⟨rfl, hresting.sound.keeps⟩, hresting.head_eq⟩
    apply Setting.wp_bind
    refine Setting.wp_mono ?_ (wp_append sink record sortKey hresting' rfl)
    intro result world' hresting''
    exact Setting.quiet_alone.wp_ret_iff.mpr hresting''

theorem resting_of_boots (world : RingWorld) (sink : FlashDbTsdbSink) (world' : RingWorld)
    (hsound : Sound world) (hboots : boots world sink world') : Resting sink world' := by
  obtain ⟨rfl, rfl⟩ := hboots
  exact ⟨⟨rfl, hsound.keeps⟩, nofun⟩

/-- An append returns true exactly if it comes to the write of the head. -/
theorem taken_iff {sink sink' : FlashDbTsdbSink} {record : Bytes} {sortKey : UInt32}
    {trace : List (Prog.Event SinkCall SinkAns)} {taken : Bool}
    (hruns : (sink.append record sortKey).Runs trace (sink', taken)) :
    taken = true ↔
      ∃ image stored, ⟨.kv (.setBlob (ascii "loghead") image), stored⟩ ∈ trace := by
  unfold append at hruns
  cases hready : sink.ready with
  | false =>
    simp only [hready, Bool.not_false, ↓reduceIte, Prog.pure_eq, Prog.runs_ret,
      Prod.mk.injEq] at hruns
    obtain ⟨rfl, -, rfl⟩ := hruns
    simp
  | true =>
    simp only [hready, Bool.not_true, Bool.false_eq_true, ↓reduceIte, Prog.ask_bind,
      Prog.runs_call] at hruns
    obtain ⟨stored, rest, rfl, hrest⟩ := hruns
    cases stored with
    | false =>
      simp only [Bool.not_false, ↓reduceIte, Prog.pure_eq, Prog.runs_ret, Prod.mk.injEq] at hrest
      obtain ⟨rfl, -, rfl⟩ := hrest
      refine iff_of_false Bool.false_ne_true ?_
      rintro ⟨image, stored, hmem⟩
      have heq := congrArg Prog.Event.request (List.mem_singleton.mp hmem)
      exact slotKey_ne_loghead _ (KvCall.setBlob.inj (SinkCall.kv.inj heq)).1.symm
    | true =>
      simp only [Bool.not_true, Bool.false_eq_true, ↓reduceIte, saveHead, Prog.ask_bind,
        Prog.call_bind, Prog.pure_eq, Prog.ret_bind, Prog.runs_call, Prog.runs_ret,
        Prod.mk.injEq] at hrest
      obtain ⟨saved, last, rfl, rfl, -, rfl⟩ := hrest
      exact iff_of_true rfl ⟨_, saved, by simp⟩

/-- In every life, at every moment, the records completed last stand in order behind the head that
the next `begin` recovers, one less than a full turn of them; the one record of the full turn that
may be missing is the oldest, and only while an append is cut short or not yet done; and a record
counts as completed exactly if its append returns true. -/
theorem recent_kept {kv : KvMap}
    {phase : Component.Phase SinkCall SinkAns FlashDbTsdbSink Operation}
    {world : RingWorld}
    (hlives : component.Lives setting starts boots (.idle {}, { kv := kv }) (phase, world)) :
    (∀ place < min world.completed.length (kRingSlots.toNat - 1),
      world.kv.blobs (slotKey (slotBefore kRingSlots.toNat (recoveredHead world.kv).toNat place)) =
        world.completed[place]?) ∧
      (∀ place < min world.completed.length kRingSlots.toNat,
        world.kv.blobs
            (slotKey (slotBefore kRingSlots.toNat (recoveredHead world.kv).toNat place)) ≠
          world.completed[place]? →
        world.torn = true ∧ place = kRingSlots.toNat - 1) ∧
      ∀ (sink sink' : FlashDbTsdbSink) (record : Bytes) (sortKey : UInt32)
        (trace : List (Prog.Event SinkCall SinkAns)) (taken : Bool),
        (sink.append record sortKey).Runs trace (sink', taken) →
          (taken = true ↔
            ∃ image stored, ⟨.kv (.setBlob (ascii "loghead") image), stored⟩ ∈ trace) := by
  have hbefore : Component.Maintains setting guard Resting
      ((.idle {}, { kv := kv }) :
        Component.Phase SinkCall SinkAns FlashDbTsdbSink Operation × RingWorld) :=
    ⟨⟨rfl, fun _ _ _ hnone ↦ absurd hnone nofun⟩, nofun⟩
  obtain ⟨-, hsound⟩ := Component.life_rule
    (fun _ _ _ _ hinterfere ↦ absurd hinterfere (Setting.quiet_alone _ _)) wp_handle
    (fun _ _ hresting ↦ hresting.sound) (fun _ _ hguard ↦ hguard) resting_of_boots hlives hbefore
  refine ⟨fun place hplace ↦ hsound.short.cells_eq hplace, fun place hplace hmissing ↦ ?_,
    fun _ _ _ _ _ _ ↦ taken_iff⟩
  by_contra hkept
  refine hmissing (hsound.keeps.cells_eq (lt_min (lt_min_iff.mp hplace).1 ?_))
  unfold depth
  split_ifs with htorn
  · have hlast : place ≠ kRingSlots.toNat - 1 := fun heq ↦ hkept ⟨htorn, heq⟩
    have hlt := (lt_min_iff.mp hplace).2
    omega
  · exact (lt_min_iff.mp hplace).2

/-! ### A life with an interrupted append -/

/-- FlashDB as it should be. -/
def storing (world : RingWorld) : (request : SinkCall) → SinkAns request × RingWorld
  | .kvdbInit _ _ => (true, world)
  | .kv (.setBlob key data) => (true, world.written key data)
  | .kv (.getBlob key bufLen) => (KvStore.getBlob world.kv key bufLen, world)
  | .kv (.erase key) => (true, { world with kv := world.kv.after (.erase key) true })

theorem answers_storing (world : RingWorld) (request : SinkCall) :
    setting.answers world request (storing world request).1 (storing world request).2 := by
  match request with
  | .kvdbInit _ _ => exact rfl
  | .kv (.setBlob _ _) => exact ⟨rfl, rfl⟩
  | .kv (.getBlob _ _) => exact ⟨rfl, rfl⟩
  | .kv (.erase _) => exact rfl

/-- The record of an append, by its number. -/
def numbered (number : ℕ) : Bytes := littleEndian 2 number

def newRing : RingWorld := { kv := ⟨fun _ ↦ none⟩ }

/-- A new ring after `begin` and a number of appends. -/
def turned : ℕ → FlashDbTsdbSink × RingWorld
  | 0 => (component.handle {} (.begin (ascii "userdata"))).runOn storing newRing
  | number + 1 =>
    (component.handle (turned number).1 (.append (numbered number) 0)).runOn storing
      { (turned number).2 with pending := numbered number }

/-- The ring while one more append has written its record. -/
def halfway (number : ℕ) : RingWorld :=
  { (turned number).2 with pending := numbered number }.written
    (slotKey (turned number).1.head.toNat) (numbered number)

/-- The ring after a power cycle cut that append short. -/
def interrupted (number : ℕ) : RingWorld := { halfway number with pending := [] }

theorem runOn_append {sink : FlashDbTsdbSink} (hready : sink.ready = true) (record : Bytes)
    (sortKey : UInt32) (world : RingWorld) :
    (component.handle sink (.append record sortKey)).runOn storing world =
      ({ sink with head := (sink.head + 1) % kRingSlots },
        (world.written (slotKey sink.head.toNat) record).written (ascii "loghead")
          (littleEndian 4 ((sink.head + 1) % kRingSlots).toNat)) := by
  obtain ⟨head, ready⟩ := sink
  obtain rfl : ready = true := hready
  rfl

theorem ready_turned (number : ℕ) : (turned number).1.ready = true := by
  induction number with
  | zero => rfl
  | succ number ih => rw [turned, runOn_append ih, ih]

theorem completed_turned (number : ℕ) :
    (turned number).2.completed = (List.range number).reverse.map numbered := by
  induction number with
  | zero => rfl
  | succ number ih =>
    rw [turned, runOn_append (ready_turned number), written_record, written_head,
      List.range_succ, List.reverse_append, List.reverse_singleton, List.singleton_append,
      List.map_cons, ← ih]

theorem lives_turned (number : ℕ) :
    component.Lives setting starts boots (.idle {}, newRing)
      (.idle (turned number).1, (turned number).2) := by
  have hruns (operation : Operation) (sink : FlashDbTsdbSink) (world : RingWorld) :
      component.Lives setting starts boots
        (.busy operation (component.handle sink operation), world)
        (.idle ((component.handle sink operation).runOn storing world).1,
          ((component.handle sink operation).runOn storing world).2) :=
    Component.lives_of_steps (Component.steps_runOn answers_storing operation _ world)
  induction number with
  | zero =>
    have hbegin : starts newRing (.begin (ascii "userdata")) newRing := rfl
    exact .head (.run (.start hbegin)) (hruns _ _ _)
  | succ number ih =>
    have happend : starts (turned number).2 (.append (numbered number) 0)
        { (turned number).2 with pending := numbered number } := rfl
    exact ih.trans (.head (.run (.start happend)) (hruns _ _ _))

theorem lives_interrupted (number : ℕ) :
    component.Lives setting starts boots (.idle {}, newRing)
      (.idle {}, interrupted number) := by
  have hstart : starts (turned number).2 (.append (numbered number) 0)
      { (turned number).2 with pending := numbered number } := rfl
  have hwrite : setting.answers { (turned number).2 with pending := numbered number }
      (.kv (.setBlob (slotKey (turned number).1.head.toNat) (numbered number))) true
      (halfway number) := ⟨rfl, rfl⟩
  have hcycle : boots (halfway number) {} (interrupted number) := ⟨rfl, rfl⟩
  have hlives := lives_turned number
  obtain ⟨head, hsink⟩ : ∃ head, (turned number).1 = ⟨head, true⟩ :=
    ⟨(turned number).1.head, by rw [← ready_turned number]⟩
  rw [hsink] at hlives hwrite
  exact hlives.trans (.head (.run (.start hstart))
    (.head (.run (.answer hwrite)) (.single (.boot hcycle))))

theorem completed_interrupted (number : ℕ) :
    (interrupted number).completed = (List.range number).reverse.map numbered := by
  rw [interrupted, halfway, written_record, completed_turned]

theorem torn_interrupted (number : ℕ) : (interrupted number).torn = true := by
  rw [interrupted, halfway, written_record]

/-- After a turn of the ring and one append more, an interrupted append costs none of the last 2047
records. -/
theorem recent_kept_witness :
    (interrupted 2049).torn = true ∧
      (interrupted 2049).kv.blobs (slotKey
        (slotBefore kRingSlots.toNat (recoveredHead (interrupted 2049).kv).toNat 2046)) =
          some (numbered 2) := by
  have hlives := lives_interrupted 2049
  have hcompleted := completed_interrupted 2049
  have htorn := torn_interrupted 2049
  -- The ring is not to be computed: only its records and its life count.
  generalize interrupted 2049 = ring at hlives hcompleted htorn ⊢
  have hlength : ring.completed.length = 2049 := by
    rw [hcompleted, List.length_map, List.length_reverse, List.length_range]
  have hplace : 2046 < min ring.completed.length (kRingSlots.toNat - 1) := by
    rw [hlength, toNat_kRingSlots]
    decide
  have hkept := (recent_kept hlives).1 2046 hplace
  refine ⟨htorn, hkept.trans ?_⟩
  rw [hcompleted, List.getElem?_map, List.getElem?_reverse (by simp), List.length_range]
  simp

end FlashDbTsdbSink

end LibreSwitch.Log
