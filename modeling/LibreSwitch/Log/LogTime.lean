import LibreSwitch.Log.Logger

/-!
# The time in the log

The second clock of the records, over any number of sessions of one device. Within a session the
logger may be called in any order and any number of times; its store may refuse any write, and the
power may fail at any moment. True UTC never goes back. The clock of the device shows it while it is
synchronised and shows nothing otherwise, and it comes and goes as it likes.

The times in the log are never wrong in the dangerous direction: what is stamped as valid is true,
and what is not is no later than the truth (`times_sound`). This rests on the floor, which passes
from a session to the next through the store and is never ahead of the truth (`Sound`), whichever
of its writes were lost, and which never falls (`storedFloor_mono`).
-/

set_option autoImplicit false
set_option relaxedAutoImplicit false

namespace LibreSwitch.Log

open LibreSwitch.Library LibreSwitch.Platform Logger

namespace LogTime

/-! ### The logger as a component -/

/-- A call on the logger. -/
inductive Operation
  | begin
  | log (code : EventCode) (severity : Severity) (arg1 arg2 : UInt16)
  | onNtpSync

/-- The logger, with the programs of its operations. -/
def component : Component LogCall LogAns Logger Operation where
  handle
    | logger, .begin => logger.begin
    | logger, .log code severity arg1 arg2 => do
      let _ ← logger.log code severity arg1 arg2
      return logger
    | logger, .onNtpSync => logger.onNtpSync

/-! ### The world -/

/-- A record given to the sink, with the session, true UTC and the uptime at that moment. -/
structure Append where
  session : ℕ
  epoch : UInt32
  uptime : UInt32
  bytes : Bytes
  sortKey : UInt32
  deriving DecidableEq, Repr

/-- The record has its own uptime as its sort key. Its UTC is the true one if it says so, and is not
later than that if it does not. -/
def Append.Dated (entry : Append) : Prop :=
  ∃ record, LogCodec.decode entry.bytes = some record ∧ entry.sortKey = record.uptimeMs ∧
    record.uptimeMs = entry.uptime ∧
    if record.HasFlag kFlagClockValid then record.tsUtc = entry.epoch
    else record.tsUtc ≤ entry.epoch

/-- The record is an anchor. -/
def Append.isAnchor (entry : Append) : Bool :=
  (LogCodec.decode entry.bytes).any fun record ↦ record.HasFlag kFlagAnchor

/-- The store, true UTC, the clocks of the device, the number of the session, and everything that
was given to the sink so far. -/
structure World where
  kv : KvMap
  epoch : UInt32
  synced : Bool
  uptime : UInt32
  session : ℕ := 0
  appended : List Append := []

/-- The floor in the store; no floor counts as zero. -/
def storedFloor (kv : KvMap) : UInt32 :=
  UInt32.ofNat (ofLittleEndian (zeroed 4 (KvStore.getBlob kv (ascii "ntp_floor") 4).2))

namespace World

/-- The anchors of a session. -/
def anchors (world : World) (session : ℕ) : List Append :=
  world.appended.filter fun entry ↦ entry.session = session && entry.isAnchor

/-- Time passes: UTC does not go back, and the clocks of the device are what they are. Other parts
of the firmware may write other keys. -/
def Passes (world world' : World) : Prop :=
  ∃ kv epoch synced uptime, kv.blobs (ascii "ntp_floor") = world.kv.blobs (ascii "ntp_floor") ∧
    world.epoch ≤ epoch ∧
    world' = { world with kv := kv, epoch := epoch, synced := synced, uptime := uptime }

/-- A record is given to the sink. -/
def append (world : World) (bytes : Bytes) (sortKey : UInt32) : World :=
  { world with
    appended := world.appended ++ [⟨world.session, world.epoch, world.uptime, bytes, sortKey⟩] }

/-- The answers of the seams. Reading a clock takes no time; what is written takes some. -/
def Answers (world : World) : (request : LogCall) → LogAns request → World → Prop
  | .uptimeMs, uptime, world' => uptime = world.uptime ∧ world' = world
  | .ntpSynced, synced, world' => synced = world.synced ∧ world' = world
  | .utcEpoch, epoch, world' => epoch = (if world.synced then world.epoch else 0) ∧ world' = world
  | .append bytes sortKey, _, world' => (world.append bytes sortKey).Passes world'
  | .kv request, reply, world' =>
    ∃ kv, world.kv.Answers request reply kv ∧ { world with kv := kv }.Passes world'

end World

def setting : Setting LogCall LogAns World where
  answers := World.Answers

/-- A call may come at any time. -/
def starts (world : World) (_ : Operation) (world' : World) : Prop := world.Passes world'

/-- The next session begins with a new logger. -/
def boots (world : World) (logger : Logger) (world' : World) : Prop :=
  logger = {} ∧ { world with session := world.session + 1 }.Passes world'

/-- A device whose store is empty. -/
def newDevice (epoch : UInt32) (synced : Bool) (uptime : UInt32) : World where
  kv := ⟨fun _ ↦ none⟩
  epoch := epoch
  synced := synced
  uptime := uptime

/-! ### The floor in the store -/

theorem storedFloor_congr {kv kv' : KvMap}
    (hsame : kv'.blobs (ascii "ntp_floor") = kv.blobs (ascii "ntp_floor")) :
    storedFloor kv' = storedFloor kv := by
  rw [storedFloor, storedFloor, KvMap.getBlob_eq, KvMap.getBlob_eq, hsame]

/-- A floor that was stored is read back. -/
theorem storedFloor_of_blobs {kv : KvMap} {epoch : UInt32}
    (hstored : kv.blobs (ascii "ntp_floor") = some (littleEndian 4 epoch.toNat)) :
    storedFloor kv = epoch := by
  have hread : (KvStore.getBlob kv (ascii "ntp_floor") 4).2 = littleEndian 4 epoch.toNat := by
    rw [KvMap.getBlob_eq, hstored]
    exact List.take_of_length_le (length_littleEndian 4 _).le
  rw [storedFloor, hread]
  change UInt32.ofNat (ofLittleEndian (littleEndian 4 epoch.toNat ++ List.replicate 0 0)) = epoch
  rw [List.replicate_zero, List.append_nil, ofLittleEndian_littleEndian epoch.toNat_lt,
    UInt32.ofNat_toNat]

/-! ### What holds at every moment -/

/-- The floor is not ahead of the truth, every record is dated, and no session has two anchors. -/
structure Sound (world : World) : Prop where
  floor_le : storedFloor world.kv ≤ world.epoch
  dated : ∀ entry ∈ world.appended, entry.Dated
  session_le : ∀ entry ∈ world.appended, entry.session ≤ world.session
  anchors_le : ∀ session, (world.anchors session).length ≤ 1

/-- What the logger may ask in a world. -/
def Permits (world : World) : LogCall → Prop
  | .append bytes sortKey =>
    Append.Dated ⟨world.session, world.epoch, world.uptime, bytes, sortKey⟩ ∧
      (Append.isAnchor ⟨world.session, world.epoch, world.uptime, bytes, sortKey⟩ = true →
        world.anchors world.session = [])
  | .kv (.setBlob key data) => key = ascii "ntp_floor" → ∃ epoch : UInt32,
      data = littleEndian 4 epoch.toNat ∧ storedFloor world.kv ≤ epoch ∧ epoch ≤ world.epoch
  | .kv (.erase key) => key ≠ ascii "ntp_floor"
  | _ => True

def guard (world : World) (request : LogCall) : Prop := Sound world ∧ Permits world request

theorem sound_passes {world world' : World} (hsound : Sound world) (hpasses : world.Passes world') :
    Sound world' ∧ storedFloor world'.kv = storedFloor world.kv := by
  obtain ⟨kv, epoch, synced, uptime, hkv, hepoch, rfl⟩ := hpasses
  have hfloor := storedFloor_congr hkv
  exact ⟨⟨hfloor ▸ UInt32.le_trans hsound.floor_le hepoch, hsound.dated, hsound.session_le,
    hsound.anchors_le⟩, hfloor⟩

/-- The anchors behind one more record. -/
theorem anchors_append (world : World) (bytes : Bytes) (sortKey : UInt32) (session : ℕ) :
    (world.append bytes sortKey).anchors session = world.anchors session ++
      if world.session = session ∧
        Append.isAnchor ⟨world.session, world.epoch, world.uptime, bytes, sortKey⟩ = true
      then [⟨world.session, world.epoch, world.uptime, bytes, sortKey⟩] else [] := by
  rw [World.anchors, World.append, List.filter_append, World.anchors, List.filter_singleton]
  simp

theorem sound_append {world : World} (hsound : Sound world) {bytes : Bytes} {sortKey : UInt32}
    (hpermits : Permits world (.append bytes sortKey)) : Sound (world.append bytes sortKey) := by
  obtain ⟨hdated, hanchor⟩ := hpermits
  refine ⟨hsound.floor_le, ?_, ?_, fun session ↦ ?_⟩
  · intro entry hentry
    rcases List.mem_append.mp hentry with hold | hnew
    · exact hsound.dated entry hold
    · rwa [List.mem_singleton.mp hnew]
  · intro entry hentry
    rcases List.mem_append.mp hentry with hold | hnew
    · exact hsound.session_le entry hold
    · rw [List.mem_singleton.mp hnew]
      exact le_rfl
  · rw [anchors_append]
    split_ifs with hhere
    · obtain ⟨rfl, his⟩ := hhere
      rw [hanchor his]
      exact le_rfl
    · rw [List.append_nil]
      exact hsound.anchors_le session

/-- A permitted call on the store does not lower the floor, and keeps it behind the truth. -/
theorem sound_kv {world : World} (hsound : Sound world) {request : KvCall}
    (hpermits : Permits world (.kv request)) {reply : KvAns request} {kv : KvMap}
    (hanswers : world.kv.Answers request reply kv) :
    Sound { world with kv := kv } ∧ storedFloor world.kv ≤ storedFloor kv := by
  obtain ⟨-, rfl⟩ := hanswers
  have hkept (hblobs : (world.kv.after request reply).blobs (ascii "ntp_floor") =
      world.kv.blobs (ascii "ntp_floor")) :
      Sound { world with kv := world.kv.after request reply } ∧
        storedFloor world.kv ≤ storedFloor (world.kv.after request reply) := by
    have hfloor := storedFloor_congr hblobs
    exact ⟨⟨hfloor ▸ hsound.floor_le, hsound.dated, hsound.session_le, hsound.anchors_le⟩,
      hfloor ▸ UInt32.le_refl _⟩
  cases request with
  | getBlob key bufLen => exact hkept rfl
  | erase key => exact hkept (KvMap.blobs_after_erase_of_ne (Ne.symm hpermits) world.kv reply)
  | setBlob key data =>
    by_cases hkey : key = ascii "ntp_floor"
    · cases reply with
      | false => exact hkept rfl
      | true =>
        obtain ⟨epoch, rfl, hraises, hbehind⟩ := hpermits hkey
        have hfloor :
            storedFloor (world.kv.after (.setBlob key (littleEndian 4 epoch.toNat)) true) =
              epoch := by
          refine storedFloor_of_blobs ?_
          rw [KvMap.blobs_after_setBlob, hkey, Function.update_self]
        exact ⟨⟨hfloor.symm ▸ hbehind, hsound.dated, hsound.session_le, hsound.anchors_le⟩,
          hfloor.symm ▸ hraises⟩
    · exact hkept (KvMap.blobs_after_setBlob_of_ne (Ne.symm hkey) world.kv data reply)

/-- Every permitted call leaves the world sound, and the floor where it was or higher. -/
theorem sound_answers {world world' : World} {request : LogCall} (hguard : guard world request)
    {reply : LogAns request} (hanswers : world.Answers request reply world') :
    Sound world' ∧ storedFloor world.kv ≤ storedFloor world'.kv := by
  obtain ⟨hsound, hpermits⟩ := hguard
  cases request with
  | uptimeMs =>
    obtain ⟨-, rfl⟩ := hanswers
    exact ⟨hsound, UInt32.le_refl _⟩
  | ntpSynced =>
    obtain ⟨-, rfl⟩ := hanswers
    exact ⟨hsound, UInt32.le_refl _⟩
  | utcEpoch =>
    obtain ⟨-, rfl⟩ := hanswers
    exact ⟨hsound, UInt32.le_refl _⟩
  | append bytes sortKey =>
    obtain ⟨hsound', hfloor⟩ := sound_passes (sound_append hsound hpermits) hanswers
    exact ⟨hsound', hfloor ▸ UInt32.le_refl _⟩
  | kv request =>
    obtain ⟨kv, hkv, hpasses⟩ := hanswers
    obtain ⟨hsound', hraises⟩ := sound_kv hsound hpermits hkv
    obtain ⟨hsound'', hfloor⟩ := sound_passes hsound' hpasses
    exact ⟨hsound'', hfloor ▸ hraises⟩

/-! ### What holds between the calls of the logger -/

/-- The floor of the logger is not ahead of the truth either, and a logger that has not anchored its
session has no anchor in it. -/
structure Rests (logger : Logger) (world : World) : Prop where
  sound : Sound world
  floor_le : logger.ntpFloor ≤ world.epoch
  anchors_eq : logger.anchored = false → world.anchors world.session = []

theorem rests_passes {logger : Logger} {world world' : World} (hrests : Rests logger world)
    (hpasses : world.Passes world') : Rests logger world' := by
  have hsound := (sound_passes hrests.sound hpasses).1
  obtain ⟨kv, epoch, synced, uptime, hkv, hepoch, rfl⟩ := hpasses
  exact ⟨hsound, UInt32.le_trans hrests.floor_le hepoch, hrests.anchors_eq⟩

/-- A record that was built in a world. -/
structure Built (world : World) (anchor : Bool) (record : LogRecord) : Prop where
  uptime_eq : record.uptimeMs = world.uptime
  dated : if record.HasFlag kFlagClockValid then record.tsUtc = world.epoch
    else record.tsUtc ≤ world.epoch
  anchor_iff : record.HasFlag kFlagAnchor ↔ anchor = true

/-- The flag for an anchor leaves the times alone. -/
theorem built_markAnchor {world : World} {record : LogRecord} (hbuilt : Built world false record)
    (hflags : record.flags = 0 ∨ record.flags = kFlagClockValid) (anchor : Bool) :
    Built world anchor (markAnchor anchor record) := by
  cases anchor with
  | false => exact hbuilt
  | true =>
    have hvalid : (markAnchor true record).HasFlag kFlagClockValid ↔
        record.HasFlag kFlagClockValid := by
      change (record.flags ||| kFlagAnchor) &&& kFlagClockValid ≠ 0 ↔
        record.flags &&& kFlagClockValid ≠ 0
      rcases hflags with hflags | hflags
      · rw [hflags]
        decide
      · rw [hflags]
        decide
    have hanchor : (markAnchor true record).HasFlag kFlagAnchor := by
      change (record.flags ||| kFlagAnchor) &&& kFlagAnchor ≠ 0
      rcases hflags with hflags | hflags
      · rw [hflags]
        decide
      · rw [hflags]
        decide
    refine ⟨hbuilt.uptime_eq, ?_, iff_of_true hanchor rfl⟩
    simp only [hvalid]
    exact hbuilt.dated

section Programs

variable {logger : Logger} {world : World} {code : EventCode} {severity : Severity}
  {arg1 arg2 : UInt16} {anchor : Bool}

/-- The clocks that are read without the uptime are those of the moment. -/
theorem wp_stampUtc (hrests : Rests logger world) {record : LogRecord}
    (huptime : record.uptimeMs = world.uptime) (hflags : record.flags = 0) :
    setting.wp guard (logger.stampUtc record)
      (fun stamped last ↦ last = world ∧ Built world false stamped ∧
        (stamped.flags = 0 ∨ stamped.flags = kFlagClockValid)) world := by
  simp only [stampUtc, Prog.ask_bind]
  refine Setting.quiet_alone.wp_call_iff.mpr ⟨⟨hrests.sound, trivial⟩, ?_⟩
  rintro synced here ⟨rfl, rfl⟩
  by_cases hsynced : here.synced = true
  · rw [if_pos hsynced]
    refine Setting.quiet_alone.wp_call_iff.mpr ⟨⟨hrests.sound, trivial⟩, ?_⟩
    rintro utc _ ⟨rfl, rfl⟩
    rw [if_pos hsynced]
    have hvalid : record.flags ||| kFlagClockValid = kFlagClockValid := by
      rw [hflags]
      decide
    have hflag : (record.flags ||| kFlagClockValid) &&& kFlagClockValid ≠ 0 := by
      rw [hvalid]
      decide
    have hplain : ¬ (record.flags ||| kFlagClockValid) &&& kFlagAnchor ≠ 0 := by
      rw [hvalid]
      decide
    exact Setting.quiet_alone.wp_ret_iff.mpr ⟨rfl,
      ⟨huptime, (if_pos hflag).mpr rfl, iff_of_false hplain Bool.false_ne_true⟩, .inr hvalid⟩
  · rw [if_neg hsynced]
    have hflag : ¬ record.flags &&& kFlagClockValid ≠ 0 := by
      rw [hflags]
      decide
    have hplain : ¬ record.flags &&& kFlagAnchor ≠ 0 := by
      rw [hflags]
      decide
    exact Setting.quiet_alone.wp_ret_iff.mpr ⟨rfl,
      ⟨huptime, (if_neg hflag).mpr hrests.floor_le, iff_of_false hplain Bool.false_ne_true⟩,
      .inl hflags⟩

/-- Building a record takes no time, and the record is of that moment. -/
theorem wp_buildRecord (hrests : Rests logger world) :
    setting.wp guard (logger.buildRecord code severity arg1 arg2 anchor)
      (fun record last ↦ last = world ∧ Built world anchor record) world := by
  simp only [buildRecord, Prog.ask_bind]
  refine Setting.quiet_alone.wp_call_iff.mpr ⟨⟨hrests.sound, trivial⟩, ?_⟩
  rintro uptime _ ⟨rfl, rfl⟩
  apply Setting.wp_bind
  refine Setting.wp_mono ?_ (wp_stampUtc hrests rfl rfl)
  rintro stamped _ ⟨rfl, hbuilt, hflags⟩
  exact Setting.quiet_alone.wp_ret_iff.mpr ⟨rfl, built_markAnchor hbuilt hflags anchor⟩

/-- A record that was built in a world is dated when it is given to the sink. -/
theorem Built.dated_append {record : LogRecord} (hbuilt : Built world anchor record) :
    Append.Dated ⟨world.session, world.epoch, world.uptime, LogCodec.encode record,
      record.uptimeMs⟩ :=
  ⟨record, LogCodec.decode_encode record, rfl, hbuilt.uptime_eq, hbuilt.dated⟩

theorem Built.isAnchor_append {record : LogRecord} (hbuilt : Built world anchor record) :
    Append.isAnchor ⟨world.session, world.epoch, world.uptime, LogCodec.encode record,
      record.uptimeMs⟩ = anchor := by
  rw [Append.isAnchor, LogCodec.decode_encode, Option.any_some, Bool.eq_iff_iff,
    decide_eq_true_iff]
  exact hbuilt.anchor_iff

/-- What is left when a record was given to the sink. An anchor may only be given by a logger that
has none in its session, and marks it. -/
theorem wp_appendRecord (hrests : Rests logger world) {record : LogRecord}
    (hbuilt : Built world anchor record)
    (hanchor : anchor = true → world.anchors world.session = []) :
    setting.wp guard (appendRecord record)
      (fun _ last ↦ Rests { logger with anchored := logger.anchored || anchor } last) world := by
  have hpermits : Permits world (.append (LogCodec.encode record) record.uptimeMs) :=
    ⟨hbuilt.dated_append, fun his ↦ hanchor (hbuilt.isAnchor_append.symm.trans his)⟩
  refine Setting.quiet_alone.wp_call_iff.mpr ⟨⟨hrests.sound, hpermits⟩, ?_⟩
  intro taken last hpasses
  refine Setting.quiet_alone.wp_ret_iff.mpr (rests_passes ⟨sound_append hrests.sound hpermits,
    hrests.floor_le, fun hnone ↦ ?_⟩ hpasses)
  obtain ⟨hlogger, hplain⟩ := Bool.or_eq_false_iff.mp hnone
  have hold := hrests.anchors_eq hlogger
  change (world.append _ _).anchors world.session = []
  rw [anchors_append, hbuilt.isAnchor_append, hold, hplain]
  simp

theorem wp_log (hrests : Rests logger world) :
    setting.wp guard (logger.log code severity arg1 arg2) (fun _ last ↦ Rests logger last)
      world := by
  apply Setting.wp_bind
  refine Setting.wp_mono ?_ (wp_buildRecord hrests)
  rintro record _ ⟨rfl, hbuilt⟩
  refine Setting.wp_mono ?_ (wp_appendRecord hrests hbuilt fun hanchor ↦
    absurd hanchor Bool.false_ne_true)
  intro taken last hlast
  rwa [Bool.or_false] at hlast

/-- What the clock shows is stored as the floor. -/
theorem wp_persistNtpFloor (hrests : Rests logger world) {epoch : UInt32}
    (hepoch : epoch ≠ 0 → epoch = world.epoch) :
    setting.wp guard (onKv (logger.persistNtpFloor epoch)) Rests world := by
  unfold persistNtpFloor
  by_cases hzero : epoch = 0
  · rw [if_pos hzero]
    exact Setting.quiet_alone.wp_ret_iff.mpr hrests
  · rw [if_neg hzero]
    obtain rfl := hepoch hzero
    have hpermits : Permits world (.kv (.setBlob (ascii "ntp_floor")
        (littleEndian 4 world.epoch.toNat))) :=
      fun _ ↦ ⟨world.epoch, rfl, hrests.sound.floor_le, UInt32.le_refl _⟩
    refine Setting.quiet_alone.wp_call_iff.mpr ⟨⟨hrests.sound, hpermits⟩, ?_⟩
    rintro stored last ⟨kv, hkv, hpasses⟩
    exact Setting.quiet_alone.wp_ret_iff.mpr (rests_passes ⟨(sound_kv hrests.sound hpermits hkv).1,
      UInt32.le_refl _, hrests.anchors_eq⟩ hpasses)

theorem wp_onNtpSync (hrests : Rests logger world) :
    setting.wp guard logger.onNtpSync Rests world := by
  unfold onNtpSync
  by_cases hanchored : logger.anchored = true
  · rw [if_pos hanchored]
    exact Setting.quiet_alone.wp_ret_iff.mpr hrests
  · rw [if_neg hanchored]
    have hnone := hrests.anchors_eq (Bool.eq_false_of_not_eq_true hanchored)
    have hmarked : Rests { logger with anchored := true } world :=
      ⟨hrests.sound, hrests.floor_le, fun hplain ↦ absurd hplain.symm Bool.false_ne_true⟩
    apply Setting.wp_bind
    refine Setting.wp_mono ?_ (wp_buildRecord hmarked)
    rintro anchor _ ⟨rfl, hbuilt⟩
    apply Setting.wp_bind
    refine Setting.wp_mono ?_ (wp_appendRecord hmarked hbuilt fun _ ↦ hnone)
    intro taken here hhere
    refine Setting.quiet_alone.wp_call_iff.mpr ⟨⟨hhere.sound, trivial⟩, ?_⟩
    rintro epoch _ ⟨rfl, rfl⟩
    refine wp_persistNtpFloor hhere fun hshown ↦ if_pos ?_
    by_contra hsynced
    exact hshown (if_neg hsynced)

/-- A call on the store that leaves the floor alone. -/
theorem rests_kv (hrests : Rests logger world) {request : KvCall}
    (hpermits : Permits world (.kv request)) {reply : KvAns request} {last : World}
    (hanswers : world.Answers (.kv request) reply last) : Rests logger last := by
  obtain ⟨kv, hkv, hpasses⟩ := hanswers
  exact rests_passes ⟨(sound_kv hrests.sound hpermits hkv).1, hrests.floor_le, hrests.anchors_eq⟩
    hpasses

theorem wp_nextBootId (hrests : Rests logger world) :
    setting.wp guard (onKv nextBootId) (fun _ last ↦ Rests logger last) world := by
  refine Setting.quiet_alone.wp_call_iff.mpr ⟨⟨hrests.sound, trivial⟩, ?_⟩
  intro read here hread
  have hhere : Rests logger here :=
    @rests_kv _ _ hrests (.getBlob (ascii "boot_id") 2) trivial _ _ hread
  have hpermits (data : Bytes) : Permits here (.kv (.setBlob (ascii "boot_id") data)) :=
    fun hkey ↦ absurd hkey (by decide)
  refine Setting.quiet_alone.wp_call_iff.mpr ⟨⟨hhere.sound, hpermits _⟩, ?_⟩
  intro stored last hstored
  exact Setting.quiet_alone.wp_ret_iff.mpr (rests_kv hhere (hpermits _) hstored)

/-- The floor that is loaded is the one in the store. -/
theorem wp_loadNtpFloor (hrests : Rests logger world) :
    setting.wp guard (onKv loadNtpFloor) (fun floor last ↦ Rests logger last ∧ floor ≤ last.epoch)
      world := by
  refine Setting.quiet_alone.wp_call_iff.mpr ⟨⟨hrests.sound, trivial⟩, ?_⟩
  rintro read last ⟨kv, ⟨hread, rfl⟩, hpasses⟩
  have hlast : Rests logger last := rests_passes hrests hpasses
  obtain ⟨kv, epoch, synced, uptime, -, hepoch, rfl⟩ := hpasses
  refine Setting.quiet_alone.wp_ret_iff.mpr ⟨hlast, ?_⟩
  rw [hread]
  exact UInt32.le_trans hrests.sound.floor_le hepoch

theorem wp_begin (hrests : Rests logger world) :
    setting.wp guard logger.begin Rests world := by
  apply Setting.wp_bind
  refine Setting.wp_mono ?_ (wp_nextBootId hrests)
  intro bootId here hhere
  apply Setting.wp_bind
  refine Setting.wp_mono ?_ (wp_loadNtpFloor hhere)
  rintro floor there ⟨hthere, hfloor⟩
  have hbegun : Rests { logger with bootId := bootId, ntpFloor := floor } there :=
    ⟨hthere.sound, hfloor, hthere.anchors_eq⟩
  apply Setting.wp_bind
  refine Setting.wp_mono ?_ (wp_log hbegun)
  intro taken last hlast
  exact Setting.quiet_alone.wp_ret_iff.mpr hlast

end Programs

/-- Every call of the logger leaves it at rest. -/
theorem wp_handle {logger : Logger} {world : World} (hrests : Rests logger world)
    (operation : Operation) : setting.wp guard (component.handle logger operation) Rests world := by
  cases operation with
  | begin => exact wp_begin hrests
  | log code severity arg1 arg2 =>
    apply Setting.wp_bind
    refine Setting.wp_mono ?_ (wp_log hrests)
    intro taken last hlast
    exact Setting.quiet_alone.wp_ret_iff.mpr hlast
  | onNtpSync => exact wp_onNtpSync hrests

/-! ### All sessions -/

/-- A session begins without an anchor. -/
theorem rests_boots {logger : Logger} {world world' : World} (hsound : Sound world)
    (hboots : boots world logger world') : Rests logger world' := by
  obtain ⟨rfl, hpasses⟩ := hboots
  have hnew : Rests {} { world with session := world.session + 1 } := by
    refine ⟨⟨hsound.floor_le, hsound.dated, ?_, hsound.anchors_le⟩, UInt32.zero_le, fun _ ↦ ?_⟩
    · exact fun entry hentry ↦ Nat.le_succ_of_le (hsound.session_le entry hentry)
    · refine List.filter_eq_nil_iff.mpr fun entry hentry hmatch ↦ ?_
      have hsession := hsound.session_le entry hentry
      have hsame : entry.session = world.session + 1 := by
        simpa using (Bool.and_eq_true_iff.mp hmatch).1
      omega
  exact rests_passes hnew hpasses

/-- What holds at every moment of all sessions of a device. -/
theorem maintains_of_lives {before after : Component.Phase LogCall LogAns Logger Operation × World}
    (hlives : component.Lives setting starts boots before after)
    (hbefore : Component.Maintains setting guard Rests before) :
    Component.Maintains setting guard Rests after ∧ Sound after.2 := by
  refine Component.life_rule ?_ ?_ ?_ ?_ ?_ hlives hbefore
  · exact fun logger world world' _ hinterferes ↦
      absurd hinterferes (Setting.quiet_alone world world')
  · exact fun logger operation world world' hrests hstarts ↦
      wp_handle (rests_passes hrests hstarts) operation
  · exact fun logger world hrests ↦ hrests.sound
  · exact fun world request hguard ↦ hguard.1
  · exact fun world logger world' hsound hboots ↦ rests_boots hsound hboots

/-- No step lowers the floor in the store. -/
theorem storedFloor_step {before after : Component.Phase LogCall LogAns Logger Operation × World}
    (hbefore : Component.Maintains setting guard Rests before)
    (hstep : component.LifeStep setting starts boots before after) :
    storedFloor before.2.kv ≤ storedFloor after.2.kv := by
  cases hstep with
  | boot hboot =>
    obtain ⟨-, kv, epoch, synced, uptime, hkv, -, rfl⟩ := hboot
    exact storedFloor_congr hkv ▸ UInt32.le_refl _
  | run hrun =>
    cases hrun with
    | start hstart =>
      obtain ⟨kv, epoch, synced, uptime, hkv, -, rfl⟩ := hstart
      exact storedFloor_congr hkv ▸ UInt32.le_refl _
    | answer hanswer => exact (sound_answers (Setting.wp_guard hbefore) hanswer).2
    | interfere hinterfere => exact absurd hinterfere (Setting.quiet_alone _ _)
    | finish => exact UInt32.le_refl _

/-- The floor in the store never falls. -/
theorem storedFloor_mono {before after : Component.Phase LogCall LogAns Logger Operation × World}
    (hlives : component.Lives setting starts boots before after)
    (hbefore : Component.Maintains setting guard Rests before) :
    storedFloor before.2.kv ≤ storedFloor after.2.kv := by
  induction hlives with
  | refl => exact UInt32.le_refl _
  | tail hsofar hstep ih =>
    exact UInt32.le_trans ih (storedFloor_step (maintains_of_lives hsofar hbefore).1 hstep)

theorem rests_newDevice (epoch : UInt32) (synced : Bool) (uptime : UInt32) :
    Rests {} (newDevice epoch synced uptime) :=
  ⟨⟨UInt32.zero_le, fun _ hentry ↦ absurd hentry List.not_mem_nil,
    fun _ hentry ↦ absurd hentry List.not_mem_nil, fun _ ↦ Nat.zero_le 1⟩, UInt32.zero_le,
    fun _ ↦ rfl⟩

/-- Over all sessions of a device that starts with an empty store: every record that was given to
the sink is dated, no session has more than one anchor, and the floor in the store never falls. -/
theorem times_sound {epoch : UInt32} {synced : Bool} {uptime : UInt32}
    {config later : Component.Phase LogCall LogAns Logger Operation × World}
    (hlives : component.Lives setting starts boots (.idle {}, newDevice epoch synced uptime) config)
    (hlater : component.Lives setting starts boots config later) :
    (∀ entry ∈ config.2.appended, entry.Dated) ∧
      (∀ session, (config.2.anchors session).length ≤ 1) ∧
      storedFloor config.2.kv ≤ storedFloor later.2.kv := by
  obtain ⟨hmaintains, hsound⟩ := maintains_of_lives hlives (rests_newDevice epoch synced uptime)
  exact ⟨hsound.dated, hsound.anchors_le, storedFloor_mono hlater hmaintains⟩

/-! ### A device that is synchronised once -/

/-- Seams that store and take everything, in no time. -/
def storing (world : World) : (request : LogCall) → LogAns request × World
  | .uptimeMs => (world.uptime, world)
  | .ntpSynced => (world.synced, world)
  | .utcEpoch => (if world.synced then world.epoch else 0, world)
  | .append bytes sortKey => (true, world.append bytes sortKey)
  | .kv request =>
    ((world.kv.respond request).1, { world with kv := (world.kv.respond request).2 })

theorem passes_refl (world : World) : world.Passes world :=
  ⟨world.kv, world.epoch, world.synced, world.uptime, rfl, UInt32.le_refl _, rfl⟩

theorem answers_storing (world : World) (request : LogCall) :
    setting.answers world request (storing world request).1 (storing world request).2 := by
  cases request with
  | uptimeMs => exact ⟨rfl, rfl⟩
  | ntpSynced => exact ⟨rfl, rfl⟩
  | utcEpoch => exact ⟨rfl, rfl⟩
  | append bytes sortKey => exact passes_refl _
  | kv request => exact ⟨_, KvMap.answers_respond world.kv request, passes_refl _⟩

/-- The device boots without the time. -/
def booted : Logger × World :=
  (component.handle {} .begin).runOn storing (newDevice 1700000000 false 100)

/-- A minute later it knows the time. -/
def synchronized : Logger × World :=
  (component.handle booted.1 .onNtpSync).runOn storing
    { booted.2 with epoch := 1700000060, synced := true, uptime := 60100 }

/-- After a power cycle it does not. -/
def cycled : World :=
  { synchronized.2 with epoch := 1700000070, synced := false, uptime := 90, session := 1 }

theorem lives_synchronized : component.Lives setting starts boots
    (.idle {}, newDevice 1700000000 false 100) (.idle synchronized.1, synchronized.2) := by
  have hruns (operation : Operation) (logger : Logger) (world : World) :
      component.Lives setting starts boots
        (.busy operation (component.handle logger operation), world)
        (.idle ((component.handle logger operation).runOn storing world).1,
          ((component.handle logger operation).runOn storing world).2) :=
    Component.lives_of_steps (Component.steps_runOn answers_storing operation _ world)
  have hminute : starts booted.2 .onNtpSync
      { booted.2 with epoch := 1700000060, synced := true, uptime := 60100 } :=
    ⟨booted.2.kv, 1700000060, true, 60100, rfl, by decide, rfl⟩
  have hboot : starts (newDevice 1700000000 false 100) .begin (newDevice 1700000000 false 100) :=
    passes_refl _
  refine .head (.run (.start hboot)) ((hruns .begin {} _).trans ?_)
  exact .head (.run (.start hminute)) (hruns .onNtpSync booted.1 _)

/-- The device anchors its first session and keeps the floor through the power cycle. -/
theorem times_sound_witness :
    (∀ entry ∈ synchronized.2.appended, entry.Dated) ∧ synchronized.2.appended.length = 2 ∧
      storedFloor synchronized.2.kv = 1700000060 ∧
      storedFloor synchronized.2.kv ≤ storedFloor cycled.kv := by
  have hcycle : boots synchronized.2 {} cycled :=
    ⟨rfl, synchronized.2.kv, 1700000070, false, 90, rfl, by decide, rfl⟩
  have hsound := times_sound lives_synchronized (.single (.boot hcycle))
  exact ⟨hsound.1, by decide, by decide, hsound.2.2⟩

end LogTime

end LibreSwitch.Log
