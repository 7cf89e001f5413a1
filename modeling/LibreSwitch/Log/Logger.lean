import Mathlib.Tactic
import LibreSwitch.Library.Interaction
import LibreSwitch.Log.LogTypes
import LibreSwitch.Platform.KvStore

/-!
# The logger

`Logger` of `log/logger.h`: records with two clocks, the boot counter and the NTP floor. Its
operations are programs over the time source, the sink of the records and the key-value store.

What a run of an operation did is read off its trace: the readings of the uptime clock (`uptimes`),
the records given to the sink (`appends`) and the calls on the store (`kvEvents`). A record carries
the session and the uptime at which it was built, and every reading is that of one record
(`built_of_runs`).
-/

set_option autoImplicit false
set_option relaxedAutoImplicit false

namespace LibreSwitch.Log

open LibreSwitch.Library LibreSwitch.Platform

/-- The calls of the logger on the `TimeSource`, the `TsdbSink` and the `KvStore`. -/
inductive LogCall
  | uptimeMs
  | utcEpoch
  | ntpSynced
  | append (record : Bytes) (sortKey : UInt32)
  | kv (request : KvCall)

/-- What they answer. -/
abbrev LogAns : LogCall → Type
  | .uptimeMs => UInt32
  | .utcEpoch => UInt32
  | .ntpSynced => Bool
  | .append _ _ => Bool
  | .kv request => KvAns request

/-- A call of the logger with its answer. -/
abbrev LogEvent := Prog.Event LogCall LogAns

/-- `Logger`, apart from its seams. -/
structure Logger where
  bootId : UInt16 := 0
  ntpFloor : UInt32 := 0
  anchored : Bool := false
  deriving DecidableEq, Repr

namespace Logger

open Prog (ask)

variable {α : Type}

/-- A part of an operation that works on the store. -/
def onKv (program : Prog KvCall KvAns α) : Prog LogCall LogAns α :=
  program.embed .kv fun _ ↦ Equiv.refl _

def nextBootId : Prog KvCall KvAns UInt16 := do
  let read ← ask (KvCall.getBlob (ascii "boot_id") 2)
  let id := UInt16.ofNat (ofLittleEndian (zeroed 2 read.2)) + 1
  let _ ← ask (KvCall.setBlob (ascii "boot_id") (littleEndian 2 id.toNat))
  return id

def loadNtpFloor : Prog KvCall KvAns UInt32 := do
  let read ← ask (KvCall.getBlob (ascii "ntp_floor") 4)
  return UInt32.ofNat (ofLittleEndian (zeroed 4 read.2))

def persistNtpFloor (logger : Logger) (epoch : UInt32) : Prog KvCall KvAns Logger :=
  if epoch = 0 then return logger
  else do
    let _ ← ask (KvCall.setBlob (ascii "ntp_floor") (littleEndian 4 epoch.toNat))
    return { logger with ntpFloor := epoch }

/-- The part of `buildRecord` about the second clock. -/
def stampUtc (logger : Logger) (record : LogRecord) : Prog LogCall LogAns LogRecord := do
  let synced ← ask LogCall.ntpSynced
  if synced then
    let utc ← ask LogCall.utcEpoch
    return { record with tsUtc := utc, flags := record.flags ||| kFlagClockValid }
  else return { record with tsUtc := logger.ntpFloor }

/-- The last line of `buildRecord`. -/
def markAnchor (anchor : Bool) (record : LogRecord) : LogRecord :=
  if anchor then { record with flags := record.flags ||| kFlagAnchor } else record

def buildRecord (logger : Logger) (code : EventCode) (severity : Severity) (arg1 arg2 : UInt16)
    (anchor : Bool) : Prog LogCall LogAns LogRecord := do
  let uptime ← ask LogCall.uptimeMs
  let record ← logger.stampUtc
    { uptimeMs := uptime, bootId := logger.bootId, code := code.raw, severity := severity.raw,
      arg1 := arg1, arg2 := arg2 }
  return markAnchor anchor record

def appendRecord (record : LogRecord) : Prog LogCall LogAns Bool :=
  ask (LogCall.append (LogCodec.encode record) record.uptimeMs)

def log (logger : Logger) (code : EventCode) (severity : Severity) (arg1 arg2 : UInt16 := 0) :
    Prog LogCall LogAns Bool := do
  let record ← logger.buildRecord code severity arg1 arg2 false
  appendRecord record

def begin (logger : Logger) : Prog LogCall LogAns Logger := do
  let bootId ← onKv nextBootId
  let ntpFloor ← onKv loadNtpFloor
  let logger := { logger with bootId := bootId, ntpFloor := ntpFloor }
  let _ ← logger.log .boot .info bootId 0
  return logger

def onNtpSync (logger : Logger) : Prog LogCall LogAns Logger :=
  if logger.anchored then return logger
  else do
    let logger := { logger with anchored := true }
    let anchor ← logger.buildRecord .ntpSync .info 0 0 true
    let _ ← appendRecord anchor
    let epoch ← ask LogCall.utcEpoch
    onKv (logger.persistNtpFloor epoch)

/-! ### The events of an operation -/

/-- The readings of the uptime clock. -/
def uptimes (trace : List LogEvent) : List UInt32 :=
  trace.filterMap fun event ↦
    match event with
    | ⟨.uptimeMs, uptime⟩ => some uptime
    | _ => none

/-- The records given to the sink, and whether it took them. -/
def appends (trace : List LogEvent) : List (LogRecord × Bool) :=
  trace.filterMap fun event ↦
    match event with
    | ⟨.append record _, taken⟩ => (LogCodec.decode record).map (·, taken)
    | _ => none

/-- The calls on the store. -/
def kvEvents (trace : List LogEvent) : List KvEvent :=
  trace.filterMap fun event ↦
    match event with
    | ⟨.kv request, answer⟩ => some ⟨request, answer⟩
    | _ => none

section Events

variable (first second : List LogEvent)

@[simp] theorem uptimes_append : uptimes (first ++ second) = uptimes first ++ uptimes second :=
  List.filterMap_append

@[simp] theorem appends_append : appends (first ++ second) = appends first ++ appends second :=
  List.filterMap_append

@[simp] theorem kvEvents_append : kvEvents (first ++ second) = kvEvents first ++ kvEvents second :=
  List.filterMap_append

/-- What the sink is given is the record that was encoded. -/
theorem appends_encode (record : LogRecord) (sortKey : UInt32) (taken : Bool) :
    appends [⟨.append (LogCodec.encode record) sortKey, taken⟩] = [(record, taken)] := by
  change List.filterMap _ [_] = _
  simp only [List.filterMap_cons, LogCodec.decode_encode, Option.map_some, List.filterMap_nil]

end Events

/-- A part on the store reads no clock and appends nothing, and its calls are a run of that part. -/
theorem runs_onKv {program : Prog KvCall KvAns α} {trace : List LogEvent} {result : α}
    (hruns : (onKv program).Runs trace result) :
    program.Runs (kvEvents trace) result ∧ uptimes trace = [] ∧ appends trace = [] :=
  ⟨Prog.runs_part (fun _ ↦ rfl) hruns, Prog.filterMap_part (fun _ ↦ rfl) hruns,
    Prog.filterMap_part (fun _ ↦ rfl) hruns⟩

/-! ### Records and readings -/

/-- The session and the uptime by which the reader orders records. -/
def stamp (record : LogRecord) : UInt16 ×ₗ UInt32 := toLex (record.bootId, record.uptimeMs)

/-- Every reading of the uptime clock is that of a record of this session, in the same order. -/
def Stamped (bootId : UInt16) (trace : List LogEvent) : Prop :=
  (appends trace).map (fun append ↦ stamp append.1) =
    (uptimes trace).map fun uptime ↦ toLex (bootId, uptime)

theorem stamped_append {bootId : UInt16} {first second : List LogEvent}
    (hfirst : Stamped bootId first) (hsecond : Stamped bootId second) :
    Stamped bootId (first ++ second) := by
  unfold Stamped at *
  rw [appends_append, uptimes_append, List.map_append, List.map_append, hfirst, hsecond]

/-- A run that neither reads the clock nor appends. -/
theorem stamped_of_nil {bootId : UInt16} {trace : List LogEvent} (huptimes : uptimes trace = [])
    (happends : appends trace = []) : Stamped bootId trace := by
  unfold Stamped
  rw [huptimes, happends]
  rfl

theorem stamp_markAnchor (anchor : Bool) (record : LogRecord) :
    stamp (markAnchor anchor record) = stamp record := by
  cases anchor with
  | false => rfl
  | true => rfl

/-- The second clock leaves the stamp of a record and is read without the first. -/
theorem stampUtc_of_runs {logger : Logger} {record stamped : LogRecord} {trace : List LogEvent}
    (hruns : (logger.stampUtc record).Runs trace stamped) :
    stamp stamped = stamp record ∧ uptimes trace = [] ∧ appends trace = [] ∧
      kvEvents trace = [] := by
  simp only [stampUtc, Prog.ask_bind, Prog.runs_call] at hruns
  obtain ⟨synced, rest, rfl, hrest⟩ := hruns
  cases synced with
  | true =>
    simp only [↓reduceIte, Prog.pure_eq, Prog.runs_call] at hrest
    obtain ⟨utc, last, rfl, rfl, rfl⟩ := hrest
    exact ⟨rfl, rfl, rfl, rfl⟩
  | false =>
    simp only [Bool.false_eq_true, ↓reduceIte] at hrest
    obtain ⟨rfl, rfl⟩ := hrest
    exact ⟨rfl, rfl, rfl, rfl⟩

/-- Building a record and giving it to the sink. -/
theorem built_of_runs {logger : Logger} {code : EventCode} {severity : Severity}
    {arg1 arg2 : UInt16} {anchor taken : Bool} {trace : List LogEvent}
    (hruns : (logger.buildRecord code severity arg1 arg2 anchor >>= appendRecord).Runs trace
      taken) :
    Stamped logger.bootId trace ∧ kvEvents trace = [] ∧ (uptimes trace).length = 1 := by
  obtain ⟨record, first, second, rfl, hbuild, happend⟩ := Prog.runs_bind.mp hruns
  simp only [buildRecord, Prog.ask_bind, Prog.runs_call] at hbuild
  obtain ⟨uptime, rest, rfl, hrest⟩ := hbuild
  obtain ⟨stamped, middle, last, rfl, hutc, rfl, rfl⟩ := Prog.runs_bind.mp hrest
  obtain ⟨taken', rest, rfl, rfl, rfl⟩ := happend
  obtain ⟨hstamp, huptimes, happends, hkv⟩ := stampUtc_of_runs hutc
  rw [List.append_nil]
  refine ⟨?_, ?_, ?_⟩
  · change List.map (fun append ↦ stamp append.1) (appends (middle ++ [_])) =
      (uptime :: uptimes (middle ++ [_])).map fun uptime ↦ toLex (logger.bootId, uptime)
    rw [appends_append, uptimes_append, huptimes, happends, List.nil_append, appends_encode,
      List.map_singleton, stamp_markAnchor, hstamp]
    rfl
  · change kvEvents (middle ++ [_]) = []
    rw [kvEvents_append, hkv]
    rfl
  · change (uptime :: uptimes (middle ++ [_])).length = 1
    rw [uptimes_append, huptimes]
    rfl

/-- The operations after `begin` leave the boot counter alone. -/
def KeepsBootId (trace : List LogEvent) : Prop :=
  ∀ event ∈ kvEvents trace, ¬ KvMap.Touches (ascii "boot_id") event

theorem keepsBootId_append {first second : List LogEvent} (hfirst : KeepsBootId first)
    (hsecond : KeepsBootId second) : KeepsBootId (first ++ second) := by
  intro event hevent
  rw [kvEvents_append] at hevent
  rcases List.mem_append.mp hevent with hmem | hmem
  · exact hfirst event hmem
  · exact hsecond event hmem

theorem keepsBootId_of_nil {trace : List LogEvent} (hkv : kvEvents trace = []) :
    KeepsBootId trace := by
  intro event hevent
  rw [hkv] at hevent
  cases hevent

theorem persistNtpFloor_of_runs {logger result : Logger} {epoch : UInt32} {trace : List KvEvent}
    (hruns : (logger.persistNtpFloor epoch).Runs trace result) :
    result.bootId = logger.bootId ∧
      ∀ event ∈ trace, ¬ KvMap.Touches (ascii "boot_id") event := by
  unfold persistNtpFloor at hruns
  split_ifs at hruns with hepoch
  · obtain ⟨rfl, rfl⟩ := hruns
    exact ⟨rfl, nofun⟩
  · simp only [Prog.ask_bind, Prog.pure_eq, Prog.runs_call] at hruns
    obtain ⟨stored, rest, rfl, rfl, rfl⟩ := hruns
    refine ⟨rfl, fun event hevent htouches ↦ ?_⟩
    obtain rfl := List.mem_singleton.mp hevent
    exact absurd htouches.1 (by decide)

/-- The anchor is a record like any other. -/
theorem onNtpSync_of_runs {logger result : Logger} {trace : List LogEvent}
    (hruns : logger.onNtpSync.Runs trace result) :
    result.bootId = logger.bootId ∧ Stamped logger.bootId trace ∧ KeepsBootId trace := by
  unfold onNtpSync at hruns
  split_ifs at hruns with hanchored
  · obtain ⟨rfl, rfl⟩ := hruns
    exact ⟨rfl, rfl, nofun⟩
  · obtain ⟨anchor, first, rest, rfl, hbuild, hrest⟩ := Prog.runs_bind.mp hruns
    obtain ⟨taken, second, rest, rfl, happend, hrest⟩ := Prog.runs_bind.mp hrest
    obtain ⟨hstamped, hkv, -⟩ :=
      built_of_runs (Prog.runs_bind.mpr ⟨anchor, first, second, rfl, hbuild, happend⟩)
    simp only [Prog.ask_bind, Prog.runs_call] at hrest
    obtain ⟨epoch, last, rfl, hfloor⟩ := hrest
    obtain ⟨hpersist, huptimes, happends⟩ := runs_onKv hfloor
    obtain ⟨hbootId, hkeeps⟩ := persistNtpFloor_of_runs hpersist
    have hlast : Stamped logger.bootId (⟨.utcEpoch, epoch⟩ :: last) :=
      stamped_of_nil huptimes happends
    have hlastKeeps : KeepsBootId (⟨.utcEpoch, epoch⟩ :: last) := hkeeps
    rw [← List.append_assoc]
    exact ⟨hbootId, stamped_append hstamped hlast,
      keepsBootId_append (keepsBootId_of_nil hkv) hlastKeeps⟩

/-! ### The boot counter -/

/-- The boot counter in the store; no counter counts as zero. -/
def storedBootId (kv : KvMap) : UInt16 :=
  UInt16.ofNat (ofLittleEndian (zeroed 2 (KvStore.getBlob kv (ascii "boot_id") 2).2))

theorem storedBootId_congr {kv kv' : KvMap}
    (hsame : kv'.blobs (ascii "boot_id") = kv.blobs (ascii "boot_id")) :
    storedBootId kv' = storedBootId kv := by
  rw [storedBootId, storedBootId, KvMap.getBlob_eq, KvMap.getBlob_eq, hsame]

/-- A counter that was stored is read back. -/
theorem storedBootId_of_blobs {kv : KvMap} {id : UInt16}
    (hstored : kv.blobs (ascii "boot_id") = some (littleEndian 2 id.toNat)) :
    storedBootId kv = id := by
  have hread : (KvStore.getBlob kv (ascii "boot_id") 2).2 = littleEndian 2 id.toNat := by
    rw [KvMap.getBlob_eq, hstored]
    exact List.take_of_length_le (length_littleEndian 2 _).le
  rw [storedBootId, hread]
  change UInt16.ofNat (ofLittleEndian (littleEndian 2 id.toNat ++ List.replicate 0 0)) = id
  rw [List.replicate_zero, List.append_nil, ofLittleEndian_littleEndian id.toNat_lt,
    UInt16.ofNat_toNat]

/-- `nextBootId` counts up and stores the count. -/
theorem nextBootId_of_runs {kv : KvMap} {trace : List KvEvent} {id : UInt16}
    (hruns : nextBootId.Runs trace id) (hfaithful : kv.Faithful trace)
    (hcounted : ∀ data, (⟨.setBlob (ascii "boot_id") data, false⟩ : KvEvent) ∉ trace) :
    id = storedBootId kv + 1 ∧ storedBootId (kv.afterAll trace) = id := by
  simp only [nextBootId, Prog.ask_bind, Prog.pure_eq, Prog.runs_call] at hruns
  obtain ⟨read, rest, rfl, stored, last, rfl, rfl, rfl⟩ := hruns
  have hread : read = KvStore.getBlob kv (ascii "boot_id") 2 := hfaithful.1
  have hstored : stored = true := by
    by_contra hfailed
    rw [Bool.not_eq_true] at hfailed
    rw [hfailed] at hcounted
    exact hcounted _ (List.mem_cons_of_mem _ List.mem_cons_self)
  refine ⟨by rw [hread]; rfl, storedBootId_of_blobs ?_⟩
  rw [hstored, KvMap.afterAll_cons, KvMap.afterAll_cons, KvMap.after_getBlob, KvMap.afterAll_nil,
    KvMap.blobs_after_setBlob, Function.update_self]

theorem loadNtpFloor_of_runs {trace : List KvEvent} {floor : UInt32}
    (hruns : loadNtpFloor.Runs trace floor) :
    ∀ event ∈ trace, ¬ KvMap.Touches (ascii "boot_id") event := by
  simp only [loadNtpFloor, Prog.ask_bind, Prog.pure_eq, Prog.runs_call] at hruns
  obtain ⟨read, rest, rfl, rfl, -⟩ := hruns
  intro event hevent htouches
  obtain rfl := List.mem_singleton.mp hevent
  exact htouches

/-- A boot on the store: the counter is read and written, and the floor is read. -/
theorem kvEvents_begin {logger result : Logger} {trace : List LogEvent}
    (hruns : logger.begin.Runs trace result) :
    ∃ read data stored floor, kvEvents trace =
      [⟨.getBlob (ascii "boot_id") 2, read⟩, ⟨.setBlob (ascii "boot_id") data, stored⟩,
        ⟨.getBlob (ascii "ntp_floor") 4, floor⟩] := by
  obtain ⟨id, first, rest, rfl, hid, hrest⟩ := Prog.runs_bind.mp hruns
  obtain ⟨floor, second, rest, rfl, hfloor, hrest⟩ := Prog.runs_bind.mp hrest
  obtain ⟨taken, third, last, rfl, hlog, rfl, rfl⟩ := Prog.runs_bind.mp hrest
  have hcount := (runs_onKv hid).1
  have hload := (runs_onKv hfloor).1
  simp only [nextBootId, Prog.ask_bind, Prog.pure_eq, Prog.runs_call] at hcount
  simp only [loadNtpFloor, Prog.ask_bind, Prog.pure_eq, Prog.runs_call] at hload
  obtain ⟨read, rest, hfirst, stored, last, rfl, rfl, -⟩ := hcount
  obtain ⟨bytes, rest, hsecond, rfl, -⟩ := hload
  refine ⟨read, _, stored, bytes, ?_⟩
  rw [kvEvents_append, kvEvents_append, kvEvents_append, hfirst, hsecond, (built_of_runs hlog).2.1]
  rfl

/-- A boot counts up, and its first record carries the count. -/
theorem begin_of_runs {kv : KvMap} {logger result : Logger} {trace : List LogEvent}
    (hruns : logger.begin.Runs trace result) (hfaithful : kv.Faithful (kvEvents trace))
    (hcounted : ∀ data, (⟨.setBlob (ascii "boot_id") data, false⟩ : KvEvent) ∉ kvEvents trace) :
    result.bootId = storedBootId kv + 1 ∧
      storedBootId (kv.afterAll (kvEvents trace)) = result.bootId ∧
      Stamped result.bootId trace ∧ (uptimes trace).length = 1 := by
  obtain ⟨id, first, rest, rfl, hid, hrest⟩ := Prog.runs_bind.mp hruns
  obtain ⟨floor, second, rest, rfl, hfloor, hrest⟩ := Prog.runs_bind.mp hrest
  obtain ⟨taken, third, last, rfl, hlog, rfl, rfl⟩ := Prog.runs_bind.mp hrest
  obtain ⟨hcount, hfirstUptimes, hfirstAppends⟩ := runs_onKv hid
  obtain ⟨hload, hsecondUptimes, hsecondAppends⟩ := runs_onKv hfloor
  obtain ⟨hstamped, hkv, hlength⟩ := built_of_runs hlog
  rw [List.append_nil] at hfaithful hcounted ⊢
  simp only [kvEvents_append, hkv, List.append_nil] at hfaithful hcounted ⊢
  obtain ⟨hnext, hstored⟩ := nextBootId_of_runs hcount (KvMap.faithful_append.mp hfaithful).1
    fun data hmem ↦ hcounted data (List.mem_append_left _ hmem)
  refine ⟨hnext, ?_, ?_, ?_⟩
  · rw [KvMap.afterAll_append, ← hstored]
    exact storedBootId_congr (KvMap.blobs_afterAll (loadNtpFloor_of_runs hload) _)
  · exact stamped_append (stamped_of_nil hfirstUptimes hfirstAppends)
      (stamped_append (stamped_of_nil hsecondUptimes hsecondAppends) hstamped)
  · rw [uptimes_append, uptimes_append, hfirstUptimes, hsecondUptimes]
    exact hlength

end Logger

end LibreSwitch.Log
