import LibreSwitch.App.CompositionRoot
import LibreSwitch.App.ControlLoop
import LibreSwitch.Log.Logger

/-!
# The log of the composed firmware

`CompositionRoot` with its logger: `begin` as far as it logs, and the ticks of the two tasks. The
control loop announces changes of the relays to `LoggingStateListener`; the net task has no part of
the logger at all.

A session in which the clock was synchronised should have an anchor: one record with both clocks, by
which a reader dates the records before it. `Logger::onNtpSync` writes it and is called nowhere. So
no run of the firmware logs an anchor (`noAnchor_of_steps`), and a session has what it should
have exactly as long as no anchor is due (`anchored_iff`).
-/

set_option autoImplicit false
set_option relaxedAutoImplicit false

namespace LibreSwitch.App

open LibreSwitch.Library LibreSwitch.Domain LibreSwitch.Platform LibreSwitch.Profiles
open LibreSwitch.Log LibreSwitch.Net

/-! ### The listener -/

namespace LoggingStateListener

/-- The value of the enumerator. -/
def sourceArg : CommandSource → UInt16
  | .local_ => 0
  | .cloud => 1
  | .lan => 2
  | .boot => 3
  | .internal => 4

/-- `LoggingStateListener::onStateChanged`: the arguments are the channel and the source. -/
def onStateChanged (logger : Logger) (change : Announcement) : Prog LogCall LogAns Unit := do
  let _ ← logger.log (if change.state = .on then .relayOn else .relayOff) .info
    (UInt16.ofNat change.channel) (sourceArg change.source)
  return ()

/-- The announcements of one operation of the coordinator. -/
def onStateChanges (logger : Logger) : List Announcement → Prog LogCall LogAns Unit
  | [] => return ()
  | change :: rest => do
    onStateChanged logger change
    onStateChanges logger rest

end LoggingStateListener

/-! ### The firmware -/

/-- The calls of the firmware on what it is composed of. `announced` hands over the changes that the
last call on the control plane announced. -/
inductive FirmwareCall
  | log (request : LogCall)
  | kv (request : KvCall)
  | bringUpAdapters (profile : DeviceProfile)
  | bringUpMqtt
  | loop (request : LoopCall)
  | announced
  | markLocalControlOk
  | consumeResetRequest
  | root (request : RootCall)

/-- What they answer. -/
abbrev FirmwareAns : FirmwareCall → Type
  | .log request => LogAns request
  | .kv request => KvAns request
  | .bringUpAdapters _ => Bool
  | .bringUpMqtt => Bool
  | .loop request => LoopAns request
  | .announced => List Announcement
  | .markLocalControlOk => Unit
  | .consumeResetRequest => Bool
  | .root request => RootAns request

/-- The objects that the two tasks keep. -/
structure Firmware where
  logger : Logger
  touch : GpioTouchSource
  root : CompositionRoot

namespace Firmware

open Prog (ask)

variable {α : Type}

/-- A part that works with the logger. -/
def onLog (program : Prog LogCall LogAns α) : Prog FirmwareCall FirmwareAns α :=
  program.embed .log fun _ ↦ Equiv.refl _

/-- A part of the composition root. -/
def onRoot (program : Prog RootCall RootAns α) : Prog FirmwareCall FirmwareAns α :=
  program.embed .root fun _ ↦ Equiv.refl _

/-- The value of the enumerator. -/
def profileArg : ProfileId → UInt16
  | .switch1G => 1
  | .switch2G => 2
  | .switch3G => 3
  | .switch4G => 4

/-- `begin` with the log bound; nothing is left of a boot that failed. -/
def begin (active : TouchActiveLevel) : Prog FirmwareCall FirmwareAns (Option Firmware) := do
  let logger ← onLog (Logger.begin {})
  let read ← ask (FirmwareCall.kv (.getBlob (ascii "profile_id") 1))
  match CompositionRoot.profileOfRead read with
  | none =>
    let _ ← onLog (logger.log .flashError .critical)
    return none
  | some profile =>
    let _ ← onLog (logger.log .profileLoaded .info (profileArg profile.id))
    let up ← ask (FirmwareCall.bringUpAdapters profile)
    if !up then return none
    else
      let mqtt ← ask FirmwareCall.bringUpMqtt
      return some { logger := logger, touch := ⟨profile, active⟩, root := .begun mqtt }

/-- A call of the control loop. A command or a touch event may change relays, and the coordinator
announces the changes. -/
def onLoop (logger : Logger) (request : LoopCall) :
    Prog FirmwareCall FirmwareAns (LoopAns request) := do
  let answer ← ask (FirmwareCall.loop request)
  match request with
  | .submit _ | .touchCall _ =>
    let changes ← ask FirmwareCall.announced
    onLog (LoggingStateListener.onStateChanges logger changes)
    return answer
  | _ => return answer

/-- The last line of `controlTick`. -/
def honourReset : Prog FirmwareCall FirmwareAns Unit := do
  let requested ← ask FirmwareCall.consumeResetRequest
  if requested then onRoot CompositionRoot.factoryReset
  else return ()

def controlTick (firmware : Firmware) : Prog FirmwareCall FirmwareAns Firmware := do
  let now ← onRoot (ask RootCall.nowMs)
  let _ ← (tick firmware.touch now).translate
    (fun _ request ↦ do
      let answer ← onLoop firmware.logger request
      return (answer, ()))
    ()
  let pending ← onRoot (ask RootCall.otaPending)
  if pending then
    ask FirmwareCall.markLocalControlOk
    honourReset
    return firmware
  else
    honourReset
    return firmware

def netTick (firmware : Firmware) : Prog FirmwareCall FirmwareAns Firmware := do
  let root ← onRoot firmware.root.netTick
  return { firmware with root := root }

/-- What the firmware does: it boots once, then its tasks tick. -/
inductive Operation
  | begin
  | controlTick
  | netTick

/-- The firmware, with the programs of its operations. After a boot that failed nothing runs. -/
def component (active : TouchActiveLevel) :
    Component FirmwareCall FirmwareAns (Option Firmware) Operation where
  handle
    | _, .begin => begin active
    | none, _ => return none
    | some firmware, .controlTick => do
      let firmware ← firmware.controlTick
      return some firmware
    | some firmware, .netTick => do
      let firmware ← firmware.netTick
      return some firmware

end Firmware

/-! ### A session -/

/-- The store, the log of the session and the system clock: whether it is synchronised, whether it
was when the last net tick started, and whether a net tick has found Wi-Fi operational then. -/
structure LogWorld where
  kv : KvMap
  log : List LogRecord := []
  synced : Bool := false
  tickSynced : Bool := false
  due : Bool := false

namespace LogWorld

/-- Another part of the firmware may have written to the store, but not the floor. -/
def OthersWrote (world world' : LogWorld) : Prop :=
  ∃ kv : KvMap, kv.blobs (ascii "ntp_floor") = world.kv.blobs (ascii "ntp_floor") ∧
    world' = { world with kv := kv }

/-- A call on the store. -/
def AnswersKv (world : LogWorld) (request : KvCall) (reply : KvAns request)
    (world' : LogWorld) : Prop :=
  ∃ kv, world.kv.Answers request reply kv ∧ world' = { world with kv := kv }

/-- The answers of the seams of the logger. -/
def AnswersLog (world : LogWorld) : (request : LogCall) → LogAns request → LogWorld → Prop
  | .uptimeMs, _, world' => world' = world
  | .ntpSynced, synced, world' => synced = world.synced ∧ world' = world
  | .utcEpoch, epoch, world' => (epoch = 0 ↔ world.synced = false) ∧ world' = world
  | .append record _, taken, world' =>
    world' = { world with
      log := if taken then world.log ++ (LogCodec.decode record).toList else world.log }
  | .kv request, reply, world' => world.AnswersKv request reply world'

/-- The answers of the objects of the composition root. Nothing comes back from a reboot. -/
def AnswersRoot (world : LogWorld) : (request : RootCall) → RootAns request → LogWorld → Prop
  | .provState, state, world' =>
    world' = { world with due := world.due || (world.tickSynced && state = .operational) }
  | .erase key, erased, world' => world.AnswersKv (.erase key) erased world'
  | .reboot, _, _ => False
  | _, _, world' => world.OthersWrote world'

/-- An answered call of the firmware. -/
def Answers (world : LogWorld) :
    (request : FirmwareCall) → FirmwareAns request → LogWorld → Prop
  | .log request, reply, world' => world.AnswersLog request reply world'
  | .kv request, reply, world' => world.AnswersKv request reply world'
  | .root request, reply, world' => world.AnswersRoot request reply world'
  | _, _, world' => world.OthersWrote world'

/-- The clock may be synchronised at any moment. -/
def setting : Setting FirmwareCall FirmwareAns LogWorld where
  answers := Answers
  interferes world world' := world' = { world with synced := true }

/-- The boot is over; a tick may start at any time. -/
def starts (world : LogWorld) : Firmware.Operation → LogWorld → Prop
  | .begin, _ => False
  | .controlTick, world' => world' = world
  | .netTick, world' => world' = { world with tickSynced := world.synced }

/-- The session has its anchor: exactly one record with the flag, with both clocks, and the floor in
the store is its epoch. -/
def Anchored (world : LogWorld) : Prop :=
  ∃ anchor, world.log.filter (fun record ↦ record.HasFlag kFlagAnchor) = [anchor] ∧
    anchor.HasFlag kFlagClockValid ∧ anchor.tsUtc ≠ 0 ∧
      world.kv.blobs (ascii "ntp_floor") = some (littleEndian 4 anchor.tsUtc.toNat)

/-- No record of the session is an anchor. -/
def NoAnchor (world : LogWorld) : Prop := ∀ record ∈ world.log, ¬ record.HasFlag kFlagAnchor

/-! ### What the firmware logs -/

/-- A call that appends no anchor. -/
def PlainLog : LogCall → Prop
  | .append record _ => ∀ decoded ∈ LogCodec.decode record, ¬ decoded.HasFlag kFlagAnchor
  | _ => True

/-- A call of the firmware that appends no anchor. -/
def Plain : FirmwareCall → Prop
  | .log request => PlainLog request
  | _ => True

theorem noAnchor_of_othersWrote {world world' : LogWorld} (hplain : NoAnchor world)
    (hwrote : world.OthersWrote world') : NoAnchor world' := by
  obtain ⟨kv, -, rfl⟩ := hwrote
  exact hplain

theorem noAnchor_of_answersKv {world world' : LogWorld} {request : KvCall}
    {reply : KvAns request} (hplain : NoAnchor world)
    (hanswers : world.AnswersKv request reply world') : NoAnchor world' := by
  obtain ⟨kv, -, rfl⟩ := hanswers
  exact hplain

theorem noAnchor_of_answersLog {world world' : LogWorld} {request : LogCall}
    {reply : LogAns request} (hrequest : PlainLog request) (hplain : NoAnchor world)
    (hanswers : world.AnswersLog request reply world') : NoAnchor world' := by
  cases request with
  | uptimeMs =>
    rw [show world' = world from hanswers]
    exact hplain
  | ntpSynced =>
    rw [hanswers.2]
    exact hplain
  | utcEpoch =>
    rw [hanswers.2]
    exact hplain
  | kv request => exact noAnchor_of_answersKv hplain hanswers
  | append bytes sortKey =>
    obtain rfl := hanswers
    intro record hrecord
    simp only at hrecord
    split at hrecord
    · rcases List.mem_append.mp hrecord with hearlier | hnew
      · exact hplain record hearlier
      · exact hrequest record (Option.mem_toList.mp hnew)
    · exact hplain record hrecord

/-- No answer to a call that appends no anchor puts one into the log. -/
theorem noAnchor_of_answers {world world' : LogWorld} {request : FirmwareCall}
    {reply : FirmwareAns request} (hrequest : Plain request) (hplain : NoAnchor world)
    (hanswers : world.Answers request reply world') : NoAnchor world' := by
  cases request with
  | log request => exact noAnchor_of_answersLog hrequest hplain hanswers
  | kv request => exact noAnchor_of_answersKv hplain hanswers
  | root request =>
    cases request with
    | provState =>
      obtain rfl := hanswers
      exact hplain
    | erase key => exact noAnchor_of_answersKv hplain hanswers
    | reboot => exact hanswers.elim
    | _ => exact noAnchor_of_othersWrote hplain hanswers
  | _ => exact noAnchor_of_othersWrote hplain hanswers

/-- `log` appends no anchor. -/
theorem asksOnly_log (logger : Logger) (code : EventCode) (severity : Severity)
    (arg1 arg2 : UInt16) : (logger.log code severity arg1 arg2).AsksOnly PlainLog := by
  have hplain (record : LogRecord) (hflags : record.flags = 0 ∨ record.flags = kFlagClockValid) :
      PlainLog (.append (LogCodec.encode record) record.uptimeMs) := by
    intro decoded hdecoded
    rw [LogCodec.decode_encode] at hdecoded
    obtain rfl := Option.some.inj hdecoded
    rcases hflags with hnone | hvalid
    · rw [LogRecord.HasFlag, hnone]
      decide
    · rw [LogRecord.HasFlag, hvalid]
      decide
  refine Prog.asksOnly_ask_bind.mpr ⟨trivial, fun uptime ↦ ?_⟩
  refine Prog.asksOnly_ask_bind.mpr ⟨trivial, fun synced ↦ ?_⟩
  cases synced with
  | true =>
    refine Prog.asksOnly_ask_bind.mpr ⟨trivial, fun utc ↦ ?_⟩
    exact ⟨hplain _ (.inr UInt8.zero_or), fun _ ↦ trivial⟩
  | false => exact ⟨hplain _ (.inl rfl), fun _ ↦ trivial⟩

theorem asksOnly_logBegin : (Logger.begin {}).AsksOnly PlainLog := by
  have hkv {α : Type} (program : Prog KvCall KvAns α) : (Logger.onKv program).AsksOnly PlainLog :=
    Prog.asksOnly_embed (Prog.asksOnly_of_forall (fun _ ↦ trivial) program)
  refine Prog.asksOnly_bind (hkv _) fun bootId ↦ Prog.asksOnly_bind (hkv _) fun floor ↦ ?_
  exact Prog.asksOnly_bind (asksOnly_log _ _ _ _ _) fun _ ↦ trivial

theorem asksOnly_onStateChanges (logger : Logger) (changes : List Announcement) :
    (LoggingStateListener.onStateChanges logger changes).AsksOnly PlainLog := by
  induction changes with
  | nil => trivial
  | cons change rest ih =>
    have hchange : (LoggingStateListener.onStateChanged logger change).AsksOnly PlainLog :=
      Prog.asksOnly_bind (asksOnly_log _ _ _ _ _) fun _ ↦ trivial
    exact Prog.asksOnly_bind hchange fun _ ↦ ih

theorem asksOnly_onLog {α : Type} {program : Prog LogCall LogAns α}
    (hprogram : program.AsksOnly PlainLog) : (Firmware.onLog program).AsksOnly Plain :=
  Prog.asksOnly_embed hprogram

/-- The composition root has no part of the logger. -/
theorem asksOnly_onRoot {α : Type} (program : Prog RootCall RootAns α) :
    (Firmware.onRoot program).AsksOnly Plain :=
  Prog.asksOnly_embed (Prog.asksOnly_of_forall (fun _ ↦ trivial) program)

theorem asksOnly_begin (active : TouchActiveLevel) : (Firmware.begin active).AsksOnly Plain := by
  refine Prog.asksOnly_bind (asksOnly_onLog asksOnly_logBegin) fun logger ↦ ?_
  refine Prog.asksOnly_ask_bind.mpr ⟨trivial, fun read ↦ ?_⟩
  split
  · exact Prog.asksOnly_bind (asksOnly_onLog (asksOnly_log _ _ _ _ _)) fun _ ↦ trivial
  · refine Prog.asksOnly_bind (asksOnly_onLog (asksOnly_log _ _ _ _ _)) fun _ ↦ ?_
    refine Prog.asksOnly_ask_bind.mpr ⟨trivial, fun up ↦ ?_⟩
    split
    · trivial
    · exact ⟨trivial, fun _ ↦ trivial⟩

theorem asksOnly_onLoop (logger : Logger) (request : LoopCall) :
    (Firmware.onLoop logger request).AsksOnly Plain := by
  have hannounced {α : Type} (answer : α) : (do
      let changes ← Prog.ask FirmwareCall.announced
      Firmware.onLog (LoggingStateListener.onStateChanges logger changes)
      return answer : Prog FirmwareCall FirmwareAns α).AsksOnly Plain :=
    Prog.asksOnly_ask_bind.mpr ⟨trivial, fun changes ↦
      Prog.asksOnly_bind (asksOnly_onLog (asksOnly_onStateChanges logger changes)) fun _ ↦ trivial⟩
  refine Prog.asksOnly_ask_bind.mpr ⟨trivial, fun answer ↦ ?_⟩
  cases request with
  | submit command => exact hannounced answer
  | touchCall call => exact hannounced answer
  | _ => trivial

theorem asksOnly_controlTick (firmware : Firmware) : firmware.controlTick.AsksOnly Plain := by
  have hreset : Firmware.honourReset.AsksOnly Plain := by
    refine Prog.asksOnly_ask_bind.mpr ⟨trivial, fun requested ↦ ?_⟩
    split
    · exact asksOnly_onRoot _
    · trivial
  refine Prog.asksOnly_bind (asksOnly_onRoot _) fun now ↦ ?_
  refine Prog.asksOnly_bind (Prog.asksOnly_translate (fun _ request ↦ ?_) _ _) fun _ ↦ ?_
  · exact Prog.asksOnly_bind (asksOnly_onLoop _ request) fun _ ↦ trivial
  · refine Prog.asksOnly_bind (asksOnly_onRoot _) fun pending ↦ ?_
    split
    · exact Prog.asksOnly_ask_bind.mpr ⟨trivial, fun _ ↦
        Prog.asksOnly_bind hreset fun _ ↦ trivial⟩
    · exact Prog.asksOnly_bind hreset fun _ ↦ trivial

/-- No operation of the firmware appends an anchor. -/
theorem asksOnly_handle (active : TouchActiveLevel) (state : Option Firmware)
    (operation : Firmware.Operation) :
    ((Firmware.component active).handle state operation).AsksOnly Plain := by
  cases operation with
  | begin =>
    cases state with
    | none => exact asksOnly_begin active
    | some firmware => exact asksOnly_begin active
  | controlTick =>
    cases state with
    | none => trivial
    | some firmware => exact Prog.asksOnly_bind (asksOnly_controlTick firmware) fun _ ↦ trivial
  | netTick =>
    cases state with
    | none => trivial
    | some firmware =>
      exact Prog.asksOnly_bind (Prog.asksOnly_bind (asksOnly_onRoot _) fun _ ↦ trivial)
        fun _ ↦ trivial

/-! ### All runs -/

/-- The configuration in which a boot starts. -/
def booting (active : TouchActiveLevel) (kv : KvMap) (synced : Bool) :
    Component.Phase FirmwareCall FirmwareAns (Option Firmware) Firmware.Operation × LogWorld :=
  (.busy .begin (Firmware.begin active), { kv := kv, synced := synced })

/-- No run of the firmware logs an anchor. -/
theorem noAnchor_of_steps {active : TouchActiveLevel} {kv : KvMap} {synced : Bool}
    {phase : Component.Phase FirmwareCall FirmwareAns (Option Firmware) Firmware.Operation}
    {world : LogWorld}
    (hsteps : (Firmware.component active).Steps setting starts (booting active kv synced)
      (phase, world)) : NoAnchor world := by
  refine (Component.request_rule (asksOnly_handle active) ?_ ?_ ?_ hsteps (asksOnly_begin active)
    nofun).2
  · intro world request reply world' hrequest hplain hanswers
    exact noAnchor_of_answers hrequest hplain hanswers
  · intro world operation world' hplain hstart
    cases operation with
    | begin => exact hstart.elim
    | controlTick =>
      rw [show world' = world from hstart]
      exact hplain
    | netTick =>
      obtain rfl := hstart
      exact hplain
  · intro world world' hplain hinterferes
    obtain rfl := hinterferes
    exact hplain

theorem not_anchored_of_noAnchor {world : LogWorld} (hplain : NoAnchor world) :
    ¬ Anchored world := by
  intro hanchored
  obtain ⟨anchor, hfilter, -⟩ := hanchored
  obtain ⟨hlogged, hflag⟩ := List.mem_filter.mp (hfilter ▸ List.mem_singleton_self anchor)
  exact hplain anchor hlogged (of_decide_eq_true hflag)

/-- In every run of the firmware, a session that ought to have its anchor has it if and only if no
net tick has found Wi-Fi operational with the clock synchronised. -/
theorem anchored_iff {active : TouchActiveLevel} {kv : KvMap} {synced : Bool}
    {state : Option Firmware} {world : LogWorld}
    (hsteps : (Firmware.component active).Steps setting starts (booting active kv synced)
      (.idle state, world)) : (world.due = true → Anchored world) ↔ world.due = false := by
  have hnot := not_anchored_of_noAnchor (noAnchor_of_steps hsteps)
  constructor
  · intro hdue
    by_contra htrue
    exact hnot (hdue (Bool.eq_true_of_not_eq_false htrue))
  · intro hfalse htrue
    rw [hfalse] at htrue
    cases htrue

/-! ### A session that is synchronised -/

/-- Seams of the logger that always work. -/
def liveLog (world : LogWorld) : (request : LogCall) → LogAns request × LogWorld
  | .uptimeMs => (1000, world)
  | .utcEpoch => (if world.synced then 1700000000 else 0, world)
  | .ntpSynced => (world.synced, world)
  | .append record _ => (true, { world with log := world.log ++ (LogCodec.decode record).toList })
  | .kv request => ((world.kv.respond request).1, { world with kv := (world.kv.respond request).2 })

/-- A device without a broker whose Wi-Fi is operational from the first net tick on. -/
def live (world : LogWorld) : (request : FirmwareCall) → Option (FirmwareAns request × LogWorld)
  | .log request => some (liveLog world request)
  | .kv request =>
    some ((world.kv.respond request).1, { world with kv := (world.kv.respond request).2 })
  | .bringUpAdapters _ => some (true, world)
  | .bringUpMqtt => some (false, world)
  | .root .nowMs => some (0, world)
  | .root (.provBegin _) => some (.operational, world)
  | .root (.provTick _) => some ((), world)
  | .root .provState => some (.operational, { world with due := world.due || world.tickSynced })
  | .root .startSntpOnce => some ((), world)
  | .root (.setStatus _) => some ((), world)
  | .root .otaPending => some (false, world)
  | _ => none

theorem othersWrote_refl (world : LogWorld) : world.OthersWrote world := ⟨world.kv, rfl, rfl⟩

theorem answersLog_liveLog (world : LogWorld) (request : LogCall) :
    world.AnswersLog request (liveLog world request).1 (liveLog world request).2 := by
  cases request with
  | uptimeMs => exact rfl
  | utcEpoch =>
    refine ⟨?_, rfl⟩
    change (if world.synced then (1700000000 : UInt32) else 0) = 0 ↔ _
    cases world.synced <;> decide
  | ntpSynced => exact ⟨rfl, rfl⟩
  | append record sortKey => exact rfl
  | kv request => exact ⟨_, world.kv.answers_respond request, rfl⟩

theorem answers_live (world : LogWorld) (request : FirmwareCall)
    (reply : FirmwareAns request × LogWorld) (hreply : live world request = some reply) :
    setting.answers world request reply.1 reply.2 := by
  cases request with
  | log request =>
    obtain rfl := Option.some.inj hreply
    exact answersLog_liveLog world request
  | kv request =>
    obtain rfl := Option.some.inj hreply
    exact ⟨_, world.kv.answers_respond request, rfl⟩
  | root request =>
    cases request with
    | provState =>
      obtain rfl := Option.some.inj hreply
      change _ = _
      simp
    | nowMs | provBegin | provTick | startSntpOnce | setStatus | otaPending =>
      obtain rfl := Option.some.inj hreply
      exact othersWrote_refl world
    | _ => cases hreply
  | bringUpAdapters | bringUpMqtt =>
    obtain rfl := Option.some.inj hreply
    exact othersWrote_refl world
  | _ => cases hreply

/-- A store with the profile of a four-gang device. -/
def seededStore : KvMap := ⟨Function.update (fun _ ↦ none) (ascii "profile_id") (some [4])⟩

theorem isSome_booted :
    ((Firmware.begin .activeHigh).tryRunOn live { kv := seededStore }).isSome = true := by rfl

/-- The firmware after its boot. -/
def booted : Option Firmware × LogWorld :=
  ((Firmware.begin .activeHigh).tryRunOn live { kv := seededStore }).get isSome_booted

/-- The clock is synchronised when a net tick starts. -/
def synchronised : LogWorld := { booted.2 with synced := true, tickSynced := true }

theorem isSome_ticked : (((Firmware.component .activeHigh).handle booted.1 .netTick).tryRunOn live
    synchronised).isSome = true := by rfl

/-- The firmware after this net tick. -/
def ticked : Option Firmware × LogWorld :=
  (((Firmware.component .activeHigh).handle booted.1 .netTick).tryRunOn live synchronised).get
    isSome_ticked

theorem steps_ticked : (Firmware.component .activeHigh).Steps setting starts
    (booting .activeHigh seededStore false) (.idle ticked.1, ticked.2) := by
  have hboot : (Firmware.component .activeHigh).Steps setting starts
      (booting .activeHigh seededStore false) (.idle booted.1, booted.2) :=
    Component.steps_tryRunOn answers_live _ (Option.some_get isSome_booted).symm
  have htick : (Firmware.component .activeHigh).Steps setting starts
      (.busy .netTick ((Firmware.component .activeHigh).handle booted.1 .netTick), synchronised)
      (.idle ticked.1, ticked.2) :=
    Component.steps_tryRunOn answers_live _ (Option.some_get isSome_ticked).symm
  have hsync : setting.interferes booted.2 { booted.2 with synced := true } := rfl
  have hstart : starts { booted.2 with synced := true } .netTick synchronised := rfl
  exact hboot.trans (.head (.interfere hsync) (.head (.start hstart) htick))

theorem due_ticked : ticked.2.due = true := by rfl

theorem anchored_iff_witness : ¬ (ticked.2.due = true → Anchored ticked.2) := by
  intro hclaim
  have hfalse := (anchored_iff steps_ticked).mp hclaim
  rw [due_ticked] at hfalse
  cases hfalse

/-- A net tick with the clock synchronised and Wi-Fi operational leaves the session without an
anchor. -/
theorem anchored_false_ticked :
    ¬ ∀ (active : TouchActiveLevel) (kv : KvMap) (synced : Bool) (state : Option Firmware)
      (world : LogWorld),
      (Firmware.component active).Steps setting starts (booting active kv synced)
        (.idle state, world) → world.due = true → Anchored world := by
  intro hall
  obtain ⟨anchor, hfilter, -⟩ := hall _ _ _ _ _ steps_ticked due_ticked
  have hnone : ticked.2.log.filter (fun record ↦ record.HasFlag kFlagAnchor) = [] := by decide
  rw [hnone] at hfilter
  cases hfilter

end LogWorld

end LibreSwitch.App
