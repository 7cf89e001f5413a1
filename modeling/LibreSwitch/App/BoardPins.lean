import LibreSwitch.Adapters.FlashDbStatePersistence
import LibreSwitch.Adapters.GpioRelaySink
import LibreSwitch.App.CompositionRoot
import LibreSwitch.App.ControlLoop

/-!
# The pins of the board during a boot

`setup` of `main.cpp` with the part of `CompositionRoot::begin` that reaches the pins: the relays
are parked, the store may be seeded, `begin` binds the store and the log, resolves the profile,
brings up the adapters (`GpioRelaySink`, `GpioTouchSource`, `GpioIndicatorSink`) and applies the
boot state. Whether the partitions bind and what the store reads is up to the world, and so is what
the logger's own `begin` leaves of the store.

Every write to a pin is recorded in order, so a loss of power is a prefix of the record.
`setup_keeps_relays_off` says that no relay is driven on before its state has been decided, on no
path that fails, and on the path that succeeds only as the stored state asks for it.

What `begin` does after the boot state reaches no pin and is left out here.
-/

set_option autoImplicit false
set_option relaxedAutoImplicit false

namespace LibreSwitch.App

open LibreSwitch.Library LibreSwitch.Domain LibreSwitch.Adapters LibreSwitch.Platform
open LibreSwitch.Profiles

/-! ### The pins -/

/-- `RELAY_PIN_0` to `RELAY_PIN_3`. -/
def relayPins : List UInt8 :=
  [kRefCh0.relayPin, kRefCh1.relayPin, kRefCh2.relayPin, kRefCh3.relayPin]

/-- `kStatusLedPin`. -/
def kStatusLedPin : UInt8 := 22

/-- `kBacklightPin`. -/
def kBacklightPin : UInt8 := 23

/-- `parkRelaysSafe`: every relay pin becomes an output at its off level. -/
def parkRelaysSafe (polarity : RelayPolarity) (pins : PinLog) : PinLog :=
  let off : Bool := polarity = .activeLow
  relayPins.foldl
    (fun log pin ↦ GpioHal.writePin (GpioHal.configureOutput log pin) pin off) pins

/-- `IndicatorPolarity`. -/
inductive IndicatorPolarity
  | activeHigh
  | activeLow
  deriving DecidableEq, Repr

/-- `GpioIndicatorSink`, with the pins it takes from the profile. -/
structure GpioIndicatorSink where
  statusLedPin : UInt8 := kStatusLedPin
  backlightPin : UInt8 := kBacklightPin
  polarity : IndicatorPolarity := .activeHigh

namespace GpioIndicatorSink

def driveLevel (sink : GpioIndicatorSink) (pins : PinLog) (pin : UInt8) (on : Bool) : PinLog :=
  let high := if sink.polarity = .activeHigh then on else !on
  GpioHal.writePin pins pin high

/-- `begin`: the LED and the backlight, if there is one, become outputs that are off. -/
def begin (sink : GpioIndicatorSink) (pins : PinLog) : PinLog :=
  let pins := sink.driveLevel (GpioHal.configureOutput pins sink.statusLedPin) sink.statusLedPin
    false
  if sink.backlightPin ≠ kNoPin then
    sink.driveLevel (GpioHal.configureOutput pins sink.backlightPin) sink.backlightPin false
  else pins

end GpioIndicatorSink

/-- The loop of `GpioTouchSource::begin` over the channels still to configure: the inputs it
configures, each with its pull. -/
def GpioTouchSource.beginLoop (touch : GpioTouchSource) :
    List ℕ → List (UInt8 × Bool) → Status × List (UInt8 × Bool)
  | [], inputs => (.success, inputs)
  | channel :: rest, inputs =>
    if (touch.profile.channels channel).touchPin = kNoPin then (.fail .invalidArgument, inputs)
    else
      touch.beginLoop rest
        (inputs ++ [((touch.profile.channels channel).touchPin,
          decide (touch.active = .activeLow))])

/-- `GpioTouchSource::begin`. -/
def GpioTouchSource.begin (touch : GpioTouchSource) (inputs : List (UInt8 × Bool)) :
    Status × List (UInt8 × Bool) :=
  touch.beginLoop (List.range touch.profile.channelCount) inputs

/-! ### The boot -/

/-- The flags of a build: `RELAY_ACTIVE_LOW`, `TOUCH_ACTIVE_LOW`, `SEED_PROFILE_ID` and
`SEED_ENROLL_TOKEN`. -/
structure Build where
  relayPolarity : RelayPolarity := .activeHigh
  touchLevel : TouchActiveLevel := .activeHigh
  seedProfile : Option UInt8 := none
  seedToken : Option Bytes := none

/-- What a boot finds: the store, whether it can be bound for each seed and for `begin`, whether the
log can be bound, and what the logger's `begin` leaves of the store. -/
structure BootWorld (κ : Type) where
  kv : κ
  seedProfileBinds : Bool := true
  seedTokenBinds : Bool := true
  kvBinds : Bool := true
  logBinds : Bool := true
  logged : κ → κ := id

/-- The objects that `begin` constructs over the pins. -/
structure Plane where
  relays : RelayController (GpioRelaySink PinLog)
  engine : TouchInput
  inputs : List (UInt8 × Bool) := []

/-- What a boot leaves: whether it succeeded, the record of the pins and, if a profile was resolved,
the objects. -/
structure Booted where
  ok : Bool
  pins : PinLog
  plane : Option Plane := none

section Code

variable {κ : Type} [KvStore κ]

/-- A call on a store. -/
def respondKv (kv : κ) : (request : KvCall) → KvAns request × κ
  | .setBlob key data => KvStore.setBlob kv key data
  | .getBlob key bufLen => (KvStore.getBlob kv key bufLen, kv)
  | .erase key => KvStore.erase kv key

/-- The store behind the seeds of a build. -/
def seeded (build : Build) (world : BootWorld κ) : κ :=
  let kv := match build.seedProfile with
    | none => world.kv
    | some id => ((CompositionRoot.seedProfileId world.seedProfileBinds id).runOn respondKv
        world.kv).2
  match build.seedToken with
  | none => kv
  | some token =>
    ((CompositionRoot.seedEnrollToken world.seedTokenBinds (some token)).runOn respondKv kv).2

/-- The store from which `begin` resolves the profile. -/
def bootStore (build : Build) (world : BootWorld κ) : κ :=
  if world.logBinds then world.logged (seeded build world) else seeded build world

/-- Work of another adapter on the pins that the relay sink holds. -/
def onPins (work : PinLog → PinLog) (relays : RelayController (GpioRelaySink PinLog)) :
    RelayController (GpioRelaySink PinLog) :=
  { relays with sink := { relays.sink with hal := work relays.sink.hal } }

/-- `bringUpAdapters`: whether all succeeded, and the objects as they were left. -/
def bringUpAdapters (build : Build) (profile : DeviceProfile) (plane : Plane) : Bool × Plane :=
  let (begun, sink) := plane.relays.sink.begin
  let plane := { plane with relays := { plane.relays with sink := sink } }
  if !begun.ok then (false, plane)
  else
    let touch : GpioTouchSource := { profile := profile, active := build.touchLevel }
    let (configured, inputs) := touch.begin plane.inputs
    let plane := { plane with inputs := inputs }
    if !configured.ok then (false, plane)
    else
      let indicator : GpioIndicatorSink := {}
      let plane := { plane with relays := onPins indicator.begin plane.relays }
      let (started, relays) := plane.relays.init profile.channelCount
      let plane := { plane with relays := relays }
      if !started.ok then (false, plane)
      else
        let (watching, engine) := plane.engine.init profile.channelCount
        (watching.ok, { plane with engine := engine })

/-- `CompositionRoot::begin`, as far as the pins are concerned. -/
def begin (build : Build) (world : BootWorld κ) (pins : PinLog) : Booted :=
  if !world.kvBinds then { ok := false, pins := pins }
  else
    match CompositionRoot.resolveProfile (bootStore build world) with
    | none => { ok := false, pins := pins }
    | some profile =>
      let sink : GpioRelaySink PinLog :=
        { hal := pins, profile := profile, polarity := build.relayPolarity }
      let (up, plane) := bringUpAdapters build profile
        { relays := { sink := sink }, engine := { config := {} } }
      if !up then { ok := false, pins := plane.relays.sink.hal, plane := plane }
      else
        let persist : FlashDbStatePersistence κ := ⟨bootStore build world⟩
        let relays := (BootPolicy.applyBootState plane.relays persist .restoreLast).2
        { ok := true, pins := relays.sink.hal, plane := some { plane with relays := relays } }

/-- `setup`, up to the creation of the tasks. -/
def setup (build : Build) (world : BootWorld κ) : Booted :=
  begin build world (parkRelaysSafe build.relayPolarity {})

end Code

/-! ### What the parts write -/

/-- The writes that give some channels of a sink their states. -/
def relayWrites (profile : DeviceProfile) (polarity : RelayPolarity) (target : ℕ → RelayState)
    (channels : List ℕ) : List (UInt8 × Bool) :=
  channels.map fun channel ↦
    ((profile.channels channel).relayPin, GpioRelaySink.level polarity (target channel))

/-- A record with more writes behind it. -/
def PinLog.wrote (pins : PinLog) (more : List (UInt8 × Bool)) : PinLog :=
  { pins with writes := pins.writes ++ more }

/-- A registered profile has between one and four channels, on pins that are real. -/
structure Registered (profile : DeviceProfile) : Prop where
  count_pos : 0 < profile.channelCount
  count_le : profile.channelCount ≤ kMaxChannels
  relayPin_ne : ∀ channel < profile.channelCount,
    (profile.channels channel).relayPin ≠ kNoPin
  touchPin_ne : ∀ channel < profile.channelCount,
    (profile.channels channel).touchPin ≠ kNoPin

theorem mem_kProfiles_of_resolve {κ : Type} [KvStore κ] {kv : κ} {profile : DeviceProfile}
    (hresolve : CompositionRoot.resolveProfile kv = some profile) : profile ∈ kProfiles := by
  unfold CompositionRoot.resolveProfile CompositionRoot.profileOfRead at hresolve
  split_ifs at hresolve
  unfold ProfileResolver.resolveRaw at hresolve
  split at hresolve
  · exact List.mem_of_find?_eq_some hresolve
  · exact List.mem_of_find?_eq_some hresolve
  · exact List.mem_of_find?_eq_some hresolve
  · exact List.mem_of_find?_eq_some hresolve
  · cases hresolve

theorem registered_of_mem {profile : DeviceProfile} (hmem : profile ∈ kProfiles) :
    Registered profile := by
  obtain ⟨⟨hpos, hle⟩, hreal, -⟩ := kProfiles_pins profile hmem
  exact ⟨hpos, hle, fun channel hchannel ↦ (hreal channel hchannel).1,
    fun channel hchannel ↦ (hreal channel hchannel).2⟩

/-- The relays of a sink, driven one after the other. -/
theorem sink_applyEach {relays : RelayController (GpioRelaySink PinLog)}
    (hreal : ∀ channel < relays.sink.profile.channelCount,
      (relays.sink.profile.channels channel).relayPin ≠ kNoPin)
    (target : ℕ → RelayState) {bound : ℕ} (hbound : bound ≤ relays.sink.profile.channelCount) :
    (relays.applyEach target bound).sink =
      { relays.sink with
        hal := PinLog.wrote relays.sink.hal
          (relayWrites relays.sink.profile relays.sink.polarity target (List.range bound)) } := by
  induction bound with
  | zero => simp [PinLog.wrote, relayWrites]
  | succ bound ih =>
    have hbefore := ih (by omega)
    have hpresent : bound < (relays.applyEach target bound).sink.profile.channelCount := by
      rw [hbefore]
      exact hbound
    have hpin : ((relays.applyEach target bound).sink.profile.channels bound).relayPin ≠
        kNoPin := by
      rw [hbefore]
      exact hreal bound hbound
    rw [RelayController.applyEach_succ, RelayController.applyState,
      GpioRelaySink.driveRelay_of_present hpresent hpin]
    simp only [hbefore, GpioRelaySink.writeRelay, PinLog.wrote, relayWrites, GpioHal.writePin,
      List.range_succ, List.map_append, List.map_cons, List.map_nil, List.append_assoc]

theorem beginLoop_of_real {channels : List ℕ} {sink : GpioRelaySink PinLog}
    (hreal : ∀ channel ∈ channels, (sink.profile.channels channel).relayPin ≠ kNoPin) :
    (GpioRelaySink.beginLoop channels sink).1 = .success ∧
      (GpioRelaySink.beginLoop channels sink).2.profile = sink.profile ∧
      (GpioRelaySink.beginLoop channels sink).2.polarity = sink.polarity ∧
      (GpioRelaySink.beginLoop channels sink).2.hal.writes = sink.hal.writes ++
        relayWrites sink.profile sink.polarity (fun _ ↦ .off) channels := by
  induction channels generalizing sink with
  | nil => exact ⟨rfl, rfl, rfl, (List.append_nil _).symm⟩
  | cons channel rest ih =>
    have hpin := hreal channel List.mem_cons_self
    obtain ⟨hok, hprofile, hpolarity, hwrites⟩ := @ih
      ((sink.configureOutput (sink.profile.channels channel).relayPin).writeRelay
        (sink.profile.channels channel).relayPin .off)
      fun other hother ↦ hreal other (List.mem_cons_of_mem _ hother)
    rw [GpioRelaySink.beginLoop, if_neg hpin]
    refine ⟨hok, hprofile, hpolarity, ?_⟩
    rw [hwrites]
    exact List.append_assoc _ [_] _

theorem touchLoop_of_real {touch : GpioTouchSource} {channels : List ℕ}
    (hreal : ∀ channel ∈ channels, (touch.profile.channels channel).touchPin ≠ kNoPin)
    (inputs : List (UInt8 × Bool)) :
    touch.beginLoop channels inputs = (.success, inputs ++ channels.map fun channel ↦
      ((touch.profile.channels channel).touchPin, decide (touch.active = .activeLow))) := by
  induction channels generalizing inputs with
  | nil => exact congrArg (Prod.mk _) (List.append_nil inputs).symm
  | cons channel rest ih =>
    rw [GpioTouchSource.beginLoop, if_neg (hreal channel List.mem_cons_self),
      ih fun other hother ↦ hreal other (List.mem_cons_of_mem _ hother), List.append_assoc]
    rfl

/-- The pins of the indicator, both off. -/
def indicatorWrites : List (UInt8 × Bool) := [(kStatusLedPin, false), (kBacklightPin, false)]

theorem writes_indicatorBegin (pins : PinLog) :
    (({} : GpioIndicatorSink).begin pins).writes = pins.writes ++ indicatorWrites :=
  List.append_assoc pins.writes [_] [_]

theorem writes_parkRelaysSafe (polarity : RelayPolarity) :
    (parkRelaysSafe polarity {}).writes =
      relayPins.map fun pin ↦ (pin, GpioRelaySink.level polarity .off) := by
  cases polarity <;> rfl

/-- The adapters of a registered profile come up, with every relay of the profile off. -/
theorem bringUpAdapters_of_registered {build : Build} {profile : DeviceProfile}
    (hregistered : Registered profile) (pins : PinLog) :
    let sink : GpioRelaySink PinLog :=
      { hal := pins, profile := profile, polarity := build.relayPolarity }
    let off := relayWrites profile build.relayPolarity (fun _ ↦ .off)
      (List.range profile.channelCount)
    let up := bringUpAdapters build profile
      { relays := { sink := sink }, engine := { config := {} } }
    up.1 = true ∧ up.2.relays.initialized = true ∧ up.2.relays.count = profile.channelCount ∧
      up.2.relays.sink.profile = profile ∧ up.2.relays.sink.polarity = build.relayPolarity ∧
      up.2.relays.sink.hal.writes = pins.writes ++ off ++ indicatorWrites ++ off ∧
      up.2.inputs = (List.range profile.channelCount).map fun channel ↦
        ((profile.channels channel).touchPin, decide (build.touchLevel = .activeLow)) := by
  intro sink off up
  have hrelays : ∀ channel ∈ List.range profile.channelCount,
      (profile.channels channel).relayPin ≠ kNoPin :=
    fun channel hchannel ↦ hregistered.relayPin_ne channel (List.mem_range.mp hchannel)
  have htouch : ∀ channel ∈ List.range profile.channelCount,
      (profile.channels channel).touchPin ≠ kNoPin :=
    fun channel hchannel ↦ hregistered.touchPin_ne channel (List.mem_range.mp hchannel)
  have hcount : ¬ (profile.channelCount = 0 ∨ profile.channelCount > kMaxChannels) := by
    have hpos := hregistered.count_pos
    have hle := hregistered.count_le
    omega
  obtain ⟨hok, hprofile, hpolarity, hwrites⟩ := @beginLoop_of_real _ sink hrelays
  obtain ⟨begun, hbegun⟩ : ∃ begun, sink.begin = (.success, begun) :=
    ⟨sink.begin.2, Prod.ext hok rfl⟩
  have hloop : GpioRelaySink.beginLoop (List.range profile.channelCount) sink =
      (.success, begun) := hbegun
  rw [hloop] at hprofile hpolarity hwrites
  have hconfigured := @touchLoop_of_real { profile := profile, active := build.touchLevel } _
    htouch []
  -- what `init` works on: the sink behind the two other adapters
  let counted : RelayController (GpioRelaySink PinLog) :=
    { onPins ({} : GpioIndicatorSink).begin { sink := begun } with count := profile.channelCount }
  have hcounted : counted.sink.profile = profile := hprofile
  have hsink := sink_applyEach (hcounted ▸ hregistered.relayPin_ne) (fun _ ↦ .off)
    (le_of_eq (congrArg DeviceProfile.channelCount hcounted.symm))
  have hup : up = (true,
      { relays := { counted.applyEach (fun _ ↦ .off) profile.channelCount with initialized := true }
        engine := (TouchInput.init { config := {} } profile.channelCount).2
        inputs := (List.range profile.channelCount).map fun channel ↦
          ((profile.channels channel).touchPin, decide (build.touchLevel = .activeLow)) }) := by
    simp only [up, bringUpAdapters, hbegun, GpioTouchSource.begin, hconfigured,
      RelayController.init, TouchInput.init, if_neg hcount]
    rfl
  rw [hup]
  refine ⟨rfl, rfl, ?_, ?_, ?_, ?_, rfl⟩
  · exact RelayController.count_applyEach counted _ _
  · exact (congrArg GpioRelaySink.profile hsink).trans hprofile
  · exact (congrArg GpioRelaySink.polarity hsink).trans hpolarity
  · have hpins : counted.sink.hal.writes = pins.writes ++ off ++ indicatorWrites := by
      rw [← hwrites]
      exact writes_indicatorBegin begun.hal
    have hdriven : relayWrites counted.sink.profile counted.sink.polarity (fun _ ↦ .off)
        (List.range profile.channelCount) = off := by
      rw [hcounted, show counted.sink.polarity = build.relayPolarity from hpolarity]
    rw [← hpins, ← hdriven]
    exact congrArg (fun sink ↦ sink.hal.writes) hsink

/-! ### The boot -/

/-- The last writes to a pin decide its level. -/
theorem lastLevel_of_writes {pins : PinLog} {earlier later : List (UInt8 × Bool)} {pin : UInt8}
    {high : Bool} (hwrites : pins.writes = earlier ++ later)
    (hall : ∀ write ∈ later, write.1 = pin → write.2 = high)
    (hsome : ∃ write ∈ later, write.1 = pin) : pins.lastLevel pin = some high := by
  obtain ⟨write, hwrite, hpin⟩ := hsome
  have hmem : write ∈ later.filter fun write ↦ write.1 = pin :=
    List.mem_filter.mpr ⟨hwrite, decide_eq_true hpin⟩
  have hne : later.filter (fun write ↦ write.1 = pin) ≠ [] := List.ne_nil_of_mem hmem
  have hlast := List.getLast_mem hne
  obtain ⟨hlater, hlastPin⟩ := List.mem_filter.mp hlast
  rw [PinLog.lastLevel, hwrites, List.filter_append, List.getLast?_append_of_ne_nil _ hne,
    List.getLast?_eq_some_getLast hne, Option.map_some,
    hall _ hlater (of_decide_eq_true hlastPin)]

/-- The states that a boot gives the channels. -/
def bootStates {κ : Type} [KvStore κ] (build : Build) (world : BootWorld κ) : ℕ → RelayState :=
  BootPolicy.bootTarget (FlashDbStatePersistence.mk (bootStore build world)) .restoreLast

/-- A registered profile takes its relays from the front of the relay pins, and its touch pads,
the LED and the backlight are on other pins. -/
theorem kProfiles_relayPins : ∀ profile ∈ kProfiles,
    (∀ channel < profile.channelCount,
      relayPins[channel]? = some (profile.channels channel).relayPin ∧
        (profile.channels channel).touchPin ∉ relayPins) ∧
      kStatusLedPin ∉ relayPins ∧ kBacklightPin ∉ relayPins := by
  decide

/-- No relay pin stands for two channels. -/
theorem relayPins_inj {first second : ℕ} (hsome : relayPins[first]?.isSome)
    (hsame : relayPins[first]? = relayPins[second]?) : first = second := by
  obtain ⟨pin, hpin⟩ := Option.isSome_iff_exists.mp hsome
  have hlength : first < relayPins.length := (List.getElem?_eq_some_iff.mp hpin).1
  exact (List.getElem?_inj hlength (by decide)).mp hsame

theorem mem_relayWrites {profile : DeviceProfile} {polarity : RelayPolarity}
    {target : ℕ → RelayState} {bound : ℕ} {write : UInt8 × Bool} :
    write ∈ relayWrites profile polarity target (List.range bound) ↔
      ∃ channel < bound, write =
        ((profile.channels channel).relayPin, GpioRelaySink.level polarity (target channel)) := by
  simp [relayWrites, eq_comm]

section Boot

variable {κ : Type} [KvStore κ] {build : Build} {world : BootWorld κ}

/-- A boot that finds no store or no profile has only parked the relays. -/
theorem setup_of_fault (hfault : world.kvBinds = false ∨
    CompositionRoot.resolveProfile (bootStore build world) = none) :
    setup build world = { ok := false, pins := parkRelaysSafe build.relayPolarity {} } := by
  rw [setup, begin]
  cases hbinds : world.kvBinds with
  | false => rfl
  | true =>
    rcases hfault with hnone | hnone
    · rw [hbinds] at hnone
      cases hnone
    · rw [hnone]
      rfl

/-- A boot that finds both succeeds, and drives every relay off twice before it drives it to its
state. -/
theorem setup_of_profile {profile : DeviceProfile} (hbinds : world.kvBinds = true)
    (hprofile : CompositionRoot.resolveProfile (bootStore build world) = some profile) :
    ∃ plane, (setup build world).ok = true ∧ (setup build world).plane = some plane ∧
      (plane.relays.initialized = true ∧ plane.relays.sink.profile = profile ∧
        plane.relays.sink.polarity = build.relayPolarity ∧
        plane.relays.sink.hal = (setup build world).pins) ∧
      plane.relays.count = profile.channelCount ∧
      (∀ channel < profile.channelCount,
        plane.relays.state channel = bootStates build world channel) ∧
      (plane.inputs = (List.range profile.channelCount).map fun channel ↦
        ((profile.channels channel).touchPin, decide (build.touchLevel = .activeLow))) ∧
      (setup build world).pins.writes = (parkRelaysSafe build.relayPolarity {}).writes ++
        relayWrites profile build.relayPolarity (fun _ ↦ .off) (List.range profile.channelCount) ++
        indicatorWrites ++
        relayWrites profile build.relayPolarity (fun _ ↦ .off) (List.range profile.channelCount) ++
        relayWrites profile build.relayPolarity (bootStates build world)
          (List.range profile.channelCount) := by
  have hregistered := registered_of_mem (mem_kProfiles_of_resolve hprofile)
  obtain ⟨hup, hinitialized, hcount, hsink, hpolarity, hwrites, hinputs⟩ :=
    @bringUpAdapters_of_registered build profile hregistered (parkRelaysSafe build.relayPolarity {})
  let up := bringUpAdapters build profile
    { relays := { sink :=
        { hal := parkRelaysSafe build.relayPolarity {}, profile := profile,
          polarity := build.relayPolarity } },
      engine := { config := {} } }
  have hboot := BootPolicy.applyBootState_eq hinitialized
    (FlashDbStatePersistence.mk (bootStore build world)) .restoreLast
  have hsetup : setup build world =
      { ok := true
        pins := (up.2.relays.applyEach (bootStates build world) up.2.relays.count).sink.hal
        plane := some { up.2 with
          relays := up.2.relays.applyEach (bootStates build world) up.2.relays.count } } := by
    rw [setup, begin, hbinds, hprofile]
    simp only [Bool.not_true, Bool.false_eq_true, if_false, hup, hboot]
    rfl
  have hdriven := sink_applyEach (by rw [hsink]; exact hregistered.relayPin_ne)
    (bootStates build world) (by rw [hsink, hcount] : up.2.relays.count ≤ _)
  rw [hsetup]
  refine ⟨_, rfl, rfl, ⟨?_, ?_, ?_, rfl⟩, ?_, fun channel hchannel ↦ ?_, hinputs, ?_⟩
  · exact (RelayController.initialized_applyEach _ _ _).trans hinitialized
  · exact (congrArg GpioRelaySink.profile hdriven).trans hsink
  · exact (congrArg GpioRelaySink.polarity hdriven).trans hpolarity
  · exact (RelayController.count_applyEach _ _ _).trans hcount
  · exact RelayController.state_applyEach up.2.relays _ (hcount ▸ hchannel)
  · have hpins :
        (up.2.relays.applyEach (bootStates build world) up.2.relays.count).sink.hal.writes =
        up.2.relays.sink.hal.writes ++ relayWrites up.2.relays.sink.profile
          up.2.relays.sink.polarity (bootStates build world) (List.range up.2.relays.count) :=
      congrArg (fun sink ↦ sink.hal.writes) hdriven
    rw [hsink, hpolarity, hcount, hwrites] at hpins
    rw [hcount]
    exact hpins

/-- Writes that leave every relay pin off which they touch. -/
def LeavesOff (polarity : RelayPolarity) (writes : List (UInt8 × Bool)) : Prop :=
  ∀ write ∈ writes, write.1 ∈ relayPins → write.2 = GpioRelaySink.level polarity .off

theorem leavesOff_append {polarity : RelayPolarity} {first second : List (UInt8 × Bool)}
    (hfirst : LeavesOff polarity first) (hsecond : LeavesOff polarity second) :
    LeavesOff polarity (first ++ second) :=
  fun write hwrite ↦ (List.mem_append.mp hwrite).elim (hfirst write) (hsecond write)

theorem leavesOff_park (polarity : RelayPolarity) :
    LeavesOff polarity (parkRelaysSafe polarity {}).writes := by
  rw [writes_parkRelaysSafe]
  intro write hwrite _
  obtain ⟨pin, -, rfl⟩ := List.mem_map.mp hwrite
  rfl

theorem leavesOff_relayWrites (profile : DeviceProfile) (polarity : RelayPolarity) (bound : ℕ) :
    LeavesOff polarity (relayWrites profile polarity (fun _ ↦ .off) (List.range bound)) := by
  intro write hwrite _
  obtain ⟨channel, -, rfl⟩ := mem_relayWrites.mp hwrite
  rfl

theorem leavesOff_indicator (polarity : RelayPolarity) : LeavesOff polarity indicatorWrites := by
  have hpins : (indicatorWrites.all fun write ↦ !relayPins.contains write.1) = true := by rfl
  intro write hwrite hrelay
  have hother := List.all_eq_true.mp hpins write hwrite
  rw [List.contains_iff_mem.mpr hrelay] at hother
  cases hother

/-- Behind parked relays and writes that leave them off, a relay pin is off. -/
theorem lastLevel_of_leavesOff {pins : PinLog} {polarity : RelayPolarity}
    {more : List (UInt8 × Bool)}
    (hwrites : pins.writes = (parkRelaysSafe polarity {}).writes ++ more)
    (hmore : LeavesOff polarity more) {pin : UInt8} (hpin : pin ∈ relayPins) :
    pins.lastLevel pin = some (GpioRelaySink.level polarity .off) := by
  have hsome : (pin, GpioRelaySink.level polarity .off) ∈ (parkRelaysSafe polarity {}).writes := by
    rw [writes_parkRelaysSafe]
    exact List.mem_map_of_mem hpin
  refine lastLevel_of_writes (by rw [hwrites]; exact (List.nil_append _).symm)
    (fun write hwrite heq ↦ ?_) ⟨_, List.mem_append_left _ hsome, rfl⟩
  exact leavesOff_append (leavesOff_park polarity) hmore write hwrite (heq ▸ hpin)

/-- Behind writes that leave the relays off, parked ones among them, and one write for each channel
of a profile, every relay pin has the level of its channel, off if there is none. -/
theorem lastLevel_of_decided {profile : DeviceProfile} (hmem : profile ∈ kProfiles)
    {polarity : RelayPolarity} {target : ℕ → RelayState} {early : List (UInt8 × Bool)}
    (hearly : LeavesOff polarity early)
    (hparked : (parkRelaysSafe polarity {}).writes ⊆ early) {pins : PinLog}
    (hwrites : pins.writes =
      early ++ relayWrites profile polarity target (List.range profile.channelCount))
    {channel : ℕ} {pin : UInt8} (hpin : relayPins[channel]? = some pin) :
    pins.lastLevel pin = some (GpioRelaySink.level polarity
      (if channel < profile.channelCount then target channel else .off)) := by
  obtain ⟨hpins, -, -⟩ := kProfiles_relayPins profile hmem
  have honly : ∀ other < profile.channelCount,
      (profile.channels other).relayPin = pin → other = channel := by
    intro other hother heq
    have hsame : relayPins[other]? = relayPins[channel]? := by
      rw [(hpins other hother).1, heq, hpin]
    exact relayPins_inj (by rw [hsame, hpin]; rfl) hsame
  by_cases hpresent : channel < profile.channelCount
  · rw [if_pos hpresent]
    have hown : (profile.channels channel).relayPin = pin :=
      Option.some.inj ((hpins channel hpresent).1.symm.trans hpin)
    refine lastLevel_of_writes hwrites (fun write hwrite heq ↦ ?_)
      ⟨_, mem_relayWrites.mpr ⟨channel, hpresent, rfl⟩, hown⟩
    obtain ⟨other, hother, rfl⟩ := mem_relayWrites.mp hwrite
    rw [honly other hother heq]
  · rw [if_neg hpresent]
    have hrelay : pin ∈ relayPins := List.mem_of_getElem? hpin
    have hpark : (pin, GpioRelaySink.level polarity .off) ∈
        (parkRelaysSafe polarity {}).writes := by
      rw [writes_parkRelaysSafe]
      exact List.mem_map_of_mem hrelay
    refine lastLevel_of_writes (hwrites.trans (List.nil_append _).symm)
      (fun write hwrite heq ↦ ?_) ⟨_, List.mem_append_left _ (hparked hpark), rfl⟩
    rcases List.mem_append.mp hwrite with hbefore | hlate
    · exact hearly write hbefore (heq ▸ hrelay)
    · obtain ⟨other, hother, rfl⟩ := mem_relayWrites.mp hlate
      exact absurd (honly other hother heq ▸ hother) hpresent

/-- A boot that succeeds leaves the relays of a registered profile in lockstep with their pins, in
the states it decided on. -/
theorem lockstep_of_setup {plane : Plane} (hok : (setup build world).ok = true)
    (hplane : (setup build world).plane = some plane) :
    ∃ profile ∈ kProfiles, plane.relays.initialized = true ∧
      (∀ channel < profile.channelCount,
        plane.relays.state channel = bootStates build world channel) ∧
      GpioRelaySink.Wired profile ∧
      GpioRelaySink.Lockstep profile build.relayPolarity plane.relays := by
  by_cases hfault : world.kvBinds = false ∨
      CompositionRoot.resolveProfile (bootStore build world) = none
  · rw [setup_of_fault hfault] at hok
    cases hok
  · obtain ⟨hbinds, hnone⟩ := not_or.mp hfault
    obtain ⟨profile, hprofile⟩ := Option.ne_none_iff_exists'.mp hnone
    obtain ⟨plane', -, hplane', ⟨hinitialized, hsink, hpolarity, hhal⟩, hcount, hstates, -,
      hwrites⟩ := setup_of_profile (Bool.eq_true_of_not_eq_false hbinds) hprofile
    obtain rfl : plane' = plane := Option.some.inj (hplane'.symm.trans hplane)
    have hmem := mem_kProfiles_of_resolve hprofile
    obtain ⟨-, hreal, hdistinct⟩ := kProfiles_pins profile hmem
    refine ⟨profile, hmem, hinitialized, hstates,
      ⟨fun channel hchannel ↦ (hreal channel hchannel).1, hdistinct⟩,
      ⟨hsink, hpolarity, hcount, fun channel hchannel ↦ ?_⟩⟩
    have hstate : plane'.relays.states channel = bootStates build world channel := by
      rw [← hstates channel hchannel, RelayController.state, if_pos (hcount ▸ hchannel)]
    rw [GpioRelaySink.InStep, hsink, hpolarity, hhal, hstate]
    refine lastLevel_of_writes hwrites (fun write hwrite heq ↦ ?_)
      ⟨_, mem_relayWrites.mpr ⟨channel, hchannel, rfl⟩, rfl⟩
    obtain ⟨other, hother, rfl⟩ := mem_relayWrites.mp hwrite
    rw [hdistinct other hother channel hchannel heq]

/-- In a boot no relay is driven on before its state is decided, whatever the flash holds and
whichever step fails. The record of the pins begins with all four relays parked off, and up to the
decision every write to a relay pin is off. A boot fails exactly when the store cannot be bound or
holds no known profile, and then nothing else is written and every relay stays off. A boot that
succeeds then drives every channel of the profile once, to the state that the stored record gives
it, which leaves each of the four pins at the level of its state, off where the profile has no
channel; and no relay pin is made an input. -/
theorem setup_keeps_relays_off (build : Build) (world : BootWorld κ) :
    let booted := setup build world
    let off := GpioRelaySink.level build.relayPolarity .off
    (booted.ok = true ↔ world.kvBinds = true ∧
      (CompositionRoot.resolveProfile (bootStore build world)).isSome) ∧
    ∃ early late, booted.pins.writes = early ++ late ∧
      (relayPins.map fun pin ↦ (pin, off)) <+: early ∧
      (∀ write ∈ early, write.1 ∈ relayPins → write.2 = off) ∧
      (booted.ok = false → late = [] ∧ ∀ pin ∈ relayPins, booted.pins.lastLevel pin = some off) ∧
      (booted.ok = true → ∃ profile plane,
        CompositionRoot.resolveProfile (bootStore build world) = some profile ∧
        booted.plane = some plane ∧
        late = relayWrites profile build.relayPolarity (bootStates build world)
          (List.range profile.channelCount) ∧
        (∀ channel pin, relayPins[channel]? = some pin → booted.pins.lastLevel pin =
          some (GpioRelaySink.level build.relayPolarity (plane.relays.state channel))) ∧
        (∀ channel, plane.relays.state channel =
          if channel < profile.channelCount then bootStates build world channel else .off) ∧
        ∀ input ∈ plane.inputs, input.1 ∉ relayPins) := by
  intro booted off
  have hparks := writes_parkRelaysSafe build.relayPolarity
  by_cases hfault : world.kvBinds = false ∨
      CompositionRoot.resolveProfile (bootStore build world) = none
  · have hbooted : booted = { ok := false, pins := parkRelaysSafe build.relayPolarity {} } :=
      setup_of_fault hfault
    rw [hbooted]
    refine ⟨iff_of_false Bool.false_ne_true ?_, _, [], (List.append_nil _).symm, ?_, ?_, ?_, ?_⟩
    · rintro ⟨hbinds, hsome⟩
      rcases hfault with hnone | hnone
      · rw [hbinds] at hnone
        cases hnone
      · rw [hnone] at hsome
        cases hsome
    · rw [hparks]
    · exact leavesOff_park build.relayPolarity
    · exact fun _ ↦ ⟨rfl, fun pin hpin ↦
        lastLevel_of_leavesOff (List.append_nil _).symm (fun _ hnil ↦ absurd hnil List.not_mem_nil)
          hpin⟩
    · exact fun hok ↦ absurd hok Bool.false_ne_true
  · obtain ⟨hbinds, hnone⟩ := not_or.mp hfault
    obtain ⟨profile, hprofile⟩ := Option.ne_none_iff_exists'.mp hnone
    have hbinds' : world.kvBinds = true := Bool.eq_true_of_not_eq_false hbinds
    obtain ⟨plane, hok, hplane, -, hcount, hstates, hinputs, hwrites⟩ :=
      setup_of_profile hbinds' hprofile
    have hmem := mem_kProfiles_of_resolve hprofile
    obtain ⟨hpins, -, -⟩ := kProfiles_relayPins profile hmem
    have hstate (channel : ℕ) : plane.relays.state channel =
        if channel < profile.channelCount then bootStates build world channel else .off := by
      by_cases hpresent : channel < profile.channelCount
      · rw [if_pos hpresent, hstates channel hpresent]
      · rw [if_neg hpresent, RelayController.state, if_neg (hcount ▸ hpresent)]
    have hearly : LeavesOff build.relayPolarity ((parkRelaysSafe build.relayPolarity {}).writes ++
        relayWrites profile build.relayPolarity (fun _ ↦ .off) (List.range profile.channelCount) ++
        indicatorWrites ++ relayWrites profile build.relayPolarity (fun _ ↦ .off)
          (List.range profile.channelCount)) :=
      leavesOff_append (leavesOff_append (leavesOff_append (leavesOff_park _)
        (leavesOff_relayWrites _ _ _)) (leavesOff_indicator _)) (leavesOff_relayWrites _ _ _)
    refine ⟨iff_of_true hok ⟨hbinds', by rw [hprofile]; rfl⟩, _, _, hwrites, ?_, hearly,
      fun hfail ↦ absurd (hok.symm.trans hfail) (by decide), fun _ ↦
        ⟨profile, plane, hprofile, hplane, rfl, fun channel pin hpin ↦ ?_, hstate, ?_⟩⟩
    · rw [hparks, List.append_assoc, List.append_assoc]
      exact List.prefix_append _ _
    · rw [hstate]
      exact lastLevel_of_decided hmem hearly (fun write hwrite ↦ by
        simp only [List.mem_append]
        exact .inl (.inl (.inl hwrite))) hwrites hpin
    · intro input hinput
      rw [hinputs] at hinput
      obtain ⟨channel, hchannel, rfl⟩ := List.mem_map.mp hinput
      exact (hpins channel (List.mem_range.mp hchannel)).2

end Boot

end LibreSwitch.App
