import Mathlib.Tactic
import LibreSwitch.Domain.ControlCoordinator
import LibreSwitch.Domain.BootPolicy
import LibreSwitch.Profiles.DeviceProfile

/-!
# Relays on pins

`GpioRelaySink` of `adapters/gpio_relay_sink.h` over the output half of `GpioHal`. The sink maps a
logical channel to a pin of the profile and a state to a level by the polarity of the board.
`PinLog` is the HAL that records every write, and `lastLevel` reads the level of a pin off it.

`Lockstep` is the invariant that joins the two levels of the design: on the channels below a bound,
the last level written to a pin is the one the polarity gives the logical state. One `applyState`
on a present channel keeps it (`Lockstep.applyState`), so every operation that `Drives` covers
keeps it. `pins_follow_states` is the result over all operations of a started device.
-/

set_option autoImplicit false
set_option relaxedAutoImplicit false

namespace LibreSwitch.Adapters

open LibreSwitch.Domain LibreSwitch.Profiles

/-- The output half of `GpioHal`. -/
class GpioHal (γ : Type) where
  configureOutput : γ → UInt8 → γ
  writePin : γ → UInt8 → Bool → γ

/-- `RelayPolarity`. -/
inductive RelayPolarity
  | activeHigh
  | activeLow
  deriving DecidableEq, Repr

/-- `GpioRelaySink`. -/
structure GpioRelaySink (γ : Type) where
  hal : γ
  profile : DeviceProfile
  polarity : RelayPolarity := .activeHigh

namespace GpioRelaySink

section Code

variable {γ : Type} [GpioHal γ]

/-- The pin level of a state: the single place polarity is applied. -/
def level (polarity : RelayPolarity) (state : RelayState) : Bool :=
  let energized := state = .on
  if polarity = .activeHigh then energized else !energized

def writeRelay (sink : GpioRelaySink γ) (pin : UInt8) (state : RelayState) : GpioRelaySink γ :=
  { sink with hal := GpioHal.writePin sink.hal pin (level sink.polarity state) }

def configureOutput (sink : GpioRelaySink γ) (pin : UInt8) : GpioRelaySink γ :=
  { sink with hal := GpioHal.configureOutput sink.hal pin }

/-- The loop of `begin` over the channels still to configure. -/
def beginLoop : List ℕ → GpioRelaySink γ → Status × GpioRelaySink γ
  | [], sink => (.success, sink)
  | channel :: rest, sink =>
    if (sink.profile.channels channel).relayPin = kNoPin then (.fail .invalidArgument, sink)
    else
      beginLoop rest
        ((sink.configureOutput (sink.profile.channels channel).relayPin).writeRelay
          (sink.profile.channels channel).relayPin .off)

/-- `begin`: every present pin becomes an output at the safe off level. -/
def begin (sink : GpioRelaySink γ) : Status × GpioRelaySink γ :=
  beginLoop (List.range sink.profile.channelCount) sink

instance : RelaySink (GpioRelaySink γ) where
  driveRelay sink channel state :=
    if channel ≥ sink.profile.channelCount then (false, sink)
    else if (sink.profile.channels channel).relayPin = kNoPin then (false, sink)
    else (true, sink.writeRelay (sink.profile.channels channel).relayPin state)

end Code

theorem level_eq_true_iff (polarity : RelayPolarity) (state : RelayState) :
    level polarity state = true ↔
      (polarity = .activeHigh ∧ state = .on) ∨ (polarity = .activeLow ∧ state = .off) := by
  cases polarity <;> cases state <;> decide

end GpioRelaySink

/-! ### The record of the pins -/

/-- A HAL that records the pins configured and the writes made, in order. -/
structure PinLog where
  outputs : List UInt8 := []
  writes : List (UInt8 × Bool) := []
  deriving DecidableEq, Repr

instance : GpioHal PinLog where
  configureOutput log pin := { log with outputs := log.outputs ++ [pin] }
  writePin log pin high := { log with writes := log.writes ++ [(pin, high)] }

/-- The last level written to a pin. -/
def PinLog.lastLevel (log : PinLog) (pin : UInt8) : Option Bool :=
  ((log.writes.filter fun write ↦ write.1 = pin).getLast?).map Prod.snd

@[simp] theorem PinLog.lastLevel_configureOutput (log : PinLog) (configured pin : UInt8) :
    (GpioHal.configureOutput log configured).lastLevel pin = log.lastLevel pin := rfl

theorem PinLog.lastLevel_writePin (log : PinLog) (written pin : UInt8) (high : Bool) :
    (GpioHal.writePin log written high).lastLevel pin =
      if pin = written then some high else log.lastLevel pin := by
  by_cases hsame : written = pin
  · simp [lastLevel, GpioHal.writePin, hsame]
  · simp [lastLevel, GpioHal.writePin, hsame, Ne.symm hsame]

namespace GpioRelaySink

/-- A sink reached from another by configuring pins and writing relay pins of present channels. -/
structure OnlyRelayPins (before after : GpioRelaySink PinLog) : Prop where
  profile_eq : after.profile = before.profile
  polarity_eq : after.polarity = before.polarity
  writes : ∃ written, after.hal.writes = before.hal.writes ++ written ∧
    ∀ write ∈ written, ∃ channel < before.profile.channelCount,
      write.1 = (before.profile.channels channel).relayPin

theorem OnlyRelayPins.refl (sink : GpioRelaySink PinLog) : OnlyRelayPins sink sink :=
  ⟨rfl, rfl, [], by simp, by simp⟩

theorem OnlyRelayPins.trans {first middle last : GpioRelaySink PinLog}
    (hfirst : OnlyRelayPins first middle) (hlast : OnlyRelayPins middle last) :
    OnlyRelayPins first last := by
  obtain ⟨early, hearly, hearlyPins⟩ := hfirst.writes
  obtain ⟨late, hlate, hlatePins⟩ := hlast.writes
  refine ⟨hlast.profile_eq.trans hfirst.profile_eq, hlast.polarity_eq.trans hfirst.polarity_eq,
    early ++ late, by rw [hlate, hearly, List.append_assoc], ?_⟩
  intro write hwrite
  rcases List.mem_append.mp hwrite with hmem | hmem
  · exact hearlyPins write hmem
  · rw [← hfirst.profile_eq]
    exact hlatePins write hmem

theorem OnlyRelayPins.writeRelay (sink : GpioRelaySink PinLog) {channel : ℕ}
    (hpresent : channel < sink.profile.channelCount) (state : RelayState) :
    OnlyRelayPins sink (sink.writeRelay (sink.profile.channels channel).relayPin state) :=
  ⟨rfl, rfl, [((sink.profile.channels channel).relayPin, level sink.polarity state)], rfl,
    fun write hwrite ↦ ⟨channel, hpresent, by rw [List.mem_singleton.mp hwrite]⟩⟩

theorem OnlyRelayPins.configureOutput (sink : GpioRelaySink PinLog) (pin : UInt8) :
    OnlyRelayPins sink (sink.configureOutput pin) :=
  ⟨rfl, rfl, [], by simp [GpioRelaySink.configureOutput, GpioHal.configureOutput], by simp⟩

theorem beginLoop_onlyRelayPins (channels : List ℕ) (sink : GpioRelaySink PinLog)
    (hpresent : ∀ channel ∈ channels, channel < sink.profile.channelCount) :
    OnlyRelayPins sink (beginLoop channels sink).2 := by
  induction channels generalizing sink with
  | nil => exact .refl sink
  | cons channel rest ih =>
    unfold beginLoop
    split_ifs with hpin
    · exact .refl sink
    · have hconfigured := OnlyRelayPins.configureOutput sink
        (sink.profile.channels channel).relayPin
      have hwritten := OnlyRelayPins.writeRelay
        (sink.configureOutput (sink.profile.channels channel).relayPin)
        (hpresent channel (by simp)) .off
      exact (hconfigured.trans hwritten).trans
        (ih _ fun other hother ↦ hpresent other (by simp [hother]))

/-- `begin` writes relay pins of present channels only. -/
theorem begin_onlyRelayPins (sink : GpioRelaySink PinLog) : OnlyRelayPins sink sink.begin.2 :=
  beginLoop_onlyRelayPins _ sink fun _ hchannel ↦ List.mem_range.mp hchannel

/-- A `begin` that succeeds has seen a real pin on every present channel. -/
theorem beginLoop_ok {channels : List ℕ} {sink : GpioRelaySink PinLog}
    (hok : (beginLoop channels sink).1.ok = true) :
    ∀ channel ∈ channels, (sink.profile.channels channel).relayPin ≠ kNoPin := by
  induction channels generalizing sink with
  | nil => simp
  | cons channel rest ih =>
    unfold beginLoop at hok
    split_ifs at hok with hpin
    · simp [Status.ok, Status.fail] at hok
    · intro other hother
      rcases List.mem_cons.mp hother with rfl | hrest
      · exact hpin
      · exact ih hok other hrest

theorem driveRelay_of_present {sink : GpioRelaySink PinLog} {channel : ℕ}
    (hpresent : channel < sink.profile.channelCount)
    (hpin : (sink.profile.channels channel).relayPin ≠ kNoPin) (state : RelayState) :
    RelaySink.driveRelay sink channel state =
      (true, sink.writeRelay (sink.profile.channels channel).relayPin state) := by
  simp [RelaySink.driveRelay, Nat.not_le.mpr hpresent, hpin]

/-- Driving a relay writes relay pins of present channels only. -/
theorem driveRelay_onlyRelayPins (sink : GpioRelaySink PinLog) (channel : ℕ)
    (state : RelayState) : OnlyRelayPins sink (RelaySink.driveRelay sink channel state).2 := by
  simp only [RelaySink.driveRelay]
  split_ifs with habsent hpin
  · exact .refl sink
  · exact .refl sink
  · exact .writeRelay sink (by omega) state

/-! ### Lockstep of one channel -/

/-- The relay pins of the present channels are real and no two are the same. -/
structure Wired (profile : DeviceProfile) : Prop where
  real : ∀ channel < profile.channelCount, (profile.channels channel).relayPin ≠ kNoPin
  distinct : ∀ first < profile.channelCount, ∀ second < profile.channelCount,
    (profile.channels first).relayPin = (profile.channels second).relayPin → first = second

/-- The last level written to the pin of a channel is the level of its logical state. -/
def InStep (relays : RelayController (GpioRelaySink PinLog)) (channel : ℕ) : Prop :=
  relays.sink.hal.lastLevel (relays.sink.profile.channels channel).relayPin =
    some (level relays.sink.polarity (relays.states channel))

@[simp] theorem profile_applyState (relays : RelayController (GpioRelaySink PinLog)) (channel : ℕ)
    (target : RelayState) : (relays.applyState channel target).sink.profile = relays.sink.profile :=
  (driveRelay_onlyRelayPins relays.sink channel target).profile_eq

/-- One `applyState` brings its channel in step and leaves the others as they were. -/
theorem inStep_applyState {relays : RelayController (GpioRelaySink PinLog)} {channel other : ℕ}
    (hwired : Wired relays.sink.profile) (hchannel : channel < relays.sink.profile.channelCount)
    (hother : other < relays.sink.profile.channelCount) (target : RelayState) :
    InStep (relays.applyState channel target) other ↔ other = channel ∨ InStep relays other := by
  have hdrive := driveRelay_of_present hchannel (hwired.real channel hchannel) target
  have hpin : (relays.sink.profile.channels other).relayPin =
      (relays.sink.profile.channels channel).relayPin ↔ other = channel :=
    ⟨hwired.distinct other hother channel hchannel, fun hsame ↦ by rw [hsame]⟩
  simp only [InStep, RelayController.states_applyState]
  simp only [RelayController.applyState, hdrive, writeRelay, PinLog.lastLevel_writePin, hpin]
  by_cases hsame : other = channel
  · simp [hsame]
  · simp [hsame]

/-- The loop over the first channels brings them in step. -/
theorem inStep_applyEach (relays : RelayController (GpioRelaySink PinLog))
    (hwired : Wired relays.sink.profile) (target : ℕ → RelayState) {bound : ℕ}
    (hbound : bound ≤ relays.sink.profile.channelCount) :
    (relays.applyEach target bound).sink.profile = relays.sink.profile ∧
      ∀ channel < bound, InStep (relays.applyEach target bound) channel := by
  induction bound with
  | zero => exact ⟨rfl, by simp⟩
  | succ bound ih =>
    obtain ⟨hprofile, hstep⟩ := ih (by omega)
    rw [RelayController.applyEach_succ]
    refine ⟨by rw [profile_applyState, hprofile], fun channel hchannel ↦ ?_⟩
    rw [inStep_applyState (hprofile ▸ hwired) (by rw [hprofile]; omega) (by rw [hprofile]; omega)]
    rcases Nat.lt_succ_iff_lt_or_eq.mp hchannel with hlt | heq
    · exact .inr (hstep channel hlt)
    · exact .inl heq

/-! ### Lockstep of a device -/

/-- The controller has the channels of the profile, every one of them in step with its pin. -/
structure Lockstep (profile : DeviceProfile) (polarity : RelayPolarity)
    (relays : RelayController (GpioRelaySink PinLog)) : Prop where
  profile_eq : relays.sink.profile = profile
  polarity_eq : relays.sink.polarity = polarity
  count_eq : relays.count = profile.channelCount
  inStep : ∀ channel < profile.channelCount, InStep relays channel

theorem Lockstep.applyState {profile : DeviceProfile} {polarity : RelayPolarity}
    {relays : RelayController (GpioRelaySink PinLog)} (hwired : Wired profile)
    (hlockstep : Lockstep profile polarity relays) {channel : ℕ} (hpresent : channel < relays.count)
    (target : RelayState) : Lockstep profile polarity (relays.applyState channel target) := by
  obtain ⟨rfl, hpolarity, hcount, hinStep⟩ := hlockstep
  refine ⟨profile_applyState _ _ _, ?_, hcount, fun other hother ↦ ?_⟩
  · exact (driveRelay_onlyRelayPins relays.sink channel target).polarity_eq.trans hpolarity
  · exact (inStep_applyState hwired (hcount ▸ hpresent) hother target).mpr
      (.inr (hinStep other hother))

/-- Every operation that drives relays keeps them in lockstep. -/
theorem Lockstep.drives {profile : DeviceProfile} {polarity : RelayPolarity}
    {before after : RelayController (GpioRelaySink PinLog)} (hwired : Wired profile)
    (hdrives : before.Drives after) (hlockstep : Lockstep profile polarity before) :
    Lockstep profile polarity after :=
  hdrives.induction (fun _ _ target hpresent hinvariant ↦
    hinvariant.applyState hwired hpresent target) hlockstep

/-- Every operation that drives relays writes relay pins of present channels only. -/
theorem OnlyRelayPins.drives {before after : RelayController (GpioRelaySink PinLog)}
    (hdrives : before.Drives after) : OnlyRelayPins before.sink after.sink :=
  hdrives.induction (motive := fun relays ↦ OnlyRelayPins before.sink relays.sink)
    (fun relays channel target _ hreached ↦
      hreached.trans (driveRelay_onlyRelayPins relays.sink channel target)) (.refl _)

end GpioRelaySink

/-! ### The operations of a device -/

/-- The operations that reach the relays after start-up. -/
inductive RelayOperation (π : Type)
  | set (channel : ℕ) (target : RelayState)
  | toggleChannel (channel : ℕ)
  | setAll (target : RelayState)
  | submit (command : ControlCommand)
  | touchEvent (channel : ℕ) (event : TouchEvent)
  | applyBootState (persist : π) (policy : RestorePolicy)

namespace RelayOperation

variable {ρ σ η π : Type} [RelaySink ρ] [StateChangePort σ ρ] [StatePersistencePort π]

/-- The result of a relay action taken past the coordinator. -/
def onRelays (coord : ControlCoordinator ρ σ η) (result : Status × RelayController ρ) :
    Status × ControlCoordinator ρ σ η :=
  (result.1, { coord with relays := result.2 })

/-- Performs one operation. A touch event reports no status. -/
def perform (coord : ControlCoordinator ρ σ η) :
    RelayOperation π → Status × ControlCoordinator ρ σ η
  | .set channel target => onRelays coord (coord.relays.set channel target)
  | .toggleChannel channel => onRelays coord (coord.relays.toggleChannel channel)
  | .setAll target => onRelays coord (coord.relays.setAll target)
  | .submit command => coord.submit command
  | .touchEvent channel event => (.success, coord.onTouchEvent channel event)
  | .applyBootState persist policy =>
    onRelays coord (BootPolicy.applyBootState coord.relays persist policy)

def performAll (coord : ControlCoordinator ρ σ η) (operations : List (RelayOperation π)) :
    ControlCoordinator ρ σ η :=
  operations.foldl (fun reached operation ↦ (operation.perform reached).2) coord

theorem perform_drives (coord : ControlCoordinator ρ σ η) (operation : RelayOperation π) :
    coord.relays.Drives (operation.perform coord).2.relays := by
  cases operation with
  | set channel target => exact coord.relays.set_drives channel target
  | toggleChannel channel => exact coord.relays.toggleChannel_drives channel
  | setAll target => exact coord.relays.setAll_drives target
  | submit command => exact coord.submit_drives command
  | touchEvent channel event => exact coord.onTouchEvent_drives channel event
  | applyBootState persist policy =>
    exact BootPolicy.applyBootState_drives coord.relays persist policy

theorem performAll_drives (coord : ControlCoordinator ρ σ η)
    (operations : List (RelayOperation π)) :
    coord.relays.Drives (performAll coord operations).relays := by
  induction operations generalizing coord with
  | nil => exact .refl _
  | cons operation rest ih => exact (operation.perform_drives coord).trans (ih _)

/-- An operation that fails changes nothing. -/
theorem perform_of_not_ok {coord : ControlCoordinator ρ σ η} {operation : RelayOperation π}
    (hfail : (operation.perform coord).1.ok = false) : (operation.perform coord).2 = coord := by
  cases operation with
  | set channel target =>
    simp only [perform, onRelays, RelayController.set_of_not_ok hfail]
  | toggleChannel channel =>
    simp only [perform, onRelays, RelayController.toggleChannel_of_not_ok hfail]
  | setAll target =>
    simp only [perform, onRelays, RelayController.setAll_of_not_ok hfail]
  | submit command => exact ControlCoordinator.submit_of_not_ok hfail
  | touchEvent channel event => simp [perform] at hfail
  | applyBootState persist policy =>
    simp only [perform, onRelays, BootPolicy.applyBootState_of_not_ok hfail]

end RelayOperation

/-! ### From power-up -/

namespace GpioRelaySink

variable {σ η π : Type}

/-- `begin` of the sink a coordinator drives. -/
def beginRelays (coord : ControlCoordinator (GpioRelaySink PinLog) σ η) :
    Status × RelayController (GpioRelaySink PinLog) :=
  (coord.relays.sink.begin.1, { coord.relays with sink := coord.relays.sink.begin.2 })

/-- `begin`, then `init` with the channel count of the profile. -/
def powerUp (coord : ControlCoordinator (GpioRelaySink PinLog) σ η) (coldBoot : RelayState) :
    Status × Status × ControlCoordinator (GpioRelaySink PinLog) σ η :=
  let begun := beginRelays coord
  let started := begun.2.init coord.relays.sink.profile.channelCount coldBoot
  (begun.1, started.1, { coord with relays := started.2 })

/-- After a successful power-up the controller is in lockstep with the pins. -/
theorem lockstep_powerUp {coord : ControlCoordinator (GpioRelaySink PinLog) σ η}
    {coldBoot : RelayState} (hwired : Wired coord.relays.sink.profile)
    (hinit : (powerUp coord coldBoot).2.1.ok = true) :
    Lockstep coord.relays.sink.profile coord.relays.sink.polarity
        (powerUp coord coldBoot).2.2.relays ∧
      OnlyRelayPins coord.relays.sink (powerUp coord coldBoot).2.2.relays.sink := by
  have hbegin := begin_onlyRelayPins coord.relays.sink
  obtain ⟨-, hstarted⟩ := RelayController.init_eq_of_ok hinit
  simp only [powerUp, hstarted]
  let counted : RelayController (GpioRelaySink PinLog) :=
    { (beginRelays coord).2 with count := coord.relays.sink.profile.channelCount }
  have hprofile : counted.sink.profile = coord.relays.sink.profile := hbegin.profile_eq
  have hloop := counted.applyEach_drives (fun _ ↦ coldBoot) le_rfl
  have honly := hbegin.trans (OnlyRelayPins.drives hloop)
  obtain ⟨-, hinStep⟩ := inStep_applyEach counted (hprofile ▸ hwired) (fun _ ↦ coldBoot)
    (le_of_eq (congrArg DeviceProfile.channelCount hprofile.symm))
  exact ⟨⟨honly.profile_eq, honly.polarity_eq, hloop.count_eq, hinStep⟩, honly⟩

variable [StateChangePort σ (GpioRelaySink PinLog)] [StatePersistencePort π]

/-- The device after a power-up and any operations. -/
def reached (coord : ControlCoordinator (GpioRelaySink PinLog) σ η) (coldBoot : RelayState)
    (operations : List (RelayOperation π)) : ControlCoordinator (GpioRelaySink PinLog) σ η :=
  RelayOperation.performAll (powerUp coord coldBoot).2.2 operations

/-- After a successful power-up with distinct relay pins and any operations, the last level
written to the pin of a present channel is high exactly when the polarity and the logical state
ask for it, every write since power-up was to the relay pin of a present channel, and an operation
that fails changes nothing. -/
theorem pins_follow_states (coord : ControlCoordinator (GpioRelaySink PinLog) σ η)
    (coldBoot : RelayState) (operations : List (RelayOperation π))
    (hbegin : (powerUp coord coldBoot).1.ok = true)
    (hinit : (powerUp coord coldBoot).2.1.ok = true)
    (hdistinct : ∀ first < coord.relays.sink.profile.channelCount,
      ∀ second < coord.relays.sink.profile.channelCount,
        (coord.relays.sink.profile.channels first).relayPin =
          (coord.relays.sink.profile.channels second).relayPin → first = second) :
    (∀ channel < coord.relays.sink.profile.channelCount, ∃ high,
      (reached coord coldBoot operations).relays.sink.hal.lastLevel
        (coord.relays.sink.profile.channels channel).relayPin = some high ∧
      (high = true ↔
        (coord.relays.sink.polarity = .activeHigh ∧
          (reached coord coldBoot operations).relays.state channel = .on) ∨
        (coord.relays.sink.polarity = .activeLow ∧
          (reached coord coldBoot operations).relays.state channel = .off))) ∧
    (∃ written, (reached coord coldBoot operations).relays.sink.hal.writes =
        coord.relays.sink.hal.writes ++ written ∧
      ∀ write ∈ written, ∃ channel < coord.relays.sink.profile.channelCount,
        write.1 = (coord.relays.sink.profile.channels channel).relayPin) ∧
    ∀ operation : RelayOperation π,
      (operation.perform (reached coord coldBoot operations)).1.ok = false →
        (operation.perform (reached coord coldBoot operations)).2 =
          reached coord coldBoot operations := by
  have hreal := beginLoop_ok hbegin
  have hwired : Wired coord.relays.sink.profile :=
    ⟨fun channel hchannel ↦ hreal channel (List.mem_range.mpr hchannel), hdistinct⟩
  obtain ⟨hstart, honly⟩ := lockstep_powerUp hwired hinit
  have hdrives := RelayOperation.performAll_drives (powerUp coord coldBoot).2.2 operations
  have hlockstep := hstart.drives hwired hdrives
  refine ⟨fun channel hchannel ↦ ?_, (honly.trans (OnlyRelayPins.drives hdrives)).writes,
    fun operation hfail ↦ RelayOperation.perform_of_not_ok hfail⟩
  have hinStep := hlockstep.inStep channel hchannel
  have hstate : (reached coord coldBoot operations).relays.state channel =
      (reached coord coldBoot operations).relays.states channel :=
    if_pos (by rw [reached, hlockstep.count_eq]; exact hchannel)
  rw [InStep, hlockstep.profile_eq, hlockstep.polarity_eq] at hinStep
  exact ⟨_, hinStep, by rw [hstate, level_eq_true_iff]; rfl⟩

/-- A two-gang board with active-low relays, before power-up. -/
def twoGang : ControlCoordinator (GpioRelaySink PinLog) (List Announcement) Unit :=
  ⟨{ sink := ⟨{}, kSwitch2G, .activeLow⟩ }, [], ()⟩

theorem pins_follow_states_witness :
    ∃ high, (reached twoGang .off [RelayOperation.setAll (π := PersistedRelayState) .on,
        .touchEvent 0 .pressed, .set 3 .on]).relays.sink.hal.lastLevel 6 = some high ∧
      (high = true ↔
        (twoGang.relays.sink.polarity = .activeHigh ∧
          (reached twoGang .off [RelayOperation.setAll (π := PersistedRelayState) .on,
            .touchEvent 0 .pressed, .set 3 .on]).relays.state 0 = .on) ∨
        (twoGang.relays.sink.polarity = .activeLow ∧
          (reached twoGang .off [RelayOperation.setAll (π := PersistedRelayState) .on,
            .touchEvent 0 .pressed, .set 3 .on]).relays.state 0 = .off)) :=
  (pins_follow_states twoGang .off _ (by decide) (by decide) (by decide)).1 0 (by decide)

end GpioRelaySink

end LibreSwitch.Adapters
