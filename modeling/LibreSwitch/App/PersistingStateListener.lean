import Mathlib.Tactic
import LibreSwitch.Domain.ControlCoordinator
import LibreSwitch.Adapters.FlashDbStatePersistence

/-!
# Relay states across power cycles

`PersistingStateListener` of `app/persisting_state_listener.h`: on every announced change it saves
a snapshot of all channels. `Device` is a coordinator with this listener over the key-value store,
and `Session` its runs: a power-up from any content of the store, then touch events, commands and
power cycles in any order, where a power cycle keeps the store and nothing else.

`Stored` is the invariant: what the store would restore is the live state. An operation that
changes no channel announces nothing and leaves both sides alone; one that changes a channel
announces it at least once, and the last announcement saves the whole new state
(`Stored.announceChanges`). `power_cycle_restores` is the result over all sessions.
-/

set_option autoImplicit false
set_option relaxedAutoImplicit false

namespace LibreSwitch.App

open LibreSwitch.Library LibreSwitch.Domain LibreSwitch.Platform LibreSwitch.Adapters

/-- `PersistingStateListener`, with the persistence it refers to. The relays it refers to come
with the announcement. -/
structure PersistingStateListener (π : Type) where
  persist : π

namespace PersistingStateListener

variable {ρ η : Type}

/-- The snapshot `onStateChanged` takes. -/
def snapshot (relays : RelayController ρ) : PersistedRelayState where
  channel channel := if channel < kMaxChannels then relays.state channel else .off
  valid := true

instance {π : Type} [StatePersistencePort π] : StateChangePort (PersistingStateListener π) ρ where
  onStateChanged listener relays _ _ _ :=
    ⟨(StatePersistencePort.saveRelayState listener.persist (snapshot relays)).2⟩

/-- A coordinator whose changes are persisted in the key-value store. -/
abbrev Device (ρ η : Type) :=
  ControlCoordinator ρ (PersistingStateListener (FlashDbStatePersistence KvMap)) η

/-- The content of the store of a device. -/
def Device.kv (device : Device ρ η) : KvMap := device.stateOut.persist.kv

/-- What the store would restore is the live state, on every present channel. -/
structure Stored (channelCount : ℕ) (device : Device ρ η) : Prop where
  initialized : device.relays.initialized = true
  count_eq : device.relays.count = channelCount
  restores : ∀ channel < channelCount,
    BootPolicy.bootTarget device.stateOut.persist .restoreLast channel =
      device.relays.state channel

section Session

variable [RelaySink ρ]

/-- Power-up of a device from a store: boot with `RestoreLast`, then register the listener. -/
def powerUp (channelCount : ℕ) (kv : KvMap) (sink : ρ) (reset : η) : Device ρ η where
  relays :=
    BootPolicy.boot { sink := sink } channelCount (FlashDbStatePersistence.mk kv) .restoreLast
  stateOut := ⟨⟨kv⟩⟩
  reset := reset

/-- The devices a session can reach. -/
inductive Session (channelCount : ℕ) : Device ρ η → Prop
  | powerUp (kv : KvMap) (sink : ρ) (reset : η) :
      Session channelCount (powerUp channelCount kv sink reset)
  | touchEvent {device : Device ρ η} (channel : ℕ) (event : TouchEvent)
      (hsession : Session channelCount device) :
      Session channelCount (device.onTouchEvent channel event)
  | submit {device : Device ρ η} (command : ControlCommand)
      (hsession : Session channelCount device) :
      Session channelCount (device.submit command).2
  | powerCycle {device : Device ρ η} (sink : ρ) (reset : η)
      (hsession : Session channelCount device) :
      Session channelCount (PersistingStateListener.powerUp channelCount device.kv sink reset)

theorem stored_powerUp {channelCount : ℕ} (hcount : 0 < channelCount ∧ channelCount ≤ kMaxChannels)
    (kv : KvMap) (sink : ρ) (reset : η) :
    Stored channelCount (powerUp channelCount kv sink reset) where
  initialized := BootPolicy.initialized_boot _ hcount _ _
  count_eq := BootPolicy.count_boot _ hcount _ _
  restores _ hpresent := (BootPolicy.state_boot _ hcount _ _ hpresent).symm

omit [RelaySink ρ] in
/-- After one announcement or more, the store restores the relays as they were announced. -/
theorem bootTarget_foldl (listener : PersistingStateListener (FlashDbStatePersistence KvMap))
    (relays : RelayController ρ) (source : CommandSource) {channels : List ℕ}
    (hsome : channels ≠ []) {channel : ℕ} (hchannel : channel < kMaxChannels) :
    BootPolicy.bootTarget (channels.foldl
      (fun heard changed ↦
        StateChangePort.onStateChanged heard relays changed (relays.state changed) source)
      listener).persist .restoreLast channel = relays.state channel := by
  obtain ⟨earlier, last, rfl⟩ := (List.eq_nil_or_concat channels).resolve_left hsome
  simp only [List.concat_eq_append, List.foldl_append, List.foldl_cons, List.foldl_nil]
  simp only [BootPolicy.bootTarget, StateChangePort.onStateChanged,
    FlashDbStatePersistence.loadRelayState_saveRelayState, if_true, hchannel, snapshot]

/-- Moving the relays and announcing the changes keeps store and state together. -/
theorem Stored.announceChanges {channelCount : ℕ} (hcount : channelCount ≤ kMaxChannels)
    {device : Device ρ η} (hstored : Stored channelCount device) {after : RelayController ρ}
    (hdrives : device.relays.Drives after) (source : CommandSource) :
    Stored channelCount (device.announceChanges after source) := by
  have hafter : after.count = channelCount := hdrives.count_eq.trans hstored.count_eq
  refine ⟨hdrives.initialized_eq.trans hstored.initialized, hafter, fun channel hpresent ↦ ?_⟩
  by_cases hnone : RelayController.changedChannels device.relays after = []
  · have hsame : after.state channel = device.relays.state channel := by
      by_contra hchanged
      have hmem : channel ∈ RelayController.changedChannels device.relays after :=
        RelayController.mem_changedChannels.mpr ⟨hafter ▸ hpresent, hchanged⟩
      rw [hnone] at hmem
      exact absurd hmem List.not_mem_nil
    simp only [ControlCoordinator.announceChanges, hnone, List.foldl_nil, hsame]
    exact hstored.restores channel hpresent
  · exact bootTarget_foldl _ after source hnone (lt_of_lt_of_le hpresent hcount)

/-- Every device of a session has its live state in the store. -/
theorem Session.stored {channelCount : ℕ} (hcount : 0 < channelCount ∧ channelCount ≤ kMaxChannels)
    {device : Device ρ η} (hsession : Session channelCount device) :
    Stored channelCount device := by
  induction hsession with
  | powerUp kv sink reset => exact stored_powerUp hcount kv sink reset
  | @touchEvent device channel event _ ih =>
    rw [ControlCoordinator.onTouchEvent_eq]
    split_ifs
    · exact ih.announceChanges hcount.2 (device.relays.toggleChannel_drives channel) _
    · exact ih
  | @submit device command _ ih =>
    rw [ControlCoordinator.submit_eq]
    exact ih.announceChanges hcount.2 (device.relays.perform_drives command) _
  | powerCycle sink reset _ _ => exact stored_powerUp hcount _ sink reset

/-- Whenever power is lost in a session, the next power-up brings every present channel back to
the state it had. -/
theorem power_cycle_restores {channelCount : ℕ}
    (hcount : 0 < channelCount ∧ channelCount ≤ kMaxChannels) {device : Device ρ η}
    (hsession : Session channelCount device) (sink : ρ) (reset : η) :
    ∀ channel < channelCount,
      (powerUp channelCount device.kv sink reset).relays.state channel =
        device.relays.state channel := by
  intro channel hpresent
  rw [powerUp, BootPolicy.state_boot _ hcount _ _ hpresent]
  exact (hsession.stored hcount).restores channel hpresent

/-- A four-gang device after its first power-up, with all relays switched on and one touched. -/
def touched : Device DriveLog Unit :=
  ((powerUp 4 ⟨fun _ ↦ none⟩ [] () : Device DriveLog Unit).submit
    { kind := .setAll, state := .on }).2.onTouchEvent 1 .pressed

theorem power_cycle_restores_witness :
    (powerUp 4 touched.kv ([] : DriveLog) ()).relays.state 1 = touched.relays.state 1 :=
  power_cycle_restores (by decide) (.touchEvent 1 .pressed (.submit _ (.powerUp _ _ _))) _ _ 1
    (by decide)

end Session

end PersistingStateListener

end LibreSwitch.App
