import Mathlib.Tactic
import LibreSwitch.Domain.RelayController
import LibreSwitch.Domain.TouchInput

/-!
# The control coordinator

`ControlCoordinator` of `domain/control_coordinator.h`: the one place that turns touch events and
remote commands into relay actions and announces the changes. Commands are those of
`ports/control_command_port.h`. A kind outside the three enumerators, which a `uint8_t` can hold,
is `CommandKind.other`.

A listener on the port `StateChangePort` may hold a reference to the relays, as the persisting
listener does, so the port is given the relays as they are at the moment of the announcement.

`submit_eq` and `onTouchEvent_eq` are the specification of the coordinator. An operation performs
its relay action, then announces, in channel order and with the source of the operation, exactly
the channels whose state is now different. Everything said later about announcements and about
the persisted snapshot follows from these two and from `RelayController.Drives`.
-/

set_option autoImplicit false
set_option relaxedAutoImplicit false

namespace LibreSwitch.Domain

/-! ### Commands and ports -/

/-- `CommandKind`. -/
inductive CommandKind
  | setChannel
  | toggleChannel
  | setAll
  | other (raw : UInt8)
  deriving DecidableEq, Repr

/-- `ControlCommand`, with the source's defaults. -/
structure ControlCommand where
  kind : CommandKind := .setChannel
  channel : ℕ := 0
  state : RelayState := .off
  source : CommandSource := .internal
  deriving DecidableEq, Repr

instance : Inhabited ControlCommand := ⟨{}⟩

/-- The port `StateChangePort`, given the relays a listener may refer to. -/
class StateChangePort (σ ρ : Type) where
  onStateChanged : σ → RelayController ρ → ℕ → RelayState → CommandSource → σ

/-- One call on `StateChangePort`. -/
structure Announcement where
  channel : ℕ
  state : RelayState
  source : CommandSource
  deriving DecidableEq, Repr

/-- A listener that only records its calls. -/
instance {ρ : Type} : StateChangePort (List Announcement) ρ where
  onStateChanged heard _ channel state source := heard ++ [⟨channel, state, source⟩]

/-- The interface `FactoryResetHandler`. -/
class FactoryResetHandler (η : Type) where
  onFactoryResetRequested : η → η
  onFactoryResetProgress : η → Millis → Millis → η

/-- `ControlCoordinator`, with the collaborators it refers to. -/
structure ControlCoordinator (ρ σ η : Type) where
  relays : RelayController ρ
  stateOut : σ
  reset : η

namespace ControlCoordinator

variable {ρ σ η : Type} [RelaySink ρ] [StateChangePort σ ρ]

def announceIfChanged (coord : ControlCoordinator ρ σ η) (channel : ℕ) (before : RelayState)
    (source : CommandSource) : ControlCoordinator ρ σ η :=
  if coord.relays.state channel ≠ before then
    { coord with
      stateOut := StateChangePort.onStateChanged coord.stateOut coord.relays channel
        (coord.relays.state channel) source }
  else coord

def applySet (coord : ControlCoordinator ρ σ η) (channel : ℕ) (want : RelayState)
    (source : CommandSource) : Status × ControlCoordinator ρ σ η :=
  let before := coord.relays.state channel
  let result := coord.relays.set channel want
  if result.1.ok then
    (.success, { coord with relays := result.2 }.announceIfChanged channel before source)
  else (result.1, { coord with relays := result.2 })

def applyToggle (coord : ControlCoordinator ρ σ η) (channel : ℕ) (source : CommandSource) :
    Status × ControlCoordinator ρ σ η :=
  let before := coord.relays.state channel
  let result := coord.relays.toggleChannel channel
  if result.1.ok then
    (.success, { coord with relays := result.2 }.announceIfChanged channel before source)
  else (result.1, { coord with relays := result.2 })

def applySetAll (coord : ControlCoordinator ρ σ η) (want : RelayState) (source : CommandSource) :
    Status × ControlCoordinator ρ σ η :=
  let before := coord.relays.state
  let result := coord.relays.setAll want
  if result.1.ok then
    (.success, (List.range coord.relays.count).foldl
      (fun reached channel ↦ reached.announceIfChanged channel (before channel) source)
      { coord with relays := result.2 })
  else (result.1, { coord with relays := result.2 })

/-- `submit` of the port `ControlCommandPort`. -/
def submit (coord : ControlCoordinator ρ σ η) (command : ControlCommand) :
    Status × ControlCoordinator ρ σ η :=
  match command.kind with
  | .setChannel => coord.applySet command.channel command.state command.source
  | .toggleChannel => coord.applyToggle command.channel command.source
  | .setAll => coord.applySetAll command.state command.source
  | .other _ => (.fail .invalidArgument, coord)

def onTouchEvent (coord : ControlCoordinator ρ σ η) (channel : ℕ) (event : TouchEvent) :
    ControlCoordinator ρ σ η :=
  if event = .pressed then (coord.applyToggle channel .local_).2 else coord

/-- The calls of the port `TouchSink`, which the coordinator implements. -/
def onTouchCall [FactoryResetHandler η] (coord : ControlCoordinator ρ σ η) :
    TouchCall → ControlCoordinator ρ σ η
  | .touchEvent channel event => coord.onTouchEvent channel event
  | .factoryResetGesture =>
    { coord with reset := FactoryResetHandler.onFactoryResetRequested coord.reset }
  | .factoryResetProgress elapsedMs totalMs =>
    { coord with reset := FactoryResetHandler.onFactoryResetProgress coord.reset elapsedMs totalMs }

end ControlCoordinator

/-! ### What an operation of the coordinator does -/

namespace RelayController

variable {ρ : Type} [RelaySink ρ]

/-- The relay action of a command. -/
def perform (relays : RelayController ρ) (command : ControlCommand) :
    Status × RelayController ρ :=
  match command.kind with
  | .setChannel => relays.set command.channel command.state
  | .toggleChannel => relays.toggleChannel command.channel
  | .setAll => relays.setAll command.state
  | .other _ => (.fail .invalidArgument, relays)

theorem perform_drives (relays : RelayController ρ) (command : ControlCommand) :
    Drives relays (relays.perform command).2 := by
  unfold perform
  split
  · exact relays.set_drives _ _
  · exact relays.toggleChannel_drives _
  · exact relays.setAll_drives _
  · exact .refl relays

theorem perform_of_not_ok {relays : RelayController ρ} {command : ControlCommand}
    (hfail : (relays.perform command).1.ok = false) : (relays.perform command).2 = relays := by
  unfold perform at hfail ⊢
  split at hfail
  · exact set_of_not_ok hfail
  · exact toggleChannel_of_not_ok hfail
  · exact setAll_of_not_ok hfail
  · rfl

/-- The channels on which two controllers differ, in channel order. -/
def changedChannels (before after : RelayController ρ) : List ℕ :=
  (List.range after.count).filter fun channel ↦ after.state channel ≠ before.state channel

omit [RelaySink ρ] in
@[simp] theorem changedChannels_self (relays : RelayController ρ) :
    changedChannels relays relays = [] := by
  simp [changedChannels]

omit [RelaySink ρ] in
theorem mem_changedChannels {before after : RelayController ρ} {channel : ℕ} :
    channel ∈ changedChannels before after ↔
      channel < after.count ∧ after.state channel ≠ before.state channel := by
  simp [changedChannels]

omit [RelaySink ρ] in
/-- When one present channel at most can differ, it alone is listed, if it does. -/
theorem changedChannels_eq_of_only {before after : RelayController ρ} {channel : ℕ}
    (honly : ∀ other, other ≠ channel → after.state other = before.state other)
    (hpresent : channel < after.count) :
    changedChannels before after =
      if after.state channel ≠ before.state channel then [channel] else [] := by
  have hfilter (bound : ℕ) :
      (List.range bound).filter (fun other ↦ after.state other ≠ before.state other) =
        if channel < bound ∧ after.state channel ≠ before.state channel then [channel] else [] := by
    induction bound with
    | zero => simp
    | succ bound ih =>
      rw [List.range_succ, List.filter_append, ih]
      by_cases hlast : bound = channel
      · subst hlast
        by_cases hchanged : after.state bound = before.state bound <;> simp [hchanged]
      · have hsame : after.state bound = before.state bound := honly bound hlast
        have hbound : channel < bound + 1 ↔ channel < bound := by omega
        simp [hsame, hbound]
  rw [changedChannels, hfilter]
  simp [hpresent]

end RelayController

namespace ControlCoordinator

variable {ρ σ η : Type} [RelaySink ρ] [StateChangePort σ ρ]

open RelayController

/-- A coordinator whose relays have moved: the changed channels are announced in order. -/
def announceChanges (coord : ControlCoordinator ρ σ η) (after : RelayController ρ)
    (source : CommandSource) : ControlCoordinator ρ σ η :=
  { coord with
    relays := after
    stateOut := (changedChannels coord.relays after).foldl
      (fun heard channel ↦
        StateChangePort.onStateChanged heard after channel (after.state channel) source)
      coord.stateOut }

omit [RelaySink ρ] in
@[simp] theorem announceChanges_self (coord : ControlCoordinator ρ σ η) (source : CommandSource) :
    coord.announceChanges coord.relays source = coord := by
  simp [announceChanges]

omit [RelaySink ρ] in
/-- The loop of `announceIfChanged` announces the changed channels. -/
theorem foldl_announceIfChanged (coord : ControlCoordinator ρ σ η) (before : ℕ → RelayState)
    (source : CommandSource) (channels : List ℕ) :
    channels.foldl (fun reached channel ↦ reached.announceIfChanged channel (before channel) source)
        coord =
      { coord with
        stateOut := (channels.filter
          fun channel ↦ coord.relays.state channel ≠ before channel).foldl
            (fun heard channel ↦ StateChangePort.onStateChanged heard coord.relays channel
              (coord.relays.state channel) source)
            coord.stateOut } := by
  induction channels generalizing coord with
  | nil => rfl
  | cons channel rest ih =>
    rw [List.foldl_cons, ih]
    by_cases hchanged : coord.relays.state channel = before channel
    · simp [announceIfChanged, hchanged]
    · simp [announceIfChanged, hchanged]

/-- A single-channel action followed by `announceIfChanged` announces the changes. -/
theorem announceIfChanged_eq (coord : ControlCoordinator ρ σ η) {channel : ℕ}
    {target : RelayState} (hpresent : channel < coord.relays.count) (source : CommandSource) :
    { coord with relays := coord.relays.applyState channel target }.announceIfChanged channel
        (coord.relays.state channel) source =
      coord.announceChanges (coord.relays.applyState channel target) source := by
  have honly : ∀ other, other ≠ channel →
      (coord.relays.applyState channel target).state other = coord.relays.state other := by
    intro other hother
    rw [state_applyState _ hpresent, if_neg hother]
  rw [announceChanges, changedChannels_eq_of_only honly hpresent]
  unfold announceIfChanged
  split_ifs with hchanged <;> rfl

theorem applySet_eq (coord : ControlCoordinator ρ σ η) (channel : ℕ) (want : RelayState)
    (source : CommandSource) : coord.applySet channel want source =
      ((coord.relays.set channel want).1,
        coord.announceChanges (coord.relays.set channel want).2 source) := by
  by_cases hok : (coord.relays.guardChannel channel).ok = true
  · have hpresent := ((coord.relays.guardChannel_ok_iff channel).mp hok).2
    simp only [applySet, RelayController.set, hok, if_true, Status.ok_success]
    rw [announceIfChanged_eq coord hpresent]
  · simp [applySet, RelayController.set, hok]

theorem applyToggle_eq (coord : ControlCoordinator ρ σ η) (channel : ℕ)
    (source : CommandSource) : coord.applyToggle channel source =
      ((coord.relays.toggleChannel channel).1,
        coord.announceChanges (coord.relays.toggleChannel channel).2 source) := by
  by_cases hok : (coord.relays.guardChannel channel).ok = true
  · have hpresent := ((coord.relays.guardChannel_ok_iff channel).mp hok).2
    simp only [applyToggle, toggleChannel, hok, if_true, Status.ok_success]
    rw [announceIfChanged_eq coord hpresent]
  · simp [applyToggle, toggleChannel, hok]

theorem applySetAll_eq (coord : ControlCoordinator ρ σ η) (want : RelayState)
    (source : CommandSource) : coord.applySetAll want source =
      ((coord.relays.setAll want).1,
        coord.announceChanges (coord.relays.setAll want).2 source) := by
  by_cases hinitialized : coord.relays.initialized = true
  · simp only [applySetAll, setAll, hinitialized, Bool.not_true, Bool.false_eq_true, if_false,
      Status.ok_success, if_true]
    rw [foldl_announceIfChanged]
    simp only [announceChanges, changedChannels, count_applyEach]
  · simp [applySetAll, setAll, hinitialized, Status.ok, Status.fail]

/-- `submit` performs the command's relay action and announces the changed channels. -/
theorem submit_eq (coord : ControlCoordinator ρ σ η) (command : ControlCommand) :
    coord.submit command = ((coord.relays.perform command).1,
      coord.announceChanges (coord.relays.perform command).2 command.source) := by
  unfold submit perform
  split
  · exact applySet_eq _ _ _ _
  · exact applyToggle_eq _ _ _
  · exact applySetAll_eq _ _ _
  · simp

/-- `onTouchEvent` toggles on a press, announced as local, and does nothing otherwise. -/
theorem onTouchEvent_eq (coord : ControlCoordinator ρ σ η) (channel : ℕ) (event : TouchEvent) :
    coord.onTouchEvent channel event =
      if event = .pressed then
        coord.announceChanges (coord.relays.toggleChannel channel).2 .local_
      else coord := by
  rw [onTouchEvent, applyToggle_eq]

/-- A failed command changes neither the relays nor the listeners. -/
theorem submit_of_not_ok {coord : ControlCoordinator ρ σ η} {command : ControlCommand}
    (hfail : (coord.submit command).1.ok = false) : (coord.submit command).2 = coord := by
  rw [submit_eq] at hfail ⊢
  rw [perform_of_not_ok hfail, announceChanges_self]

/-- A press on a present channel of an initialized controller flips that channel and announces
the flip, once, as local. -/
theorem onTouchEvent_pressed {coord : ControlCoordinator ρ σ η} {channel : ℕ}
    (hinitialized : coord.relays.initialized = true) (hpresent : channel < coord.relays.count) :
    coord.onTouchEvent channel .pressed =
      { coord with
        relays := coord.relays.applyState channel (toggle (coord.relays.state channel))
        stateOut := StateChangePort.onStateChanged coord.stateOut
          (coord.relays.applyState channel (toggle (coord.relays.state channel))) channel
          (toggle (coord.relays.state channel)) .local_ } := by
  rw [onTouchEvent_eq, if_pos rfl, toggleChannel_of_present hinitialized hpresent]
  have honly : ∀ other, other ≠ channel →
      (coord.relays.applyState channel (toggle (coord.relays.state channel))).state other =
        coord.relays.state other := by
    intro other hother
    rw [state_applyState _ hpresent, if_neg hother]
  have hnow : (coord.relays.applyState channel
      (toggle (coord.relays.state channel))).state channel =
      toggle (coord.relays.state channel) := by
    rw [state_applyState _ hpresent, if_pos rfl]
  rw [announceChanges, changedChannels_eq_of_only honly hpresent, hnow, if_pos (toggle_ne _)]
  simp [hnow]

omit [RelaySink ρ] in
@[simp] theorem relays_announceChanges (coord : ControlCoordinator ρ σ η)
    (after : RelayController ρ) (source : CommandSource) :
    (coord.announceChanges after source).relays = after := rfl

theorem submit_drives (coord : ControlCoordinator ρ σ η) (command : ControlCommand) :
    Drives coord.relays (coord.submit command).2.relays := by
  rw [submit_eq]
  exact coord.relays.perform_drives command

theorem onTouchEvent_drives (coord : ControlCoordinator ρ σ η) (channel : ℕ)
    (event : TouchEvent) : Drives coord.relays (coord.onTouchEvent channel event).relays := by
  rw [onTouchEvent_eq]
  split_ifs
  · exact coord.relays.toggleChannel_drives channel
  · exact .refl _

theorem onTouchCall_drives [FactoryResetHandler η] (coord : ControlCoordinator ρ σ η)
    (call : TouchCall) : Drives coord.relays (coord.onTouchCall call).relays := by
  cases call with
  | touchEvent channel event => exact coord.onTouchEvent_drives channel event
  | factoryResetGesture => exact .refl _
  | factoryResetProgress elapsedMs totalMs => exact .refl _

end ControlCoordinator

end LibreSwitch.Domain
