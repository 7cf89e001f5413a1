import Mathlib.Tactic
import LibreSwitch.Library.Machine
import LibreSwitch.Domain.ControlCoordinator

/-!
# Replaying the announcements

Telemetry, the log and the persisted snapshot know the relays from the announcements of the
coordinator alone. `announcements_replay` says that this is enough: the states before a run, with
its announcements applied to them one after the other, are the states behind it, and no
announcement is superfluous, of an absent channel or in another's name.

It rests on what one operation announces (`announced_eq`): the channels it changed, in channel
order, each once.
-/

set_option autoImplicit false
set_option relaxedAutoImplicit false

namespace LibreSwitch.Domain

open LibreSwitch.Library

/-- Relay states by channel. -/
abbrev States := ℕ → RelayState

namespace Announcement

/-- The announcements of some channels, with their states, in the name of one source. -/
def ofChannels (value : States) (source : CommandSource) (channels : List ℕ) :
    List Announcement :=
  channels.map fun channel ↦ ⟨channel, value channel, source⟩

/-- What an announcement makes of the states. -/
def apply (states : States) (announcement : Announcement) : States :=
  Function.update states announcement.channel announcement.state

/-- The states after announcements, in order. -/
def replay (states : States) (announced : List Announcement) : States :=
  announced.foldl apply states

/-- Every announcement reports another state than the replay held for its channel. -/
def AllNew : States → List Announcement → Prop
  | _, [] => True
  | states, announcement :: rest =>
    announcement.state ≠ states announcement.channel ∧ AllNew (apply states announcement) rest

theorem replay_append (states : States) (first second : List Announcement) :
    replay states (first ++ second) = replay (replay states first) second :=
  List.foldl_append

theorem allNew_append {states : States} {first second : List Announcement} :
    AllNew states (first ++ second) ↔
      AllNew states first ∧ AllNew (replay states first) second := by
  induction first generalizing states with
  | nil => exact (iff_of_eq (true_and _)).symm
  | cons announcement rest ih =>
    rw [List.cons_append, AllNew, AllNew, ih, and_assoc]
    rfl

/-- Announcements of channels that all get their state from one function leave that state. -/
theorem replay_ofChannels (states value : States) (source : CommandSource) (channels : List ℕ) :
    replay states (ofChannels value source channels) = fun channel ↦
      if channel ∈ channels then value channel else states channel := by
  induction channels generalizing states with
  | nil => rfl
  | cons first rest ih =>
    rw [ofChannels, List.map_cons, replay, List.foldl_cons, ← replay, ← ofChannels, ih]
    funext channel
    by_cases hrest : channel ∈ rest
    · simp [hrest]
    · by_cases hfirst : channel = first
      · simp [apply, hfirst]
      · simp [apply, hrest, hfirst]

/-- Announcements of changed channels, each once, are all new. -/
theorem allNew_ofChannels {states value : States} (source : CommandSource) {channels : List ℕ}
    (hchanged : ∀ channel ∈ channels, value channel ≠ states channel) (honce : channels.Nodup) :
    AllNew states (ofChannels value source channels) := by
  induction channels generalizing states with
  | nil => trivial
  | cons first rest ih =>
    obtain ⟨hfirst, honce⟩ := List.nodup_cons.mp honce
    refine ⟨hchanged first List.mem_cons_self, ih (fun channel hchannel ↦ ?_) honce⟩
    have hother : channel ≠ first := ne_of_mem_of_not_mem hchannel hfirst
    rw [apply, Function.update_of_ne hother]
    exact hchanged channel (List.mem_cons_of_mem _ hchannel)

end Announcement

/-! ### The operations of the coordinator -/

/-- An operation of the coordinator. -/
inductive ControlOperation
  | touchEvent (channel : ℕ) (event : TouchEvent)
  | submit (command : ControlCommand)
  deriving DecidableEq, Repr

/-- Who an operation is made for. -/
def ControlOperation.source : ControlOperation → CommandSource
  | .touchEvent _ _ => .local_
  | .submit command => command.source

namespace ControlCoordinator

variable {ρ η : Type} [RelaySink ρ]

/-- An operation, with the status that `submit` returns. -/
def operate {σ : Type} [StateChangePort σ ρ] (coord : ControlCoordinator ρ σ η) :
    ControlOperation → Option Status × ControlCoordinator ρ σ η
  | .touchEvent channel event => (none, coord.onTouchEvent channel event)
  | .submit command => (some (coord.submit command).1, (coord.submit command).2)

/-- The coordinator with a listener that keeps the announcements of the last operation, which are
the report on it. -/
def announcer : Machine ControlOperation (List Announcement)
    (ControlCoordinator ρ (List Announcement) η) where
  step coord operation :=
    let after := ({ coord with stateOut := [] }.operate operation).2
    (after, after.stateOut)

open RelayController Announcement

omit [RelaySink ρ] in
/-- A listener that records hears the changed channels. -/
theorem stateOut_announceChanges (coord : ControlCoordinator ρ (List Announcement) η)
    (after : RelayController ρ) (source : CommandSource) :
    (coord.announceChanges after source).stateOut =
      coord.stateOut ++ ofChannels after.state source (changedChannels coord.relays after) := by
  have hfold (heard : List Announcement) (channels : List ℕ) :
      channels.foldl (fun heard channel ↦
        StateChangePort.onStateChanged heard after channel (after.state channel) source) heard =
        heard ++ ofChannels after.state source channels := by
    induction channels generalizing heard with
    | nil => exact (List.append_nil _).symm
    | cons channel rest ih =>
      rw [List.foldl_cons, ih]
      exact List.append_assoc heard [_] _
  exact hfold _ _

/-- What one operation does: it moves the relays by steps on present channels, and reports the
channels that changed. -/
theorem announced_eq (coord : ControlCoordinator ρ (List Announcement) η)
    (operation : ControlOperation) :
    Drives coord.relays (announcer.step coord operation).1.relays ∧
      (announcer.step coord operation).2 =
        ofChannels (announcer.step coord operation).1.relays.state operation.source
          (changedChannels coord.relays (announcer.step coord operation).1.relays) := by
  have hannounce (after : RelayController ρ) (source : CommandSource) :
      ({ coord with stateOut := [] }.announceChanges after source).stateOut =
        ofChannels after.state source (changedChannels coord.relays after) :=
    stateOut_announceChanges _ _ _
  cases operation with
  | touchEvent channel event =>
    refine ⟨onTouchEvent_drives { coord with stateOut := [] } channel event, ?_⟩
    simp only [announcer, operate, onTouchEvent_eq]
    split_ifs
    · exact hannounce _ _
    · simp only [changedChannels_self]
      rfl
  | submit command =>
    refine ⟨submit_drives { coord with stateOut := [] } command, ?_⟩
    simp only [announcer, operate, submit_eq]
    exact hannounce _ _

omit [RelaySink ρ] in
/-- The changed channels are listed once each. -/
theorem nodup_changedChannels (before after : RelayController ρ) :
    (changedChannels before after).Nodup :=
  List.nodup_range.filter _

/-- The report on one operation turns the states before it into the states behind it, and all of
it is new, of present channels and in the name of the operation. -/
theorem step_spec (coord : ControlCoordinator ρ (List Announcement) η)
    (operation : ControlOperation) :
    replay coord.relays.state (announcer.step coord operation).2 =
        (announcer.step coord operation).1.relays.state ∧
      AllNew coord.relays.state (announcer.step coord operation).2 ∧
      (∀ announcement ∈ (announcer.step coord operation).2,
        announcement.channel < coord.relays.count ∧ announcement.source = operation.source) := by
  obtain ⟨hdrives, hreport⟩ := announced_eq coord operation
  have hcount := hdrives.count_eq
  rw [hreport]
  refine ⟨?_, ?_, ?_⟩
  · rw [replay_ofChannels]
    funext channel
    by_cases hchanged : channel ∈ changedChannels coord.relays
        (announcer.step coord operation).1.relays
    · rw [if_pos hchanged]
    · rw [if_neg hchanged]
      by_contra hstate
      refine hchanged (mem_changedChannels.mpr ⟨?_, Ne.symm hstate⟩)
      by_contra habsent
      rw [RelayController.state, RelayController.state, if_neg (hcount ▸ habsent),
        if_neg habsent] at hstate
      exact hstate rfl
  · exact allNew_ofChannels _ (fun _ hchannel ↦ (mem_changedChannels.mp hchannel).2)
      (nodup_changedChannels _ _)
  · intro announcement hannouncement
    obtain ⟨channel, hchannel, rfl⟩ := List.mem_map.mp hannouncement
    exact ⟨hcount ▸ (mem_changedChannels.mp hchannel).1, rfl⟩

/-- The announcements of a run, replayed on the states before it. -/
theorem replay_reports (coord : ControlCoordinator ρ (List Announcement) η)
    (operations : List ControlOperation) :
    replay coord.relays.state (announcer.reports coord operations).flatten =
        (announcer.final coord operations).relays.state ∧
      AllNew coord.relays.state (announcer.reports coord operations).flatten ∧
      ∀ announcement ∈ (announcer.reports coord operations).flatten,
        announcement.channel < coord.relays.count := by
  induction operations generalizing coord with
  | nil => exact ⟨rfl, trivial, by simp⟩
  | cons operation rest ih =>
    obtain ⟨hreplay, hnew, hpresent⟩ := step_spec coord operation
    obtain ⟨hreplays, hnews, hpresents⟩ := ih (announcer.step coord operation).1
    rw [Machine.reports_cons, List.flatten_cons, Machine.final_cons, replay_append, allNew_append,
      hreplay]
    refine ⟨hreplays, ⟨hnew, hnews⟩, fun announcement hannouncement ↦ ?_⟩
    rcases List.mem_append.mp hannouncement with hnow | hlater
    · exact (hpresent announcement hnow).1
    · exact (announced_eq coord operation).1.count_eq ▸ hpresents announcement hlater

/-- Which listener hears an operation makes no difference to the relays. -/
theorem relays_step (coord : ControlCoordinator ρ (List Announcement) η)
    (operation : ControlOperation) :
    (announcer.step coord operation).1.relays = (coord.operate operation).2.relays := by
  cases operation with
  | touchEvent channel event =>
    simp only [announcer, operate, onTouchEvent_eq]
    split_ifs <;> rfl
  | submit command => simp only [announcer, operate, submit_eq, relays_announceChanges]

/-- A command that fails leaves the relays as they are. -/
theorem relays_operate_of_not_ok {coord : ControlCoordinator ρ (List Announcement) η}
    {operation : ControlOperation} {status : Status}
    (hstatus : (coord.operate operation).1 = some status) (hfail : status.ok = false) :
    (coord.operate operation).2.relays = coord.relays := by
  cases operation with
  | touchEvent channel event => cases hstatus
  | submit command =>
    rw [operate] at hstatus ⊢
    rw [← Option.some.inj hstatus] at hfail
    rw [submit_of_not_ok hfail]

/-- An operation that changes no state announces nothing. -/
theorem step_of_state_eq {coord : ControlCoordinator ρ (List Announcement) η}
    {operation : ControlOperation}
    (hsame : (coord.operate operation).2.relays.state = coord.relays.state) :
    (announcer.step coord operation).2 = [] := by
  rw [(announced_eq coord operation).2, relays_step, changedChannels, hsame]
  simp [ofChannels]

/-- What one operation may announce: in its own name, a channel at most once, and nothing if it
fails or changes no state. -/
structure Announces (coord : ControlCoordinator ρ (List Announcement) η)
    (operation : ControlOperation) (report : List Announcement) : Prop where
  own : ∀ announcement ∈ report, announcement.source = operation.source
  once : (report.map Announcement.channel).Nodup
  none_of_not_ok : ∀ status, (coord.operate operation).1 = some status → status.ok = false →
    report = []
  none_of_unchanged : (coord.operate operation).2.relays.state = coord.relays.state → report = []

theorem announces_step (coord : ControlCoordinator ρ (List Announcement) η)
    (operation : ControlOperation) :
    coord.Announces operation (announcer.step coord operation).2 where
  own announcement hannouncement := ((step_spec coord operation).2.2 announcement hannouncement).2
  once := by
    rw [(announced_eq coord operation).2, ofChannels, List.map_map]
    exact (List.map_id _).symm ▸ nodup_changedChannels _ _
  none_of_not_ok status hstatus hfail :=
    step_of_state_eq (by rw [relays_operate_of_not_ok hstatus hfail])
  none_of_unchanged := step_of_state_eq

/-- The announcements of a run, from any states of any number of channels, turn the states before it
into those behind it. Each reports another state than the replay held, and a present channel, and
each operation announces no more than it may. -/
theorem announcements_replay (coord : ControlCoordinator ρ (List Announcement) η)
    (operations : List ControlOperation) :
    replay coord.relays.state (announcer.reports coord operations).flatten =
        (announcer.final coord operations).relays.state ∧
      AllNew coord.relays.state (announcer.reports coord operations).flatten ∧
      (∀ announcement ∈ (announcer.reports coord operations).flatten,
        announcement.channel < coord.relays.count) ∧
      ∀ before operation after, operations = before ++ operation :: after →
        (announcer.final coord before).Announces operation
          (announcer.step (announcer.final coord before) operation).2 := by
  obtain ⟨hreplay, hnew, hpresent⟩ := replay_reports coord operations
  exact ⟨hreplay, hnew, hpresent, fun _ _ _ _ ↦ announces_step _ _⟩

end ControlCoordinator

end LibreSwitch.Domain
