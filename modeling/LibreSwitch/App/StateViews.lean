import LibreSwitch.App.BoardPins
import LibreSwitch.App.LogAnchors
import LibreSwitch.App.PersistingStateListener
import LibreSwitch.Domain.AnnouncementReplay
import LibreSwitch.Net.MqttService
import LibreSwitch.Platform.QueueRefinement

/-!
# The views of the relay states

`FanOutStateChange` of `app/fan_out_state_change.h` with the listeners that the composition root
registers: the log, the serial console, the persisted snapshot and the publish queue. Each is told
of a change by itself, and none can tell what the others do.

`mapOut_operate` is the reason: a view of a listener that hears what the listener hears can be
looked at in its place. So a run with any listeners is the run with a listener that only keeps what
it heard (`operateAll_eq`), and each listener is a function of that.

From a boot on, all views agree (`views_agree`): the pins have the levels of the states, the stored
record restores them, and the log records, replayed on the states of the boot, give them. Here the
store takes every save, while the device goes on without a save that fails, and the publish queue is
only filled, while in the device the net task drains it.
-/

set_option autoImplicit false
set_option relaxedAutoImplicit false

namespace LibreSwitch.App

open LibreSwitch.Library LibreSwitch.Domain LibreSwitch.Adapters LibreSwitch.Platform
open LibreSwitch.Profiles LibreSwitch.Net LibreSwitch.Log

/-! ### The fan-out -/

/-- `FanOutStateChange`: the registered listeners, in order, at most so many. -/
structure FanOutStateChange (μ : Type) (maxListeners : ℕ) where
  listeners : List μ
  length_le : listeners.length ≤ maxListeners

namespace FanOutStateChange

variable {μ ρ : Type} {maxListeners : ℕ}

/-- A fan-out without listeners. -/
def none : FanOutStateChange μ maxListeners := ⟨[], Nat.zero_le _⟩

/-- `add`; no listener stands for the null pointer. -/
def add (fan : FanOutStateChange μ maxListeners) (listener : Option μ) :
    Bool × FanOutStateChange μ maxListeners :=
  match listener with
  | .none => (false, fan)
  | some listener =>
    if hroom : fan.listeners.length < maxListeners then
      (true, ⟨fan.listeners ++ [listener], by simpa using hroom⟩)
    else (false, fan)

instance [StateChangePort μ ρ] : StateChangePort (FanOutStateChange μ maxListeners) ρ where
  onStateChanged fan relays channel state source :=
    ⟨fan.listeners.map fun listener ↦
      StateChangePort.onStateChanged listener relays channel state source,
      (List.length_map _).trans_le fan.length_le⟩

end FanOutStateChange

/-! ### The listeners of the composition root -/

namespace SerialStateListener

def sourceName (source : CommandSource) : Bytes := MqttPayload.sourceName source

/-- The line that `onStateChanged` prints. -/
def line (change : Announcement) : Bytes :=
  ascii "[state] ch=" ++ decimal change.channel ++
    ascii (if change.state = .on then " ON " else " OFF") ++ ascii " src=" ++
    sourceName change.source ++ [13, 10]

end SerialStateListener

/-- A listener that the composition root registers: the log, with the changes it was told to log,
the serial console with the lines printed on it, the persisted snapshot in a store that takes every
save, and the MQTT service with its publish queue, from which nothing is taken. -/
inductive RootListener
  | logging (changes : List Announcement)
  | serial (lines : List Bytes)
  | persisting (listener : PersistingStateListener (FlashDbStatePersistence KvMap))
  | publishing (queue : BoundedQueue PendingState kPublishQueueDepth)

/-- What is queued of a change. -/
def pendingState (change : Announcement) : PendingState :=
  ⟨change.channel, change.state, change.source⟩

instance {ρ : Type} : StateChangePort RootListener ρ where
  onStateChanged listener relays channel state source :=
    match listener with
    | .logging changes => .logging (changes ++ [⟨channel, state, source⟩])
    | .serial lines => .serial (lines ++ [SerialStateListener.line ⟨channel, state, source⟩])
    | .persisting listener =>
      .persisting (StateChangePort.onStateChanged listener relays channel state source)
    | .publishing queue => .publishing (queue.push (pendingState ⟨channel, state, source⟩)).2

/-- The fan-out of the composition root. -/
abbrev RootFanOut := FanOutStateChange RootListener 5

theorem kPublishQueueDepth_pos : 0 < kPublishQueueDepth := Nat.succ_pos 15

/-- The registrations of `begin`, in its order: the log if it was bound, the console, the snapshot
and the MQTT service if it was configured. -/
def rootFanOut (logged mqtt : Bool) (kv : KvMap) : RootFanOut :=
  let fan : RootFanOut := FanOutStateChange.none
  let fan := if logged then (fan.add (some (.logging []))).2 else fan
  let fan := (fan.add (some (.serial []))).2
  let fan := (fan.add (some (.persisting ⟨⟨kv⟩⟩))).2
  if mqtt then
    (fan.add (some (.publishing (BoundedQueue.new kPublishQueueDepth_pos .dropOldest)))).2
  else fan

/-- No registration is refused. -/
theorem listeners_rootFanOut (logged mqtt : Bool) (kv : KvMap) :
    (rootFanOut logged mqtt kv).listeners =
      (if logged then [.logging []] else []) ++ [.serial [], .persisting ⟨⟨kv⟩⟩] ++
        if mqtt then [.publishing (BoundedQueue.new kPublishQueueDepth_pos .dropOldest)]
        else [] := by
  cases logged <;> cases mqtt <;> rfl

/-! ### A listener in the place of another -/

section MapOut

variable {ρ σ τ η : Type} [RelaySink ρ] [StateChangePort σ ρ] [StateChangePort τ ρ]

/-- The coordinator with a view of its listener in the listener's place. -/
def mapOut (view : σ → τ) (coord : ControlCoordinator ρ σ η) : ControlCoordinator ρ τ η where
  relays := coord.relays
  stateOut := view coord.stateOut
  reset := coord.reset

/-- A view hears what the listener hears. -/
def Hears (ρ : Type) [StateChangePort σ ρ] [StateChangePort τ ρ] (view : σ → τ) : Prop :=
  ∀ (heard : σ) (relays : RelayController ρ) (channel : ℕ) (state : RelayState)
    (source : CommandSource),
    view (StateChangePort.onStateChanged heard relays channel state source) =
      StateChangePort.onStateChanged (view heard) relays channel state source

omit [RelaySink ρ] in
theorem mapOut_announceChanges {view : σ → τ} (hview : Hears ρ view)
    (coord : ControlCoordinator ρ σ η) (after : RelayController ρ) (source : CommandSource) :
    mapOut view (coord.announceChanges after source) =
      (mapOut view coord).announceChanges after source := by
  have hfold (heard : σ) (channels : List ℕ) :
      view (channels.foldl (fun heard channel ↦ StateChangePort.onStateChanged heard after channel
        (after.state channel) source) heard) =
      channels.foldl (fun heard channel ↦ StateChangePort.onStateChanged heard after channel
        (after.state channel) source) (view heard) := by
    induction channels generalizing heard with
    | nil => rfl
    | cons channel rest ih => rw [List.foldl_cons, List.foldl_cons, ih, hview]
  simp only [mapOut, ControlCoordinator.announceChanges, hfold]

/-- An operation is the same for a view that hears what the listener hears. -/
theorem mapOut_operate {view : σ → τ} (hview : Hears ρ view) (coord : ControlCoordinator ρ σ η)
    (operation : ControlOperation) :
    mapOut view (coord.operate operation).2 = ((mapOut view coord).operate operation).2 := by
  cases operation with
  | touchEvent channel event =>
    simp only [ControlCoordinator.operate, ControlCoordinator.onTouchEvent_eq]
    split_ifs
    · exact mapOut_announceChanges hview coord _ _
    · rfl
  | submit command =>
    simp only [ControlCoordinator.operate, ControlCoordinator.submit_eq]
    exact mapOut_announceChanges hview coord _ _

/-- The coordinator behind a list of operations. -/
def operateAll (coord : ControlCoordinator ρ σ η) (operations : List ControlOperation) :
    ControlCoordinator ρ σ η :=
  operations.foldl (fun reached operation ↦ (reached.operate operation).2) coord

theorem mapOut_operateAll {view : σ → τ} (hview : Hears ρ view) (coord : ControlCoordinator ρ σ η)
    (operations : List ControlOperation) :
    mapOut view (operateAll coord operations) = operateAll (mapOut view coord) operations := by
  induction operations generalizing coord with
  | nil => rfl
  | cons operation rest ih => exact (ih _).trans (by rw [mapOut_operate hview]; rfl)

end MapOut

/-- The newest of the newest and more are the newest of all. -/
theorem rtake_rtake_append {β : Type} (n : ℕ) (first second : List β) :
    (first.rtake n ++ second).rtake n = (first ++ second).rtake n := by
  rw [List.rtake, List.rtake, List.rtake, List.length_append, List.length_append,
    List.length_drop, List.drop_append, List.drop_append, List.drop_drop, List.length_drop]
  congr 2 <;> omega

/-! ### What every listener hears -/

section Heard

variable {ρ σ η : Type} [RelaySink ρ]

/-- A listener that keeps what it heard, with the relays it came with. -/
structure Heard (ρ : Type) where
  calls : List (RelayController ρ × Announcement) := []

instance : StateChangePort (Heard ρ) ρ where
  onStateChanged heard relays channel state source :=
    ⟨heard.calls ++ [(relays, ⟨channel, state, source⟩)]⟩

/-- The changes that were heard. -/
def Heard.changes (heard : Heard ρ) : List Announcement := heard.calls.map Prod.snd

omit [RelaySink ρ] in
theorem hears_changes : Hears ρ (Heard.changes (ρ := ρ)) :=
  fun _ _ _ _ _ ↦ List.map_append

section Listener

variable [StateChangePort σ ρ]

/-- A listener told of one change. -/
def tell (listener : σ) (call : RelayController ρ × Announcement) : σ :=
  StateChangePort.onStateChanged listener call.1 call.2.channel call.2.state call.2.source

omit [RelaySink ρ] in
theorem hears_foldl (listener : σ) :
    Hears ρ fun heard : Heard ρ ↦ heard.calls.foldl tell listener :=
  fun _ _ _ _ _ ↦ List.foldl_append

/-- A run with any listener is the run with one that only listens, and the listener told of what
that one heard. -/
theorem operateAll_eq (relays : RelayController ρ) (listener : σ) (reset : η)
    (operations : List ControlOperation) :
    operateAll ⟨relays, listener, reset⟩ operations =
      mapOut (fun heard : Heard ρ ↦ heard.calls.foldl tell listener)
        (operateAll ⟨relays, {}, reset⟩ operations) :=
  (mapOut_operateAll (hears_foldl listener) ⟨relays, {}, reset⟩ operations).symm

end Listener

omit [RelaySink ρ] in
/-- A fan-out told of changes has told each of its listeners. -/
theorem listeners_foldl {μ : Type} {maxListeners : ℕ} [StateChangePort μ ρ]
    (fan : FanOutStateChange μ maxListeners) (calls : List (RelayController ρ × Announcement)) :
    (calls.foldl tell fan).listeners = fan.listeners.map fun listener ↦
      calls.foldl tell listener := by
  induction calls generalizing fan with
  | nil => exact (List.map_id' _).symm
  | cons call rest ih =>
    rw [List.foldl_cons, ih]
    exact List.map_map

/-- Every operation moves the relays by steps on present channels. -/
theorem operate_drives [StateChangePort σ ρ] (coord : ControlCoordinator ρ σ η)
    (operation : ControlOperation) : coord.relays.Drives (coord.operate operation).2.relays := by
  cases operation with
  | touchEvent channel event => exact coord.onTouchEvent_drives channel event
  | submit command => exact coord.submit_drives command

theorem operateAll_drives [StateChangePort σ ρ] (coord : ControlCoordinator ρ σ η)
    (operations : List ControlOperation) :
    coord.relays.Drives (operateAll coord operations).relays := by
  induction operations generalizing coord with
  | nil => exact .refl _
  | cons operation rest ih => exact (operate_drives coord operation).trans (ih _)

open Announcement in
/-- The changes heard so far make of the first states what the states are. -/
def Replays (start : States) (coord : ControlCoordinator ρ (List Announcement) η) : Prop :=
  replay start coord.stateOut = coord.relays.state ∧
    ∀ change ∈ coord.stateOut, change.channel < coord.relays.count

theorem replays_operate {start : States} {coord : ControlCoordinator ρ (List Announcement) η}
    (hreplays : Replays start coord) (operation : ControlOperation) :
    Replays start (coord.operate operation).2 := by
  obtain ⟨hreplay, hpresent⟩ := hreplays
  obtain ⟨hstep, -, hreported⟩ := ControlCoordinator.step_spec coord operation
  have hhears : Hears ρ fun heard : List Announcement ↦ coord.stateOut ++ heard :=
    fun _ _ _ _ _ ↦ (List.append_assoc _ _ _).symm
  have hcoord : mapOut (fun heard ↦ coord.stateOut ++ heard) { coord with stateOut := [] } =
      coord := by rw [mapOut, List.append_nil]
  have hafter : (coord.operate operation).2 = mapOut (fun heard ↦ coord.stateOut ++ heard)
      (ControlCoordinator.announcer.step coord operation).1 := by
    conv_lhs => rw [← hcoord]
    exact (mapOut_operate hhears _ operation).symm
  have hcount := (operate_drives coord operation).count_eq
  refine ⟨?_, fun change hchange ↦ ?_⟩
  · rw [hafter, mapOut, Announcement.replay_append, hreplay]
    exact hstep
  · rw [hcount]
    rw [hafter] at hchange
    rcases List.mem_append.mp hchange with hbefore | hnow
    · exact hpresent change hbefore
    · exact (hreported change hnow).1

/-- The changes that a run announces, replayed on the states before it, give those behind it. -/
theorem replays_operateAll (relays : RelayController ρ) (reset : η)
    (operations : List ControlOperation) :
    let ran := operateAll ⟨relays, ({} : Heard ρ), reset⟩ operations
    Announcement.replay relays.state ran.stateOut.changes = ran.relays.state ∧
      ∀ change ∈ ran.stateOut.changes, change.channel < relays.count := by
  intro ran
  have hrun : Replays relays.state
      (operateAll (⟨relays, [], reset⟩ : ControlCoordinator ρ (List Announcement) η)
        operations) := by
    induction operations using List.reverseRecOn with
    | nil => exact ⟨rfl, by simp [operateAll]⟩
    | append_singleton past operation ih =>
      rw [operateAll, List.foldl_append, List.foldl_cons, List.foldl_nil]
      exact replays_operate ih operation
  have hview : operateAll (⟨relays, [], reset⟩ : ControlCoordinator ρ (List Announcement) η)
      operations = mapOut Heard.changes ran :=
    (mapOut_operateAll hears_changes ⟨relays, {}, reset⟩ operations).symm
  rw [hview] at hrun
  have hcount : ran.relays.count = relays.count :=
    (operateAll_drives ⟨relays, ({} : Heard ρ), reset⟩ operations).count_eq
  exact ⟨hrun.1, fun change hchange ↦ hcount ▸ hrun.2 change hchange⟩

end Heard

/-! ### Reading the log -/

namespace LoggingStateListener

/-- The source that an argument of a record stands for. -/
def sourceOf (arg : UInt16) : Option CommandSource :=
  [CommandSource.local_, .cloud, .lan, .boot, .internal].find? fun source ↦ sourceArg source = arg

/-- The change that a record tells of, if it tells of one. -/
def changeOf (record : LogRecord) : Option Announcement :=
  if record.code = EventCode.relayOn.raw then
    (sourceOf record.arg2).map fun source ↦ ⟨record.arg1.toNat, .on, source⟩
  else if record.code = EventCode.relayOff.raw then
    (sourceOf record.arg2).map fun source ↦ ⟨record.arg1.toNat, .off, source⟩
  else none

theorem sourceOf_sourceArg (source : CommandSource) : sourceOf (sourceArg source) =
    some source := by
  cases source <;> rfl

/-- The second clock leaves the event of a record alone. -/
theorem event_of_stampUtc {logger : Logger} {record stamped : LogRecord} {trace : List LogEvent}
    (hruns : (logger.stampUtc record).Runs trace stamped) :
    stamped.code = record.code ∧ stamped.arg1 = record.arg1 ∧ stamped.arg2 = record.arg2 := by
  simp only [Logger.stampUtc, Prog.ask_bind, Prog.runs_call] at hruns
  obtain ⟨synced, rest, rfl, hrest⟩ := hruns
  cases synced with
  | true =>
    simp only [↓reduceIte, Prog.pure_eq, Prog.runs_call] at hrest
    obtain ⟨utc, last, rfl, rfl, rfl⟩ := hrest
    exact ⟨rfl, rfl, rfl⟩
  | false =>
    simp only [Bool.false_eq_true, ↓reduceIte] at hrest
    obtain ⟨rfl, rfl⟩ := hrest
    exact ⟨rfl, rfl, rfl⟩

/-- One call of the logger gives the sink one record, of the event it was called with. -/
theorem record_of_log {logger : Logger} {code : EventCode} {severity : Severity}
    {arg1 arg2 : UInt16} {trace : List LogEvent} {taken : Bool}
    (hruns : (logger.log code severity arg1 arg2).Runs trace taken) :
    ∃ record, Logger.appends trace = [(record, taken)] ∧ record.code = code.raw ∧
      record.arg1 = arg1 ∧ record.arg2 = arg2 := by
  obtain ⟨record, first, second, rfl, hbuild, happend⟩ := Prog.runs_bind.mp hruns
  simp only [Logger.buildRecord, Prog.ask_bind, Prog.runs_call] at hbuild
  obtain ⟨uptime, rest, rfl, hrest⟩ := hbuild
  obtain ⟨stamped, middle, last, rfl, hutc, rfl, hrecord⟩ := Prog.runs_bind.mp hrest
  obtain rfl : record = stamped := hrecord
  obtain ⟨answer, rest, rfl, rfl, rfl⟩ := happend
  obtain ⟨hcode, harg1, harg2⟩ := event_of_stampUtc hutc
  obtain ⟨-, -, happends, -⟩ := Logger.stampUtc_of_runs hutc
  refine ⟨record, ?_, hcode, harg1, harg2⟩
  rw [List.append_nil]
  change Logger.appends (middle ++ [_]) = _
  rw [Logger.appends_append, happends, List.nil_append]
  exact Logger.appends_encode record record.uptimeMs taken

/-- What is logged of changes tells of the same changes, in order, whatever the clocks read and
whatever the sink takes. -/
theorem changeOf_of_runs {logger : Logger} {changes : List Announcement} {trace : List LogEvent}
    (hruns : (onStateChanges logger changes).Runs trace ())
    (hsmall : ∀ change ∈ changes, change.channel < 65536) :
    (Logger.appends trace).filterMap (fun append ↦ changeOf append.1) = changes := by
  induction changes generalizing trace with
  | nil =>
    obtain ⟨rfl, -⟩ := hruns
    rfl
  | cons change rest ih =>
    obtain ⟨_, first, second, rfl, hfirst, hsecond⟩ := Prog.runs_bind.mp hruns
    obtain ⟨taken, logged, last, rfl, hlog, rfl, -⟩ := Prog.runs_bind.mp hfirst
    obtain ⟨record, happends, hcode, harg1, harg2⟩ := record_of_log hlog
    have hchannel : (UInt16.ofNat change.channel).toNat = change.channel := by
      rw [UInt16.toNat_ofNat', Nat.mod_eq_of_lt (hsmall change List.mem_cons_self)]
    have hchange : changeOf record = some change := by
      obtain ⟨channel, state, source⟩ := change
      cases state with
      | on => simp [changeOf, hcode, harg1, harg2, sourceOf_sourceArg, hchannel]
      | off =>
        have hne : EventCode.relayOff.raw ≠ EventCode.relayOn.raw := by decide
        simp [changeOf, hcode, harg1, harg2, sourceOf_sourceArg, hchannel, hne]
    rw [List.append_nil, Logger.appends_append, List.filterMap_append, happends,
      ih hsecond fun other hother ↦ hsmall other (List.mem_cons_of_mem _ hother)]
    simp [hchange]

end LoggingStateListener

/-! ### The views -/

section Views

variable {ρ η : Type} [RelaySink ρ]

omit [RelaySink ρ] in
theorem foldl_logging (changes : List Announcement)
    (calls : List (RelayController ρ × Announcement)) :
    calls.foldl tell (RootListener.logging changes) =
      .logging (changes ++ calls.map Prod.snd) := by
  induction calls generalizing changes with
  | nil => exact congrArg RootListener.logging (List.append_nil _).symm
  | cons call rest ih => exact (ih _).trans (by rw [List.append_assoc]; rfl)

omit [RelaySink ρ] in
theorem foldl_serial (lines : List Bytes) (calls : List (RelayController ρ × Announcement)) :
    calls.foldl tell (RootListener.serial lines) =
      .serial (lines ++ (calls.map Prod.snd).map SerialStateListener.line) := by
  induction calls generalizing lines with
  | nil => exact congrArg RootListener.serial (List.append_nil _).symm
  | cons call rest ih => exact (ih _).trans (by rw [List.append_assoc]; rfl)

omit [RelaySink ρ] in
theorem foldl_persisting (listener : PersistingStateListener (FlashDbStatePersistence KvMap))
    (calls : List (RelayController ρ × Announcement)) :
    calls.foldl tell (RootListener.persisting listener) =
      .persisting (calls.foldl tell listener) := by
  induction calls generalizing listener with
  | nil => rfl
  | cons call rest ih => exact ih _

omit [RelaySink ρ] in
/-- A queue that drops its oldest item holds the newest of what it was told. -/
theorem foldl_publishing (queue : BoundedQueue PendingState kPublishQueueDepth)
    (hpolicy : queue.policy = .dropOldest) (calls : List (RelayController ρ × Announcement)) :
    ∃ told : BoundedQueue PendingState kPublishQueueDepth,
      calls.foldl tell (RootListener.publishing queue) = .publishing told ∧
        told.toList = (queue.toList ++ (calls.map Prod.snd).map pendingState).rtake
          kPublishQueueDepth := by
  induction calls generalizing queue with
  | nil =>
    refine ⟨queue, rfl, ?_⟩
    rw [List.map_nil, List.map_nil, List.append_nil, List.rtake,
      Nat.sub_eq_zero_of_le queue.length_toList_le, List.drop_zero]
  | cons call rest ih =>
    obtain ⟨told, hfold, htold⟩ := ih (queue.push (pendingState call.2)).2
      ((BoundedQueue.policy_push queue _).trans hpolicy)
    have hpush : (queue.push (pendingState call.2)).2.toList =
        (queue.toList ++ [pendingState call.2]).rtake kPublishQueueDepth := by
      have hlist := congrArg Prod.snd (BoundedQueue.push_eq_listPush queue (pendingState call.2))
      rw [hpolicy] at hlist
      exact hlist
    refine ⟨told, hfold, ?_⟩
    rw [htold, hpush, rtake_rtake_append, List.append_assoc]
    rfl

/-- A change saved is the change restored: the snapshot stays that of the live states. -/
theorem stored_operate {channelCount : ℕ} (hcount : channelCount ≤ kMaxChannels)
    {device : PersistingStateListener.Device ρ η}
    (hstored : PersistingStateListener.Stored channelCount device) (operation : ControlOperation) :
    PersistingStateListener.Stored channelCount (device.operate operation).2 := by
  cases operation with
  | touchEvent channel event =>
    simp only [ControlCoordinator.operate, ControlCoordinator.onTouchEvent_eq]
    split_ifs
    · exact hstored.announceChanges hcount (device.relays.toggleChannel_drives channel) _
    · exact hstored
  | submit command =>
    simp only [ControlCoordinator.operate, ControlCoordinator.submit_eq]
    exact hstored.announceChanges hcount (device.relays.perform_drives command) _

theorem stored_operateAll {channelCount : ℕ} (hcount : channelCount ≤ kMaxChannels)
    {device : PersistingStateListener.Device ρ η}
    (hstored : PersistingStateListener.Stored channelCount device)
    (operations : List ControlOperation) :
    PersistingStateListener.Stored channelCount (operateAll device operations) := by
  induction operations generalizing device with
  | nil => exact hstored
  | cons operation rest ih => exact ih (stored_operate hcount hstored operation)

omit [RelaySink ρ] in
/-- A queue that drops its oldest item, told of a run from its start, holds the newest of what the
run announced. -/
theorem published_of_run (calls : List (RelayController ρ × Announcement)) :
    ∃ queue : BoundedQueue PendingState kPublishQueueDepth,
      calls.foldl tell (RootListener.publishing (BoundedQueue.new kPublishQueueDepth_pos
        .dropOldest)) = .publishing queue ∧
      queue.toList = ((calls.map Prod.snd).map pendingState).rtake kPublishQueueDepth := by
  obtain ⟨queue, hqueue, hnewest⟩ :=
    foldl_publishing (BoundedQueue.new kPublishQueueDepth_pos .dropOldest) rfl calls
  rw [BoundedQueue.toList_new, List.nil_append] at hnewest
  exact ⟨queue, hqueue, hnewest⟩

/-- From the end of a boot that succeeded on, behind any commands and touch events, all views of the
relay states agree. The listeners have been told of the same changes in the same order; replayed on
the states of the boot, these give the live states. The pin of every channel has the level of its
state; the stored record restores it, as every save succeeds; and the queue of the MQTT service,
which is not drained, holds the sixteen newest changes. What the log was asked to append tells of
these changes, whatever the clocks read and whatever the sink takes. -/
theorem views_agree (build : Build) (world : BootWorld KvMap) {plane : Plane}
    (hok : (setup build world).ok = true) (hplane : (setup build world).plane = some plane)
    (logged mqtt : Bool) (reset : η) (operations : List ControlOperation) :
    let booted : ControlCoordinator (GpioRelaySink PinLog) RootFanOut η :=
      ⟨plane.relays, rootFanOut logged mqtt (bootStore build world), reset⟩
    let device := operateAll booted operations
    ∃ announced saved queue,
      device.stateOut.listeners =
        (if logged then [.logging announced] else []) ++
          [.serial (announced.map SerialStateListener.line), .persisting saved] ++
          (if mqtt then [.publishing queue] else []) ∧
      Announcement.replay plane.relays.state announced = device.relays.state ∧
      (∀ channel < device.relays.count,
        device.relays.sink.hal.lastLevel
            (device.relays.sink.profile.channels channel).relayPin =
          some (GpioRelaySink.level build.relayPolarity (device.relays.state channel)) ∧
        BootPolicy.bootTarget saved.persist .restoreLast channel = device.relays.state channel) ∧
      queue.toList = (announced.map pendingState).rtake kPublishQueueDepth ∧
      ∀ (logger : Logger) (trace : List LogEvent),
        (LoggingStateListener.onStateChanges logger announced).Runs trace () →
        Announcement.replay plane.relays.state ((Logger.appends trace).filterMap fun append ↦
          LoggingStateListener.changeOf append.1) = device.relays.state := by
  intro booted device
  obtain ⟨profile, hmem, hinitialized, hstates, hwired, hlockstep⟩ := lockstep_of_setup hok hplane
  obtain ⟨⟨-, hle⟩, -, -⟩ := kProfiles_pins profile hmem
  -- one run stands for all listeners
  let ran := operateAll ⟨plane.relays, ({} : Heard (GpioRelaySink PinLog)), reset⟩ operations
  have hrelays : device.relays = ran.relays :=
    congrArg ControlCoordinator.relays (operateAll_eq plane.relays _ reset operations)
  have hlisteners : device.stateOut.listeners =
      (rootFanOut logged mqtt (bootStore build world)).listeners.map fun listener ↦
        ran.stateOut.calls.foldl tell listener := by
    rw [← listeners_foldl]
    exact congrArg (fun coord ↦ coord.stateOut.listeners)
      (operateAll_eq plane.relays (rootFanOut logged mqtt (bootStore build world)) reset operations)
  obtain ⟨hreplay, hpresent⟩ := replays_operateAll plane.relays reset operations
  have hpins : GpioRelaySink.Lockstep profile build.relayPolarity ran.relays :=
    .drives hwired (operateAll_drives ⟨plane.relays, ({} : Heard _), reset⟩ operations) hlockstep
  -- the snapshot is that of the run with the persisting listener alone
  let persisting : PersistingStateListener.Device (GpioRelaySink PinLog) η :=
    ⟨plane.relays, ⟨⟨bootStore build world⟩⟩, reset⟩
  have hstart : PersistingStateListener.Stored profile.channelCount persisting :=
    ⟨hinitialized, hlockstep.count_eq, fun channel hchannel ↦ (hstates channel hchannel).symm⟩
  have hstored := stored_operateAll hle hstart operations
  rw [operateAll_eq] at hstored
  obtain ⟨queue, hqueue, hnewest⟩ := published_of_run ran.stateOut.calls
  refine ⟨ran.stateOut.changes, ran.stateOut.calls.foldl tell ⟨⟨bootStore build world⟩⟩, queue,
    ?_, hrelays ▸ hreplay, fun channel hchannel ↦ ⟨?_, ?_⟩, hnewest, fun logger trace hruns ↦ ?_⟩
  · rw [hlisteners, listeners_rootFanOut]
    cases logged <;> cases mqtt <;>
      simp [foldl_logging, foldl_serial, foldl_persisting, hqueue, Heard.changes]
  · rw [hrelays] at hchannel ⊢
    have hpin := hpins.inStep channel (hpins.count_eq ▸ hchannel)
    rw [GpioRelaySink.InStep, hpins.polarity_eq] at hpin
    rw [hpin, RelayController.state, if_pos hchannel]
  · rw [hrelays] at hchannel ⊢
    exact hstored.restores channel (hpins.count_eq ▸ hchannel)
  · have hsmall : ∀ change ∈ ran.stateOut.changes, change.channel < 65536 := by
      intro change hchange
      have hchannel := hpresent change hchange
      rw [hlockstep.count_eq] at hchannel
      exact hchannel.trans_le (hle.trans (by decide))
    rw [LoggingStateListener.changeOf_of_runs hruns hsmall, hrelays]
    exact hreplay

/-- A four-gang device on its first boot, seeded with its profile. -/
def fourGangBuild : Build := { seedProfile := some 4 }

theorem views_agree_four_gang :
    ∃ plane, (setup fourGangBuild { kv := (⟨fun _ ↦ none⟩ : KvMap) }).plane = some plane ∧
      ∃ announced, Announcement.replay plane.relays.state announced =
        (operateAll
          ⟨plane.relays,
            rootFanOut true true (bootStore fourGangBuild { kv := ⟨fun _ ↦ none⟩ }), ()⟩
          [.touchEvent 1 .pressed, .submit { kind := .setAll, state := .on }]).relays.state := by
  obtain ⟨plane, hok, hplane, -⟩ :=
    @setup_of_profile KvMap _ fourGangBuild { kv := ⟨fun _ ↦ none⟩ } _ rfl rfl
  obtain ⟨announced, -, -, -, hreplay, -⟩ := views_agree fourGangBuild _ hok hplane true true ()
    [.touchEvent 1 .pressed, .submit { kind := .setAll, state := .on }]
  exact ⟨plane, hplane, announced, hreplay⟩

end Views

end LibreSwitch.App
