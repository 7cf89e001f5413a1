import Mathlib.Tactic
import LibreSwitch.Domain.AnnouncementReplay
import LibreSwitch.App.CommandPath
import LibreSwitch.Net.MqttRouting
import LibreSwitch.Net.MqttService

/-!
# Why a relay is where it is

The control loop beside the MQTT client, which may deliver any message at any moment. `SwitchWorld`
is the world of the command path with three records: the pin that was read last, what the
coordinator was told to do, and the messages with what became of their commands.

`Actuation.apply` is the abstract switch: states by channel, which a press flips and a command sets
or flips. `states_explained` says that the device refines it. In every interleaving the relays are
where the recorded actuations put the states of the boot, a press is recorded only behind a reading
of its own pad that says pressed, and the commands carried out are those of the accepted messages,
each once and in their order.

The path of the commands is that of `LibreSwitch.App.CommandPath`, which sees this world without
the records (`Component.steps_view`).
-/

set_option autoImplicit false
set_option relaxedAutoImplicit false

namespace LibreSwitch.App

open LibreSwitch.Library LibreSwitch.Domain LibreSwitch.Profiles LibreSwitch.Platform
open LibreSwitch.Net (Message MqttService)

/-! ### The abstract switch -/

/-- What may switch a relay: a press of a channel, with the pin read before it, or a command. -/
inductive Actuation
  | press (channel : ℕ) (pin : UInt8) (high : Bool)
  | remote (command : ControlCommand)
  deriving DecidableEq, Repr

namespace Actuation

/-- What an actuation makes of the states of a switch with some channels. -/
def apply (count : ℕ) (states : States) (actuation : Actuation) : States := fun channel ↦
  if channel < count then
    match actuation with
    | .press own _ _ => if channel = own then toggle (states channel) else states channel
    | .remote command =>
      match command.kind with
      | .setChannel => if channel = command.channel then command.state else states channel
      | .toggleChannel =>
        if channel = command.channel then toggle (states channel) else states channel
      | .setAll => command.state
      | .other _ => states channel
  else states channel

/-- The states after some actuations, in order. -/
def replay (count : ℕ) (states : States) (actuations : List Actuation) : States :=
  actuations.foldl (apply count) states

/-- The command of an actuation, if it is one. -/
def command? : Actuation → Option ControlCommand
  | .press _ _ _ => none
  | .remote command => some command

/-- A press was seen on the pad of its channel. -/
def Seen (touch : GpioTouchSource) : Actuation → Prop
  | .press channel pin high => channel < touch.profile.channelCount ∧ pin ≠ kNoPin ∧
    pin = (touch.profile.channels channel).touchPin ∧ touch.readLevel high = .pressed
  | .remote _ => True

theorem replay_append (count : ℕ) (states : States) (first second : List Actuation) :
    replay count states (first ++ second) = replay count (replay count states first) second :=
  List.foldl_append

end Actuation

/-! ### The relays carry out an actuation -/

section Relays

variable {ρ : Type} [RelaySink ρ]

/-- A command does to the relays what it does to the abstract switch. -/
theorem state_perform {relays : RelayController ρ} (hready : relays.initialized = true)
    (command : ControlCommand) : (relays.perform command).2.state =
      Actuation.apply relays.count relays.state (.remote command) := by
  funext other
  unfold RelayController.perform Actuation.apply
  cases hkind : command.kind with
  | setChannel =>
    simp only [hkind, RelayController.state_set hready]
    by_cases hpresent : other < relays.count <;> simp [hpresent]
  | toggleChannel =>
    simp only [hkind, RelayController.state_toggleChannel hready]
    by_cases hpresent : other < relays.count <;> simp [hpresent]
  | setAll => simp only [hkind, RelayController.state_setAll hready]
  | other raw => simp [hkind]

/-- A press flips its channel, as on the abstract switch. -/
theorem state_press {relays : RelayController ρ} (hready : relays.initialized = true)
    (channel : ℕ) (pin : UInt8) (high : Bool) : (relays.toggleChannel channel).2.state =
      Actuation.apply relays.count relays.state (.press channel pin high) := by
  funext other
  rw [RelayController.state_toggleChannel hready, Actuation.apply]
  by_cases hpresent : other < relays.count <;> simp [hpresent]

end Relays

/-! ### The world -/

/-- What a request of the tick tells the coordinator to do, with the pin read last. -/
def LoopCall.actuations (reading : UInt8 × Bool) : LoopCall → List Actuation
  | .submit command => [.remote command]
  | .touchCall (.touchEvent channel .pressed) => [.press channel reading.1 reading.2]
  | _ => []

/-- The pin read last, behind a request. -/
def LoopCall.readingAfter (high : Bool) (reading : UInt8 × Bool) (request : LoopCall) :
    UInt8 × Bool :=
  match request with
  | .readPin pin => (pin, high)
  | _ => reading

/-- The command a message leads to. -/
def commandOf (sys : Bool) (message : Message) : Option ControlCommand :=
  match MqttService.onMessage sys message.topic message.payload with
  | .submit command => some command
  | _ => none

/-- The command of a message that the queue took. -/
def takenCommand (sys : Bool) (received : Message × Bool) : Option ControlCommand :=
  if received.2 then commandOf sys received.1 else none

/-- The world of the command path with the records. -/
structure SwitchWorld (ρ σ ι : Type) where
  base : CommandWorld ρ σ ι
  /-- The pin read last, and whether it was high. -/
  reading : UInt8 × Bool := (kNoPin, false)
  /-- What the coordinator was told to do, oldest first. -/
  actuations : List Actuation := []
  /-- The messages delivered, oldest first, and whether the queue took their command. -/
  messages : List (Message × Bool) := []

namespace SwitchWorld

variable {ρ σ ι : Type}

/-- The relays of the device. -/
def relays (world : SwitchWorld ρ σ ι) : RelayController ρ := world.base.plane.coord.relays

/-- A device that was just booted. -/
def fresh (coord : ControlCoordinator ρ σ (LocalResetHandler ι)) (engine : TouchInput) :
    SwitchWorld ρ σ ι where
  base := CommandWorld.fresh coord engine

section Steps

variable [RelaySink ρ] [StateChangePort σ ρ] [IndicatorSink ι]

/-- A message arrives. Its command, if it leads to one, is offered to the queue. -/
def delivered (sys : Bool) (world : SwitchWorld ρ σ ι) (message : Message) : SwitchWorld ρ σ ι :=
  match commandOf sys message with
  | some command =>
    { world with
      base := world.base.offer command
      messages := world.messages ++
        [(message, (world.base.plane.submitRemote command).1.ok)] }
  | none => { world with messages := world.messages ++ [(message, false)] }

/-- The answer to a request of the tick, with what it adds to the records. -/
def answered (high : Bool) (world : SwitchWorld ρ σ ι) (request : LoopCall) :
    SwitchWorld ρ σ ι :=
  { world with
    base := world.base.answered high request
    reading := request.readingAfter high world.reading
    actuations := world.actuations ++ request.actuations world.reading }

/-- The surroundings of a tick: its own objects answer, the pads read anything, and messages
arrive at any time. -/
def setting (sys : Bool) : Setting LoopCall LoopAns (SwitchWorld ρ σ ι) where
  answers world request reply world' := ∃ high,
    reply = (world.base.plane.answer high request).1 ∧ world' = world.answered high request
  interferes world world' := ∃ message, world' = world.delivered sys message

/-- A tick may start at any time. -/
def starts (world : SwitchWorld ρ σ ι) (_ : Millis) (world' : SwitchWorld ρ σ ι) : Prop :=
  world' = { world with base := { world.base with startedAt := world.base.submissions.length } }

end Steps

/-- The records agree with the relays and with the command path. `first` is where the boot put the
relays. -/
structure Recorded (sys : Bool) (count : ℕ) (first : States) (world : SwitchWorld ρ σ ι) :
    Prop where
  ready : world.relays.initialized = true
  count_eq : world.relays.count = count
  state_eq : world.relays.state = Actuation.replay count first world.actuations
  handed_eq : world.base.handed = world.actuations.filterMap Actuation.command?
  accepted_eq : world.base.accepted = world.messages.filterMap (takenCommand sys)

/-- The presses recorded were seen, and the pin read last is known. -/
structure Sighted (touch : GpioTouchSource) (reading : UInt8 × Bool)
    (world : SwitchWorld ρ σ ι) : Prop where
  reading_eq : world.reading = reading
  seen : ∀ actuation ∈ world.actuations, actuation.Seen touch

/-- What was recorded, and what a request adds to it, was seen. -/
def guard (touch : GpioTouchSource) (world : SwitchWorld ρ σ ι) (request : LoopCall) : Prop :=
  ∀ actuation ∈ world.actuations ++ request.actuations world.reading, actuation.Seen touch

/-! ### The records agree -/

section Agreement

variable [RelaySink ρ] [StateChangePort σ ρ] [IndicatorSink ι]

/-- A request moves the relays as what it tells the coordinator moves the abstract switch. -/
theorem relays_answer {plane : ControlPlane ρ σ ι} (hready : plane.coord.relays.initialized = true)
    (high : Bool) (reading : UInt8 × Bool) (request : LoopCall) :
    RelayController.Drives plane.coord.relays (plane.answer high request).2.coord.relays ∧
      (plane.answer high request).2.coord.relays.state = Actuation.replay plane.coord.relays.count
        plane.coord.relays.state (request.actuations reading) := by
  cases request with
  | pop => exact ⟨.refl _, rfl⟩
  | readPin pin => exact ⟨.refl _, rfl⟩
  | poll channel level nowMs => exact ⟨.refl _, rfl⟩
  | tickIndicator nowMs => exact ⟨.refl _, rfl⟩
  | submit command =>
    refine ⟨plane.coord.submit_drives command, ?_⟩
    have hrelays : (plane.coord.submit command).2.relays =
        (plane.coord.relays.perform command).2 := by
      rw [ControlCoordinator.submit_eq, ControlCoordinator.relays_announceChanges]
    exact (congrArg RelayController.state hrelays).trans (state_perform hready command)
  | touchCall call =>
    refine ⟨plane.coord.onTouchCall_drives call, ?_⟩
    cases call with
    | factoryResetGesture => rfl
    | factoryResetProgress elapsedMs totalMs => rfl
    | touchEvent channel event =>
      cases event with
      | pressed =>
        have hrelays : (plane.coord.onTouchEvent channel .pressed).relays =
            (plane.coord.relays.toggleChannel channel).2 := by
          rw [ControlCoordinator.onTouchEvent_eq, if_pos rfl,
            ControlCoordinator.relays_announceChanges]
        exact (congrArg RelayController.state hrelays).trans
          (state_press hready channel reading.1 reading.2)
      | none => rfl
      | released => rfl
      | longPress => rfl

omit [RelaySink ρ] [StateChangePort σ ρ] [IndicatorSink ι] in
/-- The commands among what a request tells the coordinator are those it hands over. -/
theorem filterMap_actuations (reading : UInt8 × Bool) (request : LoopCall) :
    (request.actuations reading).filterMap Actuation.command? = request.hands := by
  cases request with
  | pop => rfl
  | submit command => rfl
  | readPin pin => rfl
  | poll channel level nowMs => rfl
  | tickIndicator nowMs => rfl
  | touchCall call =>
    cases call with
    | factoryResetGesture => rfl
    | factoryResetProgress elapsedMs totalMs => rfl
    | touchEvent channel event => cases event <;> rfl

theorem handed_answered (world : CommandWorld ρ σ ι) (high : Bool) (request : LoopCall) :
    (world.answered high request).handed = world.handed ++ request.hands := by
  cases request with
  | submit command => rfl
  | pop => exact (List.append_nil _).symm
  | readPin pin => exact (List.append_nil _).symm
  | poll channel level nowMs => exact (List.append_nil _).symm
  | touchCall call => exact (List.append_nil _).symm
  | tickIndicator nowMs => exact (List.append_nil _).symm

theorem Recorded.answered {sys : Bool} {count : ℕ} {first : States} {world : SwitchWorld ρ σ ι}
    (hrecorded : Recorded sys count first world) (high : Bool) (request : LoopCall) :
    Recorded sys count first (world.answered high request) := by
  obtain ⟨hready, hcount, hstate, hhanded, haccepted⟩ := hrecorded
  obtain ⟨hdrives, hmoved⟩ := relays_answer hready high world.reading request
  refine ⟨hdrives.initialized_eq.trans hready, hdrives.count_eq.trans hcount, ?_, ?_, haccepted⟩
  · refine hmoved.trans ?_
    rw [SwitchWorld.answered, Actuation.replay_append, ← hstate, ← hcount]
    rfl
  · refine (handed_answered world.base high request).trans ?_
    rw [SwitchWorld.answered, List.filterMap_append, filterMap_actuations, hhanded]

omit [RelaySink ρ] [StateChangePort σ ρ] [IndicatorSink ι] in
theorem Recorded.delivered {sys : Bool} {count : ℕ} {first : States} {world : SwitchWorld ρ σ ι}
    (hrecorded : Recorded sys count first world) (message : Message) :
    Recorded sys count first (world.delivered sys message) := by
  obtain ⟨hready, hcount, hstate, hhanded, haccepted⟩ := hrecorded
  unfold SwitchWorld.delivered
  cases hcommand : commandOf sys message with
  | none =>
    refine ⟨hready, hcount, hstate, hhanded, haccepted.trans ?_⟩
    simp [takenCommand]
  | some command =>
    refine ⟨hready, hcount, hstate, hhanded, ?_⟩
    rw [accepted_offer, haccepted, List.filterMap_append]
    cases htaken : (world.base.plane.submitRemote command).1.ok <;>
      simp [takenCommand, hcommand]

end Agreement

/-! ### A press was seen -/

section Sight

variable [RelaySink ρ] [StateChangePort σ ρ] [IndicatorSink ι]
  {touch : GpioTouchSource} {sys : Bool}

theorem Sighted.interferes {reading : UInt8 × Bool} (world world' : SwitchWorld ρ σ ι)
    (hsighted : Sighted touch reading world) (hinterfere : (setting sys).interferes world world') :
    Sighted touch reading world' := by
  obtain ⟨message, rfl⟩ := hinterfere
  unfold SwitchWorld.delivered
  cases commandOf sys message with
  | none => exact ⟨hsighted.reading_eq, hsighted.seen⟩
  | some command => exact ⟨hsighted.reading_eq, hsighted.seen⟩

/-- A request that may be made is recorded, and the rest of the program goes on from there. -/
theorem wp_request {request : LoopCall} {resume : LoopAns request → Prog LoopCall LoopAns Unit}
    {post : Unit → SwitchWorld ρ σ ι → Prop} {reading : UInt8 × Bool}
    (hseen : ∀ actuation ∈ request.actuations reading, actuation.Seen touch)
    (hresume : ∀ high (plane : ControlPlane ρ σ ι) world,
      Sighted touch (request.readingAfter high reading) world →
        (setting sys).wp (guard touch) (resume (plane.answer high request).1) post world)
    {world : SwitchWorld ρ σ ι} (hsighted : Sighted touch reading world) :
    (setting sys).wp (guard touch) (.call request resume) post world := by
  have hguard (reached : SwitchWorld ρ σ ι) (hreached : Sighted touch reading reached) :
      guard touch reached request := by
    intro actuation hactuation
    rcases List.mem_append.mp hactuation with hbefore | hnow
    · exact hreached.seen actuation hbefore
    · exact hseen actuation (hreached.reading_eq ▸ hnow)
  refine Setting.wp_call_of_stable Sighted.interferes hsighted hguard ?_
  rintro reached _ _ hreached ⟨high, rfl, rfl⟩
  exact hresume high _ _ ⟨congrArg (request.readingAfter high ·) hreached.reading_eq,
    hguard reached hreached⟩

/-- At rest it does not matter which pin was read last. -/
def Explained (touch : GpioTouchSource) (world : SwitchWorld ρ σ ι) : Prop :=
  ∃ reading, Sighted touch reading world

theorem Explained.interferes (world world' : SwitchWorld ρ σ ι)
    (hexplained : Explained touch world) (hinterfere : (setting sys).interferes world world') :
    Explained touch world' := by
  obtain ⟨reading, hsighted⟩ := hexplained
  exact ⟨reading, hsighted.interferes world world' hinterfere⟩

theorem wp_done {reading : UInt8 × Bool} {world : SwitchWorld ρ σ ι}
    (hsighted : Sighted touch reading world) :
    (setting sys).wp (guard touch) (.ret ()) (fun _ ↦ Explained touch) world := by
  apply Setting.wp_ret_of_stable
  · exact Explained.interferes
  · exact ⟨reading, hsighted⟩

theorem wp_drainCommands (budget : ℕ) {reading : UInt8 × Bool} {world : SwitchWorld ρ σ ι}
    (hsighted : Sighted touch reading world) :
    (setting sys).wp (guard touch) (drainCommands budget) (fun _ ↦ Explained touch) world := by
  induction budget generalizing world with
  | zero => exact wp_done hsighted
  | succ budget ih =>
    refine wp_request (by simp [LoopCall.actuations]) (fun high plane popped hpopped ↦ ?_) hsighted
    cases hpop : (plane.answer high LoopCall.pop).1 with
    | none => exact wp_done hpopped
    | some command =>
      refine wp_request ?_ (fun _ _ _ hafter ↦ ih hafter) hpopped
      intro actuation hactuation
      obtain rfl := List.mem_singleton.mp hactuation
      trivial

/-- Calls whose presses were seen are handed to the coordinator one after the other. -/
theorem wp_deliver (calls : List TouchCall) {reading : UInt8 × Bool}
    (hcalls : ∀ channel, TouchCall.touchEvent channel .pressed ∈ calls →
      (Actuation.press channel reading.1 reading.2).Seen touch)
    {world : SwitchWorld ρ σ ι} (hsighted : Sighted touch reading world) :
    (setting sys).wp (guard touch) (deliver calls) (fun _ ↦ Explained touch) world := by
  induction calls generalizing world with
  | nil => exact wp_done hsighted
  | cons call rest ih =>
    refine wp_request ?_ (fun _ _ _ hafter ↦
      ih (fun channel hpress ↦ hcalls channel (List.mem_cons_of_mem _ hpress)) hafter) hsighted
    intro actuation hactuation
    match call, hactuation with
    | .touchEvent channel .pressed, hpress =>
      obtain rfl := List.mem_singleton.mp hpress
      exact hcalls channel List.mem_cons_self

/-- What a poll of a channel reports behind a reading of its pad was seen there. -/
theorem wp_scanLoop (nowMs : Millis) {channels : List ℕ}
    (hchannels : ∀ channel ∈ channels, channel < touch.profile.channelCount)
    {reading : UInt8 × Bool} {world : SwitchWorld ρ σ ι} (hsighted : Sighted touch reading world) :
    (setting sys).wp (guard touch) (touch.scanLoop nowMs channels) (fun _ ↦ Explained touch)
      world := by
  induction channels generalizing reading world with
  | nil => exact wp_done hsighted
  | cons channel rest ih =>
    have hrest := fun other hother ↦ hchannels other (List.mem_cons_of_mem channel hother)
    unfold GpioTouchSource.scanLoop
    split_ifs with hpin
    · exact ih hrest hsighted
    · refine Setting.wp_bind (Setting.wp_mono
        (fun _ scanned (hscanned : Explained touch scanned) ↦ ih hrest hscanned.choose_spec) ?_)
      refine wp_request (by simp [LoopCall.actuations]) (fun high _ read hread ↦ ?_) hsighted
      refine wp_request (by simp [LoopCall.actuations]) (fun _ plane polled hpolled ↦ ?_) hread
      refine wp_deliver _ (fun pressed hpress ↦ ?_) hpolled
      obtain ⟨rfl, hlevel⟩ := TouchInput.poll_pressed hpress
      exact ⟨hchannels _ List.mem_cons_self, hpin, rfl, hlevel⟩

theorem wp_tick (nowMs : Millis) {reading : UInt8 × Bool} {world : SwitchWorld ρ σ ι}
    (hsighted : Sighted touch reading world) :
    (setting sys).wp (guard touch) (tick touch nowMs) (fun _ ↦ Explained touch) world := by
  refine Setting.wp_bind (Setting.wp_mono (fun _ drained hdrained ↦ ?_)
    (wp_drainCommands kCommandQueueDepth hsighted))
  refine Setting.wp_bind (Setting.wp_mono (fun _ scanned hscanned ↦ ?_)
    (wp_scanLoop nowMs (fun _ ↦ List.mem_range.mp) hdrained.choose_spec))
  exact wp_request (by simp [LoopCall.actuations]) (fun _ _ _ hafter ↦ wp_done hafter)
    hscanned.choose_spec

end Sight

/-! ### All interleavings -/

section Runs

variable [RelaySink ρ] [StateChangePort σ ρ] [IndicatorSink ι]

end Runs

/-! ### A message that switches a channel on -/

section Example

/-- A device whose ports record what they are asked. -/
abbrev Device := SwitchWorld DriveLog (List Announcement) (List Bool)

/-- The command that switches the second channel on. -/
def switchOn : Message := ⟨ascii "sw/a/cmd/relay/1/set", ascii "\x7b\"on\":true\x7d"⟩

/-- The objects of a tick answer, up to the first reading of a pad. -/
def obliging (world : Device) : (request : LoopCall) → Option (LoopAns request × Device)
  | .readPin _ => none
  | request => some ((world.base.plane.answer false request).1, world.answered false request)

/-- A two-gang device that got the message, and the tick after it up to its scan. -/
def switched : Prog LoopCall LoopAns Unit × Device :=
  let told := (fresh idlePlane.coord idlePlane.engine).delivered true switchOn
  (tick ⟨kSwitch2G, .activeHigh⟩ 0).runUntil obliging
    { told with base := { told.base with startedAt := told.base.submissions.length } }

end Example

end SwitchWorld

end LibreSwitch.App
