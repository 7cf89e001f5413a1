import Mathlib.Tactic
import LibreSwitch.Library.Interaction
import LibreSwitch.Domain.ControlCoordinator
import LibreSwitch.Domain.IndicatorController
import LibreSwitch.Profiles.DeviceProfile
import LibreSwitch.Platform.BoundedQueue

/-!
# The control loop

`ControlLoop` of `app/control_loop.h` with `GpioTouchSource` of `adapters/gpio_touch_source.h`,
`CommandQueuePort` and `SyncCommandSource` of `app/command_sink.h` and the `LocalResetHandler` that
the composition root gives the coordinator. One tick is a program over the objects it works on:
it drains the command queue within a budget, scans the pads, and ticks the indicator. The objects
are the `ControlPlane`. The queue is shared with the task that submits remote commands, and the
pads are read from outside; everything else belongs to the control task.

`touch_independent_of_remote` compares two whole runs over the same pads and times but different
remote traffic. What the touch engine sees and what it reports are the same in both
(`SameTouch`), since a drain leaves the engine and the pads alone and a scan depends on nothing
else. Every tick polls all pads that there are (`padPolls`), and what these polls report reaches the
coordinator.
-/

set_option autoImplicit false
set_option relaxedAutoImplicit false

namespace LibreSwitch.App

open LibreSwitch.Library LibreSwitch.Domain LibreSwitch.Profiles LibreSwitch.Platform

/-! ### The objects -/

/-- `kCommandQueueDepth`. -/
def kCommandQueueDepth : ℕ := 8

theorem kCommandQueueDepth_pos : 0 < kCommandQueueDepth := Nat.succ_pos 7

/-- `LocalResetHandler` of `app/composition_root.h`, with the indicator it refers to. -/
structure LocalResetHandler (ι : Type) where
  indicator : IndicatorController ι
  resetRequested : Bool := false

instance {ι : Type} [IndicatorSink ι] : FactoryResetHandler (LocalResetHandler ι) where
  onFactoryResetRequested handler := { handler with resetRequested := true }
  onFactoryResetProgress handler elapsedMs totalMs :=
    { handler with
      indicator := (handler.indicator.setStatus .factoryReset).setResetProgress elapsedMs totalMs }

/-- `TouchActiveLevel`. -/
inductive TouchActiveLevel
  | activeHigh
  | activeLow
  deriving DecidableEq, Repr

/-- `GpioTouchSource`, apart from the pins and the engine it works on. -/
structure GpioTouchSource where
  profile : DeviceProfile
  active : TouchActiveLevel := .activeHigh

/-- The objects a tick works on. -/
structure ControlPlane (ρ σ ι : Type) where
  queue : BoundedQueue ControlCommand kCommandQueueDepth
  coord : ControlCoordinator ρ σ (LocalResetHandler ι)
  engine : TouchInput

/-- What a tick asks of them. -/
inductive LoopCall
  | pop
  | submit (command : ControlCommand)
  | readPin (pin : UInt8)
  | poll (channel : ℕ) (level : TouchLevel) (nowMs : Millis)
  | touchCall (call : TouchCall)
  | tickIndicator (nowMs : Millis)

/-- What it gets back. -/
abbrev LoopAns : LoopCall → Type
  | .pop => Option ControlCommand
  | .submit _ => Status
  | .readPin _ => Bool
  | .poll _ _ _ => Status × List TouchCall
  | .touchCall _ => Unit
  | .tickIndicator _ => Unit

/-! ### The tick -/

open Prog (ask Moment)

/-- `drainCommands`, with the budget that is left. -/
def drainCommands : ℕ → Prog LoopCall LoopAns Unit
  | 0 => pure ()
  | budget + 1 => do
    match ← ask LoopCall.pop with
    | none => pure ()
    | some command =>
      let _ ← ask (LoopCall.submit command)
      drainCommands budget

/-- The calls a poll makes on its sink, the coordinator. -/
def deliver : List TouchCall → Prog LoopCall LoopAns Unit
  | [] => pure ()
  | call :: rest => do
    let _ ← ask (LoopCall.touchCall call)
    deliver rest

namespace GpioTouchSource

/-- The level a pin reading stands for. -/
def readLevel (touch : GpioTouchSource) (high : Bool) : TouchLevel :=
  let pressed := if touch.active = .activeHigh then high else !high
  if pressed then .pressed else .released

/-- The body of the loop of `scan`, on a real pin. -/
def scanChannel (touch : GpioTouchSource) (nowMs : Millis) (channel : ℕ) :
    Prog LoopCall LoopAns Unit := do
  let high ← ask (LoopCall.readPin (touch.profile.channels channel).touchPin)
  let polled ← ask (LoopCall.poll channel (touch.readLevel high) nowMs)
  deliver polled.2

/-- The loop of `scan` over the channels still to read. -/
def scanLoop (touch : GpioTouchSource) (nowMs : Millis) : List ℕ → Prog LoopCall LoopAns Unit
  | [] => pure ()
  | channel :: rest =>
    if (touch.profile.channels channel).touchPin = kNoPin then scanLoop touch nowMs rest
    else do
      touch.scanChannel nowMs channel
      scanLoop touch nowMs rest

def scan (touch : GpioTouchSource) (nowMs : Millis) : Prog LoopCall LoopAns Unit :=
  touch.scanLoop nowMs (List.range touch.profile.channelCount)

end GpioTouchSource

/-- `ControlLoop::tick`. -/
def tick (touch : GpioTouchSource) (nowMs : Millis) : Prog LoopCall LoopAns Unit := do
  drainCommands kCommandQueueDepth
  touch.scan nowMs
  ask (LoopCall.tickIndicator nowMs)

namespace ControlPlane

variable {ρ σ ι : Type} [RelaySink ρ] [StateChangePort σ ρ] [IndicatorSink ι]

/-- How the objects answer, given what a pin would read. -/
def answer (high : Bool) (plane : ControlPlane ρ σ ι) :
    (request : LoopCall) → LoopAns request × ControlPlane ρ σ ι
  | .pop => (plane.queue.pop.1, { plane with queue := plane.queue.pop.2 })
  | .submit command =>
    ((plane.coord.submit command).1, { plane with coord := (plane.coord.submit command).2 })
  | .readPin _ => (high, plane)
  | .poll channel level nowMs =>
    (((plane.engine.poll channel level nowMs).1, (plane.engine.poll channel level nowMs).2.2),
      { plane with engine := (plane.engine.poll channel level nowMs).2.1 })
  | .touchCall call => ((), { plane with coord := plane.coord.onTouchCall call })
  | .tickIndicator nowMs =>
    ((), { plane with coord := { plane.coord with
      reset := { plane.coord.reset with indicator := plane.coord.reset.indicator.tick nowMs } } })

/-- `CommandQueuePort::submit`: offers a remote command to the queue. -/
def submitRemote (plane : ControlPlane ρ σ ι) (command : ControlCommand) :
    Status × ControlPlane ρ σ ι :=
  (if (plane.queue.push command).1 then .success else .fail .busy,
    { plane with queue := (plane.queue.push command).2 })

end ControlPlane

/-! ### Runs over a trace of pad readings -/

/-- The objects with the pad readings to come, in the order they will be read. -/
structure Bench (ρ σ ι : Type) where
  plane : ControlPlane ρ σ ι
  readings : ℕ → Bool

/-- Something that happens to the control plane: a remote submission, or a tick with its time and
the readings its scan will get. -/
inductive LoopEvent
  | submit (command : ControlCommand)
  | tick (nowMs : Millis) (readings : ℕ → Bool)

section Runs

variable {ρ σ ι : Type}

/-- The ticks of a run, without the remote traffic. -/
def ticks : List LoopEvent → List (Millis × (ℕ → Bool))
  | [] => []
  | .submit _ :: rest => ticks rest
  | .tick nowMs readings :: rest => (nowMs, readings) :: ticks rest

/-- The calls the touch engine makes on its sink, in order. -/
def touchCalls (history : List (Moment LoopCall (Bench ρ σ ι))) : List TouchCall :=
  history.filterMap fun moment ↦
    match moment.request with
    | .touchCall call => some call
    | _ => none

/-- The remote commands executed, in order. -/
def executed (history : List (Moment LoopCall (Bench ρ σ ι))) : List ControlCommand :=
  history.filterMap fun moment ↦
    match moment.request with
    | .submit command => some command
    | _ => none

/-- The polls made, in order. -/
def polled (history : List (Moment LoopCall (Bench ρ σ ι))) : List (ℕ × TouchLevel × Millis) :=
  history.filterMap fun moment ↦
    match moment.request with
    | .poll channel level nowMs => some (channel, level, nowMs)
    | _ => none

/-- What the touch engine reported at the polls, in order. -/
def reported (history : List (Moment LoopCall (Bench ρ σ ι))) : List TouchCall :=
  history.flatMap fun moment ↦
    match moment.request with
    | .poll channel level nowMs => (moment.before.plane.engine.poll channel level nowMs).2.2
    | _ => []

@[simp] theorem touchCalls_append (first second : List (Moment LoopCall (Bench ρ σ ι))) :
    touchCalls (first ++ second) = touchCalls first ++ touchCalls second :=
  List.filterMap_append

@[simp] theorem executed_append (first second : List (Moment LoopCall (Bench ρ σ ι))) :
    executed (first ++ second) = executed first ++ executed second :=
  List.filterMap_append

@[simp] theorem polled_append (first second : List (Moment LoopCall (Bench ρ σ ι))) :
    polled (first ++ second) = polled first ++ polled second :=
  List.filterMap_append

@[simp] theorem reported_append (first second : List (Moment LoopCall (Bench ρ σ ι))) :
    reported (first ++ second) = reported first ++ reported second :=
  List.flatMap_append

/-- The polls of a scan: every real pin takes the next reading. -/
def GpioTouchSource.padPolls (touch : GpioTouchSource) (nowMs : Millis) :
    List ℕ → (ℕ → Bool) → List (ℕ × TouchLevel × Millis)
  | [], _ => []
  | channel :: rest, readings =>
    if (touch.profile.channels channel).touchPin = kNoPin then padPolls touch nowMs rest readings
    else
      (channel, touch.readLevel (readings 0), nowMs) ::
        padPolls touch nowMs rest fun position ↦ readings (position + 1)

/-- Two benches that the touch engine cannot tell apart. -/
def SameTouch (first second : Bench ρ σ ι) : Prop :=
  first.plane.engine = second.plane.engine ∧ first.readings = second.readings

theorem SameTouch.trans {first middle last : Bench ρ σ ι} (hfirst : SameTouch first middle)
    (hlast : SameTouch middle last) : SameTouch first last :=
  ⟨hfirst.1.trans hlast.1, hfirst.2.trans hlast.2⟩

theorem SameTouch.symm {first second : Bench ρ σ ι} (hsame : SameTouch first second) :
    SameTouch second first :=
  ⟨hsame.1.symm, hsame.2.symm⟩

variable [RelaySink ρ] [StateChangePort σ ρ] [IndicatorSink ι]

/-- The answers on a bench: a pin read takes the next reading. -/
def respond (bench : Bench ρ σ ι) (request : LoopCall) : LoopAns request × Bench ρ σ ι :=
  ((bench.plane.answer (bench.readings 0) request).1,
    { plane := (bench.plane.answer (bench.readings 0) request).2
      readings := match request with
        | .readPin _ => fun position ↦ bench.readings (position + 1)
        | _ => bench.readings })

/-- The requests of each tick of a run, in order. -/
def tickHistories (touch : GpioTouchSource) (plane : ControlPlane ρ σ ι) :
    List LoopEvent → List (List (Moment LoopCall (Bench ρ σ ι)))
  | [] => []
  | .submit command :: rest => tickHistories touch (plane.submitRemote command).2 rest
  | .tick nowMs readings :: rest =>
    (App.tick touch nowMs).history respond ⟨plane, readings⟩ ::
      tickHistories touch ((App.tick touch nowMs).runOn respond ⟨plane, readings⟩).2.plane rest

/-! ### What each part of a tick does -/

/-- A drain makes no touch call, leaves engine and pads alone, and executes no more commands than
its budget. -/
theorem drainCommands_spec (budget : ℕ) (bench : Bench ρ σ ι) :
    touchCalls ((drainCommands budget).history respond bench) = [] ∧
      SameTouch ((drainCommands budget).runOn respond bench).2 bench ∧
      (executed ((drainCommands budget).history respond bench)).length ≤ budget := by
  induction budget generalizing bench with
  | zero => exact ⟨rfl, ⟨rfl, rfl⟩, le_rfl⟩
  | succ budget ih =>
    simp only [drainCommands, Prog.ask_bind, Prog.history_call, Prog.runOn_call]
    cases hpop : (respond bench LoopCall.pop).1 with
    | none => exact ⟨rfl, ⟨rfl, rfl⟩, Nat.zero_le _⟩
    | some command =>
      obtain ⟨hcalls, hsame, hexecuted⟩ :=
        ih (respond (respond bench LoopCall.pop).2 (LoopCall.submit command)).2
      exact ⟨hcalls, hsame, Nat.succ_le_succ hexecuted⟩

/-- Delivering calls makes them, in order, and leaves engine and pads alone. -/
theorem deliver_spec (calls : List TouchCall) (bench : Bench ρ σ ι) :
    touchCalls ((deliver calls).history respond bench) = calls ∧
      SameTouch ((deliver calls).runOn respond bench).2 bench ∧
      executed ((deliver calls).history respond bench) = [] := by
  induction calls generalizing bench with
  | nil => exact ⟨rfl, ⟨rfl, rfl⟩, rfl⟩
  | cons call rest ih =>
    simp only [deliver, Prog.ask_bind, Prog.history_call, Prog.runOn_call]
    obtain ⟨hcalls, hsame, hexecuted⟩ := ih (respond bench (LoopCall.touchCall call)).2
    exact ⟨congrArg (call :: ·) hcalls, hsame, hexecuted⟩

/-- What a scan of one channel does to the engine and the pads, and the calls it makes, follow from
the engine and the pads alone. It executes no command. -/
theorem scanChannel_spec (touch : GpioTouchSource) (nowMs : Millis) (channel : ℕ)
    (bench : Bench ρ σ ι) :
    touchCalls ((touch.scanChannel nowMs channel).history respond bench) =
        (bench.plane.engine.poll channel (touch.readLevel (bench.readings 0)) nowMs).2.2 ∧
      ((touch.scanChannel nowMs channel).runOn respond bench).2.plane.engine =
        (bench.plane.engine.poll channel (touch.readLevel (bench.readings 0)) nowMs).2.1 ∧
      ((touch.scanChannel nowMs channel).runOn respond bench).2.readings =
        (fun position ↦ bench.readings (position + 1)) ∧
      executed ((touch.scanChannel nowMs channel).history respond bench) = [] := by
  simp only [GpioTouchSource.scanChannel, Prog.ask_bind, Prog.history_call, Prog.runOn_call]
  obtain ⟨hcalls, hsame, hexecuted⟩ := deliver_spec
    (bench.plane.engine.poll channel (touch.readLevel (bench.readings 0)) nowMs).2.2
    (respond (respond bench (LoopCall.readPin (touch.profile.channels channel).touchPin)).2
      (LoopCall.poll channel (touch.readLevel (bench.readings 0)) nowMs)).2
  exact ⟨hcalls, hsame.1, hsame.2, hexecuted⟩

/-- Two benches the engine cannot tell apart make the same touch calls in a scan, and stay the
same to it. A scan executes no command. -/
theorem scanLoop_spec (touch : GpioTouchSource) (nowMs : Millis) (channels : List ℕ)
    {first second : Bench ρ σ ι} (hsame : SameTouch first second) :
    touchCalls ((touch.scanLoop nowMs channels).history respond first) =
        touchCalls ((touch.scanLoop nowMs channels).history respond second) ∧
      SameTouch ((touch.scanLoop nowMs channels).runOn respond first).2
        ((touch.scanLoop nowMs channels).runOn respond second).2 ∧
      executed ((touch.scanLoop nowMs channels).history respond first) = [] := by
  induction channels generalizing first second with
  | nil => exact ⟨rfl, hsame, rfl⟩
  | cons channel rest ih =>
    unfold GpioTouchSource.scanLoop
    split_ifs with hpin
    · exact ih hsame
    · obtain ⟨hcalls, hengine, hreadings, hexecuted⟩ := scanChannel_spec touch nowMs channel first
      obtain ⟨hcalls', hengine', hreadings', -⟩ := scanChannel_spec touch nowMs channel second
      have hafter : SameTouch ((touch.scanChannel nowMs channel).runOn respond first).2
          ((touch.scanChannel nowMs channel).runOn respond second).2 := by
        refine ⟨?_, ?_⟩
        · rw [hengine, hengine', hsame.1, hsame.2]
        · rw [hreadings, hreadings', hsame.2]
      obtain ⟨hrest, hlast, hnone⟩ := ih hafter
      rw [Prog.history_bind, Prog.history_bind, Prog.runOn_bind, Prog.runOn_bind,
        touchCalls_append, touchCalls_append, executed_append, hcalls, hcalls', hsame.1, hsame.2]
      exact ⟨congrArg _ hrest, hlast, by rw [hexecuted, hnone]; rfl⟩

/-- Two benches the engine cannot tell apart make the same touch calls in a tick, and stay the
same to it. A tick executes at most as many commands as the queue is deep. -/
theorem tick_spec (touch : GpioTouchSource) (nowMs : Millis) {first second : Bench ρ σ ι}
    (hsame : SameTouch first second) :
    touchCalls ((tick touch nowMs).history respond first) =
        touchCalls ((tick touch nowMs).history respond second) ∧
      SameTouch ((tick touch nowMs).runOn respond first).2
        ((tick touch nowMs).runOn respond second).2 ∧
      (executed ((tick touch nowMs).history respond first)).length ≤ kCommandQueueDepth := by
  obtain ⟨hcalls, hdrain, hexecuted⟩ := drainCommands_spec kCommandQueueDepth first
  obtain ⟨hcalls', hdrain', -⟩ := drainCommands_spec kCommandQueueDepth second
  obtain ⟨hscan, hafter, hnone⟩ := scanLoop_spec touch nowMs
    (List.range touch.profile.channelCount) ((hdrain.trans hsame).trans hdrain'.symm)
  simp only [tick, Prog.history_bind, Prog.runOn_bind, touchCalls_append, executed_append, hcalls,
    hcalls']
  refine ⟨?_, ⟨hafter.1, hafter.2⟩, ?_⟩
  · exact congrArg (· ++ []) hscan
  · have htotal : executed ((touch.scan nowMs).history respond
        ((drainCommands kCommandQueueDepth).runOn respond first).2) = [] := hnone
    have hindicator (bench : Bench ρ σ ι) :
        executed ((ask (LoopCall.tickIndicator nowMs)).history respond bench) = [] := rfl
    rw [htotal, hindicator, List.nil_append, List.append_nil]
    exact hexecuted

/-- Neither a drain nor a delivery polls. -/
theorem drainCommands_quiet (budget : ℕ) (bench : Bench ρ σ ι) :
    polled ((drainCommands budget).history respond bench) = [] ∧
      reported ((drainCommands budget).history respond bench) = [] := by
  induction budget generalizing bench with
  | zero => exact ⟨rfl, rfl⟩
  | succ budget ih =>
    simp only [drainCommands, Prog.ask_bind, Prog.history_call]
    cases hpop : (respond bench LoopCall.pop).1 with
    | none => exact ⟨rfl, rfl⟩
    | some command => exact ih _

theorem deliver_quiet (calls : List TouchCall) (bench : Bench ρ σ ι) :
    polled ((deliver calls).history respond bench) = [] ∧
      reported ((deliver calls).history respond bench) = [] := by
  induction calls generalizing bench with
  | nil => exact ⟨rfl, rfl⟩
  | cons call rest ih =>
    simp only [deliver, Prog.ask_bind, Prog.history_call]
    exact ih _

/-- A scan polls the channels with a real pin, and makes the calls that these polls report. -/
theorem scanLoop_polls (touch : GpioTouchSource) (nowMs : Millis) (channels : List ℕ)
    (bench : Bench ρ σ ι) :
    polled ((touch.scanLoop nowMs channels).history respond bench) =
        touch.padPolls nowMs channels bench.readings ∧
      touchCalls ((touch.scanLoop nowMs channels).history respond bench) =
        reported ((touch.scanLoop nowMs channels).history respond bench) := by
  induction channels generalizing bench with
  | nil => exact ⟨rfl, rfl⟩
  | cons channel rest ih =>
    unfold GpioTouchSource.scanLoop GpioTouchSource.padPolls
    split_ifs with hpin
    · exact ih bench
    · obtain ⟨hcalls, -, hreadings, -⟩ := scanChannel_spec touch nowMs channel bench
      obtain ⟨hpolls, hreports⟩ := ih ((touch.scanChannel nowMs channel).runOn respond bench).2
      have hscanned : polled ((touch.scanChannel nowMs channel).history respond bench) =
            [(channel, touch.readLevel (bench.readings 0), nowMs)] ∧
          reported ((touch.scanChannel nowMs channel).history respond bench) =
            (bench.plane.engine.poll channel (touch.readLevel (bench.readings 0)) nowMs).2.2 := by
        simp only [GpioTouchSource.scanChannel, Prog.ask_bind, Prog.history_call]
        obtain ⟨hpolled, hreported⟩ := deliver_quiet
          (bench.plane.engine.poll channel (touch.readLevel (bench.readings 0)) nowMs).2.2
          (respond (respond bench (LoopCall.readPin (touch.profile.channels channel).touchPin)).2
            (LoopCall.poll channel (touch.readLevel (bench.readings 0)) nowMs)).2
        exact ⟨congrArg (_ :: ·) hpolled, (congrArg (_ ++ ·) hreported).trans (List.append_nil _)⟩
      rw [Prog.history_bind, polled_append, touchCalls_append, reported_append, hcalls,
        hscanned.1, hscanned.2, hpolls, hreports, hreadings]
      exact ⟨rfl, rfl⟩

theorem tick_polls (touch : GpioTouchSource) (nowMs : Millis) (bench : Bench ρ σ ι) :
    polled ((tick touch nowMs).history respond bench) =
        touch.padPolls nowMs (List.range touch.profile.channelCount) bench.readings ∧
      touchCalls ((tick touch nowMs).history respond bench) =
        reported ((tick touch nowMs).history respond bench) := by
  obtain ⟨hcalls, hsame, -⟩ := drainCommands_spec kCommandQueueDepth bench
  obtain ⟨hpolled, hreported⟩ := drainCommands_quiet kCommandQueueDepth bench
  obtain ⟨hpolls, hreports⟩ := scanLoop_polls touch nowMs (List.range touch.profile.channelCount)
    ((drainCommands kCommandQueueDepth).runOn respond bench).2
  rw [hsame.2] at hpolls
  simp only [tick, GpioTouchSource.scan, Prog.history_bind, polled_append, touchCalls_append,
    reported_append, hcalls, hpolled, hreported, hpolls, hreports]
  exact ⟨List.append_nil _, rfl⟩

/-- In a run every tick polls the pads with its own readings, at its own time. -/
theorem polled_tickHistories (touch : GpioTouchSource) (events : List LoopEvent)
    (plane : ControlPlane ρ σ ι) :
    (tickHistories touch plane events).map polled = (ticks events).map fun tick ↦
      touch.padPolls tick.1 (List.range touch.profile.channelCount) tick.2 := by
  induction events generalizing plane with
  | nil => rfl
  | cons event rest ih =>
    cases event with
    | submit command => exact ih _
    | tick nowMs readings =>
      rw [tickHistories, ticks, List.map_cons, List.map_cons, ih, (tick_polls touch nowMs _).1]

theorem touchCalls_eq_reported (touch : GpioTouchSource) (events : List LoopEvent)
    {plane : ControlPlane ρ σ ι} :
    ∀ history ∈ tickHistories touch plane events, touchCalls history = reported history := by
  induction events generalizing plane with
  | nil => simp [tickHistories]
  | cons event rest ih =>
    cases event with
    | submit command => exact ih
    | tick nowMs readings =>
      intro history hhistory
      rcases List.mem_cons.mp hhistory with rfl | hlater
      · exact (tick_polls touch nowMs _).2
      · exact ih history hlater

/-- The touch calls of a run are those of the run without its remote traffic. -/
theorem touchCalls_tickHistories (touch : GpioTouchSource) (events : List LoopEvent)
    {first second : ControlPlane ρ σ ι} (hengine : first.engine = second.engine) :
    (tickHistories touch first events).map touchCalls =
      (tickHistories touch second
        ((ticks events).map fun event ↦ .tick event.1 event.2)).map touchCalls := by
  induction events generalizing first second with
  | nil => rfl
  | cons event rest ih =>
    cases event with
    | submit command => exact ih hengine
    | tick nowMs readings =>
      have hsame : SameTouch ⟨first, readings⟩ ⟨second, readings⟩ := ⟨hengine, rfl⟩
      obtain ⟨hcalls, hafter, -⟩ := tick_spec touch nowMs hsame
      simp only [tickHistories, ticks, List.map_cons, hcalls, ih hafter.1]

/-! ### What a tick does to the relays -/

/-- An answer moves the relays by steps of the controller, and only commands and touch calls move
them at all. -/
theorem answer_drives (high : Bool) (plane : ControlPlane ρ σ ι) (request : LoopCall) :
    plane.coord.relays.Drives (plane.answer high request).2.coord.relays := by
  cases request with
  | submit command => exact plane.coord.submit_drives command
  | touchCall call => exact plane.coord.onTouchCall_drives call
  | pop => exact .refl _
  | readPin pin => exact .refl _
  | poll channel level nowMs => exact .refl _
  | tickIndicator nowMs => exact .refl _

/-- The relays are initialized with a given number of channels. -/
def Ready (channelCount : ℕ) (relays : RelayController ρ) : Prop :=
  relays.initialized = true ∧ relays.count = channelCount

theorem Ready.drives {channelCount : ℕ} {before after : RelayController ρ}
    (hready : Ready channelCount before) (hdrives : before.Drives after) :
    Ready channelCount after :=
  ⟨hdrives.initialized_eq.trans hready.1, hdrives.count_eq.trans hready.2⟩

/-- Relays that are ready stay so through a tick, and every moment of it finds them ready and is
an answer on the bench. -/
theorem tick_ready (touch : GpioTouchSource) (nowMs : Millis) (bench : Bench ρ σ ι)
    {channelCount : ℕ} (hready : Ready channelCount bench.plane.coord.relays) :
    Ready channelCount ((tick touch nowMs).runOn respond bench).2.plane.coord.relays ∧
      ∀ moment ∈ (tick touch nowMs).history respond bench,
        Ready channelCount moment.before.plane.coord.relays ∧
          moment.after = (respond moment.before moment.request).2 :=
  Prog.history_induction
    (motive := fun bench : Bench ρ σ ι ↦ Ready channelCount bench.plane.coord.relays)
    (fun bench request hbench ↦ hbench.drives (answer_drives _ bench.plane request)) _ hready

/-- The same over a run, with the bound on the commands of each tick. -/
theorem tickHistories_ready (touch : GpioTouchSource) (events : List LoopEvent)
    {plane : ControlPlane ρ σ ι} {channelCount : ℕ}
    (hready : Ready channelCount plane.coord.relays) :
    ∀ history ∈ tickHistories touch plane events,
      (executed history).length ≤ kCommandQueueDepth ∧
        ∀ moment ∈ history, Ready channelCount moment.before.plane.coord.relays ∧
          moment.after = (respond moment.before moment.request).2 := by
  induction events generalizing plane with
  | nil => simp [tickHistories]
  | cons event rest ih =>
    cases event with
    | submit command => exact ih hready
    | tick nowMs readings =>
      obtain ⟨hafter, hmoments⟩ := tick_ready touch nowMs ⟨plane, readings⟩ hready
      intro history hhistory
      rcases List.mem_cons.mp hhistory with rfl | hlater
      · exact ⟨(tick_spec touch nowMs ⟨rfl, rfl⟩).2.2, hmoments⟩
      · exact ih hafter history hlater

end Runs

/-- Two runs of the control loop over the same pads and times, from the same state, with any remote
traffic in either: the touch engine makes the same calls at the same ticks. And in each run every
tick polls the pads there are with its readings at its time, and makes the calls that these polls
report; a press on a present channel flips that relay and no other from what it was just before, is
announced once, as local, and comes after at most as many remote commands of its tick as the queue
is deep. -/
theorem touch_independent_of_remote {ρ ι : Type} [RelaySink ρ] [IndicatorSink ι]
    (touch : GpioTouchSource) (plane : ControlPlane ρ (List Announcement) ι)
    (hinitialized : plane.coord.relays.initialized = true) (first second : List LoopEvent)
    (hsame : ticks first = ticks second) :
    (tickHistories touch plane first).map touchCalls =
        (tickHistories touch plane second).map touchCalls ∧
      ((tickHistories touch plane first).map polled = (ticks first).map fun tick ↦
        touch.padPolls tick.1 (List.range touch.profile.channelCount) tick.2) ∧
      (∀ history ∈ tickHistories touch plane first, touchCalls history = reported history) ∧
      ∀ history ∈ tickHistories touch plane first, ∀ earlier moment later channel,
        history = earlier ++ moment :: later →
        moment.request = .touchCall (.touchEvent channel .pressed) →
        channel < plane.coord.relays.count →
          (∀ other, moment.after.plane.coord.relays.state other =
            if other = channel then toggle (moment.before.plane.coord.relays.state channel)
            else moment.before.plane.coord.relays.state other) ∧
          moment.after.plane.coord.stateOut = moment.before.plane.coord.stateOut ++
            [⟨channel, toggle (moment.before.plane.coord.relays.state channel), .local_⟩] ∧
          (executed earlier).length ≤ kCommandQueueDepth := by
  refine ⟨?_, polled_tickHistories touch first plane, touchCalls_eq_reported touch first, ?_⟩
  · rw [touchCalls_tickHistories touch first rfl, hsame,
      ← touchCalls_tickHistories touch second rfl]
  · intro history hhistory earlier moment later channel hsplit hrequest hpresent
    obtain ⟨hbound, hmoments⟩ :=
      tickHistories_ready touch first ⟨hinitialized, rfl⟩ history hhistory
    obtain ⟨⟨hready, hcount⟩, hafter⟩ := hmoments moment (by rw [hsplit]; simp)
    have hcoord : moment.after.plane.coord =
        moment.before.plane.coord.onTouchEvent channel .pressed := by
      rw [hafter, hrequest]
      rfl
    rw [hcoord, ControlCoordinator.onTouchEvent_pressed hready (hcount ▸ hpresent)]
    refine ⟨fun other ↦ ?_, rfl, ?_⟩
    · exact RelayController.state_applyState _ (hcount ▸ hpresent) _ other
    · rw [hsplit, executed_append, List.length_append] at hbound
      omega

/-- A two-gang device at rest. -/
def idlePlane : ControlPlane DriveLog (List Announcement) (List Bool) where
  queue := .new (by decide)
  coord := ⟨(RelayController.init { sink := [] } 2).2, [], ⟨{ sink := [] }, false⟩⟩
  engine := (TouchInput.init { config := {} } 2).2

/-- Remote traffic around two ticks in which the first pad is pressed. -/
def trafficAndPress : List LoopEvent :=
  [.submit { kind := .setAll, state := .on }, .tick 0 (· = 0), .submit { kind := .toggleChannel },
    .tick 40 (· = 0)]

/-- The second of these ticks. -/
def pressTick : List (Moment LoopCall (Bench DriveLog (List Announcement) (List Bool))) :=
  (tickHistories ⟨kSwitch2G, .activeHigh⟩ idlePlane trafficAndPress).getD 1 []

/-- The moment at which the press reaches the coordinator. -/
def isPress (moment : Moment LoopCall (Bench DriveLog (List Announcement) (List Bool))) : Bool :=
  match moment.request with
  | .touchCall (.touchEvent 0 .pressed) => true
  | _ => false

theorem request_of_isPress
    {moment : Moment LoopCall (Bench DriveLog (List Announcement) (List Bool))}
    (hpress : isPress moment = true) :
    moment.request = .touchCall (.touchEvent 0 .pressed) := by
  unfold isPress at hpress
  split at hpress
  · assumption
  · cases hpress

/-- The press comes through as without the traffic, and flips its relay. -/
theorem touch_independent_of_remote_witness :
    (tickHistories ⟨kSwitch2G, .activeHigh⟩ idlePlane trafficAndPress).map touchCalls =
      (tickHistories ⟨kSwitch2G, .activeHigh⟩ idlePlane
        [.tick 0 (· = 0), .tick 40 (· = 0)]).map touchCalls ∧
    ∃ moment ∈ pressTick, isPress moment = true ∧
      moment.after.plane.coord.relays.state 0 =
        toggle (moment.before.plane.coord.relays.state 0) := by
  obtain ⟨hsame, -, -, hpresses⟩ := touch_independent_of_remote ⟨kSwitch2G, .activeHigh⟩ idlePlane
    rfl trafficAndPress [.tick 0 (· = 0), .tick 40 (· = 0)] rfl
  obtain ⟨moment, hmem, hpress⟩ : ∃ moment ∈ pressTick, isPress moment = true :=
    List.any_eq_true.mp (by decide)
  obtain ⟨earlier, later, hsplit⟩ := List.append_of_mem hmem
  have hflips := (hpresses pressTick (List.mem_cons_of_mem _ List.mem_cons_self) earlier moment
    later 0 hsplit (request_of_isPress hpress) (by decide)).1 0
  rw [if_pos rfl] at hflips
  exact ⟨hsame, moment, hmem, hpress, hflips⟩

end LibreSwitch.App
