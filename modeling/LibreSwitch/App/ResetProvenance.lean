import LibreSwitch.App.LogAnchors
import LibreSwitch.App.ResetFeedback
import LibreSwitch.Domain.StuckPair

/-!
# Where a factory reset comes from

The control task of the composed firmware, tick after tick, beside the other tasks, which submit
commands and show statuses at any time, while true time passes. A control tick ends by asking the
reset handler whether a reset was requested, and if so erases the keys of `kWipe` and restarts.

A tick drives the control plane through its own part of the interface, so what is known of the loop
alone (`FeedbackWorld`) carries over (`wp_loop`). The flag of the handler is set exactly if the
engine reported the gesture since the boot. Hence a key is erased only behind a gesture that was
completed in the same tick, and with the exact meaning of the gesture, behind a hold of both pads
for the whole hold time (`erased_only_by_gesture`). No remote traffic takes part in this.
-/

set_option autoImplicit false
set_option relaxedAutoImplicit false

namespace LibreSwitch.App

open LibreSwitch.Library LibreSwitch.Domain LibreSwitch.Platform LibreSwitch.Profiles
open LibreSwitch.Log
open Relation

/-- The control task of the firmware: every operation is a control tick. -/
def controlTask : Component FirmwareCall FirmwareAns Firmware Unit where
  handle firmware _ := firmware.controlTick

/-- The control plane with the polls made, in true time, the calls of the engine, and the keys whose
erase was asked for since the boot. -/
structure ResetWorld (ρ σ ι : Type) where
  plane : ControlPlane ρ σ ι
  shown : DeviceStatus := .booting
  polls : List Poll := []
  made : List TouchCall := []
  time : ℕ := 0
  tickTime : ℕ := 0
  /-- How many polls there were when the tick under way read the clock. -/
  pollsBefore : ℕ := 0
  erased : List Bytes := []

namespace ResetWorld

variable {ρ σ ι : Type}

/-- A poll as the counter has it. -/
def counted (poll : Poll) : Poll := { poll with time := poll.nowMs.toNat }

/-- What the loop alone is about. -/
def loop (world : ResetWorld ρ σ ι) : FeedbackWorld ρ σ ι where
  plane := world.plane
  shown := world.shown
  polls := world.polls.map counted
  made := world.made

/-- What a tick of the loop leaves alone. -/
def rest (world : ResetWorld ρ σ ι) : ℕ × ℕ × List Bytes :=
  (world.tickTime, world.pollsBefore, world.erased)

/-- The moments of the polls made, in true time. -/
def moments (channelCount : ℕ) (world : ResetWorld ρ σ ι) : List Moment :=
  (TouchInput.start {} channelCount).history world.polls

/-- The handler's request is taken back. -/
def consumed (world : ResetWorld ρ σ ι) : ResetWorld ρ σ ι :=
  { world with plane := { world.plane with coord := { world.plane.coord with
    reset := { world.plane.coord.reset with resetRequested := false } } } }

/-- A tick reads the clock. -/
def clockRead (world : ResetWorld ρ σ ι) : ResetWorld ρ σ ι :=
  { world with tickTime := world.time, pollsBefore := world.polls.length }

/-- Some time passes. -/
def later (delay : ℕ) (world : ResetWorld ρ σ ι) : ResetWorld ρ σ ι :=
  { world with time := world.time + delay }

/-- The objects as the composition root wires them. -/
def fresh (channelCount : ℕ) (relays : RelayController ρ) (stateOut : σ) (sink : ι) :
    ResetWorld ρ σ ι where
  plane := (FeedbackWorld.fresh {} channelCount relays stateOut sink).plane

section Steps

variable [RelaySink ρ] [StateChangePort σ ρ] [IndicatorSink ι]

/-- The answer to a request of the loop, with what it adds to the record. -/
def answered (high : Bool) (world : ResetWorld ρ σ ι) (request : LoopCall) : ResetWorld ρ σ ι :=
  { world with
    plane := (world.plane.answer high request).2
    polls := match request with
      | .poll channel level _ => world.polls ++ [⟨channel, level, world.tickTime⟩]
      | _ => world.polls
    made := match request with
      | .touchCall call => world.made ++ [call]
      | _ => world.made }

/-- An answered call of the firmware. The control plane is its own; everything else answers in any
way, and nothing comes back from a reboot. -/
def Answers (world : ResetWorld ρ σ ι) :
    (request : FirmwareCall) → FirmwareAns request → ResetWorld ρ σ ι → Prop
  | .loop request, reply, world' => ∃ high, reply = (world.plane.answer high request).1 ∧
    world' = world.answered high request
  | .consumeResetRequest, requested, world' =>
    requested = world.plane.coord.reset.resetRequested ∧ world' = world.consumed
  | .root .nowMs, now, world' => now = UInt32.ofNat world.time ∧ world' = world.clockRead
  | .root (.erase key), _, world' => world' = { world with erased := world.erased ++ [key] }
  | .root .reboot, _, _ => False
  | _, _, world' => world' = world

/-- The surroundings of a tick: commands are submitted, statuses are shown and time passes at any
moment. -/
def setting : Setting FirmwareCall FirmwareAns (ResetWorld ρ σ ι) where
  answers := Answers
  interferes world world' :=
    (∃ command, world' = { world with plane := (world.plane.submitRemote command).2 }) ∨
    (∃ link, world' = { world with
      plane := (world.loop.showLink link).plane, shown := link.toStatus }) ∨
    ∃ delay, world' = world.later delay

/-- A tick may start at any time. -/
def starts (world : ResetWorld ρ σ ι) (_ : Unit) (world' : ResetWorld ρ σ ι) : Prop :=
  world' = world

end Steps

/-! ### What is said of a reset -/

/-- The gesture was completed in the tick under way. -/
def CompletedNow (channelCount : ℕ) (world : ResetWorld ρ σ ι) : Prop :=
  (∀ poll ∈ world.polls, poll.channel < channelCount) ∧
    ∃ past moment later, world.moments channelCount = past ++ moment :: later ∧
      world.pollsBefore ≤ past.length ∧ TouchCall.factoryResetGesture ∈ moment.calls

/-- A key is erased, and the device restarted, only behind a gesture of the same tick; the keys are
those of the wipe, in order. -/
def guard (channelCount : ℕ) (world : ResetWorld ρ σ ι) : FirmwareCall → Prop
  | .root (.erase key) => CompletedNow channelCount world ∧
    world.erased ++ [key] <+: CompositionRoot.kWipe
  | .root .reboot => CompletedNow channelCount world ∧ world.erased = CompositionRoot.kWipe
  | _ => True

/-- Between two ticks no gesture was completed so far, and nothing was erased. -/
structure Calm (channelCount : ℕ) (world : ResetWorld ρ σ ι) : Prop where
  sound : FeedbackWorld.Sound {} channelCount [] world.loop
  not_requested : world.plane.coord.reset.resetRequested = false
  not_made : TouchCall.factoryResetGesture ∉ world.made
  erased_eq : world.erased = []

/-! ### The flag of the handler -/

section Flag

variable [RelaySink ρ] [StateChangePort σ ρ] [IndicatorSink ι]

/-- The handler was asked for a reset exactly if the gesture was made, and the polls go on from
these. -/
def Flagged (before : List Poll) (world : FeedbackWorld ρ σ ι) : Prop :=
  (world.plane.coord.reset.resetRequested = true ↔
    TouchCall.factoryResetGesture ∈ world.made) ∧ before <+: world.polls

theorem Flagged.answered {before : List Poll} {world : FeedbackWorld ρ σ ι}
    (hflagged : Flagged before world) (high : Bool) (request : LoopCall) :
    Flagged before (world.answered high request) := by
  obtain ⟨hflag, hbegun⟩ := hflagged
  cases request with
  | submit command =>
    refine ⟨?_, hbegun⟩
    have hreset : (world.answered high (.submit command)).plane.coord.reset =
        world.plane.coord.reset := ControlCoordinator.reset_submit _ command
    rw [hreset]
    exact hflag
  | poll channel level nowMs => exact ⟨hflag, hbegun.trans (List.prefix_append _ _)⟩
  | touchCall call =>
    refine ⟨?_, hbegun⟩
    have hmade : (world.answered high (.touchCall call)).made = world.made ++ [call] := rfl
    cases call with
    | touchEvent channel event =>
      have hreset :
          (world.answered high (.touchCall (.touchEvent channel event))).plane.coord.reset =
          world.plane.coord.reset := ControlCoordinator.reset_onTouchEvent _ channel event
      rw [hreset, hmade, hflag]
      simp
    | factoryResetGesture => exact iff_of_true rfl (by simp [hmade])
    | factoryResetProgress elapsedMs totalMs =>
      refine Iff.trans hflag ?_
      simp [hmade]
  | _ => exact ⟨hflag, hbegun⟩

theorem Flagged.interferes {before : List Poll} (world world' : FeedbackWorld ρ σ ι)
    (hflagged : Flagged before world) (hinterfere : FeedbackWorld.setting.interferes world world') :
    Flagged before world' := by
  rcases hinterfere with ⟨command, rfl⟩ | ⟨link, rfl⟩
  · exact hflagged
  · exact hflagged

/-- A tick of the loop alone keeps record and flag. -/
theorem wp_tick (touch : GpioTouchSource) (nowMs : Millis) {before : List Poll}
    {world : FeedbackWorld ρ σ ι}
    (hsound : FeedbackWorld.Sound {} touch.profile.channelCount [] world)
    (hflagged : Flagged before world) :
    FeedbackWorld.setting.wp (fun _ _ ↦ True) (tick touch nowMs) (fun _ last ↦
      FeedbackWorld.Sound {} touch.profile.channelCount [] last ∧ Flagged before last) world := by
  refine Setting.wp_and (Setting.wp_of_guard (fun _ _ _ ↦ trivial)
    (FeedbackWorld.wp_tick touch rfl nowMs hsound)) ?_
  have hany : (tick touch nowMs).AsksOnly fun _ ↦ True :=
    Prog.asksOnly_of_forall (fun _ ↦ trivial) _
  refine Setting.wp_mono (fun _ _ hlast ↦ hlast.2) (Setting.wp_of_asksOnly Flagged.interferes
    (fun _ _ _ _ ↦ trivial) ?_ hany hflagged)
  rintro reached request _ _ - hreached ⟨high, -, rfl⟩
  exact hreached.answered high request

/-! ### A tick of the loop within the firmware -/

omit [RelaySink ρ] [StateChangePort σ ρ] in
theorem loop_interferes [RelaySink ρ] [StateChangePort σ ρ] (world world' : ResetWorld ρ σ ι)
    (hinterfere : setting.interferes world world') :
    ReflTransGen FeedbackWorld.setting.interferes world.loop world'.loop ∧
      rest world' = rest world := by
  rcases hinterfere with ⟨command, rfl⟩ | ⟨link, rfl⟩ | ⟨delay, rfl⟩
  · exact ⟨.single (.inl ⟨command, rfl⟩), rfl⟩
  · exact ⟨.single (.inr ⟨link, rfl⟩), rfl⟩
  · exact ⟨.refl, rfl⟩

/-- In a tick every poll is made at the time the tick has read. -/
def At (nowMs : Millis) : LoopCall → Prop
  | .poll _ _ polledMs => polledMs = nowMs
  | _ => True

theorem loop_answered {world : ResetWorld ρ σ ι} {request : LoopCall} (high : Bool)
    (hrequest : At (UInt32.ofNat world.tickTime) request) :
    (world.answered high request).loop = world.loop.answered high request := by
  cases request with
  | poll channel level nowMs =>
    obtain rfl : nowMs = UInt32.ofNat world.tickTime := hrequest
    simp only [answered, loop, FeedbackWorld.answered, List.map_append, List.map_cons, List.map_nil]
    rfl
  | _ => rfl

theorem asksOnly_deliver (nowMs : Millis) (calls : List TouchCall) :
    (deliver calls).AsksOnly (At nowMs) := by
  induction calls with
  | nil => trivial
  | cons call rest ih => exact ⟨trivial, fun _ ↦ ih⟩

theorem asksOnly_drainCommands (nowMs : Millis) (budget : ℕ) :
    (drainCommands budget).AsksOnly (At nowMs) := by
  induction budget with
  | zero => trivial
  | succ budget ih =>
    refine ⟨trivial, fun popped ↦ ?_⟩
    cases popped with
    | none => trivial
    | some command => exact ⟨trivial, fun _ ↦ ih⟩

theorem asksOnly_scanLoop (touch : GpioTouchSource) (nowMs : Millis) (channels : List ℕ) :
    (touch.scanLoop nowMs channels).AsksOnly (At nowMs) := by
  induction channels with
  | nil => trivial
  | cons channel rest ih =>
    unfold GpioTouchSource.scanLoop
    split_ifs
    · exact ih
    · refine Prog.asksOnly_bind ?_ fun _ ↦ ih
      exact ⟨trivial, fun _ ↦ ⟨rfl, fun polled ↦ asksOnly_deliver nowMs polled.2⟩⟩

theorem asksOnly_tick (touch : GpioTouchSource) (nowMs : Millis) :
    (tick touch nowMs).AsksOnly (At nowMs) :=
  Prog.asksOnly_bind (asksOnly_drainCommands nowMs _) fun _ ↦
    Prog.asksOnly_bind (asksOnly_scanLoop touch nowMs _) fun _ ↦ ⟨trivial, fun _ ↦ trivial⟩

/-- The calls that concern neither the control plane nor the reset. -/
def Aside : FirmwareCall → Prop
  | .log _ => True
  | .announced => True
  | _ => False

/-- Logging the changes behind a call does not change its answer. -/
theorem announced_spec {α : Type} (logger : Logger) (answer : α) :
    let program : Prog FirmwareCall FirmwareAns α := do
      let changes ← Prog.ask FirmwareCall.announced
      Firmware.onLog (LoggingStateListener.onStateChanges logger changes)
      return answer
    program.AsksOnly Aside ∧ ∀ trace value, program.Runs trace value → value = answer := by
  constructor
  · refine Prog.asksOnly_ask_bind.mpr ⟨trivial, fun changes ↦ ?_⟩
    have hlogs : (LoggingStateListener.onStateChanges logger changes).AsksOnly fun _ ↦ True :=
      Prog.asksOnly_of_forall (fun _ ↦ trivial) _
    exact Prog.asksOnly_bind (Prog.asksOnly_embed hlogs) fun _ ↦ trivial
  · intro trace value hruns
    obtain ⟨changes, _, _, -, -, hlogged⟩ := Prog.runs_bind.mp hruns
    obtain ⟨_, _, _, -, -, hreturn⟩ := Prog.runs_bind.mp hlogged
    exact hreturn.2

/-- A call of the loop, with the changes it announces logged, is answered as in the loop alone. -/
theorem wp_onLoop {channelCount : ℕ} (logger : Logger) (request : LoopCall)
    {world : ResetWorld ρ σ ι} (hrequest : At (UInt32.ofNat world.tickTime) request) :
    setting.wp (guard channelCount) (Firmware.onLoop logger request) (fun reply last ↦
      rest last = rest world ∧ ∃ before after,
        ReflTransGen FeedbackWorld.setting.interferes world.loop before ∧
        FeedbackWorld.setting.answers before request reply after ∧
        ReflTransGen FeedbackWorld.setting.interferes after last.loop) world := by
  have hstable (reached last : ResetWorld ρ σ ι) (target : FeedbackWorld ρ σ ι)
      (hreached : rest reached = rest world ∧
        ReflTransGen FeedbackWorld.setting.interferes target reached.loop)
      (hinterfere : setting.interferes reached last) : rest last = rest world ∧
        ReflTransGen FeedbackWorld.setting.interferes target last.loop := by
    obtain ⟨hmoves, hrest⟩ := loop_interferes reached last hinterfere
    exact ⟨hrest.trans hreached.1, hreached.2.trans hmoves⟩
  refine Setting.wp_call_of_stable (hstable · · world.loop) ⟨rfl, .refl⟩ (fun _ _ ↦ trivial) ?_
  rintro reached reply _ ⟨hrest, hbefore⟩ ⟨high, hreply, rfl⟩
  have htime : reached.tickTime = world.tickTime := congrArg Prod.fst hrest
  have hloop := loop_answered high (htime.symm ▸ hrequest)
  have hanswer : FeedbackWorld.setting.answers reached.loop request reply
      (reached.answered high request).loop := ⟨high, hreply, hloop⟩
  have hlogged {program : Prog FirmwareCall FirmwareAns (LoopAns request)}
      (hprogram : program.AsksOnly Aside)
      (hreturns : ∀ trace value, program.Runs trace value → value = reply) :
      setting.wp (guard channelCount) program (fun reply last ↦
        rest last = rest world ∧ ∃ before after,
          ReflTransGen FeedbackWorld.setting.interferes world.loop before ∧
          FeedbackWorld.setting.answers before request reply after ∧
          ReflTransGen FeedbackWorld.setting.interferes after last.loop)
        (reached.answered high request) := by
    refine Setting.wp_mono (fun value last hlast ↦ ?_) (Setting.wp_of_asksOnly
      (hstable · · (reached.answered high request).loop) ?_ ?_ hprogram ⟨hrest, .refl⟩)
    · obtain ⟨⟨trace, htrace⟩, hkept, hafter⟩ := hlast
      rw [hreturns trace value htrace]
      exact ⟨hkept, reached.loop, _, hbefore, hanswer, hafter⟩
    · intro _ other hother _
      cases other with
      | log _ => trivial
      | announced => trivial
      | _ => exact hother.elim
    · intro _ other _ _ hother hkept hanswers
      cases other with
      | log _ => exact (show _ = _ from hanswers) ▸ hkept
      | announced => exact (show _ = _ from hanswers) ▸ hkept
      | _ => exact hother.elim
  obtain ⟨hasks, hruns⟩ := announced_spec logger reply
  cases request with
  | submit command => exact hlogged hasks hruns
  | touchCall call => exact hlogged hasks hruns
  | _ => exact hlogged trivial fun _ _ hreturn ↦ hreturn.2

end Flag

/-! ### The moments of a tick -/

/-- The engine sees of a poll what the counter has. -/
theorem reports_counted (touch : TouchInput) (polls : List Poll) :
    TouchInput.machine.reports touch (polls.map counted) =
      TouchInput.machine.reports touch polls := by
  induction polls generalizing touch with
  | nil => rfl
  | cons poll rest ih =>
    have hstep : TouchInput.machine.step touch (counted poll) =
        TouchInput.machine.step touch poll := by
      simp only [TouchInput.machine, counted, Poll.nowMs, UInt32.ofNat_toNat]
    rw [List.map_cons, Machine.reports_cons, Machine.reports_cons, hstep, ih]

theorem mem_of_append_eq {β : Type} {past later first second : List β} {entry : β}
    (hlist : past ++ entry :: later = first ++ second) (hearly : past.length < first.length) :
    entry ∈ first := by
  have hget := congrArg (fun list ↦ list[past.length]?) hlist
  simp only [List.getElem?_append_left hearly, List.getElem?_append_right le_rfl, Nat.sub_self,
    List.getElem?_cons_zero] at hget
  exact List.mem_of_getElem? hget.symm

section Moments

variable {channelCount : ℕ} {world : ResetWorld ρ σ ι}

theorem calls_moments (channelCount : ℕ) (world : ResetWorld ρ σ ι) :
    (world.moments channelCount).map Moment.calls =
      TouchInput.machine.reports (.start {} channelCount) world.loop.polls :=
  (TouchInput.calls_history _ _).trans (reports_counted _ _).symm

/-- The gesture reached the coordinator exactly if some moment completed it. -/
theorem mem_made_iff (hsound : FeedbackWorld.Sound {} channelCount [] world.loop) :
    TouchCall.factoryResetGesture ∈ world.made ↔ Emitted (world.moments channelCount) := by
  have hcalls : world.made ++ [] = _ := hsound.calls
  rw [List.append_nil, ← calls_moments, ← List.flatMap_def] at hcalls
  rw [hcalls, List.mem_flatMap]
  rfl

/-- If the gesture was never made before the tick under way, a moment that completes it belongs to
this tick. -/
theorem completedNow_of_made (hsound : FeedbackWorld.Sound {} channelCount [] world.loop)
    {before : List Poll} (hbefore : before.length = world.pollsBefore)
    (hbegun : before <+: world.loop.polls)
    (hnone : TouchCall.factoryResetGesture ∉
      (TouchInput.machine.reports (.start {} channelCount) before).flatten)
    (hmade : TouchCall.factoryResetGesture ∈ world.made) : CompletedNow channelCount world := by
  obtain ⟨moment, hmoment, hcall⟩ := (mem_made_iff hsound).mp hmade
  obtain ⟨past, later, hsplit⟩ := List.append_of_mem hmoment
  refine ⟨fun poll hpoll ↦ hsound.present (counted poll) (List.mem_map_of_mem hpoll),
    past, moment, later, hsplit, ?_, hcall⟩
  by_contra hearly
  obtain ⟨more, hmore⟩ := hbegun
  have hcalls := calls_moments channelCount world
  rw [hsplit, ← hmore, Machine.reports_append, List.map_append, List.map_cons] at hcalls
  have hmem := mem_of_append_eq hcalls (by
    rw [List.length_map, Machine.length_reports, hbefore]
    omega)
  exact hnone (List.mem_flatten.mpr ⟨moment.calls, hmem, hcall⟩)

/-- Behind the loop of a tick the reset is requested exactly if the gesture was completed, and then
it was completed in this tick. -/
structure Scanned (channelCount : ℕ) (world : ResetWorld ρ σ ι) : Prop where
  sound : FeedbackWorld.Sound {} channelCount [] world.loop
  requested_iff : world.plane.coord.reset.resetRequested = true ↔
    TouchCall.factoryResetGesture ∈ world.made
  completed : TouchCall.factoryResetGesture ∈ world.made → CompletedNow channelCount world
  erased_eq : world.erased = []

end Moments

/-! ### A control tick -/

section Tick

variable [RelaySink ρ] [StateChangePort σ ρ] [IndicatorSink ι] {channelCount : ℕ}

theorem sound_interferes {world world' : ResetWorld ρ σ ι}
    (hsound : FeedbackWorld.Sound {} channelCount [] world.loop)
    (hinterfere : setting.interferes world world') :
    FeedbackWorld.Sound {} channelCount [] world'.loop := by
  have hmoves := (loop_interferes world world' hinterfere).1
  generalize world'.loop = last at hmoves
  induction hmoves with
  | refl => exact hsound
  | tail _ hstep ih => exact FeedbackWorld.Sound.interferes _ _ ih hstep

/-- The other tasks have no part in a reset. -/
theorem interferes_spec {world world' : ResetWorld ρ σ ι}
    (hinterfere : setting.interferes world world') :
    world'.plane.coord.reset.resetRequested = world.plane.coord.reset.resetRequested ∧
      world'.made = world.made ∧ world'.polls = world.polls ∧
      world'.pollsBefore = world.pollsBefore ∧ world'.erased = world.erased := by
  rcases hinterfere with ⟨command, rfl⟩ | ⟨link, rfl⟩ | ⟨delay, rfl⟩
  · exact ⟨rfl, rfl, rfl, rfl, rfl⟩
  · exact ⟨rfl, rfl, rfl, rfl, rfl⟩
  · exact ⟨rfl, rfl, rfl, rfl, rfl⟩

omit [RelaySink ρ] [StateChangePort σ ρ] [IndicatorSink ι] in
theorem completedNow_congr {world world' : ResetWorld ρ σ ι} (hpolls : world'.polls = world.polls)
    (hbefore : world'.pollsBefore = world.pollsBefore) (hnow : CompletedNow channelCount world) :
    CompletedNow channelCount world' := by
  rw [CompletedNow, moments, hpolls, hbefore]
  exact hnow

theorem Calm.interferes (world world' : ResetWorld ρ σ ι) (hcalm : Calm channelCount world)
    (hinterfere : setting.interferes world world') : Calm channelCount world' := by
  obtain ⟨hrequested, hmade, -, -, herased⟩ := interferes_spec hinterfere
  exact ⟨sound_interferes hcalm.sound hinterfere, hrequested.trans hcalm.not_requested,
    hmade ▸ hcalm.not_made, herased.trans hcalm.erased_eq⟩

theorem Scanned.interferes (world world' : ResetWorld ρ σ ι) (hscanned : Scanned channelCount world)
    (hinterfere : setting.interferes world world') : Scanned channelCount world' := by
  obtain ⟨hrequested, hmade, hpolls, hbefore, herased⟩ := interferes_spec hinterfere
  refine ⟨sound_interferes hscanned.sound hinterfere, ?_, fun hcall ↦ ?_,
    herased.trans hscanned.erased_eq⟩
  · rw [hrequested, hmade]
    exact hscanned.requested_iff
  · exact completedNow_congr hpolls hbefore (hscanned.completed (hmade ▸ hcall))

/-- The loop of a tick, within the firmware. -/
theorem wp_loop (firmware : Firmware) (nowMs : Millis) {world : ResetWorld ρ σ ι}
    (hnow : nowMs = UInt32.ofNat world.tickTime) (hbefore : world.pollsBefore = world.polls.length)
    (hcalm : Calm firmware.touch.profile.channelCount world) :
    setting.wp (guard firmware.touch.profile.channelCount)
      ((tick firmware.touch nowMs).translate
        (fun _ request ↦ do
          let answer ← Firmware.onLoop firmware.logger request
          return (answer, ()))
        ())
      (fun _ ↦ Scanned firmware.touch.profile.channelCount) world := by
  have hflagged : Flagged world.loop.polls world.loop :=
    ⟨iff_of_false (by rw [loop, hcalm.not_requested]; exact Bool.false_ne_true) hcalm.not_made,
      List.prefix_refl _⟩
  refine Setting.wp_mono (fun _ last hlast ↦ ?_) (Setting.wp_translate loop_interferes ?_
    (asksOnly_tick firmware.touch nowMs) rfl (wp_tick firmware.touch nowMs hcalm.sound hflagged))
  · obtain ⟨⟨hsound, hflag, hbegun⟩, hrest⟩ := hlast
    have hkept : last.pollsBefore = world.pollsBefore ∧ last.erased = world.erased :=
      Prod.mk.inj (congrArg Prod.snd hrest)
    refine ⟨hsound, hflag, fun hcall ↦ ?_, hkept.2.trans hcalm.erased_eq⟩
    refine completedNow_of_made hsound ?_ hbegun ?_ hcall
    · rw [hkept.1, hbefore]
      exact List.length_map _
    · rw [← hcalm.sound.calls, List.append_nil]
      exact hcalm.not_made
  · intro state request reached hrequest hkept
    have htime : UInt32.ofNat reached.tickTime = nowMs := by
      rw [hnow, show reached.tickTime = world.tickTime from congrArg Prod.fst hkept]
    refine Setting.wp_bind (Setting.wp_mono (fun reply last hlast ↦ ?_)
      (wp_onLoop firmware.logger request (htime.symm ▸ hrequest)))
    obtain ⟨hrest, before, after, hmoves, hanswer, hafter⟩ := hlast
    refine Setting.wp_ret_of_stable (fun early late hearly hinterfere ↦ ?_)
      ⟨hrest.trans hkept, before, after, hmoves, hanswer, hafter⟩
    obtain ⟨hkept', before', after', hmoves', hanswer', hafter'⟩ := hearly
    obtain ⟨hlate, hsame⟩ := loop_interferes early late hinterfere
    exact ⟨hsame.trans hkept', before', after', hmoves', hanswer', hafter'.trans hlate⟩

/-- A wipe under way: the gesture was completed in this tick, and these keys are still to erase. -/
structure Wiping (channelCount : ℕ) (keys : List Bytes) (world : ResetWorld ρ σ ι) : Prop where
  completed : CompletedNow channelCount world
  erased_append : world.erased ++ keys = CompositionRoot.kWipe

theorem Wiping.interferes {keys : List Bytes} (world world' : ResetWorld ρ σ ι)
    (hwiping : Wiping channelCount keys world) (hinterfere : setting.interferes world world') :
    Wiping channelCount keys world' := by
  obtain ⟨-, -, hpolls, hbefore, herased⟩ := interferes_spec hinterfere
  exact ⟨completedNow_congr hpolls hbefore hwiping.completed, herased ▸ hwiping.erased_append⟩

theorem wp_wipe {keys : List Bytes} {world : ResetWorld ρ σ ι}
    (hwiping : Wiping channelCount keys world) :
    setting.wp (guard channelCount) (Firmware.onRoot (CompositionRoot.wipe keys))
      (fun _ ↦ Wiping channelCount []) world := by
  induction keys generalizing world with
  | nil =>
    apply Setting.wp_ret_of_stable
    · exact Wiping.interferes
    · exact hwiping
  | cons key rest ih =>
    refine Setting.wp_call_of_stable Wiping.interferes hwiping (fun reached hreached ↦ ?_) ?_
    · refine ⟨hreached.completed, rest, ?_⟩
      rw [List.append_assoc]
      exact hreached.erased_append
    · rintro reached _ _ hreached rfl
      refine ih ⟨hreached.completed, ?_⟩
      rw [List.append_assoc]
      exact hreached.erased_append

/-- A requested reset wipes the store and restarts; without a request nothing is erased. -/
theorem wp_honourReset {world : ResetWorld ρ σ ι} (hscanned : Scanned channelCount world) :
    setting.wp (guard channelCount) Firmware.honourReset (fun _ ↦ Calm channelCount) world := by
  refine Setting.wp_call_of_stable Scanned.interferes hscanned (fun _ _ ↦ trivial) ?_
  rintro reached requested _ hreached ⟨hrequested, rfl⟩
  have hsound : FeedbackWorld.Sound {} channelCount [] reached.consumed.loop :=
    hreached.sound.of_same rfl rfl rfl rfl id
  cases hflag : requested with
  | false =>
    rw [hflag] at hrequested
    have hnot : TouchCall.factoryResetGesture ∉ reached.made := by
      rw [← hreached.requested_iff, ← hrequested]
      exact Bool.false_ne_true
    apply Setting.wp_ret_of_stable
    · exact Calm.interferes
    · exact ⟨hsound, rfl, hnot, hreached.erased_eq⟩
  | true =>
    rw [hflag] at hrequested
    have hnow : CompletedNow channelCount reached :=
      hreached.completed (hreached.requested_iff.mp hrequested.symm)
    have hwiping : Wiping channelCount CompositionRoot.kWipe reached.consumed :=
      ⟨completedNow_congr rfl rfl hnow,
        congrArg (· ++ CompositionRoot.kWipe) hreached.erased_eq⟩
    have hwp : setting.wp (guard channelCount)
        (Firmware.onRoot (CompositionRoot.wipe CompositionRoot.kWipe) >>= fun _ ↦
          Firmware.onRoot (Prog.ask RootCall.reboot)) (fun _ ↦ Calm channelCount)
        reached.consumed := by
      refine Setting.wp_bind (Setting.wp_mono (fun _ last hlast ↦ ?_) (wp_wipe hwiping))
      refine Setting.wp_call_of_stable Wiping.interferes hlast (fun final hfinal ↦ ?_)
        (fun _ _ _ _ hrestart ↦ hrestart.elim)
      refine ⟨hfinal.completed, ?_⟩
      rw [← hfinal.erased_append, List.append_nil]
    exact hwp

omit [RelaySink ρ] [StateChangePort σ ρ] [IndicatorSink ι] in
/-- A control tick, request by request. -/
theorem controlTick_eq (firmware : Firmware) : firmware.controlTick =
    .call (.root .nowMs) fun now ↦
      (tick firmware.touch now).translate
        (fun _ request ↦ do
          let answer ← Firmware.onLoop firmware.logger request
          return (answer, ()))
        () >>= fun _ ↦
      .call (.root .otaPending) fun pending ↦
        if pending then
          .call .markLocalControlOk fun _ ↦ Firmware.honourReset >>= fun _ ↦ .ret firmware
        else Firmware.honourReset >>= fun _ ↦ .ret firmware := rfl

theorem wp_controlTick (firmware : Firmware) {world : ResetWorld ρ σ ι}
    (hcalm : Calm firmware.touch.profile.channelCount world) :
    setting.wp (guard firmware.touch.profile.channelCount) firmware.controlTick
      (fun firmware' last ↦ firmware' = firmware ∧
        Calm firmware.touch.profile.channelCount last) world := by
  have hreset {reached : ResetWorld ρ σ ι}
      (hscanned : Scanned firmware.touch.profile.channelCount reached) :
      setting.wp (guard firmware.touch.profile.channelCount)
        (Firmware.honourReset >>= fun _ ↦ .ret firmware) (fun firmware' last ↦
          firmware' = firmware ∧ Calm firmware.touch.profile.channelCount last) reached := by
    refine Setting.wp_bind (Setting.wp_mono (fun _ last hlast ↦ ?_) (wp_honourReset hscanned))
    refine Setting.wp_ret_of_stable (fun early late hearly hinterfere ↦ ?_) ⟨rfl, hlast⟩
    exact ⟨hearly.1, hearly.2.interferes early late hinterfere⟩
  rw [controlTick_eq]
  refine Setting.wp_call_of_stable Calm.interferes hcalm (fun _ _ ↦ trivial) ?_
  rintro reached now _ hreached ⟨rfl, rfl⟩
  refine Setting.wp_bind (Setting.wp_mono (fun _ scanned hscanned ↦ ?_)
    (wp_loop firmware _ rfl rfl ⟨hreached.sound, hreached.not_requested, hreached.not_made,
      hreached.erased_eq⟩))
  refine Setting.wp_call_of_stable Scanned.interferes hscanned (fun _ _ ↦ trivial) ?_
  rintro asked pending _ hasked rfl
  cases pending with
  | false => exact hreset hasked
  | true =>
    refine Setting.wp_call_of_stable Scanned.interferes hasked (fun _ _ ↦ trivial) ?_
    rintro marked _ _ hmarked rfl
    exact hreset hmarked

end Tick

/-! ### All runs -/

/-- The polls were made one after the other, and none later than the tick under way read the
clock. -/
structure Ordered (world : ResetWorld ρ σ ι) : Prop where
  sorted : (world.polls.map Poll.time).Pairwise (· ≤ ·)
  polled (poll : Poll) (hpoll : poll ∈ world.polls) : poll.time ≤ world.tickTime
  read : world.tickTime ≤ world.time

theorem Ordered.answers [RelaySink ρ] [StateChangePort σ ρ] [IndicatorSink ι]
    {world world' : ResetWorld ρ σ ι} {request : FirmwareCall} {reply : FirmwareAns request}
    (hordered : Ordered world) (hanswers : Answers world request reply world') :
    Ordered world' := by
  obtain ⟨hsorted, hpolled, hread⟩ := hordered
  cases request with
  | loop request =>
    obtain ⟨high, -, rfl⟩ := hanswers
    cases request with
    | poll channel level nowMs =>
      refine ⟨?_, fun poll hpoll ↦ ?_, hread⟩
      · change ((world.polls ++ [(⟨channel, level, world.tickTime⟩ : Poll)]).map
          Poll.time).Pairwise _
        rw [List.map_append, List.pairwise_append]
        refine ⟨hsorted, List.pairwise_singleton _ _, ?_⟩
        rintro time htime next hnext
        obtain ⟨poll, hpoll, rfl⟩ := List.mem_map.mp htime
        rw [List.mem_singleton.mp hnext]
        exact hpolled poll hpoll
      · rcases List.mem_append.mp hpoll with hearlier | hnow
        · exact hpolled poll hearlier
        · rw [List.mem_singleton.mp hnow]
          exact le_rfl
    | _ => exact ⟨hsorted, hpolled, hread⟩
  | consumeResetRequest =>
    obtain ⟨-, rfl⟩ := hanswers
    exact ⟨hsorted, hpolled, hread⟩
  | root request =>
    cases request with
    | nowMs =>
      obtain ⟨-, rfl⟩ := hanswers
      exact ⟨hsorted, fun poll hpoll ↦ (hpolled poll hpoll).trans hread, le_rfl⟩
    | reboot => exact hanswers.elim
    | _ =>
      cases hanswers
      exact ⟨hsorted, hpolled, hread⟩
  | _ =>
    cases hanswers
    exact ⟨hsorted, hpolled, hread⟩

theorem Ordered.interferes [RelaySink ρ] [StateChangePort σ ρ] [IndicatorSink ι]
    {world world' : ResetWorld ρ σ ι} (hordered : Ordered world)
    (hinterfere : setting.interferes world world') : Ordered world' := by
  obtain ⟨hsorted, hpolled, hread⟩ := hordered
  rcases hinterfere with ⟨command, rfl⟩ | ⟨link, rfl⟩ | ⟨delay, rfl⟩
  · exact ⟨hsorted, hpolled, hread⟩
  · exact ⟨hsorted, hpolled, hread⟩
  · exact ⟨hsorted, hpolled, hread.trans (Nat.le_add_right _ _)⟩

/-- The gesture was completed in the tick under way, on a device that has the pair, and both pads
have been stably pressed at every poll for the whole hold time. -/
def Deliberate (channelCount : ℕ) (world : ResetWorld ρ σ ι) : Prop :=
  2 ≤ channelCount ∧ ∃ past moment later, world.moments channelCount = past ++ moment :: later ∧
    world.pollsBefore ≤ past.length ∧ TouchCall.factoryResetGesture ∈ moment.calls ∧
    moment.held = true ∧ ∃ first since, Hold past first since ∧
      first.time + ({} : TouchConfig).factoryHoldMs.toNat ≤ moment.time

theorem deliberate_of_completedNow {channelCount : ℕ} (hcount : channelCount ≤ kMaxChannels)
    {world : ResetWorld ρ σ ι} (hordered : Ordered world)
    (hnow : CompletedNow channelCount world) : Deliberate channelCount world := by
  obtain ⟨hpresent, past, moment, later, hmoments, hbefore, hcall⟩ := hnow
  have hemitted : Emitted (world.moments channelCount) := ⟨moment, by rw [hmoments]; simp, hcall⟩
  have htwo : 2 ≤ channelCount := by
    by_contra hfew
    refine TouchInput.not_gesture_of_disabled ?_ world.polls hemitted
    interval_cases channelCount
    · exact .inl rfl
    · exact .inr rfl
  have hpair : TouchInput.ValidPair {} channelCount :=
    ⟨(by omega : 0 < channelCount), (by omega : 1 < channelCount), by decide⟩
  have htraced := TouchInput.traced_history ⟨by omega, hcount⟩ hpair hpresent
  rw [← moments, hmoments] at htraced
  obtain ⟨state, hpast, hcalls⟩ := htraced.of_append
  obtain ⟨hsettled, hheld, first, since, hholding, -, hlong⟩ :=
    ((Gesture.tracks hpast).gesture_iff _ _).mp ((gesture_mem_calls hcalls).mp hcall)
  have hfirst : first ∈ past := mem_of_mem_holding (by rw [hholding]; exact List.mem_cons_self)
  have hsorted := hordered.sorted
  rw [← TouchInput.map_time_history (.start {} channelCount), ← moments, hmoments, List.map_append,
    List.pairwise_append] at hsorted
  have hle : first.time ≤ moment.time :=
    hsorted.2.2 _ (List.mem_map_of_mem hfirst) _ List.mem_cons_self
  exact ⟨htwo, past, moment, later, hmoments, hbefore, hcall, hheld, first, since,
    (hold_iff hsettled first since).mpr hholding, TouchInput.add_le_of_le_elapsed hle hlong⟩

/-- The net task erases the two keys of the health window and no other. -/
def OnlyWindow : RootCall → Prop
  | .erase key => key ∈ [ascii "ota_pending", ascii "ota_pending_ver"]
  | _ => True

theorem asksOnly_systemCommands (commands : List SystemCommand) :
    (CompositionRoot.systemCommands commands).AsksOnly OnlyWindow := by
  induction commands with
  | nil => trivial
  | cons command rest ih =>
    cases command with
    | otaManifest payload => exact ⟨trivial, fun _ ↦ ih⟩
    | otaConfirm =>
      refine ⟨trivial, fun pending ↦ ?_⟩
      cases pending with
      | false => exact ih
      | true => exact ⟨trivial, fun _ ↦ ih⟩

theorem asksOnly_healthTick (now : Millis) :
    (CompositionRoot.healthTick now).AsksOnly OnlyWindow := by
  have hflag : OnlyWindow (.erase (ascii "ota_pending")) := List.mem_cons_self
  have hversion : OnlyWindow (.erase (ascii "ota_pending_ver")) :=
    List.mem_cons_of_mem _ List.mem_cons_self
  refine ⟨trivial, fun outcome ↦ ?_⟩
  cases outcome with
  | confirmed => exact ⟨hflag, fun _ ↦ ⟨hversion, fun _ ↦ ⟨trivial, fun _ ↦ trivial⟩⟩⟩
  | rollback =>
    exact ⟨hflag, fun _ ↦ ⟨hversion, fun _ ↦ ⟨trivial, fun _ ↦ ⟨trivial, fun _ ↦ trivial⟩⟩⟩⟩
  | pending => trivial

theorem asksOnly_showConnection (was connected : Bool) :
    (CompositionRoot.showConnection was connected).AsksOnly OnlyWindow := by
  unfold CompositionRoot.showConnection
  split_ifs
  · exact ⟨trivial, fun _ ↦ trivial⟩
  · exact ⟨trivial, fun _ ↦ trivial⟩
  · trivial

theorem asksOnly_tickMqtt (root : CompositionRoot) (now : Millis) :
    (root.tickMqtt now).AsksOnly OnlyWindow := by
  unfold CompositionRoot.tickMqtt
  split_ifs
  · refine Prog.asksOnly_ask_bind.mpr ⟨trivial, fun was ↦ ?_⟩
    refine Prog.asksOnly_ask_bind.mpr ⟨trivial, fun commands ↦ ?_⟩
    refine Prog.asksOnly_bind (asksOnly_systemCommands commands) fun _ ↦ ?_
    refine Prog.asksOnly_ask_bind.mpr ⟨trivial, fun connected ↦ ?_⟩
    refine Prog.asksOnly_bind (asksOnly_showConnection was connected) fun _ ↦ ?_
    refine Prog.asksOnly_ask_bind.mpr ⟨trivial, fun pending ↦ ?_⟩
    split_ifs
    · exact ⟨trivial, fun _ ↦ trivial⟩
    · trivial
  · trivial

theorem asksOnly_tickOperational (root : CompositionRoot) (now : Millis) :
    (root.tickOperational now).AsksOnly OnlyWindow := by
  refine Prog.asksOnly_bind (asksOnly_tickMqtt root now) fun _ ↦
    Prog.asksOnly_bind ?_ fun _ ↦ trivial
  refine ⟨trivial, fun pending ↦ ?_⟩
  cases pending with
  | false => trivial
  | true => exact asksOnly_healthTick now

theorem asksOnly_beginProvisioning (root : CompositionRoot) (now : Millis) :
    (root.beginProvisioning now).AsksOnly OnlyWindow := by
  unfold CompositionRoot.beginProvisioning
  split_ifs
  · refine Prog.asksOnly_ask_bind.mpr ⟨trivial, fun state ↦ ?_⟩
    split_ifs
    · exact ⟨trivial, fun _ ↦ trivial⟩
    · trivial
  · trivial

theorem asksOnly_noteOperational (root : CompositionRoot) (operational : Bool) :
    (root.noteOperational operational).AsksOnly OnlyWindow := by
  unfold CompositionRoot.noteOperational
  cases operational && !root.wifiOperational with
  | false => trivial
  | true => exact ⟨trivial, fun _ ↦ ⟨trivial, fun _ ↦ trivial⟩⟩

theorem asksOnly_netTick (root : CompositionRoot) : root.netTick.AsksOnly OnlyWindow := by
  refine Prog.asksOnly_ask_bind.mpr ⟨trivial, fun now ↦ ?_⟩
  split_ifs
  · trivial
  · refine Prog.asksOnly_bind (asksOnly_beginProvisioning root now) fun begun ↦ ?_
    refine Prog.asksOnly_ask_bind.mpr ⟨trivial, fun _ ↦ ?_⟩
    refine Prog.asksOnly_ask_bind.mpr ⟨trivial, fun state ↦ ?_⟩
    refine Prog.asksOnly_bind (asksOnly_noteOperational begun _) fun noted ↦ ?_
    split_ifs
    · trivial
    · exact asksOnly_tickOperational noted now

/-- A factory reset comes from a deliberate hold of both pads and from nothing else. Whatever
commands are submitted and statuses shown meanwhile, whenever a control tick asks for a key to be
erased or for the restart behind it, the engine completed the gesture in this very tick; the keys
erased so far are those of the wipe, in its order, and all of them before the restart. A tick that
ends has erased nothing, and up to its end the gesture was never completed: no completed gesture is
passed over. The net task, in whatever state, erases at most the keys of the health window. -/
theorem erased_only_by_gesture {ρ σ ι : Type} [RelaySink ρ] [StateChangePort σ ρ]
    [IndicatorSink ι] (firmware : Firmware) (hprofile : firmware.touch.profile ∈ kProfiles)
    (relays : RelayController ρ) (stateOut : σ) (sink : ι)
    {phase : Component.Phase FirmwareCall FirmwareAns Firmware Unit} {world : ResetWorld ρ σ ι}
    (hsteps : controlTask.Steps setting starts (.idle firmware,
      fresh firmware.touch.profile.channelCount relays stateOut sink) (phase, world)) :
    (∀ key resume, phase = .busy () (.call (.root (.erase key)) resume) →
      Deliberate firmware.touch.profile.channelCount world ∧
        world.erased ++ [key] <+: CompositionRoot.kWipe) ∧
    (∀ resume, phase = .busy () (.call (.root .reboot) resume) →
      Deliberate firmware.touch.profile.channelCount world ∧
        world.erased = CompositionRoot.kWipe) ∧
    (∀ firmware', phase = .idle firmware' → world.erased = [] ∧
      ¬ Emitted (world.moments firmware.touch.profile.channelCount)) ∧
    ∀ root : CompositionRoot, root.netTick.AsksOnly OnlyWindow := by
  have hcount := FeedbackWorld.channelCount_of_mem_kProfiles _ hprofile
  have hfresh : Calm firmware.touch.profile.channelCount
      (fresh firmware.touch.profile.channelCount relays stateOut sink) := by
    refine ⟨⟨rfl, nofun, rfl, ?_, fun _ ↦ ⟨rfl, rfl⟩⟩, rfl, List.not_mem_nil, rfl⟩
    rintro ⟨elapsedMs, totalMs, hcall⟩
    exact absurd hcall List.not_mem_nil
  have hmaintains : Component.Maintains setting (guard firmware.touch.profile.channelCount)
      (fun firmware' reached ↦ firmware' = firmware ∧
        Calm firmware.touch.profile.channelCount reached) (phase, world) := by
    refine Component.invariant_rule (fun _ early late hearly hinterfere ↦ ?_) ?_ hsteps
      ⟨rfl, hfresh⟩
    · exact ⟨hearly.1, hearly.2.interferes early late hinterfere⟩
    · rintro _ _ reached _ ⟨rfl, hreached⟩ rfl
      exact wp_controlTick _ hreached
  have hordered : Ordered world := by
    refine Component.world_rule ?_ ?_ ?_ hsteps
      ⟨List.Pairwise.nil, fun _ hpoll ↦ absurd hpoll List.not_mem_nil, le_rfl⟩
    · exact fun _ _ _ _ ↦ Ordered.answers
    · rintro reached _ _ hreached rfl
      exact hreached
    · exact fun _ _ ↦ Ordered.interferes
  refine ⟨?_, ?_, ?_, asksOnly_netTick⟩
  · rintro key resume rfl
    obtain ⟨hnow, hkeys⟩ : guard _ world (.root (.erase key)) := Setting.wp_guard hmaintains
    exact ⟨deliberate_of_completedNow hcount.2 hordered hnow, hkeys⟩
  · rintro resume rfl
    obtain ⟨hnow, hkeys⟩ : guard _ world (.root .reboot) := Setting.wp_guard hmaintains
    exact ⟨deliberate_of_completedNow hcount.2 hordered hnow, hkeys⟩
  · rintro firmware' rfl
    obtain ⟨-, hcalm⟩ := hmaintains
    exact ⟨hcalm.erased_eq, (mem_made_iff hcalm.sound).not.mp hcalm.not_made⟩

/-! ### A hold of ten seconds -/

/-- The world of a device with recording sinks. -/
abbrev Recorded := ResetWorld DriveLog (List Announcement) (List Bool)

/-- The firmware of a two-gang device. -/
def twoGangFirmware : Firmware := { logger := {}, touch := FeedbackWorld.twoGang, root := {} }

/-- The answers on pads that are pressed from the third scan on, up to the reset. -/
def respondHeld (world : Recorded) :
    (request : FirmwareCall) → Option (FirmwareAns request × Recorded)
  | .loop request =>
    let high := decide (4 ≤ world.polls.length)
    some ((world.plane.answer high request).1, world.answered high request)
  | .consumeResetRequest => some (world.plane.coord.reset.resetRequested, world.consumed)
  | .root .nowMs => some (UInt32.ofNat world.time, world.clockRead)
  | .root .otaPending => some (false, world)
  | .announced => some (([] : List Announcement), world)
  | _ => none

theorem answers_respondHeld (world : Recorded) (request : FirmwareCall)
    (reply : FirmwareAns request × Recorded) (hreply : respondHeld world request = some reply) :
    setting.answers world request reply.1 reply.2 := by
  cases request with
  | loop request =>
    obtain rfl := Option.some.inj hreply
    exact ⟨_, rfl, rfl⟩
  | consumeResetRequest =>
    obtain rfl := Option.some.inj hreply
    exact ⟨rfl, rfl⟩
  | announced =>
    obtain rfl := Option.some.inj hreply
    rfl
  | root request =>
    cases request with
    | nowMs =>
      obtain rfl := Option.some.inj hreply
      exact ⟨rfl, rfl⟩
    | otaPending =>
      obtain rfl := Option.some.inj hreply
      rfl
    | _ => cases hreply
  | _ => cases hreply

/-- A control tick some time later. -/
def laterTick (config : Firmware × Recorded) (delay : ℕ) : Option (Firmware × Recorded) :=
  config.1.controlTick.tryRunOn respondHeld (config.2.later delay)

theorem steps_later (firmware : Firmware) (world : Recorded) (delay : ℕ) :
    controlTask.Steps setting starts (.idle firmware, world)
      (.busy () firmware.controlTick, world.later delay) :=
  .head (.interfere (.inr (.inr ⟨delay, rfl⟩))) (.single (.start rfl))

theorem steps_laterTicks {delays : List ℕ} {config result : Firmware × Recorded}
    (hresult : delays.foldlM laterTick config = some result) :
    controlTask.Steps setting starts (.idle config.1, config.2) (.idle result.1, result.2) := by
  induction delays generalizing config with
  | nil =>
    obtain rfl := Option.some.inj hresult
    exact .refl
  | cons delay rest ih =>
    rw [List.foldlM_cons] at hresult
    obtain ⟨middle, hmiddle, hrest⟩ := Option.bind_eq_some_iff.mp hresult
    exact (steps_later config.1 config.2 delay).trans
      ((Component.steps_tryRunOn answers_respondHeld () hmiddle).trans (ih hrest))

/-- The device when both pads have been found pressed. -/
def pressed : Option (Firmware × Recorded) :=
  [0, 600, 100, 40].foldlM laterTick (twoGangFirmware, fresh 2 { sink := [] } [] [])

theorem isSome_pressed : pressed.isSome = true := by decide

/-- The device ten seconds later. -/
def heldOn : Recorded := (pressed.get isSome_pressed).2.later 10000

/-- The loop of a tick at this time. -/
def heldLoop : Option ((Unit × Unit) × Recorded) :=
  ((tick (pressed.get isSome_pressed).1.touch (UInt32.ofNat heldOn.time)).translate
    (fun _ request ↦ do
      let answer ← Firmware.onLoop (pressed.get isSome_pressed).1.logger request
      return (answer, ()))
    ()).tryRunOn respondHeld heldOn.clockRead

theorem isSome_heldLoop : heldLoop.isSome = true := by decide

/-- The device when this tick has asked for the reset. -/
def resetting : Recorded := (heldLoop.get isSome_heldLoop).2.consumed

theorem requested_heldLoop :
    (heldLoop.get isSome_heldLoop).2.plane.coord.reset.resetRequested = true := by decide

theorem steps_resetting : ∃ resume, controlTask.Steps setting starts
    (.idle twoGangFirmware, (fresh 2 { sink := [] } [] [] : Recorded))
    (.busy () (.call (.root (.erase (ascii "sta_ssid"))) resume), resetting) := by
  have hpressed := steps_laterTicks (Option.some_get isSome_pressed).symm
  have hstart := steps_later (pressed.get isSome_pressed).1 (pressed.get isSome_pressed).2 10000
  rw [controlTick_eq] at hstart
  have hread (world : Recorded) : setting.answers world (.root .nowMs) (UInt32.ofNat world.time)
      world.clockRead := ⟨rfl, rfl⟩
  have hpending (world : Recorded) : setting.answers world (.root .otaPending) false world := rfl
  have hrequested : setting.answers (heldLoop.get isSome_heldLoop).2 .consumeResetRequest true
      resetting := ⟨requested_heldLoop.symm, rfl⟩
  apply Exists.intro
  refine (hpressed.trans hstart).trans (.head (.answer (hread heldOn)) ?_)
  refine (Component.steps_tryRunOn_bind answers_respondHeld () _
    (Option.some_get isSome_heldLoop).symm).trans ?_
  exact .head (.answer (hpending _)) (.single (.answer hrequested))

theorem erased_only_by_gesture_two_gang :
    Deliberate 2 resetting ∧ [ascii "sta_ssid"] <+: CompositionRoot.kWipe := by
  obtain ⟨resume, hsteps⟩ := steps_resetting
  obtain ⟨hdeliberate, hkeys⟩ := (erased_only_by_gesture twoGangFirmware
    FeedbackWorld.mem_kProfiles_twoGang _ _ _ hsteps).1 _ _ rfl
  exact ⟨hdeliberate, hkeys⟩

end ResetWorld

end LibreSwitch.App
