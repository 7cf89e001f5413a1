import LibreSwitch.App.CommandPath
import LibreSwitch.Domain.ResetGesture

/-!
# The feedback of a factory-reset hold

The control loop beside the tasks that show the state of the connection and submit remote commands.
A hold of the reset pair that is reported puts the indicator into its factory-reset pattern with the
progress of the hold. Nothing ever takes this back: no caller of the controller clears the progress.
`reset_leaves_no_trace_iff` says exactly when a tick without a hold shows the connection again,
which is when no hold so far was long enough to be reported.
-/

set_option autoImplicit false
set_option relaxedAutoImplicit false

namespace LibreSwitch.Domain

open LibreSwitch.Library

/-! ### Holds that are reported -/

/-- Some moment extends a hold behind the baseline to the time after which progress is reported. -/
def LongHold (config : TouchConfig) (moments : List Moment) : Prop :=
  ∃ past moment later, moments = past ++ moment :: later ∧ Settled past ∧ moment.held = true ∧
    ∃ first since, holding past = first :: since ∧
      config.progressEveryMs ≤ TouchInput.elapsed moment.nowMs first.nowMs

section Reports

variable {config : TouchConfig} {state : Gesture} {past moments : List Moment}

theorem Moment.reportsProgress_iff {moment : Moment}
    (hcalls : moment.calls.filter TouchCall.ofGesture =
      (state.step config moment.held moment.nowMs).2) :
    moment.ReportsProgress ↔ state.baselineReleased = true ∧ moment.held = true ∧
      state.resetActive = true ∧ state.resetFired = false ∧
        config.progressEveryMs ≤ TouchInput.elapsed moment.nowMs state.lastProgress := by
  constructor
  · rintro ⟨elapsedMs, totalMs, hcall⟩
    rw [progress_mem_calls hcalls, Gesture.progress_mem_step] at hcall
    obtain ⟨hready, hheld, hactive, hfired, hdue, -⟩ := hcall
    exact ⟨hready, hheld, hactive, hfired, hdue⟩
  · rintro ⟨hready, hheld, hactive, hfired, hdue⟩
    refine ⟨TouchInput.elapsed moment.nowMs state.resetStart, config.factoryHoldMs, ?_⟩
    rw [progress_mem_calls hcalls, Gesture.progress_mem_step]
    exact ⟨hready, hheld, hactive, hfired, hdue, rfl, rfl⟩

/-- As long as nothing was reported, a hold waits for its first report from its start on. -/
theorem lastProgress_of_unreported (htraced : Traced config past state)
    (hquiet : ∀ moment ∈ past, ¬ moment.ReportsProgress) (hactive : state.resetActive = true) :
    state.lastProgress = state.resetStart := by
  induction htraced with
  | start => cases hactive
  | @evaluate past state htraced moment hcalls ih =>
    have hpast : ∀ earlier ∈ past, ¬ earlier.ReportsProgress :=
      fun earlier hearlier ↦ hquiet earlier (List.mem_append_left _ hearlier)
    have hnow : ¬ moment.ReportsProgress := hquiet moment (by simp)
    rw [Moment.reportsProgress_iff hcalls] at hnow
    cases hready : state.baselineReleased with
    | false =>
      rw [Gesture.step_waits hready] at hactive
      cases hactive
    | true =>
      cases hheld : moment.held with
      | false =>
        rw [hheld, Gesture.step_releases hready] at hactive
        cases hactive
      | true =>
        cases hheldBefore : state.resetActive with
        | false => rw [Gesture.step_starts hready hheldBefore]
        | true =>
          have hdue : state.progressDue config moment.nowMs = false := by
            rw [Bool.eq_false_iff]
            intro hdue
            refine hnow ⟨hready, hheld, hheldBefore, ?_⟩
            simpa [Gesture.progressDue] using hdue
          rw [Gesture.step_continues hready hheldBefore]
          simp only [Gesture.continueHold, hdue]
          exact ih hpast hheldBefore

/-- Where the gesture stands in a hold of which nothing was reported. -/
theorem Gesture.Tracks.of_holding (htracks : state.Tracks past) (hsettled : Settled past)
    {first : Moment} {since : List Moment} (hholding : holding past = first :: since) :
    state.baselineReleased = true ∧ state.resetActive = true ∧ state.resetStart = first.nowMs ∧
      (state.resetFired = true ↔ Emitted (first :: since)) := by
  have hready := htracks.baseline.mpr hsettled
  have hholds := htracks.holds hready
  rw [hholding] at hholds
  exact ⟨hready, hholds⟩

/-- While the gesture was never completed, progress was reported exactly if some hold was long
enough for it. -/
theorem reported_iff (htraced : Traced config moments state) (hnone : ¬ Emitted moments) :
    (∃ moment ∈ moments, moment.ReportsProgress) ↔ LongHold config moments := by
  constructor
  · classical
    intro hreported
    have hfound : (moments.find? fun moment ↦ moment.ReportsProgress).isSome := by
      rw [List.find?_isSome]
      simpa using hreported
    obtain ⟨moment, hfirst⟩ := Option.isSome_iff_exists.mp hfound
    obtain ⟨hreports, past, later, rfl, hquiet⟩ := List.find?_eq_some_iff_append.mp hfirst
    obtain ⟨before, hpast, hcalls⟩ := htraced.of_append
    obtain ⟨hready, hheld, hactive, -, hdue⟩ :=
      (Moment.reportsProgress_iff hcalls).mp (of_decide_eq_true hreports)
    have htracks := Gesture.tracks hpast
    have hholds := htracks.holds hready
    rw [lastProgress_of_unreported hpast (by simpa using hquiet) hactive] at hdue
    cases hholding : holding past with
    | nil =>
      rw [hholding] at hholds
      exact absurd hactive (by simp [hholds.1])
    | cons first since =>
      rw [hholding] at hholds
      rw [hholds.2.1] at hdue
      exact ⟨past, moment, later, rfl, htracks.baseline.mp hready, hheld, first, since, hholding,
        hdue⟩
  · rintro ⟨past, moment, later, rfl, hsettled, hheld, first, since, hholding, hdue⟩
    by_contra hquiet
    push Not at hquiet
    obtain ⟨before, hpast, hcalls⟩ := htraced.of_append
    obtain ⟨hready, hactive, hstart, hfired⟩ :=
      (Gesture.tracks hpast).of_holding hsettled hholding
    refine hquiet moment (by simp) ((Moment.reportsProgress_iff hcalls).mpr
      ⟨hready, hheld, hactive, ?_, ?_⟩)
    · rw [Bool.eq_false_iff, Ne, hfired]
      rintro ⟨earlier, hearlier, hcall⟩
      rw [← hholding] at hearlier
      exact hnone ⟨earlier, List.mem_append_left _ (mem_of_mem_holding hearlier), hcall⟩
    · rw [lastProgress_of_unreported hpast (fun earlier hearlier ↦
        hquiet earlier (List.mem_append_left _ hearlier)) hactive, hstart]
      exact hdue

end Reports

namespace TouchInput

section Engine

variable {config : TouchConfig} {channelCount : ℕ} {polls : List Poll}

/-- The calls of the moments of a run are the calls of the engine. -/
theorem calls_history (touch : TouchInput) (polls : List Poll) :
    (touch.history polls).map Moment.calls = machine.reports touch polls := by
  induction polls generalizing touch with
  | nil => rfl
  | cons poll rest ih =>
    rw [Machine.reports_cons, ← ih]
    rfl

/-- Without two channels to hold there is no gesture and no report. -/
theorem not_reportsProgress_of_invalid (hcount : 0 < channelCount ∧ channelCount ≤ kMaxChannels)
    (hpair : ¬ ValidPair config channelCount)
    (hpresent : ∀ poll ∈ polls, poll.channel < channelCount) :
    ∀ moment ∈ (start config channelCount).history polls, ¬ moment.ReportsProgress := by
  induction polls using List.reverseRecOn with
  | nil => nofun
  | append_singleton polls poll ih =>
    have hserves : (machine.final (start config channelCount) polls).Serves config channelCount :=
      (serves_start hcount).final polls
    rw [history_concat]
    generalize machine.final (start config channelCount) polls = touch at hserves
    intro moment hmoment
    rcases List.mem_append.mp hmoment with hearlier | hnow
    · exact ih (fun other hother ↦ hpresent other (List.mem_append_left _ hother)) moment hearlier
    · rw [List.mem_singleton.mp hnow]
      rintro ⟨elapsedMs, totalMs, hcall⟩
      have hchannel : poll.channel < touch.count := by
        rw [hserves.count_eq]
        exact hpresent poll (by simp)
      have hinvalid : (touch.debounce poll.channel poll.level poll.nowMs).1.resetPairValid =
          false := by
        rw [resetPairValid_debounce]
        have hvalid := congrArg (fun frame ↦ frame.2.2.2) hserves.frame_eq
        refine hvalid.trans (Bool.eq_false_iff.mpr fun hall ↦ hpair ?_)
        simpa [ValidPair, and_assoc] using hall
      simp only [watched, machine, poll_of_present hserves.initialized hchannel,
        updateResetGesture_of_not_valid hinvalid, List.append_nil] at hcall
      obtain ⟨event, hevent⟩ := debounce_calls _ _ _ _ _ hcall
      cases hevent

/-- In a run of the engine in which the gesture was never completed, progress was reported exactly
if the pair is valid and some hold was long enough for it. -/
theorem reported_history_iff (hcount : 0 < channelCount ∧ channelCount ≤ kMaxChannels)
    (hpresent : ∀ poll ∈ polls, poll.channel < channelCount)
    (hnone : ¬ Emitted ((start config channelCount).history polls)) :
    (∃ moment ∈ (start config channelCount).history polls, moment.ReportsProgress) ↔
      ValidPair config channelCount ∧
        LongHold config ((start config channelCount).history polls) := by
  by_cases hpair : ValidPair config channelCount
  · rw [and_iff_right hpair]
    exact reported_iff (traced_history hcount hpair hpresent) hnone
  · refine iff_of_false ?_ fun hboth ↦ hpair hboth.1
    rintro ⟨moment, hmoment, hreports⟩
    exact not_reportsProgress_of_invalid hcount hpair hpresent moment hmoment hreports

end Engine

end TouchInput

namespace ControlCoordinator

variable {ρ σ η : Type} [RelaySink ρ] [StateChangePort σ ρ]

omit [RelaySink ρ] in
@[simp] theorem reset_announceIfChanged (coord : ControlCoordinator ρ σ η) (channel : ℕ)
    (before : RelayState) (source : CommandSource) :
    (coord.announceIfChanged channel before source).reset = coord.reset := by
  unfold announceIfChanged
  split_ifs <;> rfl

omit [RelaySink ρ] in
theorem reset_foldl_announce (coord : ControlCoordinator ρ σ η) (channels : List ℕ)
    (before : ℕ → RelayState) (source : CommandSource) :
    (channels.foldl (fun reached channel ↦
      reached.announceIfChanged channel (before channel) source)
      coord).reset = coord.reset := by
  induction channels generalizing coord with
  | nil => rfl
  | cons channel rest ih => rw [List.foldl_cons, ih, reset_announceIfChanged]

@[simp] theorem reset_applyToggle (coord : ControlCoordinator ρ σ η) (channel : ℕ)
    (source : CommandSource) : (coord.applyToggle channel source).2.reset = coord.reset := by
  unfold applyToggle
  dsimp only
  split_ifs
  · exact reset_announceIfChanged _ _ _ _
  · rfl

/-- Commands do not reach the handler of the gesture. -/
@[simp] theorem reset_submit (coord : ControlCoordinator ρ σ η) (command : ControlCommand) :
    (coord.submit command).2.reset = coord.reset := by
  unfold submit
  cases command.kind with
  | setChannel =>
    unfold applySet
    dsimp only
    split_ifs
    · exact reset_announceIfChanged _ _ _ _
    · rfl
  | toggleChannel => exact reset_applyToggle _ _ _
  | setAll =>
    unfold applySetAll
    dsimp only
    split_ifs
    · exact reset_foldl_announce _ _ _ _
    · rfl
  | other code => rfl

@[simp] theorem reset_onTouchEvent (coord : ControlCoordinator ρ σ η) (channel : ℕ)
    (event : TouchEvent) : (coord.onTouchEvent channel event).reset = coord.reset := by
  unfold onTouchEvent
  split_ifs
  · exact reset_applyToggle _ _ _
  · rfl

end ControlCoordinator

end LibreSwitch.Domain

namespace LibreSwitch.App

open LibreSwitch.Library LibreSwitch.Domain LibreSwitch.Profiles LibreSwitch.Platform

/-! ### The control loop beside the other tasks -/

/-- The statuses that the connectivity side shows. -/
inductive LinkStatus
  | provisioning
  | connecting
  | online
  | offline
  deriving DecidableEq, Repr

def LinkStatus.toStatus : LinkStatus → DeviceStatus
  | .provisioning => .provisioning
  | .connecting => .connecting
  | .online => .online
  | .offline => .offline

/-- The control plane with the status that was shown last, the polls that were made, and the calls
of the engine that reached the coordinator. -/
structure FeedbackWorld (ρ σ ι : Type) where
  plane : ControlPlane ρ σ ι
  shown : DeviceStatus := .booting
  polls : List Poll := []
  made : List TouchCall := []

namespace FeedbackWorld

variable {ρ σ ι : Type}

def indicator (world : FeedbackWorld ρ σ ι) : IndicatorController ι :=
  world.plane.coord.reset.indicator

/-- The connectivity side shows a status. -/
def showLink (world : FeedbackWorld ρ σ ι) (link : LinkStatus) : FeedbackWorld ρ σ ι :=
  { world with
    plane := { world.plane with coord := { world.plane.coord with
      reset := { world.plane.coord.reset with
        indicator := world.indicator.setStatus link.toStatus } } }
    shown := link.toStatus }

/-- The pattern of the indicator is that of the status shown last, without a reset progress. -/
def Undisturbed (world : FeedbackWorld ρ σ ι) : Prop :=
  world.indicator.resetActive = false ∧ world.indicator.status = world.shown

/-- The moments of the polls made. -/
def moments (config : TouchConfig) (channelCount : ℕ) (world : FeedbackWorld ρ σ ι) : List Moment :=
  (TouchInput.start config channelCount).history world.polls

section Steps

variable [RelaySink ρ] [StateChangePort σ ρ] [IndicatorSink ι]

/-- The answer to a request of the tick, with what it adds to the record. -/
def answered (high : Bool) (world : FeedbackWorld ρ σ ι) (request : LoopCall) :
    FeedbackWorld ρ σ ι :=
  { world with
    plane := (world.plane.answer high request).2
    polls := match request with
      | .poll channel level nowMs => world.polls ++ [⟨channel, level, nowMs.toNat⟩]
      | _ => world.polls
    made := match request with
      | .touchCall call => world.made ++ [call]
      | _ => world.made }

/-- The surroundings of a tick: its own objects answer, the pads read anything, and the other tasks
submit commands and show statuses at any time. -/
def setting : Setting LoopCall LoopAns (FeedbackWorld ρ σ ι) where
  answers world request reply world' := ∃ high,
    reply = (world.plane.answer high request).1 ∧ world' = world.answered high request
  interferes world world' :=
    (∃ command, world' = { world with plane := (world.plane.submitRemote command).2 }) ∨
      ∃ link, world' = world.showLink link

/-- A tick may start at any time. -/
def starts (world : FeedbackWorld ρ σ ι) (_ : Millis) (world' : FeedbackWorld ρ σ ι) : Prop :=
  world' = world

end Steps

/-- The objects as the composition root wires them, over a coordinator with some relays. -/
def fresh (config : TouchConfig) (channelCount : ℕ) (relays : RelayController ρ) (stateOut : σ)
    (sink : ι) : FeedbackWorld ρ σ ι where
  plane := ⟨.new kCommandQueueDepth_pos, ⟨relays, stateOut, ⟨{ sink := sink }, false⟩⟩,
    .start config channelCount⟩

/-! ### The record -/

section Invariant

variable {ρ σ ι : Type} {config : TouchConfig} {channelCount : ℕ}

/-- Progress was reported by some of the calls. -/
def Reported (calls : List TouchCall) : Prop :=
  ∃ elapsedMs totalMs, TouchCall.factoryResetProgress elapsedMs totalMs ∈ calls

/-- The engine is where the polls lead, the calls made and those about to be made are its calls,
and the indicator shows a reset progress exactly if one was reported. -/
structure Sound (config : TouchConfig) (channelCount : ℕ) (pending : List TouchCall)
    (world : FeedbackWorld ρ σ ι) : Prop where
  engine : world.plane.engine =
    TouchInput.machine.final (.start config channelCount) world.polls
  present : ∀ poll ∈ world.polls, poll.channel < channelCount
  calls : world.made ++ pending =
    (TouchInput.machine.reports (.start config channelCount) world.polls).flatten
  disturbed : Reported world.made → world.indicator.resetActive = true
  undisturbed : ¬ Reported world.made → world.Undisturbed

variable [RelaySink ρ] [StateChangePort σ ρ] [IndicatorSink ι]

omit [RelaySink ρ] [StateChangePort σ ρ] [IndicatorSink ι] in
/-- What is kept by steps that touch neither the engine nor the record, and leave the pattern of
the indicator alone or show a status. -/
theorem Sound.of_same {pending : List TouchCall} {world world' : FeedbackWorld ρ σ ι}
    (hsound : Sound config channelCount pending world)
    (hengine : world'.plane.engine = world.plane.engine) (hpolls : world'.polls = world.polls)
    (hmade : world'.made = world.made)
    (hactive : world'.indicator.resetActive = world.indicator.resetActive)
    (hstatus : world.indicator.status = world.shown → world'.indicator.status = world'.shown) :
    Sound config channelCount pending world' := by
  obtain ⟨hreached, hpresent, hcalls, hdisturbed, hundisturbed⟩ := hsound
  refine ⟨?_, ?_, ?_, ?_, ?_⟩
  · rw [hengine, hpolls, hreached]
  · rwa [hpolls]
  · rwa [hmade, hpolls]
  · rwa [hmade, hactive]
  · rw [hmade]
    intro hnot
    obtain ⟨hoff, hsame⟩ := hundisturbed hnot
    exact ⟨hactive.trans hoff, hstatus hsame⟩

theorem Sound.interferes {pending : List TouchCall} (world world' : FeedbackWorld ρ σ ι)
    (hsound : Sound config channelCount pending world)
    (hinterfere : setting.interferes world world') :
    Sound config channelCount pending world' := by
  rcases hinterfere with ⟨command, rfl⟩ | ⟨link, rfl⟩
  · exact hsound.of_same rfl rfl rfl rfl id
  · exact hsound.of_same rfl rfl rfl (IndicatorController.resetActive_setStatus _ _)
      fun _ ↦ IndicatorController.status_setStatus _ _

/-- A call of the engine reaches the coordinator. -/
theorem Sound.made_call {call : TouchCall} {pending : List TouchCall} {world : FeedbackWorld ρ σ ι}
    (hsound : Sound config channelCount (call :: pending) world) (high : Bool) :
    Sound config channelCount pending (world.answered high (.touchCall call)) := by
  obtain ⟨hreached, hpresent, hcalls, hdisturbed, hundisturbed⟩ := hsound
  have hmade : (world.answered high (.touchCall call)).made = world.made ++ [call] := rfl
  have hlist : world.made ++ [call] ++ pending = world.made ++ call :: pending := by
    rw [List.append_assoc, List.singleton_append]
  cases call with
  | touchEvent channel event =>
    have hreset : (world.answered high (.touchCall (.touchEvent channel event))).indicator =
        world.indicator :=
      congrArg LocalResetHandler.indicator (ControlCoordinator.reset_onTouchEvent _ channel event)
    have hreported : Reported (world.made ++ [.touchEvent channel event]) ↔
        Reported world.made := by
      simp [Reported]
    refine ⟨hreached, hpresent, hlist.trans hcalls, ?_, ?_⟩
    · rw [hmade, hreported, hreset]
      exact hdisturbed
    · rw [hmade, hreported, Undisturbed, hreset]
      exact hundisturbed
  | factoryResetGesture =>
    have hreported : Reported (world.made ++ [.factoryResetGesture]) ↔ Reported world.made := by
      simp [Reported]
    refine ⟨hreached, hpresent, hlist.trans hcalls, ?_, ?_⟩
    · rw [hmade, hreported]
      exact hdisturbed
    · rw [hmade, hreported]
      exact hundisturbed
  | factoryResetProgress elapsedMs totalMs =>
    refine ⟨hreached, hpresent, hlist.trans hcalls, fun _ ↦ rfl, fun hnot ↦ ?_⟩
    exact absurd ⟨elapsedMs, totalMs, List.mem_append_right _ (List.mem_singleton_self _)⟩ hnot

/-- A poll of a present channel has its calls still to make. -/
theorem Sound.polled {channel : ℕ} {level : TouchLevel} {nowMs : Millis}
    {world : FeedbackWorld ρ σ ι} (hsound : Sound config channelCount [] world)
    (hchannel : channel < channelCount) (high : Bool) :
    Sound config channelCount (world.plane.engine.poll channel level nowMs).2.2
      (world.answered high (.poll channel level nowMs)) := by
  obtain ⟨hreached, hpresent, hcalls, hdisturbed, hundisturbed⟩ := hsound
  have hstep : TouchInput.machine.step world.plane.engine ⟨channel, level, nowMs.toNat⟩ =
      (world.plane.engine.poll channel level nowMs).2 := by
    simp [TouchInput.machine, Poll.nowMs]
  refine ⟨?_, ?_, ?_, hdisturbed, hundisturbed⟩
  · have hpolls : (world.answered high (.poll channel level nowMs)).polls =
        world.polls ++ [⟨channel, level, nowMs.toNat⟩] := rfl
    rw [hpolls, Machine.final_concat, ← hreached, hstep]
    rfl
  · intro poll hpoll
    rcases List.mem_append.mp hpoll with hearlier | hnow
    · exact hpresent poll hearlier
    · rw [List.mem_singleton.mp hnow]
      exact hchannel
  · have hpolls : (world.answered high (.poll channel level nowMs)).polls =
        world.polls ++ [⟨channel, level, nowMs.toNat⟩] := rfl
    rw [List.append_nil] at hcalls
    rw [hpolls, Machine.reports_concat, ← hreached, hstep, List.flatten_append, ← hcalls]
    simp [FeedbackWorld.answered]

/-- Requests that concern neither the engine nor the handler of the gesture. -/
def Apart : LoopCall → Prop
  | .poll _ _ _ => False
  | .touchCall _ => False
  | _ => True

theorem Sound.apart {request : LoopCall} (hapart : Apart request) {pending : List TouchCall}
    {world : FeedbackWorld ρ σ ι} (hsound : Sound config channelCount pending world) (high : Bool) :
    Sound config channelCount pending (world.answered high request) := by
  cases request with
  | pop => exact hsound.of_same rfl rfl rfl rfl id
  | submit command =>
    have hindicator : (world.answered high (.submit command)).indicator = world.indicator :=
      congrArg LocalResetHandler.indicator (ControlCoordinator.reset_submit _ command)
    exact hsound.of_same rfl rfl rfl (congrArg _ hindicator) fun hsame ↦ hindicator ▸ hsame
  | readPin pin => exact hsound.of_same rfl rfl rfl rfl id
  | poll channel level nowMs => exact hapart.elim
  | touchCall call => exact hapart.elim
  | tickIndicator nowMs =>
    exact hsound.of_same rfl rfl rfl (IndicatorController.resetActive_tick _ _)
      fun hsame ↦ (IndicatorController.status_tick _ _).trans hsame

/-! ### A tick keeps the record -/

/-- Where the indicator is ticked, all calls of the engine were made. -/
def atIndicator (config : TouchConfig) (channelCount : ℕ) (world : FeedbackWorld ρ σ ι) :
    LoopCall → Prop
  | .tickIndicator _ => Sound config channelCount [] world
  | _ => True

section Tick

variable {post : Unit → FeedbackWorld ρ σ ι → Prop}

theorem wp_apart (request : LoopCall) {resume : LoopAns request → Prog LoopCall LoopAns Unit}
    (hapart : Apart request) {world : FeedbackWorld ρ σ ι}
    (hsound : Sound config channelCount [] world)
    (hresume : ∀ reply world, Sound config channelCount [] world →
      setting.wp (atIndicator config channelCount) (resume reply) post world) :
    setting.wp (atIndicator config channelCount) (.call request resume) post
      world := by
  refine Setting.wp_call_of_stable Sound.interferes hsound (fun reached hreached ↦ ?_) ?_
  · cases request with
    | tickIndicator nowMs => exact hreached
    | _ => trivial
  · rintro reached reply _ hreached ⟨high, -, rfl⟩
    exact hresume reply _ (hreached.apart hapart high)

theorem wp_sound {world : FeedbackWorld ρ σ ι} (hsound : Sound config channelCount [] world) :
    setting.wp (atIndicator config channelCount) (.ret ())
      (fun _ ↦ Sound config channelCount []) world := by
  apply Setting.wp_ret_of_stable
  · exact Sound.interferes
  · exact hsound

theorem wp_drainCommands (budget : ℕ) {world : FeedbackWorld ρ σ ι}
    (hsound : Sound config channelCount [] world) :
    setting.wp (atIndicator config channelCount) (drainCommands budget)
      (fun _ ↦ Sound config channelCount []) world := by
  induction budget generalizing world with
  | zero => exact wp_sound hsound
  | succ budget ih =>
    refine wp_apart .pop trivial hsound fun popped reached hreached ↦ ?_
    cases popped with
    | none => exact wp_sound hreached
    | some command => exact wp_apart (.submit command) trivial hreached fun _ _ hafter ↦ ih hafter

/-- The calls of a poll are made one after the other. -/
theorem wp_deliver (calls : List TouchCall) {world : FeedbackWorld ρ σ ι}
    (hsound : Sound config channelCount calls world) :
    setting.wp (atIndicator config channelCount) (deliver calls)
      (fun _ ↦ Sound config channelCount []) world := by
  induction calls generalizing world with
  | nil => exact wp_sound hsound
  | cons call rest ih =>
    refine Setting.wp_call_of_stable Sound.interferes hsound (fun _ _ ↦ trivial) ?_
    rintro reached _ _ hreached ⟨high, -, rfl⟩
    exact ih (hreached.made_call high)

theorem wp_scanLoop (touch : GpioTouchSource) (nowMs : Millis) {channels : List ℕ}
    (hchannels : ∀ channel ∈ channels, channel < channelCount) {world : FeedbackWorld ρ σ ι}
    (hsound : Sound config channelCount [] world) :
    setting.wp (atIndicator config channelCount) (touch.scanLoop nowMs channels)
      (fun _ ↦ Sound config channelCount []) world := by
  induction channels generalizing world with
  | nil => exact wp_sound hsound
  | cons channel rest ih =>
    have hrest : ∀ other ∈ rest, other < channelCount :=
      fun other hother ↦ hchannels other (List.mem_cons_of_mem _ hother)
    unfold GpioTouchSource.scanLoop
    split_ifs with hpin
    · exact ih hrest hsound
    · refine Setting.wp_bind (Setting.wp_mono (fun _ _ hafter ↦ ih hrest hafter) ?_)
      refine wp_apart (.readPin _) trivial hsound fun high read hread ↦ ?_
      refine Setting.wp_call_of_stable Sound.interferes hread (fun _ _ ↦ trivial) ?_
      rintro reached reply _ hreached ⟨other, rfl, rfl⟩
      exact wp_deliver _ (hreached.polled (hchannels channel (List.mem_cons_self ..)) other)

theorem wp_tick (touch : GpioTouchSource) (hcount : touch.profile.channelCount = channelCount)
    (nowMs : Millis) {world : FeedbackWorld ρ σ ι} (hsound : Sound config channelCount [] world) :
    setting.wp (atIndicator config channelCount) (tick touch nowMs)
      (fun _ ↦ Sound config channelCount []) world := by
  refine Setting.wp_bind (Setting.wp_mono (fun _ drained hdrained ↦ ?_)
    (wp_drainCommands kCommandQueueDepth hsound))
  have hchannels : ∀ channel ∈ List.range touch.profile.channelCount, channel < channelCount :=
    fun channel hchannel ↦ hcount ▸ List.mem_range.mp hchannel
  refine Setting.wp_bind (Setting.wp_mono (fun _ scanned hscanned ↦ ?_)
    (wp_scanLoop touch nowMs hchannels hdrained))
  exact wp_apart (.tickIndicator nowMs) trivial hscanned fun _ _ hafter ↦ wp_sound hafter

end Tick

end Invariant

/-! ### All interleavings -/

section Runs

variable {ρ σ ι : Type} [RelaySink ρ] [StateChangePort σ ρ] [IndicatorSink ι]

theorem channelCount_of_mem_kProfiles : ∀ profile ∈ kProfiles,
    0 < profile.channelCount ∧ profile.channelCount ≤ kMaxChannels := by decide

/-- At every indicator tick of every run, the record is right. -/
theorem sound_of_steps {touch : GpioTouchSource} {config : TouchConfig} {relays : RelayController ρ}
    {stateOut : σ} {sink : ι} {startMs nowMs : Millis} {resume : Unit → Prog LoopCall LoopAns Unit}
    {world : FeedbackWorld ρ σ ι}
    (hsteps : (controlLoop touch).Steps setting starts
      (.idle (), fresh config touch.profile.channelCount relays stateOut sink)
      (.busy startMs (.call (.tickIndicator nowMs) resume), world)) :
    Sound config touch.profile.channelCount [] world := by
  have hfresh : Sound config touch.profile.channelCount []
      (fresh config touch.profile.channelCount relays stateOut sink) := by
    refine ⟨rfl, nofun, rfl, ?_, fun _ ↦ ⟨rfl, rfl⟩⟩
    rintro ⟨elapsedMs, totalMs, hcall⟩
    exact absurd hcall List.not_mem_nil
  have hmaintains : Component.Maintains setting (atIndicator config touch.profile.channelCount)
      (fun _ : Unit ↦ Sound config touch.profile.channelCount [])
      (.busy startMs (.call (.tickIndicator nowMs) resume), world) := by
    refine Component.invariant_rule (fun _ ↦ Sound.interferes) ?_ hsteps hfresh
    rintro _ nowMs reached _ hreached rfl
    exact wp_tick touch rfl nowMs hreached
  have hguard : atIndicator config touch.profile.channelCount world (.tickIndicator nowMs) :=
    Setting.wp_guard hmaintains
  exact hguard

omit [RelaySink ρ] [StateChangePort σ ρ] [IndicatorSink ι] in
/-- The calls that were made report progress exactly if some moment does. -/
theorem Sound.reported_iff {config : TouchConfig} {channelCount : ℕ} {world : FeedbackWorld ρ σ ι}
    (hsound : Sound config channelCount [] world) :
    Reported world.made ↔ ∃ moment ∈ world.moments config channelCount, moment.ReportsProgress := by
  have hcalls := hsound.calls
  rw [List.append_nil, ← TouchInput.calls_history, ← List.flatMap_def] at hcalls
  rw [Reported, hcalls]
  simp only [List.mem_flatMap, Moment.ReportsProgress, moments]
  constructor
  · rintro ⟨elapsedMs, totalMs, moment, hmoment, hcall⟩
    exact ⟨moment, hmoment, elapsedMs, totalMs, hcall⟩
  · rintro ⟨moment, hmoment, elapsedMs, totalMs, hcall⟩
    exact ⟨elapsedMs, totalMs, moment, hmoment, hcall⟩

/-- Exactly when a hold leaves no trace: at every indicator tick of every run before which the
gesture was never completed, the pattern is that of the last status shown if and only if no hold so
far was long enough to be reported. -/
theorem reset_leaves_no_trace_iff (touch : GpioTouchSource) (hprofile : touch.profile ∈ kProfiles)
    (config : TouchConfig) (relays : RelayController ρ) (stateOut : σ) (sink : ι)
    {startMs nowMs : Millis} {resume : Unit → Prog LoopCall LoopAns Unit}
    {world : FeedbackWorld ρ σ ι}
    (hsteps : (controlLoop touch).Steps setting starts
      (.idle (), fresh config touch.profile.channelCount relays stateOut sink)
      (.busy startMs (.call (.tickIndicator nowMs) resume), world))
    (hnone : ¬ Emitted (world.moments config touch.profile.channelCount)) :
    world.Undisturbed ↔ ¬ (TouchInput.ValidPair config touch.profile.channelCount ∧
      LongHold config (world.moments config touch.profile.channelCount)) := by
  have hsound := sound_of_steps hsteps
  have hlong := TouchInput.reported_history_iff (channelCount_of_mem_kProfiles _ hprofile)
    hsound.present hnone
  rw [moments, ← hlong, ← moments, ← hsound.reported_iff]
  constructor
  · rintro ⟨hoff, -⟩ hreported
    exact absurd (hsound.disturbed hreported) (by simp [hoff])
  · exact hsound.undisturbed

end Runs

/-! ### A hold of a second that is given up -/

/-- The world of a device with recording sinks. -/
abbrev Recorded := FeedbackWorld DriveLog (List Announcement) (List Bool)

/-- Two pads that are pressed in the third, fourth and fifth scan. -/
def padLevel (position : ℕ) : Bool := 4 ≤ position && position < 10

/-- The answers on these pads. -/
def respondPads (world : Recorded) (request : LoopCall) : LoopAns request × Recorded :=
  ((world.plane.answer (padLevel world.polls.length) request).1,
    world.answered (padLevel world.polls.length) request)

theorem answers_respondPads (world : Recorded) (request : LoopCall) :
    setting.answers world request (respondPads world request).1 (respondPads world request).2 :=
  ⟨_, rfl, rfl⟩

/-- A two-gang device. -/
def twoGang : GpioTouchSource := ⟨kSwitch2G, .activeHigh⟩

theorem mem_kProfiles_twoGang : twoGang.profile ∈ kProfiles := by simp [kProfiles, twoGang]

def freshTwoGang : Recorded := fresh {} 2 { sink := [] } [] []

/-- The device when the connectivity side has shown its first status. -/
def offlineTwoGang : Recorded := freshTwoGang.showLink .offline

/-- The device behind ticks at given times. -/
def ticked (times : List Millis) (world : Recorded) : Recorded :=
  times.foldl (fun reached nowMs ↦ ((tick twoGang nowMs).runOn respondPads reached).2) world

theorem steps_ticked (times : List Millis) (world : Recorded) :
    (controlLoop twoGang).Steps setting starts (.idle (), world)
      (.idle (), ticked times world) := by
  induction times generalizing world with
  | nil => exact .refl
  | cons nowMs rest ih =>
    exact .head (.start rfl)
      ((Component.steps_runOn answers_respondPads nowMs (tick twoGang nowMs) world).trans (ih _))

/-- The device when the scan of a tick behind these is done. -/
def scanned (times : List Millis) (nowMs : Millis) : Recorded :=
  ((twoGang.scan nowMs).runOn respondPads
    ((drainCommands kCommandQueueDepth).runOn respondPads (ticked times offlineTwoGang)).2).2

theorem steps_scanned (times : List Millis) (nowMs : Millis) :
    (controlLoop twoGang).Steps setting starts (.idle (), freshTwoGang)
      (.busy nowMs (.call (.tickIndicator nowMs) .ret), scanned times nowMs) := by
  have hshown : (controlLoop twoGang).Step setting starts (.idle (), freshTwoGang)
      (.idle (), offlineTwoGang) := .interfere (.inr ⟨.offline, rfl⟩)
  have hstart : (controlLoop twoGang).Step setting starts (.idle (), ticked times offlineTwoGang)
      (.busy nowMs (tick twoGang nowMs), ticked times offlineTwoGang) := .start rfl
  refine .head hshown ((steps_ticked times offlineTwoGang).trans (.head hstart ?_))
  refine (Component.steps_runOn_bind answers_respondPads nowMs _ _ _).trans ?_
  exact Component.steps_runOn_bind answers_respondPads nowMs (twoGang.scan nowMs) _ _

/-- Both pads are held for a second and released again. -/
def givenUp : Recorded := scanned [0, 600, 700, 740, 1740, 1800] 1840

theorem bothHeld_givenUp : givenUp.plane.engine.bothHeld = false := by decide

theorem resetActive_givenUp : givenUp.indicator.resetActive = true := by decide

theorem not_emitted_givenUp : ¬ Emitted (givenUp.moments {} 2) := by
  unfold Emitted
  decide

theorem steps_givenUp : (controlLoop twoGang).Steps setting starts (.idle (), freshTwoGang)
    (.busy 1840 (.call (.tickIndicator 1840) .ret), givenUp) := steps_scanned _ _

theorem reset_leaves_no_trace_iff_witness : givenUp.Undisturbed ↔
    ¬ (TouchInput.ValidPair {} 2 ∧ LongHold {} (givenUp.moments {} 2)) :=
  reset_leaves_no_trace_iff twoGang mem_kProfiles_twoGang {} _ _ _ steps_givenUp not_emitted_givenUp

/-- The pair is released, the gesture was never completed, and the progress is still shown. -/
theorem reset_leaves_trace : ¬ ∀ (touch : GpioTouchSource), touch.profile ∈ kProfiles →
    ∀ (startMs nowMs : Millis) (resume : Unit → Prog LoopCall LoopAns Unit) (world : Recorded),
      (controlLoop touch).Steps setting starts
        (.idle (), fresh {} touch.profile.channelCount { sink := [] } [] [])
        (.busy startMs (.call (.tickIndicator nowMs) resume), world) →
      world.plane.engine.bothHeld = false →
      ¬ Emitted (world.moments {} touch.profile.channelCount) → world.Undisturbed := by
  intro hall
  have hundisturbed := hall twoGang mem_kProfiles_twoGang _ _ _ _ steps_givenUp bothHeld_givenUp
    not_emitted_givenUp
  exact absurd hundisturbed.1 (by rw [resetActive_givenUp]; decide)

end FeedbackWorld

end LibreSwitch.App
