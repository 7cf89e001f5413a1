import Mathlib.Data.UInt
import Mathlib.Tactic
import LibreSwitch.Library.Machine
import LibreSwitch.Domain.ResetGesture
import LibreSwitch.Net.ReconnectBackoff
import LibreSwitch.Net.OtaHealthConfirm

/-!
# The position of the millisecond counter

Three components are given the time by their callers: `TouchInput`, `ReconnectBackoff` and
`OtaHealthConfirm`. `times_shift` says that none of them shows where the counter stands: a run and
the same run with all its times moved by an offset, modulo the width of the counter, report the
same. Two runs are compared step by step. Their states differ in the time stamps that are in use,
each by the offset; a time stamp that is not in use yet is the same in both.
-/

set_option autoImplicit false
set_option relaxedAutoImplicit false

namespace LibreSwitch.Domain

open LibreSwitch.Library

/-- The same offset on both sides does not show in the difference. -/
theorem TouchInput.elapsed_add (now since offset : Millis) :
    TouchInput.elapsed (now + offset) (since + offset) = TouchInput.elapsed now since :=
  add_sub_add_right_eq_sub now since offset

/-! ### A channel -/

namespace TouchChannel

/-- A channel in two runs that are an offset apart. The time stamp of a channel that was never
pressed is not in use. -/
structure Shifted (offset : Millis) (state state' : TouchChannel) : Prop where
  stable : state'.stable = state.stable
  candidate : state'.candidate = state.candidate
  longFired : state'.longFired = state.longFired
  since : state'.since = state.since + offset ∨
    state.stable = .released ∧ state.candidate = .released

theorem Shifted.step {offset : Millis} {state state' : TouchChannel}
    (hshifted : Shifted offset state state') (config : TouchConfig) (level : TouchLevel)
    (nowMs : Millis) :
    (state.step config level nowMs).2 = (state'.step config level (nowMs + offset)).2 ∧
      Shifted offset (state.step config level nowMs).1
        (state'.step config level (nowMs + offset)).1 := by
  obtain ⟨hstable, hcandidate, hfired, hsince⟩ := hshifted
  unfold TouchChannel.step
  rw [hstable, hcandidate, hfired]
  by_cases hchange : level = state.candidate
  · rw [if_neg (not_not.mpr hchange), if_neg (not_not.mpr hchange)]
    rcases hsince with hsince | ⟨hreleased, hreads⟩
    · rw [hsince, TouchInput.elapsed_add]
      split_ifs
      · exact ⟨rfl, rfl, rfl, rfl, .inl rfl⟩
      · exact ⟨rfl, hstable, hcandidate, hfired, .inl hsince⟩
      · exact ⟨rfl, rfl, rfl, rfl, .inl rfl⟩
      · exact ⟨rfl, hstable, hcandidate, hfired, .inl hsince⟩
    · have hlevel : level = state.stable := hchange.trans (hreads.trans hreleased.symm)
      have hnotPressed : state.stable ≠ .pressed := by simp [hreleased]
      rw [if_pos hlevel, if_pos hlevel, if_neg fun h ↦ hnotPressed h.1,
        if_neg fun h ↦ hnotPressed h.1]
      exact ⟨rfl, hstable, hcandidate, hfired, .inr ⟨hreleased, hreads⟩⟩
  · rw [if_pos hchange, if_pos hchange]
    exact ⟨rfl, rfl, rfl, rfl, .inl rfl⟩

end TouchChannel

/-! ### The gesture -/

namespace Gesture

/-- The gesture in two runs that are an offset apart, behind its first evaluation. -/
structure Shifted (offset : Millis) (state state' : Gesture) : Prop where
  resetActive : state'.resetActive = state.resetActive
  resetFired : state'.resetFired = state.resetFired
  baselineReleased : state'.baselineReleased = state.baselineReleased
  firstPollMs : state'.firstPollMs = state.firstPollMs + offset
  evaluated : state.firstPollMs ≠ kNoTime
  evaluated' : state'.firstPollMs ≠ kNoTime
  inHold : state.resetActive = true → state'.resetStart = state.resetStart + offset ∧
    state'.lastProgress = state.lastProgress + offset

/-- The first evaluation stores its time, unless it is the sentinel. -/
theorem shifted_first {offset nowMs : Millis} (hfirst : nowMs ≠ kNoTime)
    (hfirst' : nowMs + offset ≠ kNoTime) (config : TouchConfig) (held : Bool) :
    (step config {} held nowMs).2 = (step config {} held (nowMs + offset)).2 ∧
      Shifted offset (step config {} held nowMs).1 (step config {} held (nowMs + offset)).1 := by
  rw [step_waits rfl, step_waits rfl]
  refine ⟨rfl, rfl, rfl, ?_, rfl, hfirst, hfirst', fun hactive ↦ absurd hactive (by simp [settle])⟩
  simp [settle]

theorem Shifted.step {offset : Millis} {state state' : Gesture}
    (hshifted : Shifted offset state state') (config : TouchConfig) (held : Bool)
    (nowMs : Millis) :
    (state.step config held nowMs).2 = (state'.step config held (nowMs + offset)).2 ∧
      Shifted offset (state.step config held nowMs).1
        (state'.step config held (nowMs + offset)).1 := by
  obtain ⟨hactive, hfired, hbaseline, hfirst, hevaluated, hevaluated', hinHold⟩ := hshifted
  cases hready : state.baselineReleased with
  | false =>
    rw [hfirst] at hevaluated'
    rw [step_waits hready, step_waits (hbaseline.trans hready)]
    refine ⟨rfl, rfl, rfl, ?_, ?_, ?_, ?_, fun hnow ↦ absurd hnow (by simp [settle])⟩
    · simp only [settle, hfirst, if_neg hevaluated, if_neg hevaluated', TouchInput.elapsed_add]
    · simp only [settle, hfirst, if_neg hevaluated, if_neg hevaluated']
    · simp only [settle, if_neg hevaluated]
      exact hevaluated
    · simp only [settle, hfirst, if_neg hevaluated']
      exact hevaluated'
  | true =>
    have hready' := hbaseline.trans hready
    cases held with
    | false =>
      rw [step_releases hready, step_releases hready']
      exact ⟨rfl, rfl, rfl, hbaseline, hfirst, hevaluated, hevaluated', fun hnow ↦ by cases hnow⟩
    | true =>
      cases hstarted : state.resetActive with
      | false =>
        rw [step_starts hready hstarted, step_starts hready' (hactive.trans hstarted)]
        exact ⟨rfl, rfl, hfired, hbaseline, hfirst, hevaluated, hevaluated', fun _ ↦ ⟨rfl, rfl⟩⟩
      | true =>
        obtain ⟨hstart, hlast⟩ := hinHold hstarted
        rw [step_continues hready hstarted, step_continues hready' (hactive.trans hstarted)]
        have hprogress : state'.progressDue config (nowMs + offset) =
            state.progressDue config nowMs := by
          rw [progressDue, progressDue, hfired, hlast, TouchInput.elapsed_add]
        have hfire : state'.fireDue config (nowMs + offset) = state.fireDue config nowMs := by
          rw [fireDue, fireDue, hfired, hstart, TouchInput.elapsed_add]
        unfold continueHold
        rw [hprogress, hfire, hstart, TouchInput.elapsed_add]
        refine ⟨rfl, hactive, ?_, hbaseline, hfirst, hevaluated, hevaluated', fun _ ↦ ⟨rfl, ?_⟩⟩
        · simp only [hfired]
        · simp only [hlast]
          split_ifs
          · rfl
          · rfl

end Gesture

/-! ### The engine -/

/-- An operation on the engine. -/
inductive TouchOp
  | init (channelCount : ℕ)
  | poll (channel : ℕ) (level : TouchLevel) (nowMs : Millis)
  deriving DecidableEq, Repr

/-- The operation at another time. -/
def TouchOp.shift (offset : Millis) : TouchOp → TouchOp
  | .init channelCount => .init channelCount
  | .poll channel level nowMs => .poll channel level (nowMs + offset)

namespace TouchInput

/-- The engine under its operations, with the answer and the calls of each. -/
def operated : Machine TouchOp (Status × List TouchCall) TouchInput where
  step touch
    | .init channelCount => ((touch.init channelCount).2, (touch.init channelCount).1, [])
    | .poll channel level nowMs => ((touch.poll channel level nowMs).2.1,
        (touch.poll channel level nowMs).1, (touch.poll channel level nowMs).2.2)

/-- A poll of the channel evaluates the gesture. -/
def evaluates (touch : TouchInput) (channel : ℕ) : Bool :=
  touch.initialized && channel < touch.count && touch.resetPairValid

/-- The time of the first poll that evaluates the gesture. -/
def firstEvaluated : TouchInput → List TouchOp → Option Millis
  | _, [] => none
  | touch, .init channelCount :: rest => firstEvaluated (touch.init channelCount).2 rest
  | touch, .poll channel level nowMs :: rest =>
    if touch.evaluates channel then some nowMs
    else firstEvaluated (touch.poll channel level nowMs).2.1 rest

/-- The engine in two runs that are an offset apart. -/
structure Shifted (offset : Millis) (touch touch' : TouchInput) : Prop where
  frame : touch'.frame = touch.frame
  channels : ∀ channel, (touch.channels channel).Shifted offset (touch'.channels channel)

theorem Shifted.init {offset : Millis} {touch touch' : TouchInput}
    (hshifted : Shifted offset touch touch') (channelCount : ℕ) :
    (touch.init channelCount).1 = (touch'.init channelCount).1 ∧
      Shifted offset (touch.init channelCount).2 (touch'.init channelCount).2 := by
  obtain ⟨hframe, hchannels⟩ := hshifted
  have hconfig : touch'.config = touch.config := congrArg Prod.fst hframe
  unfold TouchInput.init
  split_ifs
  · exact ⟨rfl, hframe, hchannels⟩
  · refine ⟨rfl, ?_, fun channel ↦ ?_⟩
    · simp only [TouchInput.frame, hconfig]
    · by_cases hchannel : channel < kMaxChannels
      · simp only [if_pos hchannel]
        exact ⟨rfl, rfl, rfl, .inr ⟨rfl, rfl⟩⟩
      · simp only [if_neg hchannel]
        exact hchannels channel

/-- The debounce step, in two runs that are an offset apart. -/
theorem Shifted.debounce {offset : Millis} {touch touch' : TouchInput}
    (hshifted : Shifted offset touch touch') (channel : ℕ) (level : TouchLevel) (nowMs : Millis) :
    (touch.debounce channel level nowMs).2 = (touch'.debounce channel level (nowMs + offset)).2 ∧
      Shifted offset (touch.debounce channel level nowMs).1
        (touch'.debounce channel level (nowMs + offset)).1 := by
  obtain ⟨hframe, hchannels⟩ := hshifted
  have hconfig : touch'.config = touch.config := congrArg Prod.fst hframe
  obtain ⟨hdebounced, hcalls⟩ := debounce_eq touch channel level nowMs
  obtain ⟨hdebounced', hcalls'⟩ := debounce_eq touch' channel level (nowMs + offset)
  obtain ⟨hevents, hnext⟩ := (hchannels channel).step touch.config level nowMs
  rw [hconfig] at hdebounced' hcalls'
  refine ⟨by rw [hcalls, hcalls', hevents], ?_, fun other ↦ ?_⟩
  · rw [frame_debounce, frame_debounce, hframe]
  · rw [hdebounced, hdebounced']
    by_cases hsame : other = channel
    · rw [hsame, Function.update_self, Function.update_self]
      exact hnext
    · rw [Function.update_of_ne hsame, Function.update_of_ne hsame]
      exact hchannels other

theorem Shifted.bothHeld {offset : Millis} {touch touch' : TouchInput}
    (hshifted : Shifted offset touch touch') : touch'.bothHeld = touch.bothHeld := by
  have hconfig : touch'.config = touch.config := congrArg Prod.fst hshifted.frame
  rw [TouchInput.bothHeld, TouchInput.bothHeld, isStablePressed, isStablePressed, isStablePressed,
    isStablePressed, hconfig, (hshifted.channels _).stable, (hshifted.channels _).stable]

/-- Where two runs that are an offset apart stand before the same operations: the gesture was
evaluated in both, or in neither, and then its first evaluation is not at the sentinel. -/
def Corresponds (offset : Millis) (ops : List TouchOp) (touch touch' : TouchInput) : Prop :=
  Shifted offset touch touch' ∧ (touch.gesture.Shifted offset touch'.gesture ∨
    touch.gesture = {} ∧ touch'.gesture = {} ∧ firstEvaluated touch ops ≠ some kNoTime ∧
      firstEvaluated touch' (ops.map (TouchOp.shift offset)) ≠ some kNoTime)

/-- The gesture step, in two runs that are an offset apart. -/
theorem Shifted.updateResetGesture {offset : Millis} {touch touch' : TouchInput}
    (hshifted : Shifted offset touch touch') {nowMs : Millis}
    (hgesture : touch.gesture.Shifted offset touch'.gesture ∨
      touch.gesture = {} ∧ touch'.gesture = {} ∧ nowMs ≠ kNoTime ∧ nowMs + offset ≠ kNoTime)
    (hpair : touch.resetPairValid = true) :
    (touch.updateResetGesture nowMs).2 = (touch'.updateResetGesture (nowMs + offset)).2 ∧
      (touch.updateResetGesture nowMs).1.gesture.Shifted offset
        (touch'.updateResetGesture (nowMs + offset)).1.gesture := by
  have hconfig : touch'.config = touch.config := congrArg Prod.fst hshifted.frame
  have hpair' : touch'.resetPairValid = true :=
    (congrArg (fun frame ↦ frame.2.2.2) hshifted.frame).trans hpair
  obtain ⟨hnext, hcalls⟩ := updateResetGesture_eq hpair nowMs
  obtain ⟨hnext', hcalls'⟩ := updateResetGesture_eq hpair' (nowMs + offset)
  rw [hconfig, hshifted.bothHeld] at hnext' hcalls'
  rw [hnext, hnext', hcalls, hcalls']
  rcases hgesture with hgesture | ⟨hfresh, hfresh', hfirst, hfirst'⟩
  · exact hgesture.step touch.config touch.bothHeld nowMs
  · rw [hfresh, hfresh']
    exact Gesture.shifted_first hfirst hfirst' touch.config touch.bothHeld

/-- A poll the engine does not take. -/
theorem poll_of_refused {touch : TouchInput} {channel : ℕ}
    (hrefused : ¬ (touch.initialized = true ∧ channel < touch.count)) (level : TouchLevel)
    (nowMs : Millis) : touch.poll channel level nowMs =
      (.fail (if touch.initialized then .channelNotPresent else .notInitialized), touch, []) := by
  unfold TouchInput.poll
  cases hinitialized : touch.initialized with
  | false => rfl
  | true =>
    have habsent : channel ≥ touch.count := Nat.le_of_not_lt fun hpresent ↦
      hrefused ⟨hinitialized, hpresent⟩
    rw [if_neg (by decide), if_pos habsent]
    rfl

/-- One operation, in two runs that are an offset apart. -/
theorem Corresponds.step {offset : Millis} {op : TouchOp} {rest : List TouchOp}
    {touch touch' : TouchInput} (hruns : Corresponds offset (op :: rest) touch touch') :
    (operated.step touch op).2 = (operated.step touch' (op.shift offset)).2 ∧
      Corresponds offset rest (operated.step touch op).1
        (operated.step touch' (op.shift offset)).1 := by
  obtain ⟨hshifted, hgesture⟩ := hruns
  cases op with
  | init channelCount =>
    obtain ⟨hstatus, hnext⟩ := hshifted.init channelCount
    have hkeeps (touch : TouchInput) : (touch.init channelCount).2.gesture = touch.gesture := by
      unfold TouchInput.init
      split_ifs <;> rfl
    refine ⟨Prod.ext hstatus rfl, hnext, ?_⟩
    simp only [operated, TouchOp.shift, hkeeps]
    exact hgesture
  | poll channel level nowMs =>
    have hframe := hshifted.frame
    simp only [frame, Prod.mk.injEq] at hframe
    obtain ⟨hconfig, hcount, hinitialized, hpairs⟩ := hframe
    rw [List.map_cons, TouchOp.shift, firstEvaluated, firstEvaluated, evaluates, evaluates,
      hinitialized, hcount, hpairs] at hgesture
    by_cases htaken : touch.initialized = true ∧ channel < touch.count
    · obtain ⟨hready, hpresent⟩ := htaken
      obtain ⟨hcalls, hdebounced⟩ := hshifted.debounce channel level nowMs
      have hstep := poll_of_present hready hpresent level nowMs
      have hstep' := poll_of_present (hinitialized.trans hready) (hcount ▸ hpresent) level
        (nowMs + offset)
      have hafter : Shifted offset (touch.poll channel level nowMs).2.1
          (touch'.poll channel level (nowMs + offset)).2.1 := by
        refine ⟨by rw [frame_poll, frame_poll, hshifted.frame], ?_⟩
        rw [hstep, hstep', channels_updateResetGesture, channels_updateResetGesture]
        exact hdebounced.channels
      have hpair := resetPairValid_debounce touch channel level nowMs
      have hpair' := (resetPairValid_debounce touch' channel level (nowMs + offset)).trans hpairs
      rw [hready, decide_eq_true hpresent, Bool.true_and, Bool.true_and] at hgesture
      cases hvalid : touch.resetPairValid with
      | true =>
        rw [hvalid, if_pos rfl, if_pos rfl, Ne, Ne, Option.some_inj, Option.some_inj] at hgesture
        rw [← gesture_debounce touch channel level nowMs,
          ← gesture_debounce touch' channel level (nowMs + offset)] at hgesture
        obtain ⟨hgestureCalls, hnext⟩ :=
          hdebounced.updateResetGesture hgesture (hpair.trans hvalid)
        refine ⟨?_, hafter, .inl ?_⟩
        · simp only [operated, TouchOp.shift, hstep, hstep', hcalls, hgestureCalls]
        · simp only [operated, TouchOp.shift, hstep, hstep']
          exact hnext
      | false =>
        have hidle := updateResetGesture_of_not_valid (hpair.trans hvalid) nowMs
        have hidle' := updateResetGesture_of_not_valid (hpair'.trans hvalid) (nowMs + offset)
        rw [hvalid, if_neg (by decide), if_neg (by decide)] at hgesture
        refine ⟨?_, hafter, ?_⟩
        · simp only [operated, TouchOp.shift, hstep, hstep', hcalls, hidle, hidle']
        · rw [← gesture_debounce touch channel level nowMs,
            ← gesture_debounce touch' channel level (nowMs + offset)] at hgesture
          simp only [operated, TouchOp.shift, hstep, hstep', hidle, hidle'] at hgesture ⊢
          exact hgesture
    · have htaken' : ¬ (touch'.initialized = true ∧ channel < touch'.count) := by
        rwa [hinitialized, hcount]
      have hnot : (touch.initialized && decide (channel < touch.count) && touch.resetPairValid) =
          false := by
        rw [← Bool.not_eq_true]
        simp only [Bool.and_eq_true, decide_eq_true_eq]
        exact fun hall ↦ htaken hall.1
      rw [hnot, if_neg (by decide), if_neg (by decide), poll_of_refused htaken,
        poll_of_refused htaken'] at hgesture
      simp only [operated, TouchOp.shift, poll_of_refused htaken, poll_of_refused htaken',
        hinitialized]
      exact ⟨trivial, hshifted, hgesture⟩

end TouchInput

end LibreSwitch.Domain

namespace LibreSwitch.Net

open LibreSwitch.Library LibreSwitch.Domain

/-! ### The backoff -/

/-- An operation on the backoff. -/
inductive BackoffOp
  | onFailure (now : Millis) (jitterSeed : UInt32)
  | onSuccess
  | ready (now : Millis)
  deriving DecidableEq, Repr

/-- The operation at another time. -/
def BackoffOp.shift (offset : Millis) : BackoffOp → BackoffOp
  | .onFailure now jitterSeed => .onFailure (now + offset) jitterSeed
  | .onSuccess => .onSuccess
  | .ready now => .ready (now + offset)

namespace ReconnectBackoff

/-- The backoff under its operations, with the answers of `ready`. -/
def operated : Machine BackoffOp (Option Bool) ReconnectBackoff where
  step backoff
    | .onFailure now jitterSeed => (backoff.onFailure now jitterSeed, none)
    | .onSuccess => (backoff.onSuccess, none)
    | .ready now => (backoff, some (backoff.ready now))

/-- The backoff in two runs that are an offset apart. -/
def Shifted (offset : Millis) (backoff backoff' : ReconnectBackoff) : Prop :=
  ∃ nextAttempt, backoff' = { backoff with nextAttempt := nextAttempt } ∧
    (backoff.armed = true → nextAttempt = backoff.nextAttempt + offset)

theorem timeReached_add (now target offset : Millis) :
    timeReached (now + offset) (target + offset) = timeReached now target := by
  rw [timeReached, add_sub_add_right_eq_sub, ← timeReached]

theorem Shifted.step {offset : Millis} {backoff backoff' : ReconnectBackoff}
    (hshifted : Shifted offset backoff backoff') (op : BackoffOp) :
    (operated.step backoff op).2 = (operated.step backoff' (op.shift offset)).2 ∧
      Shifted offset (operated.step backoff op).1 (operated.step backoff' (op.shift offset)).1 := by
  obtain ⟨nextAttempt, rfl, harmed⟩ := hshifted
  cases op with
  | onFailure now jitterSeed => exact ⟨rfl, _, rfl, fun _ ↦ add_right_comm now offset _⟩
  | onSuccess => exact ⟨rfl, _, rfl, fun hnow ↦ by cases hnow⟩
  | ready now =>
    refine ⟨?_, nextAttempt, rfl, harmed⟩
    cases hwaiting : backoff.armed with
    | false => simp [operated, BackoffOp.shift, ready, hwaiting]
    | true => simp [operated, BackoffOp.shift, ready, hwaiting, harmed hwaiting, timeReached_add]

end ReconnectBackoff

/-! ### The health window -/

/-- An operation on the health window. -/
inductive HealthOp
  | onBoot (now : Millis)
  | markLocalControlOk
  | markNetworkUp
  | markExplicitConfirm
  | evaluate (now : Millis)
  deriving DecidableEq, Repr

/-- The operation at another time. -/
def HealthOp.shift (offset : Millis) : HealthOp → HealthOp
  | .onBoot now => .onBoot (now + offset)
  | .markLocalControlOk => .markLocalControlOk
  | .markNetworkUp => .markNetworkUp
  | .markExplicitConfirm => .markExplicitConfirm
  | .evaluate now => .evaluate (now + offset)

namespace OtaHealthConfirm

/-- The health window under its operations, with the outcomes of `evaluate`. -/
def operated : Machine HealthOp (Option HealthOutcome) OtaHealthConfirm where
  step health
    | .onBoot now => (health.onBoot now, none)
    | .markLocalControlOk => (health.markLocalControlOk, none)
    | .markNetworkUp => (health.markNetworkUp, none)
    | .markExplicitConfirm => (health.markExplicitConfirm, none)
    | .evaluate now => (health, some (health.evaluate now))

/-- The health window in two runs that are an offset apart. -/
def Shifted (offset : Millis) (health health' : OtaHealthConfirm) : Prop :=
  ∃ bootAt, health' = { health with bootAt := bootAt } ∧
    (health.started = true → bootAt = health.bootAt + offset)

theorem Shifted.step {offset : Millis} {health health' : OtaHealthConfirm}
    (hshifted : Shifted offset health health') (op : HealthOp) :
    (operated.step health op).2 = (operated.step health' (op.shift offset)).2 ∧
      Shifted offset (operated.step health op).1 (operated.step health' (op.shift offset)).1 := by
  obtain ⟨bootAt, rfl, hstarted⟩ := hshifted
  cases op with
  | onBoot now => exact ⟨rfl, _, rfl, fun _ ↦ rfl⟩
  | markLocalControlOk => exact ⟨rfl, bootAt, rfl, hstarted⟩
  | markNetworkUp => exact ⟨rfl, bootAt, rfl, hstarted⟩
  | markExplicitConfirm => exact ⟨rfl, bootAt, rfl, hstarted⟩
  | evaluate now =>
    refine ⟨?_, bootAt, rfl, hstarted⟩
    cases hrunning : health.started with
    | false => simp [operated, HealthOp.shift, evaluate, hrunning]
    | true =>
      simp [operated, HealthOp.shift, evaluate, hrunning, elapsed, hstarted hrunning,
        allCriteriaMet]

end OtaHealthConfirm

/-- No component shows where the millisecond counter stands: a run and the same run with all times
moved by an offset report the same. -/
theorem times_shift (offset : Millis) :
    (∀ (config : TouchConfig) (ops : List TouchOp),
      TouchInput.firstEvaluated { config := config } ops ≠ some kNoTime →
      TouchInput.firstEvaluated { config := config } (ops.map (TouchOp.shift offset)) ≠
        some kNoTime →
      TouchInput.operated.reports { config := config } ops =
        TouchInput.operated.reports { config := config } (ops.map (TouchOp.shift offset))) ∧
    (∀ (base max : Millis) (jitterPct : UInt8) (ops : List BackoffOp),
      ReconnectBackoff.operated.reports (ReconnectBackoff.new base max jitterPct) ops =
        ReconnectBackoff.operated.reports (ReconnectBackoff.new base max jitterPct)
          (ops.map (BackoffOp.shift offset))) ∧
    ∀ (windowMs : Millis) (ops : List HealthOp),
      OtaHealthConfirm.operated.reports { windowMs := windowMs } ops =
        OtaHealthConfirm.operated.reports { windowMs := windowMs }
          (ops.map (HealthOp.shift offset)) := by
  refine ⟨fun config ops hfirst hfirst' ↦ ?_, fun base max jitterPct ops ↦ ?_,
    fun windowMs ops ↦ ?_⟩
  · refine Machine.reports_eq_of_simulates (TouchInput.Corresponds offset) (TouchOp.shift offset)
      (fun op rest touch touch' hruns ↦ hruns.step) ⟨⟨rfl, fun channel ↦ ?_⟩, .inr ?_⟩
    · exact ⟨rfl, rfl, rfl, .inr ⟨rfl, rfl⟩⟩
    · exact ⟨rfl, rfl, hfirst, hfirst'⟩
  · exact Machine.reports_eq_of_simulates (fun _ ↦ ReconnectBackoff.Shifted offset)
      (BackoffOp.shift offset) (fun op rest backoff backoff' hshifted ↦ hshifted.step op)
      ⟨0, rfl, fun harmed ↦ by cases harmed⟩
  · exact Machine.reports_eq_of_simulates (fun _ ↦ OtaHealthConfirm.Shifted offset)
      (HealthOp.shift offset) (fun op rest health health' hshifted ↦ hshifted.step op)
      ⟨0, rfl, fun hstarted ↦ by cases hstarted⟩

/-- A hold of the reset pair, from three seconds before the counter wraps on. -/
def holdAcrossWrap : List TouchOp :=
  [.init 2, .poll 0 .released 4294964296, .poll 1 .released 4294964896, .poll 0 .pressed 4294965000,
    .poll 1 .pressed 4294965000, .poll 0 .pressed 4294965040, .poll 1 .pressed 4294965040,
    .poll 0 .pressed 7744, .poll 1 .pressed 7760]

theorem times_shift_witness : TouchInput.operated.reports { config := {} } holdAcrossWrap =
    TouchInput.operated.reports { config := {} } (holdAcrossWrap.map (TouchOp.shift 3000)) :=
  (times_shift 3000).1 {} holdAcrossWrap (by decide) (by decide)

end LibreSwitch.Net
