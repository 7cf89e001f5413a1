import Mathlib.Tactic
import LibreSwitch.Domain.RelayController

/-!
# The touch engine

`TouchInput` of `domain/touch_input.h`, with the value types of `touch_types.h`. The engine is fed
one raw level of one channel at a time with the time it was read at. It debounces the level,
detects a long press, and detects the two-channel factory-reset gesture.

The engine reports through the port `TouchSink`. Every call on the port is the last thing the
engine does with the state it concerns and nothing behind the port calls back into the engine, so
an operation here returns the list of its calls (`TouchCall`), in order, for the caller to make.
Milliseconds are the unsigned 32-bit counter of the source, and `elapsed` its wrapping subtraction.
-/

set_option autoImplicit false
set_option relaxedAutoImplicit false

namespace LibreSwitch.Domain

/-- `Millis` of `touch_types.h`: monotonic milliseconds since boot, modulo `2 ^ 32`. -/
abbrev Millis := UInt32

/-- `TouchLevel` of `touch_types.h`. -/
inductive TouchLevel
  | released
  | pressed
  deriving DecidableEq, Repr

/-- `TouchEvent` of `touch_types.h`. -/
inductive TouchEvent
  | none
  | pressed
  | released
  | longPress
  deriving DecidableEq, Repr

/-- A call on the port `TouchSink`. -/
inductive TouchCall
  | touchEvent (channel : ℕ) (event : TouchEvent)
  | factoryResetGesture
  | factoryResetProgress (elapsedMs totalMs : Millis)
  deriving DecidableEq, Repr

/-- `TouchConfig`, with the source's defaults. -/
structure TouchConfig where
  debounceMs : Millis := 30
  longPressMs : Millis := 800
  factoryHoldMs : Millis := 10000
  progressEveryMs : Millis := 1000
  resetChannelA : ℕ := 0
  resetChannelB : ℕ := 1
  deriving DecidableEq, Repr

/-- `TouchInput::Channel`: the debounce state of one channel. -/
structure TouchChannel where
  stable : TouchLevel := .released
  candidate : TouchLevel := .released
  since : Millis := 0
  longFired : Bool := false
  deriving DecidableEq, Repr

/-- `kNoTime`. -/
def kNoTime : Millis := 0xFFFFFFFF

/-- `kResetArmSettleMs`. -/
def kResetArmSettleMs : Millis := 500

/-- `TouchInput`. -/
structure TouchInput where
  config : TouchConfig
  channels : ℕ → TouchChannel := fun _ ↦ {}
  count : ℕ := 0
  initialized : Bool := false
  resetPairValid : Bool := false
  resetActive : Bool := false
  resetFired : Bool := false
  baselineReleased : Bool := false
  firstPollMs : Millis := kNoTime
  resetStart : Millis := 0
  lastProgress : Millis := 0

namespace TouchInput

def elapsed (now since : Millis) : Millis := now - since

def init (touch : TouchInput) (channelCount : ℕ) : Status × TouchInput :=
  if channelCount = 0 ∨ channelCount > kMaxChannels then (.fail .invalidArgument, touch)
  else
    (.success, { touch with
      count := channelCount
      resetPairValid := touch.config.resetChannelA < channelCount &&
        touch.config.resetChannelB < channelCount &&
        touch.config.resetChannelA != touch.config.resetChannelB
      channels := fun channel ↦ if channel < kMaxChannels then {} else touch.channels channel
      initialized := true })

def isPressed (touch : TouchInput) (channel : ℕ) : Bool :=
  channel < touch.count && (touch.channels channel).stable = .pressed

def isStablePressed (touch : TouchInput) (channel : ℕ) : Bool :=
  (touch.channels channel).stable = .pressed

def setChannel (touch : TouchInput) (channel : ℕ) (value : TouchChannel) : TouchInput :=
  { touch with channels := Function.update touch.channels channel value }

def commitTransition (touch : TouchInput) (channel : ℕ) (level : TouchLevel) (nowMs : Millis) :
    TouchInput × List TouchCall :=
  (touch.setChannel channel
    { touch.channels channel with stable := level, longFired := false, since := nowMs },
    [.touchEvent channel (if level = .pressed then .pressed else .released)])

def maybeLongPress (touch : TouchInput) (channel : ℕ) (nowMs : Millis) :
    TouchInput × List TouchCall :=
  if (touch.channels channel).stable = .pressed ∧ (touch.channels channel).longFired = false ∧
      elapsed nowMs (touch.channels channel).since ≥ touch.config.longPressMs then
    (touch.setChannel channel { touch.channels channel with longFired := true },
      [.touchEvent channel .longPress])
  else (touch, [])

def debounce (touch : TouchInput) (channel : ℕ) (level : TouchLevel) (nowMs : Millis) :
    TouchInput × List TouchCall :=
  if level ≠ (touch.channels channel).candidate then
    (touch.setChannel channel { touch.channels channel with candidate := level, since := nowMs },
      [])
  else if level = (touch.channels channel).stable then touch.maybeLongPress channel nowMs
  else if elapsed nowMs (touch.channels channel).since ≥ touch.config.debounceMs then
    touch.commitTransition channel level nowMs
  else (touch, [])

def emitProgressIfDue (touch : TouchInput) (nowMs held : Millis) : TouchInput × List TouchCall :=
  if touch.resetFired then (touch, [])
  else if elapsed nowMs touch.lastProgress ≥ touch.config.progressEveryMs then
    ({ touch with lastProgress := nowMs },
      [.factoryResetProgress held touch.config.factoryHoldMs])
  else (touch, [])

/-- The end of `updateResetGesture`: the hold completes the gesture, once. -/
def fireIfHeld (touch : TouchInput) (held : Millis) : TouchInput × List TouchCall :=
  if held ≥ touch.config.factoryHoldMs ∧ touch.resetFired = false then
    ({ touch with resetFired := true }, [.factoryResetGesture])
  else (touch, [])

/-- The hold of a pair that is already held: report progress if due, then complete if due. -/
def continueHold (touch : TouchInput) (nowMs held : Millis) : TouchInput × List TouchCall :=
  (((touch.emitProgressIfDue nowMs held).1.fireIfHeld held).1,
    (touch.emitProgressIfDue nowMs held).2 ++
      ((touch.emitProgressIfDue nowMs held).1.fireIfHeld held).2)

/-- The branch of `updateResetGesture` before a clean released baseline was seen. -/
def settle (touch : TouchInput) (nowMs : Millis) (bothHeld : Bool) : TouchInput :=
  let firstPollMs := if touch.firstPollMs = kNoTime then nowMs else touch.firstPollMs
  { touch with
    firstPollMs := firstPollMs
    baselineReleased := elapsed nowMs firstPollMs ≥ kResetArmSettleMs && !bothHeld
    resetActive := false
    resetFired := false }

def bothHeld (touch : TouchInput) : Bool :=
  touch.isStablePressed touch.config.resetChannelA &&
    touch.isStablePressed touch.config.resetChannelB

def updateResetGesture (touch : TouchInput) (nowMs : Millis) : TouchInput × List TouchCall :=
  if !touch.resetPairValid then (touch, [])
  else if !touch.baselineReleased then (touch.settle nowMs touch.bothHeld, [])
  else if !touch.bothHeld then ({ touch with resetActive := false, resetFired := false }, [])
  else if !touch.resetActive then
    ({ touch with resetActive := true, resetStart := nowMs, lastProgress := nowMs }, [])
  else touch.continueHold nowMs (elapsed nowMs touch.resetStart)

/-- `poll`: one raw level of one channel, with the calls it makes on the sink. -/
def poll (touch : TouchInput) (channel : ℕ) (level : TouchLevel) (nowMs : Millis) :
    Status × TouchInput × List TouchCall :=
  if !touch.initialized then (.fail .notInitialized, touch, [])
  else if channel ≥ touch.count then (.fail .channelNotPresent, touch, [])
  else
    (.success, ((touch.debounce channel level nowMs).1.updateResetGesture nowMs).1,
      (touch.debounce channel level nowMs).2 ++
        ((touch.debounce channel level nowMs).1.updateResetGesture nowMs).2)

/-! ### What a poll can report -/

@[simp] theorem count_setChannel (touch : TouchInput) (channel : ℕ) (value : TouchChannel) :
    (touch.setChannel channel value).count = touch.count := rfl

/-- The debounce step reports on the polled channel only. -/
theorem debounce_calls (touch : TouchInput) (channel : ℕ) (level : TouchLevel) (nowMs : Millis) :
    ∀ call ∈ (touch.debounce channel level nowMs).2,
      ∃ event, call = .touchEvent channel event := by
  intro call hcall
  unfold debounce at hcall
  split_ifs at hcall
  · simp at hcall
  · unfold maybeLongPress at hcall
    split_ifs at hcall
    · exact ⟨_, List.mem_singleton.mp hcall⟩
    · simp at hcall
  · exact ⟨_, List.mem_singleton.mp hcall⟩
  · simp at hcall

/-- The hold of the reset pair reports no touch event. -/
theorem continueHold_calls (touch : TouchInput) (nowMs held : Millis) (channel : ℕ)
    (event : TouchEvent) :
    TouchCall.touchEvent channel event ∉ (touch.continueHold nowMs held).2 := by
  unfold continueHold emitProgressIfDue fireIfHeld
  split_ifs <;> simp

/-- The gesture step reports no touch event. -/
theorem updateResetGesture_calls (touch : TouchInput) (nowMs : Millis) (channel : ℕ)
    (event : TouchEvent) :
    TouchCall.touchEvent channel event ∉ (touch.updateResetGesture nowMs).2 := by
  unfold updateResetGesture
  split_ifs
  · simp
  · simp
  · simp
  · simp
  · exact continueHold_calls touch _ _ channel event

/-- A poll reports touch events on the polled channel only, and only on a present channel. -/
theorem poll_touchEvent {touch : TouchInput} {polled channel : ℕ} {level : TouchLevel}
    {nowMs : Millis} {event : TouchEvent}
    (hcall : TouchCall.touchEvent channel event ∈ (touch.poll polled level nowMs).2.2) :
    channel = polled ∧ channel < touch.count := by
  unfold poll at hcall
  split_ifs at hcall with hinitialized habsent
  · simp at hcall
  · simp at hcall
  · rcases List.mem_append.mp hcall with hdebounce | hgesture
    · obtain ⟨event', heq⟩ := debounce_calls _ _ _ _ _ hdebounce
      cases heq
      exact ⟨rfl, by omega⟩
    · exact absurd hgesture (updateResetGesture_calls _ _ _ _)

/-- The engine reports a press on the polled channel only, and only when the poll says pressed. -/
theorem poll_pressed {touch : TouchInput} {polled channel : ℕ} {level : TouchLevel}
    {nowMs : Millis}
    (hcall : TouchCall.touchEvent channel .pressed ∈ (touch.poll polled level nowMs).2.2) :
    channel = polled ∧ level = .pressed := by
  refine ⟨(poll_touchEvent hcall).1, ?_⟩
  unfold poll at hcall
  split_ifs at hcall with huninitialized habsent
  · cases hcall
  · cases hcall
  · rcases List.mem_append.mp hcall with hdebounce | hgesture
    · unfold debounce maybeLongPress commitTransition at hdebounce
      split_ifs at hdebounce with hcandidate hstable hlong hdue hlevel
      · cases hdebounce
      · cases List.mem_singleton.mp hdebounce
      · cases hdebounce
      · exact hlevel
      · cases List.mem_singleton.mp hdebounce
      · cases hdebounce
    · exact absurd hgesture (updateResetGesture_calls _ _ _ _)

/-! ### What a poll leaves alone -/

@[simp] theorem count_debounce (touch : TouchInput) (channel : ℕ) (level : TouchLevel)
    (nowMs : Millis) : (touch.debounce channel level nowMs).1.count = touch.count := by
  unfold debounce maybeLongPress
  split_ifs <;> rfl

/-- The engines differ in what belongs to the reset gesture alone. -/
structure SameButGesture (touch touch' : TouchInput) : Prop where
  config_eq : touch'.config = touch.config
  channels_eq : touch'.channels = touch.channels
  count_eq : touch'.count = touch.count
  initialized_eq : touch'.initialized = touch.initialized
  resetPairValid_eq : touch'.resetPairValid = touch.resetPairValid

theorem SameButGesture.trans {touch touch' touch'' : TouchInput}
    (hfirst : SameButGesture touch touch') (hsecond : SameButGesture touch' touch'') :
    SameButGesture touch touch'' where
  config_eq := hsecond.config_eq.trans hfirst.config_eq
  channels_eq := hsecond.channels_eq.trans hfirst.channels_eq
  count_eq := hsecond.count_eq.trans hfirst.count_eq
  initialized_eq := hsecond.initialized_eq.trans hfirst.initialized_eq
  resetPairValid_eq := hsecond.resetPairValid_eq.trans hfirst.resetPairValid_eq

theorem sameButGesture_continueHold (touch : TouchInput) (nowMs held : Millis) :
    SameButGesture touch (touch.continueHold nowMs held).1 := by
  have hprogress : SameButGesture touch (touch.emitProgressIfDue nowMs held).1 := by
    unfold emitProgressIfDue
    split_ifs <;> exact ⟨rfl, rfl, rfl, rfl, rfl⟩
  refine hprogress.trans ?_
  unfold continueHold fireIfHeld
  split_ifs <;> exact ⟨rfl, rfl, rfl, rfl, rfl⟩

theorem sameButGesture_updateResetGesture (touch : TouchInput) (nowMs : Millis) :
    SameButGesture touch (touch.updateResetGesture nowMs).1 := by
  unfold updateResetGesture
  split_ifs
  · exact ⟨rfl, rfl, rfl, rfl, rfl⟩
  · exact ⟨rfl, rfl, rfl, rfl, rfl⟩
  · exact ⟨rfl, rfl, rfl, rfl, rfl⟩
  · exact ⟨rfl, rfl, rfl, rfl, rfl⟩
  · exact sameButGesture_continueHold touch nowMs _

@[simp] theorem count_updateResetGesture (touch : TouchInput) (nowMs : Millis) :
    (touch.updateResetGesture nowMs).1.count = touch.count :=
  (sameButGesture_updateResetGesture touch nowMs).count_eq

/-- A poll does not change the number of channels. -/
@[simp] theorem count_poll (touch : TouchInput) (channel : ℕ) (level : TouchLevel)
    (nowMs : Millis) : (touch.poll channel level nowMs).2.1.count = touch.count := by
  unfold poll
  split_ifs <;> simp

/-- What `init` sets up and no poll changes. -/
def frame (touch : TouchInput) : TouchConfig × ℕ × Bool × Bool :=
  (touch.config, touch.count, touch.initialized, touch.resetPairValid)

@[simp] theorem frame_debounce (touch : TouchInput) (channel : ℕ) (level : TouchLevel)
    (nowMs : Millis) : (touch.debounce channel level nowMs).1.frame = touch.frame := by
  unfold debounce maybeLongPress
  split_ifs <;> rfl

theorem resetPairValid_debounce (touch : TouchInput) (channel : ℕ) (level : TouchLevel)
    (nowMs : Millis) :
    (touch.debounce channel level nowMs).1.resetPairValid = touch.resetPairValid :=
  congrArg (fun frame ↦ frame.2.2.2) (frame_debounce touch channel level nowMs)

/-- Without a valid pair there is nothing to evaluate. -/
theorem updateResetGesture_of_not_valid {touch : TouchInput} (hpair : touch.resetPairValid = false)
    (nowMs : Millis) : touch.updateResetGesture nowMs = (touch, []) := by
  rw [updateResetGesture, hpair]
  rfl

@[simp] theorem frame_updateResetGesture (touch : TouchInput) (nowMs : Millis) :
    (touch.updateResetGesture nowMs).1.frame = touch.frame := by
  have hsame := sameButGesture_updateResetGesture touch nowMs
  rw [frame, hsame.config_eq, hsame.count_eq, hsame.initialized_eq, hsame.resetPairValid_eq, frame]

@[simp] theorem channels_updateResetGesture (touch : TouchInput) (nowMs : Millis) :
    (touch.updateResetGesture nowMs).1.channels = touch.channels :=
  (sameButGesture_updateResetGesture touch nowMs).channels_eq

@[simp] theorem frame_poll (touch : TouchInput) (channel : ℕ) (level : TouchLevel)
    (nowMs : Millis) : (touch.poll channel level nowMs).2.1.frame = touch.frame := by
  unfold poll
  split_ifs
  · rfl
  · rfl
  · rw [frame_updateResetGesture, frame_debounce]

/-- A poll of a present channel is the debounce step, then the gesture step. -/
theorem poll_of_present {touch : TouchInput} (hinitialized : touch.initialized = true)
    {channel : ℕ} (hpresent : channel < touch.count) (level : TouchLevel) (nowMs : Millis) :
    touch.poll channel level nowMs =
      (.success, ((touch.debounce channel level nowMs).1.updateResetGesture nowMs).1,
        (touch.debounce channel level nowMs).2 ++
          ((touch.debounce channel level nowMs).1.updateResetGesture nowMs).2) := by
  unfold poll
  rw [hinitialized, if_neg (by decide), if_neg (by omega)]

/-! ### The counter at true times -/

/-- The counter's difference is the true one, modulo the width of the counter. -/
theorem toNat_elapsed {since now : ℕ} (hle : since ≤ now) :
    (elapsed (UInt32.ofNat now) (UInt32.ofNat since)).toNat = (now - since) % 2 ^ 32 := by
  rw [elapsed, ← UInt32.ofNat_sub hle, UInt32.toNat_ofNat']

/-- Within one turn of the counter a threshold is reached when it is in true time. -/
theorem le_elapsed_iff {since now : ℕ} {threshold : Millis} (hle : since ≤ now)
    (hturn : now < since + 2 ^ 32) :
    threshold ≤ elapsed (UInt32.ofNat now) (UInt32.ofNat since) ↔
      since + threshold.toNat ≤ now := by
  rw [UInt32.le_iff_toNat_le, toNat_elapsed hle, Nat.mod_eq_of_lt (by omega)]
  omega

/-- What the counter shows of the time that has passed is never more than that. -/
theorem add_le_of_le_elapsed {since now : ℕ} {threshold : Millis} (hle : since ≤ now)
    (helapsed : threshold ≤ elapsed (UInt32.ofNat now) (UInt32.ofNat since)) :
    since + threshold.toNat ≤ now := by
  rw [UInt32.le_iff_toNat_le, toNat_elapsed hle] at helapsed
  have hmod := Nat.mod_le (now - since) (2 ^ 32)
  omega

@[simp] theorem elapsed_self (now : Millis) : elapsed now now = 0 := UInt32.sub_self now

end TouchInput

end LibreSwitch.Domain
