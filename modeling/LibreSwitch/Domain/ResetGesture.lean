import Mathlib.Tactic
import Mathlib.Data.List.DropRight
import LibreSwitch.Library.Machine
import LibreSwitch.Domain.TouchDebounce

/-!
# The factory-reset gesture

What the gesture step of `TouchInput` makes of a run of polls. The step sees the channels only
through one flag, whether both channels of the pair are stably pressed, so that the gesture is a
state of its own (`Gesture`), evaluated once a poll (`Gesture.step`).

A `Moment` is one evaluation, with the calls made at it. `Tracks` says where the gesture stands
behind any moments, in the counter of the source, and `gesture_spec` what that means in true time.
-/

set_option autoImplicit false
set_option relaxedAutoImplicit false

namespace LibreSwitch.Domain

open LibreSwitch.Library

/-! ### The state of the gesture -/

/-- The reset-gesture state of `TouchInput`. -/
@[ext]
structure Gesture where
  resetActive : Bool := false
  resetFired : Bool := false
  baselineReleased : Bool := false
  firstPollMs : Millis := kNoTime
  resetStart : Millis := 0
  lastProgress : Millis := 0
  deriving DecidableEq, Repr

/-- A call that belongs to the gesture. -/
def TouchCall.ofGesture : TouchCall → Bool
  | .touchEvent _ _ => false
  | .factoryResetGesture => true
  | .factoryResetProgress _ _ => true

namespace Gesture

/-- The branch before a clean released baseline was seen. -/
def settle (state : Gesture) (held : Bool) (nowMs : Millis) : Gesture :=
  let firstPollMs := if state.firstPollMs = kNoTime then nowMs else state.firstPollMs
  { state with
    firstPollMs := firstPollMs
    baselineReleased := TouchInput.elapsed nowMs firstPollMs ≥ kResetArmSettleMs && !held
    resetActive := false
    resetFired := false }

/-- Progress is due. -/
def progressDue (config : TouchConfig) (state : Gesture) (nowMs : Millis) : Bool :=
  !state.resetFired && TouchInput.elapsed nowMs state.lastProgress ≥ config.progressEveryMs

/-- The gesture is complete, for the first time in its hold. -/
def fireDue (config : TouchConfig) (state : Gesture) (nowMs : Millis) : Bool :=
  TouchInput.elapsed nowMs state.resetStart ≥ config.factoryHoldMs && !state.resetFired

/-- The hold of a pair that is already held. -/
def continueHold (config : TouchConfig) (state : Gesture) (nowMs : Millis) :
    Gesture × List TouchCall :=
  ({ state with
      lastProgress := if state.progressDue config nowMs then nowMs else state.lastProgress
      resetFired := state.resetFired || state.fireDue config nowMs },
    (if state.progressDue config nowMs then
      [.factoryResetProgress (TouchInput.elapsed nowMs state.resetStart) config.factoryHoldMs]
    else []) ++
      if state.fireDue config nowMs then [.factoryResetGesture] else [])

/-- One evaluation of the gesture, given whether both channels of the pair are stably pressed. -/
def step (config : TouchConfig) (state : Gesture) (held : Bool) (nowMs : Millis) :
    Gesture × List TouchCall :=
  if !state.baselineReleased then (state.settle held nowMs, [])
  else if !held then ({ state with resetActive := false, resetFired := false }, [])
  else if !state.resetActive then
    ({ state with resetActive := true, resetStart := nowMs, lastProgress := nowMs }, [])
  else state.continueHold config nowMs

end Gesture

namespace TouchInput

/-- The gesture of the engine. -/
def gesture (touch : TouchInput) : Gesture where
  resetActive := touch.resetActive
  resetFired := touch.resetFired
  baselineReleased := touch.baselineReleased
  firstPollMs := touch.firstPollMs
  resetStart := touch.resetStart
  lastProgress := touch.lastProgress

@[simp] theorem gesture_debounce (touch : TouchInput) (channel : ℕ) (level : TouchLevel)
    (nowMs : Millis) : (touch.debounce channel level nowMs).1.gesture = touch.gesture := by
  unfold debounce maybeLongPress
  split_ifs <;> rfl

theorem continueHold_eq (touch : TouchInput) (nowMs : Millis) :
    (touch.continueHold nowMs (elapsed nowMs touch.resetStart)).1.gesture =
        (touch.gesture.continueHold touch.config nowMs).1 ∧
      (touch.continueHold nowMs (elapsed nowMs touch.resetStart)).2 =
        (touch.gesture.continueHold touch.config nowMs).2 := by
  unfold continueHold emitProgressIfDue fireIfHeld Gesture.continueHold Gesture.progressDue
    Gesture.fireDue gesture
  cases hfired : touch.resetFired with
  | true => simp [hfired]
  | false =>
    by_cases hprogress : elapsed nowMs touch.lastProgress ≥ touch.config.progressEveryMs
    · by_cases hhold : elapsed nowMs touch.resetStart ≥ touch.config.factoryHoldMs
      · simp [hprogress, hhold]
      · simp [hprogress, hhold]
    · by_cases hhold : elapsed nowMs touch.resetStart ≥ touch.config.factoryHoldMs
      · simp [hfired, hprogress, hhold]
      · simp [hfired, hprogress, hhold]

/-- The gesture step of the engine is the step of its gesture, for a valid pair. -/
theorem updateResetGesture_eq {touch : TouchInput} (hpair : touch.resetPairValid = true)
    (nowMs : Millis) :
    (touch.updateResetGesture nowMs).1.gesture =
        (touch.gesture.step touch.config touch.bothHeld nowMs).1 ∧
      (touch.updateResetGesture nowMs).2 =
        (touch.gesture.step touch.config touch.bothHeld nowMs).2 := by
  have hcontinue := continueHold_eq touch nowMs
  have hbaseline : touch.gesture.baselineReleased = touch.baselineReleased := rfl
  have hactive : touch.gesture.resetActive = touch.resetActive := rfl
  unfold updateResetGesture Gesture.step
  rw [hpair, if_neg (by decide), hbaseline, hactive]
  split_ifs
  · exact ⟨rfl, rfl⟩
  · exact ⟨rfl, rfl⟩
  · exact ⟨rfl, rfl⟩
  · exact hcontinue

end TouchInput

/-! ### Moments -/

/-- One evaluation of the gesture: its true time, whether the pair is held behind it, and the calls
made at it. -/
structure Moment where
  time : ℕ
  held : Bool
  calls : List TouchCall
  deriving DecidableEq, Repr

/-- The millisecond counter at a moment. -/
def Moment.nowMs (moment : Moment) : Millis := UInt32.ofNat moment.time

/-- The hold at the end: the moments since the last one that left the pair not held. -/
def holding (past : List Moment) : List Moment := past.rtakeWhile Moment.held

theorem holding_concat_held {moment : Moment} (past : List Moment) (hheld : moment.held = true) :
    holding (past ++ [moment]) = holding past ++ [moment] :=
  List.rtakeWhile_concat_pos _ _ _ hheld

theorem holding_concat_not {moment : Moment} (past : List Moment) (hheld : moment.held = false) :
    holding (past ++ [moment]) = [] :=
  List.rtakeWhile_concat_neg _ _ _ (by simp [hheld])

/-- The gesture was emitted at one of the moments. -/
def Emitted (moments : List Moment) : Prop :=
  ∃ moment ∈ moments, TouchCall.factoryResetGesture ∈ moment.calls

theorem emitted_concat (past : List Moment) (moment : Moment) :
    Emitted (past ++ [moment]) ↔
      Emitted past ∨ TouchCall.factoryResetGesture ∈ moment.calls := by
  simp [Emitted, or_and_right, exists_or]

/-- The time of the first evaluation, as the engine keeps it: the first that is not the sentinel. -/
def firstMs : List Millis → Millis
  | [] => kNoTime
  | nowMs :: rest => if nowMs = kNoTime then firstMs rest else nowMs

/-- A moment after the settle window left the pair not held. -/
def Settled (past : List Moment) : Prop :=
  ∃ earlier released, earlier ++ [released] <+: past ∧ released.held = false ∧
    kResetArmSettleMs ≤ TouchInput.elapsed released.nowMs
      (firstMs ((earlier ++ [released]).map Moment.nowMs))

theorem firstMs_concat (times : List Millis) (nowMs : Millis) :
    firstMs (times ++ [nowMs]) = if firstMs times = kNoTime then nowMs else firstMs times := by
  induction times with
  | nil => simp [firstMs, eq_comm]
  | cons first rest ih =>
    rw [List.cons_append, firstMs, firstMs, ih]
    by_cases hsentinel : first = kNoTime
    · rw [if_pos hsentinel, if_pos hsentinel]
    · rw [if_neg hsentinel, if_neg hsentinel, if_neg hsentinel]

theorem settled_concat (past : List Moment) (moment : Moment) :
    Settled (past ++ [moment]) ↔ Settled past ∨ moment.held = false ∧
      kResetArmSettleMs ≤ TouchInput.elapsed moment.nowMs
        (firstMs ((past ++ [moment]).map Moment.nowMs)) := by
  constructor
  · rintro ⟨earlier, released, hstarts, hheld, hsettled⟩
    rcases List.prefix_concat_iff.mp hstarts with heq | hbefore
    · obtain ⟨rfl, hsame⟩ := List.append_inj' heq rfl
      obtain rfl := List.singleton_inj.mp hsame
      exact .inr ⟨hheld, hsettled⟩
    · exact .inl ⟨earlier, released, hbefore, hheld, hsettled⟩
  · rintro (⟨earlier, released, hstarts, hsettled⟩ | ⟨hheld, hsettled⟩)
    · exact ⟨earlier, released, hstarts.trans (List.prefix_append _ _), hsettled⟩
    · exact ⟨past, moment, List.prefix_rfl, hheld, hsettled⟩

/-- The moments of a gesture, from its start on, with the calls of each. -/
inductive Traced (config : TouchConfig) : List Moment → Gesture → Prop
  | start : Traced config [] {}
  | evaluate {past : List Moment} {state : Gesture} (htraced : Traced config past state)
      (moment : Moment)
      (hcalls : moment.calls.filter TouchCall.ofGesture =
        (state.step config moment.held moment.nowMs).2) :
      Traced config (past ++ [moment]) (state.step config moment.held moment.nowMs).1

/-- The last moment of a run is an evaluation behind the moments before it. -/
theorem Traced.of_concat {config : TouchConfig} {past : List Moment} {moment : Moment}
    {after : Gesture} (htraced : Traced config (past ++ [moment]) after) :
    ∃ state, Traced config past state ∧ moment.calls.filter TouchCall.ofGesture =
      (state.step config moment.held moment.nowMs).2 := by
  generalize hmoments : past ++ [moment] = moments at htraced
  cases htraced with
  | start => simp at hmoments
  | evaluate htraced last hcalls =>
    obtain ⟨rfl, hsame⟩ := List.append_inj' hmoments rfl
    obtain rfl := List.singleton_inj.mp hsame
    exact ⟨_, htraced, hcalls⟩

/-- So is every other one. -/
theorem Traced.of_append {config : TouchConfig} {past later : List Moment} {moment : Moment}
    {after : Gesture} (htraced : Traced config (past ++ moment :: later) after) :
    ∃ state, Traced config past state ∧ moment.calls.filter TouchCall.ofGesture =
      (state.step config moment.held moment.nowMs).2 := by
  induction later using List.reverseRecOn generalizing after with
  | nil => exact htraced.of_concat
  | append_singleton later last ih =>
    rw [← List.cons_append, ← List.append_assoc] at htraced
    obtain ⟨_, hbefore, -⟩ := htraced.of_concat
    exact ih hbefore

theorem gesture_mem_calls {config : TouchConfig} {state : Gesture} {moment : Moment}
    (hcalls : moment.calls.filter TouchCall.ofGesture =
      (state.step config moment.held moment.nowMs).2) :
    TouchCall.factoryResetGesture ∈ moment.calls ↔
      TouchCall.factoryResetGesture ∈ (state.step config moment.held moment.nowMs).2 := by
  rw [← hcalls, List.mem_filter]
  exact (and_iff_left rfl).symm

theorem progress_mem_calls {config : TouchConfig} {state : Gesture} {moment : Moment}
    (hcalls : moment.calls.filter TouchCall.ofGesture =
      (state.step config moment.held moment.nowMs).2) (elapsedMs totalMs : Millis) :
    TouchCall.factoryResetProgress elapsedMs totalMs ∈ moment.calls ↔
      TouchCall.factoryResetProgress elapsedMs totalMs ∈
        (state.step config moment.held moment.nowMs).2 := by
  rw [← hcalls, List.mem_filter]
  exact (and_iff_left rfl).symm

/-! ### Where the gesture stands -/

section Step

variable {config : TouchConfig} {state : Gesture}

theorem Gesture.step_waits (hwaiting : state.baselineReleased = false) (held : Bool)
    (nowMs : Millis) : state.step config held nowMs = (state.settle held nowMs, []) := by
  rw [Gesture.step, hwaiting]
  rfl

theorem Gesture.step_releases (hready : state.baselineReleased = true) (nowMs : Millis) :
    state.step config false nowMs =
      ({ state with resetActive := false, resetFired := false }, []) := by
  simp [Gesture.step, hready]

theorem Gesture.step_starts (hready : state.baselineReleased = true)
    (hactive : state.resetActive = false) (nowMs : Millis) :
    state.step config true nowMs =
      ({ state with resetActive := true, resetStart := nowMs, lastProgress := nowMs }, []) := by
  simp [Gesture.step, hready, hactive]

theorem Gesture.step_continues (hready : state.baselineReleased = true)
    (hactive : state.resetActive = true) (nowMs : Millis) :
    state.step config true nowMs = state.continueHold config nowMs := by
  simp [Gesture.step, hready, hactive]

end Step

/-- Where the gesture stands in a hold: it is timed from the first moment of the hold, and has fired
if it was emitted in it. -/
def Gesture.Holds (state : Gesture) : List Moment → Prop
  | [] => state.resetActive = false ∧ state.resetFired = false
  | first :: rest => state.resetActive = true ∧ state.resetStart = first.nowMs ∧
      (state.resetFired = true ↔ Emitted (first :: rest))

/-- Where the gesture stands behind its moments. -/
structure Gesture.Tracks (past : List Moment) (state : Gesture) : Prop where
  baseline : state.baselineReleased = true ↔ Settled past
  waiting : state.baselineReleased = false → state.firstPollMs = firstMs (past.map Moment.nowMs)
  holds : state.baselineReleased = true → state.Holds (holding past)

namespace Gesture

variable {config : TouchConfig} {past : List Moment} {state : Gesture}

theorem tracks_nil : Tracks [] {} where
  baseline := by simp [Settled]
  waiting := fun _ ↦ rfl
  holds := by simp

/-- Before the baseline is seen, an evaluation waits for it. -/
theorem Tracks.step_waiting (htracks : state.Tracks past)
    (hwaiting : state.baselineReleased = false)
    (moment : Moment) :
    (state.step config moment.held moment.nowMs).1.Tracks (past ++ [moment]) := by
  have hfirst : (state.settle moment.held moment.nowMs).firstPollMs =
      firstMs ((past ++ [moment]).map Moment.nowMs) := by
    rw [List.map_append, List.map_singleton, firstMs_concat, ← htracks.waiting hwaiting]
    rfl
  have hunsettled : ¬ Settled past := by
    rw [← htracks.baseline, hwaiting]
    decide
  have hbaseline : (state.settle moment.held moment.nowMs).baselineReleased = true ↔
      moment.held = false ∧ kResetArmSettleMs ≤
        TouchInput.elapsed moment.nowMs (firstMs ((past ++ [moment]).map Moment.nowMs)) := by
    rw [← hfirst]
    simp [settle, and_comm]
  rw [step_waits hwaiting]
  refine ⟨?_, fun _ ↦ hfirst, fun hnow ↦ ?_⟩
  · rw [hbaseline, settled_concat, or_iff_right hunsettled]
  · rw [holding_concat_not past (hbaseline.mp hnow).1]
    exact ⟨rfl, rfl⟩

/-- The gesture is emitted by the evaluation of a held pair, once the hold is long enough. -/
theorem gesture_mem_step (config : TouchConfig) (state : Gesture) (held : Bool) (nowMs : Millis) :
    TouchCall.factoryResetGesture ∈ (state.step config held nowMs).2 ↔
      state.baselineReleased = true ∧ held = true ∧ state.resetActive = true ∧
        state.resetFired = false ∧
        config.factoryHoldMs ≤ TouchInput.elapsed nowMs state.resetStart := by
  unfold step
  cases state.baselineReleased with
  | false => simp
  | true =>
    cases held with
    | false => simp
    | true =>
      cases state.resetActive with
      | false => simp
      | true =>
        by_cases hprogress : state.progressDue config nowMs = true
        · simp [continueHold, hprogress, fireDue, and_comm]
        · simp [continueHold, hprogress, fireDue, and_comm]

/-- Progress is reported by the evaluation of a pair that is held, until the gesture is emitted. -/
theorem progress_mem_step (config : TouchConfig) (state : Gesture) (held : Bool)
    (nowMs elapsedMs totalMs : Millis) :
    TouchCall.factoryResetProgress elapsedMs totalMs ∈ (state.step config held nowMs).2 ↔
      state.baselineReleased = true ∧ held = true ∧ state.resetActive = true ∧
        state.resetFired = false ∧
        config.progressEveryMs ≤ TouchInput.elapsed nowMs state.lastProgress ∧
        elapsedMs = TouchInput.elapsed nowMs state.resetStart ∧
        totalMs = config.factoryHoldMs := by
  unfold step
  cases state.baselineReleased with
  | false => simp
  | true =>
    cases held with
    | false => simp
    | true =>
      cases state.resetActive with
      | false => simp
      | true =>
        have hdue : state.progressDue config nowMs = true ↔ state.resetFired = false ∧
            config.progressEveryMs ≤ TouchInput.elapsed nowMs state.lastProgress := by
          simp [progressDue]
        by_cases hprogress : state.progressDue config nowMs = true
        · simp [continueHold, hprogress, hdue.mp hprogress]
        · refine iff_of_false ?_ fun hreports ↦
            hprogress (hdue.mpr ⟨hreports.2.2.2.1, hreports.2.2.2.2.1⟩)
          simp [continueHold, hprogress]

/-- An evaluation reports progress at most once, and then emits the gesture at most once. -/
theorem calls_step (config : TouchConfig) (state : Gesture) (held : Bool) (nowMs : Millis) :
    ∃ elapsedMs totalMs, List.Sublist (state.step config held nowMs).2
      [.factoryResetProgress elapsedMs totalMs, .factoryResetGesture] := by
  refine ⟨TouchInput.elapsed nowMs state.resetStart, config.factoryHoldMs, ?_⟩
  unfold step
  split_ifs
  · exact List.nil_sublist _
  · exact List.nil_sublist _
  · exact List.nil_sublist _
  · unfold continueHold
    have honce (due : Bool) (call : TouchCall) :
        (if due then [call] else []).Sublist [call] := by
      cases due with
      | false => exact List.nil_sublist _
      | true => exact List.Sublist.refl _
    exact (honce _ _).append (honce _ _)

/-- An evaluation behind the baseline keeps the gesture where it should stand. -/
theorem Tracks.step_ready (htracks : state.Tracks past) (hready : state.baselineReleased = true)
    {moment : Moment}
    (hcalls : moment.calls.filter TouchCall.ofGesture =
      (state.step config moment.held moment.nowMs).2) :
    (state.step config moment.held moment.nowMs).1.Tracks (past ++ [moment]) := by
  have hsettled : Settled (past ++ [moment]) :=
    (settled_concat _ _).mpr (.inl (htracks.baseline.mp hready))
  have hmem := gesture_mem_calls hcalls
  rw [gesture_mem_step, hready] at hmem
  have hholds := htracks.holds hready
  suffices hnext : (state.step config moment.held moment.nowMs).1.baselineReleased = true ∧
      (state.step config moment.held moment.nowMs).1.Holds (holding (past ++ [moment])) from
    ⟨iff_of_true hnext.1 hsettled, fun hnot ↦ absurd hnext.1 (by simp [hnot]), fun _ ↦ hnext.2⟩
  cases hheld : moment.held with
  | false =>
    rw [holding_concat_not past hheld, step_releases hready]
    exact ⟨hready, rfl, rfl⟩
  | true =>
    rw [holding_concat_held past hheld]
    rw [hheld] at hmem
    cases hhold : holding past with
    | nil =>
      rw [hhold] at hholds
      obtain ⟨hactive, hfired⟩ := hholds
      rw [step_starts hready hactive]
      refine ⟨hready, rfl, rfl, ?_⟩
      simp [hfired, Emitted, hmem, hactive]
    | cons first rest =>
      rw [hhold] at hholds
      obtain ⟨hactive, hstart, hfired⟩ := hholds
      rw [step_continues hready hactive]
      have hnow : (state.continueHold config moment.nowMs).1.resetFired = true ↔
          state.resetFired = true ∨ TouchCall.factoryResetGesture ∈ moment.calls := by
        rw [hmem]
        by_cases hemitted : state.resetFired = true
        · simp [continueHold, hemitted]
        · simp [continueHold, fireDue, hemitted, hactive]
      refine ⟨hready, hactive, hstart, ?_⟩
      rw [hnow, hfired, ← emitted_concat, List.cons_append]
      rfl

/-- Behind any moments the gesture stands where it should. -/
theorem tracks (htraced : Traced config past state) : state.Tracks past := by
  induction htraced with
  | start => exact tracks_nil
  | @evaluate past state htraced moment hcalls ih =>
    cases hbaseline : state.baselineReleased with
    | false => exact ih.step_waiting hbaseline moment
    | true => exact ih.step_ready hbaseline hcalls

end Gesture

/-! ### Moments in true time -/

/-- Consecutive moments do not go back in time and are less than half a turn of the counter
apart. -/
def InTime (moments : List Moment) : Prop :=
  moments.IsChain fun moment next ↦ moment.time ≤ next.time ∧ next.time < moment.time + 2 ^ 31

theorem InTime.of_concat {past : List Moment} {moment : Moment}
    (htime : InTime (past ++ [moment])) : InTime past :=
  List.IsChain.left_of_append htime

theorem InTime.sorted {moments : List Moment} (htime : InTime moments) :
    moments.Pairwise fun earlier later ↦ earlier.time ≤ later.time := by
  have hchain : moments.IsChain fun moment next ↦ moment.time ≤ next.time :=
    htime.imp fun _ _ h ↦ h.1
  exact List.pairwise_map.mp
    (List.isChain_iff_pairwise.mp ((List.isChain_map Moment.time).mpr hchain))

/-- In time, no moment is before an earlier one. -/
theorem InTime.le {past : List Moment} {moment earlier : Moment}
    (htime : InTime (past ++ [moment])) (hearlier : earlier ∈ past) :
    earlier.time ≤ moment.time :=
  (List.pairwise_append.mp htime.sorted).2.2 earlier hearlier moment (List.mem_singleton_self _)

/-- In time, a moment is less than half a turn behind the last one before it. -/
theorem InTime.lt {past : List Moment} {moment : Moment} (htime : InTime (past ++ [moment]))
    {last : Moment} (hlast : last ∈ past.getLast?) : moment.time < last.time + 2 ^ 31 :=
  ((List.isChain_append.mp htime).2.2 last hlast moment rfl).2

/-- The hold at the end is behind a moment that left the pair not held. -/
def Hold (past : List Moment) (first : Moment) (since : List Moment) : Prop :=
  ∃ before released, past = before ++ released :: first :: since ∧ released.held = false ∧
    ∀ moment ∈ first :: since, moment.held = true

/-- A moment at least the settle time behind the first one left the pair not held. -/
def Armed (past : List Moment) : Prop :=
  ∃ first ∈ past.head?, ∃ released ∈ past, released.held = false ∧
    kResetArmSettleMs.toNat ≤ (released.time - first.time) % 2 ^ 32

/-- Progress was reported at a moment. -/
def Moment.ReportsProgress (moment : Moment) : Prop :=
  ∃ elapsedMs totalMs, TouchCall.factoryResetProgress elapsedMs totalMs ∈ moment.calls

theorem hold_iff {past : List Moment} (hsettled : Settled past) (first : Moment)
    (since : List Moment) : Hold past first since ↔ holding past = first :: since := by
  constructor
  · rintro ⟨before, released, rfl, hreleased, hheld⟩
    have hsplit : before ++ released :: first :: since =
        (before ++ [released]) ++ (first :: since) := by simp
    rw [hsplit, holding, rtakeWhile_append _ hheld, List.rtakeWhile_concat_neg _ _ _ (by
      simp [hreleased]), List.nil_append]
  · intro hholding
    obtain ⟨earlier, released, hstarts, hreleased, -⟩ := hsettled
    have hne : past.rdropWhile Moment.held ≠ [] := by
      rw [Ne, List.rdropWhile_eq_nil_iff]
      intro hall
      have := hall released (hstarts.subset (by simp))
      simp [hreleased] at this
    refine ⟨(past.rdropWhile Moment.held).dropLast, (past.rdropWhile Moment.held).getLast hne, ?_,
      ?_, ?_⟩
    · rw [← hholding, holding, ← List.singleton_append, ← List.append_assoc,
        List.dropLast_append_getLast hne, List.rdropWhile_append_rtakeWhile]
    · simpa using List.rdropWhile_last_not Moment.held past hne
    · rw [← hholding]
      exact fun moment hmoment ↦ List.mem_rtakeWhile_imp hmoment

/-- In true time, the baseline is seen at a moment at least the settle time behind the first one. -/
theorem settled_iff {past : List Moment} (htime : InTime past)
    (hfirst : ∀ first ∈ past.head?, first.nowMs ≠ kNoTime) : Settled past ↔ Armed past := by
  cases past with
  | nil => simp [Settled, Armed]
  | cons first rest =>
    have hkept (earlier : List Moment) (released : Moment)
        (hstarts : earlier ++ [released] <+: first :: rest) :
        firstMs ((earlier ++ [released]).map Moment.nowMs) = first.nowMs := by
      cases earlier with
      | nil =>
        obtain ⟨rfl, -⟩ := List.cons_prefix_cons.mp hstarts
        exact if_neg (hfirst _ rfl)
      | cons start earlier =>
        obtain ⟨rfl, -⟩ := List.cons_prefix_cons.mp hstarts
        exact if_neg (hfirst _ rfl)
    have hdistance (released : Moment) (hreleased : released ∈ first :: rest) :
        kResetArmSettleMs ≤ TouchInput.elapsed released.nowMs first.nowMs ↔
          kResetArmSettleMs.toNat ≤ (released.time - first.time) % 2 ^ 32 := by
      have hle : first.time ≤ released.time := by
        rcases List.mem_cons.mp hreleased with rfl | hlater
        · exact le_rfl
        · exact List.rel_of_pairwise_cons htime.sorted hlater
      rw [UInt32.le_iff_toNat_le, Moment.nowMs, Moment.nowMs, TouchInput.toNat_elapsed hle]
    constructor
    · rintro ⟨earlier, released, hstarts, hheld, hsettled⟩
      have hreleased : released ∈ first :: rest := hstarts.subset (by simp)
      rw [hkept earlier released hstarts, hdistance released hreleased] at hsettled
      exact ⟨first, rfl, released, hreleased, hheld, hsettled⟩
    · rintro ⟨_, hhead, released, hreleased, hheld, hsettled⟩
      cases hhead
      obtain ⟨earlier, later, heq⟩ := List.append_of_mem hreleased
      have hstarts : earlier ++ [released] <+: first :: rest := ⟨later, by simp [heq]⟩
      refine ⟨earlier, released, hstarts, hheld, ?_⟩
      rw [hkept earlier released hstarts, hdistance released hreleased]
      exact hsettled

/-! ### The exact meaning of the gesture -/

section Spec

variable {config : TouchConfig} {past : List Moment} {state : Gesture}

/-- The gesture is emitted exactly in a hold behind the baseline that is long enough by the counter
and in which it was not emitted yet. -/
theorem Gesture.Tracks.gesture_iff (htracks : state.Tracks past) (held : Bool) (nowMs : Millis) :
    TouchCall.factoryResetGesture ∈ (state.step config held nowMs).2 ↔
      Settled past ∧ held = true ∧ ∃ first since, holding past = first :: since ∧
        ¬ Emitted (first :: since) ∧
        config.factoryHoldMs ≤ TouchInput.elapsed nowMs first.nowMs := by
  rw [Gesture.gesture_mem_step, htracks.baseline]
  refine and_congr_right fun hsettled ↦ and_congr_right fun _ ↦ ?_
  have hholds := htracks.holds (htracks.baseline.mpr hsettled)
  cases hhold : holding past with
  | nil =>
    rw [hhold] at hholds
    simp [hholds.1]
  | cons first since =>
    rw [hhold] at hholds
    obtain ⟨hactive, hstart, hfired⟩ := hholds
    rw [hstart, ← Bool.not_eq_true, hfired, and_iff_right hactive]
    constructor
    · rintro ⟨hquiet, hdue⟩
      exact ⟨first, since, rfl, hquiet, hdue⟩
    · rintro ⟨_, _, heq, hquiet, hdue⟩
      cases heq
      exact ⟨hquiet, hdue⟩

/-- In a hold that is short so far, the counter measures true time. -/
theorem lt_of_short {bound : ℕ} (hbound : bound ≤ 2 ^ 31) {first moment : Moment}
    {since : List Moment} (hholding : holding past = first :: since)
    (hshort : ∀ earlier ∈ since, earlier.time < first.time + bound)
    (htime : InTime (past ++ [moment])) : moment.time < first.time + 2 ^ 32 := by
  obtain ⟨before, hbefore⟩ := exists_eq_append_rtakeWhile Moment.held past
  rw [← holding, hholding] at hbefore
  have hlast : (first :: since).getLast (List.cons_ne_nil _ _) ∈ past.getLast? := by
    rw [hbefore, List.getLast?_append_of_ne_nil _ (List.cons_ne_nil _ _)]
    exact List.getLast_mem_getLast? _
  have hnear := htime.lt hlast
  rcases List.mem_cons.mp (List.getLast_mem (List.cons_ne_nil first since)) with heq | hmem
  · rw [heq] at hnear
    omega
  · have := hshort _ hmem
    omega

theorem mem_of_mem_holding {moment : Moment} (hmoment : moment ∈ holding past) : moment ∈ past :=
  (List.rtakeWhile_suffix _ _).subset hmoment

theorem first_le_of_mem_holding (htime : InTime past) {first moment : Moment}
    {since : List Moment} (hholding : holding past = first :: since)
    (hmoment : moment ∈ first :: since) : first.time ≤ moment.time := by
  have hsorted : (first :: since).Pairwise fun earlier later ↦ earlier.time ≤ later.time := by
    rw [← hholding]
    exact htime.sorted.sublist (List.rtakeWhile_suffix _ _).sublist
  rcases List.mem_cons.mp hmoment with rfl | hlater
  · exact le_rfl
  · exact List.rel_of_pairwise_cons hsorted hlater

/-- A hold behind one more moment starts there, or goes on there. -/
theorem holding_concat_cases {moment : Moment} (hsettled : Settled (past ++ [moment]))
    {first : Moment} {since : List Moment}
    (hholding : holding (past ++ [moment]) = first :: since) :
    moment.held = true ∧ Settled past ∧
      (holding past = [] ∧ first = moment ∧ since = [] ∨
        ∃ rest, holding past = first :: rest ∧ since = rest ++ [moment]) := by
  cases hheld : moment.held with
  | false =>
    rw [holding_concat_not past hheld] at hholding
    cases hholding
  | true =>
    have hbefore : Settled past := ((settled_concat past moment).mp hsettled).resolve_right
      fun hnow ↦ by simp [hheld] at hnow
    rw [holding_concat_held past hheld] at hholding
    refine ⟨rfl, hbefore, ?_⟩
    cases hhold : holding past with
    | nil =>
      rw [hhold, List.nil_append] at hholding
      obtain ⟨rfl, rfl⟩ := List.cons.inj hholding
      exact .inl ⟨rfl, rfl, rfl⟩
    | cons start rest =>
      rw [hhold, List.cons_append] at hholding
      obtain ⟨rfl, rfl⟩ := List.cons.inj hholding
      exact .inr ⟨rest, rfl, rfl⟩

/-- A hold in which the gesture was not emitted is short. -/
theorem short_of_quiet (hhold : config.factoryHoldMs.toNat ≤ 2 ^ 31)
    (htraced : Traced config past state) (htime : InTime past) (hsettled : Settled past)
    {first : Moment} {since : List Moment} (hholding : holding past = first :: since)
    (hquiet : ¬ Emitted (first :: since)) :
    ∀ moment ∈ since, moment.time < first.time + config.factoryHoldMs.toNat := by
  induction htraced generalizing first since with
  | start => cases hholding
  | @evaluate past state htraced moment hcalls ih =>
    obtain ⟨hheld, hbefore, ⟨-, -, rfl⟩ | ⟨rest, hhold', rfl⟩⟩ :=
      holding_concat_cases hsettled hholding
    · exact fun later hnone ↦ absurd hnone List.not_mem_nil
    · rw [← List.cons_append, emitted_concat, not_or] at hquiet
      have hrest := ih htime.of_concat hbefore hhold' hquiet.1
      intro later hlater
      rcases List.mem_append.mp hlater with hmem | hnow
      · exact hrest later hmem
      · obtain rfl := List.mem_singleton.mp hnow
        have hfirst : first ∈ past := mem_of_mem_holding (by rw [hhold']; exact List.mem_cons_self)
        have hnotDue := hquiet.2
        rw [gesture_mem_calls hcalls, (Gesture.tracks htraced).gesture_iff] at hnotDue
        by_contra hlong
        refine hnotDue ⟨hbefore, hheld, first, rest, hhold', hquiet.1, ?_⟩
        refine (TouchInput.le_elapsed_iff (htime.le hfirst) ?_).mpr (Nat.le_of_not_lt hlong)
        exact lt_of_short hhold hhold' hrest htime

/-- How progress is paced in a hold: the last report, or else the start of the hold, is where the
next one is timed from, and the reports of the hold measure it. -/
structure Paced (past : List Moment) (first : Moment) (since : List Moment) (state : Gesture) :
    Prop where
  last : ∃ last ∈ first :: since, state.lastProgress = last.nowMs ∧
    ∀ earlier ∈ past, earlier.ReportsProgress → earlier.time ≤ last.time
  measured : ∀ moment ∈ first :: since, ∀ elapsedMs totalMs,
    TouchCall.factoryResetProgress elapsedMs totalMs ∈ moment.calls →
      first.time + elapsedMs.toNat = moment.time

/-- A report of progress in a hold measures it. -/
theorem measured_of_progress (hhold : config.factoryHoldMs.toNat ≤ 2 ^ 31)
    (htraced : Traced config past state) {first moment : Moment} {since : List Moment}
    (htime : InTime (past ++ [moment])) (hholding : holding past = first :: since)
    {elapsedMs totalMs : Millis}
    (hcall : TouchCall.factoryResetProgress elapsedMs totalMs ∈
      (state.step config moment.held moment.nowMs).2) :
    first.time + elapsedMs.toNat = moment.time := by
  have htracks := Gesture.tracks htraced
  obtain ⟨hready, -, -, hquiet, -, rfl, -⟩ := (Gesture.progress_mem_step _ _ _ _ _ _).mp hcall
  have hstands := htracks.holds hready
  rw [hholding] at hstands
  obtain ⟨-, hstart, hfired⟩ := hstands
  rw [← Bool.not_eq_true, hfired] at hquiet
  have hshort := short_of_quiet hhold htraced htime.of_concat (htracks.baseline.mp hready)
    hholding hquiet
  have hle : first.time ≤ moment.time :=
    htime.le (mem_of_mem_holding (by rw [hholding]; exact List.mem_cons_self))
  have hlt := lt_of_short hhold hholding hshort htime
  rw [hstart, Moment.nowMs, Moment.nowMs, TouchInput.toNat_elapsed hle,
    Nat.mod_eq_of_lt (by omega)]
  omega

theorem paced (hhold : config.factoryHoldMs.toNat ≤ 2 ^ 31) (htraced : Traced config past state)
    (htime : InTime past) (hsettled : Settled past) {first : Moment} {since : List Moment}
    (hholding : holding past = first :: since) : Paced past first since state := by
  induction htraced generalizing first since with
  | start => cases hholding
  | @evaluate past state htraced moment hcalls ih =>
    obtain ⟨hheld, hbefore, hcases⟩ := holding_concat_cases hsettled hholding
    have htracks := Gesture.tracks htraced
    have hready := htracks.baseline.mpr hbefore
    have hstands := htracks.holds hready
    have hmem := progress_mem_calls hcalls
    have hall : ∀ earlier ∈ past ++ [moment], earlier.time ≤ moment.time := by
      intro earlier hmoment
      rcases List.mem_append.mp hmoment with hpast | hnow
      · exact htime.le hpast
      · rw [List.mem_singleton.mp hnow]
    rw [hheld] at hmem ⊢
    rcases hcases with ⟨hnone, rfl, rfl⟩ | ⟨rest, hhold', rfl⟩
    · rw [hnone] at hstands
      rw [Gesture.step_starts hready hstands.1] at hmem ⊢
      refine ⟨⟨first, List.mem_singleton_self _, rfl, fun earlier hmoment _ ↦ hall earlier hmoment⟩,
        fun later hlater elapsedMs totalMs hcall ↦ ?_⟩
      rw [List.mem_singleton.mp hlater, hmem] at hcall
      cases hcall
    · rw [hhold'] at hstands
      obtain ⟨⟨last, hlast, hsince, hlatest⟩, hmeasured⟩ := ih htime.of_concat hbefore hhold'
      refine ⟨?_, fun later hlater elapsedMs totalMs hcall ↦ ?_⟩
      · rw [Gesture.step_continues hready hstands.1]
        by_cases hdue : state.progressDue config moment.nowMs = true
        · refine ⟨moment, by simp, ?_, fun earlier hmoment _ ↦ hall earlier hmoment⟩
          simp [Gesture.continueHold, hdue]
        · refine ⟨last, List.mem_append_left [moment] hlast, ?_, fun earlier hmoment hreports ↦ ?_⟩
          · simp [Gesture.continueHold, hdue, hsince]
          · rcases List.mem_append.mp hmoment with hpast | hnow
            · exact hlatest earlier hpast hreports
            · rw [List.mem_singleton.mp hnow] at hreports
              obtain ⟨elapsedMs, totalMs, hcall⟩ := hreports
              rw [hmem, Gesture.progress_mem_step] at hcall
              simp [Gesture.progressDue, hcall] at hdue
      · rcases List.mem_append.mp (List.cons_append ▸ hlater : later ∈ (first :: rest) ++ [moment])
          with hpast | hnow
        · exact hmeasured later hpast elapsedMs totalMs hcall
        · rw [List.mem_singleton.mp hnow] at hcall ⊢
          rw [hmem, ← hheld] at hcall
          exact measured_of_progress hhold htraced htime hhold' hcall

/-- Progress is reported in a hold behind the baseline, before the gesture is emitted in it, at
least the configured time after the report before. -/
theorem progress_spec (hhold : config.factoryHoldMs.toNat ≤ 2 ^ 31)
    (htraced : Traced config past state) {moment : Moment} (htime : InTime (past ++ [moment]))
    {elapsedMs totalMs : Millis}
    (hcall : TouchCall.factoryResetProgress elapsedMs totalMs ∈
      (state.step config moment.held moment.nowMs).2) :
    Settled past ∧ moment.held = true ∧ totalMs = config.factoryHoldMs ∧
      ∃ first since, holding past = first :: since ∧ ¬ Emitted (first :: since) ∧
        first.time + elapsedMs.toNat = moment.time ∧
        (∀ earlier ∈ past, earlier.ReportsProgress →
          earlier.time + config.progressEveryMs.toNat ≤ moment.time) ∧
        ∀ earlier ∈ first :: since, ∀ elapsedMs totalMs,
          TouchCall.factoryResetProgress elapsedMs totalMs ∈ earlier.calls →
            first.time + elapsedMs.toNat = earlier.time := by
  have htracks := Gesture.tracks htraced
  obtain ⟨hready, hheld, hactive, hfired, hdue, -, htotal⟩ :=
    (Gesture.progress_mem_step _ _ _ _ _ _).mp hcall
  have hsettled := htracks.baseline.mp hready
  have hstands := htracks.holds hready
  refine ⟨hsettled, hheld, htotal, ?_⟩
  cases hholding : holding past with
  | nil =>
    rw [hholding] at hstands
    simp [hstands.1] at hactive
  | cons first since =>
    rw [hholding] at hstands
    have hquiet : ¬ Emitted (first :: since) := by
      rw [← hstands.2.2, hfired]
      decide
    obtain ⟨⟨last, hlast, hsince, hlatest⟩, hmeasured⟩ :=
      paced hhold htraced htime.of_concat hsettled hholding
    refine ⟨first, since, rfl, hquiet, measured_of_progress hhold htraced htime hholding hcall,
      fun earlier hearlier hreports ↦ ?_, hmeasured⟩
    have hshort := short_of_quiet hhold htraced htime.of_concat hsettled hholding hquiet
    have hlt := lt_of_short hhold hholding hshort htime
    have hin : last ∈ past := mem_of_mem_holding (by rw [hholding]; exact hlast)
    have hstart := first_le_of_mem_holding htime.of_concat hholding hlast
    rw [hsince, Moment.nowMs, Moment.nowMs,
      TouchInput.le_elapsed_iff (htime.le hin) (by omega)] at hdue
    have := hlatest earlier hearlier hreports
    omega

/-- In true time, the gesture is emitted exactly in a hold behind the baseline that has lasted long
enough and in which it was not emitted yet. -/
theorem gesture_iff_of_inTime (hhold : config.factoryHoldMs.toNat ≤ 2 ^ 31)
    (htraced : Traced config past state) {moment : Moment} (htime : InTime (past ++ [moment])) :
    TouchCall.factoryResetGesture ∈ (state.step config moment.held moment.nowMs).2 ↔
      Settled past ∧ moment.held = true ∧ ∃ first since, holding past = first :: since ∧
        ¬ Emitted (first :: since) ∧
        first.time + config.factoryHoldMs.toNat ≤ moment.time := by
  rw [(Gesture.tracks htraced).gesture_iff]
  refine and_congr_right fun hsettled ↦ and_congr_right fun _ ↦ ?_
  refine exists_congr fun first ↦ exists_congr fun since ↦ and_congr_right fun hholding ↦
    and_congr_right fun hquiet ↦ ?_
  have hshort := short_of_quiet hhold htraced htime.of_concat hsettled hholding hquiet
  refine TouchInput.le_elapsed_iff (htime.le (mem_of_mem_holding ?_))
    (lt_of_short hhold hholding hshort htime)
  rw [hholding]
  exact List.mem_cons_self

end Spec

/-! ### The engine -/

namespace TouchInput

/-- The engine under polls, with the moment of each poll. -/
def watched : Machine Poll Moment TouchInput where
  step touch poll := ((machine.step touch poll).1,
    ⟨poll.time, (machine.step touch poll).1.bothHeld, (machine.step touch poll).2⟩)

/-- The moments of a run of polls. -/
def history (touch : TouchInput) (polls : List Poll) : List Moment := watched.reports touch polls

theorem history_concat (touch : TouchInput) (polls : List Poll) (poll : Poll) :
    touch.history (polls ++ [poll]) =
      touch.history polls ++ [(watched.step (machine.final touch polls) poll).2] :=
  watched.reports_concat touch polls poll

/-- The reset pair is two channels of the profile. -/
def ValidPair (config : TouchConfig) (channelCount : ℕ) : Prop :=
  config.resetChannelA < channelCount ∧ config.resetChannelB < channelCount ∧
    config.resetChannelA ≠ config.resetChannelB

section Serves

variable {touch : TouchInput} {config : TouchConfig} {channelCount : ℕ}

theorem Serves.pairValid (hserves : touch.Serves config channelCount)
    (hpair : ValidPair config channelCount) : touch.resetPairValid = true := by
  have hvalid : touch.resetPairValid = _ := congrArg (fun frame ↦ frame.2.2.2) hserves.frame_eq
  rw [hvalid]
  simp [hpair.1, hpair.2.1, hpair.2.2]

/-- The debounce step makes no call of the gesture. -/
theorem filter_debounce (touch : TouchInput) (channel : ℕ) (level : TouchLevel) (nowMs : Millis) :
    (touch.debounce channel level nowMs).2.filter TouchCall.ofGesture = [] := by
  rw [List.filter_eq_nil_iff]
  intro call hcall
  obtain ⟨event, rfl⟩ := debounce_calls _ _ _ _ call hcall
  exact Bool.false_ne_true

/-- The gesture step makes no other call. -/
theorem filter_updateResetGesture (touch : TouchInput) (nowMs : Millis) :
    (touch.updateResetGesture nowMs).2.filter TouchCall.ofGesture =
      (touch.updateResetGesture nowMs).2 := by
  rw [List.filter_eq_self]
  intro call hcall
  cases call with
  | touchEvent channel event => exact absurd hcall (updateResetGesture_calls _ _ _ _)
  | factoryResetGesture => rfl
  | factoryResetProgress elapsedMs totalMs => rfl

/-- One poll is one evaluation of the gesture. -/
theorem Serves.step_gesture (hserves : touch.Serves config channelCount)
    (hpair : ValidPair config channelCount) {poll : Poll} (hpresent : poll.channel < channelCount) :
    (machine.step touch poll).1.gesture = (touch.gesture.step config
        (machine.step touch poll).1.bothHeld poll.nowMs).1 ∧
      (machine.step touch poll).2.filter TouchCall.ofGesture = (touch.gesture.step config
        (machine.step touch poll).1.bothHeld poll.nowMs).2 := by
  rw [← hserves.count_eq] at hpresent
  have hstep := poll_of_present hserves.initialized hpresent poll.level poll.nowMs
  have hdebounced : (touch.debounce poll.channel poll.level poll.nowMs).1.Serves config
      channelCount := ⟨(frame_debounce _ _ _ _).trans hserves.frame_eq⟩
  obtain ⟨hgesture, hcalls⟩ := updateResetGesture_eq (hdebounced.pairValid hpair) poll.nowMs
  rw [gesture_debounce, hdebounced.config_eq] at hgesture hcalls
  have hheld : (machine.step touch poll).1.bothHeld =
      (touch.debounce poll.channel poll.level poll.nowMs).1.bothHeld := by
    have hframe := congrArg Prod.fst
      (frame_updateResetGesture (touch.debounce poll.channel poll.level poll.nowMs).1 poll.nowMs)
    simp only [frame] at hframe
    simp only [machine, hstep, bothHeld, isStablePressed, channels_updateResetGesture, hframe]
  rw [hheld]
  simp only [machine, hstep, List.filter_append, filter_debounce, filter_updateResetGesture,
    List.nil_append]
  exact ⟨hgesture, hcalls⟩

/-- The moments of a run of the engine are moments of its gesture. -/
theorem traced_history (hcount : 0 < channelCount ∧ channelCount ≤ kMaxChannels)
    (hpair : ValidPair config channelCount) {polls : List Poll}
    (hpresent : ∀ poll ∈ polls, poll.channel < channelCount) :
    Traced config ((start config channelCount).history polls)
      (machine.final (start config channelCount) polls).gesture := by
  have hstart : (start config channelCount).Serves config channelCount := serves_start hcount
  induction polls using List.reverseRecOn with
  | nil =>
    have hnew : (start config channelCount).gesture = {} := by
      unfold start init
      rw [if_neg (by omega)]
      rfl
    rw [Machine.final_nil, hnew]
    exact .start
  | append_singleton polls poll ih =>
    obtain ⟨hgesture, hcalls⟩ := (hstart.final polls).step_gesture hpair (hpresent poll (by simp))
    rw [history_concat, Machine.final_concat, hgesture]
    exact .evaluate (ih fun other hother ↦ hpresent other (List.mem_append_left _ hother)) _ hcalls

/-- The moments are at the times of the polls. -/
theorem map_time_history (touch : TouchInput) (polls : List Poll) :
    (touch.history polls).map Moment.time = polls.map Poll.time := by
  induction polls generalizing touch with
  | nil => rfl
  | cons poll rest ih =>
    rw [history, Machine.reports_cons, List.map_cons, ← history, ih]
    rfl

theorem inTime_history (touch : TouchInput) {polls : List Poll} (htimely : Timely polls) :
    InTime (touch.history polls) := by
  have hchain : (polls.map Poll.time).IsChain fun time next ↦ time ≤ next ∧ next < time + 2 ^ 31 :=
    (List.isChain_map Poll.time).mpr htimely
  rw [← map_time_history touch] at hchain
  exact (List.isChain_map Moment.time).mp hchain

end Serves

/-- The exact meaning of the factory-reset gesture, at any poll of any run of polls. -/
theorem gesture_spec (config : TouchConfig) {channelCount : ℕ}
    (hcount : 0 < channelCount ∧ channelCount ≤ kMaxChannels)
    (hpair : ValidPair config channelCount)
    (hhold : 1 ≤ config.factoryHoldMs.toNat ∧ config.factoryHoldMs.toNat ≤ 2 ^ 31)
    (hprogress : 1 ≤ config.progressEveryMs.toNat) {polls : List Poll}
    (hpresent : ∀ poll ∈ polls, poll.channel < channelCount) (htimely : Timely polls)
    (hfirst : ∀ poll ∈ polls.head?, poll.nowMs ≠ kNoTime) {past later : List Moment}
    {moment : Moment}
    (hhistory : (start config channelCount).history polls = past ++ moment :: later) :
    (TouchCall.factoryResetGesture ∈ moment.calls ↔
      Armed past ∧ moment.held = true ∧ ∃ first since, Hold past first since ∧
        ¬ Emitted (first :: since) ∧
        first.time + config.factoryHoldMs.toNat ≤ moment.time) ∧
    (∀ elapsedMs totalMs, TouchCall.factoryResetProgress elapsedMs totalMs ∈ moment.calls →
      Armed past ∧ moment.held = true ∧ totalMs = config.factoryHoldMs ∧
        (∀ earlier ∈ past, earlier.ReportsProgress →
          earlier.time + config.progressEveryMs.toNat ≤ moment.time) ∧
        ∃ first since, Hold past first since ∧ ¬ Emitted (first :: since) ∧
          first.time + elapsedMs.toNat = moment.time ∧
          ∀ earlier ∈ first :: since, ∀ earlierMs totalMs,
            TouchCall.factoryResetProgress earlierMs totalMs ∈ earlier.calls →
              earlierMs < elapsedMs) ∧
    ∃ elapsedMs totalMs, (moment.calls.filter TouchCall.ofGesture).Sublist
      [.factoryResetProgress elapsedMs totalMs, .factoryResetGesture] := by
  have htraced := traced_history hcount hpair hpresent
  have hinTime := inTime_history (start config channelCount) htimely
  have hsentinel : ∀ first ∈ past.head?, first.nowMs ≠ kNoTime := by
    intro first hhead
    cases polls with
    | nil => simp [history] at hhistory
    | cons poll rest =>
      have hsame := congrArg List.head? hhistory
      rw [List.head?_append_of_ne_nil _ (List.ne_nil_of_mem (List.mem_of_mem_head? hhead)),
        Option.mem_def.mp hhead] at hsame
      cases hsame
      exact hfirst poll rfl
  rw [hhistory] at htraced hinTime
  obtain ⟨state, hpast, hcalls⟩ := htraced.of_append
  have hnow : InTime (past ++ [moment]) := by
    rw [← List.singleton_append, ← List.append_assoc] at hinTime
    exact List.IsChain.left_of_append hinTime
  have hbefore := hnow.of_concat
  refine ⟨?_, ?_, ?_⟩
  · rw [gesture_mem_calls hcalls, gesture_iff_of_inTime hhold.2 hpast hnow,
      settled_iff hbefore hsentinel]
    refine and_congr_right fun harmed ↦ and_congr_right fun _ ↦ ?_
    refine exists_congr fun first ↦ exists_congr fun since ↦ and_congr_left fun _ ↦ ?_
    exact (hold_iff ((settled_iff hbefore hsentinel).mpr harmed) first since).symm
  · intro elapsedMs totalMs hcall
    rw [progress_mem_calls hcalls] at hcall
    obtain ⟨hsettled, hheld, htotal, first, since, hholding, hquiet, helapsed, hpaced, hmeasured⟩ :=
      progress_spec hhold.2 hpast hnow hcall
    refine ⟨(settled_iff hbefore hsentinel).mp hsettled, hheld, htotal, hpaced, first, since,
      (hold_iff hsettled first since).mpr hholding, hquiet, helapsed, ?_⟩
    intro earlier hearlier earlierMs otherMs hreport
    have hapart := hpaced earlier (mem_of_mem_holding (by rw [hholding]; exact hearlier))
      ⟨earlierMs, otherMs, hreport⟩
    have hwhen := hmeasured earlier hearlier earlierMs otherMs hreport
    rw [UInt32.lt_iff_toNat_lt]
    omega
  · rw [hcalls]
    exact Gesture.calls_step config state moment.held moment.nowMs

/-- A gesture of its own: both channels are released for the settle time and then held. -/
def deliberateHold : List Poll :=
  [⟨0, .released, 0⟩, ⟨1, .released, 0⟩, ⟨0, .released, 600⟩, ⟨1, .released, 600⟩,
    ⟨0, .pressed, 700⟩, ⟨1, .pressed, 700⟩, ⟨0, .pressed, 740⟩, ⟨1, .pressed, 740⟩]

/-- The poll that completes it. -/
def longEnough : Poll := ⟨0, .pressed, 10740⟩

theorem gesture_spec_witness : TouchCall.factoryResetGesture ∈
    (watched.step (machine.final (start {} 2) deliberateHold) longEnough).2.calls := by
  have hpresent : ∀ poll ∈ deliberateHold ++ [longEnough], poll.channel < 2 := by decide
  have htimely : Timely (deliberateHold ++ [longEnough]) := by
    unfold Timely
    decide
  have hspec := gesture_spec {} (by decide) (by unfold ValidPair; decide) (by decide) (by decide)
    hpresent htimely (by decide) (history_concat (start {} 2) deliberateHold longEnough)
  refine hspec.1.mpr ⟨?_, by decide, ⟨740, true, [.touchEvent 1 .pressed]⟩, [], ?_, ?_, by decide⟩
  · exact ⟨⟨0, false, []⟩, by decide, ⟨600, false, []⟩, by decide, rfl, by decide⟩
  · exact ⟨(history (start {} 2) deliberateHold).take 6, ⟨740, false, [.touchEvent 0 .pressed]⟩,
      by decide, rfl, by decide⟩
  · unfold Emitted
    decide

end TouchInput

end LibreSwitch.Domain
