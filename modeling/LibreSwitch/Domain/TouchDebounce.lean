import Mathlib.Tactic
import Mathlib.Data.List.DropRight
import LibreSwitch.Library.Machine
import LibreSwitch.Domain.TouchInput

/-!
# Debouncing

What the debounce step of `TouchInput` makes of a run of polls. A poll carries its true time; the
engine is given the millisecond counter at that time.

A channel is a machine of its own (`TouchChannel.machine`): the engine moves it by its own polls
and reports its events, and nothing else about it (`channels_final`, `events_reports`).
-/

set_option autoImplicit false
set_option relaxedAutoImplicit false

namespace LibreSwitch.Domain

open LibreSwitch.Library

/-- A poll of the engine, with the true time it is made at. -/
structure Poll where
  channel : ℕ
  level : TouchLevel
  time : ℕ
  deriving DecidableEq, Repr

/-- The millisecond counter at a poll. -/
def Poll.nowMs (poll : Poll) : Millis := UInt32.ofNat poll.time

/-- The polls of one channel, in order. -/
def ownPolls (channel : ℕ) (polls : List Poll) : List Poll :=
  polls.filter fun poll ↦ poll.channel = channel

/-- The touch events of one channel among the calls of the engine. -/
def eventsOn (channel : ℕ) (calls : List TouchCall) : List TouchEvent :=
  calls.filterMap fun call ↦
    match call with
    | .touchEvent other event => if other = channel then some event else none
    | .factoryResetGesture => none
    | .factoryResetProgress _ _ => none

/-- The event of a change to a level. -/
def TouchLevel.event : TouchLevel → TouchEvent
  | .pressed => .pressed
  | .released => .released

/-! ### The engine and its channels as machines -/

namespace TouchInput

/-- The engine under polls, with its calls on the sink. -/
def machine : Machine Poll (List TouchCall) TouchInput where
  step touch poll := (touch.poll poll.channel poll.level poll.nowMs).2

/-- The engine of a profile, after `init`. -/
def start (config : TouchConfig) (channelCount : ℕ) : TouchInput :=
  (({ config := config } : TouchInput).init channelCount).2

/-- The level of a channel that is confirmed after some polls. -/
def stableAfter (touch : TouchInput) (polls : List Poll) (channel : ℕ) : TouchLevel :=
  ((machine.final touch polls).channels channel).stable

end TouchInput

namespace TouchChannel

/-- What one raw level makes of a channel, and the events it causes. -/
def step (config : TouchConfig) (state : TouchChannel) (level : TouchLevel) (nowMs : Millis) :
    TouchChannel × List TouchEvent :=
  if level ≠ state.candidate then ({ state with candidate := level, since := nowMs }, [])
  else if level = state.stable then
    if state.stable = .pressed ∧ state.longFired = false ∧
        TouchInput.elapsed nowMs state.since ≥ config.longPressMs then
      ({ state with longFired := true }, [.longPress])
    else (state, [])
  else if TouchInput.elapsed nowMs state.since ≥ config.debounceMs then
    ({ state with stable := level, longFired := false, since := nowMs }, [level.event])
  else (state, [])

section Step

variable (config : TouchConfig) (nowMs : Millis) {state : TouchChannel} {level : TouchLevel}

/-- A new raw level starts the window. -/
theorem step_of_ne (hcandidate : level ≠ state.candidate) :
    state.step config level nowMs = ({ state with candidate := level, since := nowMs }, []) :=
  if_pos hcandidate

/-- A contradicting level whose window is over is confirmed. -/
theorem step_of_due (hcandidate : level = state.candidate) (hlevel : level ≠ state.stable)
    (hdue : config.debounceMs ≤ TouchInput.elapsed nowMs state.since) :
    state.step config level nowMs =
      ({ state with stable := level, longFired := false, since := nowMs }, [level.event]) := by
  rw [step, if_neg (not_not.mpr hcandidate), if_neg hlevel, if_pos hdue]

/-- A contradicting level whose window runs is waited for. -/
theorem step_of_not_due (hcandidate : level = state.candidate) (hlevel : level ≠ state.stable)
    (hdue : ¬ config.debounceMs ≤ TouchInput.elapsed nowMs state.since) :
    state.step config level nowMs = (state, []) := by
  rw [step, if_neg (not_not.mpr hcandidate), if_neg hlevel, if_neg hdue]

/-- The confirmed level can only bring the long press of a press. -/
theorem step_of_stable (hcandidate : level = state.candidate) (hlevel : level = state.stable) :
    ∃ fired events, state.step config level nowMs = ({ state with longFired := fired }, events) ∧
      (events = [] ∨ events = [.longPress]) := by
  rw [step, if_neg (not_not.mpr hcandidate), if_pos hlevel]
  split_ifs
  · exact ⟨true, [.longPress], rfl, .inr rfl⟩
  · exact ⟨state.longFired, [], rfl, .inl rfl⟩

end Step

/-- A channel under its own polls. -/
def machine (config : TouchConfig) : Machine Poll (List TouchEvent) TouchChannel where
  step state poll := state.step config poll.level poll.nowMs

end TouchChannel

namespace TouchInput

/-- The debounce step of the engine is the step of the polled channel. -/
theorem debounce_eq (touch : TouchInput) (channel : ℕ) (level : TouchLevel) (nowMs : Millis) :
    (touch.debounce channel level nowMs).1.channels = Function.update touch.channels channel
        ((touch.channels channel).step touch.config level nowMs).1 ∧
      (touch.debounce channel level nowMs).2 =
        ((touch.channels channel).step touch.config level nowMs).2.map
          (TouchCall.touchEvent channel) := by
  unfold debounce maybeLongPress TouchChannel.step
  split_ifs
  · exact ⟨rfl, rfl⟩
  · exact ⟨rfl, rfl⟩
  · exact ⟨(Function.update_eq_self _ _).symm, rfl⟩
  · refine ⟨rfl, ?_⟩
    cases level <;> rfl
  · exact ⟨(Function.update_eq_self _ _).symm, rfl⟩

theorem eventsOn_append (channel : ℕ) (first second : List TouchCall) :
    eventsOn channel (first ++ second) = eventsOn channel first ++ eventsOn channel second :=
  List.filterMap_append

theorem eventsOn_map (channel other : ℕ) (events : List TouchEvent) :
    eventsOn channel (events.map (TouchCall.touchEvent other)) =
      if other = channel then events else [] := by
  induction events with
  | nil => simp [eventsOn]
  | cons event rest ih =>
    rw [List.map_cons, eventsOn, List.filterMap_cons, ← eventsOn, ih]
    by_cases hsame : other = channel
    · simp [hsame]
    · simp [hsame]

/-- The gesture step reports no touch event. -/
theorem eventsOn_updateResetGesture (touch : TouchInput) (channel : ℕ) (nowMs : Millis) :
    eventsOn channel (touch.updateResetGesture nowMs).2 = [] := by
  rw [eventsOn, List.filterMap_eq_nil_iff]
  intro call hcall
  cases call with
  | touchEvent other event => exact absurd hcall (updateResetGesture_calls _ _ _ _)
  | factoryResetGesture => rfl
  | factoryResetProgress elapsedMs totalMs => rfl

/-- The engine of a profile that `init` accepted: what polls never change. -/
structure Serves (touch : TouchInput) (config : TouchConfig) (channelCount : ℕ) : Prop where
  frame_eq : touch.frame = (config, channelCount, true,
    config.resetChannelA < channelCount && config.resetChannelB < channelCount &&
      config.resetChannelA != config.resetChannelB)

section Serves

variable {touch : TouchInput} {config : TouchConfig} {channelCount : ℕ}

theorem serves_start (hcount : 0 < channelCount ∧ channelCount ≤ kMaxChannels) :
    (start config channelCount).Serves config channelCount := by
  constructor
  unfold start init
  rw [if_neg (by omega)]
  rfl

/-- After `init` every channel is released. -/
theorem start_channels (config : TouchConfig) {channelCount channel : ℕ}
    (hcount : 0 < channelCount ∧ channelCount ≤ kMaxChannels) (hpresent : channel < channelCount) :
    (start config channelCount).channels channel = {} := by
  unfold start init
  rw [if_neg (by omega)]
  exact if_pos (by omega)

theorem Serves.config_eq (hserves : touch.Serves config channelCount) : touch.config = config :=
  congrArg Prod.fst hserves.frame_eq

theorem Serves.count_eq (hserves : touch.Serves config channelCount) :
    touch.count = channelCount :=
  congrArg (fun frame ↦ frame.2.1) hserves.frame_eq

theorem Serves.initialized (hserves : touch.Serves config channelCount) :
    touch.initialized = true :=
  congrArg (fun frame ↦ frame.2.2.1) hserves.frame_eq

theorem Serves.step (hserves : touch.Serves config channelCount) (poll : Poll) :
    (machine.step touch poll).1.Serves config channelCount :=
  ⟨(frame_poll touch _ _ _).trans hserves.frame_eq⟩

theorem Serves.final (hserves : touch.Serves config channelCount) (polls : List Poll) :
    (machine.final touch polls).Serves config channelCount :=
  machine.invariant_rule (fun touch ↦ touch.Serves config channelCount)
    (fun _ poll hserves ↦ hserves.step poll) hserves polls

/-- One poll, for a present channel: its own polls move it by its own step, and other polls leave
it alone. -/
theorem Serves.step_channel (hserves : touch.Serves config channelCount) (poll : Poll)
    {channel : ℕ} (hpresent : channel < channelCount) :
    (machine.step touch poll).1.channels channel =
        (if poll.channel = channel then
          ((touch.channels channel).step config poll.level poll.nowMs).1
        else touch.channels channel) ∧
      eventsOn channel (machine.step touch poll).2 =
        if poll.channel = channel then
          ((touch.channels channel).step config poll.level poll.nowMs).2
        else [] := by
  by_cases hpolled : poll.channel < touch.count
  · have hstep := poll_of_present hserves.initialized hpolled poll.level poll.nowMs
    obtain ⟨hchannels, hcalls⟩ := touch.debounce_eq poll.channel poll.level poll.nowMs
    simp only [machine, hstep, channels_updateResetGesture, eventsOn_append,
      eventsOn_updateResetGesture, List.append_nil, hchannels, hcalls, eventsOn_map,
      hserves.config_eq]
    by_cases hsame : poll.channel = channel
    · simp [hsame]
    · simp [hsame, Function.update_of_ne (Ne.symm hsame)]
  · have habsent : poll.channel ≠ channel := by
      rw [hserves.count_eq] at hpolled
      omega
    have hstep : machine.step touch poll = (touch, []) := by
      simp [machine, TouchInput.poll, hserves.initialized, Nat.le_of_not_lt hpolled]
    rw [hstep, if_neg habsent, if_neg habsent]
    exact ⟨rfl, rfl⟩

/-- A channel is where its own polls bring it. -/
theorem Serves.channels_final (hserves : touch.Serves config channelCount) {channel : ℕ}
    (hpresent : channel < channelCount) (polls : List Poll) :
    (machine.final touch polls).channels channel =
      (TouchChannel.machine config).final (touch.channels channel) (ownPolls channel polls) := by
  refine Machine.final_part (fun touch : TouchInput ↦ touch.Serves config channelCount)
    (fun touch ↦ touch.channels channel) (fun _ poll hserves ↦ hserves.step poll)
    (fun touch poll hserves hown ↦ ?_) (fun touch poll hserves hother ↦ ?_) hserves polls
  · rw [(hserves.step_channel poll hpresent).1, if_pos (of_decide_eq_true hown)]
    rfl
  · rw [(hserves.step_channel poll hpresent).1, if_neg (of_decide_eq_false hother)]

/-- A channel's events are those of its own polls. -/
theorem Serves.events_reports (hserves : touch.Serves config channelCount) {channel : ℕ}
    (hpresent : channel < channelCount) (polls : List Poll) :
    (machine.reports touch polls).flatMap (eventsOn channel) =
      ((TouchChannel.machine config).reports (touch.channels channel)
        (ownPolls channel polls)).flatten := by
  refine Machine.reports_part (fun touch : TouchInput ↦ touch.Serves config channelCount)
    (fun touch ↦ touch.channels channel) (fun _ poll hserves ↦ hserves.step poll)
    (fun touch poll hserves hown ↦ ?_) (fun touch poll hserves hother ↦ ?_) hserves polls
  · obtain ⟨hchannel, hevents⟩ := hserves.step_channel poll hpresent
    rw [if_pos (of_decide_eq_true hown)] at hchannel hevents
    exact ⟨hchannel, hevents⟩
  · obtain ⟨hchannel, hevents⟩ := hserves.step_channel poll hpresent
    rw [if_neg (of_decide_eq_false hother)] at hchannel hevents
    exact ⟨hchannel, hevents⟩

end Serves

end TouchInput

/-! ### What is confirmed -/

/-- Consecutive polls do not go back in time and are less than half a turn of the counter apart. -/
def Timely (own : List Poll) : Prop :=
  own.IsChain fun poll next ↦ poll.time ≤ next.time ∧ next.time < poll.time + 2 ^ 31

/-- All polls from one at least so long ago on read the level. -/
def HeldFor (debounceMs : Millis) (level : TouchLevel) (own : List Poll) (now : ℕ) : Prop :=
  ∃ before earlier after, own = before ++ earlier :: after ∧
    (∀ poll ∈ earlier :: after, poll.level = level) ∧ earlier.time + debounceMs.toNat ≤ now

theorem Timely.of_append {first second : List Poll} (htimely : Timely (first ++ second)) :
    Timely first :=
  List.IsChain.left_of_append htimely

/-- In time, no poll is before an earlier one. -/
theorem Timely.le {before rest : List Poll} {first poll : Poll}
    (htimely : Timely (before ++ first :: rest)) (hpoll : poll ∈ rest) :
    first.time ≤ poll.time := by
  have hchain : (first :: rest).IsChain fun poll next ↦ poll.time ≤ next.time :=
    (List.IsChain.right_of_append htimely).imp fun _ _ h ↦ h.1
  have hsorted := List.isChain_iff_pairwise.mp ((List.isChain_map Poll.time).mpr hchain)
  exact List.rel_of_pairwise_cons hsorted (List.mem_map_of_mem hpoll)

namespace TouchChannel

/-- The run of readings at the end that contradict the confirmed level. -/
def opposing (stable : TouchLevel) (own : List Poll) : List Poll :=
  own.rtakeWhile fun poll ↦ poll.level ≠ stable

/-- Where a channel stands behind its own polls: nothing is pending, or a run of contradicting
readings is, timed from its first poll and too short so far. -/
def Pending (debounceMs : Millis) (own : List Poll) (state : TouchChannel) : Prop :=
  match opposing state.stable own with
  | [] => state.candidate = state.stable
  | first :: rest => state.candidate ≠ state.stable ∧ state.since = first.nowMs ∧
      ∀ poll ∈ rest, poll.time < first.time + debounceMs.toNat

theorem opposing_concat_eq {stable : TouchLevel} {poll : Poll} (own : List Poll)
    (hlevel : poll.level = stable) : opposing stable (own ++ [poll]) = [] :=
  List.rtakeWhile_concat_neg _ _ _ (by simp [hlevel])

theorem opposing_concat_ne {stable : TouchLevel} {poll : Poll} (own : List Poll)
    (hlevel : poll.level ≠ stable) :
    opposing stable (own ++ [poll]) = opposing stable own ++ [poll] :=
  List.rtakeWhile_concat_pos _ _ _ (by simp [hlevel])

/-- There are two levels. -/
theorem level_eq_of_ne {first second third : TouchLevel} (hfirst : first ≠ third)
    (hsecond : second ≠ third) : first = second := by
  cases first <;> cases second <;> cases third <;> simp_all

/-- The run of contradicting readings is as old as the counter says. -/
theorem elapsed_opposing {debounceMs : Millis} (hdebounce : debounceMs.toNat ≤ 2 ^ 31)
    {own before rest : List Poll} {first poll : Poll} (hown : own = before ++ first :: rest)
    (hshort : ∀ other ∈ rest, other.time < first.time + debounceMs.toNat)
    (htimely : Timely (own ++ [poll])) :
    debounceMs ≤ TouchInput.elapsed poll.nowMs first.nowMs ↔
      first.time + debounceMs.toNat ≤ poll.time := by
  rw [hown, List.append_assoc, List.cons_append] at htimely
  refine TouchInput.le_elapsed_iff (htimely.le (by simp)) ?_
  have hrun : Timely ((first :: rest) ++ [poll]) := List.IsChain.right_of_append htimely
  have hlast := (List.isChain_append.mp hrun).2.2 _
    (List.getLast_mem_getLast? (List.cons_ne_nil _ _))
    poll rfl
  rcases List.mem_cons.mp (List.getLast_mem (List.cons_ne_nil first rest)) with heq | hmem
  · rw [heq] at hlast
    omega
  · have := hshort _ hmem
    omega

/-- A contradicting reading is confirmed exactly if it was held for the debounce time. -/
theorem Pending.due_iff {debounceMs : Millis} (hdebounce : debounceMs.toNat ≤ 2 ^ 31)
    {own : List Poll} {state : TouchChannel} (hpending : Pending debounceMs own state) {poll : Poll}
    (htimely : Timely (own ++ [poll])) (hlevel : poll.level ≠ state.stable) :
    (poll.level = state.candidate ∧ debounceMs ≤ TouchInput.elapsed poll.nowMs state.since) ↔
      HeldFor debounceMs poll.level own poll.time := by
  obtain ⟨before, hown⟩ := exists_eq_append_rtakeWhile (fun poll ↦ poll.level ≠ state.stable) own
  rw [Pending] at hpending
  rw [← opposing] at hown
  constructor
  · rintro ⟨hcandidate, hdue⟩
    cases hrun : opposing state.stable own with
    | nil =>
      rw [hrun] at hpending
      exact absurd (hcandidate.trans hpending) hlevel
    | cons first rest =>
      rw [hrun] at hpending hown
      obtain ⟨-, hsince, hshort⟩ := hpending
      rw [hsince, elapsed_opposing hdebounce hown hshort htimely] at hdue
      refine ⟨before, first, rest, hown, fun other hother ↦ ?_, hdue⟩
      have hmem : other ∈ opposing state.stable own := hrun ▸ hother
      exact level_eq_of_ne (by simpa using List.mem_rtakeWhile_imp hmem) hlevel
  · rintro ⟨skipped, earlier, after, hsplit, hlevels, hdue⟩
    have hrun : opposing state.stable own =
        opposing state.stable skipped ++ earlier :: after := by
      rw [hsplit]
      exact rtakeWhile_append _ fun other hother ↦ by simpa [hlevels other hother] using hlevel
    cases hstart : opposing state.stable own with
    | nil =>
      rw [hstart] at hrun
      exact absurd hrun (by simp)
    | cons first rest =>
      rw [hstart] at hpending hown hrun
      obtain ⟨hcandidate, hsince, hshort⟩ := hpending
      refine ⟨level_eq_of_ne hlevel hcandidate, ?_⟩
      rw [hsince, elapsed_opposing hdebounce hown hshort htimely]
      have hmem : earlier ∈ first :: rest := by
        rw [hrun]
        simp
      rcases List.mem_cons.mp hmem with rfl | hlater
      · exact hdue
      · exact (Nat.add_le_add_right (((hown ▸ htimely.of_append).le) hlater) _).trans hdue

/-- A step confirms a contradicting reading that is due, and no other. -/
theorem stable_step (config : TouchConfig) (state : TouchChannel) (level : TouchLevel)
    (nowMs : Millis) : (state.step config level nowMs).1.stable =
      if level ≠ state.stable ∧ level = state.candidate ∧
        config.debounceMs ≤ TouchInput.elapsed nowMs state.since then level else state.stable := by
  by_cases hcandidate : level = state.candidate
  · by_cases hlevel : level = state.stable
    · obtain ⟨fired, events, hstep, -⟩ := step_of_stable config nowMs hcandidate hlevel
      rw [hstep, if_neg fun hconfirms ↦ hconfirms.1 hlevel]
    · by_cases hdue : config.debounceMs ≤ TouchInput.elapsed nowMs state.since
      · rw [step_of_due config nowMs hcandidate hlevel hdue, if_pos ⟨hlevel, hcandidate, hdue⟩]
      · rw [step_of_not_due config nowMs hcandidate hlevel hdue,
          if_neg fun hconfirms ↦ hdue hconfirms.2.2]
  · rw [step_of_ne config nowMs hcandidate, if_neg fun hconfirms ↦ hcandidate hconfirms.2.1]

/-- After a step, the candidate is the level it read. -/
theorem candidate_step (config : TouchConfig) (state : TouchChannel) (level : TouchLevel)
    (nowMs : Millis) : (state.step config level nowMs).1.candidate = level := by
  by_cases hcandidate : level = state.candidate
  · by_cases hlevel : level = state.stable
    · obtain ⟨fired, events, hstep, -⟩ := step_of_stable config nowMs hcandidate hlevel
      rw [hstep, hcandidate]
    · by_cases hdue : config.debounceMs ≤ TouchInput.elapsed nowMs state.since
      · rw [step_of_due config nowMs hcandidate hlevel hdue, hcandidate]
      · rw [step_of_not_due config nowMs hcandidate hlevel hdue, hcandidate]
  · rw [step_of_ne config nowMs hcandidate]

/-- A level is confirmed at a poll exactly if it was read for the debounce time. -/
theorem Pending.becomes_iff {config : TouchConfig} (hdebounce : config.debounceMs.toNat ≤ 2 ^ 31)
    {own : List Poll} {state : TouchChannel} (hpending : Pending config.debounceMs own state)
    {poll : Poll} (htimely : Timely (own ++ [poll])) {level : TouchLevel}
    (hnot : state.stable ≠ level) :
    (state.step config poll.level poll.nowMs).1.stable = level ↔
      poll.level = level ∧ HeldFor config.debounceMs level own poll.time := by
  rw [stable_step]
  by_cases hlevel : poll.level = state.stable
  · rw [if_neg fun hdue ↦ hdue.1 hlevel]
    exact ⟨fun heq ↦ absurd heq hnot, fun hread ↦ absurd (hlevel.symm.trans hread.1) hnot⟩
  · obtain rfl : poll.level = level := level_eq_of_ne hlevel (Ne.symm hnot)
    have hdue := hpending.due_iff hdebounce htimely hlevel
    by_cases hheld : HeldFor config.debounceMs poll.level own poll.time
    · rw [if_pos ⟨hlevel, hdue.mpr hheld⟩]
      exact ⟨fun _ ↦ ⟨rfl, hheld⟩, fun _ ↦ rfl⟩
    · rw [if_neg fun hconfirms ↦ hheld (hdue.mp hconfirms.2)]
      exact ⟨fun heq ↦ absurd heq hnot, fun hread ↦ absurd hread.2 hheld⟩

/-- After a step that confirms nothing new, the channel waits as long as the reading contradicts. -/
theorem Pending.step {config : TouchConfig} (hdebounce : config.debounceMs.toNat ≤ 2 ^ 31)
    {own : List Poll} {state : TouchChannel} (hpending : Pending config.debounceMs own state)
    {poll : Poll} (htimely : Timely (own ++ [poll])) :
    Pending config.debounceMs (own ++ [poll]) (state.step config poll.level poll.nowMs).1 := by
  by_cases hlevel : poll.level = state.stable
  · -- A reading of the confirmed level ends whatever was pending.
    have hstable : (state.step config poll.level poll.nowMs).1.stable = poll.level := by
      rw [stable_step, if_neg (by simp [hlevel]), hlevel]
    rw [Pending, opposing_concat_eq own hstable.symm, hstable]
    exact candidate_step config state poll.level poll.nowMs
  · have hopposing := opposing_concat_ne own hlevel
    rw [Pending] at hpending
    by_cases hcandidate : poll.level = state.candidate
    · by_cases hdue : config.debounceMs ≤ TouchInput.elapsed poll.nowMs state.since
      · rw [step_of_due config poll.nowMs hcandidate hlevel hdue, Pending,
          opposing_concat_eq own rfl]
        exact hcandidate.symm
      · rw [step_of_not_due config poll.nowMs hcandidate hlevel hdue, Pending, hopposing]
        cases hrun : opposing state.stable own with
        | nil =>
          rw [hrun] at hpending
          exact absurd (hcandidate.trans hpending) hlevel
        | cons first rest =>
          rw [hrun] at hpending
          obtain ⟨hne, hsince, hshort⟩ := hpending
          obtain ⟨before, hown⟩ :=
            exists_eq_append_rtakeWhile (fun poll ↦ poll.level ≠ state.stable) own
          rw [← opposing, hrun] at hown
          refine ⟨hne, hsince, fun other hother ↦ ?_⟩
          rcases List.mem_append.mp hother with hrest | hlast
          · exact hshort other hrest
          · rw [List.mem_singleton.mp hlast]
            rw [hsince, elapsed_opposing hdebounce hown hshort htimely] at hdue
            exact not_le.mp hdue
    · -- The first contradicting reading starts the window.
      rw [step_of_ne config poll.nowMs hcandidate, Pending, hopposing]
      cases hrun : opposing state.stable own with
      | nil => exact ⟨hlevel, rfl, by simp⟩
      | cons first rest =>
        rw [hrun] at hpending
        exact absurd (level_eq_of_ne hlevel hpending.1) hcandidate

theorem pending_new (debounceMs : Millis) : Pending debounceMs [] {} := by
  rw [Pending, opposing, List.rtakeWhile_nil]

/-- Where a channel stands behind its own polls, from the start. -/
theorem pending_final (config : TouchConfig) (hdebounce : config.debounceMs.toNat ≤ 2 ^ 31)
    (own : List Poll) (htimely : Timely own) :
    Pending config.debounceMs own ((machine config).final {} own) :=
  (machine config).history_rule Timely (Pending config.debounceMs)
    (fun _ _ htimely ↦ htimely.of_append) (pending_new _)
    (fun _ _ htimely hpending ↦ hpending.step hdebounce htimely) own htimely

/-! ### The events of a channel -/

/-- A press, with or without its long press. -/
def press (long : Bool) : List TouchEvent :=
  if long then [.pressed, .longPress] else [.pressed]

/-- Presses that were released, then one that may still be held. -/
def Cycles (events : List TouchEvent) (held : Option Bool) : Prop :=
  ∃ finished : List Bool,
    events = (finished.flatMap fun long ↦ press long ++ [.released]) ++ held.elim [] press

/-- The press that a channel is in, with whether its long press was reported. -/
def held (state : TouchChannel) : Option Bool :=
  if state.stable = .pressed then some state.longFired else none

/-- A step goes on with the cycle of presses and releases. -/
theorem cycles_step (config : TouchConfig) {state : TouchChannel} {events : List TouchEvent}
    (hcycles : Cycles events state.held) (level : TouchLevel) (nowMs : Millis) :
    Cycles (events ++ (state.step config level nowMs).2)
      (state.step config level nowMs).1.held := by
  obtain ⟨finished, rfl⟩ := hcycles
  unfold step
  split_ifs with hcandidate hstable hlong hdue
  · exact ⟨finished, List.append_nil _⟩
  · obtain ⟨hpressed, hfired, -⟩ := hlong
    refine ⟨finished, ?_⟩
    simp [held, hpressed, hfired, press]
  · exact ⟨finished, List.append_nil _⟩
  · cases level with
    | pressed =>
      refine ⟨finished, ?_⟩
      simp [held, Ne.symm hstable, press, TouchLevel.event]
    | released =>
      have hpressed : state.stable = .pressed := by
        cases hlevel : state.stable with
        | released => exact absurd hlevel.symm hstable
        | pressed => rfl
      refine ⟨finished ++ [state.longFired], ?_⟩
      simp [held, hpressed, TouchLevel.event, List.append_assoc]
  · exact ⟨finished, List.append_nil _⟩

theorem cycles_reports (config : TouchConfig) (own : List Poll) :
    Cycles ((machine config).reports {} own).flatten ((machine config).final {} own).held := by
  induction own using List.reverseRecOn with
  | nil => exact ⟨[], rfl⟩
  | append_singleton own poll ih =>
    rw [Machine.reports_concat, Machine.final_concat, List.flatten_append, List.flatten_singleton]
    exact cycles_step config ih poll.level poll.nowMs

/-- A change of the confirmed level is reported once, and nothing else is reported as one. -/
theorem events_step (config : TouchConfig) (state : TouchChannel) (level : TouchLevel)
    (nowMs : Millis) : (state.step config level nowMs).2.filter (· ≠ .longPress) =
      if (state.step config level nowMs).1.stable = state.stable then []
      else [(state.step config level nowMs).1.stable.event] := by
  by_cases hcandidate : level = state.candidate
  · by_cases hstable : level = state.stable
    · obtain ⟨fired, events, hstep, rfl | rfl⟩ :=
        step_of_stable config nowMs hcandidate hstable
      · rw [hstep, if_pos rfl]
        rfl
      · rw [hstep, if_pos rfl]
        rfl
    · by_cases hdue : config.debounceMs ≤ TouchInput.elapsed nowMs state.since
      · have hevent : level.event ≠ .longPress := by cases level <;> decide
        rw [step_of_due config nowMs hcandidate hstable hdue, if_neg hstable]
        exact List.filter_cons_of_pos (decide_eq_true hevent)
      · rw [step_of_not_due config nowMs hcandidate hstable hdue, if_pos rfl]
        rfl
  · rw [step_of_ne config nowMs hcandidate, if_pos rfl]
    rfl

end TouchChannel

namespace TouchInput

open TouchChannel

/-- One more poll appends the poll to those of its channel. -/
theorem ownPolls_concat (channel : ℕ) (polls : List Poll) (poll : Poll) :
    ownPolls channel (polls ++ [poll]) =
      if poll.channel = channel then ownPolls channel polls ++ [poll]
      else ownPolls channel polls := by
  rw [ownPolls, List.filter_append, ← ownPolls]
  by_cases hown : poll.channel = channel
  · simp [hown]
  · simp [hown]

/-- The specification of the debounce step, for a channel of any profile and any polls of any
channels. A level is confirmed at a poll exactly if the poll and all polls of the channel since
one at least `debounceMs` earlier read it. A confirmation is reported once. The reports of a
channel are cycles of a press, at most one long press, and a release, and they depend on nothing
but the polls of the channel. -/
theorem debounce_spec (config : TouchConfig) (hdebounce : config.debounceMs.toNat ≤ 2 ^ 31)
    {channelCount channel : ℕ} (hcount : 0 < channelCount ∧ channelCount ≤ kMaxChannels)
    (hpresent : channel < channelCount) (polls : List Poll) (poll : Poll)
    (htimely : Timely (ownPolls channel (polls ++ [poll]))) (level : TouchLevel) :
    ((stableAfter (start config channelCount) polls channel ≠ level ∧
        stableAfter (start config channelCount) (polls ++ [poll]) channel = level) ↔
      stableAfter (start config channelCount) polls channel ≠ level ∧ poll.channel = channel ∧
        poll.level = level ∧
        HeldFor config.debounceMs level (ownPolls channel polls) poll.time) ∧
    (eventsOn channel
        (machine.step (machine.final (start config channelCount) polls) poll).2).filter
          (· ≠ .longPress) =
      (if stableAfter (start config channelCount) (polls ++ [poll]) channel =
          stableAfter (start config channelCount) polls channel then []
        else [(stableAfter (start config channelCount) (polls ++ [poll]) channel).event]) ∧
    (∃ held, Cycles ((machine.reports (start config channelCount) (polls ++ [poll])).flatMap
      (eventsOn channel)) held) ∧
    ∀ others, ownPolls channel others = ownPolls channel polls →
      (machine.reports (start config channelCount) others).flatMap (eventsOn channel) =
        (machine.reports (start config channelCount) polls).flatMap (eventsOn channel) := by
  have hserves : (start config channelCount).Serves config channelCount := serves_start hcount
  have hnew := start_channels config hcount hpresent
  have hchannel := hserves.channels_final hpresent
  obtain ⟨hstep, hevents⟩ := (hserves.final polls).step_channel poll hpresent
  rw [← Machine.final_concat] at hstep
  refine ⟨?_, ?_, ?_, fun others hsame ↦ ?_⟩
  · rw [stableAfter, stableAfter, hstep]
    refine and_congr_right fun hnot ↦ ?_
    rw [ownPolls_concat] at htimely
    by_cases hown : poll.channel = channel
    · rw [if_pos hown] at htimely ⊢
      rw [hchannel, hnew] at hnot
      rw [hchannel, hnew, and_iff_right hown]
      exact (pending_final config hdebounce _ htimely.of_append).becomes_iff hdebounce htimely hnot
    · rw [if_neg hown]
      exact ⟨fun heq ↦ absurd heq hnot, fun hconfirmed ↦ absurd hconfirmed.1 hown⟩
  · rw [stableAfter, stableAfter, hstep, hevents]
    by_cases hown : poll.channel = channel
    · rw [if_pos hown, if_pos hown]
      exact events_step config _ _ _
    · rw [if_neg hown, if_neg hown, if_pos rfl]
      rfl
  · rw [hserves.events_reports hpresent, hnew]
    exact ⟨_, cycles_reports config _⟩
  · rw [hserves.events_reports hpresent, hserves.events_reports hpresent, hsame]

/-- A press that bounces, shortly before the counter wraps. -/
def bouncingPress : List Poll :=
  [⟨0, .pressed, 4294967200⟩, ⟨1, .pressed, 4294967200⟩, ⟨0, .released, 4294967220⟩,
    ⟨0, .pressed, 4294967280⟩, ⟨1, .released, 4294967280⟩]

theorem debounce_spec_witness :
    stableAfter (start {} 2) bouncingPress 0 ≠ .pressed ∧
      stableAfter (start {} 2) (bouncingPress ++ [⟨0, .pressed, 4294967310⟩]) 0 = .pressed := by
  have hspec := debounce_spec {} (by decide) (by decide : 0 < 2 ∧ 2 ≤ kMaxChannels)
    (by decide : 0 < 2) bouncingPress ⟨0, .pressed, 4294967310⟩ (by unfold Timely; decide) .pressed
  refine hspec.1.mpr ⟨by decide, rfl, rfl, ?_⟩
  exact ⟨[⟨0, .pressed, 4294967200⟩, ⟨0, .released, 4294967220⟩], ⟨0, .pressed, 4294967280⟩, [],
    rfl, by decide, by decide⟩

end TouchInput

end LibreSwitch.Domain
