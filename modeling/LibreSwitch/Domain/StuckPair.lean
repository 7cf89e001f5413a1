import Mathlib.Tactic
import LibreSwitch.Domain.ResetGesture

/-!
# A pair that is pressed from boot

`GpioTouchSource::scan` polls all channels in index order, at one time. This module is about runs of
scans in which the reset pair reads pressed from the first one on. The source means to ignore such
a press, since it is never seen released. But the two channels are confirmed one after the other
within a scan: between the two the pair is not held, and if the settle time has passed by then, that
moment is taken for a released pair. `stuckPair_iff` says exactly in which runs this happens.
-/

set_option autoImplicit false
set_option relaxedAutoImplicit false

namespace LibreSwitch.Domain

open LibreSwitch.Library

/-! ### Runs in which the pair becomes held once -/

/-- Some moment completes a hold behind the baseline, by the counter. -/
def Completes (config : TouchConfig) (moments : List Moment) : Prop :=
  ∃ past moment later, moments = past ++ moment :: later ∧ Settled past ∧ moment.held = true ∧
    ∃ first since, holding past = first :: since ∧
      config.factoryHoldMs ≤ TouchInput.elapsed moment.nowMs first.nowMs

/-- The gesture is emitted in a run exactly if some moment completes a hold. -/
theorem Traced.emitted_iff {config : TouchConfig} {moments : List Moment} {after : Gesture}
    (htraced : Traced config moments after) : Emitted moments ↔ Completes config moments := by
  constructor
  · rintro ⟨moment, hmoment, hcall⟩
    obtain ⟨past, later, rfl⟩ := List.append_of_mem hmoment
    obtain ⟨state, hpast, hcalls⟩ := htraced.of_append
    rw [gesture_mem_calls hcalls, (Gesture.tracks hpast).gesture_iff] at hcall
    obtain ⟨hsettled, hheld, first, since, hholding, -, hdue⟩ := hcall
    exact ⟨past, moment, later, rfl, hsettled, hheld, first, since, hholding, hdue⟩
  · rintro ⟨past, moment, later, rfl, hsettled, hheld, first, since, hholding, hdue⟩
    by_cases hemitted : Emitted (first :: since)
    · obtain ⟨earlier, hearlier, hcall⟩ := hemitted
      rw [← hholding] at hearlier
      exact ⟨earlier, List.mem_append_left _ (mem_of_mem_holding hearlier), hcall⟩
    · obtain ⟨state, hpast, hcalls⟩ := htraced.of_append
      refine ⟨moment, List.mem_append_right _ List.mem_cons_self, ?_⟩
      rw [gesture_mem_calls hcalls, (Gesture.tracks hpast).gesture_iff]
      exact ⟨hsettled, hheld, first, since, hholding, hemitted, hdue⟩

/-- Moments in which the pair is held do not show the baseline. -/
theorem settled_append_held (past : List Moment) {held : List Moment}
    (hheld : ∀ moment ∈ held, moment.held = true) : Settled (past ++ held) ↔ Settled past := by
  induction held using List.reverseRecOn with
  | nil => rw [List.append_nil]
  | append_singleton held moment ih =>
    have hnow := hheld moment (by simp)
    rw [← List.append_assoc, settled_concat,
      ih fun other hother ↦ hheld other (List.mem_append_left _ hother)]
    simp [hnow]

theorem holding_append {past held : List Moment} (hpast : ∀ moment ∈ past, moment.held = false)
    (hheld : ∀ moment ∈ held, moment.held = true) : holding (past ++ held) = held := by
  have hnone : past.rtakeWhile Moment.held = [] := by
    rw [List.rtakeWhile_eq_nil_iff]
    intro hne
    simp [hpast _ (List.getLast_mem hne)]
  rw [holding, rtakeWhile_append _ hheld, hnone, List.nil_append]

/-- If the pair is not held at first and held from some moment on, that moment starts the hold. -/
theorem completes_append (config : TouchConfig) {past held : List Moment}
    (hpast : ∀ moment ∈ past, moment.held = false) (hheld : ∀ moment ∈ held, moment.held = true) :
    Completes config (past ++ held) ↔ Settled past ∧ ∃ first rest, held = first :: rest ∧
      ∃ moment ∈ rest, config.factoryHoldMs ≤ TouchInput.elapsed moment.nowMs first.nowMs := by
  constructor
  · rintro ⟨before, moment, later, hsplit, hsettled, hmoment, first, since, hholding, hdue⟩
    obtain ⟨run, rfl, hrun⟩ : ∃ run, before = past ++ run ∧ held = run ++ moment :: later := by
      rcases List.append_eq_append_iff.mp hsplit with ⟨run, hbefore, hrest⟩ | ⟨run, hrest, hafter⟩
      · exact ⟨run, hbefore, hrest⟩
      · cases run with
        | nil => exact ⟨[], by simpa using hrest.symm, by simpa using hafter.symm⟩
        | cons other run =>
          obtain ⟨rfl, -⟩ := List.cons.inj hafter
          have := hpast moment (by simp [hrest])
          simp [hmoment] at this
    have hrunHeld : ∀ other ∈ run, other.held = true := fun other hother ↦
      hheld other (by rw [hrun]; exact List.mem_append_left _ hother)
    rw [settled_append_held past hrunHeld] at hsettled
    rw [holding_append hpast hrunHeld] at hholding
    subst hholding
    exact ⟨hsettled, first, since ++ moment :: later, hrun, moment, by simp, hdue⟩
  · rintro ⟨hsettled, first, rest, rfl, moment, hmoment, hdue⟩
    obtain ⟨since, later, rfl⟩ := List.append_of_mem hmoment
    have hrunHeld : ∀ other ∈ first :: since, other.held = true := by
      intro other hother
      refine hheld other ?_
      rw [← List.cons_append]
      exact List.mem_append_left _ hother
    refine ⟨past ++ first :: since, moment, later, by simp, ?_, hheld moment (by simp),
      first, since,
      holding_append hpast hrunHeld, hdue⟩
    exact (settled_append_held past hrunHeld).mpr hsettled

/-! ### The settle window in a run of scans -/

/-- Some of the times comes at least the settle time after the first evaluation. -/
def SettlesIn (times : List Millis) : Prop :=
  ∃ earlier nowMs, earlier ++ [nowMs] <+: times ∧
    kResetArmSettleMs ≤ TouchInput.elapsed nowMs (firstMs (earlier ++ [nowMs]))

theorem settlesIn_concat (times : List Millis) (nowMs : Millis) :
    SettlesIn (times ++ [nowMs]) ↔ SettlesIn times ∨
      kResetArmSettleMs ≤ TouchInput.elapsed nowMs (firstMs (times ++ [nowMs])) := by
  constructor
  · rintro ⟨earlier, other, hstarts, hsettled⟩
    rcases List.prefix_concat_iff.mp hstarts with heq | hbefore
    · rw [heq] at hsettled
      obtain rfl := List.singleton_inj.mp (List.append_inj' heq rfl).2
      exact .inr hsettled
    · exact .inl ⟨earlier, other, hbefore, hsettled⟩
  · rintro (⟨earlier, other, hstarts, hsettled⟩ | hsettled)
    · exact ⟨earlier, other, hstarts.trans (List.prefix_append _ _), hsettled⟩
    · exact ⟨times, nowMs, List.prefix_rfl, hsettled⟩

theorem settled_iff_settlesIn {past : List Moment} (hpast : ∀ moment ∈ past, moment.held = false) :
    Settled past ↔ SettlesIn (past.map Moment.nowMs) := by
  induction past using List.reverseRecOn with
  | nil => simp [Settled, SettlesIn]
  | append_singleton past moment ih =>
    have hnow := hpast moment (by simp)
    rw [settled_concat, ih fun other hother ↦ hpast other (List.mem_append_left _ hother),
      List.map_append, List.map_singleton, settlesIn_concat, and_iff_right hnow]

/-- Evaluating a time again does not change what is kept of it. -/
theorem repeat_last (times : List Millis) (nowMs : Millis) (count : ℕ) :
    firstMs (times ++ List.replicate (count + 1) nowMs) = firstMs (times ++ [nowMs]) ∧
      (SettlesIn (times ++ List.replicate (count + 1) nowMs) ↔ SettlesIn (times ++ [nowMs])) := by
  induction count with
  | zero => exact ⟨rfl, Iff.rfl⟩
  | succ count ih =>
    have hfirst : firstMs (times ++ List.replicate (count + 1 + 1) nowMs) =
        firstMs (times ++ [nowMs]) := by
      rw [List.replicate_succ', ← List.append_assoc, firstMs_concat, ih.1, firstMs_concat]
      split_ifs <;> simp_all
    refine ⟨hfirst, ?_⟩
    rw [List.replicate_succ', ← List.append_assoc, settlesIn_concat, ih.2,
      List.append_assoc, ← List.replicate_succ', hfirst, settlesIn_concat, or_assoc, or_self]

/-- The times of a run of scans of several channels. -/
def repeated (count : ℕ) (times : List Millis) : List Millis :=
  times.flatMap (List.replicate count)

theorem repeated_spec (count : ℕ) (times : List Millis) :
    firstMs (repeated (count + 1) times) = firstMs times ∧
      (SettlesIn (repeated (count + 1) times) ↔ SettlesIn times) := by
  induction times using List.reverseRecOn with
  | nil => exact ⟨rfl, Iff.rfl⟩
  | append_singleton times nowMs ih =>
    have hsplit : repeated (count + 1) (times ++ [nowMs]) =
        repeated (count + 1) times ++ List.replicate (count + 1) nowMs := by
      simp [repeated]
    obtain ⟨hfirst, hsettles⟩ := repeat_last (repeated (count + 1) times) nowMs count
    have hfirst' : firstMs (repeated (count + 1) times ++ [nowMs]) =
        firstMs (times ++ [nowMs]) := by
      rw [firstMs_concat, firstMs_concat, ih.1]
    rw [hsplit, hfirst, hsettles, settlesIn_concat, settlesIn_concat, ih.2, hfirst']
    exact ⟨rfl, Iff.rfl⟩

/-! ### Scans -/

/-- One scan of the pads: its true time and what each channel reads. -/
structure Scan where
  time : ℕ
  level : ℕ → TouchLevel

/-- The millisecond counter at a scan. -/
def Scan.nowMs (scan : Scan) : Millis := UInt32.ofNat scan.time

/-- The polls of a scan, in index order. -/
def Scan.polls (channelCount : ℕ) (scan : Scan) : List Poll :=
  (List.range channelCount).map fun channel ↦ ⟨channel, scan.level channel, scan.time⟩

/-- The channels of the reset pair read pressed. -/
def Scan.PairPressed (scan : Scan) : Prop := scan.level 0 = .pressed ∧ scan.level 1 = .pressed

/-- What a moment shows of the pair. -/
def Moment.sight (moment : Moment) : Millis × Bool := (moment.nowMs, moment.held)

namespace TouchInput

variable {touch : TouchInput} {channelCount : ℕ} {state : TouchChannel}

/-- The engine of a profile with both channels of the pair in one state. -/
structure Paired (touch : TouchInput) (channelCount : ℕ) (state : TouchChannel) : Prop where
  serves : touch.Serves {} channelCount
  two_le : 2 ≤ channelCount
  first : touch.channels 0 = state
  second : touch.channels 1 = state

theorem Serves.bothHeld_default (hserves : touch.Serves {} channelCount) :
    touch.bothHeld = (decide ((touch.channels 0).stable = .pressed) &&
      decide ((touch.channels 1).stable = .pressed)) := by
  rw [TouchInput.bothHeld, isStablePressed, isStablePressed, hserves.config_eq]

theorem Paired.bothHeld (hpaired : touch.Paired channelCount state) :
    touch.bothHeld = decide (state.stable = .pressed) := by
  rw [hpaired.serves.bothHeld_default, hpaired.first, hpaired.second, Bool.and_self]

/-- Polls of other channels leave the pair alone. -/
theorem Paired.others (hpaired : touch.Paired channelCount state) {polls : List Poll}
    (hothers : ∀ poll ∈ polls, 2 ≤ poll.channel) :
    (machine.final touch polls).Paired channelCount state ∧
      (touch.history polls).map Moment.sight =
        polls.map fun poll ↦ (poll.nowMs, decide (state.stable = .pressed)) := by
  induction polls generalizing touch with
  | nil => exact ⟨hpaired, rfl⟩
  | cons poll rest ih =>
    have hother := hothers poll List.mem_cons_self
    have htwo := hpaired.two_le
    have hfirst := (hpaired.serves.step_channel poll (by omega : 0 < channelCount)).1
    have hsecond := (hpaired.serves.step_channel poll (by omega : 1 < channelCount)).1
    rw [if_neg (by omega), hpaired.first] at hfirst
    rw [if_neg (by omega), hpaired.second] at hsecond
    have hnext : (machine.step touch poll).1.Paired channelCount state :=
      ⟨hpaired.serves.step poll, htwo, hfirst, hsecond⟩
    obtain ⟨hfinal, hsights⟩ := ih hnext fun other hmem ↦
      hothers other (List.mem_cons_of_mem _ hmem)
    refine ⟨hfinal, ?_⟩
    rw [history, Machine.reports_cons, List.map_cons, List.map_cons]
    exact congrArg₂ List.cons (congrArg (Prod.mk poll.nowMs) hnext.bothHeld) hsights

/-- A scan in which the pair reads pressed moves both channels of it, one after the other: the pair
is held behind the first poll if it was held before, and behind the others if it is now. -/
theorem Paired.scan (hpaired : touch.Paired channelCount state) {scan : Scan}
    (hpressed : scan.PairPressed) {next : TouchChannel}
    (hnext : (state.step {} .pressed scan.nowMs).1 = next)
    (hkeeps : state.stable = .pressed → next.stable = .pressed) :
    (machine.final touch (scan.polls channelCount)).Paired channelCount next ∧
      (touch.history (scan.polls channelCount)).map Moment.sight =
        (scan.nowMs, decide (state.stable = .pressed)) ::
          List.replicate (channelCount - 1) (scan.nowMs, decide (next.stable = .pressed)) := by
  obtain ⟨count, rfl⟩ := Nat.exists_eq_add_of_le' hpaired.two_le
  obtain ⟨others, hothers⟩ : ∃ others : List Poll, ((List.range count).map fun channel ↦
      ⟨channel + 2, scan.level (channel + 2), scan.time⟩) = others := ⟨_, rfl⟩
  have hpolls : scan.polls (count + 2) =
      ⟨0, .pressed, scan.time⟩ :: ⟨1, .pressed, scan.time⟩ :: others := by
    simp [Scan.polls, List.range_succ_eq_map, hpressed.1, hpressed.2, Function.comp_def, ← hothers]
  obtain ⟨between, hbetween⟩ : ∃ between,
      (machine.step touch ⟨0, .pressed, scan.time⟩).1 = between := ⟨_, rfl⟩
  have hserves : between.Serves {} (count + 2) := by
    rw [← hbetween]
    exact hpaired.serves.step _
  have hfirst := (hpaired.serves.step_channel ⟨0, .pressed, scan.time⟩
    (by omega : 0 < count + 2)).1
  have hsecond := (hpaired.serves.step_channel ⟨0, .pressed, scan.time⟩
    (by omega : 1 < count + 2)).1
  rw [hbetween, if_pos rfl, hpaired.first, Poll.nowMs, ← Scan.nowMs, hnext] at hfirst
  rw [hbetween, if_neg Nat.zero_ne_one, hpaired.second] at hsecond
  have hfirst' := (hserves.step_channel ⟨1, .pressed, scan.time⟩ (by omega : 0 < count + 2)).1
  have hsecond' := (hserves.step_channel ⟨1, .pressed, scan.time⟩ (by omega : 1 < count + 2)).1
  rw [if_neg Nat.one_ne_zero, hfirst] at hfirst'
  rw [if_pos rfl, hsecond, Poll.nowMs, ← Scan.nowMs, hnext] at hsecond'
  have hafter : (machine.step between ⟨1, .pressed, scan.time⟩).1.Paired (count + 2) next :=
    ⟨hserves.step _, hpaired.two_le, hfirst', hsecond'⟩
  have hheld : between.bothHeld = decide (state.stable = .pressed) := by
    rw [hserves.bothHeld_default, hfirst, hsecond]
    by_cases hstable : state.stable = .pressed
    · simp [hstable, hkeeps hstable]
    · simp [hstable]
  have htwo : ∀ poll ∈ others, 2 ≤ poll.channel := by simp [← hothers]
  have hrest (held : Bool) : (others.map fun poll ↦ (poll.nowMs, held)) =
      List.replicate count (scan.nowMs, held) := by
    have hsame : (others.map fun poll ↦ (poll.nowMs, held)) =
        (List.range count).map fun _ ↦ (scan.nowMs, held) := by
      rw [← hothers]
      exact List.map_map
    rw [hsame, List.map_const', List.length_range]
  obtain ⟨hfinal, hsights⟩ := hafter.others htwo
  have hmoments : touch.history (⟨0, .pressed, scan.time⟩ :: ⟨1, .pressed, scan.time⟩ :: others) =
      (watched.step touch ⟨0, .pressed, scan.time⟩).2 ::
        (watched.step between ⟨1, .pressed, scan.time⟩).2 ::
          (machine.step between ⟨1, .pressed, scan.time⟩).1.history others := by
    rw [← hbetween]
    rfl
  have hsight : (watched.step touch ⟨0, .pressed, scan.time⟩).2.sight =
      (scan.nowMs, decide (state.stable = .pressed)) := by
    rw [← hheld, ← hbetween]
    rfl
  have hsight' : (watched.step between ⟨1, .pressed, scan.time⟩).2.sight =
      (scan.nowMs, decide (next.stable = .pressed)) := by
    rw [← hafter.bothHeld]
    rfl
  rw [hpolls, Machine.final_cons, hbetween, hmoments, List.map_cons, List.map_cons, hsights, hsight,
    hsight', hrest]
  exact ⟨hfinal, rfl⟩

/-! ### Runs of scans -/

/-- The polls of a run of scans. -/
def scanPolls (channelCount : ℕ) (scans : List Scan) : List Poll :=
  scans.flatMap (Scan.polls channelCount)

theorem channel_lt_of_mem_scanPolls {channelCount : ℕ} (scans : List Scan) :
    ∀ poll ∈ scanPolls channelCount scans, poll.channel < channelCount := by
  intro poll hpoll
  obtain ⟨scan, -, hmem⟩ := List.mem_flatMap.mp hpoll
  obtain ⟨channel, hchannel, rfl⟩ := List.mem_map.mp hmem
  exact List.mem_range.mp hchannel

theorem history_append (touch : TouchInput) (first second : List Poll) :
    touch.history (first ++ second) =
      touch.history first ++ (machine.final touch first).history second :=
  watched.reports_append touch first second

/-- Scans in which the confirmed level of the pair stays what it is. -/
theorem Paired.scans (keeps : TouchChannel → Prop) (held : Bool)
    (hheld : ∀ state, keeps state → decide (state.stable = .pressed) = held) {scans : List Scan}
    (hpressed : ∀ scan ∈ scans, scan.PairPressed)
    (hkeeps : ∀ scan ∈ scans, ∀ state, keeps state → keeps (state.step {} .pressed scan.nowMs).1)
    (hpaired : touch.Paired channelCount state) (hstate : keeps state) :
    (∃ after, keeps after ∧
      (machine.final touch (scanPolls channelCount scans)).Paired channelCount after) ∧
      (touch.history (scanPolls channelCount scans)).map Moment.sight =
        (repeated channelCount (scans.map Scan.nowMs)).map (·, held) := by
  induction scans generalizing touch state with
  | nil => exact ⟨⟨state, hstate, hpaired⟩, rfl⟩
  | cons scan rest ih =>
    have hnext := hkeeps scan List.mem_cons_self state hstate
    have hstays : state.stable = .pressed →
        (state.step {} .pressed scan.nowMs).1.stable = .pressed :=
      fun hstable ↦ of_decide_eq_true ((hheld _ hnext).trans
        ((hheld _ hstate).symm.trans (decide_eq_true hstable)))
    obtain ⟨hfinal, hsights⟩ := hpaired.scan (hpressed scan List.mem_cons_self) rfl hstays
    obtain ⟨hafter, hsights'⟩ := ih
      (fun other hother ↦ hpressed other (List.mem_cons_of_mem _ hother))
      (fun other hother ↦ hkeeps other (List.mem_cons_of_mem _ hother)) hfinal hnext
    have hsplit : scanPolls channelCount (scan :: rest) =
        scan.polls channelCount ++ scanPolls channelCount rest := rfl
    rw [hsplit, Machine.final_append, history_append, List.map_append, hsights, hsights',
      hheld _ hstate, hheld _ hnext]
    refine ⟨hafter, ?_⟩
    obtain ⟨count, rfl⟩ := Nat.exists_eq_add_of_le' hpaired.two_le
    simp [repeated, List.replicate_succ]

/-- A channel that reads pressed since a time and is not confirmed yet. -/
def waitingSince (firstMs : Millis) : TouchChannel := { candidate := .pressed, since := firstMs }

/-- A channel that is confirmed as pressed and reads so. -/
def Confirmed (state : TouchChannel) : Prop := state.stable = .pressed ∧ state.candidate = .pressed

theorem step_waits {firstMs nowMs : Millis}
    (hearly : ¬ ({} : TouchConfig).debounceMs ≤ elapsed nowMs firstMs) :
    ((waitingSince firstMs).step {} .pressed nowMs).1 = waitingSince firstMs := by
  simp [TouchChannel.step, waitingSince, hearly]

theorem confirmed_of_due {firstMs nowMs : Millis}
    (hdue : ({} : TouchConfig).debounceMs ≤ elapsed nowMs firstMs) :
    Confirmed ((waitingSince firstMs).step {} .pressed nowMs).1 := by
  simp [TouchChannel.step, waitingSince, hdue, Confirmed]

theorem confirmed_step {state : TouchChannel} (hconfirmed : Confirmed state) (nowMs : Millis) :
    Confirmed (state.step {} .pressed nowMs).1 := by
  unfold TouchChannel.step
  rw [if_neg (by simp [hconfirmed.2]), if_pos hconfirmed.1.symm]
  split_ifs
  · exact hconfirmed
  · exact hconfirmed

/-- The engine behind the first scan. -/
theorem paired_first (hcount : 2 ≤ channelCount ∧ channelCount ≤ kMaxChannels) {scan : Scan}
    (hpressed : scan.PairPressed) :
    (machine.final (start {} channelCount) (scan.polls channelCount)).Paired channelCount
        (waitingSince scan.nowMs) ∧
      ((start {} channelCount).history (scan.polls channelCount)).map Moment.sight =
        (List.replicate channelCount scan.nowMs).map (·, false) := by
  have hpositive : 0 < channelCount ∧ channelCount ≤ kMaxChannels := ⟨by omega, hcount.2⟩
  have hnew : (start {} channelCount).Paired channelCount {} :=
    ⟨serves_start hpositive, hcount.1, start_channels {} hpositive (by omega),
      start_channels {} hpositive (by omega)⟩
  have hwaits : (TouchChannel.step {} {} .pressed scan.nowMs).1 = waitingSince scan.nowMs := rfl
  obtain ⟨hfinal, hsights⟩ := hnew.scan hpressed hwaits fun hstable ↦ absurd hstable (by decide)
  refine ⟨hfinal, ?_⟩
  obtain ⟨count, rfl⟩ := Nat.exists_eq_add_of_le' hcount.1
  rw [hsights]
  simp [List.replicate_succ, waitingSince]

/-- What a run of scans shows of the pair up to the first poll of the scan that confirms it, and
from the second poll of that scan on. -/
theorem sights_of_confirmed (hcount : 2 ≤ channelCount ∧ channelCount ≤ kMaxChannels)
    {first confirm : Scan} {before after : List Scan}
    (hpressed : ∀ scan ∈ first :: before ++ confirm :: after, scan.PairPressed)
    (hearly : ∀ scan ∈ before, ¬ ({} : TouchConfig).debounceMs ≤ elapsed scan.nowMs first.nowMs)
    (hdue : ({} : TouchConfig).debounceMs ≤ elapsed confirm.nowMs first.nowMs) :
    ((start {} channelCount).history
        (scanPolls channelCount (first :: before ++ confirm :: after))).map Moment.sight =
      (repeated channelCount ((first :: before).map Scan.nowMs) ++ [confirm.nowMs]).map
          (·, false) ++
        (List.replicate (channelCount - 1) confirm.nowMs ++
          repeated channelCount (after.map Scan.nowMs)).map (·, true) := by
  have hpressedBefore : ∀ scan ∈ before, scan.PairPressed := fun scan hscan ↦
    hpressed scan (by simp [hscan])
  have hpressedAfter : ∀ scan ∈ after, scan.PairPressed := fun scan hscan ↦
    hpressed scan (by simp [hscan])
  obtain ⟨hfirst, hfirstSights⟩ := paired_first hcount (hpressed first (by simp))
  obtain ⟨⟨_, rfl, hwaiting⟩, hbeforeSights⟩ := hfirst.scans (· = waitingSince first.nowMs) false
    (fun state hstate ↦ by rw [hstate]; rfl) hpressedBefore
    (fun scan hscan state hstate ↦ by rw [hstate]; exact step_waits (hearly scan hscan)) rfl
  have hconfirmed := confirmed_of_due hdue
  obtain ⟨hconfirming, hconfirmSights⟩ := hwaiting.scan (hpressed confirm (by simp)) rfl
    fun _ ↦ hconfirmed.1
  obtain ⟨-, hafterSights⟩ := hconfirming.scans Confirmed true
    (fun state hstate ↦ decide_eq_true hstate.1) hpressedAfter
    (fun scan hscan state hstate ↦ confirmed_step hstate scan.nowMs) hconfirmed
  have hsplit : scanPolls channelCount (first :: before ++ confirm :: after) =
      first.polls channelCount ++ (scanPolls channelCount before ++
        (confirm.polls channelCount ++ scanPolls channelCount after)) := by
    simp [scanPolls]
  rw [hsplit, history_append, history_append, history_append, List.map_append, List.map_append,
    List.map_append, hfirstSights, hbeforeSights, hconfirmSights, hafterSights,
    decide_eq_true hconfirmed.1]
  simp [repeated, waitingSince]

theorem of_map_sight {moments : List Moment} {times : List Millis} {held : Bool}
    (hsights : moments.map Moment.sight = times.map (·, held)) :
    (∀ moment ∈ moments, moment.held = held) ∧ moments.map Moment.nowMs = times := by
  constructor
  · intro moment hmoment
    have hmem : moment.sight ∈ times.map (·, held) := hsights ▸ List.mem_map_of_mem hmoment
    obtain ⟨nowMs, -, heq⟩ := List.mem_map.mp hmem
    exact (congrArg Prod.snd heq).symm
  · have hfst := congrArg (List.map Prod.fst) hsights
    rw [List.map_map, List.map_map] at hfst
    exact hfst.trans (List.map_id _)

theorem mem_repeated {count : ℕ} {times : List Millis} {nowMs : Millis} :
    nowMs ∈ repeated (count + 1) times ↔ nowMs ∈ times := by
  simp [repeated, List.mem_flatMap, List.mem_replicate]

/-- The gesture in a run of scans in which the pair is confirmed at some scan. -/
theorem emitted_of_confirmed (hcount : 2 ≤ channelCount ∧ channelCount ≤ kMaxChannels)
    {first confirm : Scan} {before after : List Scan}
    (hpressed : ∀ scan ∈ first :: before ++ confirm :: after, scan.PairPressed)
    (hearly : ∀ scan ∈ before, ¬ ({} : TouchConfig).debounceMs ≤ elapsed scan.nowMs first.nowMs)
    (hdue : ({} : TouchConfig).debounceMs ≤ elapsed confirm.nowMs first.nowMs) :
    Emitted ((start {} channelCount).history
        (scanPolls channelCount (first :: before ++ confirm :: after))) ↔
      SettlesIn ((first :: before ++ [confirm]).map Scan.nowMs) ∧ ∃ scan ∈ after,
        ({} : TouchConfig).factoryHoldMs ≤ elapsed scan.nowMs confirm.nowMs := by
  have hpair : ValidPair {} channelCount := ⟨by show 0 < _; omega, by show 1 < _; omega, by decide⟩
  have htraced := traced_history ⟨by omega, hcount.2⟩ hpair (channel_lt_of_mem_scanPolls
    (first :: before ++ confirm :: after))
  obtain ⟨past, held, hhistory, hpast, hheld⟩ :=
    List.map_eq_append_iff.mp (sights_of_confirmed hcount hpressed hearly hdue)
  obtain ⟨hpastHeld, hpastTimes⟩ := of_map_sight hpast
  obtain ⟨hheldHeld, hheldTimes⟩ := of_map_sight hheld
  obtain ⟨count, rfl⟩ := Nat.exists_eq_add_of_le' hcount.1
  have hsettles : SettlesIn (past.map Moment.nowMs) ↔
      SettlesIn ((first :: before ++ [confirm]).map Scan.nowMs) := by
    obtain ⟨hfirst, hsame⟩ := repeated_spec (count + 1) ((first :: before).map Scan.nowMs)
    rw [hpastTimes, List.map_append, List.map_singleton, settlesIn_concat, settlesIn_concat, hsame,
      firstMs_concat, firstMs_concat, hfirst]
  rw [htraced.emitted_iff, hhistory, completes_append {} hpastHeld hheldHeld,
    settled_iff_settlesIn hpastHeld, hsettles]
  refine and_congr_right fun _ ↦ ?_
  cases held with
  | nil => simp [List.replicate_succ] at hheldTimes
  | cons start rest =>
    rw [Nat.add_succ_sub_one, List.replicate_succ, List.map_cons, List.cons_append] at hheldTimes
    obtain ⟨hstart, hrest⟩ := List.cons.inj hheldTimes
    have hnotYet : ¬ ({} : TouchConfig).factoryHoldMs ≤ elapsed confirm.nowMs confirm.nowMs := by
      rw [elapsed_self]
      decide
    constructor
    · rintro ⟨_, _, heq, moment, hmoment, hlong⟩
      cases heq
      have htime : moment.nowMs ∈ rest.map Moment.nowMs := List.mem_map_of_mem hmoment
      rw [hstart] at hlong
      rw [hrest] at htime
      rcases List.mem_append.mp htime with hsame | hlater
      · rw [List.eq_of_mem_replicate hsame] at hlong
        exact absurd hlong hnotYet
      · obtain ⟨scan, hscan, heq⟩ := List.mem_map.mp (mem_repeated.mp hlater)
        exact ⟨scan, hscan, heq ▸ hlong⟩
    · rintro ⟨scan, hscan, hlong⟩
      have htime : scan.nowMs ∈ rest.map Moment.nowMs := by
        rw [hrest]
        exact List.mem_append_right _ (mem_repeated.mpr (List.mem_map_of_mem hscan))
      obtain ⟨moment, hmoment, heq⟩ := List.mem_map.mp htime
      exact ⟨start, rest, rfl, moment, hmoment, by rw [heq, hstart]; exact hlong⟩

/-- The gesture in a run of scans in which the pair is never confirmed. -/
theorem not_emitted_of_unconfirmed (hcount : 2 ≤ channelCount ∧ channelCount ≤ kMaxChannels)
    {first : Scan} {rest : List Scan} (hpressed : ∀ scan ∈ first :: rest, scan.PairPressed)
    (hearly : ∀ scan ∈ rest, ¬ ({} : TouchConfig).debounceMs ≤ elapsed scan.nowMs first.nowMs) :
    ¬ Emitted ((start {} channelCount).history (scanPolls channelCount (first :: rest))) := by
  have hpressedRest : ∀ scan ∈ rest, scan.PairPressed := fun scan hscan ↦
    hpressed scan (List.mem_cons_of_mem _ hscan)
  obtain ⟨hfirst, hfirstSights⟩ := paired_first hcount (hpressed first List.mem_cons_self)
  obtain ⟨-, hrestSights⟩ := hfirst.scans (· = waitingSince first.nowMs) false
    (fun state hstate ↦ by rw [hstate]; rfl) hpressedRest
    (fun scan hscan state hstate ↦ by rw [hstate]; exact step_waits (hearly scan hscan)) rfl
  have hsights : ((start {} channelCount).history (scanPolls channelCount (first :: rest))).map
      Moment.sight = (List.replicate channelCount first.nowMs ++
        repeated channelCount (rest.map Scan.nowMs)).map (·, false) := by
    have hsplit : scanPolls channelCount (first :: rest) =
        first.polls channelCount ++ scanPolls channelCount rest := rfl
    rw [hsplit, history_append, List.map_append, hfirstSights, hrestSights, List.map_append]
  have hpair : ValidPair {} channelCount := ⟨by show 0 < _; omega, by show 1 < _; omega, by decide⟩
  rw [(traced_history ⟨by omega, hcount.2⟩ hpair
    (channel_lt_of_mem_scanPolls (first :: rest))).emitted_iff]
  rintro ⟨past, moment, later, hhistory, -, hheld, -⟩
  have hreleased := (of_map_sight hsights).1 moment (by rw [hhistory]; simp)
  exact absurd (hreleased.symm.trans hheld) (by decide)

theorem poll_of_disabled (hdisabled : touch.initialized = false ∨ touch.resetPairValid = false)
    (channel : ℕ) (level : TouchLevel) (nowMs : Millis) :
    TouchCall.factoryResetGesture ∉ (touch.poll channel level nowMs).2.2 := by
  intro hcall
  unfold poll at hcall
  split_ifs at hcall with hinitialized habsent
  · cases hcall
  · cases hcall
  · have hpair := hdisabled.resolve_left (by simpa using hinitialized)
    rcases List.mem_append.mp hcall with hdebounce | hgesture
    · obtain ⟨event, heq⟩ := debounce_calls _ _ _ _ _ hdebounce
      cases heq
    · have hafter := (resetPairValid_debounce touch channel level nowMs).trans hpair
      rw [updateResetGesture_of_not_valid hafter] at hgesture
      cases hgesture

/-- Without a valid pair there is no gesture. -/
theorem not_gesture_of_disabled
    (hdisabled : touch.initialized = false ∨ touch.resetPairValid = false) (polls : List Poll) :
    ¬ Emitted (touch.history polls) := by
  induction polls generalizing touch with
  | nil => simp [history, Emitted]
  | cons poll rest ih =>
    have hframe := frame_poll touch poll.channel poll.level poll.nowMs
    simp only [frame, Prod.mk.injEq] at hframe
    have hnext : (machine.step touch poll).1.initialized = false ∨
        (machine.step touch poll).1.resetPairValid = false := by
      simp only [machine, hframe]
      exact hdisabled
    rintro ⟨moment, hmoment, hmem⟩
    rw [history, Machine.reports_cons] at hmoment
    rcases List.mem_cons.mp hmoment with rfl | hlater
    · exact poll_of_disabled hdisabled poll.channel poll.level poll.nowMs hmem
    · exact ih hnext ⟨moment, hlater, hmem⟩

/-- The scans slip past the check for a released pair: some scan confirms the pair, one of the scans
up to it comes at least the settle time after the first evaluation, and one of the scans behind it
comes at least the hold time after it. -/
def Slips (scans : List Scan) : Prop :=
  ∃ first before confirm after, scans = first :: before ++ confirm :: after ∧
    (∀ scan ∈ before, ¬ ({} : TouchConfig).debounceMs ≤ elapsed scan.nowMs first.nowMs) ∧
    ({} : TouchConfig).debounceMs ≤ elapsed confirm.nowMs first.nowMs ∧
    SettlesIn ((first :: before ++ [confirm]).map Scan.nowMs) ∧
    ∃ scan ∈ after, ({} : TouchConfig).factoryHoldMs ≤ elapsed scan.nowMs confirm.nowMs

/-- A pair that reads pressed at every scan from the first one on triggers the gesture exactly in a
run of scans that slips past the check, on a profile that has the pair. -/
theorem stuckPair_iff (channelCount : ℕ) {scans : List Scan}
    (hpressed : ∀ scan ∈ scans, scan.PairPressed) :
    (∀ moment ∈ (start {} channelCount).history (scanPolls channelCount scans),
        TouchCall.factoryResetGesture ∉ moment.calls) ↔
      ¬ (2 ≤ channelCount ∧ channelCount ≤ kMaxChannels ∧ Slips scans) := by
  have hnever : (∀ moment ∈ (start {} channelCount).history (scanPolls channelCount scans),
      TouchCall.factoryResetGesture ∉ moment.calls) ↔
        ¬ Emitted ((start {} channelCount).history (scanPolls channelCount scans)) := by
    simp [Emitted]
  rw [hnever, not_iff_not]
  by_cases hcount : 2 ≤ channelCount ∧ channelCount ≤ kMaxChannels
  · rw [← and_assoc, and_iff_right hcount]
    constructor
    · intro hemitted
      cases scans with
      | nil => simp [scanPolls, history, Emitted] at hemitted
      | cons first rest =>
        cases hfound : rest.find? fun scan ↦
            decide (({} : TouchConfig).debounceMs ≤ elapsed scan.nowMs first.nowMs) with
        | none =>
          refine absurd hemitted (not_emitted_of_unconfirmed hcount hpressed fun scan hscan ↦ ?_)
          simpa using List.find?_eq_none.mp hfound scan hscan
        | some confirm =>
          obtain ⟨hdue, before, after, rfl, hearly⟩ := List.find?_eq_some_iff_append.mp hfound
          rw [← List.cons_append] at hemitted hpressed
          have hdue' := of_decide_eq_true hdue
          have hearly' : ∀ scan ∈ before,
              ¬ ({} : TouchConfig).debounceMs ≤ elapsed scan.nowMs first.nowMs := by
            simpa using hearly
          exact ⟨first, before, confirm, after, rfl, hearly', hdue',
            (emitted_of_confirmed hcount hpressed hearly' hdue').mp hemitted⟩
    · rintro ⟨first, before, confirm, after, rfl, hearly, hdue, hslips⟩
      exact (emitted_of_confirmed hcount hpressed hearly hdue).mpr hslips
  · refine iff_of_false (not_gesture_of_disabled ?_ _) fun hslips ↦ hcount ⟨hslips.1, hslips.2.1⟩
    by_cases hone : channelCount = 1
    · subst hone
      exact .inr rfl
    · refine .inl ?_
      unfold start init
      rw [if_pos (by omega)]

/-- Two channels, pressed at three scans: at boot, half a second later, and ten seconds after
that. -/
def slowScans : List Scan :=
  [⟨0, fun _ ↦ .pressed⟩, ⟨500, fun _ ↦ .pressed⟩, ⟨10500, fun _ ↦ .pressed⟩]

/-- Two channels, pressed at scans that are 50 ms apart. -/
def quickScans : List Scan := [⟨0, fun _ ↦ .pressed⟩, ⟨50, fun _ ↦ .pressed⟩]

theorem stuckPair_iff_witness :
    (∀ moment ∈ (start {} 2).history (scanPolls 2 quickScans),
        TouchCall.factoryResetGesture ∉ moment.calls) ↔
      ¬ (2 ≤ 2 ∧ 2 ≤ kMaxChannels ∧ Slips quickScans) :=
  stuckPair_iff 2 (by unfold Scan.PairPressed; decide)

/-- A press asserted from boot can trigger a factory reset. -/
theorem stuckPair_fires : ¬ ∀ (channelCount : ℕ) (scans : List Scan),
    scans.Pairwise (fun earlier later ↦ earlier.time ≤ later.time) →
    (∀ scan ∈ scans, scan.PairPressed) →
    ∀ moment ∈ (start {} channelCount).history (scanPolls channelCount scans),
      TouchCall.factoryResetGesture ∉ moment.calls := by
  intro hnever
  have hquiet := hnever 2 slowScans (by decide) (by unfold Scan.PairPressed; decide)
    ⟨10500, true, [.touchEvent 0 .longPress, .factoryResetProgress 10000 10000,
      .factoryResetGesture]⟩ (by decide)
  exact hquiet (by decide)

end TouchInput

end LibreSwitch.Domain
