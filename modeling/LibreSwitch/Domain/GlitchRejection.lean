import Mathlib.Tactic
import LibreSwitch.Domain.TouchDebounce

/-!
# Rejected glitches and the long press

A run of contradicting readings that is too short to be confirmed is rejected. It does not change
the confirmed level, but it moves the one time stamp of the channel, from which the long press is
timed as well. `glitch_iff` says for every trace what this does to the reports: nothing if no long
press is outstanding, and otherwise nothing exactly if the long press falls due at the same poll
from the end of the glitch as it did from the press.
-/

set_option autoImplicit false
set_option relaxedAutoImplicit false

namespace LibreSwitch.Domain

open LibreSwitch.Library

/-! ### Reports of one event at most -/

/-- The reports on a number of polls, with a long press at one of them or at none. -/
def longPressReports (position : Option ℕ) (count : ℕ) : List (List TouchEvent) :=
  (List.range count).map fun index ↦ if position = some index then [.longPress] else []

theorem longPressReports_none (count : ℕ) :
    longPressReports none count = List.replicate count [] := by
  simp [longPressReports]

theorem longPressReports_zero (count : ℕ) :
    longPressReports (some 0) (count + 1) = [.longPress] :: List.replicate count [] := by
  simp [longPressReports, List.range_succ_eq_map, Function.comp_def]

theorem longPressReports_succ (position : Option ℕ) (count : ℕ) :
    longPressReports (position.map (· + 1)) (count + 1) =
      [] :: longPressReports position count := by
  cases position with
  | none => simp [longPressReports, List.range_succ_eq_map, Function.comp_def]
  | some index => simp [longPressReports, List.range_succ_eq_map, Function.comp_def]

/-- Polls without a report before the others move the position. -/
theorem longPressReports_add (position : Option ℕ) (skipped count : ℕ) :
    longPressReports (position.map (· + skipped)) (skipped + count) =
      List.replicate skipped [] ++ longPressReports position count := by
  induction skipped with
  | zero => simp
  | succ skipped ih =>
    have hmap : position.map (· + (skipped + 1)) = (position.map (· + skipped)).map (· + 1) := by
      rw [Option.map_map]
      rfl
    rw [hmap, Nat.add_right_comm, longPressReports_succ, ih, List.replicate_succ, List.cons_append]

/-- The reports tell the position. -/
theorem longPressReports_inj {first second : Option ℕ} {count : ℕ}
    (hfirst : ∀ index ∈ first, index < count) (hsecond : ∀ index ∈ second, index < count) :
    longPressReports first count = longPressReports second count ↔ first = second := by
  refine ⟨fun hreports ↦ ?_, fun heq ↦ by rw [heq]⟩
  have hat (index : ℕ) (hindex : index < count) :
      first = some index ↔ second = some index := by
    have hsame := List.map_inj_left.mp hreports index (List.mem_range.mpr hindex)
    by_cases hhere : first = some index <;> by_cases hthere : second = some index <;>
      simp_all
  cases first with
  | some index => exact ((hat index (hfirst index rfl)).mp rfl).symm
  | none =>
    cases second with
    | none => rfl
    | some index => exact (hat index (hsecond index rfl)).mpr rfl

/-! ### A channel that reads its confirmed level -/

/-- The poll, by its position, at which a press that is timed from the anchor is a long one. -/
def longPressAt (longPressMs anchor : Millis) (polls : List Poll) : Option ℕ :=
  polls.findIdx? fun poll ↦ longPressMs ≤ TouchInput.elapsed poll.nowMs anchor

theorem lt_length_of_longPressAt {longPressMs anchor : Millis} {polls : List Poll} :
    ∀ index ∈ longPressAt longPressMs anchor polls, index < polls.length := by
  intro index hindex
  exact (List.findIdx?_eq_some_iff_findIdx_eq.mp hindex).1

namespace TouchChannel

variable {config : TouchConfig}

/-- The confirmed level stands, and no long press is outstanding. -/
structure Quiet (state : TouchChannel) : Prop where
  settled : state.candidate = state.stable
  done : state.stable = .released ∨ state.longFired = true

/-- A quiet channel that reads its level reports nothing and stays as it is. -/
theorem Quiet.step {state : TouchChannel} (hquiet : state.Quiet) {level : TouchLevel}
    (hlevel : level = state.stable) (nowMs : Millis) :
    state.step config level nowMs = (state, []) := by
  unfold TouchChannel.step
  rw [if_neg (not_not.mpr (hlevel.trans hquiet.settled.symm)), if_pos hlevel, if_neg]
  rintro ⟨hpressed, hfired, -⟩
  rcases hquiet.done with hreleased | hdone
  · rw [hreleased] at hpressed
    cases hpressed
  · rw [hdone] at hfired
    cases hfired

theorem Quiet.steady (config : TouchConfig) {state : TouchChannel} (hquiet : state.Quiet)
    {polls : List Poll}
    (hlevels : ∀ poll ∈ polls, poll.level = state.stable) :
    (machine config).reports state polls = List.replicate polls.length [] ∧
      (machine config).final state polls = state := by
  induction polls with
  | nil => exact ⟨rfl, rfl⟩
  | cons poll rest ih =>
    have hstep : (machine config).step state poll = (state, []) :=
      hquiet.step (hlevels poll List.mem_cons_self) poll.nowMs
    obtain ⟨hreports, hfinal⟩ := ih fun other hother ↦ hlevels other (List.mem_cons_of_mem _ hother)
    rw [Machine.reports_cons, Machine.final_cons, hstep, hreports, hfinal]
    exact ⟨rfl, rfl⟩

/-- A pressed channel whose long press is outstanding, timed from an anchor. -/
def pressedSince (anchor : Millis) : TouchChannel :=
  { stable := .pressed, candidate := .pressed, since := anchor }

/-- While it is held, such a channel reports its long press where it falls due, and nothing else. -/
theorem steady_pressedSince (config : TouchConfig) (anchor : Millis) {polls : List Poll}
    (hlevels : ∀ poll ∈ polls, poll.level = .pressed) :
    (machine config).reports (pressedSince anchor) polls =
        longPressReports (longPressAt config.longPressMs anchor polls) polls.length ∧
      (machine config).final (pressedSince anchor) polls =
        { pressedSince anchor with
          longFired := (longPressAt config.longPressMs anchor polls).isSome } := by
  induction polls with
  | nil => exact ⟨rfl, rfl⟩
  | cons poll rest ih =>
    have hrest := fun other hother ↦ hlevels other (List.mem_cons_of_mem poll hother)
    have hlevel := hlevels poll List.mem_cons_self
    rw [Machine.reports_cons, Machine.final_cons, longPressAt, List.findIdx?_cons, ← longPressAt,
      List.length_cons]
    by_cases hdue : config.longPressMs ≤ TouchInput.elapsed poll.nowMs anchor
    · have hstep : (machine config).step (pressedSince anchor) poll =
          ({ pressedSince anchor with longFired := true }, [.longPress]) := by
        simp [machine, TouchChannel.step, pressedSince, hlevel, hdue]
      have hquiet : Quiet { pressedSince anchor with longFired := true } := ⟨rfl, .inr rfl⟩
      obtain ⟨hreports, hfinal⟩ := hquiet.steady config hrest
      rw [hstep, hreports, hfinal]
      simp [hdue, longPressReports_zero]
    · have hstep : (machine config).step (pressedSince anchor) poll =
        (pressedSince anchor, []) := by
        simp [machine, TouchChannel.step, pressedSince, hlevel, hdue]
      obtain ⟨hreports, hfinal⟩ := ih hrest
      rw [hstep, hreports, hfinal]
      simp [hdue, longPressReports_succ]

/-- A contradicting reading makes the time stamp before it irrelevant. -/
theorem step_eq_of_turn (first second : TouchChannel) (hsettled : first.candidate = first.stable)
    (hsettled' : second.candidate = second.stable) (hstable : first.stable = second.stable)
    (hfired : first.longFired = second.longFired) {poll : Poll}
    (hturn : poll.level ≠ first.stable) :
    (machine config).step first poll = (machine config).step second poll := by
  have hne : poll.level ≠ first.candidate := by rwa [hsettled]
  have hne' : poll.level ≠ second.candidate := by rwa [hsettled', ← hstable]
  simp only [machine, TouchChannel.step, hne, hne', ne_eq, not_false_eq_true, if_true, hstable,
    hfired]

/-- Channels that differ in their time stamp only, with no long press outstanding, report the same
for ever. -/
theorem reports_eq_of_quiet {first second : TouchChannel} (hfirst : first.Quiet)
    (hsecond : second.Quiet) (hstable : first.stable = second.stable)
    (hfired : first.longFired = second.longFired) (polls : List Poll) :
    (machine config).reports first polls = (machine config).reports second polls := by
  induction polls with
  | nil => rfl
  | cons poll rest ih =>
    by_cases hlevel : poll.level = first.stable
    · have hstep : (machine config).step first poll = (first, []) := hfirst.step hlevel _
      have hstep' : (machine config).step second poll = (second, []) :=
        hsecond.step (hlevel.trans hstable) _
      rw [Machine.reports_cons, Machine.reports_cons, hstep, hstep', ih]
    · rw [Machine.reports_cons, Machine.reports_cons,
        step_eq_of_turn first second hfirst.settled hsecond.settled hstable hfired hlevel]

/-! ### A rejected glitch -/

/-- A run of polls, in time, whose first and last are less than the debounce time apart. -/
structure Short (debounceMs : Millis) (glitch : List Poll) : Prop where
  sorted : glitch.Pairwise fun poll later ↦ poll.time ≤ later.time
  short : ∀ first ∈ glitch.head?, ∀ last ∈ glitch.getLast?,
    last.time < first.time + debounceMs.toNat

/-- No poll of a short run is due from its first. -/
theorem Short.not_due {debounceMs : Millis} {first : Poll} {rest : List Poll}
    (hshort : Short debounceMs (first :: rest)) {poll : Poll} (hpoll : poll ∈ rest) :
    ¬ debounceMs ≤ TouchInput.elapsed poll.nowMs first.nowMs := by
  have hne : first :: rest ≠ [] := List.cons_ne_nil _ _
  have hle : first.time ≤ poll.time := List.rel_of_pairwise_cons hshort.sorted hpoll
  have hlast : poll.time ≤ ((first :: rest).getLast hne).time :=
    hshort.sorted.rel_getLast_of_rel_getLast_getLast (List.mem_cons_of_mem _ hpoll) le_rfl
  have hlt := hshort.short first rfl _ (List.getLast_mem_getLast? hne)
  have hbound := debounceMs.toNat_lt
  rw [Poll.nowMs, Poll.nowMs, TouchInput.le_elapsed_iff hle (by omega)]
  omega

/-- A short run of contradicting readings reports nothing, and leaves its time stamp. -/
theorem rejected (config : TouchConfig) {state : TouchChannel}
    (hsettled : state.candidate = state.stable) {first : Poll}
    {rest : List Poll} (hshort : Short config.debounceMs (first :: rest))
    (hlevels : ∀ poll ∈ first :: rest, poll.level ≠ state.stable) :
    (machine config).reports state (first :: rest) = List.replicate (first :: rest).length [] ∧
      (machine config).final state (first :: rest) =
        { state with candidate := first.level, since := first.nowMs } := by
  have hfirst : first.level ≠ state.stable := hlevels first List.mem_cons_self
  have hstep : (machine config).step state first =
      ({ state with candidate := first.level, since := first.nowMs }, []) := by
    simp [machine, TouchChannel.step, hsettled, hfirst]
  have hwaits (poll : Poll) (hpoll : poll ∈ rest) : (machine config).step
      { state with candidate := first.level, since := first.nowMs } poll =
        ({ state with candidate := first.level, since := first.nowMs }, []) := by
    have hlevel := hlevels poll (List.mem_cons_of_mem _ hpoll)
    have hsame : poll.level = first.level := level_eq_of_ne hlevel hfirst
    have hnotDue := hshort.not_due hpoll
    simp [machine, TouchChannel.step, hsame, hfirst, hnotDue]
  have hrest : (machine config).reports
      { state with candidate := first.level, since := first.nowMs } rest =
        List.replicate rest.length [] ∧
      (machine config).final { state with candidate := first.level, since := first.nowMs } rest =
        { state with candidate := first.level, since := first.nowMs } := by
    clear hlevels hshort
    induction rest with
    | nil => exact ⟨rfl, rfl⟩
    | cons poll rest ih =>
      obtain ⟨hreports, hfinal⟩ := ih fun other hother ↦
        hwaits other (List.mem_cons_of_mem _ hother)
      rw [Machine.reports_cons, Machine.final_cons, hwaits poll List.mem_cons_self, hreports,
        hfinal]
      exact ⟨rfl, rfl⟩
  rw [Machine.reports_cons, Machine.final_cons, hstep, hrest.1, hrest.2]
  exact ⟨rfl, rfl⟩

/-- The readings of a run, replaced by a level. -/
def reading (level : TouchLevel) (polls : List Poll) : List Poll :=
  polls.map fun poll ↦ { poll with level := level }

/-- The glitch does not show: no long press is outstanding, or it falls due at the same poll (or at
none) before the press ends, timed from where it was and timed from the end of the glitch. -/
def Unnoticed (config : TouchConfig) (state : TouchChannel) (glitch after : List Poll) : Prop :=
  state.stable = .released ∨ state.longFired = true ∨
    longPressAt config.longPressMs state.since
        (glitch ++ after.takeWhile fun poll ↦ poll.level = .pressed) =
      match after.takeWhile fun poll ↦ poll.level = .pressed with
      | [] => none
      | back :: rest =>
        (longPressAt config.longPressMs back.nowMs rest).map (· + (glitch.length + 1))

theorem longPressAt_reading (longPressMs anchor : Millis) (level : TouchLevel)
    (glitch after : List Poll) :
    longPressAt longPressMs anchor (reading level glitch ++ after) =
      longPressAt longPressMs anchor (glitch ++ after) := by
  induction glitch with
  | nil => rfl
  | cons poll rest ih =>
    rw [longPressAt, longPressAt, reading] at ih ⊢
    rw [List.map_cons, List.cons_append, List.cons_append, List.findIdx?_cons,
      List.findIdx?_cons, ih]
    rfl

theorem length_reading (level : TouchLevel) (polls : List Poll) :
    (reading level polls).length = polls.length :=
  List.length_map _

theorem level_of_mem_reading {level : TouchLevel} {polls : List Poll} {poll : Poll}
    (hpoll : poll ∈ reading level polls) : poll.level = level := by
  obtain ⟨original, -, rfl⟩ := List.mem_map.mp hpoll
  rfl

/-- The reports with and without a rejected glitch, if no long press is outstanding. -/
theorem Quiet.reports_glitch {state : TouchChannel} (hquiet : state.Quiet)
    {glitch after : List Poll}
    (hne : glitch ≠ []) (hshort : Short config.debounceMs glitch)
    (hlevels : ∀ poll ∈ glitch, poll.level ≠ state.stable)
    (hafter : ∀ poll ∈ after.head?, poll.level = state.stable) :
    (machine config).reports state (glitch ++ after) =
      (machine config).reports state (reading state.stable glitch ++ after) := by
  obtain ⟨first, rest, rfl⟩ := List.exists_cons_of_ne_nil hne
  have hread : ∀ poll ∈ reading state.stable (first :: rest), poll.level = state.stable :=
    fun _ hpoll ↦ level_of_mem_reading hpoll
  obtain ⟨hreports, hfinal⟩ := rejected config hquiet.settled hshort hlevels
  obtain ⟨hreports', hfinal'⟩ := hquiet.steady config hread
  rw [Machine.reports_append, Machine.reports_append, hreports, hfinal, hreports', hfinal',
    length_reading]
  congr 1
  cases after with
  | nil => rfl
  | cons back later =>
    have hback := hafter back rfl
    have hfirst : first.level ≠ state.stable := hlevels first List.mem_cons_self
    have hreturns : (machine config).step
        { state with candidate := first.level, since := first.nowMs } back =
          ({ state with candidate := state.stable, since := back.nowMs }, []) := by
      simp [machine, TouchChannel.step, hback, Ne.symm hfirst]
    have hstays : (machine config).step state back = (state, []) := hquiet.step hback _
    rw [Machine.reports_cons, Machine.reports_cons, hreturns, hstays]
    congr 1
    have hreturned : Quiet { state with candidate := state.stable, since := back.nowMs } :=
      ⟨rfl, hquiet.done⟩
    exact reports_eq_of_quiet hreturned hquiet rfl rfl later

/-- A press interrupted by a rejected glitch: the long press is timed from the end of the glitch. -/
theorem reports_interrupted (anchor : Millis) {glitch held tail : List Poll} {back : Poll}
    (hne : glitch ≠ []) (hshort : Short config.debounceMs glitch)
    (hlevels : ∀ poll ∈ glitch, poll.level ≠ .pressed)
    (hheld : ∀ poll ∈ back :: held, poll.level = .pressed) :
    (machine config).reports (pressedSince anchor) (glitch ++ back :: (held ++ tail)) =
      longPressReports
          ((longPressAt config.longPressMs back.nowMs held).map (· + (glitch.length + 1)))
          (glitch.length + 1 + held.length) ++
        (machine config).reports { pressedSince back.nowMs with
          longFired := (longPressAt config.longPressMs back.nowMs held).isSome } tail := by
  obtain ⟨first, rest, rfl⟩ := List.exists_cons_of_ne_nil hne
  have hsettled : (pressedSince anchor).candidate = (pressedSince anchor).stable := rfl
  obtain ⟨hreports, hfinal⟩ := rejected config hsettled hshort hlevels
  obtain ⟨hreports', hfinal'⟩ := steady_pressedSince config back.nowMs
    fun poll hpoll ↦ hheld poll (List.mem_cons_of_mem _ hpoll)
  have hfirst : first.level ≠ .pressed := hlevels first List.mem_cons_self
  have hreturns : (machine config).step
      { pressedSince anchor with candidate := first.level, since := first.nowMs } back =
        (pressedSince back.nowMs, []) := by
    simp [machine, TouchChannel.step, pressedSince, hheld back List.mem_cons_self, Ne.symm hfirst]
  rw [Machine.reports_append, hreports, hfinal, Machine.reports_cons, hreturns,
    Machine.reports_append, hreports', hfinal', longPressReports_add, List.replicate_succ',
    List.append_assoc, List.append_assoc]
  rfl

/-- The same press without the glitch: the long press is timed from the press. -/
theorem reports_uninterrupted (anchor : Millis) (glitch : List Poll) {held tail : List Poll}
    {back : Poll} (hheld : ∀ poll ∈ back :: held, poll.level = .pressed) :
    (machine config).reports (pressedSince anchor)
        (reading .pressed glitch ++ back :: (held ++ tail)) =
      longPressReports (longPressAt config.longPressMs anchor (glitch ++ back :: held))
          (glitch.length + 1 + held.length) ++
        (machine config).reports { pressedSince anchor with
          longFired := (longPressAt config.longPressMs anchor (glitch ++ back :: held)).isSome }
          tail := by
  have hlevels : ∀ poll ∈ reading .pressed glitch ++ back :: held, poll.level = .pressed := by
    intro poll hpoll
    rcases List.mem_append.mp hpoll with hglitch | hlater
    · exact level_of_mem_reading hglitch
    · exact hheld poll hlater
  obtain ⟨hreports, hfinal⟩ := steady_pressedSince config anchor hlevels
  have hsplit : reading .pressed glitch ++ back :: (held ++ tail) =
      (reading .pressed glitch ++ back :: held) ++ tail := by simp
  rw [hsplit, Machine.reports_append, hreports, hfinal, longPressAt_reading, List.length_append,
    length_reading, List.length_cons, Nat.add_comm held.length, Nat.add_assoc]

/-- The reports with and without a rejected glitch, if the long press of the channel is
outstanding. -/
theorem reports_glitch_pressed (anchor : Millis) {glitch after : List Poll} (hne : glitch ≠ [])
    (hshort : Short config.debounceMs glitch) (hlevels : ∀ poll ∈ glitch, poll.level ≠ .pressed)
    (hafter : ∀ poll ∈ after.head?, poll.level = .pressed) :
    (machine config).reports (pressedSince anchor) (glitch ++ after) =
        (machine config).reports (pressedSince anchor) (reading .pressed glitch ++ after) ↔
      longPressAt config.longPressMs anchor
          (glitch ++ after.takeWhile fun poll ↦ poll.level = .pressed) =
        match after.takeWhile fun poll ↦ poll.level = .pressed with
        | [] => none
        | back :: rest =>
          (longPressAt config.longPressMs back.nowMs rest).map (· + (glitch.length + 1)) := by
  cases after with
  | nil =>
    obtain ⟨first, rest, rfl⟩ := List.exists_cons_of_ne_nil hne
    have hsettled : (pressedSince anchor).candidate = (pressedSince anchor).stable := rfl
    have hsame := longPressAt_reading config.longPressMs anchor .pressed (first :: rest) []
    rw [List.append_nil, List.append_nil] at hsame
    rw [List.takeWhile_nil, List.append_nil, List.append_nil,
      (rejected config hsettled hshort hlevels).1,
      (steady_pressedSince config anchor fun _ hpoll ↦ level_of_mem_reading hpoll).1, hsame,
      length_reading, ← longPressReports_none,
      longPressReports_inj (by simp) lt_length_of_longPressAt]
    exact eq_comm
  | cons back later =>
    obtain ⟨held, hheld⟩ : ∃ held, later.takeWhile (fun poll ↦ poll.level = .pressed) = held :=
      ⟨_, rfl⟩
    obtain ⟨tail, htail⟩ : ∃ tail, later.dropWhile (fun poll ↦ poll.level = .pressed) = tail :=
      ⟨_, rfl⟩
    have hlater : later = held ++ tail := by
      rw [← hheld, ← htail, List.takeWhile_append_dropWhile]
    have hlevels' : ∀ poll ∈ back :: held, poll.level = .pressed := by
      intro poll hpoll
      rcases List.mem_cons.mp hpoll with rfl | hmem
      · exact hafter _ rfl
      · rw [← hheld] at hmem
        simpa using List.mem_takeWhile_imp hmem
    have hturn : ∀ poll ∈ tail.head?, poll.level ≠ .pressed := by
      intro poll hpoll
      have hhead := List.head?_dropWhile_not
        (fun poll : Poll ↦ decide (poll.level = .pressed)) later
      rw [htail, Option.mem_def.mp hpoll] at hhead
      exact of_decide_eq_false hhead
    rw [List.takeWhile_cons_of_pos (by simp [hlevels' back]), hheld, hlater,
      reports_interrupted anchor hne hshort hlevels hlevels',
      reports_uninterrupted anchor glitch hlevels']
    dsimp only
    constructor
    · intro hreports
      have hwindow := (List.append_inj hreports (by simp [longPressReports])).1
      refine ((longPressReports_inj ?_ ?_).mp hwindow).symm
      · intro index hindex
        obtain ⟨inner, hinner, rfl⟩ := Option.map_eq_some_iff.mp hindex
        have := lt_length_of_longPressAt inner hinner
        omega
      · intro index hindex
        have := lt_length_of_longPressAt index hindex
        rw [List.length_append, List.length_cons] at this
        omega
    · intro hposition
      rw [hposition, Option.isSome_map]
      congr 1
      cases tail with
      | nil => rfl
      | cons turn rest =>
        rw [Machine.reports_cons, Machine.reports_cons,
          step_eq_of_turn { pressedSince back.nowMs with
              longFired := (longPressAt config.longPressMs back.nowMs held).isSome }
            { pressedSince anchor with
              longFired := (longPressAt config.longPressMs back.nowMs held).isSome }
            rfl rfl rfl rfl (hturn turn rfl)]

/-- The reports with and without a rejected glitch are the same exactly if it goes unnoticed. -/
theorem reports_glitch_iff {state : TouchChannel} (hsettled : state.candidate = state.stable)
    {glitch after : List Poll} (hne : glitch ≠ []) (hshort : Short config.debounceMs glitch)
    (hlevels : ∀ poll ∈ glitch, poll.level ≠ state.stable)
    (hafter : ∀ poll ∈ after.head?, poll.level = state.stable) :
    (machine config).reports state (glitch ++ after) =
        (machine config).reports state (reading state.stable glitch ++ after) ↔
      Unnoticed config state glitch after := by
  by_cases hdone : state.stable = .released ∨ state.longFired = true
  · have hquiet : state.Quiet := ⟨hsettled, hdone⟩
    have hunnoticed : Unnoticed config state glitch after := hdone.imp_right Or.inl
    exact ⟨fun _ ↦ hunnoticed, fun _ ↦ hquiet.reports_glitch hne hshort hlevels hafter⟩
  · obtain ⟨hstable, hfired⟩ := not_or.mp hdone
    obtain ⟨stable, candidate, since, longFired⟩ := state
    obtain rfl : candidate = stable := hsettled
    cases candidate with
    | released => exact absurd rfl hstable
    | pressed =>
      obtain rfl : longFired = false := by simpa using hfired
      rw [Unnoticed, or_iff_right hstable, or_iff_right hfired]
      exact reports_glitch_pressed since hne hshort hlevels hafter

end TouchChannel

/-! ### Glitches in a trace -/

namespace TouchInput

open TouchChannel

/-- A trace of one channel with a rejected glitch in it: a maximal run of readings that contradict
the level confirmed before it, too short to be confirmed. -/
structure Glitch (touch : TouchInput) (channel : ℕ) (before glitch after : List Poll) : Prop where
  own : ∀ poll ∈ before ++ glitch ++ after, poll.channel = channel
  ne_nil : glitch ≠ []
  contradicts : ∀ poll ∈ glitch, poll.level ≠ touch.stableAfter before channel
  maximal_before : ∀ poll ∈ before.getLast?, poll.level = touch.stableAfter before channel
  maximal_after : ∀ poll ∈ after.head?, poll.level = touch.stableAfter before channel
  short : Short touch.config.debounceMs glitch

/-- The events of a channel, poll by poll. -/
def eventsAt (touch : TouchInput) (channel : ℕ) (polls : List Poll) : List (List TouchEvent) :=
  (machine.reports touch polls).map (eventsOn channel)

/-- On its own polls a channel reports as its own machine does. -/
theorem Serves.eventsAt_eq {touch : TouchInput} {config : TouchConfig} {channelCount channel : ℕ}
    (hserves : touch.Serves config channelCount) (hpresent : channel < channelCount)
    {polls : List Poll} (hown : ∀ poll ∈ polls, poll.channel = channel) :
    touch.eventsAt channel polls =
      (TouchChannel.machine config).reports (touch.channels channel) polls := by
  induction polls generalizing touch with
  | nil => rfl
  | cons poll rest ih =>
    obtain ⟨hchannel, hevents⟩ := hserves.step_channel poll hpresent
    rw [if_pos (hown poll List.mem_cons_self)] at hchannel hevents
    have hrest := ih (hserves.step poll) fun other hother ↦
      hown other (List.mem_cons_of_mem _ hother)
    rw [hchannel] at hrest
    rw [eventsAt, Machine.reports_cons, List.map_cons, hevents, ← eventsAt, hrest]
    rfl

/-- The candidate of a channel is the level it read last. -/
theorem candidate_final (config : TouchConfig) (own : List Poll) :
    ((TouchChannel.machine config).final {} own).candidate =
      (own.getLast?.map Poll.level).getD .released := by
  induction own using List.reverseRecOn with
  | nil => rfl
  | append_singleton own poll ih =>
    rw [Machine.final_concat, List.getLast?_concat]
    exact candidate_step config _ poll.level poll.nowMs

/-- A rejected glitch, replaced by readings of the confirmed level, leaves the events of the channel
and the polls they are reported at unchanged exactly if it goes unnoticed. -/
theorem glitch_iff (config : TouchConfig) {channelCount channel : ℕ}
    (hcount : 0 < channelCount ∧ channelCount ≤ kMaxChannels) (hpresent : channel < channelCount)
    {before glitch after : List Poll}
    (hglitch : (start config channelCount).Glitch channel before glitch after) :
    (start config channelCount).eventsAt channel (before ++ glitch ++ after) =
        (start config channelCount).eventsAt channel
          (before ++ reading ((start config channelCount).stableAfter before channel) glitch ++
            after) ↔
      Unnoticed config ((machine.final (start config channelCount) before).channels channel)
        glitch after := by
  have hserves : (start config channelCount).Serves config channelCount := serves_start hcount
  have hconfig : (start config channelCount).config = config := hserves.config_eq
  have hown : ∀ poll ∈ before, poll.channel = channel := fun poll hpoll ↦
    hglitch.own poll (List.mem_append_left _ (List.mem_append_left _ hpoll))
  have hread (level : TouchLevel) :
      ∀ poll ∈ before ++ reading level glitch ++ after, poll.channel = channel := by
    intro poll hpoll
    rcases List.mem_append.mp hpoll with hpoll | hpoll
    · rcases List.mem_append.mp hpoll with hpoll | hpoll
      · exact hown poll hpoll
      · obtain ⟨original, horiginal, rfl⟩ := List.mem_map.mp hpoll
        exact hglitch.own original (by simp [horiginal])
    · exact hglitch.own poll (List.mem_append_right _ hpoll)
  obtain ⟨state, hstate⟩ : ∃ state,
      (machine.final (start config channelCount) before).channels channel = state := ⟨_, rfl⟩
  have hreached : (TouchChannel.machine config).final
      ((start config channelCount).channels channel) before = state := by
    have hall : ownPolls channel before = before := List.filter_eq_self.mpr (by simpa using hown)
    rw [← hstate, hserves.channels_final hpresent, hall]
  have hstable : (start config channelCount).stableAfter before channel = state.stable := by
    rw [stableAfter, hstate]
  have hsettled : state.candidate = state.stable := by
    rw [start_channels config hcount hpresent] at hreached
    cases hlast : before.getLast? with
    | none =>
      rw [List.getLast?_eq_none_iff] at hlast
      subst hlast
      rw [← hreached]
      rfl
    | some poll =>
      have hcandidate := candidate_final config before
      rw [hreached, hlast] at hcandidate
      rw [hcandidate, ← hstable]
      exact hglitch.maximal_before poll hlast
  rw [hserves.eventsAt_eq hpresent hglitch.own, hserves.eventsAt_eq hpresent (hread _),
    List.append_assoc, List.append_assoc, (TouchChannel.machine config).reports_append _ before,
    (TouchChannel.machine config).reports_append _ before, hreached, List.append_cancel_left_eq,
    hstable, hstate]
  refine reports_glitch_iff hsettled hglitch.ne_nil ?_ ?_ ?_
  · rw [← hconfig]
    exact hglitch.short
  · rw [← hstable]
    exact hglitch.contradicts
  · rw [← hstable]
    exact hglitch.maximal_after

/-- A press of the first channel of two, confirmed at 40. -/
def confirmedPress : List Poll := [⟨0, .pressed, 0⟩, ⟨0, .pressed, 40⟩]

/-- One reading of the other level during the press, and the polls after it. -/
def slip : List Poll := [⟨0, .released, 700⟩]

def heldOn : List Poll := [⟨0, .pressed, 710⟩, ⟨0, .pressed, 840⟩]

theorem glitch_slip : (start {} 2).Glitch 0 confirmedPress slip heldOn where
  own := by decide
  ne_nil := by decide
  contradicts := by decide
  maximal_before := by decide
  maximal_after := by decide
  short := ⟨by decide, by decide⟩

theorem glitch_iff_witness :
    (start {} 2).eventsAt 0 (confirmedPress ++ slip ++ heldOn) =
        (start {} 2).eventsAt 0
          (confirmedPress ++ reading ((start {} 2).stableAfter confirmedPress 0) slip ++ heldOn) ↔
      Unnoticed {} ((machine.final (start {} 2) confirmedPress).channels 0) slip heldOn :=
  glitch_iff {} (by decide) (by decide) glitch_slip

/-- The long press of this press is due at 840. The rejected reading at 700 takes it away. -/
theorem glitch_shows : ¬ ∀ (config : TouchConfig) (channelCount channel : ℕ),
    0 < channelCount ∧ channelCount ≤ kMaxChannels → channel < channelCount →
    ∀ before glitch after : List Poll,
      (start config channelCount).Glitch channel before glitch after →
      (start config channelCount).eventsAt channel (before ++ glitch ++ after) =
        (start config channelCount).eventsAt channel
          (before ++ reading ((start config channelCount).stableAfter before channel) glitch ++
            after) := by
  intro hinvisible
  have hsame := hinvisible {} 2 0 (by decide) (by decide) confirmedPress slip heldOn glitch_slip
  revert hsame
  decide

end TouchInput

end LibreSwitch.Domain
