import LibreSwitch.Library.Machine
import LibreSwitch.Domain.IndicatorController

/-!
# The level of the status LED

`IndicatorController` remembers the level it drove last (`ledOn`) and drives the LED only when the
level has to change. A new status puts what it remembers to off without driving the LED, so the two
can differ until a tick puts the LED on. `led_follows_iff` says exactly which sequences of calls
this shows in: those with a tick whose pattern has the LED off, behind a change of status since the
tick before, where the pattern had it on.
-/

set_option autoImplicit false
set_option relaxedAutoImplicit false

namespace LibreSwitch.Domain

open LibreSwitch.Library

/-- The calls on the controller that concern the status LED. -/
inductive IndicatorOp
  | setStatus (status : DeviceStatus)
  | setResetProgress (elapsedMs totalMs : Millis)
  | clearResetProgress
  | tick (nowMs : Millis)
  deriving DecidableEq, Repr

namespace IndicatorController

/-! ### The pattern and the LED -/

section Pattern

variable {ι : Type}

/-- The level that the pattern prescribes: on when it does not blink, otherwise on in the first
half of the period counted from the start of the phase. -/
def prescribed (indicator : IndicatorController ι) (nowMs : Millis) : Bool :=
  indicator.currentPeriodMs = 0 ||
    (nowMs - indicator.phaseStart).toNat % indicator.currentPeriodMs.toNat <
      indicator.currentPeriodMs.toNat / 2

theorem solidLevelForStatus_eq (indicator : IndicatorController ι) :
    indicator.solidLevelForStatus = true := by
  unfold solidLevelForStatus
  split_ifs
  · rfl
  · cases indicator.status <;> rfl

variable [IndicatorSink ι]

def perform (indicator : IndicatorController ι) : IndicatorOp → IndicatorController ι
  | .setStatus status => indicator.setStatus status
  | .setResetProgress elapsedMs totalMs => indicator.setResetProgress elapsedMs totalMs
  | .clearResetProgress => indicator.clearResetProgress
  | .tick nowMs => indicator.tick nowMs

def performAll (indicator : IndicatorController ι) (ops : List IndicatorOp) :
    IndicatorController ι :=
  ops.foldl perform indicator

theorem performAll_append (indicator : IndicatorController ι) (first second : List IndicatorOp) :
    indicator.performAll (first ++ second) = (indicator.performAll first).performAll second :=
  List.foldl_append

/-- A tick drives the LED to the prescribed level. -/
theorem tick_eq (indicator : IndicatorController ι) (nowMs : Millis) :
    indicator.tick nowMs =
      ({ indicator with lastTick := nowMs }).driveLed (indicator.prescribed nowMs) := by
  have hperiod : ({ indicator with lastTick := nowMs }).currentPeriodMs =
      indicator.currentPeriodMs := rfl
  unfold tick prescribed
  dsimp only
  rw [hperiod]
  split_ifs with hzero
  · rw [solidLevelForStatus_eq, decide_eq_true hzero, Bool.true_or]
  · rw [stepBlink, decide_eq_false hzero, Bool.false_or]
    congr 1

@[simp] theorem ledOn_driveLed (indicator : IndicatorController ι) (on : Bool) :
    (indicator.driveLed on).ledOn = on := by
  unfold driveLed
  split_ifs with hon
  · rfl
  · exact (not_not.mp hon).symm

/-- Driving the LED leaves the pattern alone. -/
theorem prescribed_tick (indicator : IndicatorController ι) (nowMs : Millis) :
    (indicator.tick nowMs).prescribed nowMs = indicator.prescribed nowMs := by
  rw [tick_eq, driveLed]
  split_ifs <;> rfl

end Pattern

/-- The level of an LED that was off at first: the one it was driven to last. -/
def lit (indicator : IndicatorController (List Bool)) : Bool := indicator.sink.getLastD false

/-- The LED is driven only when the level to drive is not the one remembered. -/
theorem lit_driveLed (indicator : IndicatorController (List Bool)) (on : Bool) :
    (indicator.driveLed on).lit = if on = indicator.ledOn then indicator.lit else on := by
  unfold driveLed lit
  by_cases hon : on = indicator.ledOn
  · rw [if_neg (not_not.mpr hon), if_pos hon]
  · rw [if_pos hon, if_neg hon]
    exact List.getLastD_concat

/-! ### Between two ticks -/

/-- The status is changed by some call of the list. -/
def changesStatus (status : DeviceStatus) : List IndicatorOp → Bool
  | [] => false
  | .setStatus other :: rest => other ≠ status || changesStatus status rest
  | _ :: rest => changesStatus status rest

/-- None of the calls is a tick. -/
def Quiet (ops : List IndicatorOp) : Prop := ∀ op ∈ ops, ∀ nowMs, op ≠ .tick nowMs

/-- Without a tick the LED stays as it is, and a change of status is forgotten as off. -/
theorem performAll_quiet {indicator : IndicatorController (List Bool)} {ops : List IndicatorOp}
    (hquiet : Quiet ops) : (indicator.performAll ops).lit = indicator.lit ∧
      (indicator.performAll ops).ledOn =
        (indicator.ledOn && !changesStatus indicator.status ops) := by
  induction ops generalizing indicator with
  | nil => exact ⟨rfl, by simp [performAll, changesStatus]⟩
  | cons op rest ih =>
    have hrest : Quiet rest := fun other hother ↦ hquiet other (List.mem_cons_of_mem _ hother)
    cases op with
    | tick nowMs => exact absurd rfl (hquiet _ (List.mem_cons_self ..) nowMs)
    | setResetProgress elapsedMs totalMs => exact ih hrest
    | clearResetProgress => exact ih hrest
    | setStatus status =>
      obtain ⟨hlit, hled⟩ := @ih (indicator.setStatus status) hrest
      rw [performAll, List.foldl_cons, perform]
      refine ⟨hlit.trans ?_, hled.trans ?_⟩
      · unfold setStatus
        split_ifs <;> rfl
      · by_cases hstatus : status = indicator.status
        · simp [setStatus, changesStatus, hstatus]
        · simp [setStatus, changesStatus, hstatus]

/-- Calls without a tick, or the last tick with the calls behind it. -/
theorem quiet_or_exists_tick (ops : List IndicatorOp) : Quiet ops ∨
    ∃ earlier nowMs between, ops = earlier ++ .tick nowMs :: between ∧ Quiet between := by
  induction ops with
  | nil => exact .inl nofun
  | cons op rest ih =>
    rcases ih with hquiet | ⟨earlier, nowMs, between, rfl, hbetween⟩
    · by_cases htick : ∃ nowMs, op = .tick nowMs
      · obtain ⟨nowMs, rfl⟩ := htick
        exact .inr ⟨[], nowMs, rest, rfl, hquiet⟩
      · refine .inl fun other hother nowMs heq ↦ ?_
        rcases List.mem_cons.mp hother with rfl | hmem
        · exact htick ⟨nowMs, heq⟩
        · exact hquiet other hmem nowMs heq
    · exact .inr ⟨op :: earlier, nowMs, between, rfl, hbetween⟩

/-! ### Whole sequences of calls -/

/-- The controller behind some calls. -/
def after (ops : List IndicatorOp) : IndicatorController (List Bool) :=
  performAll { sink := [] } ops

/-- Behind a tick the LED has the level that the pattern prescribes. -/
def Follows (before : List IndicatorOp) (op : IndicatorOp) : Prop :=
  ∀ nowMs, op = .tick nowMs →
    (after (before ++ [op])).lit = (after (before ++ [op])).prescribed nowMs

/-- Where the status was changed since the last tick and the pattern had the LED on at that tick,
it has it on at this one. -/
def KeepsOn (before : List IndicatorOp) (op : IndicatorOp) : Prop :=
  ∀ nowMs, op = .tick nowMs →
    ∀ earlier lastMs between, before = earlier ++ .tick lastMs :: between →
    Quiet between → changesStatus (after earlier).status between = true →
      (after earlier).prescribed lastMs = true → (after before).prescribed nowMs = true

theorem after_append (first second : List IndicatorOp) :
    after (first ++ second) = (after first).performAll second := performAll_append _ _ _

theorem after_concat (before : List IndicatorOp) (op : IndicatorOp) :
    after (before ++ [op]) = (after before).perform op := after_append _ _

/-- A tick leaves the LED right exactly when it drives it or finds it right. -/
theorem follows_tick_iff (before : List IndicatorOp) (nowMs : Millis) :
    Follows before (.tick nowMs) ↔ ((after before).prescribed nowMs = (after before).ledOn →
      (after before).lit = (after before).prescribed nowMs) := by
  have hlevel : (after (before ++ [.tick nowMs])).lit =
      if (after before).prescribed nowMs = (after before).ledOn then (after before).lit
      else (after before).prescribed nowMs := by
    rw [after_concat, perform, tick_eq]
    exact lit_driveLed _ _
  have hpattern : (after (before ++ [.tick nowMs])).prescribed nowMs =
      (after before).prescribed nowMs := by
    rw [after_concat]
    exact prescribed_tick _ _
  constructor
  · intro hfollows hsame
    have hlit := hfollows nowMs rfl
    rwa [hlevel, hpattern, if_pos hsame] at hlit
  · rintro hlit _ ⟨⟩
    rw [hlevel, hpattern]
    split_ifs with hsame
    · exact hlit hsame
    · rfl

/-- What is remembered and what the LED shows, behind a tick that left it right and calls without
a tick. -/
theorem after_tick_quiet {earlier between : List IndicatorOp} {lastMs : Millis}
    (hquiet : Quiet between) (hfollows : Follows earlier (.tick lastMs)) :
    (after (earlier ++ .tick lastMs :: between)).lit = (after earlier).prescribed lastMs ∧
      (after (earlier ++ .tick lastMs :: between)).ledOn = ((after earlier).prescribed lastMs &&
        !changesStatus (after earlier).status between) := by
  have hsplit : earlier ++ .tick lastMs :: between = (earlier ++ [.tick lastMs]) ++ between := by
    rw [List.append_assoc, List.singleton_append]
  have htick : after (earlier ++ [.tick lastMs]) = (after earlier).tick lastMs := after_concat _ _
  obtain ⟨hlit, hled⟩ := @performAll_quiet (after (earlier ++ [.tick lastMs])) between hquiet
  have hstatus : ((after earlier).tick lastMs).status = (after earlier).status := by
    rw [tick_eq, driveLed]
    split_ifs <;> rfl
  have hon : ((after earlier).tick lastMs).ledOn = (after earlier).prescribed lastMs := by
    rw [tick_eq, ledOn_driveLed]
  rw [hsplit, after_append]
  refine ⟨hlit.trans ?_, hled.trans ?_⟩
  · rw [hfollows lastMs rfl, htick, prescribed_tick]
  · rw [htick, hstatus, hon]

/-- Behind calls whose ticks left the LED right, a tick does exactly when it keeps on what has to be
kept on. -/
theorem follows_iff_keepsOn {before : List IndicatorOp} (hbefore : AtEvery Follows before)
    (op : IndicatorOp) : Follows before op ↔ KeepsOn before op := by
  cases op with
  | tick nowMs =>
    rw [follows_tick_iff]
    constructor
    · rintro hright _ ⟨⟩ earlier lastMs between rfl hquiet hchanged hon
      obtain ⟨hlit, hled⟩ := after_tick_quiet hquiet (hbefore earlier (.tick lastMs) between rfl)
      rw [hlit, hled, hon, hchanged] at hright
      by_contra hoff
      rw [Bool.not_eq_true] at hoff
      exact absurd (hright hoff) (by rw [hoff]; decide)
    · intro hkeeps hsame
      rcases quiet_or_exists_tick before with hquiet | ⟨earlier, lastMs, between, rfl, hquiet⟩
      · obtain ⟨hlit, hled⟩ := @performAll_quiet { sink := [] } before hquiet
        rw [hsame]
        exact hlit.trans hled.symm
      · obtain ⟨hlit, hled⟩ := after_tick_quiet hquiet (hbefore earlier (.tick lastMs) between rfl)
        have hon := hkeeps nowMs rfl earlier lastMs between rfl hquiet
        rw [hsame] at hon ⊢
        rw [hlit, hled] at *
        cases hlevel : (after earlier).prescribed lastMs with
        | false => rfl
        | true =>
          cases hchanged : changesStatus (after earlier).status between with
          | false => rfl
          | true => exact absurd (hon hchanged hlevel) (by simp [hchanged])
  | _ => exact iff_of_true nofun nofun

/-- Exactly when the LED follows the pattern: in every sequence of calls it has the prescribed level
behind every tick if and only if no tick with a change of status behind the one before it takes the
LED from on to off. -/
theorem led_follows_iff (ops : List IndicatorOp) : AtEvery Follows ops ↔ AtEvery KeepsOn ops :=
  atEvery_congr (fun _ op hbefore ↦ follows_iff_keepsOn hbefore op) ops

/-- The times of the ticks do not decrease. -/
def InOrder (ops : List IndicatorOp) : Prop :=
  (ops.filterMap fun op ↦ match op with | .tick nowMs => some nowMs | _ => none).Pairwise (· ≤ ·)

/-- The connection is lost while the LED is on, and the next tick falls into the dark half. -/
def lostConnection : List IndicatorOp := [.tick 0, .setStatus .offline, .tick 1000]

/-- The LED stays on where the pattern has it off. -/
theorem led_stays_on : ¬ ∀ ops, InOrder ops → AtEvery Follows ops := by
  intro hall
  have horder : InOrder lostConnection := by unfold InOrder lostConnection; decide
  have hfollows := hall lostConnection horder [.tick 0, .setStatus .offline] (.tick 1000) [] rfl
  exact absurd (hfollows 1000 rfl) (by decide)

end IndicatorController

end LibreSwitch.Domain
