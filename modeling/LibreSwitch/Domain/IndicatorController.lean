import Mathlib.Tactic
import LibreSwitch.Domain.TouchInput

/-!
# The status indicator

The status-LED part of `IndicatorController` of `domain/indicator_controller.h`, with the value
types of `indicator_types.h`. The controller maps a device status to a blink period, lets the
factory-reset progress override it with an accelerating blink, and on every tick drives the LED
when its level has to change.
-/

set_option autoImplicit false
set_option relaxedAutoImplicit false

namespace LibreSwitch.Domain

/-- `DeviceStatus` of `indicator_types.h`. -/
inductive DeviceStatus
  | booting
  | provisioning
  | connecting
  | online
  | offline
  | fault
  | factoryReset
  deriving DecidableEq, Repr

/-- The port `IndicatorSink`, as far as the status LED needs it. -/
class IndicatorSink (ι : Type) where
  setStatusLed : ι → Bool → ι

/-- A sink that records the levels it is set to. -/
instance : IndicatorSink (List Bool) where
  setStatusLed log on := log ++ [on]

/-- `IndicatorController`, with the sink it drives. -/
structure IndicatorController (ι : Type) where
  sink : ι
  status : DeviceStatus := .booting
  phaseStart : Millis := 0
  lastTick : Millis := 0
  ledOn : Bool := false
  resetActive : Bool := false
  resetElapsed : Millis := 0
  resetTotal : Millis := 1

namespace IndicatorController

variable {ι : Type} [IndicatorSink ι]

def setStatus (indicator : IndicatorController ι) (status : DeviceStatus) :
    IndicatorController ι :=
  if status ≠ indicator.status then
    { indicator with status := status, phaseStart := indicator.lastTick, ledOn := false }
  else indicator

def setResetProgress (indicator : IndicatorController ι) (elapsedMs totalMs : Millis) :
    IndicatorController ι :=
  { indicator with
    resetActive := true
    resetElapsed := elapsedMs
    resetTotal := if totalMs = 0 then 1 else totalMs }

def clearResetProgress (indicator : IndicatorController ι) : IndicatorController ι :=
  { indicator with resetActive := false }

/-- `resetBlinkPeriod`: from 600 ms down to 80 ms as the hold nears completion, then solid. The
arithmetic is that of the source, modulo `2 ^ 32`. -/
def resetBlinkPeriod (indicator : IndicatorController ι) : Millis :=
  if indicator.resetElapsed ≥ indicator.resetTotal then 0
  else 600 - ((600 - 80) * (indicator.resetElapsed * 100 / indicator.resetTotal)) / 100

def currentPeriodMs (indicator : IndicatorController ι) : Millis :=
  if indicator.resetActive then indicator.resetBlinkPeriod
  else
    match indicator.status with
    | .booting => 0
    | .provisioning => 500
    | .connecting => 200
    | .online => 0
    | .offline => 2000
    | .fault => 100
    | .factoryReset => indicator.resetBlinkPeriod

/-- `solidLevelForStatus`: every solid state has the LED on. -/
def solidLevelForStatus (indicator : IndicatorController ι) : Bool :=
  if indicator.resetActive && indicator.resetElapsed ≥ indicator.resetTotal then true
  else
    match indicator.status with
    | .booting => true
    | .online => true
    | _ => true

def driveLed (indicator : IndicatorController ι) (on : Bool) : IndicatorController ι :=
  if on ≠ indicator.ledOn then
    { indicator with ledOn := on, sink := IndicatorSink.setStatusLed indicator.sink on }
  else indicator

def stepBlink (indicator : IndicatorController ι) (nowMs period : Millis) :
    IndicatorController ι :=
  indicator.driveLed ((nowMs - indicator.phaseStart) % period < period / 2)

def tick (indicator : IndicatorController ι) (nowMs : Millis) : IndicatorController ι :=
  let indicator := { indicator with lastTick := nowMs }
  if indicator.currentPeriodMs = 0 then indicator.driveLed indicator.solidLevelForStatus
  else indicator.stepBlink nowMs indicator.currentPeriodMs

/-! ### What the operations do to the pattern -/

section Pattern

variable (indicator : IndicatorController ι)

omit [IndicatorSink ι] in
@[simp] theorem status_setStatus (status : DeviceStatus) :
    (indicator.setStatus status).status = status := by
  unfold setStatus
  split_ifs with hchange
  · rfl
  · exact (not_not.mp hchange).symm

omit [IndicatorSink ι] in
@[simp] theorem resetActive_setStatus (status : DeviceStatus) :
    (indicator.setStatus status).resetActive = indicator.resetActive := by
  unfold setStatus
  split_ifs <;> rfl

@[simp] theorem status_driveLed (on : Bool) :
    (indicator.driveLed on).status = indicator.status := by
  unfold driveLed
  split_ifs <;> rfl

@[simp] theorem resetActive_driveLed (on : Bool) :
    (indicator.driveLed on).resetActive = indicator.resetActive := by
  unfold driveLed
  split_ifs <;> rfl

@[simp] theorem status_tick (nowMs : Millis) :
    (indicator.tick nowMs).status = indicator.status := by
  unfold tick stepBlink
  dsimp only
  split_ifs <;> rw [status_driveLed]

@[simp] theorem resetActive_tick (nowMs : Millis) :
    (indicator.tick nowMs).resetActive = indicator.resetActive := by
  unfold tick stepBlink
  dsimp only
  split_ifs <;> rw [resetActive_driveLed]

end Pattern

end IndicatorController

end LibreSwitch.Domain
