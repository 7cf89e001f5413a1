import Mathlib.Tactic
import LibreSwitch.Domain.TouchInput

/-!
# The health window

`OtaHealthConfirm` of `net/ota_health_confirm.h`: whether the firmware that booted after an update
has proved itself. `evaluate_eq_confirmed_iff` and `evaluate_eq_rollback_iff` are its
specification. The criteria are looked at before the clock, and the elapsed time is taken modulo
the width of the millisecond counter.
-/

set_option autoImplicit false
set_option relaxedAutoImplicit false

namespace LibreSwitch.Net

open LibreSwitch.Domain

/-- `HealthOutcome`. -/
inductive HealthOutcome
  | pending
  | confirmed
  | rollback
  deriving DecidableEq, Repr

/-- `OtaHealthConfirm`, with the source's defaults. -/
structure OtaHealthConfirm where
  windowMs : Millis := 180000
  bootAt : Millis := 0
  started : Bool := false
  reachedScheduler : Bool := false
  localControlOk : Bool := false
  networkUp : Bool := false
  explicitConfirm : Bool := false
  deriving DecidableEq, Repr

namespace OtaHealthConfirm

def onBoot (health : OtaHealthConfirm) (now : Millis) : OtaHealthConfirm :=
  { health with bootAt := now, reachedScheduler := true, started := true }

def markLocalControlOk (health : OtaHealthConfirm) : OtaHealthConfirm :=
  { health with localControlOk := true }

def markNetworkUp (health : OtaHealthConfirm) : OtaHealthConfirm :=
  { health with networkUp := true }

def markExplicitConfirm (health : OtaHealthConfirm) : OtaHealthConfirm :=
  { health with explicitConfirm := true }

def allCriteriaMet (health : OtaHealthConfirm) : Bool :=
  health.reachedScheduler && health.localControlOk && health.networkUp && health.explicitConfirm

def elapsed (health : OtaHealthConfirm) (now : Millis) : Millis := now - health.bootAt

def evaluate (health : OtaHealthConfirm) (now : Millis) : HealthOutcome :=
  if !health.started then .pending
  else if health.allCriteriaMet then .confirmed
  else if health.elapsed now ≥ health.windowMs then .rollback
  else .pending

theorem evaluate_eq_confirmed_iff {health : OtaHealthConfirm} {now : Millis} :
    health.evaluate now = .confirmed ↔ health.started = true ∧ health.allCriteriaMet = true := by
  unfold evaluate
  split_ifs with hstarted hcriteria helapsed
  · simp_all
  · simp_all
  · simp_all
  · simp_all

theorem evaluate_eq_rollback_iff {health : OtaHealthConfirm} {now : Millis} :
    health.evaluate now = .rollback ↔ health.started = true ∧ health.allCriteriaMet = false ∧
      health.windowMs ≤ health.elapsed now := by
  unfold evaluate
  split_ifs with hstarted hcriteria helapsed
  · simp_all
  · simp_all
  · simp_all
  · simp_all

/-- A milestone of the window: one of its criteria is met, and nothing else changes. -/
inductive Marks : OtaHealthConfirm → OtaHealthConfirm → Prop
  | localControlOk (health : OtaHealthConfirm) : Marks health health.markLocalControlOk
  | networkUp (health : OtaHealthConfirm) : Marks health health.markNetworkUp
  | explicitConfirm (health : OtaHealthConfirm) : Marks health health.markExplicitConfirm

/-- A milestone neither moves the window nor takes a criterion back. -/
theorem Marks.keeps {health health' : OtaHealthConfirm} (hmarks : Marks health health') :
    health'.windowMs = health.windowMs ∧ health'.bootAt = health.bootAt ∧
      health'.started = health.started ∧
      (health.allCriteriaMet = true → health'.allCriteriaMet = true) := by
  cases hmarks <;> simp_all [markLocalControlOk, markNetworkUp, markExplicitConfirm,
    allCriteriaMet]

end OtaHealthConfirm

end LibreSwitch.Net
