import Mathlib.Tactic
import LibreSwitch.Domain.TouchInput

/-!
# Reconnecting with backoff

`ReconnectBackoff` of `net/reconnect_backoff.h`: the delay doubles with every failure up to a cap,
is spread by a jitter from a given seed, and goes back to its base on success. Times are those of
the millisecond counter, compared by the sign of their difference.
-/

set_option autoImplicit false
set_option relaxedAutoImplicit false

namespace LibreSwitch.Net

open LibreSwitch.Domain

/-- `ReconnectBackoff`. -/
structure ReconnectBackoff where
  base : Millis
  max : Millis
  jitterPct : UInt8
  current : Millis
  nextAttempt : Millis := 0
  armed : Bool := false
  deriving DecidableEq, Repr

namespace ReconnectBackoff

/-- The constructor, with the source's defaults. -/
def new (base : Millis := 1000) (max : Millis := 60000) (jitterPct : UInt8 := 20) :
    ReconnectBackoff :=
  { base := base, max := max, jitterPct := jitterPct, current := base }

/-- `nextDouble`, in the 64 bits of the source. -/
def nextDouble (backoff : ReconnectBackoff) (delay : Millis) : Millis :=
  let doubled := delay.toUInt64 * 2
  (if doubled > backoff.max.toUInt64 then backoff.max.toUInt64 else doubled).toUInt32

def applyJitter (backoff : ReconnectBackoff) (delay : Millis) (seed : UInt32) : Millis :=
  if backoff.jitterPct = 0 then delay
  else
    let span := delay * backoff.jitterPct.toUInt32 / 100
    if span = 0 then delay
    else delay - span + seed % (2 * span + 1)

/-- `timeReached`: the difference is not negative as a signed number. -/
def timeReached (now target : Millis) : Bool := now - target < 0x80000000

def onFailure (backoff : ReconnectBackoff) (now : Millis) (jitterSeed : UInt32) :
    ReconnectBackoff :=
  { backoff with
    nextAttempt := now + backoff.applyJitter backoff.current jitterSeed
    current := backoff.nextDouble backoff.current
    armed := true }

def onSuccess (backoff : ReconnectBackoff) : ReconnectBackoff :=
  { backoff with current := backoff.base, armed := false }

def ready (backoff : ReconnectBackoff) (now : Millis) : Bool :=
  !backoff.armed || timeReached now backoff.nextAttempt

/-- The delay never exceeds the cap. -/
theorem nextDouble_le (backoff : ReconnectBackoff) (delay : Millis) :
    backoff.nextDouble delay ≤ backoff.max := by
  unfold nextDouble
  rw [UInt32.le_iff_toNat_le]
  have hmax := backoff.max.toNat_lt
  dsimp only
  split_ifs with hdoubled
  · exact le_of_eq (by simp)
  · rw [gt_iff_lt, UInt64.lt_iff_toNat_lt, not_lt, UInt32.toNat_toUInt64] at hdoubled
    rw [UInt64.toNat_toUInt32, Nat.mod_eq_of_lt (by omega)]
    exact hdoubled

end ReconnectBackoff

end LibreSwitch.Net
