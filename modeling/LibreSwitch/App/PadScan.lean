import Mathlib.Tactic
import LibreSwitch.App.ControlLoop
import LibreSwitch.Domain.StuckPair

/-!
# A scan of the pads as polls

`GpioTouchSource::scan` on a profile whose pins are all real polls the channels in index order, at
one time (`scan_eq_polls`). So what is proved about runs of polls and of scans is about the control
loop.
-/

set_option autoImplicit false
set_option relaxedAutoImplicit false

namespace LibreSwitch.App

open LibreSwitch.Library LibreSwitch.Domain LibreSwitch.Profiles

namespace GpioTouchSource

variable {ρ σ ι : Type} [RelaySink ρ] [StateChangePort σ ρ] [IndicatorSink ι]

/-- The polls of some channels at one time, given the pad readings to come. -/
def pollsOf (touch : GpioTouchSource) (time : ℕ) : List ℕ → (ℕ → Bool) → List Poll
  | [], _ => []
  | channel :: rest, readings =>
    ⟨channel, touch.readLevel (readings 0), time⟩ ::
      pollsOf touch time rest fun position ↦ readings (position + 1)

/-- A scan over channels with real pins is a run of their polls. -/
theorem scanLoop_eq_polls (touch : GpioTouchSource) (time : ℕ) {channels : List ℕ}
    (hpins : ∀ channel ∈ channels, (touch.profile.channels channel).touchPin ≠ kNoPin)
    (bench : Bench ρ σ ι) :
    touchCalls ((touch.scanLoop (UInt32.ofNat time) channels).history respond bench) =
        (TouchInput.machine.reports bench.plane.engine
          (touch.pollsOf time channels bench.readings)).flatten ∧
      ((touch.scanLoop (UInt32.ofNat time) channels).runOn respond bench).2.plane.engine =
        TouchInput.machine.final bench.plane.engine
          (touch.pollsOf time channels bench.readings) := by
  induction channels generalizing bench with
  | nil => exact ⟨rfl, rfl⟩
  | cons channel rest ih =>
    obtain ⟨hcalls, hengine, hreadings, -⟩ :=
      scanChannel_spec touch (UInt32.ofNat time) channel bench
    obtain ⟨hrest, hlast⟩ := ih (fun other hother ↦ hpins other (List.mem_cons_of_mem _ hother))
      ((touch.scanChannel (UInt32.ofNat time) channel).runOn respond bench).2
    rw [hengine, hreadings] at hrest hlast
    unfold GpioTouchSource.scanLoop
    rw [if_neg (hpins channel List.mem_cons_self), Prog.history_bind, Prog.runOn_bind,
      touchCalls_append, hcalls, hrest]
    exact ⟨rfl, hlast⟩

theorem pollsOf_range' (touch : GpioTouchSource) (time : ℕ) (readings : ℕ → Bool)
    (first count : ℕ) :
    touch.pollsOf time (List.range' first count) (fun position ↦ readings (first + position)) =
      (List.range' first count).map fun channel ↦
        ⟨channel, touch.readLevel (readings channel), time⟩ := by
  induction count generalizing first with
  | zero => rfl
  | succ count ih =>
    rw [List.range'_succ, pollsOf, List.map_cons, ← ih (first + 1)]
    simp only [Nat.add_zero, Nat.add_assoc, Nat.add_comm 1]

/-- A scan polls the channels of the profile in index order, each with its own reading. -/
theorem scan_eq_polls (touch : GpioTouchSource) (time : ℕ)
    (hpins : ∀ channel < touch.profile.channelCount,
      (touch.profile.channels channel).touchPin ≠ kNoPin) (bench : Bench ρ σ ι) {scan : Scan}
    (hscan : scan = ⟨time, fun channel ↦ touch.readLevel (bench.readings channel)⟩) :
    touchCalls ((touch.scan scan.nowMs).history respond bench) =
        (TouchInput.machine.reports bench.plane.engine
          (scan.polls touch.profile.channelCount)).flatten ∧
      ((touch.scan scan.nowMs).runOn respond bench).2.plane.engine =
        TouchInput.machine.final bench.plane.engine
          (scan.polls touch.profile.channelCount) := by
  subst hscan
  have hpolls := pollsOf_range' touch time bench.readings 0 touch.profile.channelCount
  simp only [Nat.zero_add, ← List.range_eq_range'] at hpolls
  rw [Scan.polls, ← hpolls]
  exact scanLoop_eq_polls touch time (fun channel hchannel ↦ hpins channel
    (List.mem_range.mp hchannel)) bench

end GpioTouchSource

end LibreSwitch.App
