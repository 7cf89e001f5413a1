import Mathlib.Data.UInt
import LibreSwitch.Library.Machine
import LibreSwitch.Net.MqttService

/-!
# The reconnect schedule

When `ReconnectBackoff` allows a connection attempt, in terms of the attempts before it. After the
k-th failure in a row the wait is the base doubled k - 1 times, up to the cap, changed by at most
the jitter (`Follows`). The counter of milliseconds wraps and times are compared by the sign of a
32-bit difference, so an attempt is allowed for half a turn of the counter and the statement is
about offsets from the failure.

`attempts` are the attempts of a run of ticks of the MQTT service. `reconnect_schedule` says that
the service keeps to the schedule: every tick begins by asking the client whether there is a
connection, and asks for one exactly when there is none and the attempts so far allow one (`Obeys`).
-/

set_option autoImplicit false
set_option relaxedAutoImplicit false

namespace LibreSwitch.Net

open LibreSwitch.Library LibreSwitch.Domain

/-! ### The schedule -/

/-- How a connection attempt ended, a failed one with its time and its random number. -/
inductive Attempt
  | success
  | failure (now : Millis) (jitterSeed : UInt32)
  deriving DecidableEq, Repr

namespace Attempt

def failed : Attempt → Bool
  | success => false
  | failure _ _ => true

/-- The number of failures in a row at the end. -/
def streak (attempts : List Attempt) : ℕ := (attempts.rtakeWhile failed).length

@[simp] theorem streak_nil : streak [] = 0 := rfl

@[simp] theorem streak_concat_success (attempts : List Attempt) :
    streak (attempts ++ [success]) = 0 := by
  rw [streak, List.rtakeWhile_concat_neg _ _ _ (by simp [failed])]
  rfl

@[simp] theorem streak_concat_failure (attempts : List Attempt) (now : Millis) (seed : UInt32) :
    streak (attempts ++ [failure now seed]) = streak attempts + 1 := by
  rw [streak, List.rtakeWhile_concat_pos _ _ _ rfl, List.length_append, List.length_singleton]
  rfl

end Attempt

/-- The delay after the k-th failure in a row, before the jitter. -/
def nominalDelay (base max k : ℕ) : ℕ := min (base * 2 ^ (k - 1)) max

/-- When attempts are allowed behind these. Without a failure at the end they are allowed at once.
After a failure they are refused up to some delay near the nominal one, and allowed from there on
for half a turn of the counter. -/
structure Follows (base max jitterPct : ℕ) (attempts : List Attempt) (ready : Millis → Bool) :
    Prop where
  at_once : Attempt.streak attempts = 0 → ∀ now, ready now = true
  after_failure : ∀ earlier now seed, attempts = earlier ++ [.failure now seed] →
    ∃ delay spread nominal, nominal = nominalDelay base max (Attempt.streak attempts) ∧
      spread = nominal * jitterPct / 100 ∧ nominal ≤ delay + spread ∧ delay ≤ nominal + spread ∧
      (∀ offset < delay, ready (now + .ofNat offset) = false) ∧
      ∀ offset, delay ≤ offset → offset < delay + 2 ^ 31 → ready (now + .ofNat offset) = true

namespace ReconnectBackoff

/-- Reports an attempt to the backoff. -/
def record (backoff : ReconnectBackoff) : Attempt → ReconnectBackoff
  | .success => backoff.onSuccess
  | .failure now jitterSeed => backoff.onFailure now jitterSeed

/-- Reports attempts one after the other. -/
def replay (backoff : ReconnectBackoff) (attempts : List Attempt) : ReconnectBackoff :=
  attempts.foldl record backoff

theorem replay_append (backoff : ReconnectBackoff) (first second : List Attempt) :
    backoff.replay (first ++ second) = (backoff.replay first).replay second :=
  List.foldl_append

/-! ### Delays -/

/-- What the source's types are wide enough for. -/
structure Bounded (base max : Millis) (jitterPct : UInt8) : Prop where
  base_le : base ≤ max
  max_lt : max.toNat < 2 ^ 30
  pct_le : jitterPct.toNat ≤ 100
  product_lt : max.toNat * jitterPct.toNat < 2 ^ 32

theorem toNat_nextDouble (backoff : ReconnectBackoff) (delay : Millis) :
    (backoff.nextDouble delay).toNat = min (2 * delay.toNat) backoff.max.toNat := by
  have hdelay := delay.toNat_lt
  have hmax := backoff.max.toNat_lt
  have hdouble : (delay.toUInt64 * 2).toNat = 2 * delay.toNat := by
    rw [UInt64.toNat_mul, UInt32.toNat_toUInt64]
    simp only [UInt64.reduceToNat]
    omega
  unfold nextDouble
  dsimp only
  split_ifs with hcap
  · rw [gt_iff_lt, UInt64.lt_iff_toNat_lt, hdouble, UInt32.toNat_toUInt64] at hcap
    rw [UInt64.toNat_toUInt32, UInt32.toNat_toUInt64]
    omega
  · rw [gt_iff_lt, UInt64.lt_iff_toNat_lt, hdouble, UInt32.toNat_toUInt64] at hcap
    rw [UInt64.toNat_toUInt32, hdouble]
    omega

/-- The largest deviation that the jitter makes, without overflow. -/
theorem toNat_span {base max delay : Millis} {jitterPct : UInt8}
    (hbounded : Bounded base max jitterPct) (hdelay : delay ≤ max) :
    (delay * jitterPct.toUInt32 / 100).toNat = delay.toNat * jitterPct.toNat / 100 := by
  have hle : delay.toNat * jitterPct.toNat ≤ max.toNat * jitterPct.toNat :=
    Nat.mul_le_mul_right _ (UInt32.le_iff_toNat_le.mp hdelay)
  rw [UInt32.toNat_div, UInt32.toNat_mul, UInt8.toNat_toUInt32,
    Nat.mod_eq_of_lt (hle.trans_lt hbounded.product_lt)]
  rfl

/-- The jitter moves the delay by at most its percentage. -/
theorem applyJitter_bounds {base max delay : Millis} {jitterPct : UInt8}
    (hbounded : Bounded base max jitterPct) (hdelay : delay ≤ max) (backoff : ReconnectBackoff)
    (hpct : backoff.jitterPct = jitterPct) (seed : UInt32) :
    delay.toNat ≤ (backoff.applyJitter delay seed).toNat + delay.toNat * jitterPct.toNat / 100 ∧
      (backoff.applyJitter delay seed).toNat ≤
        delay.toNat + delay.toNat * jitterPct.toNat / 100 := by
  have hspan := toNat_span hbounded hdelay
  set span := delay * jitterPct.toUInt32 / 100 with hspanDef
  have hlt : delay.toNat < 2 ^ 30 :=
    (UInt32.le_iff_toNat_le.mp hdelay).trans_lt hbounded.max_lt
  have hle : span.toNat ≤ delay.toNat := by
    rw [hspan]
    have hproduct := Nat.mul_le_mul_left delay.toNat hbounded.pct_le
    omega
  rw [← hspan, applyJitter, hpct, ← hspanDef]
  dsimp only
  split_ifs with hzero hspanZero
  · exact ⟨Nat.le_add_right _ _, Nat.le_add_right _ _⟩
  · exact ⟨Nat.le_add_right _ _, Nat.le_add_right _ _⟩
  · have hwidth : (2 * span + 1).toNat = 2 * span.toNat + 1 := by
      rw [UInt32.toNat_add, UInt32.toNat_mul]
      simp only [UInt32.reduceToNat]
      omega
    have hrandom : (seed % (2 * span + 1)).toNat ≤ 2 * span.toNat := by
      rw [UInt32.toNat_mod, hwidth]
      exact Nat.le_of_lt_succ (Nat.mod_lt _ (Nat.succ_pos _))
    have hsub : (delay - span).toNat = delay.toNat - span.toNat :=
      UInt32.toNat_sub_of_le _ _ (UInt32.le_iff_toNat_le.mpr hle)
    rw [UInt32.toNat_add, hsub]
    omega

/-- Which offsets from the failure have reached the end of the delay. -/
theorem timeReached_offset (now delay : Millis) {offset : ℕ} (hdelay : delay.toNat < 2 ^ 31)
    (hoffset : offset < delay.toNat + 2 ^ 31) :
    timeReached (now + .ofNat offset) (now + delay) = decide (delay.toNat ≤ offset) := by
  have hsub : now + UInt32.ofNat offset - (now + delay) = UInt32.ofNat offset - delay :=
    add_sub_add_left_eq_sub _ _ _
  rw [timeReached, hsub, decide_eq_decide, UInt32.lt_iff_toNat_lt, UInt32.toNat_sub,
    UInt32.toNat_ofNat']
  simp only [UInt32.reduceToNat]
  omega

/-- What a backoff holds after these attempts. -/
structure Tuned (base max : Millis) (jitterPct : UInt8) (attempts : List Attempt)
    (backoff : ReconnectBackoff) : Prop where
  base_eq : backoff.base = base
  max_eq : backoff.max = max
  pct_eq : backoff.jitterPct = jitterPct
  current_eq : backoff.current.toNat =
    nominalDelay base.toNat max.toNat (Attempt.streak attempts + 1)
  armed_iff : backoff.armed = true ↔ Attempt.streak attempts ≠ 0

section Attempts

variable {base max : Millis} {jitterPct : UInt8}

theorem nominalDelay_one (hbounded : Bounded base max jitterPct) :
    nominalDelay base.toNat max.toNat 1 = base.toNat := by
  have hle := UInt32.le_iff_toNat_le.mp hbounded.base_le
  rw [nominalDelay, pow_zero, mul_one, min_eq_left hle]

/-- Another failure doubles the delay, up to the cap. -/
theorem nominalDelay_succ (base max k : ℕ) :
    nominalDelay base max (k + 2) = min (2 * nominalDelay base max (k + 1)) max := by
  simp only [nominalDelay, Nat.add_sub_cancel, Nat.reduceSubDiff, pow_succ]
  rw [← mul_assoc]
  omega

theorem tuned_new (hbounded : Bounded base max jitterPct) :
    Tuned base max jitterPct [] (new base max jitterPct) where
  base_eq := rfl
  max_eq := rfl
  pct_eq := rfl
  current_eq := (nominalDelay_one hbounded).symm
  armed_iff := by simp [new]

theorem Tuned.record (hbounded : Bounded base max jitterPct) {attempts : List Attempt}
    {backoff : ReconnectBackoff} (htuned : Tuned base max jitterPct attempts backoff)
    (attempt : Attempt) :
    Tuned base max jitterPct (attempts ++ [attempt]) (backoff.record attempt) := by
  cases attempt with
  | success =>
    refine ⟨htuned.base_eq, htuned.max_eq, htuned.pct_eq, ?_, ?_⟩
    · rw [Attempt.streak_concat_success, nominalDelay_one hbounded]
      exact congrArg UInt32.toNat htuned.base_eq
    · simp [ReconnectBackoff.record, onSuccess]
  | failure now seed =>
    refine ⟨htuned.base_eq, htuned.max_eq, htuned.pct_eq, ?_, ?_⟩
    · rw [Attempt.streak_concat_failure, nominalDelay_succ, ← htuned.current_eq,
        ← htuned.max_eq]
      exact toNat_nextDouble backoff backoff.current
    · simp [ReconnectBackoff.record, onFailure]

theorem tuned_replay (hbounded : Bounded base max jitterPct) (attempts : List Attempt) :
    Tuned base max jitterPct attempts ((new base max jitterPct).replay attempts) := by
  induction attempts using List.reverseRecOn with
  | nil => exact tuned_new hbounded
  | append_singleton attempts attempt ih =>
    rw [replay_append]
    exact ih.record hbounded attempt

/-- The failure that was reported last sets the next attempt. -/
theorem ready_onFailure (hbounded : Bounded base max jitterPct) {backoff : ReconnectBackoff}
    (hpct : backoff.jitterPct = jitterPct) (hcurrent : backoff.current ≤ max) (now : Millis)
    (seed : UInt32) : ∃ delay : ℕ,
      backoff.current.toNat ≤ delay + backoff.current.toNat * jitterPct.toNat / 100 ∧
      delay ≤ backoff.current.toNat + backoff.current.toNat * jitterPct.toNat / 100 ∧
      (∀ offset < delay, (backoff.onFailure now seed).ready (now + .ofNat offset) = false) ∧
      ∀ offset, delay ≤ offset → offset < delay + 2 ^ 31 →
        (backoff.onFailure now seed).ready (now + .ofNat offset) = true := by
  obtain ⟨hlow, hhigh⟩ := applyJitter_bounds hbounded hcurrent backoff hpct seed
  have hdelay : (backoff.applyJitter backoff.current seed).toNat < 2 ^ 31 := by
    have hlt := (UInt32.le_iff_toNat_le.mp hcurrent).trans_lt hbounded.max_lt
    have hproduct := Nat.mul_le_mul_left backoff.current.toNat hbounded.pct_le
    omega
  have hready : ∀ offset, offset < (backoff.applyJitter backoff.current seed).toNat + 2 ^ 31 →
      (backoff.onFailure now seed).ready (now + .ofNat offset) =
        decide ((backoff.applyJitter backoff.current seed).toNat ≤ offset) :=
    fun offset hoffset ↦ timeReached_offset now _ hdelay hoffset
  refine ⟨_, hlow, hhigh, fun offset hoffset ↦ ?_, fun offset hreached hoffset ↦ ?_⟩
  · rw [hready offset (by omega), decide_eq_false (by omega)]
  · rw [hready offset hoffset, decide_eq_true hreached]

/-- The backoff follows the schedule, whatever was attempted. -/
theorem follows_replay (hbounded : Bounded base max jitterPct) (attempts : List Attempt) :
    Follows base.toNat max.toNat jitterPct.toNat attempts
      ((new base max jitterPct).replay attempts).ready := by
  refine ⟨fun hstreak now ↦ ?_, ?_⟩
  · have harmed : ((new base max jitterPct).replay attempts).armed = false :=
      Bool.eq_false_iff.mpr fun harmed ↦
        (tuned_replay hbounded attempts).armed_iff.mp harmed hstreak
    rw [ready, harmed]
    rfl
  · rintro earlier now seed rfl
    have htuned := tuned_replay hbounded earlier
    have hcurrent : ((new base max jitterPct).replay earlier).current ≤ max := by
      rw [UInt32.le_iff_toNat_le, htuned.current_eq]
      exact min_le_right _ _
    obtain ⟨delay, hlow, hhigh, hrefused, hallowed⟩ :=
      ready_onFailure hbounded htuned.pct_eq hcurrent now seed
    rw [htuned.current_eq] at hlow hhigh
    rw [replay_append, Attempt.streak_concat_failure]
    exact ⟨delay, _, _, rfl, rfl, hlow, hhigh, hrefused, hallowed⟩

end Attempts

end ReconnectBackoff

/-! ### The ticks of the service -/

namespace MqttService

open Prog (Event)

abbrev MqttEvent := Event MqttCall MqttAns

/-- The connection attempt that an event of a tick is, if it is one. -/
def attemptOf (tick : Tick) : MqttEvent → Option Attempt
  | ⟨.connect _, true⟩ => some .success
  | ⟨.connect _, false⟩ => some (.failure tick.now tick.jitterSeed)
  | _ => none

/-- The attempts of ticks, in their order. -/
def attempts (run : List (Tick × List MqttEvent)) : List Attempt :=
  run.flatMap fun entry ↦ entry.2.filterMap (attemptOf entry.1)

/-- The service can make these ticks one after the other, each with this trace. -/
def Ticks : MqttService → List (Tick × List MqttEvent) → MqttService → Prop
  | service, [], after => after = service
  | service, (tick, trace) :: rest, after => ∃ next,
    (service.tick tick.now tick.jitterSeed tick.tsForPublish).Runs trace next ∧
      next.Ticks rest after

/-- The tick asked for a connection. -/
def Connects (trace : List MqttEvent) : Prop :=
  ∃ event ∈ trace, ∃ params, event.request = .connect params

/-- The tick first asks whether there is a connection, and then for one exactly if there is none and
the schedule allows it. -/
def Obeys (allowed : Bool) (trace : List MqttEvent) : Prop :=
  ∃ (isConnected : Bool) (calls : List MqttEvent), trace = ⟨.connected, isConnected⟩ :: calls ∧
    (Connects trace ↔ isConnected = false ∧ allowed = true)

/-- The calls that neither ask about the connection nor for one. -/
def Attends : MqttCall → Prop
  | .connected => False
  | .connect _ => False
  | _ => True

theorem attends_of_serves : ∀ request, Serves request → Attends request
  | .connected, hattends => hattends
  | .connect _, hattends => hattends
  | .publish _ _ _, _ => trivial
  | .subscribe _ _, _ => trivial
  | .loop, _ => trivial
  | .disconnect, _ => trivial
  | .pop, _ => trivial
  | .submit _, _ => trivial
  | .onOtaManifest _, _ => trivial
  | .onOtaConfirm, _ => trivial

theorem asksOnly_onConnected (service : MqttService) : service.onConnected.AsksOnly Attends :=
  ⟨trivial, fun _ ↦ ⟨trivial, fun _ ↦ trivial⟩⟩

section Trace

variable {trace : List MqttEvent}

theorem attempts_of_attends (htrace : ∀ event ∈ trace, Attends event.request) (tick : Tick) :
    trace.filterMap (attemptOf tick) = [] := by
  rw [List.filterMap_eq_nil_iff]
  rintro ⟨request, answer⟩ hevent
  have hattends := htrace _ hevent
  cases request with
  | connect params => exact hattends.elim
  | _ => rfl

theorem not_connects_of_attends (htrace : ∀ event ∈ trace, Attends event.request) :
    ¬ Connects trace := by
  rintro ⟨event, hevent, params, hparams⟩
  have hattends := htrace event hevent
  rw [hparams] at hattends
  exact hattends

/-- What one tick asks about the connection, and what it reports to the backoff. -/
structure Kept (service : MqttService) (tick : Tick) (trace : List MqttEvent)
    (next : MqttService) : Prop where
  obeys : Obeys (service.backoff.ready tick.now) trace
  backoff_eq : next.backoff = service.backoff.replay (trace.filterMap (attemptOf tick))

theorem connects_cons {event : MqttEvent} :
    Connects (event :: trace) ↔ (∃ params, event.request = .connect params) ∨ Connects trace := by
  simp [Connects]

/-- A connected tick attempts nothing. -/
theorem Kept.of_serve {service next : MqttService} (tick : Tick)
    (hruns : (service.serve tick.tsForPublish).Runs trace next) :
    service.Kept tick (⟨.connected, true⟩ :: trace) next := by
  have hattends := ((asksOnly_serve service tick.tsForPublish).mono attends_of_serves).of_runs hruns
  refine ⟨⟨true, trace, rfl, iff_of_false ?_ fun hallowed ↦ Bool.noConfusion hallowed.1⟩, ?_⟩
  · simp [connects_cons, not_connects_of_attends hattends]
  · rw [serve_runs hruns, List.filterMap_cons_none rfl, attempts_of_attends hattends]
    rfl

/-- An attempt is reported with its end. -/
theorem Kept.of_attemptConnect {service next : MqttService} (tick : Tick)
    (hready : service.backoff.ready tick.now = true)
    (hruns : (service.attemptConnect tick.now tick.jitterSeed).Runs trace next) :
    service.Kept tick (⟨.connected, false⟩ :: trace) next := by
  rw [attemptConnect, Prog.ask_bind] at hruns
  obtain ⟨accepted, rest, rfl, hruns⟩ := hruns
  refine ⟨⟨false, _, rfl, iff_of_true ?_ ⟨rfl, hready⟩⟩, ?_⟩
  · simp [connects_cons]
  · rw [List.filterMap_cons_none rfl]
    cases accepted with
    | true =>
      obtain ⟨_, first, second, rfl, hfirst, rfl, rfl⟩ := Prog.runs_bind.mp hruns
      have hattends := (asksOnly_onConnected service).of_runs hfirst
      have hend : attemptOf tick ⟨.connect service.connectParams, true⟩ = some .success := rfl
      rw [List.filterMap_cons_some hend, List.append_nil, attempts_of_attends hattends]
      rfl
    | false =>
      obtain ⟨rfl, rfl⟩ := hruns
      rfl

theorem tick_runs {service next : MqttService} (tick : Tick)
    (hruns : (service.tick tick.now tick.jitterSeed tick.tsForPublish).Runs trace next) :
    service.Kept tick trace next := by
  rw [MqttService.tick, Prog.ask_bind] at hruns
  obtain ⟨connected, rest, rfl, hruns⟩ := hruns
  cases connected with
  | true => exact .of_serve tick hruns
  | false =>
    simp only [Bool.false_eq_true, ↓reduceIte] at hruns
    split_ifs at hruns with hready
    · exact .of_attemptConnect tick hready hruns
    · obtain ⟨rfl, rfl⟩ := hruns
      exact ⟨⟨false, [], rfl, iff_of_false (by simp [Connects]) fun hallowed ↦
        hready hallowed.2⟩, rfl⟩

end Trace

/-- In every run each tick obeys the backoff after the attempts of the ticks before. -/
theorem ticks_split {service after : MqttService} {run : List (Tick × List MqttEvent)}
    (hrun : service.Ticks run after) {before rest : List (Tick × List MqttEvent)} {tick : Tick}
    {trace : List MqttEvent} (hsplit : run = before ++ (tick, trace) :: rest) :
    Obeys ((service.backoff.replay (attempts before)).ready tick.now) trace := by
  induction before generalizing service run with
  | nil =>
    subst hsplit
    obtain ⟨next, hfirst, -⟩ := hrun
    exact (tick_runs tick hfirst).obeys
  | cons entry before ih =>
    subst hsplit
    obtain ⟨next, hfirst, hrest⟩ := hrun
    rw [attempts, List.flatMap_cons, ReconnectBackoff.replay_append,
      ← (tick_runs entry.1 hfirst).backoff_eq]
    exact ih hrest rfl

/-- The schedule of a backoff within the width of its types, for every history of attempts, and
that every run of the service keeps to it. -/
theorem reconnect_schedule {base max : Millis} {jitterPct : UInt8} (hbase : base ≤ max)
    (hmax : max.toNat < 2 ^ 30) (hpct : jitterPct ≤ 100)
    (hproduct : max.toNat * jitterPct.toNat < 2 ^ 32) :
    (∀ history, Follows base.toNat max.toNat jitterPct.toNat history
      ((ReconnectBackoff.new base max jitterPct).replay history).ready) ∧
    ∀ (service after : MqttService) (run : List (Tick × List MqttEvent)),
      service.backoff = .new base max jitterPct → service.Ticks run after →
        ∀ before tick trace rest, run = before ++ (tick, trace) :: rest →
          Obeys (((ReconnectBackoff.new base max jitterPct).replay (attempts before)).ready
            tick.now) trace := by
  have hbounded : ReconnectBackoff.Bounded base max jitterPct :=
    ⟨hbase, hmax, UInt8.le_iff_toNat_le.mp hpct, hproduct⟩
  refine ⟨ReconnectBackoff.follows_replay hbounded, ?_⟩
  intro service after run hfresh hrun before tick trace rest hsplit
  rw [← hfresh]
  exact ticks_split hrun hsplit

/-- A service that was never connected. -/
def freshService : MqttService where
  topics := ⟨ascii "sw", ascii "A1"⟩
  clientId := ascii "A1"

/-- A tick that is refused a connection. -/
def refusedTick : Tick × List MqttEvent :=
  (⟨0, 0, 0⟩, [⟨.connected, false⟩, ⟨.connect freshService.connectParams, false⟩])

/-- A tick half a second later. -/
def laterTick : Tick × List MqttEvent := (⟨500, 0, 0⟩, [⟨.connected, false⟩])

theorem ticks_refused : freshService.Ticks [refusedTick, laterTick]
    { freshService with backoff := freshService.backoff.onFailure 0 0 } :=
  ⟨_, ⟨false, _, rfl, false, _, rfl, rfl, rfl⟩, _, ⟨false, _, rfl, rfl, rfl⟩, rfl⟩

/-- The defaults of the source: the first tick asks for a connection, a failure is followed by a
wait, and the second tick keeps to it. -/
theorem reconnect_schedule_witness :
    Follows 1000 60000 20 [.failure 0 0]
        ((ReconnectBackoff.new 1000 60000 20).replay [.failure 0 0]).ready ∧
      Connects refusedTick.2 ∧ ¬ Connects laterTick.2 := by
  obtain ⟨hfollows, hticks⟩ :=
    @reconnect_schedule 1000 60000 20 (by decide) (by decide) (by decide) (by decide)
  refine ⟨hfollows [.failure 0 0], ?_, fun hconnects ↦ ?_⟩
  · obtain ⟨isConnected, calls, htrace, hiff⟩ :=
      hticks freshService _ _ rfl ticks_refused [] _ _ [laterTick] rfl
    cases htrace
    exact hiff.mpr ⟨rfl, by decide⟩
  · obtain ⟨_, _, -, hiff⟩ := hticks freshService _ _ rfl ticks_refused [refusedTick] _ _ [] rfl
    exact absurd (hiff.mp hconnects).2 (by decide)

end MqttService

end LibreSwitch.Net
