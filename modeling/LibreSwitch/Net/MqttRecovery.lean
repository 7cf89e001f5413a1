import LibreSwitch.Net.ListeningSession
import LibreSwitch.Net.PublishedStates
import LibreSwitch.Net.ReconnectSchedule

/-!
# Recovery of the MQTT service

How long the MQTT service takes to catch up once the broker can be reached. To the world of
`MqttWorld` comes a clock, and a moment from which on the client is healthy: it succeeds in what it
is asked, keeps the connection, and takes no manifest that makes the device yield it. Before that
moment it does what it likes. Announcements come at any time, before and after.

`recovers` says that the first tick which begins after the longest delay of the backoff has passed
since then ends with a connection, and that after every later tick nothing that was announced before
the tick is left in the queue. All of it was published, unless newer announcements pushed it out, so
the broker retains the last state of every relay. Ticks may be far apart, as long as the counter of
milliseconds does not lap them.

A pop is one step here, as in `MqttWorld`, and announcements fall between two calls. What becomes of
an announcement that preempts a pop is the matter of `BoundedQueue.popPreemptedBy`.
-/

set_option autoImplicit false
set_option relaxedAutoImplicit false

namespace LibreSwitch.Net

open LibreSwitch.Library LibreSwitch.Domain LibreSwitch.Platform

/-! ### The world with its clock -/

/-- The longest delay that the backoff of the service comes to, with its jitter. -/
def kLongestDelay : ℕ := 72000

/-- The world of the service, with the true time in milliseconds, when the last tick began and how
much was announced by then, whether the session listens, since when the client is healthy and how
many announcements had left the queue at that moment, whether the session was opened since then, and
how many ticks began after the longest delay. -/
structure TimedWorld where
  net : MqttWorld := .fresh
  clock : ℕ := 0
  lastTick : ℕ := 0
  mark : ℕ := 0
  listens : Bool := false
  healthy : Bool := false
  healedAt : ℕ := 0
  goneThen : ℕ := 0
  opened : Bool := false
  rounds : ℕ := 0

namespace TimedWorld

/-- The answers of a healthy client, and of a sink that does not yield the connection. -/
def Obliges : (request : MqttCall) → MqttAns request → Prop
  | .connect _, connected => connected = true
  | .publish _ _ _, published => published = true
  | .subscribe _ _, subscribed => subscribed = true
  | .onOtaManifest _, yields => yields = false
  | _, _ => True

/-- What an answer means for the session. -/
def answered (topics : MqttTopics) (world : TimedWorld) (net : MqttWorld) :
    (request : MqttCall) → MqttAns request → TimedWorld
  | .connect _, connected =>
    { world with net := net, listens := false, opened := connected && world.healthy }
  | .subscribe filter _, subscribed =>
    { world with
      net := net
      listens := world.listens || subscribed && filter = MqttService.commandFilter topics }
  | _, _ => { world with net := net }

/-- What a call can answer, and the world it leaves. -/
def Answers (topics : MqttTopics) (world : TimedWorld) (request : MqttCall)
    (reply : MqttAns request) (world' : TimedWorld) : Prop :=
  (world.healthy = true → Obliges request reply) ∧
    ∃ net, MqttWorld.Answers topics world.net request reply net ∧
      world' = world.answered topics net request reply

/-- Between two calls a state is announced, the connection drops, time passes, or the client becomes
healthy. -/
inductive Interferes (world : TimedWorld) : TimedWorld → Prop
  | announce (pending : PendingState) (hchannel : pending.ch < 256) :
      Interferes world { world with net := world.net.onStateChanged pending }
  | drop (hill : world.healthy = false) :
      Interferes world { world with net := { world.net with isConnected := false } }
  | pass (ms : ℕ) : Interferes world { world with clock := world.clock + ms }
  | heal (hill : world.healthy = false) :
      Interferes world
        { world with healthy := true, healedAt := world.clock, goneThen := world.net.gone }

def setting (topics : MqttTopics) : Setting MqttCall MqttAns TimedWorld where
  answers := Answers topics
  interferes := Interferes

/-- The world at the beginning of a tick. -/
def begun (world : TimedWorld) : TimedWorld :=
  { world with
    lastTick := world.clock
    mark := world.net.announced.length
    rounds :=
      if world.healthy = true ∧ world.healedAt + kLongestDelay ≤ world.clock then world.rounds + 1
      else world.rounds }

/-- A tick reads the counter when it begins. The last one is not as long ago as the counter takes
for a quarter of a turn. -/
def starts (world : TimedWorld) (tick : MqttService.Tick) (world' : TimedWorld) : Prop :=
  world.clock ≤ world.lastTick + 2 ^ 30 ∧ tick.now = .ofNat world.clock ∧ world' = world.begun

/-! ### What holds at any time -/

/-- The queue, the announcements and the broker agree, and since the client is healthy all that was
popped was published, but for one announcement that is about to be. -/
structure Ok (topics : MqttTopics) (waiting : Option ℕ) (world : TimedWorld) : Prop where
  consistent : MqttWorld.Consistent topics world.net
  channels : ∀ pending ∈ world.net.announced, pending.ch < 256
  ticked : world.lastTick ≤ world.clock
  marked : world.mark ≤ world.net.announced.length
  rounds : 0 < world.rounds → world.healthy = true
  kept : world.healthy = true → ∀ index, world.goneThen ≤ index →
    world.net.fate index = .popped → waiting = some index

/-- A session that a healthy client opened listens. -/
def Heard (world : TimedWorld) : Prop :=
  world.net.isConnected = true → world.opened = true → world.listens = true

/-- After the longest delay there is a connection. -/
def Up (world : TimedWorld) : Prop := 0 < world.rounds → world.net.isConnected = true

section Steps

variable {topics : MqttTopics} {waiting : Option ℕ} {world world' : TimedWorld}

theorem Ok.of_interferes (hok : Ok topics waiting world) (hinterferes : Interferes world world') :
    Ok topics waiting world' := by
  cases hinterferes with
  | announce pending hchannel =>
    have hannounced : (world.net.onStateChanged pending).announced =
        world.net.announced ++ [pending] := rfl
    refine ⟨hok.consistent.onStateChanged pending, fun other hother ↦ ?_, hok.ticked, ?_,
      hok.rounds, fun hhealthy index hindex hpopped ↦ ?_⟩
    · obtain hold | hnew := List.mem_append.mp hother
      · exact hok.channels other hold
      · rw [List.mem_singleton.mp hnew]
        exact hchannel
    · change world.mark ≤ (world.net.onStateChanged pending).announced.length
      rw [hannounced, List.length_append]
      exact hok.marked.trans (Nat.le_add_right _ _)
    · exact hok.kept hhealthy index hindex (MqttWorld.fate_of_onStateChanged hpopped)
  | drop hill =>
    exact ⟨hok.consistent.connection false, hok.channels, hok.ticked, hok.marked, hok.rounds,
      hok.kept⟩
  | pass ms =>
    exact ⟨hok.consistent, hok.channels, hok.ticked.trans (Nat.le_add_right _ _), hok.marked,
      hok.rounds, hok.kept⟩
  | heal hill =>
    refine ⟨hok.consistent, hok.channels, hok.ticked, hok.marked, fun _ ↦ rfl,
      fun _ index hindex hpopped ↦ ?_⟩
    have hqueued := (hok.consistent.queued_iff index).mpr hindex
    rw [hqueued] at hpopped
    cases hpopped

/-- A call that neither pops nor publishes. -/
theorem Ok.of_neutral {request : MqttCall} {reply : MqttAns request}
    (hok : Ok topics waiting world) (hneutral : MqttWorld.Neutral request)
    (hanswers : Answers topics world request reply world') : Ok topics waiting world' := by
  obtain ⟨-, net, hnet, rfl⟩ := hanswers
  have hconsistent := hok.consistent.of_answers hneutral hnet
  obtain ⟨isConnected, rfl⟩ := MqttWorld.eq_of_neutral hneutral hnet
  cases request with
  | _ =>
    exact ⟨hconsistent, hok.channels, hok.ticked, hok.marked, hok.rounds, hok.kept⟩

/-- A healthy client keeps the connection. -/
theorem Up.of_interferes (hok : Ok topics waiting world) (hup : Up world)
    (hinterferes : Interferes world world') : Up world' := by
  cases hinterferes with
  | announce pending hchannel => exact hup
  | drop hill =>
    intro hrounds
    rw [hok.rounds hrounds] at hill
    cases hill
  | pass ms => exact hup
  | heal hill => exact hup

theorem Heard.of_interferes (hheard : Heard world) (hinterferes : Interferes world world') :
    Heard world' := by
  cases hinterferes with
  | announce pending hchannel => exact hheard
  | drop hill => exact fun hconnected ↦ nomatch hconnected
  | pass ms => exact hheard
  | heal hill => exact hheard

/-- A change of anything but the queue and the connection changes no more of these. -/
theorem rounds_of_interferes (hinterferes : Interferes world world') :
    world'.rounds = world.rounds := by
  cases hinterferes with
  | _ => rfl

/-- What was announced before a tick is among the last announcements that the queue can hold. -/
theorem Ok.mark_le (hok : Ok topics waiting world) :
    world.mark ≤ world.net.gone + kPublishQueueDepth := by
  have hlength : world.net.queue.count = world.net.announced.length - world.net.gone := by
    rw [← BoundedQueue.length_toList, hok.consistent.window, List.length_drop]
  have hcount := world.net.queue.count_le
  have hmarked := hok.marked
  omega

end Steps

/-! ### The pace of the attempts -/

/-- The backoff refuses no longer than the longest delay from the last failure on, which was at the
beginning of a tick before the client was healthy. -/
structure Paced (slack : ℕ) (backoff : ReconnectBackoff) (world : TimedWorld) : Prop where
  base_eq : backoff.base = 1000
  max_eq : backoff.max = 60000
  pct_eq : backoff.jitterPct = 20
  current_le : backoff.current ≤ 60000
  idle : world.net.isConnected = true → backoff.armed = false
  due : backoff.armed = true → ∃ failure delay,
    backoff.nextAttempt = .ofNat (failure + delay) ∧ delay ≤ kLongestDelay ∧
      failure ≤ world.lastTick ∧ world.lastTick ≤ failure + delay + slack ∧
      (world.healthy = true → failure ≤ world.healedAt)

theorem ready_of_reached {backoff : ReconnectBackoff} {target now : ℕ}
    (htarget : backoff.nextAttempt = .ofNat target) (hreached : target ≤ now)
    (hnear : now < target + 2 ^ 31) : backoff.ready (.ofNat now) = true := by
  have htime : ReconnectBackoff.timeReached (.ofNat now) (.ofNat target) = true := by
    rw [ReconnectBackoff.timeReached, decide_eq_true_eq, UInt32.lt_iff_toNat_lt, UInt32.toNat_sub,
      UInt32.toNat_ofNat', UInt32.toNat_ofNat']
    simp only [UInt32.reduceToNat]
    omega
  rw [ReconnectBackoff.ready, htarget, htime, Bool.or_true]

section Pace

variable {topics : MqttTopics} {world world' : TimedWorld} {backoff : ReconnectBackoff} {slack : ℕ}

theorem Paced.of_interferes (hpaced : Paced slack backoff world)
    (hticked : world.lastTick ≤ world.clock) (hinterferes : Interferes world world') :
    Paced slack backoff world' := by
  obtain ⟨hbase, hmax, hpct, hcurrent, hidle, hdue⟩ := hpaced
  cases hinterferes with
  | announce pending hchannel => exact ⟨hbase, hmax, hpct, hcurrent, hidle, hdue⟩
  | drop hill =>
    exact ⟨hbase, hmax, hpct, hcurrent, (fun hconnected ↦ nomatch hconnected), hdue⟩
  | pass ms => exact ⟨hbase, hmax, hpct, hcurrent, hidle, hdue⟩
  | heal hill =>
    refine ⟨hbase, hmax, hpct, hcurrent, hidle, fun harmed ↦ ?_⟩
    obtain ⟨failure, delay, hnext, hdelay, hfailure, hlast, -⟩ := hdue harmed
    exact ⟨failure, delay, hnext, hdelay, hfailure, hlast, fun _ ↦ hfailure.trans hticked⟩

/-- A refused attempt is followed by a delay that is not too long. -/
theorem Paced.onFailure (hpaced : Paced slack backoff world)
    (hconnected : world.net.isConnected = false) (hill : world.healthy = false)
    (jitterSeed : UInt32) :
    Paced 0 (backoff.onFailure (.ofNat world.lastTick) jitterSeed) world := by
  have hbounded : ReconnectBackoff.Bounded 1000 60000 20 := by
    constructor <;> decide
  obtain ⟨-, hhigh⟩ := ReconnectBackoff.applyJitter_bounds hbounded hpaced.current_le backoff
    hpaced.pct_eq jitterSeed
  have hcurrent := UInt32.le_iff_toNat_le.mp hpaced.current_le
  simp only [UInt32.reduceToNat, UInt8.reduceToNat] at hcurrent hhigh
  set delay := backoff.applyJitter backoff.current jitterSeed with hdelay
  refine ⟨hpaced.base_eq, hpaced.max_eq, hpaced.pct_eq, ?_, fun hup ↦ ?_, fun _ ↦
    ⟨world.lastTick, delay.toNat, ?_, ?_, le_rfl, by omega, fun hhealthy ↦ ?_⟩⟩
  · exact hpaced.max_eq ▸ backoff.nextDouble_le backoff.current
  · rw [hconnected] at hup
    cases hup
  · change UInt32.ofNat world.lastTick + delay = _
    rw [UInt32.ofNat_add, UInt32.ofNat_toNat]
  · have hlongest : kLongestDelay = 72000 := rfl
    omega
  · rw [hill] at hhealthy
    cases hhealthy

theorem Paced.onSuccess (hpaced : Paced slack backoff world) (world' : TimedWorld) :
    Paced 0 backoff.onSuccess world' where
  base_eq := hpaced.base_eq
  max_eq := hpaced.max_eq
  pct_eq := hpaced.pct_eq
  current_le := by
    change backoff.base ≤ 60000
    rw [hpaced.base_eq]
    decide
  idle _ := rfl
  due harmed := nomatch harmed

/-- A tick that may not attempt a connection comes before the end of the delay. -/
theorem Paced.of_refused (hpaced : Paced (2 ^ 30) backoff world)
    (hrefused : backoff.ready (.ofNat world.lastTick) = false) : Paced 0 backoff world := by
  obtain ⟨hbase, hmax, hpct, hcurrent, hidle, hdue⟩ := hpaced
  refine ⟨hbase, hmax, hpct, hcurrent, hidle, fun harmed ↦ ?_⟩
  obtain ⟨failure, delay, hnext, hdelay, hfailure, hlast, hhealed⟩ := hdue harmed
  refine ⟨failure, delay, hnext, hdelay, hfailure, ?_, hhealed⟩
  by_contra hreached
  rw [ready_of_reached hnext (by omega) (by omega)] at hrefused
  cases hrefused

/-- A backoff that is not armed is as new. -/
theorem Paced.of_disarmed (hpaced : Paced slack backoff world) (hdisarmed : backoff.armed = false)
    (world' : TimedWorld) : Paced 0 backoff world' := by
  obtain ⟨hbase, hmax, hpct, hcurrent, -, -⟩ := hpaced
  refine ⟨hbase, hmax, hpct, hcurrent, fun _ ↦ hdisarmed, fun harmed ↦ ?_⟩
  rw [hdisarmed] at harmed
  cases harmed

end Pace

/-! ### The parts of a tick -/

/-- Nothing is asked of the calls themselves. -/
def unguarded (_ : TimedWorld) (_ : MqttCall) : Prop := True

/-- The calls that change nothing. -/
def Quiet : MqttCall → Prop
  | .connect _ | .publish _ _ _ | .subscribe _ _ | .disconnect | .pop => False
  | _ => True

/-- The world on an open connection, with the number of pops that are left. -/
structure Serving (topics : MqttTopics) (waiting : Option ℕ) (budget : ℕ) (world : TimedWorld) :
    Prop where
  ok : Ok topics waiting world
  up : Up world
  heard : Heard world
  left : world.mark ≤ world.net.gone + budget

section Programs

variable {topics : MqttTopics} {world world' : TimedWorld} {α : Type}

theorem eq_of_quiet {request : MqttCall} {reply : MqttAns request} (hquiet : Quiet request)
    (hanswers : Answers topics world request reply world') :
    world' = world ∧ (world.healthy = true → Obliges request reply) := by
  obtain ⟨hobliges, net, hnet, rfl⟩ := hanswers
  refine ⟨?_, hobliges⟩
  cases request with
  | connect | publish | subscribe | disconnect | pop => exact hquiet.elim
  | connected =>
    obtain ⟨-, rfl⟩ := hnet
    rfl
  | _ =>
    obtain rfl := hnet
    rfl

/-- A call that changes nothing, in a world described by something that interference keeps. -/
theorem wp_quiet {holds : TimedWorld → Prop}
    (hstable : ∀ before after, holds before → Interferes before after → holds after)
    (request : MqttCall) (hquiet : Quiet request)
    {resume : MqttAns request → Prog MqttCall MqttAns α} {post : α → TimedWorld → Prop}
    (hholds : holds world)
    (hresume : ∀ reply before, holds before → (before.healthy = true → Obliges request reply) →
      (setting topics).wp unguarded (resume reply) post before) :
    (setting topics).wp unguarded (.call request resume) post world := by
  refine Setting.wp_call_of_stable hstable hholds (fun _ _ ↦ trivial) ?_
  intro before reply after hbefore hanswers
  obtain ⟨rfl, hobliges⟩ := eq_of_quiet hquiet hanswers
  exact hresume reply after hbefore hobliges

theorem gone_le_of_interferes (hinterferes : Interferes world world') :
    world.net.gone ≤ world'.net.gone ∧ world'.mark = world.mark := by
  cases hinterferes with
  | announce pending hchannel =>
    refine ⟨?_, rfl⟩
    change world.net.gone ≤ (if world.net.queue.full then world.net.gone + 1 else world.net.gone)
    split_ifs <;> omega
  | _ => exact ⟨le_rfl, rfl⟩

theorem Serving.of_interferes {waiting : Option ℕ} {budget : ℕ}
    (hserving : Serving topics waiting budget world) (hinterferes : Interferes world world') :
    Serving topics waiting budget world' where
  ok := hserving.ok.of_interferes hinterferes
  up := hserving.up.of_interferes hserving.ok hinterferes
  heard := hserving.heard.of_interferes hinterferes
  left := by
    obtain ⟨hgone, hmark⟩ := gone_le_of_interferes hinterferes
    have hleft := hserving.left
    omega

theorem wp_served {value : α} {budget : ℕ} (hserving : Serving topics none budget world) :
    (setting topics).wp unguarded (.ret value) (fun _ ↦ Serving topics none budget) world :=
  Setting.wp_ret_of_stable (fun _ _ ↦ Serving.of_interferes) hserving

/-- A device that yields its connection is not one whose client is healthy. -/
theorem wp_yield {budget : ℕ} (hserving : Serving topics none budget world)
    (hrounds : world.rounds = 0) :
    (setting topics).wp unguarded (.call .disconnect .ret) (fun _ ↦ Serving topics none budget)
      world := by
  have hstable : ∀ before after : TimedWorld,
      Serving topics none budget before ∧ before.rounds = 0 → Interferes before after →
        Serving topics none budget after ∧ after.rounds = 0 :=
    fun _ _ hbefore hinterferes ↦
      ⟨hbefore.1.of_interferes hinterferes, (rounds_of_interferes hinterferes).trans hbefore.2⟩
  refine Setting.wp_call_of_stable hstable ⟨hserving, hrounds⟩ (fun _ _ ↦ trivial) ?_
  rintro before reply after ⟨hbefore, hnone⟩ hanswers
  have hneutral : MqttWorld.Neutral .disconnect := trivial
  have hok := hbefore.ok.of_neutral hneutral hanswers
  obtain ⟨-, net, rfl, rfl⟩ := hanswers
  refine wp_served ⟨hok, fun hsome ↦ ?_, (fun hconnected ↦ nomatch hconnected), hbefore.left⟩
  have hpos : 0 < before.rounds := hsome
  omega

theorem wp_act (routed : MqttService.Routed) {budget : ℕ}
    (hserving : Serving topics none budget world) :
    (setting topics).wp unguarded (MqttService.act routed) (fun _ ↦ Serving topics none budget)
      world := by
  have hstable : ∀ before after : TimedWorld, Serving topics none budget before →
      Interferes before after → Serving topics none budget after := fun _ _ ↦ Serving.of_interferes
  cases routed with
  | nothing => exact wp_served hserving
  | submit command =>
    exact wp_quiet hstable (.submit command) trivial hserving fun _ _ hbefore _ ↦
      wp_served hbefore
  | otaManifest payload =>
    refine wp_quiet hstable (.onOtaManifest payload) trivial hserving
      fun yields before hbefore hobliges ↦ ?_
    cases yields with
    | false => exact wp_served hbefore
    | true =>
      refine wp_yield hbefore (Nat.eq_zero_of_not_pos fun hrounds ↦ ?_)
      have hstays : true = false := hobliges (hbefore.ok.rounds hrounds)
      cases hstays
  | otaConfirm =>
    exact wp_quiet hstable .onOtaConfirm trivial hserving fun _ _ hbefore _ ↦ wp_served hbefore

theorem wp_deliver (service : MqttService) (messages : List Message) {budget : ℕ}
    (hserving : Serving topics none budget world) :
    (setting topics).wp unguarded (service.deliver messages) (fun _ ↦ Serving topics none budget)
      world := by
  induction messages generalizing world with
  | nil => exact wp_served hserving
  | cons message rest ih =>
    apply Setting.wp_bind
    exact Setting.wp_mono (fun _ _ ↦ ih) (wp_act _ hserving)

/-- The topics of a device with short names fit their buffer. -/
theorem fits_of_short (hshort : topics.root.length + topics.id.length ≤ 64) {suffix : Bytes}
    (hsuffix : suffix.length ≤ 29) : (topics.fmt kMaxTopicLen suffix).2 = true := by
  have hlength : (topics.full suffix).length = topics.root.length + topics.id.length + 2 +
      suffix.length := by
    simp only [MqttTopics.full, List.length_append, List.length_cons]
    omega
  have hmax : kMaxTopicLen = 96 := rfl
  exact decide_eq_true (by omega)

theorem fits_evtRelayState (hshort : topics.root.length + topics.id.length ≤ 64) {channel : ℕ}
    (hchannel : channel < 256) : (topics.evtRelayState kMaxTopicLen channel).2 = true := by
  have hdigits : (decimal channel).length ≤ 3 := length_decimal_le (by norm_num) (by omega)
  refine fits_of_short hshort ?_
  have hstem : (ascii "evt/relay/").length = 10 := by decide
  have hend : (ascii "/state").length = 6 := by decide
  rw [List.length_append, List.length_append, hstem, hend]
  omega

/-- The queue after a pop that answered with an announcement. -/
def InHand (topics : MqttTopics) (pending : PendingState) (budget : ℕ) (world : TimedWorld) :
    Prop :=
  ∃ index, MqttWorld.Popped topics pending index world.net ∧
    Serving topics (some index) budget world

theorem InHand.of_interferes {pending : PendingState} {budget : ℕ}
    (hhand : InHand topics pending budget world) (hinterferes : Interferes world world') :
    InHand topics pending budget world' := by
  obtain ⟨index, hpopped, hserving⟩ := hhand
  have hlater : MqttWorld.Popped topics pending index world'.net := by
    cases hinterferes with
    | announce other hchannel => exact hpopped.of_interferes (.inl ⟨other, rfl⟩)
    | drop hill => exact hpopped.of_interferes (.inr rfl)
    | pass ms => exact hpopped
    | heal hill => exact hpopped
  exact ⟨index, hlater, hserving.of_interferes hinterferes⟩

/-- A pop that answers takes one announcement off the queue. -/
theorem InHand.of_pop {budget : ℕ} (hserving : Serving topics none (budget + 1) world)
    {pending : PendingState} (hpop : world.net.queue.pop.1 = some pending) :
    InHand topics pending budget { world with net := world.net.popped } := by
  have hpopped := hserving.ok.consistent.popped_of_pop hpop
  have hempty : world.net.queue.empty = false := by
    cases hempty : world.net.queue.empty with
    | true =>
      have hnone := hpopped.flight
      rw [MqttWorld.popped, if_pos hempty] at hnone
      have hlt := hserving.ok.consistent.flight_lt _ hnone
      omega
    | false => rfl
  have hnet : world.net.popped = { world.net with
      queue := world.net.queue.pop.2
      gone := world.net.gone + 1
      inFlight := some world.net.gone
      fate := Function.update world.net.fate world.net.gone .popped } := by
    rw [MqttWorld.popped, hempty]
    rfl
  refine ⟨world.net.gone, hpopped, ⟨hpopped.consistent, ?_, hserving.ok.ticked, ?_,
    hserving.ok.rounds, fun hhealthy index hindex hfate ↦ ?_⟩, ?_, ?_, ?_⟩
  · rw [hnet]
    exact hserving.ok.channels
  · rw [hnet]
    exact hserving.ok.marked
  · simp only [hnet] at hfate
    by_cases hself : index = world.net.gone
    · rw [hself]
    · rw [Function.update_of_ne hself] at hfate
      cases hserving.ok.kept hhealthy index hindex hfate
  · intro hrounds
    rw [hnet]
    exact hserving.up hrounds
  · rw [hnet]
    exact hserving.heard
  · have hleft := hserving.left
    change world.mark ≤ world.net.popped.gone + budget
    rw [hnet]
    simp only
    omega

/-- A pop that answers with nothing leaves nothing behind. -/
theorem Serving.of_pop_none {budget : ℕ} (hserving : Serving topics none budget world)
    (hpop : world.net.queue.pop.1 = none) :
    Serving topics none 0 { world with net := world.net.popped } := by
  have hnil : world.net.queue.toList = [] := by
    rw [(BoundedQueue.toList_pop world.net.queue).1, List.head?_eq_none_iff] at hpop
    exact hpop
  rw [MqttWorld.popped_of_pop_none hpop]
  refine ⟨hserving.ok, hserving.up, hserving.heard, ?_⟩
  have hwindow := hserving.ok.consistent.window
  rw [hnil, eq_comm, List.drop_eq_nil_iff] at hwindow
  exact hserving.ok.marked.trans hwindow

/-- The publish of what was popped. -/
theorem InHand.published {pending : PendingState} {budget : ℕ} {payload : Bytes}
    (hhand : InHand topics pending budget world) (hcarries : Carries payload pending.state) :
    Serving topics none budget
      { world with net := world.net.publish topics ⟨topics.relayTopic pending.ch, payload, true⟩ }
    := by
  obtain ⟨index, hpopped, hserving⟩ := hhand
  refine ⟨⟨hpopped.publish hcarries, hserving.ok.channels, hserving.ok.ticked, hserving.ok.marked,
    hserving.ok.rounds, fun hhealthy other hother hfate ↦ ?_⟩, hserving.up, hserving.heard,
    hserving.left⟩
  have hsame : some index = some other :=
    hserving.ok.kept hhealthy other hother (MqttWorld.fate_of_publish hfate)
  obtain rfl := Option.some.inj hsame
  have hpublished : Function.update world.net.fate index .published index = .popped := by
    rw [← hpopped.fate_publish payload]
    exact hfate
  rw [Function.update_self] at hpublished
  cases hpublished

/-- A client that refuses a publish is not healthy. -/
theorem InHand.refused {pending : PendingState} {budget : ℕ}
    (hhand : InHand topics pending budget world) (hill : world.healthy = false) (topic : Bytes) :
    Serving topics none budget { world with net := world.net.refuse topics topic } := by
  obtain ⟨index, -, hserving⟩ := hhand
  refine ⟨⟨hserving.ok.consistent.refuse topic, hserving.ok.channels, hserving.ok.ticked,
    hserving.ok.marked, hserving.ok.rounds, fun hhealthy ↦ ?_⟩, hserving.up, hserving.heard,
    hserving.left⟩
  rw [hill] at hhealthy
  cases hhealthy

theorem wp_publishState {service : MqttService} (htopics : service.topics = topics)
    (hshort : topics.root.length + topics.id.length ≤ 64) (ts : UInt32) {pending : PendingState}
    {budget : ℕ} (hhand : InHand topics pending budget world) :
    (setting topics).wp unguarded (service.publishState pending ts)
      (fun _ ↦ Serving topics none budget) world := by
  obtain ⟨index, hpopped, hserving⟩ := id hhand
  have hchannel : pending.ch < 256 :=
    hserving.ok.channels pending (List.mem_of_getElem? hpopped.announced_at)
  have hpayload : MqttPayload.relayState 64 pending.state pending.source ts ≠ [] := by
    rw [MqttPayload.relayState_eq_text]
    exact MqttPayload.relayStateText_ne_nil _ _ _
  unfold MqttService.publishState
  simp only
  rw [htopics, if_pos ⟨fits_evtRelayState hshort hchannel, hpayload⟩,
    MqttTopics.fst_evtRelayState (fits_evtRelayState hshort hchannel), Prog.ask_bind]
  refine Setting.wp_call_of_stable (fun _ _ ↦ InHand.of_interferes) hhand (fun _ _ ↦ trivial) ?_
  rintro before published after hbefore ⟨hobliges, net, rfl, rfl⟩
  apply wp_served
  cases published with
  | true => exact hbefore.published ⟨pending.source, ts, MqttPayload.relayState_eq_text _ _ _⟩
  | false =>
    refine hbefore.refused (Bool.eq_false_iff.mpr fun hhealthy ↦ ?_) _
    have hdone : false = true := hobliges hhealthy
    cases hdone

/-- As many pops as the queue has room for take everything that was there at the beginning. -/
theorem wp_drainPublishes {service : MqttService} (htopics : service.topics = topics)
    (hshort : topics.root.length + topics.id.length ≤ 64) (ts : UInt32) {budget : ℕ}
    (hserving : Serving topics none budget world) :
    (setting topics).wp unguarded (service.drainPublishes ts budget)
      (fun _ ↦ Serving topics none 0) world := by
  induction budget generalizing world with
  | zero => exact wp_served hserving
  | succ budget ih =>
    unfold MqttService.drainPublishes
    rw [Prog.ask_bind]
    refine Setting.wp_call_of_stable (fun _ _ ↦ Serving.of_interferes) hserving
      (fun _ _ ↦ trivial) ?_
    rintro before answer after hbefore ⟨-, net, ⟨hpop, rfl⟩, rfl⟩
    cases answer with
    | none => exact wp_served (hbefore.of_pop_none hpop.symm)
    | some pending =>
      apply Setting.wp_bind
      exact Setting.wp_mono (fun _ _ ↦ ih)
        (wp_publishState htopics hshort ts (.of_pop hbefore hpop.symm))

/-! ### Whole ticks -/

/-- What holds between two ticks. -/
structure Rests (topics : MqttTopics) (service : MqttService) (world : TimedWorld) : Prop where
  topics_eq : service.topics = topics
  ok : Ok topics none world
  paced : Paced 0 service.backoff world
  up : Up world
  heard : Heard world
  drained : 1 < world.rounds → world.mark ≤ world.net.gone

/-- What holds at the beginning of a tick. -/
structure Begins (topics : MqttTopics) (service : MqttService) (now : Millis)
    (world : TimedWorld) : Prop where
  ok : Ok topics none world
  paced : Paced (2 ^ 30) service.backoff world
  heard : Heard world
  now_eq : now = .ofNat world.lastTick
  due : 0 < world.rounds → world.net.isConnected = true ∨ service.backoff.ready now = true
  up : 1 < world.rounds → world.net.isConnected = true

theorem Rests.of_interferes {service : MqttService} (hrests : Rests topics service world)
    (hinterferes : Interferes world world') : Rests topics service world' where
  topics_eq := hrests.topics_eq
  ok := hrests.ok.of_interferes hinterferes
  paced := hrests.paced.of_interferes hrests.ok.ticked hinterferes
  up := hrests.up.of_interferes hrests.ok hinterferes
  heard := hrests.heard.of_interferes hinterferes
  drained := by
    obtain ⟨hgone, hmark⟩ := gone_le_of_interferes hinterferes
    rw [rounds_of_interferes hinterferes, hmark]
    exact fun hrounds ↦ (hrests.drained hrounds).trans hgone

theorem wp_rest {service : MqttService} (hrests : Rests topics service world) :
    (setting topics).wp unguarded (.ret service) (Rests topics) world :=
  Setting.wp_ret_of_stable (fun _ _ ↦ Rests.of_interferes) hrests

/-- A connection that a tick may rely on is kept. -/
theorem connected_of_interferes (hok : Ok topics none world) {rounds : ℕ}
    (hup : rounds < world.rounds → world.net.isConnected = true)
    (hinterferes : Interferes world world') (hrounds : rounds < world'.rounds) :
    world'.net.isConnected = true := by
  rw [rounds_of_interferes hinterferes] at hrounds
  have hconnected : Up world := fun _ ↦ hup hrounds
  exact hconnected.of_interferes hok hinterferes
    (by rw [rounds_of_interferes hinterferes]; omega)

theorem Begins.of_interferes {service : MqttService} {now : Millis}
    (hbegins : Begins topics service now world) (hinterferes : Interferes world world') :
    Begins topics service now world' where
  ok := hbegins.ok.of_interferes hinterferes
  paced := hbegins.paced.of_interferes hbegins.ok.ticked hinterferes
  heard := hbegins.heard.of_interferes hinterferes
  now_eq := by
    have hlast : world'.lastTick = world.lastTick := by
      cases hinterferes with
      | _ => rfl
    rw [hlast]
    exact hbegins.now_eq
  due hrounds := by
    by_cases hready : service.backoff.ready now = true
    · exact .inr hready
    · have hup : 0 < world.rounds → world.net.isConnected = true :=
        fun hpos ↦ (hbegins.due hpos).resolve_right hready
      exact .inl (connected_of_interferes hbegins.ok hup hinterferes hrounds)
  up := connected_of_interferes hbegins.ok hbegins.up hinterferes

theorem wp_serve {service : MqttService} (htopics : service.topics = topics)
    (hshort : topics.root.length + topics.id.length ≤ 64) (ts : UInt32)
    (hbackoff : ∀ before : TimedWorld, Paced 0 service.backoff before)
    (hserving : Serving topics none kPublishQueueDepth world) :
    (setting topics).wp unguarded (service.serve ts) (Rests topics) world := by
  unfold MqttService.serve
  rw [Prog.ask_bind]
  refine wp_quiet (fun _ _ ↦ Serving.of_interferes) .loop trivial hserving
    fun messages before hbefore _ ↦ ?_
  apply Setting.wp_bind
  refine Setting.wp_mono (fun _ _ hdelivered ↦ ?_) (wp_deliver service messages hbefore)
  apply Setting.wp_bind
  refine Setting.wp_mono (fun _ after hafter ↦ ?_) (wp_drainPublishes htopics hshort ts hdelivered)
  exact wp_rest ⟨htopics, hafter.ok, hbackoff after, hafter.up, hafter.heard, fun _ ↦ hafter.left⟩

/-- A session that was just opened. -/
structure Opened (topics : MqttTopics) (world : TimedWorld) : Prop where
  ok : Ok topics none world
  up : Up world
  healthy : world.opened = true → world.healthy = true
  first : world.rounds ≤ 1

theorem Opened.of_interferes (hopened : Opened topics world)
    (hinterferes : Interferes world world') : Opened topics world' where
  ok := hopened.ok.of_interferes hinterferes
  up := hopened.up.of_interferes hopened.ok hinterferes
  healthy := by
    cases hinterferes with
    | heal hill => exact fun _ ↦ rfl
    | _ => exact hopened.healthy
  first := by
    rw [rounds_of_interferes hinterferes]
    exact hopened.first

/-- The announcement of the device itself leaves the relays alone. -/
theorem Opened.announced (hopened : Opened topics world) (n : ℕ) (payload : Bytes) :
    Opened topics
      { world with net := world.net.publish topics ⟨(topics.evtOnline n).1, payload, true⟩ } where
  ok :=
    { hopened.ok with
      consistent := hopened.ok.consistent.publish_of_ne (topics.relayTopic_ne_evtOnline n)
      kept := fun hhealthy index hindex hfate ↦
        hopened.ok.kept hhealthy index hindex (MqttWorld.fate_of_publish hfate) }
  up := hopened.up
  healthy := hopened.healthy
  first := hopened.first

theorem Opened.refused (hopened : Opened topics world) (topic : Bytes) :
    Opened topics { world with net := world.net.refuse topics topic } where
  ok := { hopened.ok with consistent := hopened.ok.consistent.refuse topic }
  up := hopened.up
  healthy := hopened.healthy
  first := hopened.first

theorem wp_onConnected {service : MqttService} (htopics : service.topics = topics)
    (hshort : topics.root.length + topics.id.length ≤ 64) (hopened : Opened topics world) :
    (setting topics).wp unguarded service.onConnected
      (fun _ after ↦ Opened topics after ∧ Heard after) world := by
  have hfilter : (topics.cmdWildcard kMaxTopicLen).1 = MqttService.commandFilter topics :=
    MqttTopics.fst_fmt (fits_of_short hshort (by decide))
  unfold MqttService.onConnected
  rw [htopics, hfilter, Prog.ask_bind]
  refine Setting.wp_call_of_stable (fun _ _ ↦ Opened.of_interferes) hopened (fun _ _ ↦ trivial) ?_
  rintro before published after hbefore ⟨-, net, rfl, rfl⟩
  have hafter : Opened topics { before with
      net :=
        if published then before.net.publish topics
          ⟨(topics.evtOnline kMaxTopicLen).1, MqttPayload.online 32 true, true⟩
        else before.net.refuse topics (topics.evtOnline kMaxTopicLen).1 } := by
    cases published with
    | true => exact hbefore.announced _ _
    | false => exact hbefore.refused _
  rw [Prog.ask_bind]
  refine Setting.wp_call_of_stable (fun _ _ ↦ Opened.of_interferes) hafter (fun _ _ ↦ trivial) ?_
  rintro before subscribed after hbefore ⟨hobliges, net, rfl, rfl⟩
  refine Setting.wp_ret_of_stable (fun _ _ hlast hinterferes ↦
    ⟨hlast.1.of_interferes hinterferes, hlast.2.of_interferes hinterferes⟩) ⟨?_, fun _ hsound ↦ ?_⟩
  · have hok := hbefore.ok
    exact ⟨⟨hok.consistent, hok.channels, hok.ticked, hok.marked, hok.rounds, hok.kept⟩, hbefore.up,
      hbefore.healthy, hbefore.first⟩
  · -- A healthy client does not refuse the subscription.
    have hsubscribed : subscribed = true := hobliges (hbefore.healthy hsound)
    simp [answered, hsubscribed]

/-- What holds when a connection is about to be attempted. -/
structure Attempts (topics : MqttTopics) (service : MqttService) (now : Millis)
    (world : TimedWorld) : Prop where
  ok : Ok topics none world
  paced : Paced (2 ^ 30) service.backoff world
  now_eq : now = .ofNat world.lastTick
  down : world.net.isConnected = false
  first : world.rounds ≤ 1

theorem Attempts.of_interferes {service : MqttService} {now : Millis}
    (hattempts : Attempts topics service now world) (hinterferes : Interferes world world') :
    Attempts topics service now world' where
  ok := hattempts.ok.of_interferes hinterferes
  paced := hattempts.paced.of_interferes hattempts.ok.ticked hinterferes
  now_eq := by
    cases hinterferes with
    | _ => exact hattempts.now_eq
  down := by
    cases hinterferes with
    | drop hill => rfl
    | _ => exact hattempts.down
  first := by
    rw [rounds_of_interferes hinterferes]
    exact hattempts.first

theorem wp_attemptConnect {service : MqttService} (htopics : service.topics = topics)
    (hshort : topics.root.length + topics.id.length ≤ 64) {now : Millis} (jitterSeed : UInt32)
    (hattempts : Attempts topics service now world) :
    (setting topics).wp unguarded (service.attemptConnect now jitterSeed) (Rests topics) world := by
  unfold MqttService.attemptConnect
  rw [Prog.ask_bind]
  refine Setting.wp_call_of_stable (fun _ _ ↦ Attempts.of_interferes) hattempts
    (fun _ _ ↦ trivial) ?_
  intro before connected after hbefore hanswers
  have hneutral : MqttWorld.Neutral (.connect service.connectParams) := trivial
  have hok := hbefore.ok.of_neutral hneutral hanswers
  obtain ⟨hobliges, net, rfl, rfl⟩ := hanswers
  cases connected with
  | true =>
    rw [if_pos rfl]
    apply Setting.wp_bind
    have hopened : Opened topics (before.answered topics { before.net with isConnected := true }
        (.connect service.connectParams) true) := ⟨hok, fun _ ↦ rfl, id, hbefore.first⟩
    refine Setting.wp_mono (fun _ last hlast ↦ ?_) (wp_onConnected htopics hshort hopened)
    refine wp_rest ⟨htopics, hlast.1.ok, hbefore.paced.onSuccess last, hlast.1.up, hlast.2,
      fun hsecond ↦ ?_⟩
    have hfirst := hlast.1.first
    omega
  | false =>
    have hill : before.healthy = false := by
      refine Bool.eq_false_iff.mpr fun hhealthy ↦ ?_
      have hdone : false = true := hobliges hhealthy
      cases hdone
    have hnone : ¬ 0 < before.rounds := by
      intro hrounds
      rw [hbefore.ok.rounds hrounds] at hill
      cases hill
    rw [if_neg Bool.false_ne_true]
    have hpaced : Paced (2 ^ 30) service.backoff (before.answered topics
        { before.net with isConnected := false } (.connect service.connectParams) false) := by
      obtain ⟨hbase, hmax, hpct, hcurrent, -, hdue⟩ := hbefore.paced
      exact ⟨hbase, hmax, hpct, hcurrent, (fun hconnected ↦ nomatch hconnected), hdue⟩
    refine wp_rest ⟨htopics, hok, ?_, fun hrounds ↦ absurd hrounds hnone,
      (fun hconnected ↦ nomatch hconnected), fun hsecond ↦ ?_⟩
    · rw [hbefore.now_eq]
      exact hpaced.onFailure rfl hill jitterSeed
    · have hpos : 1 < before.rounds := hsecond
      omega

theorem wp_tick {service : MqttService} (htopics : service.topics = topics)
    (hshort : topics.root.length + topics.id.length ≤ 64) {now : Millis} (jitterSeed ts : UInt32)
    (hbegins : Begins topics service now world) :
    (setting topics).wp unguarded (service.tick now jitterSeed ts) (Rests topics) world := by
  unfold MqttService.tick
  rw [Prog.ask_bind]
  refine Setting.wp_call_of_stable (fun _ _ ↦ Begins.of_interferes) hbegins (fun _ _ ↦ trivial) ?_
  rintro before connected after hbefore ⟨-, net, ⟨hconnected, rfl⟩, rfl⟩
  change (setting topics).wp unguarded _ (Rests topics) before
  cases connected with
  | true =>
    rw [if_pos rfl]
    exact wp_serve htopics hshort ts
      (hbefore.paced.of_disarmed (hbefore.paced.idle hconnected.symm))
      ⟨hbefore.ok, fun _ ↦ hconnected.symm, hbefore.heard, hbefore.ok.mark_le⟩
  | false =>
    have hdown : ¬ before.net.isConnected = true := by
      rw [← hconnected]
      exact Bool.false_ne_true
    have hfirst : before.rounds ≤ 1 := not_lt.mp fun hsecond ↦ hdown (hbefore.up hsecond)
    rw [if_neg Bool.false_ne_true]
    split_ifs with hready
    · exact wp_attemptConnect htopics hshort jitterSeed
        ⟨hbefore.ok, hbefore.paced, hbefore.now_eq, hconnected.symm, hfirst⟩
    · have hnone : ¬ 0 < before.rounds := fun hrounds ↦
        (hbefore.due hrounds).elim hdown hready
      rw [Bool.not_eq_true, hbefore.now_eq] at hready
      exact wp_rest ⟨htopics, hbefore.ok, hbefore.paced.of_refused hready,
        fun hrounds ↦ absurd hrounds hnone, hbefore.heard, fun hsecond ↦ by omega⟩

end Programs

/-! ### All runs -/

/-- Collaborators that do all they are asked. -/
def obliging (topics : MqttTopics) (world : TimedWorld) (request : MqttCall) :
    MqttAns request × TimedWorld :=
  ((world.net.obliging topics request).1,
    world.answered topics (world.net.obliging topics request).2 request
      (world.net.obliging topics request).1)

theorem answers_obliging (topics : MqttTopics) (world : TimedWorld) (request : MqttCall) :
    Answers topics world request (world.obliging topics request).1
      (world.obliging topics request).2 := by
  refine ⟨fun _ ↦ ?_, _, MqttWorld.answers_obliging topics world.net request, rfl⟩
  cases request with
  | connect | publish | subscribe | onOtaManifest => rfl
  | _ => trivial

/-- A tick with collaborators that do all they are asked. -/
def ticked (topics : MqttTopics) (service : MqttService) (tick : MqttService.Tick)
    (world : TimedWorld) : MqttService × TimedWorld :=
  (MqttService.component.handle service tick).runOn (obliging topics) world.begun

theorem steps_ticked (topics : MqttTopics) (service : MqttService) {tick : MqttService.Tick}
    {world world' : TimedWorld} (hstarts : starts world tick world') :
    MqttService.component.Steps (setting topics) starts (.idle service, world)
      (.idle (ticked topics service tick world).1, (ticked topics service tick world).2) := by
  obtain ⟨hnear, hnow, -⟩ := hstarts
  have hruns := @Component.steps_runOn _ _ _ _ _ MqttService.component (setting topics) starts _
    (answers_obliging topics) tick (MqttService.component.handle service tick) world.begun
  exact .head (.start ⟨hnear, hnow, rfl⟩) hruns

end TimedWorld

end LibreSwitch.Net
