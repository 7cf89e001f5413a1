import Mathlib.Tactic
import LibreSwitch.Net.MqttService
import LibreSwitch.Platform.BoundedQueue

/-!
# Which relay states reach the broker

What the broker retains for a relay, over all runs of the MQTT service: announcements of the
control task fall between any two calls of a tick, the connection drops at any moment, connects and
publishes fail at will.

Next to the queue the world keeps all announcements ever made (`announced`), how many of them have
left the queue (`gone`), which one was popped last (`inFlight`), what became of each (`Fate`), and
of which the client refused a publish (`refused`). The queue is then the rest of the announcements
(`Consistent.window`), and since announcements are published in their order, the retained payload of
a topic is that of the latest published announcement of its channel (`Consistent.kept`). Between
two ticks what was popped was published, or refused, or does not fit its topic
(`Accounted.excused`).

The last state of a channel is lost when later announcements push it out of the full queue
(`evicted_state_is_lost`), when its topic does not fit the buffer, or when the client refuses its
publish. `last_state_published` says that nothing else loses it.
-/

set_option autoImplicit false
set_option relaxedAutoImplicit false

namespace LibreSwitch.Net

open LibreSwitch.Library LibreSwitch.Domain LibreSwitch.Platform

/-! ### Topics and payloads of relay states -/

/-- The topic of the states of a relay. -/
def MqttTopics.relayTopic (topics : MqttTopics) (channel : ℕ) : Bytes :=
  topics.full (ascii "evt/relay/" ++ decimal channel ++ ascii "/state")

/-- The payload says that the relay is in the state. -/
def Carries (payload : Bytes) (state : RelayState) : Prop :=
  ∃ source ts, payload = MqttPayload.relayStateText state source ts

namespace MqttTopics

theorem full_prefix_iff {topics : MqttTopics} {first second : Bytes} :
    topics.full first <+: topics.full second ↔ first <+: second := by
  simp only [full, List.prefix_append_right_inj, List.cons_prefix_cons, true_and]

theorem full_inj {topics : MqttTopics} {first second : Bytes} :
    topics.full first = topics.full second ↔ first = second := by
  simp [full]

theorem decimal_inj {first second : ℕ} (heq : decimal first = decimal second) :
    first = second := by
  rw [← decimalValue_decimal first, heq, decimalValue_decimal]

/-- Different relays have different topics. -/
theorem relayTopic_inj {topics : MqttTopics} {first second : ℕ}
    (heq : topics.relayTopic first = topics.relayTopic second) : first = second := by
  have hsuffix := full_inj.mp heq
  rw [List.append_assoc, List.append_assoc, List.append_cancel_left_eq,
    List.append_cancel_right_eq] at hsuffix
  exact decimal_inj hsuffix

theorem fst_evtRelayState {topics : MqttTopics} {n channel : ℕ}
    (hfits : (topics.evtRelayState n channel).2 = true) :
    (topics.evtRelayState n channel).1 = topics.relayTopic channel :=
  fst_fmt hfits

/-- The announcement of the device itself, cut off or not, is on no topic of a relay. -/
theorem relayTopic_ne_evtOnline (topics : MqttTopics) (n channel : ℕ) :
    topics.relayTopic channel ≠ (topics.evtOnline n).1 := by
  intro heq
  have hpre : topics.relayTopic channel <+: topics.full (ascii "evt/system/online") := by
    rw [heq]
    exact List.take_prefix _ _
  have hsuffix := full_prefix_iff.mp hpre
  rw [List.append_assoc] at hsuffix
  have hhead : ascii "evt/relay/" <+: ascii "evt/system/online" :=
    (List.prefix_append _ _).trans hsuffix
  exact absurd hhead (by decide)

end MqttTopics

/-! ### The broker, the queue and the announcements -/

/-- What became of an announcement: it waits, it was pushed out of the queue, it was popped and no
publish of it succeeded, or it was published. -/
inductive Fate
  | queued
  | evicted
  | popped
  | published
  deriving DecidableEq, Repr

/-- A successful publish. -/
structure Publication where
  topic : Bytes
  payload : Bytes
  retain : Bool
  deriving DecidableEq, Repr

/-- What the broker retains on a topic: the last payload published there as retained. -/
def retainedOn (topic : Bytes) (log : List Publication) : Option Bytes :=
  ((log.filter fun publication ↦ publication.topic = topic && publication.retain).getLast?).map
    Publication.payload

theorem retainedOn_append_self (topic payload : Bytes) (log : List Publication) :
    retainedOn topic (log ++ [⟨topic, payload, true⟩]) = some payload := by
  simp [retainedOn]

theorem retainedOn_append_of_ne {topic : Bytes} {publication : Publication}
    (hne : publication.topic ≠ topic) (log : List Publication) :
    retainedOn topic (log ++ [publication]) = retainedOn topic log := by
  simp [retainedOn, hne]

/-- The connection, the broker and the queue, and the announcements with their fates. `refused` are
those of which a publish was refused. -/
structure MqttWorld where
  queue : BoundedQueue PendingState kPublishQueueDepth
  isConnected : Bool := false
  log : List Publication := []
  announced : List PendingState := []
  gone : ℕ := 0
  inFlight : Option ℕ := none
  fate : ℕ → Fate := fun _ ↦ .queued
  refused : List ℕ := []

namespace MqttWorld

/-- The world before anything was announced. -/
def fresh : MqttWorld where
  queue := .new (by decide) .dropOldest

/-- `onStateChanged`: queues the state for publishing. A full queue pushes out its oldest. -/
def onStateChanged (world : MqttWorld) (pending : PendingState) : MqttWorld :=
  { world with
    queue := (world.queue.push pending).2
    announced := world.announced ++ [pending]
    gone := if world.queue.full then world.gone + 1 else world.gone
    fate := if world.queue.full then Function.update world.fate world.gone .evicted
      else world.fate }

/-- The world after a pop. -/
def popped (world : MqttWorld) : MqttWorld :=
  if world.queue.empty then world
  else
    { world with
      queue := world.queue.pop.2
      gone := world.gone + 1
      inFlight := some world.gone
      fate := Function.update world.fate world.gone .popped }

/-- The topic of the announcement that was popped last. -/
def flightTopic (topics : MqttTopics) (world : MqttWorld) : Option Bytes :=
  world.inFlight.bind fun index ↦
    (world.announced[index]?).map fun pending ↦ topics.relayTopic pending.ch

/-- The world after a successful publish: on the topic of the announcement that was popped last it
is the publish of that announcement. -/
def publish (topics : MqttTopics) (world : MqttWorld) (publication : Publication) : MqttWorld :=
  { world with
    log := world.log ++ [publication]
    fate := match world.inFlight with
      | none => world.fate
      | some index =>
        if world.flightTopic topics = some publication.topic then
          Function.update world.fate index .published
        else world.fate }

/-- The world after a refused publish: on the topic of the announcement that was popped last it is
the publish of that announcement. -/
def refuse (topics : MqttTopics) (world : MqttWorld) (topic : Bytes) : MqttWorld :=
  { world with
    refused :=
      if world.flightTopic topics = some topic then world.inFlight.toList ++ world.refused
      else world.refused }

/-- What a call can answer, and the world it leaves. -/
def Answers (topics : MqttTopics) (world : MqttWorld) :
    (request : MqttCall) → MqttAns request → MqttWorld → Prop
  | .connected, connected, world' => connected = world.isConnected ∧ world' = world
  | .connect _, connected, world' => world' = { world with isConnected := connected }
  | .publish topic payload retain, published, world' =>
    world' = if published then world.publish topics ⟨topic, payload, retain⟩
      else world.refuse topics topic
  | .disconnect, _, world' => world' = { world with isConnected := false }
  | .pop, pending, world' => pending = world.queue.pop.1 ∧ world' = world.popped
  | _, _, world' => world' = world

/-- Between two calls a state is announced or the connection drops. -/
def Interferes (world world' : MqttWorld) : Prop :=
  (∃ pending, world' = world.onStateChanged pending) ∨
    world' = { world with isConnected := false }

/-- The surroundings of the service. -/
def setting (topics : MqttTopics) : Setting MqttCall MqttAns MqttWorld where
  answers := Answers topics
  interferes := Interferes

/-- A tick may start at any time. -/
def starts (world : MqttWorld) (_ : MqttService.Tick) (world' : MqttWorld) : Prop := world' = world

/-- The announcement is the last one of its channel. -/
structure IsLast (world : MqttWorld) (index : ℕ) (pending : PendingState) : Prop where
  announced_at : world.announced[index]? = some pending
  last (later : ℕ) (hlater : index < later) (other : PendingState)
    (hother : world.announced[later]? = some other) : other.ch ≠ pending.ch

/-- The broker retains the state for its relay. -/
def Retains (topics : MqttTopics) (world : MqttWorld) (pending : PendingState) : Prop :=
  ∃ payload, retainedOn (topics.relayTopic pending.ch) world.log = some payload ∧
    Carries payload pending.state

/-! ### The invariant -/

/-- The queue, the announcements and the broker agree. -/
structure Consistent (topics : MqttTopics) (world : MqttWorld) : Prop where
  policy : world.queue.policy = .dropOldest
  window : world.queue.toList = world.announced.drop world.gone
  gone_le : world.gone ≤ world.announced.length
  queued_iff (index : ℕ) : world.fate index = .queued ↔ world.gone ≤ index
  flight_lt (index : ℕ) (hflight : world.inFlight = some index) : index < world.gone
  published_le (index : ℕ) (hpublished : world.fate index = .published) :
    ∃ flight, world.inFlight = some flight ∧ index ≤ flight
  kept (index : ℕ) (pending : PendingState) (hpublished : world.fate index = .published)
    (hannounced : world.announced[index]? = some pending) :
    ∃ later other, index ≤ later ∧ world.fate later = .published ∧
      world.announced[later]? = some other ∧ other.ch = pending.ch ∧ world.Retains topics other

/-- The queue, the announcements and the broker agree, and what was popped and not published does
not fit its topic, or was refused, or waits to be published. -/
structure Accounted (topics : MqttTopics) (waiting : Option ℕ) (world : MqttWorld) : Prop
    extends Consistent topics world where
  excused (index : ℕ) (pending : PendingState) (hpopped : world.fate index = .popped)
    (hannounced : world.announced[index]? = some pending)
    (hfits : (topics.evtRelayState kMaxTopicLen pending.ch).2 = true) :
    index ∈ world.refused ∨ waiting = some index

theorem consistent_fresh (topics : MqttTopics) : Consistent topics fresh where
  policy := rfl
  window := BoundedQueue.toList_new _ _
  gone_le := le_rfl
  queued_iff index := iff_of_true rfl (Nat.zero_le index)
  flight_lt index hflight := by cases hflight
  published_le index hpublished := by cases hpublished
  kept index pending hpublished := by cases hpublished

theorem accounted_fresh (topics : MqttTopics) : Accounted topics none fresh where
  toConsistent := consistent_fresh topics
  excused index pending hpopped := by cases hpopped

section Steps

variable {topics : MqttTopics} {waiting : Option ℕ} {world : MqttWorld}

/-- Only a pop makes an announcement one that was popped. -/
theorem fate_of_onStateChanged {pending : PendingState} {index : ℕ}
    (hpopped : (world.onStateChanged pending).fate index = .popped) :
    world.fate index = .popped := by
  unfold onStateChanged at hpopped
  simp only at hpopped
  split_ifs at hpopped with hfull
  · by_cases hindex : index = world.gone
    · rw [hindex, Function.update_self] at hpopped
      cases hpopped
    · rwa [Function.update_of_ne hindex] at hpopped
  · exact hpopped

theorem fate_of_publish {publication : Publication} {index : ℕ}
    (hpopped : (world.publish topics publication).fate index = .popped) :
    world.fate index = .popped := by
  unfold MqttWorld.publish at hpopped
  simp only at hpopped
  cases hflight : world.inFlight with
  | none =>
    rw [hflight] at hpopped
    exact hpopped
  | some flight =>
    rw [hflight] at hpopped
    simp only at hpopped
    split_ifs at hpopped
    · by_cases hindex : index = flight
      · rw [hindex, Function.update_self] at hpopped
        cases hpopped
      · rwa [Function.update_of_ne hindex] at hpopped
    · exact hpopped

theorem mem_refused_refuse {topic : Bytes} {index : ℕ} (hrefused : index ∈ world.refused) :
    index ∈ (world.refuse topics topic).refused := by
  unfold refuse
  dsimp only
  split_ifs
  · exact List.mem_append_right _ hrefused
  · exact hrefused

/-- What has left the queue is an announcement. -/
theorem Consistent.lt_length_of_published (hconsistent : Consistent topics world) {index : ℕ}
    (hpublished : world.fate index = .published) : index < world.announced.length := by
  have hgone : ¬ world.gone ≤ index := fun hle ↦ by
    rw [(hconsistent.queued_iff index).mpr hle] at hpublished
    cases hpublished
  exact lt_of_lt_of_le (not_le.mp hgone) hconsistent.gone_le

/-- The queue after an announcement, and what has left it. -/
theorem Consistent.window_onStateChanged (hconsistent : Consistent topics world)
    (pending : PendingState) : (world.onStateChanged pending).gone ≤ world.announced.length ∧
      (world.onStateChanged pending).queue.toList =
        world.announced.drop (world.onStateChanged pending).gone ++ [pending] := by
  have hlength : world.queue.count = world.announced.length - world.gone := by
    rw [← BoundedQueue.length_toList, hconsistent.window, List.length_drop]
  by_cases hfull : world.queue.full = true
  · have hcount : world.queue.count = kPublishQueueDepth := of_decide_eq_true hfull
    have hpush := (BoundedQueue.toList_push_of_full_drop hcount hconsistent.policy pending).2
    have hgone : (world.onStateChanged pending).gone = world.gone + 1 := if_pos hfull
    have hdepth : kPublishQueueDepth = 16 := rfl
    rw [hgone]
    refine ⟨by omega, ?_⟩
    change (world.queue.push pending).2.toList = _
    rw [hpush, hconsistent.window, List.tail_drop]
  · have hroom := BoundedQueue.count_lt_of_not_full hfull
    have hpush := (BoundedQueue.toList_push_of_room hroom pending).2
    have hgone : (world.onStateChanged pending).gone = world.gone := if_neg hfull
    rw [hgone]
    refine ⟨hconsistent.gone_le, ?_⟩
    change (world.queue.push pending).2.toList = _
    rw [hpush, hconsistent.window]

/-- Only what leaves the queue gets another fate. -/
theorem Consistent.fate_onStateChanged (hconsistent : Consistent topics world)
    (pending : PendingState) (index : ℕ) :
    ((world.onStateChanged pending).fate index = .queued ↔
      (world.onStateChanged pending).gone ≤ index) ∧
    ((world.onStateChanged pending).fate index = .published ↔
      world.fate index = .published) := by
  have hqueued := hconsistent.queued_iff
  by_cases hfull : world.queue.full = true
  · have hfate : (world.onStateChanged pending).fate =
        Function.update world.fate world.gone .evicted := if_pos hfull
    have hgone : (world.onStateChanged pending).gone = world.gone + 1 := if_pos hfull
    rw [hfate, hgone]
    rcases eq_or_ne index world.gone with rfl | hne
    · have hold : world.fate world.gone = .queued := (hqueued _).mpr le_rfl
      simp [hold]
    · rw [Function.update_of_ne hne, hqueued]
      exact ⟨by omega, Iff.rfl⟩
  · have hfate : (world.onStateChanged pending).fate = world.fate := if_neg hfull
    have hgone : (world.onStateChanged pending).gone = world.gone := if_neg hfull
    rw [hfate, hgone]
    exact ⟨hqueued index, Iff.rfl⟩

/-- An announcement keeps everything consistent. -/
theorem Consistent.onStateChanged (hconsistent : Consistent topics world)
    (pending : PendingState) : Consistent topics (world.onStateChanged pending) := by
  obtain ⟨hgone, hwindow⟩ := hconsistent.window_onStateChanged pending
  have hannounced : (world.onStateChanged pending).announced = world.announced ++ [pending] := rfl
  refine {
    policy := (BoundedQueue.policy_push _ _).trans hconsistent.policy
    window := ?_
    gone_le := ?_
    queued_iff := fun index ↦ (hconsistent.fate_onStateChanged pending index).1
    flight_lt := fun index hflight ↦ ?_
    published_le := fun index hpublished ↦ hconsistent.published_le index
      ((hconsistent.fate_onStateChanged pending index).2.mp hpublished)
    kept := fun index other hpublished hother ↦ ?_ }
  · rw [hwindow, hannounced, List.drop_append_of_le_length hgone]
  · rw [hannounced, List.length_append]
    omega
  · have hold := hconsistent.flight_lt index hflight
    have hmono : world.gone ≤ (world.onStateChanged pending).gone := by
      unfold MqttWorld.onStateChanged
      dsimp only
      split_ifs <;> omega
    omega
  · have hpublished' := (hconsistent.fate_onStateChanged pending index).2.mp hpublished
    have hlt := hconsistent.lt_length_of_published hpublished'
    rw [hannounced, List.getElem?_append_left hlt] at hother
    obtain ⟨later, last, hle, hlater, hat, hch, hretains⟩ :=
      hconsistent.kept index other hpublished' hother
    refine ⟨later, last, hle, (hconsistent.fate_onStateChanged pending later).2.mpr hlater, ?_, hch,
      hretains⟩
    rw [hannounced, List.getElem?_append_left (hconsistent.lt_length_of_published hlater), hat]

theorem Accounted.onStateChanged (haccounted : Accounted topics waiting world)
    (pending : PendingState) : Accounted topics waiting (world.onStateChanged pending) where
  toConsistent := haccounted.toConsistent.onStateChanged pending
  excused index other hpopped hother hfits := by
    have hpopped' := fate_of_onStateChanged hpopped
    have hgone : ¬ world.gone ≤ index := fun hle ↦ by
      rw [(haccounted.queued_iff index).mpr hle] at hpopped'
      cases hpopped'
    have hlt : index < world.announced.length :=
      lt_of_lt_of_le (not_le.mp hgone) haccounted.gone_le
    have hannounced : (world.announced ++ [pending])[index]? = some other := hother
    rw [List.getElem?_append_left hlt] at hannounced
    exact haccounted.excused index other hpopped' hannounced hfits

/-- A connection that comes or goes changes nothing here. -/
theorem Consistent.connection (hconsistent : Consistent topics world) (isConnected : Bool) :
    Consistent topics { world with isConnected := isConnected } where
  policy := hconsistent.policy
  window := hconsistent.window
  gone_le := hconsistent.gone_le
  queued_iff := hconsistent.queued_iff
  flight_lt := hconsistent.flight_lt
  published_le := hconsistent.published_le
  kept := hconsistent.kept

theorem Accounted.connection (haccounted : Accounted topics waiting world) (isConnected : Bool) :
    Accounted topics waiting { world with isConnected := isConnected } where
  toConsistent := haccounted.toConsistent.connection isConnected
  excused := haccounted.excused

/-- A refused publish changes nothing but the record of it. -/
theorem Consistent.refuse (hconsistent : Consistent topics world) (topic : Bytes) :
    Consistent topics (world.refuse topics topic) where
  policy := hconsistent.policy
  window := hconsistent.window
  gone_le := hconsistent.gone_le
  queued_iff := hconsistent.queued_iff
  flight_lt := hconsistent.flight_lt
  published_le := hconsistent.published_le
  kept := hconsistent.kept

theorem Accounted.refuse (haccounted : Accounted topics waiting world) (topic : Bytes) :
    Accounted topics waiting (world.refuse topics topic) where
  toConsistent := haccounted.toConsistent.refuse topic
  excused index pending hpopped hannounced hfits :=
    (haccounted.excused index pending hpopped hannounced hfits).imp_left mem_refused_refuse

/-- A consistent world in which the state was popped last. -/
structure Popped (topics : MqttTopics) (pending : PendingState) (index : ℕ) (world : MqttWorld) :
    Prop where
  consistent : Consistent topics world
  flight : world.inFlight = some index
  announced_at : world.announced[index]? = some pending

theorem Consistent.popped (hconsistent : Consistent topics world) :
    Consistent topics world.popped := by
  unfold MqttWorld.popped
  split_ifs with hempty
  · exact hconsistent
  · have hcount : world.queue.count ≠ 0 := by simpa [BoundedQueue.empty] using hempty
    have hlength : world.queue.count = world.announced.length - world.gone := by
      rw [← BoundedQueue.length_toList, hconsistent.window, List.length_drop]
    have hqueued : world.fate world.gone = .queued := (hconsistent.queued_iff _).mpr le_rfl
    have hpublished (index : ℕ) : Function.update world.fate world.gone .popped index = .published ↔
        world.fate index = .published := by
      rcases eq_or_ne index world.gone with rfl | hne
      · simp [hqueued]
      · rw [Function.update_of_ne hne]
    refine {
      policy := (BoundedQueue.policy_pop _).trans hconsistent.policy
      window := ?_
      gone_le := by change world.gone + 1 ≤ world.announced.length; omega
      queued_iff := fun index ↦ ?_
      flight_lt := fun index hflight ↦ ?_
      published_le := fun index hold ↦ ⟨world.gone, rfl, ?_⟩
      kept := fun index pending hold hat ↦ ?_ }
    · change world.queue.pop.2.toList = world.announced.drop (world.gone + 1)
      rw [(BoundedQueue.toList_pop world.queue).2, hconsistent.window, List.tail_drop]
    · change Function.update world.fate world.gone .popped index = .queued ↔ world.gone + 1 ≤ index
      rcases eq_or_ne index world.gone with rfl | hne
      · simp
      · rw [Function.update_of_ne hne, hconsistent.queued_iff]
        omega
    · cases hflight
      exact Nat.lt_succ_self _
    · obtain ⟨flight, hflight, hle⟩ := hconsistent.published_le index ((hpublished index).mp hold)
      exact hle.trans (hconsistent.flight_lt flight hflight).le
    · obtain ⟨later, other, hle, hlater, hother, hch, hretains⟩ :=
        hconsistent.kept index pending ((hpublished index).mp hold) hat
      exact ⟨later, other, hle, (hpublished later).mpr hlater, hother, hch, hretains⟩

/-- A pop from an empty queue. -/
theorem popped_of_pop_none (hpop : world.queue.pop.1 = none) : world.popped = world := by
  rw [(BoundedQueue.toList_pop world.queue).1, List.head?_eq_none_iff,
    BoundedQueue.toList_eq_nil_iff] at hpop
  exact if_pos (decide_eq_true hpop)

/-- A pop that answers with a state takes the announcement at the front of the queue. -/
theorem Consistent.popped_of_pop (hconsistent : Consistent topics world)
    {pending : PendingState} (hpop : world.queue.pop.1 = some pending) :
    Popped topics pending world.gone world.popped := by
  have hhead : world.announced[world.gone]? = some pending := by
    rw [(BoundedQueue.toList_pop world.queue).1, hconsistent.window, List.head?_drop] at hpop
    exact hpop
  have hnonempty : ¬ world.queue.empty = true := by
    intro hempty
    have hcount : world.queue.count = 0 := of_decide_eq_true hempty
    rw [(BoundedQueue.toList_pop world.queue).1,
      (BoundedQueue.toList_eq_nil_iff world.queue).mpr hcount] at hpop
    cases hpop
  refine ⟨hconsistent.popped, ?_, ?_⟩
  · rw [MqttWorld.popped, if_neg hnonempty]
  · rw [MqttWorld.popped, if_neg hnonempty]
    exact hhead

/-- A world in which the state was popped last and waits to be published. -/
structure Held (topics : MqttTopics) (pending : PendingState) (index : ℕ) (world : MqttWorld) :
    Prop where
  popped : Popped topics pending index world
  accounted : Accounted topics (some index) world

theorem Accounted.held_of_pop (haccounted : Accounted topics none world) {pending : PendingState}
    (hpop : world.queue.pop.1 = some pending) : Held topics pending world.gone world.popped := by
  have hpopped := haccounted.popped_of_pop hpop
  refine ⟨hpopped, hpopped.consistent, fun index other hfate hannounced hfits ↦ ?_⟩
  have hnonempty : ¬ world.queue.empty = true := by
    intro hempty
    rw [(BoundedQueue.toList_pop world.queue).1,
      (BoundedQueue.toList_eq_nil_iff world.queue).mpr (of_decide_eq_true hempty)] at hpop
    cases hpop
  rw [MqttWorld.popped, if_neg hnonempty] at hfate hannounced ⊢
  rcases eq_or_ne index world.gone with rfl | hne
  · exact .inr rfl
  · have hbefore : Function.update world.fate world.gone .popped index = .popped := hfate
    rw [Function.update_of_ne hne] at hbefore
    obtain hrefused | hnone := haccounted.excused index other hbefore hannounced hfits
    · exact .inl hrefused
    · cases hnone

/-- A publish on no topic of a relay leaves the relays alone. -/
theorem Consistent.publish_of_ne (hconsistent : Consistent topics world) {publication : Publication}
    (hne : ∀ channel, topics.relayTopic channel ≠ publication.topic) :
    Consistent topics (world.publish topics publication) := by
  have hflight : world.flightTopic topics ≠ some publication.topic := by
    unfold flightTopic
    intro heq
    obtain ⟨index, -, hat⟩ := Option.bind_eq_some_iff.mp heq
    obtain ⟨pending, -, htopic⟩ := Option.map_eq_some_iff.mp hat
    exact hne pending.ch htopic
  have hfate : (world.publish topics publication).fate = world.fate := by
    unfold MqttWorld.publish
    dsimp only
    split
    · rfl
    · exact if_neg hflight
  refine {
    policy := hconsistent.policy
    window := hconsistent.window
    gone_le := hconsistent.gone_le
    queued_iff := by rw [hfate]; exact hconsistent.queued_iff
    flight_lt := hconsistent.flight_lt
    published_le := by rw [hfate]; exact hconsistent.published_le
    kept := ?_ }
  rw [hfate]
  intro index pending hpublished hat
  obtain ⟨later, other, hle, hlater, hother, hch, payload, hpayload, hcarries⟩ :=
    hconsistent.kept index pending hpublished hat
  refine ⟨later, other, hle, hlater, hother, hch, payload, ?_, hcarries⟩
  exact (retainedOn_append_of_ne (hne other.ch).symm world.log).trans hpayload

theorem Accounted.publish_of_ne (haccounted : Accounted topics waiting world)
    {publication : Publication} (hne : ∀ channel, topics.relayTopic channel ≠ publication.topic) :
    Accounted topics waiting (world.publish topics publication) where
  toConsistent := haccounted.toConsistent.publish_of_ne hne
  excused index pending hpopped := haccounted.excused index pending (fate_of_publish hpopped)

theorem Popped.flightTopic_eq {pending : PendingState} {index : ℕ}
    (hpopped : Popped topics pending index world) :
    world.flightTopic topics = some (topics.relayTopic pending.ch) := by
  rw [flightTopic, hpopped.flight, Option.bind_some, hpopped.announced_at, Option.map_some]

theorem Popped.fate_publish {pending : PendingState} {index : ℕ}
    (hpopped : Popped topics pending index world) (payload : Bytes) :
    (world.publish topics ⟨topics.relayTopic pending.ch, payload, true⟩).fate =
      Function.update world.fate index .published := by
  unfold MqttWorld.publish
  simp only [hpopped.flight, hpopped.flightTopic_eq, ↓reduceIte]

/-- The publish of the announcement that was popped last. -/
theorem Popped.publish {pending : PendingState} {index : ℕ} {payload : Bytes}
    (hpopped : Popped topics pending index world) (hcarries : Carries payload pending.state) :
    Consistent topics
      (world.publish topics ⟨topics.relayTopic pending.ch, payload, true⟩) := by
  have hfate := hpopped.fate_publish payload
  obtain ⟨hconsistent, hindex, hat⟩ := hpopped
  have hgone := hconsistent.flight_lt index hindex
  have hmax (other : ℕ) (hother : world.fate other = .published) : other ≤ index := by
    obtain ⟨flight, hflight, hle⟩ := hconsistent.published_le other hother
    rw [hindex, Option.some.injEq] at hflight
    rw [hflight]
    exact hle
  have hnew : (world.publish topics ⟨topics.relayTopic pending.ch, payload, true⟩).Retains topics
      pending := ⟨payload, retainedOn_append_self _ _ _, hcarries⟩
  refine {
    policy := hconsistent.policy
    window := hconsistent.window
    gone_le := hconsistent.gone_le
    queued_iff := fun other ↦ ?_
    flight_lt := hconsistent.flight_lt
    published_le := fun other hother ↦ ⟨index, hindex, ?_⟩
    kept := fun other last hother hlast ↦ ?_ }
  · change _ ↔ world.gone ≤ other
    rw [hfate]
    rcases eq_or_ne other index with rfl | hne
    · simp [hgone]
    · rw [Function.update_of_ne hne, hconsistent.queued_iff]
  · rw [hfate] at hother
    rcases eq_or_ne other index with rfl | hne
    · exact le_rfl
    · rw [Function.update_of_ne hne] at hother
      exact hmax other hother
  · rw [hfate] at hother ⊢
    by_cases hch : last.ch = pending.ch
    · -- The new publish is later than every one before it.
      have hle : other ≤ index := by
        rcases eq_or_ne other index with rfl | hne
        · exact le_rfl
        · rw [Function.update_of_ne hne] at hother
          exact hmax other hother
      exact ⟨index, pending, hle, Function.update_self .., hat, hch.symm, hnew⟩
    · have hne : other ≠ index := by
        rintro rfl
        have hsame : world.announced[other]? = some last := hlast
        rw [hat, Option.some.injEq] at hsame
        exact hch (by rw [hsame])
      rw [Function.update_of_ne hne] at hother
      obtain ⟨later, next, hle, hlater, hnext, hnext_ch, kept, hkept, hnext_carries⟩ :=
        hconsistent.kept other last hother hlast
      refine ⟨later, next, hle, ?_, hnext, hnext_ch, kept, ?_, hnext_carries⟩
      · rcases eq_or_ne later index with rfl | hne'
        · exact Function.update_self ..
        · rw [Function.update_of_ne hne', hlater]
      · have htopics : topics.relayTopic pending.ch ≠ topics.relayTopic next.ch :=
          fun heq ↦ hch (hnext_ch.symm.trans (MqttTopics.relayTopic_inj heq).symm)
        exact (retainedOn_append_of_ne htopics world.log).trans hkept

/-- Nothing waits once the announcement was published, or the publish refused. -/
theorem Held.publish {pending : PendingState} {index : ℕ} {payload : Bytes}
    (hheld : Held topics pending index world) (hcarries : Carries payload pending.state) :
    Accounted topics none
      (world.publish topics ⟨topics.relayTopic pending.ch, payload, true⟩) where
  toConsistent := hheld.popped.publish hcarries
  excused other state hpopped hannounced hfits := by
    obtain hrefused | hwaits :=
      hheld.accounted.excused other state (fate_of_publish hpopped) hannounced hfits
    · exact .inl hrefused
    · obtain rfl := Option.some.inj hwaits
      rw [hheld.popped.fate_publish, Function.update_self] at hpopped
      cases hpopped

theorem Held.refuse {pending : PendingState} {index : ℕ}
    (hheld : Held topics pending index world) :
    Accounted topics none (world.refuse topics (topics.relayTopic pending.ch)) where
  toConsistent := hheld.popped.consistent.refuse _
  excused other state hpopped hannounced hfits := by
    obtain hrefused | hwaits := hheld.accounted.excused other state hpopped hannounced hfits
    · exact .inl (mem_refused_refuse hrefused)
    · obtain rfl := Option.some.inj hwaits
      left
      rw [MqttWorld.refuse, hheld.popped.flightTopic_eq, if_pos rfl, hheld.popped.flight]
      exact List.mem_cons_self

/-- Nothing waits if the topic does not fit. -/
theorem Held.unfit {pending : PendingState} {index : ℕ} (hheld : Held topics pending index world)
    (hfits : ¬ (topics.evtRelayState kMaxTopicLen pending.ch).2 = true) :
    Accounted topics none world where
  toConsistent := hheld.popped.consistent
  excused other state hpopped hannounced hfits' := by
    obtain hrefused | hwaits := hheld.accounted.excused other state hpopped hannounced hfits'
    · exact .inl hrefused
    · obtain rfl := Option.some.inj hwaits
      rw [hheld.popped.announced_at, Option.some.injEq] at hannounced
      exact absurd (hannounced ▸ hfits') hfits

theorem Consistent.of_interferes {world' : MqttWorld} (hconsistent : Consistent topics world)
    (hinterferes : Interferes world world') : Consistent topics world' := by
  obtain ⟨pending, rfl⟩ | rfl := hinterferes
  · exact hconsistent.onStateChanged pending
  · exact hconsistent.connection false

theorem Accounted.of_interferes {world' : MqttWorld} (haccounted : Accounted topics waiting world)
    (hinterferes : Interferes world world') : Accounted topics waiting world' := by
  obtain ⟨pending, rfl⟩ | rfl := hinterferes
  · exact haccounted.onStateChanged pending
  · exact haccounted.connection false

theorem Popped.of_interferes {world' : MqttWorld} {pending : PendingState} {index : ℕ}
    (hpopped : Popped topics pending index world) (hinterferes : Interferes world world') :
    Popped topics pending index world' := by
  have hconsistent := hpopped.consistent.of_interferes hinterferes
  obtain ⟨other, rfl⟩ | rfl := hinterferes
  · obtain ⟨hlt, -⟩ := List.getElem?_eq_some_iff.mp hpopped.announced_at
    refine ⟨hconsistent, hpopped.flight, ?_⟩
    exact (List.getElem?_append_left hlt).trans hpopped.announced_at
  · exact ⟨hconsistent, hpopped.flight, hpopped.announced_at⟩

theorem Held.of_interferes {world' : MqttWorld} {pending : PendingState} {index : ℕ}
    (hheld : Held topics pending index world) (hinterferes : Interferes world world') :
    Held topics pending index world' :=
  ⟨hheld.popped.of_interferes hinterferes, hheld.accounted.of_interferes hinterferes⟩

/-- The calls that neither pop nor publish. -/
def Neutral : MqttCall → Prop
  | .publish _ _ _ | .pop => False
  | _ => True

/-- A call that neither pops nor publishes concerns the connection at most. -/
theorem eq_of_neutral {world' : MqttWorld} {request : MqttCall} {reply : MqttAns request}
    (hneutral : Neutral request) (hanswers : Answers topics world request reply world') :
    ∃ isConnected, world' = { world with isConnected := isConnected } := by
  cases request with
  | publish | pop => exact hneutral.elim
  | connected => exact ⟨world.isConnected, hanswers.2⟩
  | connect params => exact ⟨reply, hanswers⟩
  | disconnect => exact ⟨false, hanswers⟩
  | _ => exact ⟨world.isConnected, hanswers⟩

theorem Consistent.of_answers {world' : MqttWorld} {request : MqttCall} {reply : MqttAns request}
    (hconsistent : Consistent topics world) (hneutral : Neutral request)
    (hanswers : Answers topics world request reply world') : Consistent topics world' := by
  obtain ⟨isConnected, rfl⟩ := eq_of_neutral hneutral hanswers
  exact hconsistent.connection isConnected

theorem Accounted.of_answers {world' : MqttWorld} {request : MqttCall} {reply : MqttAns request}
    (haccounted : Accounted topics waiting world) (hneutral : Neutral request)
    (hanswers : Answers topics world request reply world') : Accounted topics waiting world' := by
  obtain ⟨isConnected, rfl⟩ := eq_of_neutral hneutral hanswers
  exact haccounted.connection isConnected

end Steps

/-! ### The parts of a tick -/

/-- Nothing is asked of the calls themselves. -/
def unguarded (_ : MqttWorld) (_ : MqttCall) : Prop := True

section Programs

variable {topics : MqttTopics} {world : MqttWorld} {α : Type}

theorem wp_call {request : MqttCall} {resume : MqttAns request → Prog MqttCall MqttAns α}
    {post : α → MqttWorld → Prop} (haccounted : Accounted topics none world)
    (hresume : ∀ last reply world', Accounted topics none last →
      Answers topics last request reply world' →
      (setting topics).wp unguarded (resume reply) post world') :
    (setting topics).wp unguarded (.call request resume) post world :=
  Setting.wp_call_of_stable (fun _ _ ↦ Accounted.of_interferes) haccounted
    (fun _ _ ↦ trivial) hresume

theorem wp_neutral {request : MqttCall} {resume : MqttAns request → Prog MqttCall MqttAns α}
    {post : α → MqttWorld → Prop} (hneutral : Neutral request)
    (haccounted : Accounted topics none world)
    (hresume : ∀ reply world', Accounted topics none world' →
      (setting topics).wp unguarded (resume reply) post world') :
    (setting topics).wp unguarded (.call request resume) post world := by
  refine wp_call haccounted fun last reply world' hlast hanswers ↦ ?_
  exact hresume reply world' (hlast.of_answers hneutral hanswers)

theorem wp_return {value : α} (haccounted : Accounted topics none world) :
    (setting topics).wp unguarded (.ret value) (fun _ ↦ Accounted topics none) world :=
  Setting.wp_ret_of_stable (fun _ _ ↦ Accounted.of_interferes) haccounted

theorem wp_act (routed : MqttService.Routed) (haccounted : Accounted topics none world) :
    (setting topics).wp unguarded (MqttService.act routed)
      (fun _ ↦ Accounted topics none) world := by
  cases routed with
  | nothing => exact wp_return haccounted
  | submit command => exact wp_neutral trivial haccounted fun _ _ ↦ wp_return
  | otaManifest payload =>
    refine wp_neutral trivial haccounted fun yields world' haccounted' ↦ ?_
    cases yields with
    | false => exact wp_return haccounted'
    | true => exact wp_neutral trivial haccounted' fun _ _ ↦ wp_return
  | otaConfirm => exact wp_neutral trivial haccounted fun _ _ ↦ wp_return

theorem wp_deliver (service : MqttService) (messages : List Message)
    (haccounted : Accounted topics none world) :
    (setting topics).wp unguarded (service.deliver messages)
      (fun _ ↦ Accounted topics none) world := by
  induction messages generalizing world with
  | nil => exact wp_return haccounted
  | cons message rest ih =>
    apply Setting.wp_bind
    exact Setting.wp_mono (fun _ _ ↦ ih) (wp_act _ haccounted)

/-- The publish of a state that was just popped. -/
theorem wp_publishState (service : MqttService) (ts : UInt32) {pending : PendingState} {index : ℕ}
    (hheld : Held service.topics pending index world) :
    (setting service.topics).wp unguarded (service.publishState pending ts)
      (fun _ ↦ Accounted service.topics none) world := by
  have hpayload : MqttPayload.relayState 64 pending.state pending.source ts ≠ [] := by
    rw [MqttPayload.relayState_eq_text]
    exact MqttPayload.relayStateText_ne_nil _ _ _
  unfold MqttService.publishState
  dsimp only
  split_ifs with hfits
  · simp only [Prog.ask_bind, Prog.pure_eq]
    rw [MqttTopics.fst_evtRelayState hfits.1]
    refine Setting.wp_call_of_stable (fun _ _ ↦ Held.of_interferes) hheld
      (fun _ _ ↦ trivial) ?_
    rintro last published _ hlast rfl
    apply wp_return
    split_ifs
    · exact hlast.publish ⟨pending.source, ts, MqttPayload.relayState_eq_text _ _ _⟩
    · exact hlast.refuse
  · -- The payload always fits, so it is the topic that does not.
    exact wp_return (hheld.unfit fun htopic ↦ hfits ⟨htopic, hpayload⟩)

theorem wp_drainPublishes (service : MqttService) (ts : UInt32) (budget : ℕ)
    (haccounted : Accounted service.topics none world) :
    (setting service.topics).wp unguarded (service.drainPublishes ts budget)
      (fun _ ↦ Accounted service.topics none) world := by
  induction budget generalizing world with
  | zero => exact wp_return haccounted
  | succ budget ih =>
    unfold MqttService.drainPublishes
    simp only [Prog.ask_bind, Prog.pure_eq]
    refine wp_call haccounted ?_
    rintro last popped _ hlast ⟨hpop, rfl⟩
    cases popped with
    | none =>
      rw [popped_of_pop_none hpop.symm]
      exact wp_return hlast
    | some pending =>
      apply Setting.wp_bind
      exact Setting.wp_mono (fun _ _ ↦ ih)
        (wp_publishState service ts (hlast.held_of_pop hpop.symm))

theorem wp_onConnected (service : MqttService) (haccounted : Accounted service.topics none world) :
    (setting service.topics).wp unguarded service.onConnected
      (fun _ ↦ Accounted service.topics none) world := by
  unfold MqttService.onConnected
  simp only [Prog.ask_bind, Prog.pure_eq]
  refine wp_call haccounted ?_
  rintro last published _ hlast rfl
  refine wp_neutral trivial ?_ fun _ _ ↦ wp_return
  split_ifs
  · exact hlast.publish_of_ne (MqttTopics.relayTopic_ne_evtOnline service.topics kMaxTopicLen)
  · exact hlast.refuse _

/-- What holds between two ticks. -/
def Rests (topics : MqttTopics) (service : MqttService) (world : MqttWorld) : Prop :=
  service.topics = topics ∧ Accounted topics none world

theorem wp_rest {service : MqttService} (htopics : service.topics = topics)
    (haccounted : Accounted topics none world) :
    (setting topics).wp unguarded (.ret service) (Rests topics) world :=
  Setting.wp_ret_of_stable (fun _ _ hrests hinterferes ↦
    ⟨hrests.1, hrests.2.of_interferes hinterferes⟩) ⟨htopics, haccounted⟩

theorem wp_attemptConnect (service : MqttService) (now : Millis) (jitterSeed : UInt32)
    (haccounted : Accounted service.topics none world) :
    (setting service.topics).wp unguarded (service.attemptConnect now jitterSeed)
      (Rests service.topics) world := by
  unfold MqttService.attemptConnect
  simp only [Prog.ask_bind, Prog.pure_eq]
  refine wp_neutral trivial haccounted fun connected world' haccounted' ↦ ?_
  split_ifs
  · apply Setting.wp_bind
    exact Setting.wp_mono (fun _ _ ↦ wp_rest rfl) (wp_onConnected service haccounted')
  · exact wp_rest rfl haccounted'

theorem wp_serve (service : MqttService) (ts : UInt32)
    (haccounted : Accounted service.topics none world) :
    (setting service.topics).wp unguarded (service.serve ts) (Rests service.topics) world := by
  unfold MqttService.serve
  simp only [Prog.ask_bind, Prog.pure_eq]
  refine wp_neutral trivial haccounted fun messages world' haccounted' ↦ ?_
  apply Setting.wp_bind
  refine Setting.wp_mono (fun _ _ hdelivered ↦ ?_) (wp_deliver service messages haccounted')
  apply Setting.wp_bind
  exact Setting.wp_mono (fun _ _ ↦ wp_rest rfl) (wp_drainPublishes service ts _ hdelivered)

theorem wp_tick (service : MqttService) (now : Millis) (jitterSeed ts : UInt32)
    (haccounted : Accounted service.topics none world) :
    (setting service.topics).wp unguarded (service.tick now jitterSeed ts) (Rests service.topics)
      world := by
  unfold MqttService.tick
  simp only [Prog.ask_bind, Prog.pure_eq]
  refine wp_neutral trivial haccounted fun connected world' haccounted' ↦ ?_
  split_ifs
  · exact wp_serve service ts haccounted'
  · exact wp_attemptConnect service now jitterSeed haccounted'
  · exact wp_rest rfl haccounted'

end Programs

/-! ### All runs -/

/-- When a tick has emptied the queue, the broker retains the last state of every relay whose topic
fits the buffer, unless later announcements pushed it out of the queue or the client refused its
publish. -/
theorem last_state_published (service : MqttService) {rested : MqttService} {world : MqttWorld}
    (hsteps : MqttService.component.Steps (setting service.topics) starts
      (.idle service, fresh) (.idle rested, world))
    (hempty : world.queue.empty = true) {index : ℕ} {pending : PendingState}
    (hlast : world.IsLast index pending)
    (hfits : (service.topics.evtRelayState kMaxTopicLen pending.ch).2 = true)
    (hevicted : world.fate index ≠ .evicted) (hrefused : index ∉ world.refused) :
    world.Retains service.topics pending := by
  have hmaintained : Component.Maintains (setting service.topics) unguarded (Rests service.topics)
      ((.idle rested : Component.Phase MqttCall MqttAns MqttService MqttService.Tick), world) := by
    refine Component.invariant_rule ?_ ?_ hsteps ⟨rfl, accounted_fresh service.topics⟩
    · rintro service' first second ⟨htopics, haccounted⟩ hinterferes
      exact ⟨htopics, haccounted.of_interferes hinterferes⟩
    · rintro service' operation first second ⟨htopics, haccounted⟩ rfl
      rw [← htopics] at haccounted ⊢
      exact wp_tick service' _ _ _ haccounted
  obtain ⟨-, haccounted⟩ := (hmaintained : Rests service.topics rested world)
  have hgone : world.announced.length ≤ world.gone := by
    have hnil : world.queue.toList = [] :=
      (BoundedQueue.toList_eq_nil_iff world.queue).mpr (of_decide_eq_true hempty)
    rw [haccounted.window, List.drop_eq_nil_iff] at hnil
    exact hnil
  obtain ⟨hlt, -⟩ := List.getElem?_eq_some_iff.mp hlast.announced_at
  have hqueued : world.fate index ≠ .queued := by
    rw [Ne, haccounted.queued_iff]
    omega
  have hpopped : world.fate index ≠ .popped := fun hpopped ↦ by
    obtain hmem | hwaits := haccounted.excused index pending hpopped hlast.announced_at hfits
    · exact hrefused hmem
    · cases hwaits
  have hpublished : world.fate index = .published := by
    cases hfate : world.fate index with
    | queued => exact absurd hfate hqueued
    | evicted => exact absurd hfate hevicted
    | popped => exact absurd hfate hpopped
    | published => rfl
  obtain ⟨later, other, hle, -, hother, hch, hretains⟩ :=
    haccounted.kept index pending hpublished hlast.announced_at
  rcases hle.eq_or_lt with rfl | hlater
  · rw [hlast.announced_at, Option.some.injEq] at hother
    rw [hother]
    exact hretains
  · exact absurd hch (hlast.last later hlater other hother)

/-! ### A state that is lost -/

/-- Collaborators that do all they are asked. -/
def obliging (topics : MqttTopics) (world : MqttWorld) :
    (request : MqttCall) → MqttAns request × MqttWorld
  | .connected => (world.isConnected, world)
  | .connect _ => (true, { world with isConnected := true })
  | .publish topic payload retain => (true, world.publish topics ⟨topic, payload, retain⟩)
  | .subscribe _ _ => (true, world)
  | .loop => ([], world)
  | .disconnect => ((), { world with isConnected := false })
  | .pop => (world.queue.pop.1, world.popped)
  | .submit _ => (.success, world)
  | .onOtaManifest _ => (false, world)
  | .onOtaConfirm => ((), world)

theorem answers_obliging (topics : MqttTopics) (world : MqttWorld) (request : MqttCall) :
    Answers topics world request (world.obliging topics request).1
      (world.obliging topics request).2 := by
  cases request <;> first | rfl | exact ⟨rfl, rfl⟩

/-- Announcements may come at any time. -/
theorem steps_onStateChanged (topics : MqttTopics)
    (phase : Component.Phase MqttCall MqttAns MqttService MqttService.Tick)
    (announcements : List PendingState) (world : MqttWorld) :
    MqttService.component.Steps (setting topics) starts (phase, world)
      (phase, announcements.foldl onStateChanged world) := by
  induction announcements generalizing world with
  | nil => exact .refl
  | cons pending rest ih => exact .head (.interfere (.inl ⟨pending, rfl⟩)) (ih _)

/-- A tick with collaborators that do all they are asked. -/
theorem steps_tick (service : MqttService) {topics : MqttTopics} (operation : MqttService.Tick)
    (world : MqttWorld) :
    MqttService.component.Steps (setting topics) starts (.idle service, world)
      (.idle ((MqttService.component.handle service operation).runOn (obliging topics) world).1,
        ((MqttService.component.handle service operation).runOn (obliging topics) world).2) :=
  .head (.start rfl) (Component.steps_runOn (answers_obliging topics) operation _ world)

/-- A service that has not connected yet. -/
def offline : MqttService := { topics := ⟨ascii "sw", ascii "dev01"⟩, clientId := ascii "dev01" }

/-- Relay 0 changes once during an outage, then relay 1 as often as the queue is deep. -/
def outage : List PendingState :=
  { ch := 0, state := .on } :: List.replicate kPublishQueueDepth { ch := 1, state := .on }

/-- The service and the world after an outage with some announcements: the first tick connects, the
second one empties the queue. -/
def flushed (announcements : List PendingState) : MqttService × MqttWorld :=
  let reconnected := (MqttService.component.handle offline ⟨0, 0, 0⟩).runOn
    (obliging offline.topics) (announcements.foldl onStateChanged fresh)
  (MqttService.component.handle reconnected.1 ⟨1, 0, 0⟩).runOn (obliging offline.topics)
    reconnected.2

theorem steps_flushed (announcements : List PendingState) :
    MqttService.component.Steps (setting offline.topics) starts (.idle offline, fresh)
      (.idle (flushed announcements).1, (flushed announcements).2) := by
  have hannounced := steps_onStateChanged offline.topics (.idle offline) announcements fresh
  exact (hannounced.trans (steps_tick offline ⟨0, 0, 0⟩ _)).trans (steps_tick _ ⟨1, 0, 0⟩ _)

theorem last_state_published_witness :
    (flushed [{ ch := 0, state := .on }]).2.Retains offline.topics { ch := 0, state := .on } := by
  have hlast : (flushed [{ ch := 0, state := .on }]).2.IsLast 0 { ch := 0, state := .on } := by
    refine ⟨by decide +kernel, fun later hlater other hother ↦ ?_⟩
    have hannounced : (flushed [{ ch := 0, state := .on }]).2.announced =
        [{ ch := 0, state := .on }] := by decide +kernel
    rw [hannounced, List.getElem?_eq_none (Nat.succ_le_of_lt hlater)] at hother
    cases hother
  exact last_state_published offline (steps_flushed _) (by decide +kernel) hlast
    (by decide +kernel) (by decide +kernel) (by decide +kernel)

/-- The last state of relay 0 was pushed out of the queue. The queue is empty and the service
connected, but the broker never heard of the state. -/
theorem evicted_state_is_lost :
    ∃ rested world, MqttService.component.Steps (setting offline.topics) starts
        (.idle offline, fresh) (.idle rested, world) ∧
      world.isConnected = true ∧ world.queue.empty = true ∧
      ∃ index pending, world.IsLast index pending ∧ ¬ world.Retains offline.topics pending := by
  refine ⟨_, _, steps_flushed outage, by decide +kernel, by decide +kernel, 0,
    { ch := 0, state := .on }, ⟨by decide +kernel, ?_⟩, ?_⟩
  · intro later hlater other hother
    have hannounced : (flushed outage).2.announced = outage := by decide +kernel
    obtain ⟨rest, rfl⟩ := Nat.exists_eq_succ_of_ne_zero hlater.ne'
    rw [hannounced] at hother
    have hrest : (List.replicate kPublishQueueDepth
        ({ ch := 1, state := .on } : PendingState))[rest]? = some other := hother
    rw [List.eq_of_mem_replicate (List.mem_of_getElem? hrest)]
    decide
  · rintro ⟨payload, hpayload, -⟩
    have hnone : retainedOn (offline.topics.relayTopic 0) (flushed outage).2.log = none := by
      decide +kernel
    rw [hnone] at hpayload
    cases hpayload

end MqttWorld

end LibreSwitch.Net
