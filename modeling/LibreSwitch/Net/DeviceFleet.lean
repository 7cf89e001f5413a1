import LibreSwitch.Library.Broker
import LibreSwitch.Net.ListeningSession
import LibreSwitch.Net.PublishedStates

/-!
# A fleet of devices at one broker

Any number of devices with their MQTT services, each behind the `PubSubMqttClient` of
`net/mqtt_client_pubsub.h`, at one broker, together with other clients that publish what they like.
The steps of all of them interleave in any way. What a device writes to its socket is on its way for
a while and may be lost with the session; what the broker forwarded to a device may reach it late,
more than once and out of order; sessions are lost, and devices restart, at any moment.

`command_comes_from_outside` is the safety of the addressing: a device acts only on what some client
other than the devices published below its own `cmd`, and what a device says reaches no other
device's commands, if the devices' names are single levels and differ. `presence_honest` is about
the will: the broker shows a device online only if it has a session, or if it left after a manifest.
-/

set_option autoImplicit false
set_option relaxedAutoImplicit false

namespace LibreSwitch.Net

open LibreSwitch.Library LibreSwitch.Domain

/-! ### The client -/

namespace PubSubMqttClient

/-- The will as `connect` hands it to `PubSubClient`: copied into a buffer of 48 bytes and ended
there. -/
def willText (lwtPayload : Bytes) : Bytes :=
  let n := if lwtPayload.length < 48 then lwtPayload.length else 47
  cString (lwtPayload.take n ++ [0])

/-- The will of a connect. -/
def will (params : MqttConnectParams) : Item Bytes Bytes :=
  ⟨params.lwtTopic, willText params.lwtPayload, params.lwtRetain⟩

/-- The will of the service survives the copy. -/
theorem willText_offline :
    willText (MqttPayload.online 32 false) = MqttPayload.online 32 false := by
  decide

end PubSubMqttClient

/-! ### Topics and filters -/

/-- A level of a filter as it is written. -/
def filterLevel (text : Bytes) : FilterLevel Bytes :=
  if text = ascii "+" then .any else if text = ascii "#" then .rest else .level text

/-- A filter covers a topic. Topics that start with `$` are the broker's own, and no filter that
starts with a wildcard covers them. -/
def topicCovered (filter topic : Bytes) : Bool :=
  let levels := (filter.splitOn slash).map filterLevel
  if topic.head? = some 36 ∧ (levels.head? = some .any ∨ levels.head? = some .rest) then false
  else FilterLevel.covers levels (topic.splitOn slash)

namespace MqttTopics

/-- The names of a device are plain levels, and fit the buffers of the composition root. -/
structure Addressed (topics : MqttTopics) : Prop extends topics.Levels where
  root_plain : 43 ∉ topics.root ∧ 35 ∉ topics.root
  id_plain : 43 ∉ topics.id ∧ 35 ∉ topics.id
  short : topics.root.length + topics.id.length ≤ 64

/-- The levels of a topic. -/
theorem splitOn_full {topics : MqttTopics} (hlevels : topics.Levels) (suffix : Bytes) :
    (topics.full suffix).splitOn slash = topics.root :: topics.id :: suffix.splitOn slash := by
  rw [full, List.splitOn_append_cons_self_of_not_mem hlevels.root_level,
    List.splitOn_append_cons_self_of_not_mem hlevels.id_level]

/-- The topics of a device fit their buffers. -/
theorem Addressed.fits {topics : MqttTopics} (haddressed : topics.Addressed) {suffix : Bytes}
    (hsuffix : suffix.length ≤ 29) (n : ℕ) (hn : 96 ≤ n) : (topics.fmt n suffix).2 = true := by
  have hlength : (topics.full suffix).length = topics.root.length + topics.id.length + 2 +
      suffix.length := by
    simp only [full, List.length_append, List.length_cons]
    omega
  have hshort := haddressed.short
  exact decide_eq_true (by omega)

/-- The levels of the filter for all commands. -/
theorem Addressed.filterLevels {topics : MqttTopics} (haddressed : topics.Addressed) :
    ((MqttService.commandFilter topics).splitOn slash).map filterLevel =
      [topics.root, topics.id, ascii "cmd"].map .level ++ [.rest] := by
  have hplain {name : Bytes} (hname : 43 ∉ name ∧ 35 ∉ name) : filterLevel name = .level name := by
    have hplus : name ≠ ascii "+" := by
      rintro rfl
      exact hname.1 (by decide)
    have hhash : name ≠ ascii "#" := by
      rintro rfl
      exact hname.2 (by decide)
    rw [filterLevel, if_neg hplus, if_neg hhash]
  rw [MqttService.commandFilter, splitOn_full haddressed.toLevels, List.map_cons, List.map_cons,
    hplain haddressed.root_plain, hplain haddressed.id_plain]
  rfl

/-- The filter covers the level `cmd` of the device and everything below it. -/
theorem Addressed.covered_iff {topics : MqttTopics} (haddressed : topics.Addressed)
    (topic : Bytes) :
    topicCovered (MqttService.commandFilter topics) topic = true ↔
      ∃ rest, UnderCmd rest ∧ topic = topics.full rest := by
  have hcovered : topicCovered (MqttService.commandFilter topics) topic = true ↔
      [topics.root, topics.id, ascii "cmd"] <+: topic.splitOn slash := by
    rw [← FilterLevel.covers_below, topicCovered, haddressed.filterLevels]
    simp
  rw [hcovered]
  constructor
  · rintro ⟨more, hmore⟩
    have htopic :
        topic = [slash].intercalate (topics.root :: topics.id :: ascii "cmd" :: more) := by
      rw [← @List.intercalate_splitOn _ topic _ _ slash, ← hmore]
      rfl
    cases more with
    | nil =>
      refine ⟨ascii "cmd", .inl rfl, ?_⟩
      rw [htopic, List.intercalate_cons_cons, List.intercalate_cons_cons,
        List.intercalate_singleton, full]
      simp
    | cons level more =>
      refine ⟨ascii "cmd/" ++ [slash].intercalate (level :: more),
        .inr (List.prefix_append _ _), ?_⟩
      rw [htopic, List.intercalate_cons_cons, List.intercalate_cons_cons,
        List.intercalate_cons_cons, full]
      have hcmd : ascii "cmd/" = ascii "cmd" ++ [slash] := by decide
      rw [hcmd]
      simp
  · rintro ⟨rest, hrest, rfl⟩
    rw [splitOn_full haddressed.toLevels, List.cons_prefix_cons, List.cons_prefix_cons]
    refine ⟨rfl, rfl, ?_⟩
    obtain rfl | ⟨behind, rfl⟩ := hrest
    · decide
    · have hcmd : ascii "cmd/" ++ behind = ascii "cmd" ++ slash :: behind := by
        have hslash : ascii "cmd/" = ascii "cmd" ++ [slash] := by decide
        rw [hslash, List.append_assoc]
        rfl
      rw [hcmd, List.splitOn_append_cons_self_of_not_mem (by decide)]
      exact List.prefix_append [ascii "cmd"] _

/-- A topic of one device is a topic of no other. -/
theorem full_eq_full {first second : MqttTopics} (hfirst : first.Levels) (hsecond : second.Levels)
    {rest rest' : Bytes} (heq : first.full rest = second.full rest') :
    first = second ∧ rest = rest' := by
  have hsplit := congrArg (List.splitOn slash) heq
  rw [splitOn_full hfirst, splitOn_full hsecond, List.cons.injEq, List.cons.injEq] at hsplit
  obtain ⟨hroot, hid, hrest⟩ := hsplit
  refine ⟨?_, ?_⟩
  · obtain ⟨root, id⟩ := first
    exact congr (congrArg MqttTopics.mk hroot) hid
  · rw [← @List.intercalate_splitOn _ rest _ _ slash, hrest, List.intercalate_splitOn]

end MqttTopics

/-! ### The fleet -/

/-- Names, and whether a system sink is wired, of every device. -/
structure FleetConfig (ι : Type) where
  topics : ι → MqttTopics
  sys : ι → Bool

/-- The broker, and what every device is doing. -/
structure Fleet (ι : Type) where
  broker : Broker ι Bytes Bytes Bytes
  phase : ι → Component.Phase MqttCall MqttAns MqttService MqttService.Tick

namespace Fleet

open Relation

variable {ι : Type} [DecidableEq ι]

/-- The client of a device over the network. A packet goes on its way or is lost, a connect that
failed may have opened a session, and a `loop` delivers anything that the broker ever forwarded. -/
def answers (device : ι) (broker : Broker ι Bytes Bytes Bytes) :
    (request : MqttCall) → MqttAns request → Broker ι Bytes Bytes Bytes → Prop
  | .connect params, connected, broker' =>
    broker' = broker.connect topicCovered device (PubSubMqttClient.will params) ∨
      connected = false ∧ broker' = broker
  | .publish topic payload retain, _, broker' =>
    broker' = broker.send device (.publish ⟨topic, payload, retain⟩) ∨ broker' = broker
  | .subscribe filter _, _, broker' =>
    broker' = broker.send device (.subscribe filter) ∨ broker' = broker
  | .disconnect, _, broker' => broker' = broker.send device .farewell ∨ broker' = broker
  | .loop, messages, broker' =>
    (∀ message ∈ messages, (message.topic, message.payload) ∈ broker.inbox device) ∧
      broker' = broker
  | _, _, broker' => broker' = broker

/-- A device on its own. -/
def alone (device : ι) : Setting MqttCall MqttAns (Broker ι Bytes Bytes Bytes) where
  answers := answers device

/-- A device among all others: they publish, and the broker forwards. -/
def among (device : ι) : Setting MqttCall MqttAns (Broker ι Bytes Bytes Bytes) where
  answers := answers device
  interferes := Broker.Grows

/-- A tick may start at any time. -/
def starts (broker : Broker ι Bytes Bytes Bytes) (_ : MqttService.Tick)
    (broker' : Broker ι Bytes Bytes Bytes) : Prop := broker' = broker

/-- The service of a device as it is configured. -/
def Configured (config : FleetConfig ι) (device : ι) (service : MqttService) : Prop :=
  service.topics = config.topics device ∧ service.sys = config.sys device

/-- One step of the fleet. -/
inductive Step (config : FleetConfig ι) : Fleet ι → Fleet ι → Prop
  | device {fleet : Fleet ι} (device : ι)
      {phase : Component.Phase MqttCall MqttAns MqttService MqttService.Tick}
      {broker : Broker ι Bytes Bytes Bytes}
      (hstep : MqttService.component.Step (alone device) starts (fleet.phase device, fleet.broker)
        (phase, broker)) :
      Step config fleet ⟨broker, Function.update fleet.phase device phase⟩
  | restart {fleet : Fleet ι} (device : ι) {service : MqttService}
      (hservice : Configured config device service) :
      Step config fleet ⟨fleet.broker, Function.update fleet.phase device (.idle service)⟩
  | arrive {fleet : Fleet ι} (device : ι) :
      Step config fleet ⟨fleet.broker.arrive topicCovered device, fleet.phase⟩
  | lose {fleet : Fleet ι} (device : ι) :
      Step config fleet ⟨fleet.broker.lose topicCovered device, fleet.phase⟩
  | outside {fleet : Fleet ι} (item : Item Bytes Bytes) :
      Step config fleet ⟨fleet.broker.post topicCovered none item, fleet.phase⟩

/-- A fleet before anything happened. -/
def Initial (config : FleetConfig ι) (fleet : Fleet ι) : Prop :=
  fleet.broker = {} ∧ ∀ device, ∃ service, Configured config device service ∧
    fleet.phase device = .idle service

/-- What a fleet can come to. -/
def Reachable (config : FleetConfig ι) (fleet : Fleet ι) : Prop :=
  ∃ initial, Initial config initial ∧ ReflTransGen (Step config) initial fleet

/-! ### What a device asks for, says and does -/

/-- The topic of a device's presence. -/
def presenceTopic (topics : MqttTopics) : Bytes := topics.full (ascii "evt/system/online")

/-- The announcement that a device is online or not. -/
def presence (topics : MqttTopics) (isOnline : Bool) : Item Bytes Bytes :=
  ⟨presenceTopic topics, MqttPayload.online 32 isOnline, true⟩

/-- What a device subscribes to. -/
def Asks (config : FleetConfig ι) (device : ι) (filter : Bytes) : Prop :=
  filter = MqttService.commandFilter (config.topics device)

/-- What a device publishes: that it is online or not, and the states of its relays. -/
def Tells (config : FleetConfig ι) (device : ι) (item : Item Bytes Bytes) : Prop :=
  (∃ isOnline, item = presence (config.topics device) isOnline) ∨
    ∃ channel, item.topic = (config.topics device).relayTopic channel

/-- A message that leads to an action was forwarded to the device. -/
def Told (config : FleetConfig ι) (device : ι) (broker : Broker ι Bytes Bytes Bytes)
    (routed : MqttService.Routed) : Prop :=
  ∃ message ∈ broker.inbox device,
    MqttService.onMessage (config.sys device) message.1 message.2 = routed

/-- The action that a call is. -/
def actionOf : MqttCall → Option MqttService.Routed
  | .submit command => some (.submit command)
  | .onOtaManifest payload => some (.otaManifest payload)
  | .onOtaConfirm => some .otaConfirm
  | _ => none

/-- What has to hold when a device makes a call. -/
def Justified (config : FleetConfig ι) (device : ι) (broker : Broker ι Bytes Bytes Bytes)
    (request : MqttCall) : Prop :=
  (∀ routed, actionOf request = some routed → Told config device broker routed) ∧
    match request with
    | .connect params => PubSubMqttClient.will params = presence (config.topics device) false
    | .publish topic payload retain => Tells config device ⟨topic, payload, retain⟩
    | .subscribe filter _ => Asks config device filter
    | .disconnect => ∃ payload, Told config device broker (.otaManifest payload)
    | _ => True

omit [DecidableEq ι] in
theorem Told.of_grows {config : FleetConfig ι} {device : ι}
    {broker broker' : Broker ι Bytes Bytes Bytes} {routed : MqttService.Routed}
    (htold : Told config device broker routed) (hgrows : broker.Grows broker') :
    Told config device broker' routed := by
  obtain ⟨message, hmem, hrouted⟩ := htold
  exact ⟨message, (hgrows.inbox device).subset hmem, hrouted⟩

theorem grows_of_answers {device : ι} {broker broker' : Broker ι Bytes Bytes Bytes}
    {request : MqttCall} {reply : MqttAns request}
    (hanswer : answers device broker request reply broker') : broker.Grows broker' := by
  cases request with
  | connect params =>
    obtain rfl | ⟨-, rfl⟩ := hanswer
    · exact Broker.grows_connect _ _ _
    · exact .refl _
  | publish topic payload retain =>
    obtain rfl | rfl := hanswer
    · exact Broker.grows_send _ _ _
    · exact .refl _
  | subscribe filter qos =>
    obtain rfl | rfl := hanswer
    · exact Broker.grows_send _ _ _
    · exact .refl _
  | disconnect =>
    obtain rfl | rfl := hanswer
    · exact Broker.grows_send _ _ _
    · exact .refl _
  | loop =>
    obtain ⟨-, rfl⟩ := hanswer
    exact .refl _
  | _ =>
    obtain rfl := hanswer
    exact .refl _

/-! ### One device -/

section Device

variable {config : FleetConfig ι} {device : ι} {broker : Broker ι Bytes Bytes Bytes}
  {service : MqttService} {holds : Broker ι Bytes Bytes Bytes → Prop} {α : Type}

/-- A call in a world described by something that growth keeps. -/
theorem wp_call (hstable : ∀ before after, holds before → before.Grows after → holds after)
    {request : MqttCall} {resume : MqttAns request → Prog MqttCall MqttAns α}
    {post : α → Broker ι Bytes Bytes Bytes → Prop} (hholds : holds broker)
    (hjustified : ∀ before, holds before → Justified config device before request)
    (hresume : ∀ reply after, holds after →
      (among device).wp (Justified config device) (resume reply) post after) :
    (among device).wp (Justified config device) (.call request resume) post broker :=
  Setting.wp_call_of_stable hstable hholds hjustified fun before reply after hbefore hanswer ↦
    hresume reply after (hstable before after hbefore (grows_of_answers hanswer))

/-- Calls that are justified whatever happened. -/
def Free (config : FleetConfig ι) (device : ι) (request : MqttCall) : Prop :=
  ∀ broker, Justified config device broker request

theorem wp_of_free (hstable : ∀ before after, holds before → before.Grows after → holds after)
    {program : Prog MqttCall MqttAns α} (hprogram : program.AsksOnly (Free config device))
    (hholds : holds broker) :
    (among device).wp (Justified config device) program (fun _ after ↦ holds after) broker :=
  Setting.wp_mono (fun _ _ hpost ↦ hpost.2) (Setting.wp_of_asksOnly hstable
    (fun before _ hfree _ ↦ hfree before)
    (fun before _ _ after _ hbefore hanswer ↦
      hstable before after hbefore (grows_of_answers hanswer)) hprogram hholds)

/-- A message that was forwarded leads to what it says. -/
theorem wp_act (hstable : ∀ before after, holds before → before.Grows after → holds after)
    (routed : MqttService.Routed)
    (htold : ∀ before, holds before → Told config device before routed) (hholds : holds broker) :
    (among device).wp (Justified config device) (MqttService.act routed) (fun _ after ↦ holds after)
      broker := by
  have hreturn {value : Unit} {after : Broker ι Bytes Bytes Bytes} (hafter : holds after) :
      (among device).wp (Justified config device) (.ret value) (fun _ after ↦ holds after) after :=
    Setting.wp_ret_of_stable hstable hafter
  cases routed with
  | nothing => exact hreturn hholds
  | submit command =>
    refine wp_call hstable hholds (fun before hbefore ↦ ⟨?_, trivial⟩) fun _ _ ↦ hreturn
    rintro _ ⟨⟩
    exact htold before hbefore
  | otaManifest payload =>
    refine wp_call hstable hholds (fun before hbefore ↦ ⟨?_, trivial⟩) fun yields after hafter ↦ ?_
    · rintro _ ⟨⟩
      exact htold before hbefore
    · cases yields with
      | false => exact hreturn hafter
      | true =>
        refine wp_call hstable hafter (fun before hbefore ↦ ⟨nofun, payload, htold before hbefore⟩)
          fun _ _ ↦ hreturn
  | otaConfirm =>
    refine wp_call hstable hholds (fun before hbefore ↦ ⟨?_, trivial⟩) fun _ _ ↦ hreturn
    rintro _ ⟨⟩
    exact htold before hbefore

theorem wp_deliver (hsys : service.sys = config.sys device) (messages : List Message)
    (hstable : ∀ before after, holds before → before.Grows after → holds after)
    (hforwarded : ∀ message ∈ messages, ∀ before, holds before →
      (message.topic, message.payload) ∈ before.inbox device) (hholds : holds broker) :
    (among device).wp (Justified config device) (service.deliver messages)
      (fun _ after ↦ holds after) broker := by
  induction messages generalizing broker with
  | nil => exact Setting.wp_ret_of_stable hstable hholds
  | cons message rest ih =>
    refine Setting.wp_bind (Setting.wp_mono (fun _ after hafter ↦ ?_)
      (wp_act hstable _ (fun before hbefore ↦ ?_) hholds))
    · exact ih (fun other hother ↦ hforwarded other (List.mem_cons_of_mem _ hother)) hafter
    · exact ⟨_, hforwarded message List.mem_cons_self before hbefore, by rw [hsys]⟩

omit [DecidableEq ι] in
theorem asksOnly_publishState (htopics : service.topics = config.topics device)
    (pending : PendingState) (ts : UInt32) :
    (service.publishState pending ts).AsksOnly (Free config device) := by
  unfold MqttService.publishState
  dsimp only
  split_ifs with hfits
  · refine ⟨fun _ ↦ ⟨nofun, .inr ⟨pending.ch, ?_⟩⟩, fun _ ↦ trivial⟩
    rw [← htopics]
    exact MqttTopics.fst_evtRelayState hfits.1
  · trivial

omit [DecidableEq ι] in
theorem asksOnly_drainPublishes (htopics : service.topics = config.topics device) (ts : UInt32)
    (budget : ℕ) : (service.drainPublishes ts budget).AsksOnly (Free config device) := by
  induction budget with
  | zero => trivial
  | succ budget ih =>
    refine Prog.asksOnly_ask_bind.mpr ⟨fun _ ↦ ⟨nofun, trivial⟩, fun pending ↦ ?_⟩
    cases pending with
    | none => trivial
    | some pending => exact Prog.asksOnly_bind (asksOnly_publishState htopics pending ts) fun _ ↦ ih

omit [DecidableEq ι] in
/-- The topic of the presence fits its buffer. -/
theorem fst_evtOnline (haddressed : (config.topics device).Addressed)
    (htopics : service.topics = config.topics device) :
    (service.topics.evtOnline kMaxTopicLen).1 = presenceTopic (config.topics device) := by
  rw [htopics]
  exact MqttTopics.fst_fmt (haddressed.fits (by decide) _ le_rfl)

omit [DecidableEq ι] in
theorem asksOnly_onConnected (haddressed : (config.topics device).Addressed)
    (htopics : service.topics = config.topics device) :
    service.onConnected.AsksOnly (Free config device) := by
  have hfilter : (service.topics.cmdWildcard kMaxTopicLen).1 =
      MqttService.commandFilter (config.topics device) := by
    rw [htopics]
    exact MqttTopics.fst_fmt (haddressed.fits (by decide) _ le_rfl)
  refine Prog.asksOnly_ask_bind.mpr ⟨fun _ ↦ ⟨nofun, .inl ⟨true, ?_⟩⟩, fun _ ↦
    Prog.asksOnly_ask_bind.mpr ⟨fun _ ↦ ⟨nofun, hfilter⟩, fun _ ↦ trivial⟩⟩
  rw [fst_evtOnline haddressed htopics]
  rfl

theorem wp_serve (hconfigured : Configured config device service) (ts : UInt32) :
    (among device).wp (Justified config device) (service.serve ts)
      (fun service' _ ↦ Configured config device service') broker := by
  have htrue : ∀ before after : Broker ι Bytes Bytes Bytes, True → before.Grows after → True :=
    fun _ _ _ _ ↦ trivial
  unfold MqttService.serve
  simp only [Prog.ask_bind]
  refine Setting.wp_call_of_stable htrue trivial (fun _ _ ↦ ⟨nofun, trivial⟩) ?_
  rintro before messages after - ⟨hmessages, rfl⟩
  have hstable : ∀ before after : Broker ι Bytes Bytes Bytes,
      (∀ message ∈ messages, (message.topic, message.payload) ∈ before.inbox device) →
        before.Grows after →
          ∀ message ∈ messages, (message.topic, message.payload) ∈ after.inbox device :=
    fun _ _ hbefore hgrows message hmessage ↦
      (hgrows.inbox device).subset (hbefore message hmessage)
  refine Setting.wp_bind (Setting.wp_mono (fun _ _ _ ↦ ?_) (wp_deliver hconfigured.2 messages
    hstable (fun message hmessage _ hbefore ↦ hbefore message hmessage) hmessages))
  refine Setting.wp_bind (Setting.wp_mono (fun _ _ _ ↦ ?_)
    (wp_of_free htrue (asksOnly_drainPublishes hconfigured.1 ts _) trivial))
  exact Setting.wp_ret_of_stable (fun _ _ hkept _ ↦ hkept) hconfigured

theorem wp_attemptConnect (haddressed : (config.topics device).Addressed)
    (hconfigured : Configured config device service) (now : Millis) (seed : UInt32) :
    (among device).wp (Justified config device) (service.attemptConnect now seed)
      (fun service' _ ↦ Configured config device service') broker := by
  have htrue : ∀ before after : Broker ι Bytes Bytes Bytes, True → before.Grows after → True :=
    fun _ _ _ _ ↦ trivial
  have hwill : PubSubMqttClient.will service.connectParams =
      presence (config.topics device) false := by
    unfold PubSubMqttClient.will presence
    rw [← fst_evtOnline haddressed hconfigured.1]
    exact congrArg (Item.mk _ · _) PubSubMqttClient.willText_offline
  unfold MqttService.attemptConnect
  simp only [Prog.ask_bind]
  refine wp_call htrue trivial (fun _ _ ↦ ⟨nofun, hwill⟩) fun connected after _ ↦ ?_
  cases connected with
  | false => exact Setting.wp_ret_of_stable (fun _ _ hkept _ ↦ hkept) hconfigured
  | true =>
    refine Setting.wp_bind (Setting.wp_mono (fun _ _ _ ↦ ?_)
      (wp_of_free htrue (asksOnly_onConnected haddressed hconfigured.1) trivial))
    exact Setting.wp_ret_of_stable (fun _ _ hkept _ ↦ hkept) hconfigured

theorem wp_tick (haddressed : (config.topics device).Addressed)
    (hconfigured : Configured config device service) (tick : MqttService.Tick) :
    (among device).wp (Justified config device) (MqttService.component.handle service tick)
      (fun service' _ ↦ Configured config device service') broker := by
  change (among device).wp _ (service.tick tick.now tick.jitterSeed tick.tsForPublish) _ _
  unfold MqttService.tick
  simp only [Prog.ask_bind]
  refine wp_call (fun _ _ _ _ ↦ trivial) trivial (fun _ _ ↦ ⟨nofun, trivial⟩) fun connected _ _ ↦ ?_
  split_ifs
  · exact wp_serve hconfigured _
  · exact wp_attemptConnect haddressed hconfigured _ _
  · exact Setting.wp_ret_of_stable (fun _ _ hkept _ ↦ hkept) hconfigured

end Device

/-! ### The whole fleet -/

section Whole

variable {config : FleetConfig ι} {fleet fleet' : Fleet ι}

/-- A session that was left, or whose farewell is on its way, was told to yield to a manifest. -/
def Excused (config : FleetConfig ι) (device : ι) (broker : Broker ι Bytes Bytes Bytes) : Prop :=
  (broker.link device = .left ∨
      ∃ session, broker.link device = .opened session ∧ Packet.farewell ∈ session.uplink) →
    ∃ payload, Told config device broker (.otaManifest payload)

/-- What the broker's state has to do with the promises of the devices. -/
structure BrokerOk (config : FleetConfig ι) (broker : Broker ι Bytes Bytes Bytes) : Prop where
  sound : broker.Sound topicCovered (Asks config) (Tells config)
  vouched : ∀ device, broker.Vouched device (presence (config.topics device) false)
  excused : ∀ device, Excused config device broker

section Broker

variable {broker broker' : Broker ι Bytes Bytes Bytes} {device other : ι}

omit [DecidableEq ι] in
theorem Excused.of_link (hexcused : Excused config device broker) (hgrows : broker.Grows broker')
    (hlink : broker'.link device = broker.link device) : Excused config device broker' := by
  unfold Excused
  rw [hlink]
  intro hgone
  obtain ⟨payload, htold⟩ := hexcused hgone
  exact ⟨payload, htold.of_grows hgrows⟩

theorem BrokerOk.post (hok : BrokerOk config broker) (item : Item Bytes Bytes) :
    BrokerOk config (broker.post topicCovered none item) where
  sound := hok.sound.post nofun
  vouched device := (hok.vouched device).post_of_ne (Option.some_ne_none device).symm item
  excused device := (hok.excused device).of_link (Broker.grows_post _ _ _) rfl

theorem BrokerOk.lose (hok : BrokerOk config broker) (device : ι) :
    BrokerOk config (broker.lose topicCovered device) where
  sound := hok.sound.lose device
  vouched other := (hok.vouched other).lose rfl device
  excused other := by
    by_cases hother : other = device
    · subst hother
      rintro (hleft | ⟨session, hopened, -⟩)
      · obtain ⟨payload, htold⟩ := hok.excused other (.inl (Broker.link_lose_eq_left hleft))
        exact ⟨payload, htold.of_grows (Broker.grows_lose _ _)⟩
      · exact absurd hopened (Broker.link_lose_ne_opened session)
    · exact (hok.excused other).of_link (Broker.grows_lose _ _) (Broker.link_lose_of_ne hother)

theorem BrokerOk.arrive (hok : BrokerOk config broker) (device : ι) :
    BrokerOk config (broker.arrive topicCovered device) where
  sound := hok.sound.arrive device
  vouched other := (hok.vouched other).arrive device
  excused other := by
    have hgrows : broker.Grows (broker.arrive topicCovered device) := Broker.grows_arrive _ _
    by_cases hother : other = device
    · subst hother
      obtain hsame | ⟨session, packet, rest, hopened, hpackets, hafter⟩ :=
        @Broker.link_arrive_self _ _ _ _ _ _ topicCovered broker other
      · exact (hok.excused other).of_link hgrows hsame
      · -- What is excused afterwards was on its way before.
        intro hgone
        have hfarewell : Packet.farewell ∈ session.uplink := by
          rw [hpackets]
          obtain ⟨hleft, rfl⟩ | ⟨later, hlater, hrest⟩ := hafter
          · exact List.mem_cons_self
          · obtain hleft | ⟨last, hlast, hmem⟩ := hgone
            · rw [hlater] at hleft
              cases hleft
            · rw [hlater] at hlast
              obtain rfl := Link.opened.inj hlast
              exact List.mem_cons_of_mem _ (hrest ▸ hmem)
        obtain ⟨payload, htold⟩ := hok.excused other (.inr ⟨session, hopened, hfarewell⟩)
        exact ⟨payload, htold.of_grows hgrows⟩
    · exact (hok.excused other).of_link hgrows (Broker.link_arrive_of_ne hother)

theorem BrokerOk.connect (hok : BrokerOk config broker) {will : Item Bytes Bytes}
    (hwill : will = presence (config.topics device) false) :
    BrokerOk config (broker.connect topicCovered device will) where
  sound := hok.sound.connect (.inl ⟨false, hwill⟩)
  vouched other := (hok.vouched other).connect rfl fun hsame ↦ by rw [hwill, hsame]
  excused other := by
    by_cases hother : other = device
    · subst hother
      have hopened : (broker.connect topicCovered other will).link other =
          .opened { will := will } := Function.update_self _ _ _
      rintro (hleft | ⟨session, hsession, hmem⟩)
      · rw [hopened] at hleft
        cases hleft
      · rw [hopened] at hsession
        obtain rfl := Link.opened.inj hsession
        exact absurd hmem List.not_mem_nil
    · exact (hok.excused other).of_link (Broker.grows_connect _ _ _)
        (Broker.link_connect_of_ne hother will)

theorem BrokerOk.send (hok : BrokerOk config broker) {packet : Packet Bytes Bytes Bytes}
    (hallowed : packet.Allowed (Asks config device) (Tells config device))
    (hfarewell : packet = .farewell → ∃ payload, Told config device broker (.otaManifest payload)) :
    BrokerOk config (broker.send device packet) where
  sound := hok.sound.send hallowed
  vouched other := (hok.vouched other).send device packet
  excused other := by
    have hgrows : broker.Grows (broker.send device packet) := Broker.grows_send _ _ _
    by_cases hother : other = device
    · subst hother
      obtain ⟨session, hopened, hafter⟩ | hsame :=
        @Broker.link_send_self _ _ _ _ _ broker other packet
      · rintro (hleft | ⟨later, hlater, hmem⟩)
        · rw [hafter] at hleft
          cases hleft
        · rw [hafter] at hlater
          obtain rfl := Link.opened.inj hlater
          have htold : ∃ payload, Told config other broker (.otaManifest payload) := by
            obtain hold | hnew := List.mem_append.mp hmem
            · exact hok.excused other (.inr ⟨session, hopened, hold⟩)
            · exact hfarewell (List.mem_singleton.mp hnew).symm
          obtain ⟨payload, htold⟩ := htold
          exact ⟨payload, htold.of_grows hgrows⟩
      · rw [hsame]
        exact hok.excused other
    · exact (hok.excused other).of_link hgrows (Broker.link_send_of_ne hother packet)

/-- A justified call of a device, however it is answered. -/
theorem BrokerOk.answer (hok : BrokerOk config broker) {request : MqttCall}
    {reply : MqttAns request} (hjustified : Justified config device broker request)
    (hanswer : answers device broker request reply broker') : BrokerOk config broker' := by
  cases request with
  | connect params =>
    obtain rfl | ⟨-, rfl⟩ := hanswer
    · exact hok.connect hjustified.2
    · exact hok
  | publish topic payload retain =>
    obtain rfl | rfl := hanswer
    · exact hok.send hjustified.2 nofun
    · exact hok
  | subscribe filter qos =>
    obtain rfl | rfl := hanswer
    · exact hok.send hjustified.2 nofun
    · exact hok
  | disconnect =>
    obtain rfl | rfl := hanswer
    · exact hok.send trivial fun _ ↦ hjustified.2
    · exact hok
  | loop =>
    obtain ⟨-, rfl⟩ := hanswer
    exact hok
  | _ =>
    obtain rfl := hanswer
    exact hok

end Broker

/-- The invariant of the fleet. -/
structure Consistent (config : FleetConfig ι) (fleet : Fleet ι) : Prop where
  brokerOk : BrokerOk config fleet.broker
  maintains : ∀ device, Component.Maintains (among device) (Justified config device)
    (fun service _ ↦ Configured config device service) (fleet.phase device, fleet.broker)

theorem consistent_initial (hinitial : Initial config fleet) : Consistent config fleet where
  brokerOk := by
    rw [hinitial.1]
    exact ⟨Broker.sound_initial, fun device ↦ Broker.vouched_initial device _, fun _ hgone ↦
      hgone.elim nofun fun hopened ↦ nomatch hopened.choose_spec.1⟩
  maintains device := by
    obtain ⟨service, hconfigured, hphase⟩ := hinitial.2 device
    rw [hphase]
    exact hconfigured

/-- What the others do is no more than a device is prepared for. -/
theorem maintains_of_grows {device : ι} {broker broker' : Broker ι Bytes Bytes Bytes}
    {phase : Component.Phase MqttCall MqttAns MqttService MqttService.Tick}
    (hmaintains : Component.Maintains (among device) (Justified config device)
      (fun service _ ↦ Configured config device service) (phase, broker))
    (hgrows : broker.Grows broker') : Component.Maintains (among device) (Justified config device)
      (fun service _ ↦ Configured config device service) (phase, broker') := by
  cases phase with
  | idle service => exact hmaintains
  | busy operation program => exact Setting.wp_of_interferes (.single hgrows) hmaintains

/-- One device moves, and the broker with it. -/
theorem Consistent.move (hconsistent : Consistent config fleet) {device : ι}
    {phase : Component.Phase MqttCall MqttAns MqttService MqttService.Tick}
    {broker : Broker ι Bytes Bytes Bytes} (hbroker : BrokerOk config broker)
    (hgrows : fleet.broker.Grows broker)
    (hphase : Component.Maintains (among device) (Justified config device)
      (fun service _ ↦ Configured config device service) (phase, broker)) :
    Consistent config ⟨broker, Function.update fleet.phase device phase⟩ where
  brokerOk := hbroker
  maintains other := by
    simp only
    by_cases hother : other = device
    · subst hother
      rw [Function.update_self]
      exact hphase
    · rw [Function.update_of_ne hother]
      exact maintains_of_grows (hconsistent.maintains other) hgrows

theorem Consistent.step (haddressed : ∀ device, (config.topics device).Addressed)
    (hconsistent : Consistent config fleet) (hstep : Step config fleet fleet') :
    Consistent config fleet' := by
  cases hstep with
  | device device hstep =>
    have hmaintains := hconsistent.maintains device
    generalize hphase : fleet.phase device = before at hstep hmaintains
    cases hstep with
    | start hstart =>
      obtain rfl := hstart
      exact hconsistent.move hconsistent.brokerOk (.refl _)
        (wp_tick (haddressed device) hmaintains _)
    | answer hanswer =>
      exact hconsistent.move
        (hconsistent.brokerOk.answer (Setting.wp_guard hmaintains) hanswer)
        (grows_of_answers hanswer) (Setting.wp_step (.answer hanswer) hmaintains)
    | interfere hinterfere => exact hinterfere.elim
    | finish =>
      exact hconsistent.move hconsistent.brokerOk (.refl _) (hmaintains _ .refl)
  | restart device hservice => exact hconsistent.move hconsistent.brokerOk (.refl _) hservice
  | arrive device =>
    exact ⟨hconsistent.brokerOk.arrive device, fun other ↦
      maintains_of_grows (hconsistent.maintains other) (Broker.grows_arrive _ _)⟩
  | lose device =>
    exact ⟨hconsistent.brokerOk.lose device, fun other ↦
      maintains_of_grows (hconsistent.maintains other) (Broker.grows_lose _ _)⟩
  | outside item =>
    exact ⟨hconsistent.brokerOk.post item, fun other ↦
      maintains_of_grows (hconsistent.maintains other) (Broker.grows_post _ _ _)⟩

theorem Reachable.consistent (haddressed : ∀ device, (config.topics device).Addressed)
    (hreachable : Reachable config fleet) : Consistent config fleet := by
  obtain ⟨initial, hinitial, hsteps⟩ := hreachable
  induction hsteps with
  | refl => exact consistent_initial hinitial
  | tail _ hstep ih => exact ih.step haddressed hstep

/-! ### Who is heard by whom -/

omit [DecidableEq ι] in
/-- What a device publishes is on one of its own topics, below `evt`. -/
theorem Tells.topic_eq {device : ι} {item : Item Bytes Bytes} (htells : Tells config device item) :
    ∃ suffix, item.topic = (config.topics device).full suffix ∧ ascii "evt" <+: suffix := by
  obtain ⟨isOnline, rfl⟩ | ⟨channel, htopic⟩ := htells
  · exact ⟨_, rfl, by decide⟩
  · refine ⟨_, htopic, ?_⟩
    rw [List.append_assoc]
    exact (by decide : ascii "evt" <+: ascii "evt/relay/").trans (List.prefix_append _ _)

omit [DecidableEq ι] in
/-- What a device publishes is no command, for any device. -/
theorem Tells.not_covered (haddressed : ∀ device, (config.topics device).Addressed) {device : ι}
    {item : Item Bytes Bytes} (htells : Tells config device item) (other : ι) :
    topicCovered (MqttService.commandFilter (config.topics other)) item.topic = false := by
  obtain ⟨suffix, htopic, hevt⟩ := htells.topic_eq
  by_contra hcovered
  rw [Bool.not_eq_false] at hcovered
  obtain ⟨rest, hrest, hfull⟩ := ((haddressed other).covered_iff _).mp hcovered
  rw [htopic] at hfull
  obtain ⟨-, rfl⟩ :=
    MqttTopics.full_eq_full (haddressed device).toLevels (haddressed other).toLevels hfull
  exact hrest.not_prefix (by decide) (by decide) hevt

/-- Among the devices, only the owner publishes on a topic. -/
theorem Consistent.sender_of_topic (hconsistent : Consistent config fleet)
    (haddressed : ∀ device, (config.topics device).Addressed)
    (hdistinct : Function.Injective config.topics) {post : Post ι Bytes Bytes}
    (hpost : post ∈ fleet.broker.posts) {device : ι} {suffix : Bytes}
    (htopic : post.item.topic = (config.topics device).full suffix) :
    post.sender = none ∨ post.sender = some device := by
  cases hsender : post.sender with
  | none => exact .inl rfl
  | some other =>
    obtain ⟨suffix', htopic', -⟩ :=
      (hconsistent.brokerOk.sound.said post hpost other hsender).topic_eq
    have hsame := (MqttTopics.full_eq_full (haddressed other).toLevels (haddressed device).toLevels
      (htopic'.symm.trans htopic)).1
    rw [hdistinct hsame]
    exact .inr rfl

/-- A message that a device acts on was published below its own `cmd` by a client that is no
device. -/
theorem Consistent.post_of_told (hconsistent : Consistent config fleet)
    (haddressed : ∀ device, (config.topics device).Addressed) {device : ι}
    {routed : MqttService.Routed} (htold : Told config device fleet.broker routed) :
    ∃ post ∈ fleet.broker.posts, post.sender = none ∧
      MqttService.onMessage (config.sys device) post.item.topic post.item.payload = routed ∧
      ∃ rest, MqttTopics.UnderCmd rest ∧ post.item.topic = (config.topics device).full rest := by
  obtain ⟨message, hmem, hrouted⟩ := htold
  obtain ⟨⟨post, hpost, htopic, hpayload⟩, filter, hasks, hcovers⟩ :=
    hconsistent.brokerOk.sound.forwarded device message hmem
  rw [hasks, ← htopic] at hcovers
  refine ⟨post, hpost, ?_, ?_, ((haddressed device).covered_iff _).mp hcovers⟩
  · cases hsender : post.sender with
    | none => rfl
    | some other =>
      have htells := hconsistent.brokerOk.sound.said post hpost other hsender
      rw [htells.not_covered haddressed device] at hcovers
      cases hcovers
  · rw [htopic, hpayload]
    exact hrouted

/-- In every state that a fleet comes to, by steps of its devices, its network, its broker and other
clients in any order, where the names of the devices are plain levels and differ: (a) a device that
is about to act on a message acts on what a client that is no device published below the device's
own `cmd`, where no other device listens; (b) no device listens to what any device publishes; (c) on
the topic of a relay only its own device publishes, among the devices. -/
theorem command_comes_from_outside (haddressed : ∀ device, (config.topics device).Addressed)
    (hdistinct : Function.Injective config.topics) (hreachable : Reachable config fleet) :
    (∀ device tick request resume routed, fleet.phase device = .busy tick (.call request resume) →
      actionOf request = some routed →
        ∃ post ∈ fleet.broker.posts, post.sender = none ∧
          MqttService.onMessage (config.sys device) post.item.topic post.item.payload = routed ∧
          (∃ rest, MqttTopics.UnderCmd rest ∧
            post.item.topic = (config.topics device).full rest) ∧
          ∀ other ≠ device, topicCovered (MqttService.commandFilter (config.topics other))
            post.item.topic = false) ∧
      (∀ post ∈ fleet.broker.posts, ∀ device, post.sender = some device →
        ∀ other, topicCovered (MqttService.commandFilter (config.topics other))
          post.item.topic = false) ∧
      ∀ device channel, ∀ post ∈ fleet.broker.posts,
        post.item.topic = (config.topics device).relayTopic channel →
          post.sender = none ∨ post.sender = some device := by
  have hconsistent := hreachable.consistent haddressed
  refine ⟨fun device tick request resume routed hphase haction ↦ ?_,
    fun post hpost device hsender other ↦
      (hconsistent.brokerOk.sound.said post hpost device hsender).not_covered haddressed other,
    fun device channel post hpost htopic ↦ ?_⟩
  · have hmaintains := hconsistent.maintains device
    rw [hphase] at hmaintains
    obtain ⟨post, hpost, hsender, hrouted, rest, hrest, htopic⟩ :=
      hconsistent.post_of_told haddressed ((Setting.wp_guard hmaintains).1 routed haction)
    refine ⟨post, hpost, hsender, hrouted, ⟨rest, hrest, htopic⟩, fun other hother ↦ ?_⟩
    by_contra hcovered
    rw [Bool.not_eq_false] at hcovered
    obtain ⟨rest', -, hfull⟩ := ((haddressed other).covered_iff _).mp hcovered
    rw [htopic] at hfull
    exact hother (hdistinct (MqttTopics.full_eq_full (haddressed device).toLevels
      (haddressed other).toLevels hfull).1).symm
  · exact hconsistent.sender_of_topic haddressed hdistinct hpost htopic

/-- In every state that a fleet comes to, if nobody else publishes on the topic of a device's
presence: the broker shows the device online only if it has a session, or if it has left, and a
client that is no device has published a manifest for it; and a device whose session was lost is
shown offline. -/
theorem presence_honest (haddressed : ∀ device, (config.topics device).Addressed)
    (hdistinct : Function.Injective config.topics) (hreachable : Reachable config fleet)
    (device : ι) (halone : ∀ post ∈ fleet.broker.posts,
      post.item.topic = presenceTopic (config.topics device) → post.sender ≠ none) :
    (retained fleet.broker.posts (presenceTopic (config.topics device)) =
        some (MqttPayload.online 32 true) →
      (∃ session, fleet.broker.link device = .opened session) ∨
        fleet.broker.link device = .left ∧ ∃ post ∈ fleet.broker.posts, post.sender = none ∧
          (∃ payload, MqttService.onMessage (config.sys device) post.item.topic post.item.payload =
            .otaManifest payload) ∧
          ∃ rest, MqttTopics.UnderCmd rest ∧ post.item.topic = (config.topics device).full rest) ∧
      (fleet.broker.link device = .lost →
        retained fleet.broker.posts (presenceTopic (config.topics device)) =
          some (MqttPayload.online 32 false)) := by
  have hconsistent := hreachable.consistent haddressed
  have hown : retained (fleet.broker.own device) (presenceTopic (config.topics device)) =
      retained fleet.broker.posts (presenceTopic (config.topics device)) :=
    Broker.retained_own fun post hpost htopic ↦
      (hconsistent.sender_of_topic haddressed hdistinct hpost htopic).resolve_left
        (halone post hpost htopic)
  have hvouched := hconsistent.brokerOk.vouched device
  rw [← hown]
  refine ⟨fun honline ↦ ?_, hvouched.lost⟩
  cases hlink : fleet.broker.link device with
  | never =>
    rw [hvouched.never hlink] at honline
    cases honline
  | opened session => exact .inl ⟨session, rfl⟩
  | left =>
    obtain ⟨payload, htold⟩ := hconsistent.brokerOk.excused device (.inl hlink)
    obtain ⟨post, hpost, hsender, hrouted, hrest⟩ := hconsistent.post_of_told haddressed htold
    exact .inr ⟨rfl, post, hpost, hsender, ⟨payload, hrouted⟩, hrest⟩
  | lost =>
    have hoffline : some (MqttPayload.online 32 false) = some (MqttPayload.online 32 true) :=
      (hvouched.lost hlink).symm.trans honline
    exact absurd hoffline (by decide)

end Whole

/-! ### Two devices -/

/-- What a device does on its own is done in the fleet. -/
theorem steps_device {config : FleetConfig ι} {fleet : Fleet ι} (device : ι)
    {after : Component.Phase MqttCall MqttAns MqttService MqttService.Tick ×
      Broker ι Bytes Bytes Bytes}
    (hsteps : MqttService.component.Steps (alone device) starts (fleet.phase device, fleet.broker)
      after) :
    ReflTransGen (Step config) fleet ⟨after.2, Function.update fleet.phase device after.1⟩ := by
  induction hsteps with
  | refl =>
    rw [Function.update_eq_self]
  | @tail middle last _ hstep ih =>
    have hmoved : MqttService.component.Step (alone device) starts
        (Function.update fleet.phase device middle.1 device, middle.2) last := by
      rw [Function.update_self]
      exact hstep
    have hnext := @Step.device _ _ config ⟨middle.2, Function.update fleet.phase device middle.1⟩
      device _ _ hmoved
    rw [Function.update_idem] at hnext
    exact ih.tail hnext

/-- Two devices below one root. -/
def pairConfig : FleetConfig Bool where
  topics second := ⟨ascii "sw", if second then ascii "b" else ascii "a"⟩
  sys _ := true

theorem addressed_pairConfig (device : Bool) : (pairConfig.topics device).Addressed := by
  cases device with
  | _ =>
    exact { root_level := by decide, id_level := by decide, root_plain := by decide
            id_plain := by decide, short := by decide }

theorem injective_pairConfig : Function.Injective pairConfig.topics := by
  intro first second heq
  have hid := congrArg MqttTopics.id heq
  revert hid
  cases first <;> cases second <;> decide

/-- A client that does what it is asked, and stops before a command. -/
def obliging (device : Bool) (broker : Broker Bool Bytes Bytes Bytes) :
    (request : MqttCall) → Option (MqttAns request × Broker Bool Bytes Bytes Bytes)
  | .connected =>
    match broker.link device with
    | .opened _ => some (true, broker)
    | _ => some (false, broker)
  | .connect params =>
    some (true, broker.connect topicCovered device (PubSubMqttClient.will params))
  | .publish topic payload retain =>
    some (true, broker.send device (.publish ⟨topic, payload, retain⟩))
  | .subscribe filter _ => some (true, broker.send device (.subscribe filter))
  | .loop => some ((broker.inbox device).map fun message ↦ ⟨message.1, message.2⟩, broker)
  | .disconnect => some ((), broker.send device .farewell)
  | .pop => some (none, broker)
  | .submit _ => none
  | .onOtaManifest _ => some (false, broker)
  | .onOtaConfirm => some ((), broker)

theorem answers_obliging (device : Bool) (broker : Broker Bool Bytes Bytes Bytes)
    (request : MqttCall) (reply : MqttAns request × Broker Bool Bytes Bytes Bytes)
    (hreply : obliging device broker request = some reply) :
    (alone device).answers broker request reply.1 reply.2 := by
  cases request with
  | connected =>
    have hsame : reply.2 = broker := by
      unfold obliging at hreply
      cases hlink : broker.link device with
      | _ =>
        simp only [hlink] at hreply
        exact (congrArg Prod.snd (Option.some.inj hreply)).symm
    exact hsame
  | loop =>
    obtain rfl := Option.some.inj hreply
    refine ⟨fun message hmessage ↦ ?_, rfl⟩
    obtain ⟨forwarded, hforwarded, rfl⟩ := List.mem_map.mp hmessage
    exact hforwarded
  | connect params =>
    obtain rfl := Option.some.inj hreply
    exact .inl rfl
  | submit command => cases hreply
  | publish topic payload retain =>
    obtain rfl := Option.some.inj hreply
    exact .inl rfl
  | subscribe filter qos =>
    obtain rfl := Option.some.inj hreply
    exact .inl rfl
  | disconnect =>
    obtain rfl := Option.some.inj hreply
    exact .inl rfl
  | _ =>
    obtain rfl := Option.some.inj hreply
    exact rfl

/-- The service of a device after its start. -/
def pairService (second : Bool) : MqttService :=
  { topics := pairConfig.topics second, clientId := ascii "dev", sys := true }

def bootTick : MqttService.Tick := ⟨0, 0, 0⟩

/-- The first device connects. -/
def firstTick : Option (MqttService × Broker Bool Bytes Bytes Bytes) :=
  (MqttService.component.handle (pairService false) bootTick).tryRunOn (obliging false) {}

theorem isSome_firstTick : firstTick.isSome = true := by rfl

/-- The fleet when the announcement and the subscription of the first device have arrived. -/
def listening : Fleet Bool where
  broker := ((firstTick.get isSome_firstTick).2.arrive topicCovered false).arrive topicCovered false
  phase := Function.update (fun second ↦ .idle (pairService second)) false
    (.idle (firstTick.get isSome_firstTick).1)

theorem reachable_listening : Reachable pairConfig listening := by
  refine ⟨⟨{}, fun second ↦ .idle (pairService second)⟩,
    ⟨rfl, fun second ↦ ⟨pairService second, ⟨rfl, rfl⟩, rfl⟩⟩, ?_⟩
  have hstart : MqttService.component.Step (alone false) starts (.idle (pairService false), {})
      (.busy bootTick (MqttService.component.handle (pairService false) bootTick), {}) := .start rfl
  have hconnects : MqttService.component.Steps (alone false) starts
      (.busy bootTick (MqttService.component.handle (pairService false) bootTick), {})
      (.idle (firstTick.get isSome_firstTick).1, (firstTick.get isSome_firstTick).2) :=
    Component.steps_tryRunOn (answers_obliging false) bootTick
      (Option.some_get isSome_firstTick).symm
  have hdevice := @steps_device _ _ pairConfig ⟨{}, fun second ↦ .idle (pairService second)⟩ false _
    (.head hstart hconnects)
  exact (hdevice.tail (.arrive false)).tail (.arrive false)

/-- A command of someone outside. -/
def outsideCommand : Item Bytes Bytes :=
  ⟨ascii "sw/a/cmd/relay/1/set", ascii "\x7b\"on\":true\x7d", false⟩

/-- The second tick of the first device, up to the command. -/
def secondTick : Prog MqttCall MqttAns MqttService × Broker Bool Bytes Bytes Bytes :=
  (MqttService.component.handle (firstTick.get isSome_firstTick).1 bootTick).runUntil
    (obliging false) (listening.broker.post topicCovered none outsideCommand)

theorem pending_secondTick : secondTick.1.pending =
    some (.submit (MqttService.channelCommand 1 true)) := by rfl

/-- The fleet with the command pending. -/
def commanded : Fleet Bool :=
  ⟨secondTick.2, Function.update listening.phase false (.busy bootTick secondTick.1)⟩

theorem reachable_commanded : Reachable pairConfig commanded := by
  obtain ⟨initial, hinitial, hsteps⟩ := reachable_listening
  have hstart : MqttService.component.Step (alone false) starts
      (.idle (firstTick.get isSome_firstTick).1,
        listening.broker.post topicCovered none outsideCommand)
      (.busy bootTick
        (MqttService.component.handle (firstTick.get isSome_firstTick).1 bootTick),
        listening.broker.post topicCovered none outsideCommand) := .start rfl
  have hserves := @Component.steps_runUntil _ _ _ _ _ MqttService.component (alone false) starts _
    id (obliging false) (answers_obliging false) bootTick
    (MqttService.component.handle (firstTick.get isSome_firstTick).1 bootTick)
    (listening.broker.post topicCovered none outsideCommand)
  have hdevice := @steps_device _ _ pairConfig
    ⟨listening.broker.post topicCovered none outsideCommand, listening.phase⟩ false _
    (.head hstart hserves)
  exact ⟨initial, hinitial, (hsteps.tail (.outside outsideCommand)).trans hdevice⟩

/-- The command that is pending was published outside. -/
theorem command_comes_from_outside_pair : ∃ post ∈ commanded.broker.posts, post.sender = none ∧
    MqttService.onMessage true post.item.topic post.item.payload =
      .submit (MqttService.channelCommand 1 true) ∧
    (∃ rest, MqttTopics.UnderCmd rest ∧ post.item.topic = (pairConfig.topics false).full rest) ∧
    ∀ other ≠ false, topicCovered (MqttService.commandFilter (pairConfig.topics other))
      post.item.topic = false := by
  obtain ⟨resume, hresume⟩ := Prog.exists_of_pending pending_secondTick
  have hphase : commanded.phase false =
      .busy bootTick (.call (.submit (MqttService.channelCommand 1 true)) resume) := by
    rw [← hresume]
    change Function.update listening.phase false (.busy bootTick secondTick.1) false = _
    rw [Function.update_self]
  have hsafe := command_comes_from_outside addressed_pairConfig injective_pairConfig
    reachable_commanded
  exact hsafe.1 false _ _ _ _ hphase rfl

/-- The fleet when the session of the first device was lost. -/
def forsaken : Fleet Bool := ⟨listening.broker.lose topicCovered false, listening.phase⟩

theorem sender_forsaken : ∀ post ∈ forsaken.broker.posts, post.sender.isSome = true :=
  List.all_eq_true.mp rfl

/-- The will of the first device is what the broker retains. -/
theorem presence_honest_pair :
    retained forsaken.broker.posts (presenceTopic (pairConfig.topics false)) =
      some (MqttPayload.online 32 false) := by
  obtain ⟨initial, hinitial, hsteps⟩ := reachable_listening
  have hreachable : Reachable pairConfig forsaken := ⟨initial, hinitial, hsteps.tail (.lose false)⟩
  refine (presence_honest addressed_pairConfig injective_pairConfig hreachable false
    fun post hpost _ hnone ↦ ?_).2 rfl
  have hsome := sender_forsaken post hpost
  rw [hnone] at hsome
  cases hsome

end Fleet

end LibreSwitch.Net
