import Mathlib.Tactic

/-!
# Publishing through a broker

Clients publish through a broker, which forwards what was published to the clients that asked for
it. A client that is connected has a session: the filters it subscribed to, the packets that are on
their way from it, in their order, and a will, which the broker publishes if the session ends
without a farewell. What the broker forwarded to a client is kept in its `inbox`, for good, since it
may reach the client later, more than once and in another order.

Which filter covers which topic is a parameter (`covers`), and `FilterLevel` is the usual choice for
topics that consist of levels. `Sound` is the invariant that the clients' own promises give: if each
of them subscribes only to what it may ask for and publishes only what it may say, then everything
in an inbox was published by someone and asked for by its client, and everything published under a
client's name is what it may say. `Vouched` tells what a will is for.
-/

set_option autoImplicit false
set_option relaxedAutoImplicit false

namespace LibreSwitch.Library

/-! ### Filters over levels -/

/-- A level of a filter: a name, one level of any name, or any levels, also none. -/
inductive FilterLevel (α : Type)
  | level (name : α)
  | any
  | rest
  deriving DecidableEq

namespace FilterLevel

variable {α : Type} [DecidableEq α]

/-- A filter covers a topic. -/
def covers : List (FilterLevel α) → List α → Bool
  | [.rest], _ => true
  | [], [] => true
  | .level name :: filter, found :: levels => name = found && covers filter levels
  | .any :: filter, _ :: levels => covers filter levels
  | _, _ => false

/-- The filter for everything below some levels covers what starts with them. -/
theorem covers_below {stem topic : List α} :
    covers (stem.map .level ++ [.rest]) topic = true ↔ stem <+: topic := by
  induction stem generalizing topic with
  | nil => exact iff_of_true (by rfl) List.nil_prefix
  | cons name stem ih =>
    cases topic with
    | nil => simp [covers]
    | cons found topic =>
      rw [List.cons_prefix_cons, ← ih, List.map_cons, List.cons_append, covers, Bool.and_eq_true,
        decide_eq_true_eq]

end FilterLevel

/-! ### The broker -/

/-- What can be published. A retained item is handed to later subscribers. -/
structure Item (T P : Type) where
  topic : T
  payload : P
  retain : Bool

/-- A published item; the sender is none for clients that are not looked at. -/
structure Post (C T P : Type) where
  sender : Option C
  item : Item T P

/-- What a client sends in a session. -/
inductive Packet (T F P : Type)
  | publish (item : Item T P)
  | subscribe (filter : F)
  | farewell

/-- A session at the broker. -/
structure Session (T F P : Type) where
  will : Item T P
  filters : List F := []
  uplink : List (Packet T F P) := []

/-- A packet within what its client may ask for and say. -/
def Packet.Allowed {T F P : Type} (asks : F → Prop) (tells : Item T P → Prop) :
    Packet T F P → Prop
  | .publish item => tells item
  | .subscribe filter => asks filter
  | .farewell => True

/-- A session within what its client may ask for and say. -/
structure Session.Allowed {T F P : Type} (asks : F → Prop) (tells : Item T P → Prop)
    (session : Session T F P) : Prop where
  will : tells session.will
  filters : ∀ filter ∈ session.filters, asks filter
  uplink : ∀ packet ∈ session.uplink, packet.Allowed asks tells

/-- The link of a client: it was never there, is there, has said farewell, or was lost. -/
inductive Link (T F P : Type)
  | never
  | opened (session : Session T F P)
  | left
  | lost

/-- The broker with what it forwarded. -/
structure Broker (C T F P : Type) where
  posts : List (Post C T P) := []
  link : C → Link T F P := fun _ ↦ .never
  inbox : C → List (T × P) := fun _ ↦ []

/-- The payload that is retained on a topic. -/
def retained {C T P : Type} [DecidableEq T] (posts : List (Post C T P)) (topic : T) : Option P :=
  ((posts.filter fun post ↦ post.item.topic = topic && post.item.retain).getLast?).map
    fun post ↦ post.item.payload

section Retained

variable {C T P : Type} [DecidableEq T] {posts : List (Post C T P)} {post : Post C T P} {topic : T}

theorem retained_append_self (htopic : post.item.topic = topic)
    (hretain : post.item.retain = true) :
    retained (posts ++ [post]) topic = some post.item.payload := by
  simp [retained, htopic, hretain]

/-- What is retained was published. -/
theorem exists_of_retained {payload : P} (hretained : retained posts topic = some payload) :
    ∃ post ∈ posts, post.item.topic = topic ∧ post.item.payload = payload := by
  obtain ⟨post, hlast, rfl⟩ := Option.map_eq_some_iff.mp hretained
  obtain ⟨hmem, htopic⟩ := List.mem_filter.mp (List.mem_of_getLast? hlast)
  rw [Bool.and_eq_true, decide_eq_true_eq] at htopic
  exact ⟨post, hmem, htopic.1, rfl⟩

end Retained

namespace Broker

variable {C T F P : Type} [DecidableEq C] [DecidableEq T] (covers : F → T → Bool)

/-- An item is published, and forwarded to the sessions with a filter for it. -/
def post (broker : Broker C T F P) (sender : Option C) (item : Item T P) : Broker C T F P where
  posts := broker.posts ++ [⟨sender, item⟩]
  link := broker.link
  inbox client :=
    match broker.link client with
    | .opened session =>
      if session.filters.any (covers · item.topic) then
        broker.inbox client ++ [(item.topic, item.payload)]
      else broker.inbox client
    | _ => broker.inbox client

/-- The items retained on the topics that a filter covers. -/
def retainedFor (broker : Broker C T F P) (filter : F) : List (T × P) :=
  ((broker.posts.map fun post ↦ post.item.topic).dedup.filter (covers filter ·)).filterMap
    fun topic ↦ (retained broker.posts topic).map fun payload ↦ (topic, payload)

/-- A client's link as given. -/
def withLink (broker : Broker C T F P) (client : C) (link : Link T F P) : Broker C T F P :=
  { broker with link := Function.update broker.link client link }

/-- A session is lost: its will is published, and what is on its way is gone. -/
def lose (broker : Broker C T F P) (client : C) : Broker C T F P :=
  match broker.link client with
  | .opened session => (broker.post covers (some client) session.will).withLink client .lost
  | _ => broker

/-- A client connects with a clean session. An old session is lost by it. -/
def connect (broker : Broker C T F P) (client : C) (will : Item T P) : Broker C T F P :=
  (broker.lose covers client).withLink client (.opened { will := will })

/-- A client sends a packet. -/
def send (broker : Broker C T F P) (client : C) (packet : Packet T F P) : Broker C T F P :=
  match broker.link client with
  | .opened session =>
    broker.withLink client (.opened { session with uplink := session.uplink ++ [packet] })
  | _ => broker

/-- The first packet on its way from a client arrives. -/
def arrive (broker : Broker C T F P) (client : C) : Broker C T F P :=
  match broker.link client with
  | .opened session =>
    match session.uplink with
    | [] => broker
    | .publish item :: rest =>
      (broker.withLink client (.opened { session with uplink := rest })).post covers
        (some client) item
    | .subscribe filter :: rest =>
      { broker.withLink client (.opened
          { session with filters := session.filters ++ [filter], uplink := rest }) with
        inbox := Function.update broker.inbox client
          (broker.inbox client ++ broker.retainedFor covers filter) }
    | .farewell :: _ => broker.withLink client .left
  | _ => broker

/-! ### What stays -/

/-- Nothing that was published or forwarded is taken back. -/
structure Grows (before after : Broker C T F P) : Prop where
  posts : before.posts <+: after.posts
  inbox : ∀ client, before.inbox client <+: after.inbox client

section Grows

variable {covers : F → T → Bool} (broker : Broker C T F P) (client : C)

omit [DecidableEq C] [DecidableEq T] in
theorem Grows.refl : Grows broker broker := ⟨List.prefix_rfl, fun _ ↦ List.prefix_rfl⟩

omit [DecidableEq C] [DecidableEq T] in
theorem Grows.trans {first second third : Broker C T F P} (hfirst : Grows first second)
    (hsecond : Grows second third) : Grows first third :=
  ⟨hfirst.posts.trans hsecond.posts, fun client ↦
    (hfirst.inbox client).trans (hsecond.inbox client)⟩

omit [DecidableEq T] in
theorem grows_withLink (link : Link T F P) : Grows broker (broker.withLink client link) :=
  ⟨List.prefix_rfl, fun _ ↦ List.prefix_rfl⟩

omit [DecidableEq C] [DecidableEq T] in
theorem grows_post (sender : Option C) (item : Item T P) :
    Grows broker (broker.post covers sender item) := by
  refine ⟨List.prefix_append _ _, fun client ↦ ?_⟩
  unfold post
  simp only
  cases broker.link client with
  | opened session =>
    simp only
    split_ifs
    · exact List.prefix_append _ _
    · exact List.prefix_rfl
  | _ => exact List.prefix_rfl

omit [DecidableEq T] in
theorem grows_lose : Grows broker (broker.lose covers client) := by
  unfold lose
  cases broker.link client with
  | opened session => exact (grows_post broker _ _).trans (grows_withLink _ _ _)
  | _ => exact .refl broker

omit [DecidableEq T] in
theorem grows_connect (will : Item T P) : Grows broker (broker.connect covers client will) :=
  (grows_lose broker client).trans (grows_withLink _ _ _)

omit [DecidableEq T] in
theorem grows_send (packet : Packet T F P) : Grows broker (broker.send client packet) := by
  unfold send
  cases broker.link client with
  | opened session => exact grows_withLink _ _ _
  | _ => exact .refl broker

theorem grows_arrive : Grows broker (broker.arrive covers client) := by
  unfold arrive
  cases broker.link client with
  | opened session =>
    simp only
    cases session.uplink with
    | nil => exact .refl broker
    | cons packet rest =>
      cases packet with
      | publish item => exact (grows_withLink broker client _).trans (grows_post _ _ _)
      | subscribe filter =>
        refine ⟨List.prefix_rfl, fun other ↦ ?_⟩
        simp only
        by_cases hother : other = client
        · rw [hother, Function.update_self]
          exact List.prefix_append _ _
        · rw [Function.update_of_ne hother]
      | farewell => exact grows_withLink _ _ _
  | _ => exact .refl broker

end Grows

/-! ### Which links change -/

section Links

variable {covers : F → T → Bool} {broker : Broker C T F P} {client other : C}

omit [DecidableEq T] in
theorem link_lose_of_ne (hother : other ≠ client) :
    (broker.lose covers client).link other = broker.link other := by
  unfold lose
  cases broker.link client with
  | opened session => exact Function.update_of_ne hother _ _
  | _ => rfl

omit [DecidableEq T] in
/-- A session that was lost is gone. -/
theorem link_lose_ne_opened (session : Session T F P) :
    (broker.lose covers client).link client ≠ .opened session := by
  unfold lose
  cases hlink : broker.link client with
  | opened session =>
    have hlost : Function.update broker.link client .lost client = (.lost : Link T F P) :=
      Function.update_self _ _ _
    exact fun hopened ↦ nomatch hlost.symm.trans hopened
  | _ => exact fun hopened ↦ nomatch hlink.symm.trans hopened

omit [DecidableEq T] in
/-- A loss is no farewell. -/
theorem link_lose_eq_left (hleft : (broker.lose covers client).link client = .left) :
    broker.link client = .left := by
  unfold lose at hleft
  cases hlink : broker.link client with
  | opened session =>
    rw [hlink] at hleft
    change Function.update broker.link client .lost client = _ at hleft
    rw [Function.update_self] at hleft
    cases hleft
  | left => rfl
  | _ =>
    rw [hlink] at hleft
    exact hlink.symm.trans hleft

omit [DecidableEq T] in
theorem link_connect_of_ne (hother : other ≠ client) (will : Item T P) :
    (broker.connect covers client will).link other = broker.link other :=
  (Function.update_of_ne hother _ _).trans (link_lose_of_ne hother)

omit [DecidableEq T] in
theorem link_send_of_ne (hother : other ≠ client) (packet : Packet T F P) :
    (broker.send client packet).link other = broker.link other := by
  unfold send
  cases broker.link client with
  | opened session => exact Function.update_of_ne hother _ _
  | _ => rfl

omit [DecidableEq T] in
/-- A packet is on its way, or there was no session for it. -/
theorem link_send_self (client : C) (packet : Packet T F P) :
    (∃ session, broker.link client = .opened session ∧ (broker.send client packet).link client =
      .opened { session with uplink := session.uplink ++ [packet] }) ∨
      broker.send client packet = broker := by
  unfold send
  cases hlink : broker.link client with
  | opened session => exact .inl ⟨session, rfl, Function.update_self _ _ _⟩
  | _ => exact .inr rfl

theorem link_arrive_of_ne (hother : other ≠ client) :
    (broker.arrive covers client).link other = broker.link other := by
  unfold arrive
  cases broker.link client with
  | opened session =>
    simp only
    cases session.uplink with
    | nil => rfl
    | cons packet rest =>
      cases packet with
      | _ => exact Function.update_of_ne hother _ _
  | _ => rfl

/-- An arrival takes the first packet off the way, and a farewell ends the session. -/
theorem link_arrive_self (client : C) :
    (broker.arrive covers client).link client = broker.link client ∨
      ∃ session packet rest, broker.link client = .opened session ∧
        session.uplink = packet :: rest ∧
          (((broker.arrive covers client).link client = .left ∧ packet = .farewell) ∨
            ∃ later : Session T F P, (broker.arrive covers client).link client = .opened later ∧
              later.uplink = rest) := by
  unfold arrive
  cases hlink : broker.link client with
  | opened session =>
    simp only
    cases hpackets : session.uplink with
    | nil => exact .inl hlink
    | cons packet rest =>
      refine .inr ⟨session, packet, rest, rfl, hpackets, ?_⟩
      cases packet with
      | publish item => exact .inr ⟨_, Function.update_self _ _ _, rfl⟩
      | subscribe filter => exact .inr ⟨_, Function.update_self _ _ _, rfl⟩
      | farewell => exact .inl ⟨Function.update_self _ _ _, rfl⟩
  | _ => exact .inl hlink

end Links

/-! ### What the clients promise -/

section Promises

variable {covers : F → T → Bool} {asks : C → F → Prop} {tells : C → Item T P → Prop}
  {broker : Broker C T F P}

/-- All clients have kept to what they may ask for and say: what is published in a client's name is
what it may say, and what is forwarded to a client was published and asked for. -/
structure Sound (covers : F → T → Bool) (asks : C → F → Prop) (tells : C → Item T P → Prop)
    (broker : Broker C T F P) : Prop where
  said : ∀ post ∈ broker.posts, ∀ client, post.sender = some client → tells client post.item
  forwarded : ∀ client, ∀ message ∈ broker.inbox client,
    (∃ post ∈ broker.posts, post.item.topic = message.1 ∧ post.item.payload = message.2) ∧
      ∃ filter, asks client filter ∧ covers filter message.1 = true
  session : ∀ client session, broker.link client = .opened session →
    session.Allowed (asks client) (tells client)

omit [DecidableEq C] [DecidableEq T] in
theorem sound_initial : Sound covers asks tells ({} : Broker C T F P) where
  said _ hmem := absurd hmem List.not_mem_nil
  forwarded _ _ hmem := absurd hmem List.not_mem_nil
  session _ _ hlink := nomatch hlink

omit [DecidableEq T] in
theorem Sound.withLink (hsound : Sound covers asks tells broker) {client : C} {link : Link T F P}
    (hlink : ∀ session, link = .opened session → session.Allowed (asks client) (tells client)) :
    Sound covers asks tells (broker.withLink client link) where
  said := hsound.said
  forwarded := hsound.forwarded
  session other session hother := by
    change Function.update broker.link client link other = .opened session at hother
    by_cases hsame : other = client
    · rw [hsame, Function.update_self] at hother
      exact hsame ▸ hlink session hother
    · rw [Function.update_of_ne hsame] at hother
      exact hsound.session other session hother

omit [DecidableEq C] [DecidableEq T] in
/-- What a publication adds to an inbox. -/
theorem mem_inbox_post {sender : Option C} {item : Item T P} {client : C} {message : T × P}
    (hmem : message ∈ (broker.post covers sender item).inbox client) :
    message ∈ broker.inbox client ∨ message = (item.topic, item.payload) ∧
      ∃ session, broker.link client = .opened session ∧
        ∃ filter ∈ session.filters, covers filter item.topic = true := by
  unfold post at hmem
  simp only at hmem
  cases hlink : broker.link client with
  | opened session =>
    rw [hlink] at hmem
    simp only at hmem
    split_ifs at hmem with hcovers
    · obtain hold | hnew := List.mem_append.mp hmem
      · exact .inl hold
      · exact .inr ⟨List.mem_singleton.mp hnew, session, rfl, List.any_eq_true.mp hcovers⟩
    · exact .inl hmem
  | _ =>
    rw [hlink] at hmem
    exact .inl hmem

omit [DecidableEq C] [DecidableEq T] in
theorem Sound.post (hsound : Sound covers asks tells broker) {sender : Option C} {item : Item T P}
    (htells : ∀ client, sender = some client → tells client item) :
    Sound covers asks tells (broker.post covers sender item) where
  said post hpost client hsender := by
    obtain hold | hnew := List.mem_append.mp hpost
    · exact hsound.said post hold client hsender
    · obtain rfl := List.mem_singleton.mp hnew
      exact htells client hsender
  forwarded client message hmem := by
    obtain hold | ⟨rfl, session, hlink, filter, hfilter, hcovers⟩ := mem_inbox_post hmem
    · obtain ⟨⟨post, hpost, heq⟩, hasked⟩ := hsound.forwarded client message hold
      exact ⟨⟨post, List.mem_append_left _ hpost, heq⟩, hasked⟩
    · exact ⟨⟨_, List.mem_append_right _ List.mem_cons_self, rfl, rfl⟩, filter,
        (hsound.session client session hlink).filters filter hfilter, hcovers⟩
  session := hsound.session

omit [DecidableEq T] in
theorem Sound.lose (hsound : Sound covers asks tells broker) (client : C) :
    Sound covers asks tells (broker.lose covers client) := by
  unfold Broker.lose
  cases hlink : broker.link client with
  | opened session =>
    refine (hsound.post fun other hother ↦ ?_).withLink nofun
    obtain rfl := Option.some.inj hother
    exact (hsound.session client session hlink).will
  | _ => exact hsound

omit [DecidableEq T] in
theorem Sound.connect (hsound : Sound covers asks tells broker) {client : C} {will : Item T P}
    (hwill : tells client will) : Sound covers asks tells (broker.connect covers client will) := by
  refine (hsound.lose client).withLink fun session hsession ↦ ?_
  obtain rfl := Link.opened.inj hsession
  exact ⟨hwill, fun _ hmem ↦ absurd hmem List.not_mem_nil,
    fun _ hmem ↦ absurd hmem List.not_mem_nil⟩

omit [DecidableEq T] in
theorem Sound.send (hsound : Sound covers asks tells broker) {client : C} {packet : Packet T F P}
    (hpacket : packet.Allowed (asks client) (tells client)) :
    Sound covers asks tells (broker.send client packet) := by
  unfold Broker.send
  cases hlink : broker.link client with
  | opened session =>
    refine hsound.withLink fun sent hsent ↦ ?_
    obtain rfl := Link.opened.inj hsent
    have hold := hsound.session client session hlink
    refine ⟨hold.will, hold.filters, fun other hother ↦ ?_⟩
    obtain hmem | hmem := List.mem_append.mp hother
    · exact hold.uplink other hmem
    · exact List.mem_singleton.mp hmem ▸ hpacket
  | _ => exact hsound

omit [DecidableEq C] in
/-- What is handed to a new subscriber was published on a topic that its filter covers. -/
theorem exists_of_retainedFor {filter : F} {message : T × P}
    (hmem : message ∈ broker.retainedFor covers filter) :
    (∃ post ∈ broker.posts, post.item.topic = message.1 ∧ post.item.payload = message.2) ∧
      covers filter message.1 = true := by
  obtain ⟨topic, htopic, hpayload⟩ := List.mem_filterMap.mp hmem
  obtain ⟨payload, hretained, rfl⟩ := Option.map_eq_some_iff.mp hpayload
  exact ⟨exists_of_retained hretained, (List.mem_filter.mp htopic).2⟩

theorem Sound.arrive (hsound : Sound covers asks tells broker) (client : C) :
    Sound covers asks tells (broker.arrive covers client) := by
  unfold Broker.arrive
  cases hlink : broker.link client with
  | opened session =>
    obtain ⟨hwill, hfilters, huplink⟩ := hsound.session client session hlink
    simp only
    cases hpackets : session.uplink with
    | nil => exact hsound
    | cons packet rest =>
      rw [hpackets] at huplink
      have hpacket := huplink packet List.mem_cons_self
      have hrest : ∀ other ∈ rest, other.Allowed (asks client) (tells client) :=
        fun other hother ↦ huplink other (List.mem_cons_of_mem _ hother)
      cases packet with
      | publish item =>
        have hlater : Sound covers asks tells
            (broker.withLink client (.opened { session with uplink := rest })) := by
          refine hsound.withLink fun later hsession ↦ ?_
          obtain rfl := Link.opened.inj hsession
          exact ⟨hwill, hfilters, hrest⟩
        exact hlater.post fun other hother ↦ Option.some.inj hother ▸ hpacket
      | subscribe filter =>
        have hlater : Sound covers asks tells (broker.withLink client (.opened
            { session with filters := session.filters ++ [filter], uplink := rest })) := by
          refine hsound.withLink fun later hsession ↦ ?_
          obtain rfl := Link.opened.inj hsession
          refine ⟨hwill, fun other hother ↦ ?_, hrest⟩
          obtain hmem | hmem := List.mem_append.mp hother
          · exact hfilters other hmem
          · exact List.mem_singleton.mp hmem ▸ hpacket
        refine ⟨hlater.said, fun other message hmem ↦ ?_, hlater.session⟩
        simp only at hmem
        by_cases hother : other = client
        · rw [hother, Function.update_self] at hmem
          obtain hold | hnew := List.mem_append.mp hmem
          · exact hother ▸ hsound.forwarded client message hold
          · obtain ⟨hpost, hcovers⟩ := exists_of_retainedFor hnew
            exact ⟨hpost, filter, hother ▸ hpacket, hcovers⟩
        · rw [Function.update_of_ne hother] at hmem
          exact hsound.forwarded other message hmem
      | farewell => exact hsound.withLink nofun
  | _ => exact hsound

end Promises

/-! ### What a will is for -/

section Wills

variable {covers : F → T → Bool} {broker : Broker C T F P} {client : C} {will : Item T P}

/-- What was published in a client's name. -/
def own (broker : Broker C T F P) (client : C) : List (Post C T P) :=
  broker.posts.filter fun post ↦ post.sender = some client

/-- The will is the last word of a client: its session would publish it, and if the client was lost
it is what the client retains on the topic. A client that was never there has published nothing. -/
structure Vouched (client : C) (will : Item T P) (broker : Broker C T F P) : Prop where
  opened : ∀ session, broker.link client = .opened session → session.will = will
  lost : broker.link client = .lost → retained (broker.own client) will.topic = some will.payload
  never : broker.link client = .never → broker.own client = []

omit [DecidableEq T] in
theorem own_post (broker : Broker C T F P) (sender : Option C) (item : Item T P) (client : C) :
    (broker.post covers sender item).own client =
      broker.own client ++ if sender = some client then [⟨sender, item⟩] else [] := by
  unfold own post
  rw [List.filter_append]
  by_cases hsender : sender = some client
  · simp [hsender]
  · simp [hsender]

theorem vouched_initial (client : C) (will : Item T P) :
    Vouched client will ({} : Broker C T F P) where
  opened _ hlink := nomatch hlink
  lost hlink := nomatch hlink
  never _ := rfl

/-- What others publish changes nothing. -/
theorem Vouched.post_of_ne (hvouched : Vouched client will broker) {sender : Option C}
    (hsender : sender ≠ some client) (item : Item T P) :
    Vouched client will (broker.post covers sender item) := by
  have hown : (broker.post covers sender item).own client = broker.own client := by
    rw [own_post, if_neg hsender, List.append_nil]
  exact ⟨hvouched.opened, fun hlost ↦ hown ▸ hvouched.lost hlost,
    fun hnever ↦ hown ▸ hvouched.never hnever⟩

/-- Another client's link changes nothing. -/
theorem Vouched.withLink_of_ne (hvouched : Vouched client will broker) {other : C}
    (hother : other ≠ client) (link : Link T F P) :
    Vouched client will (broker.withLink other link) := by
  have hlink : (broker.withLink other link).link client = broker.link client :=
    Function.update_of_ne hother.symm _ _
  refine ⟨fun session hsession ↦ ?_, fun hlost ↦ ?_, fun hnever ↦ ?_⟩
  · exact hvouched.opened session (hlink ▸ hsession)
  · exact hvouched.lost (hlink ▸ hlost)
  · exact hvouched.never (hlink ▸ hnever)

/-- A client that has a session, or has left it, vouches for nothing but its will. -/
theorem vouched_withLink {link : Link T F P}
    (hopened : ∀ session, link = .opened session → session.will = will) (hlost : link ≠ .lost)
    (hnever : link ≠ .never) : Vouched client will (broker.withLink client link) := by
  have hlink : (broker.withLink client link).link client = link := Function.update_self _ _ _
  refine ⟨fun session hsession ↦ ?_, fun hwas ↦ ?_, fun hwas ↦ ?_⟩
  · exact hopened session (hlink ▸ hsession)
  · exact absurd (hlink ▸ hwas) hlost
  · exact absurd (hlink ▸ hwas) hnever

theorem Vouched.lose (hvouched : Vouched client will broker) (hretain : will.retain = true)
    (other : C) : Vouched client will (broker.lose covers other) := by
  unfold Broker.lose
  cases hlink : broker.link other with
  | opened session =>
    by_cases hother : other = client
    · subst hother
      have hwill := hvouched.opened session hlink
      have hself : ((broker.post covers (some other) session.will).withLink other
          (.lost : Link T F P)).link other = .lost := Function.update_self _ _ _
      refine ⟨fun later hlater ↦ ?_, fun _ ↦ ?_, fun hnever ↦ ?_⟩
      · rw [hself] at hlater
        cases hlater
      · change retained ((broker.post covers (some other) session.will).own other) will.topic = _
        rw [own_post, if_pos rfl, hwill, retained_append_self rfl hretain]
      · rw [hself] at hnever
        cases hnever
    · have hsender : some other ≠ some client := fun heq ↦ hother (Option.some.inj heq)
      exact (hvouched.post_of_ne hsender _).withLink_of_ne hother _
  | _ => exact hvouched

theorem Vouched.connect (hvouched : Vouched client will broker) (hretain : will.retain = true)
    {other : C} {item : Item T P} (hitem : other = client → item = will) :
    Vouched client will (broker.connect covers other item) := by
  unfold Broker.connect
  by_cases hother : other = client
  · subst hother
    refine vouched_withLink (fun session hsession ↦ ?_) nofun nofun
    obtain rfl := Link.opened.inj hsession
    exact hitem rfl
  · exact (hvouched.lose hretain other).withLink_of_ne hother _

theorem Vouched.send (hvouched : Vouched client will broker) (other : C) (packet : Packet T F P) :
    Vouched client will (broker.send other packet) := by
  unfold Broker.send
  cases hlink : broker.link other with
  | opened session =>
    by_cases hother : other = client
    · subst hother
      refine vouched_withLink (fun sent hsent ↦ ?_) nofun nofun
      obtain rfl := Link.opened.inj hsent
      exact hvouched.opened session hlink
    · exact hvouched.withLink_of_ne hother _
  | _ => exact hvouched

theorem Vouched.arrive (hvouched : Vouched client will broker) (other : C) :
    Vouched client will (broker.arrive covers other) := by
  unfold Broker.arrive
  cases hlink : broker.link other with
  | opened session =>
    simp only
    by_cases hother : other = client
    · subst hother
      have hwill := hvouched.opened session hlink
      cases session.uplink with
      | nil => exact hvouched
      | cons packet rest =>
        cases packet with
        | publish item =>
          have hopened : ((broker.withLink other (.opened { session with uplink := rest })).post
              covers (some other) item).link other = .opened { session with uplink := rest } :=
            Function.update_self _ _ _
          refine ⟨fun later hlater ↦ ?_, fun hlost ↦ ?_, fun hnever ↦ ?_⟩
          · rw [hopened] at hlater
            exact Link.opened.inj hlater ▸ hwill
          · rw [hopened] at hlost
            cases hlost
          · rw [hopened] at hnever
            cases hnever
        | subscribe filter =>
          have hlater : Vouched other will (broker.withLink other (.opened
              { session with filters := session.filters ++ [filter], uplink := rest })) := by
            refine vouched_withLink (fun later hsession ↦ ?_) nofun nofun
            exact Link.opened.inj hsession ▸ hwill
          exact ⟨hlater.opened, hlater.lost, hlater.never⟩
        | farewell => exact vouched_withLink nofun nofun nofun
    · have hsender : some other ≠ some client := fun heq ↦ hother (Option.some.inj heq)
      cases session.uplink with
      | nil => exact hvouched
      | cons packet rest =>
        cases packet with
        | publish item => exact (hvouched.withLink_of_ne hother _).post_of_ne hsender _
        | subscribe filter =>
          have hlater := hvouched.withLink_of_ne hother (.opened
            { session with filters := session.filters ++ [filter], uplink := rest })
          exact ⟨hlater.opened, hlater.lost, hlater.never⟩
        | farewell => exact hvouched.withLink_of_ne hother _
  | _ => exact hvouched

/-- On a topic that only the client publishes on, its own items are all that counts. -/
theorem retained_own {topic : T} (hown : ∀ post ∈ broker.posts, post.item.topic = topic →
    post.sender = some client) :
    retained (broker.own client) topic = retained broker.posts topic := by
  unfold retained own
  rw [List.filter_filter]
  congr 2
  refine List.filter_congr fun post hpost ↦ ?_
  by_cases htopic : post.item.topic = topic
  · simp [hown post hpost htopic]
  · simp [htopic]

end Wills

end Broker

end LibreSwitch.Library
