import Mathlib.Tactic
import LibreSwitch.Domain.ControlCoordinator
import LibreSwitch.Net.MqttTopics

/-!
# Routing of inbound messages

`MqttService::onMessage` of `net/mqtt_service.h`: the four matchers in their order, and the action
that a message leads to.

`RoutesExactly` says what exact routing is, in terms of the part of the topic behind
`<root>/<id>/`. The matchers are looser than that: two of them look for their text anywhere in the
topic, the digit loop leaves what follows `/set` unread and narrows its number to eight bits, and
the suffix match accepts any levels below `cmd` before the suffix. `Misrouted` lists what they let
through, and `routes_exactly_iff` shows that nothing else goes wrong. The topics that the builder
makes reach their own channel (`onMessage_cmdRelaySet`).
-/

set_option autoImplicit false
set_option relaxedAutoImplicit false

namespace LibreSwitch.Net

open LibreSwitch.Library LibreSwitch.Domain

namespace MqttService

/-- What one message leads to: nothing, a command on `ControlCommandPort`, or a call on the
`SystemCommandSink`. -/
inductive Routed
  | nothing
  | submit (command : ControlCommand)
  | otaManifest (payload : Bytes)
  | otaConfirm
  deriving DecidableEq, Repr

/-- The relay state of a parsed flag. -/
def stateOf (on : Bool) : RelayState := if on then .on else .off

/-- The command of `routeChannelSet`. -/
def channelCommand (channel : ℕ) (on : Bool) : ControlCommand :=
  { kind := .setChannel, channel := channel, state := stateOf on, source := .cloud }

/-- The command of `routeAllSet`. -/
def allCommand (on : Bool) : ControlCommand :=
  { kind := .setAll, channel := 0, state := stateOf on, source := .cloud }

def routeChannelSet (channel : ℕ) (payload : Bytes) : Routed :=
  match MqttPayload.parseRelaySet payload with
  | none => .nothing
  | some on => .submit (channelCommand channel on)

def routeAllSet (payload : Bytes) : Routed :=
  match MqttPayload.parseRelaySet payload with
  | none => .nothing
  | some on => .submit (allCommand on)

/-- `onMessage`; the flag says whether a `SystemCommandSink` is wired. -/
def onMessage (sys : Bool) (topic payload : Bytes) : Routed :=
  if MqttTopics.isSystemOta topic then
    if sys then .otaManifest payload else .nothing
  else if MqttTopics.isSystemConfirm topic then
    if sys then .otaConfirm else .nothing
  else if MqttTopics.isRelayAllSet topic then routeAllSet payload
  else
    match MqttTopics.parseRelaySetChannel topic with
    | some channel => routeChannelSet channel payload
    | none => .nothing

/-! ### Exact routing -/

/-- The rest of the topic is `cmd/relay/<decimal digits>/set`, with the number they denote. -/
def NamesChannel (rest : Bytes) (number : ℕ) : Prop :=
  ∃ digits : Bytes, digits ≠ [] ∧ (∀ byte ∈ digits, isDigit byte = true) ∧
    rest = ascii "cmd/relay/" ++ digits ++ ascii "/set" ∧ decimalValue digits = number

/-- The message leads to the action that the rest of its topic names, and to no other. -/
structure RoutesExactly (rest payload : Bytes) (routed : Routed) : Prop where
  channel (number : ℕ) (on : Bool) : routed = .submit (channelCommand number on) ↔
    NamesChannel rest number ∧ number ≤ 255 ∧ MqttPayload.parseRelaySet payload = some on
  all (on : Bool) : routed = .submit (allCommand on) ↔
    rest = ascii "cmd/relay/all/set" ∧ MqttPayload.parseRelaySet payload = some on
  manifest (body : Bytes) : routed = .otaManifest body ↔
    rest = ascii "cmd/system/ota" ∧ body = payload
  confirm : routed = .otaConfirm ↔ rest = ascii "cmd/system/confirm"
  otherwise (hchannel : ∀ number on, ¬ (NamesChannel rest number ∧ number ≤ 255 ∧
      MqttPayload.parseRelaySet payload = some on))
    (hall : ∀ on, ¬ (rest = ascii "cmd/relay/all/set" ∧
      MqttPayload.parseRelaySet payload = some on))
    (hmanifest : rest ≠ ascii "cmd/system/ota")
    (hconfirm : rest ≠ ascii "cmd/system/confirm") : routed = .nothing

/-- The rest of the topic has, where `cmd/relay/` first stands in it, a number and `/set`. -/
def HoldsRelaySet (rest : Bytes) : Prop :=
  ∃ text digits behind, strstr (ascii "cmd/relay/") rest = some (ascii "cmd/relay/" ++ text) ∧
    MqttTopics.SetsChannel text digits behind

/-- The messages that the matchers take for another one, or for none. -/
inductive Misrouted (topics : MqttTopics) (rest payload : Bytes) : Prop
  | ota (hends : ascii "cmd/system/ota" <:+ rest) (hne : rest ≠ ascii "cmd/system/ota")
  | confirm (hends : ascii "cmd/system/confirm" <:+ rest)
      (hne : rest ≠ ascii "cmd/system/confirm")
  | all (hholds : ascii "cmd/relay/all/set" <:+: rest) (hne : rest ≠ ascii "cmd/relay/all/set")
      (hpayload : (MqttPayload.parseRelaySet payload).isSome = true)
  | channel (hclear : ¬ topics.Shadowed) (hholds : HoldsRelaySet rest)
      (hnone : ∀ number ≤ 255, ¬ NamesChannel rest number)
      (hpayload : (MqttPayload.parseRelaySet payload).isSome = true)
  | shadowed (hshadowed : topics.Shadowed) (number : ℕ) (hnumber : number ≤ 255)
      (hnames : NamesChannel rest number)
      (hpayload : (MqttPayload.parseRelaySet payload).isSome = true)

/-! ### What a topic names -/

/-- A topic that names a channel has its number behind the first `cmd/relay/`. -/
theorem NamesChannel.holds {rest : Bytes} {number : ℕ} (hnames : NamesChannel rest number) :
    ∃ digits, strstr (ascii "cmd/relay/") rest =
        some (ascii "cmd/relay/" ++ (digits ++ (ascii "/set" ++ []))) ∧
      MqttTopics.SetsChannel (digits ++ (ascii "/set" ++ [])) digits [] ∧
      decimalValue digits = number := by
  obtain ⟨digits, hne, hdigits, hrest, hvalue⟩ := hnames
  have hshape : rest = ascii "cmd/relay/" ++ (digits ++ (ascii "/set" ++ [])) := by
    rw [hrest, List.append_assoc, List.append_nil]
  refine ⟨digits, ?_, ⟨rfl, hne, hdigits⟩, hvalue⟩
  rw [hshape, strstr_of_prefix (List.prefix_append _ _)]

/-- A topic names one number at most. -/
theorem NamesChannel.unique {rest : Bytes} {first second : ℕ} (hfirst : NamesChannel rest first)
    (hsecond : NamesChannel rest second) : first = second := by
  obtain ⟨digits, hfound, hsets, rfl⟩ := hfirst.holds
  obtain ⟨digits', hfound', hsets', rfl⟩ := hsecond.holds
  rw [hfound, Option.some.injEq, List.append_cancel_left_eq] at hfound'
  rw [← hsets.takeWhile_eq, hfound', hsets'.takeWhile_eq]

theorem not_holdsRelaySet_all : ¬ HoldsRelaySet (ascii "cmd/relay/all/set") := by
  rintro ⟨text, digits, behind, hfound, hsets⟩
  have hall : strstr (ascii "cmd/relay/") (ascii "cmd/relay/all/set") =
      some (ascii "cmd/relay/" ++ ascii "all/set") := by decide
  rw [hall, Option.some.injEq, List.append_cancel_left_eq] at hfound
  exact hsets.digits_ne (by rw [← hsets.takeWhile_eq, ← hfound]; decide)

theorem not_holdsRelaySet_of_strstr {rest : Bytes}
    (hnone : strstr (ascii "cmd/relay/") rest = none) : ¬ HoldsRelaySet rest := by
  rintro ⟨text, digits, behind, hfound, -⟩
  rw [hnone] at hfound
  cases hfound

/-- A topic that names a channel holds it. -/
theorem NamesChannel.holdsRelaySet {rest : Bytes} {number : ℕ}
    (hnames : NamesChannel rest number) : HoldsRelaySet rest := by
  obtain ⟨digits, hfound, hsets, -⟩ := hnames.holds
  exact ⟨_, digits, [], hfound, hsets⟩

/-! ### What the matchers accept -/

theorem isSystemOta_iff {topics : MqttTopics} {rest : Bytes} (hrest : MqttTopics.UnderCmd rest) :
    MqttTopics.isSystemOta (topics.full rest) = true ↔ ascii "cmd/system/ota" <:+ rest :=
  MqttTopics.endsWith_topic hrest (by decide)

theorem isSystemConfirm_iff {topics : MqttTopics} {rest : Bytes}
    (hrest : MqttTopics.UnderCmd rest) :
    MqttTopics.isSystemConfirm (topics.full rest) = true ↔ ascii "cmd/system/confirm" <:+ rest :=
  MqttTopics.endsWith_topic hrest (by decide)

theorem isRelayAllSet_iff {topics : MqttTopics} (hlevels : topics.Levels) {rest : Bytes}
    (hrest : MqttTopics.UnderCmd rest) :
    MqttTopics.isRelayAllSet (topics.full rest) = true ↔ ascii "cmd/relay/all/set" <:+: rest := by
  have hsplit : ascii "cmd/relay/all/set" = ascii "cmd/relay/" ++ ascii "all/set" := by decide
  have hmore : ¬ ascii "all/set" <+: rest := hrest.not_prefix (by decide) (by decide)
  rw [MqttTopics.isRelayAllSet, hsplit,
    MqttTopics.strstr_topic hlevels hrest _ fun hboth ↦ hmore hboth.2, strstr_isSome_iff]

/-- What the channel parser accepts behind the root and the id. -/
theorem parseRelaySetChannel_eq_some_iff {topics : MqttTopics} (hlevels : topics.Levels)
    {rest : Bytes} (hrest : MqttTopics.UnderCmd rest) {channel : ℕ} :
    MqttTopics.parseRelaySetChannel (topics.full rest) = some channel ↔
      ¬ topics.Shadowed ∧ ∃ text digits behind,
        strstr (ascii "cmd/relay/") rest = some (ascii "cmd/relay/" ++ text) ∧
        MqttTopics.SetsChannel text digits behind ∧ decimalValue digits % 256 = channel := by
  by_cases hshadowed : topics.Shadowed
  · -- The text behind the first occurrence is the rest itself, and that starts with no digit.
    have hparse : MqttTopics.parseRelaySetChannel (topics.full rest) = none := by
      obtain ⟨behind, rfl⟩ := hrest.starts
      rw [MqttTopics.parseRelaySetChannel, MqttTopics.strstr_topic_shadowed hlevels hshadowed]
      rfl
    rw [hparse]
    simp [hshadowed]
  · have hfound : strstr (ascii "cmd/relay/") (topics.full rest) =
        strstr (ascii "cmd/relay/") rest := by
      have htopic := MqttTopics.strstr_topic hlevels hrest []
        fun hboth ↦ hshadowed hboth.1
      simpa only [List.append_nil] using htopic
    rw [MqttTopics.parseRelaySetChannel, hfound]
    cases hstrstr : strstr (ascii "cmd/relay/") rest with
    | none => simp
    | some found =>
      obtain ⟨before, -, ⟨text, rfl⟩, -⟩ := strstr_eq_some_iff.mp hstrstr
      simp only [List.drop_left, MqttTopics.parseChannel_eq_some_iff, hshadowed,
        not_false_eq_true, true_and, Option.some.injEq, List.append_cancel_left_eq]
      constructor
      · rintro ⟨digits, behind, hsets, hvalue⟩
        exact ⟨text, digits, behind, rfl, hsets, hvalue⟩
      · rintro ⟨text', digits, behind, rfl, hsets, hvalue⟩
        exact ⟨digits, behind, hsets, hvalue⟩

/-! ### What the matchers make of it -/

/-- Where nothing is named, doing nothing is exact. -/
theorem routesExactly_nothing {rest payload : Bytes}
    (hchannel : ∀ number on, ¬ (NamesChannel rest number ∧ number ≤ 255 ∧
      MqttPayload.parseRelaySet payload = some on))
    (hall : ∀ on, ¬ (rest = ascii "cmd/relay/all/set" ∧
      MqttPayload.parseRelaySet payload = some on))
    (hmanifest : rest ≠ ascii "cmd/system/ota") (hconfirm : rest ≠ ascii "cmd/system/confirm") :
    RoutesExactly rest payload .nothing where
  channel number on := by simpa using hchannel number on
  all on := by simpa using hall on
  manifest body := by simp [hmanifest]
  confirm := by simp [hconfirm]
  otherwise _ _ _ _ := rfl

/-- A manifest is exact on its topic and nowhere else. -/
theorem routesExactly_otaManifest {rest payload : Bytes} :
    RoutesExactly rest payload (.otaManifest payload) ↔ rest = ascii "cmd/system/ota" := by
  constructor
  · intro hexact
    exact ((hexact.manifest payload).mp rfl).1
  · rintro rfl
    have hnone (number : ℕ) : ¬ NamesChannel (ascii "cmd/system/ota") number :=
      fun hnames ↦ not_holdsRelaySet_of_strstr (by decide) hnames.holdsRelaySet
    have hall : ascii "cmd/system/ota" ≠ ascii "cmd/relay/all/set" := by decide
    have hconfirm : ascii "cmd/system/ota" ≠ ascii "cmd/system/confirm" := by decide
    exact {
      channel := fun number on ↦ by simp [hnone]
      all := fun on ↦ by simp [hall]
      manifest := fun body ↦ by simp [eq_comm]
      confirm := by simp [hconfirm]
      otherwise := fun _ _ hmanifest _ ↦ absurd rfl hmanifest }

/-- A confirmation is exact on its topic and nowhere else. -/
theorem routesExactly_otaConfirm {rest payload : Bytes} :
    RoutesExactly rest payload .otaConfirm ↔ rest = ascii "cmd/system/confirm" := by
  constructor
  · intro hexact
    exact hexact.confirm.mp rfl
  · rintro rfl
    have hnone (number : ℕ) : ¬ NamesChannel (ascii "cmd/system/confirm") number :=
      fun hnames ↦ not_holdsRelaySet_of_strstr (by decide) hnames.holdsRelaySet
    have hall : ascii "cmd/system/confirm" ≠ ascii "cmd/relay/all/set" := by decide
    have hmanifest : ascii "cmd/system/confirm" ≠ ascii "cmd/system/ota" := by decide
    exact {
      channel := fun number on ↦ by simp [hnone]
      all := fun on ↦ by simp [hall]
      manifest := fun body ↦ by simp [hmanifest]
      confirm := by simp
      otherwise := fun _ _ _ hconfirm ↦ absurd rfl hconfirm }

theorem channelCommand_ne_allCommand (channel : ℕ) (on on' : Bool) :
    channelCommand channel on ≠ allCommand on' := by
  simp [channelCommand, allCommand]

theorem channelCommand_inj {channel channel' : ℕ} {on on' : Bool} :
    channelCommand channel on = channelCommand channel' on' ↔ channel = channel' ∧ on = on' := by
  cases on <;> cases on' <;> simp [channelCommand, stateOf]

theorem allCommand_inj {on on' : Bool} : allCommand on = allCommand on' ↔ on = on' := by
  cases on <;> cases on' <;> simp [allCommand, stateOf]

/-- A command for all channels is exact on its topic and nowhere else. -/
theorem routesExactly_allCommand {rest payload : Bytes} {on : Bool}
    (hpayload : MqttPayload.parseRelaySet payload = some on) :
    RoutesExactly rest payload (.submit (allCommand on)) ↔
      rest = ascii "cmd/relay/all/set" := by
  constructor
  · intro hexact
    exact ((hexact.all on).mp rfl).1
  · rintro rfl
    have hnone (number : ℕ) : ¬ NamesChannel (ascii "cmd/relay/all/set") number :=
      fun hnames ↦ not_holdsRelaySet_all hnames.holdsRelaySet
    have hmanifest : ascii "cmd/relay/all/set" ≠ ascii "cmd/system/ota" := by decide
    have hconfirm : ascii "cmd/relay/all/set" ≠ ascii "cmd/system/confirm" := by decide
    exact {
      channel := fun number on ↦ by
        simp [hnone, (channelCommand_ne_allCommand number on _).symm]
      all := fun on ↦ by simp [hpayload, allCommand_inj]
      manifest := fun body ↦ by simp [hmanifest]
      confirm := by simp [hconfirm]
      otherwise := fun _ hall _ _ ↦ absurd ⟨rfl, hpayload⟩ (hall on) }

/-- A command for one channel is exact on the topics that name the channel. -/
theorem routesExactly_channelCommand {rest payload : Bytes} {channel : ℕ} {on : Bool}
    (hpayload : MqttPayload.parseRelaySet payload = some on) :
    RoutesExactly rest payload (.submit (channelCommand channel on)) ↔
      NamesChannel rest channel ∧ channel ≤ 255 := by
  constructor
  · intro hexact
    obtain ⟨hnames, hchannel, -⟩ := (hexact.channel channel on).mp rfl
    exact ⟨hnames, hchannel⟩
  · rintro ⟨hnames, hchannel⟩
    have hall : rest ≠ ascii "cmd/relay/all/set" := by
      rintro rfl
      exact not_holdsRelaySet_all hnames.holdsRelaySet
    have hmanifest : rest ≠ ascii "cmd/system/ota" := by
      rintro rfl
      exact not_holdsRelaySet_of_strstr (by decide) hnames.holdsRelaySet
    have hconfirm : rest ≠ ascii "cmd/system/confirm" := by
      rintro rfl
      exact not_holdsRelaySet_of_strstr (by decide) hnames.holdsRelaySet
    refine {
      channel := fun number on' ↦ ?_
      all := fun on' ↦ by simp [hall, channelCommand_ne_allCommand]
      manifest := fun body ↦ by simp [hmanifest]
      confirm := by simp [hconfirm]
      otherwise := fun hnone _ _ _ ↦ absurd ⟨hnames, hchannel, hpayload⟩ (hnone channel on) }
    rw [Routed.submit.injEq, channelCommand_inj, hpayload, Option.some.injEq]
    constructor
    · rintro ⟨rfl, rfl⟩
      exact ⟨hnames, hchannel, rfl⟩
    · rintro ⟨hnumber, -, rfl⟩
      exact ⟨hnames.unique hnumber, rfl⟩

/-! ### Which messages are misrouted -/

/-- A topic that holds no number is routed right if the matchers find no topic in it but itself. -/
theorem not_misrouted_of_not_holds {topics : MqttTopics} {rest payload : Bytes}
    (hnone : ¬ HoldsRelaySet rest)
    (hota : ascii "cmd/system/ota" <:+ rest → rest = ascii "cmd/system/ota")
    (hconfirm : ascii "cmd/system/confirm" <:+ rest → rest = ascii "cmd/system/confirm")
    (hall : ascii "cmd/relay/all/set" <:+: rest → rest = ascii "cmd/relay/all/set") :
    ¬ Misrouted topics rest payload := by
  rintro (⟨hends, hne⟩ | ⟨hends, hne⟩ | ⟨hholds, hne, -⟩ | ⟨-, hholds, -, -⟩ |
    ⟨-, number, -, hnames, -⟩)
  · exact hne (hota hends)
  · exact hne (hconfirm hends)
  · exact hne (hall hholds)
  · exact hnone hholds
  · exact hnone hnames.holdsRelaySet

theorem not_misrouted_ota {topics : MqttTopics} {payload : Bytes} :
    ¬ Misrouted topics (ascii "cmd/system/ota") payload :=
  not_misrouted_of_not_holds (not_holdsRelaySet_of_strstr (by decide)) (fun _ ↦ rfl)
    (by decide) (by decide)

theorem not_misrouted_confirm {topics : MqttTopics} {payload : Bytes} :
    ¬ Misrouted topics (ascii "cmd/system/confirm") payload :=
  not_misrouted_of_not_holds (not_holdsRelaySet_of_strstr (by decide)) (by decide)
    (fun _ ↦ rfl) (by decide)

theorem not_misrouted_all {topics : MqttTopics} {payload : Bytes} :
    ¬ Misrouted topics (ascii "cmd/relay/all/set") payload :=
  not_misrouted_of_not_holds not_holdsRelaySet_all (by decide) (by decide) (fun _ ↦ rfl)

/-- A topic that holds a number is parsed, and one that names a channel is parsed to it. -/
theorem parseRelaySetChannel_of_holds {topics : MqttTopics} (hlevels : topics.Levels)
    {rest : Bytes} (hrest : MqttTopics.UnderCmd rest) (hclear : ¬ topics.Shadowed)
    (hholds : HoldsRelaySet rest) :
    ∃ channel, MqttTopics.parseRelaySetChannel (topics.full rest) = some channel := by
  obtain ⟨text, digits, behind, hfound, hsets⟩ := hholds
  exact ⟨_, (parseRelaySetChannel_eq_some_iff hlevels hrest).mpr
    ⟨hclear, text, digits, behind, hfound, hsets, rfl⟩⟩

theorem parseRelaySetChannel_of_names {topics : MqttTopics} (hlevels : topics.Levels)
    {rest : Bytes} (hrest : MqttTopics.UnderCmd rest) (hclear : ¬ topics.Shadowed) {number : ℕ}
    (hnumber : number ≤ 255) (hnames : NamesChannel rest number) :
    MqttTopics.parseRelaySetChannel (topics.full rest) = some number := by
  obtain ⟨digits, hfound, hsets, hvalue⟩ := hnames.holds
  refine (parseRelaySetChannel_eq_some_iff hlevels hrest).mpr
    ⟨hclear, _, digits, [], hfound, hsets, ?_⟩
  rw [hvalue, Nat.mod_eq_of_lt (by omega)]

section Dispatch

variable {topics : MqttTopics} {rest payload : Bytes}

/-- Behind the suffix matches and the search for `all`, only the channel parser decides. -/
theorem routes_exactly_iff_of_channel (hlevels : topics.Levels)
    (hrest : MqttTopics.UnderCmd rest) (hota : ¬ ascii "cmd/system/ota" <:+ rest)
    (hconfirm : ¬ ascii "cmd/system/confirm" <:+ rest)
    (hall : ¬ ascii "cmd/relay/all/set" <:+: rest) {on : Bool}
    (hpayload : MqttPayload.parseRelaySet payload = some on) :
    RoutesExactly rest payload
        (match MqttTopics.parseRelaySetChannel (topics.full rest) with
        | some channel => routeChannelSet channel payload
        | none => .nothing) ↔ ¬ Misrouted topics rest payload := by
  have hsome : (MqttPayload.parseRelaySet payload).isSome = true := by rw [hpayload]; rfl
  have hne_ota : rest ≠ ascii "cmd/system/ota" := fun heq ↦ hota (heq ▸ List.suffix_rfl)
  have hne_confirm : rest ≠ ascii "cmd/system/confirm" :=
    fun heq ↦ hconfirm (heq ▸ List.suffix_rfl)
  have hne_all : rest ≠ ascii "cmd/relay/all/set" := fun heq ↦ hall (heq ▸ List.infix_rfl)
  cases hparse : MqttTopics.parseRelaySetChannel (topics.full rest) with
  | none =>
    constructor
    · rintro hexact (⟨hends, -⟩ | ⟨hends, -⟩ | ⟨hholds, -, -⟩ | ⟨hclear, hholds, -, -⟩ |
        ⟨-, number, hnumber, hnames, -⟩)
      · exact hota hends
      · exact hconfirm hends
      · exact hall hholds
      · obtain ⟨channel, hchannel⟩ := parseRelaySetChannel_of_holds hlevels hrest hclear hholds
        rw [hparse] at hchannel
        cases hchannel
      · cases (hexact.channel number on).mpr ⟨hnames, hnumber, hpayload⟩
    · intro hrouted
      refine routesExactly_nothing ?_ (fun _ hboth ↦ hne_all hboth.1) hne_ota hne_confirm
      rintro number _ ⟨hnames, hnumber, -⟩
      by_cases hshadowed : topics.Shadowed
      · exact hrouted (.shadowed hshadowed number hnumber hnames hsome)
      · rw [parseRelaySetChannel_of_names hlevels hrest hshadowed hnumber hnames] at hparse
        cases hparse
  | some channel =>
    obtain ⟨hclear, text, digits, behind, hfound, hsets, hvalue⟩ :=
      (parseRelaySetChannel_eq_some_iff hlevels hrest).mp hparse
    have hchannel : channel ≤ 255 := by omega
    simp only [routeChannelSet, hpayload]
    rw [routesExactly_channelCommand hpayload]
    constructor
    · rintro ⟨hnames, -⟩ (⟨hends, -⟩ | ⟨hends, -⟩ | ⟨hholds, -, -⟩ | ⟨-, -, hnone, -⟩ |
        ⟨hshadowed, -⟩)
      · exact hota hends
      · exact hconfirm hends
      · exact hall hholds
      · exact hnone channel hchannel hnames
      · exact hclear hshadowed
    · intro hrouted
      refine ⟨?_, hchannel⟩
      by_contra hnames
      refine hrouted (.channel hclear ⟨text, digits, behind, hfound, hsets⟩ ?_ hsome)
      intro number hnumber hnumber_names
      rw [parseRelaySetChannel_of_names hlevels hrest hclear hnumber hnumber_names] at hparse
      cases hparse
      exact hnames hnumber_names

/-- Where the payload is no relay command, only the system topics can go wrong. -/
theorem routesExactly_nothing_of_malformed (hota : ¬ ascii "cmd/system/ota" <:+ rest)
    (hconfirm : ¬ ascii "cmd/system/confirm" <:+ rest)
    (hpayload : MqttPayload.parseRelaySet payload = none) :
    RoutesExactly rest payload .nothing ∧ ¬ Misrouted topics rest payload := by
  constructor
  · exact routesExactly_nothing (by simp [hpayload]) (by simp [hpayload])
      (fun heq ↦ hota (heq ▸ List.suffix_rfl)) (fun heq ↦ hconfirm (heq ▸ List.suffix_rfl))
  · rintro (⟨hends, -⟩ | ⟨hends, -⟩ | ⟨-, -, hsome⟩ | ⟨-, -, -, hsome⟩ | ⟨-, _, -, -, hsome⟩)
    · exact hota hends
    · exact hconfirm hends
    all_goals simp [hpayload] at hsome

end Dispatch

/-- Messages are routed exactly, apart from those that the matchers take for another one. -/
theorem routes_exactly_iff (topics : MqttTopics) (rest payload : Bytes)
    (hroot : slash ∉ topics.root) (hid : slash ∉ topics.id) (hrest : MqttTopics.UnderCmd rest) :
    RoutesExactly rest payload (onMessage true (topics.full rest) payload) ↔
      ¬ Misrouted topics rest payload := by
  have hlevels : topics.Levels := ⟨hroot, hid⟩
  unfold onMessage
  by_cases hota : ascii "cmd/system/ota" <:+ rest
  · rw [if_pos ((isSystemOta_iff hrest).mpr hota), if_pos rfl, routesExactly_otaManifest]
    constructor
    · rintro rfl
      exact not_misrouted_ota
    · intro hrouted
      by_contra hne
      exact hrouted (.ota hota hne)
  rw [if_neg (mt (isSystemOta_iff hrest).mp hota)]
  by_cases hconfirm : ascii "cmd/system/confirm" <:+ rest
  · rw [if_pos ((isSystemConfirm_iff hrest).mpr hconfirm), if_pos rfl, routesExactly_otaConfirm]
    constructor
    · rintro rfl
      exact not_misrouted_confirm
    · intro hrouted
      by_contra hne
      exact hrouted (.confirm hconfirm hne)
  rw [if_neg (mt (isSystemConfirm_iff hrest).mp hconfirm)]
  cases hpayload : MqttPayload.parseRelaySet payload with
  | none =>
    have hnothing : (if MqttTopics.isRelayAllSet (topics.full rest) then routeAllSet payload
        else match MqttTopics.parseRelaySetChannel (topics.full rest) with
          | some channel => routeChannelSet channel payload
          | none => .nothing) = Routed.nothing := by
      simp only [routeAllSet, routeChannelSet, hpayload]
      split_ifs
      · rfl
      · split <;> rfl
    obtain ⟨hexact, hrouted⟩ := routesExactly_nothing_of_malformed hota hconfirm hpayload
    rw [hnothing]
    exact iff_of_true hexact hrouted
  | some on =>
    by_cases hall : ascii "cmd/relay/all/set" <:+: rest
    · rw [if_pos ((isRelayAllSet_iff hlevels hrest).mpr hall)]
      simp only [routeAllSet, hpayload]
      rw [routesExactly_allCommand hpayload]
      constructor
      · rintro rfl
        exact not_misrouted_all
      · intro hrouted
        by_contra hne
        exact hrouted (.all hall hne (by rw [hpayload]; rfl))
    · rw [if_neg (mt (isRelayAllSet_iff hlevels hrest).mp hall)]
      exact routes_exactly_iff_of_channel hlevels hrest hota hconfirm hall hpayload

theorem routes_exactly_iff_witness :
    RoutesExactly (ascii "cmd/relay/2/set") (ascii "\x7b\"on\":true\x7d")
        (onMessage true (MqttTopics.full ⟨ascii "sw", ascii "dev"⟩ (ascii "cmd/relay/2/set"))
          (ascii "\x7b\"on\":true\x7d")) ↔
      ¬ Misrouted ⟨ascii "sw", ascii "dev"⟩ (ascii "cmd/relay/2/set")
        (ascii "\x7b\"on\":true\x7d") :=
  routes_exactly_iff ⟨ascii "sw", ascii "dev"⟩ _ _ (by decide) (by decide)
    (Or.inr (by decide))

/-- A topic for channel 257 switches channel 1. -/
theorem routes_wrapped_channel :
    onMessage true (ascii "sw/dev/cmd/relay/257/set") (ascii "\x7b\"on\":true\x7d") =
        .submit (channelCommand 1 true) ∧
      ¬ RoutesExactly (ascii "cmd/relay/257/set") (ascii "\x7b\"on\":true\x7d")
        (onMessage true (MqttTopics.full ⟨ascii "sw", ascii "dev"⟩ (ascii "cmd/relay/257/set"))
          (ascii "\x7b\"on\":true\x7d")) := by
  have hrouted : onMessage true (ascii "sw/dev/cmd/relay/257/set")
      (ascii "\x7b\"on\":true\x7d") = .submit (channelCommand 1 true) := by decide
  refine ⟨hrouted, fun hexact ↦ ?_⟩
  have htopic : MqttTopics.full ⟨ascii "sw", ascii "dev"⟩ (ascii "cmd/relay/257/set") =
      ascii "sw/dev/cmd/relay/257/set" := by decide
  rw [htopic, hrouted] at hexact
  obtain ⟨hnames, -, -⟩ := (hexact.channel 1 true).mp rfl
  have hnames' : NamesChannel (ascii "cmd/relay/257/set") 257 :=
    ⟨ascii "257", by decide, List.all_eq_true.mp (by decide), by decide, by decide⟩
  have heq := hnames.unique hnames'
  omega

/-! ### The topics of the builder -/

/-- The rest of a topic that `cmdRelaySet` builds names its channel. -/
theorem namesChannel_cmdRelaySet (channel : ℕ) :
    NamesChannel (ascii "cmd/relay/" ++ decimal channel ++ ascii "/set") channel :=
  ⟨decimal channel, decimal_ne_nil channel, fun _ hbyte ↦ isDigit_of_mem_decimal hbyte, rfl,
    decimalValue_decimal channel⟩

/-- A topic that names a channel ends in no system topic and does not hold the one for all. -/
theorem NamesChannel.only_channel {rest : Bytes} {number : ℕ} (hnames : NamesChannel rest number) :
    ¬ ascii "cmd/system/ota" <:+ rest ∧ ¬ ascii "cmd/system/confirm" <:+ rest ∧
      ¬ ascii "cmd/relay/all/set" <:+: rest := by
  obtain ⟨digits, -, hdigits, hrest, -⟩ := hnames
  have hlast : rest.getLast? = some 116 := by
    rw [hrest, List.getLast?_append]
    rfl
  have hother {suffix : Bytes} (byte : UInt8) (hbyte : byte ≠ 116)
      (hsuffix : suffix.getLast? = some byte) : ¬ suffix <:+ rest := by
    rintro ⟨before, hbefore⟩
    rw [← hbefore, List.getLast?_append, hsuffix, Option.some_or, Option.some.injEq] at hlast
    exact hbyte hlast
  -- The topic for all channels has three bytes `l`, a topic with digits only one.
  have hcount : rest.count 108 = 1 := by
    have hdigit : digits.count 108 = 0 :=
      List.count_eq_zero.mpr fun hmem ↦ absurd (hdigits 108 hmem) (by decide)
    rw [hrest, List.count_append, List.count_append, hdigit]
    decide
  refine ⟨hother 97 (by decide) (by decide), hother 109 (by decide) (by decide), fun hholds ↦ ?_⟩
  have hle := hholds.sublist.count_le 108
  rw [hcount] at hle
  exact absurd hle (by decide)

/-- The topic that the builder makes for a channel reaches the channel, unless the device is
shadowed. -/
theorem onMessage_cmdRelaySet {topics : MqttTopics} (hlevels : topics.Levels)
    (hclear : ¬ topics.Shadowed) {n channel : ℕ} (hfits : (topics.cmdRelaySet n channel).2 = true)
    (hchannel : channel ≤ 255) {payload : Bytes} {on : Bool}
    (hpayload : MqttPayload.parseRelaySet payload = some on) (sys : Bool) :
    onMessage sys (topics.cmdRelaySet n channel).1 payload =
      .submit (channelCommand channel on) := by
  have hnames := namesChannel_cmdRelaySet channel
  have hrest : MqttTopics.UnderCmd (ascii "cmd/relay/" ++ decimal channel ++ ascii "/set") := by
    rw [List.append_assoc]
    exact Or.inr ((by decide : ascii "cmd/" <+: ascii "cmd/relay/").trans (List.prefix_append _ _))
  obtain ⟨hota, hconfirm, hall⟩ := hnames.only_channel
  rw [MqttTopics.cmdRelaySet, MqttTopics.fst_fmt hfits]
  unfold onMessage
  rw [if_neg (mt (isSystemOta_iff hrest).mp hota),
    if_neg (mt (isSystemConfirm_iff hrest).mp hconfirm),
    if_neg (mt (isRelayAllSet_iff hlevels hrest).mp hall),
    parseRelaySetChannel_of_names hlevels hrest hclear hchannel hnames]
  simp only [routeChannelSet, hpayload]

end MqttService

end LibreSwitch.Net
