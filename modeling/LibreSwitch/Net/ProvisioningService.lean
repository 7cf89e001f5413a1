import Mathlib.Tactic
import LibreSwitch.Domain.TouchInput
import LibreSwitch.Library.ByteString
import LibreSwitch.Library.Interaction

/-!
# Provisioning

`ProvisioningService` of `net/provisioning_service.h`, over the types of `net/provisioning_types.h`
and the seams of `net/provisioning_ports.h`. Its operations are programs over the radio, the
portal, the enrollment and the key-value store, each of which may answer in any way.

The submission handler runs inside the `poll` of a tick. A poll answers with the submissions that
wait at the portal, and before each of them is handled the portal is asked whether it still takes
it (`ProvCall.accepts`): it does only while it is running.

`World` is what the theorems about the radio speak of: whether the soft AP is up, whether a station
link is joined, whether the portal is running, and the calls made so far. `Resting` is the
invariant between two operations; `wp_begin` and `wp_tick` show that the operations restore it and
that no call on the way breaks the exclusion of AP and station.
-/

set_option autoImplicit false
set_option relaxedAutoImplicit false

namespace LibreSwitch.Net

open LibreSwitch.Library LibreSwitch.Domain

/-! ### Types -/

/-- `ProvState`. -/
inductive ProvState
  | apPortal
  | testingCreds
  | identityBootstrap
  | operational
  | failed
  deriving DecidableEq, Repr

def kMaxSsid : ℕ := 33

def kMaxPass : ℕ := 64

/-- `ProvisioningCredentials`; the texts are the C strings in its buffers. -/
structure ProvisioningCredentials where
  ssid : Bytes := []
  pass : Bytes := []
  token : Bytes := []
  valid : Bool := false
  deriving DecidableEq, Repr

def ProvisioningCredentials.hasToken (creds : ProvisioningCredentials) : Bool := creds.token ≠ []

/-- `ProvConfig`, with the source's defaults. -/
structure ProvConfig where
  apSsid : Bytes
  apPass : Bytes
  staTimeoutMs : UInt32 := 20000
  apIdleTimeoutMs : UInt32 := 600000

/-! ### The seams -/

/-- The calls of the service on `WifiControl`, `PortalServer`, `Enrollment` and `KvStore`, and the
portal's decision on a submission. -/
inductive ProvCall
  | startAp (ssid pass : Bytes)
  | stopAp
  | connectSta (ssid pass : Bytes) (timeoutMs : UInt32)
  | disconnectSta
  | startPortal
  | stopPortal
  | poll
  | accepts (creds : ProvisioningCredentials)
  | setMessage (message : String)
  | enroll (token : Option Bytes)
  | hasOperationalCert
  | setBlob (key data : Bytes)
  | getBlob (key : Bytes) (bufLen : ℕ)

/-- What the seams answer. -/
abbrev ProvAns : ProvCall → Type
  | .startAp _ _ => Bool
  | .connectSta _ _ _ => Bool
  | .poll => List ProvisioningCredentials
  | .accepts _ => Bool
  | .enroll _ => Bool
  | .hasOperationalCert => Bool
  | .setBlob _ _ => Bool
  | .getBlob _ _ => ℕ × Bytes
  | _ => Unit

/-! ### The service -/

/-- `ProvisioningService`, apart from its seams. -/
structure ProvisioningService where
  cfg : ProvConfig
  state : ProvState := .apPortal
  startedAt : Millis := 0
  stateSince : Millis := 0
  idleTimedOut : Bool := false
  pending : ProvisioningCredentials := {}

namespace ProvisioningService

open Prog (ask)

def enter (service : ProvisioningService) (state : ProvState) (now : Millis) :
    ProvisioningService :=
  { service with state := state, stateSince := now }

def timedOut (service : ProvisioningService) (now : Millis) : Bool :=
  now - service.startedAt ≥ service.cfg.apIdleTimeoutMs

def openPortal (service : ProvisioningService) (now : Millis) :
    Prog ProvCall ProvAns ProvisioningService := do
  let _ ← ask (ProvCall.startAp service.cfg.apSsid service.cfg.apPass)
  ask ProvCall.startPortal
  return service.enter .apPortal now

def hasStoredCreds : Prog ProvCall ProvAns Bool := do
  let ssid ← ask (ProvCall.getBlob (ascii "sta_ssid") kMaxSsid)
  return ssid.1 > 0

def tryStoredConnect (service : ProvisioningService) : Prog ProvCall ProvAns Bool := do
  let ssid ← ask (ProvCall.getBlob (ascii "sta_ssid") kMaxSsid)
  if ssid.1 = 0 then return false
  else
    let pass ← ask (ProvCall.getBlob (ascii "sta_pass") kMaxPass)
    ask (ProvCall.connectSta (cString ssid.2) (cString pass.2) service.cfg.staTimeoutMs)

/-- `hasStoredCreds() && enroll_.hasOperationalCert()`. -/
def isProvisioned : Prog ProvCall ProvAns Bool := do
  let stored ← hasStoredCreds
  if stored then ask ProvCall.hasOperationalCert
  else return false

/-- `begin`. The state it returns is the state it leaves. -/
def begin (service : ProvisioningService) (now : Millis) :
    Prog ProvCall ProvAns ProvisioningService := do
  let service := { service with startedAt := now }
  let provisioned ← isProvisioned
  if provisioned then
    let joined ← service.tryStoredConnect
    if joined then return service.enter .operational now
    else service.openPortal now
  else service.openPortal now

def persistCreds (creds : ProvisioningCredentials) : Prog ProvCall ProvAns Unit := do
  let _ ← ask (ProvCall.setBlob (ascii "sta_ssid") (creds.ssid ++ [0]))
  let _ ← ask (ProvCall.setBlob (ascii "sta_pass") (creds.pass ++ [0]))
  return ()

/-- `runEnrollment`: whether it succeeded, and the service in its state. -/
def runEnrollment (service : ProvisioningService) :
    Prog ProvCall ProvAns (Bool × ProvisioningService) := do
  let enrolled ← ask
    (ProvCall.enroll (if service.pending.hasToken then some service.pending.token else none))
  return (enrolled, { service with state := .identityBootstrap })

def onTestFailed (service : ProvisioningService) :
    Prog ProvCall ProvAns ProvisioningService := do
  ask ProvCall.disconnectSta
  let service ← openPortal { service with state := .failed } service.startedAt
  ask (ProvCall.setMessage "Could not connect. Check password and retry.")
  return service

/-- The part of `runSequentialTest` after a successful join. -/
def afterJoin (service : ProvisioningService) : Prog ProvCall ProvAns ProvisioningService := do
  persistCreds service.pending
  let (enrolled, service) ← service.runEnrollment
  if !enrolled then service.onTestFailed
  else return { service with state := .operational }

/-- `runSequentialTest`: the AP goes down before the station is tried. -/
def runSequentialTest (service : ProvisioningService) :
    Prog ProvCall ProvAns ProvisioningService := do
  let service := service.enter .testingCreds service.startedAt
  ask (ProvCall.setMessage "Testing… the switch will leave this network.")
  ask ProvCall.stopPortal
  ask ProvCall.stopAp
  let joined ← ask
    (ProvCall.connectSta service.pending.ssid service.pending.pass service.cfg.staTimeoutMs)
  if !joined then service.onTestFailed
  else service.afterJoin

def onCredentialsSubmitted (service : ProvisioningService) (creds : ProvisioningCredentials) :
    Prog ProvCall ProvAns ProvisioningService :=
  if !creds.valid then do
    ask (ProvCall.setMessage "Invalid: SSID required")
    return service
  else runSequentialTest { service with pending := creds }

/-- The submissions of one poll, each handled if the portal still takes it. -/
def playPoll : List ProvisioningCredentials → ProvisioningService →
    Prog ProvCall ProvAns ProvisioningService
  | [], service => return service
  | creds :: rest, service => do
    let accepted ← ask (ProvCall.accepts creds)
    if accepted then
      let service ← service.onCredentialsSubmitted creds
      playPoll rest service
    else playPoll rest service

def tick (service : ProvisioningService) (now : Millis) :
    Prog ProvCall ProvAns ProvisioningService :=
  if service.state = .apPortal then do
    let submissions ← ask ProvCall.poll
    let service ← playPoll submissions service
    return if service.timedOut now then { service with idleTimedOut := true } else service
  else return service

/-! ### The radio, the portal and the calls so far -/

/-- A call of the service with its answer. -/
abbrev ProvEvent := Prog.Event ProvCall ProvAns

/-- The radio and the portal, whether `begin` was called, and the calls made so far. -/
structure World where
  begun : Bool := false
  apUp : Bool := false
  joined : Bool := false
  portalRunning : Bool := false
  events : List ProvEvent := []

/-- What an answered call does to the radio and the portal. A join lasts from a successful
`connectSta` to the next `disconnectSta`. -/
def World.moved (world : World) : (request : ProvCall) → ProvAns request → World
  | .startAp _ _, started => { world with apUp := world.apUp || started }
  | .stopAp, _ => { world with apUp := false }
  | .connectSta _ _ _, associated => { world with joined := world.joined || associated }
  | .disconnectSta, _ => { world with joined := false }
  | .startPortal, _ => { world with portalRunning := true }
  | .stopPortal, _ => { world with portalRunning := false }
  | _, _ => world

/-- The world after an answered call. -/
def World.after (world : World) (request : ProvCall) (reply : ProvAns request) : World :=
  { world.moved request reply with events := world.events ++ [⟨request, reply⟩] }

@[simp]
theorem World.begun_after (world : World) (request : ProvCall) (reply : ProvAns request) :
    (world.after request reply).begun = world.begun := by
  cases request <;> rfl

/-- The answers that are possible: the soft AP starts, and the portal takes a submission only while
it is running. Everything else is arbitrary. -/
def World.Allows (world : World) : (request : ProvCall) → ProvAns request → Prop
  | .startAp _ _, started => started = true
  | .accepts _, accepted => accepted = true → world.portalRunning = true
  | _, _ => True

/-- The seams around the service. -/
def setting : Setting ProvCall ProvAns World where
  answers world request reply world' :=
    world.Allows request reply ∧ world' = world.after request reply

/-- AP and station exclude each other. -/
def exclusive (world : World) : ProvCall → Prop
  | .connectSta _ _ _ => world.apUp = false
  | .startAp _ _ => world.joined = false
  | _ => True

/-- The operations of the service. -/
inductive Operation
  | begin (now : Millis)
  | tick (now : Millis)

/-- The service, with the programs of its operations. -/
def component : Component ProvCall ProvAns ProvisioningService Operation where
  handle service
    | .begin now => service.begin now
    | .tick now => service.tick now

/-- `begin` is called once, and ticks come after it. -/
def starts (world : World) : Operation → World → Prop
  | .begin _, world' => world.begun = false ∧ world' = { world with begun := true }
  | .tick _, world' => world.begun = true ∧ world' = world

/-! ### The invariant at rest -/

/-- What a portal session that leads to `Operational` did since the submission was taken. -/
def joinedAndEnrolled (creds : ProvisioningCredentials) (timeoutMs : UInt32)
    (ssidStored passStored : Bool) : List ProvEvent :=
  [⟨.accepts creds, true⟩, ⟨.setMessage "Testing… the switch will leave this network.", ()⟩,
    ⟨.stopPortal, ()⟩, ⟨.stopAp, ()⟩, ⟨.connectSta creds.ssid creds.pass timeoutMs, true⟩,
    ⟨.setBlob (ascii "sta_ssid") (creds.ssid ++ [0]), ssidStored⟩,
    ⟨.setBlob (ascii "sta_pass") (creds.pass ++ [0]), passStored⟩,
    ⟨.enroll (if creds.hasToken then some creds.token else none), true⟩]

/-- The calls that end in `Operational`: a `begin` that found credentials and a certificate and
joined, or a submission whose join and enrollment succeeded. After them the portal only turns
submissions away. -/
inductive Entered : List ProvEvent → Prop
  | begin (probe ssid pass : ℕ × Bytes) (timeoutMs : UInt32) (hstored : probe.1 > 0)
      (hssid : ssid.1 ≠ 0) :
      Entered [⟨.getBlob (ascii "sta_ssid") kMaxSsid, probe⟩, ⟨.hasOperationalCert, true⟩,
        ⟨.getBlob (ascii "sta_ssid") kMaxSsid, ssid⟩, ⟨.getBlob (ascii "sta_pass") kMaxPass, pass⟩,
        ⟨.connectSta (cString ssid.2) (cString pass.2) timeoutMs, true⟩]
  | submission (before : List ProvEvent) (creds : ProvisioningCredentials) (timeoutMs : UInt32)
      (ssidStored passStored : Bool) (hvalid : creds.valid = true) :
      Entered (before ++ joinedAndEnrolled creds timeoutMs ssidStored passStored)
  | refused (events : List ProvEvent) (creds : ProvisioningCredentials)
      (hentered : Entered events) : Entered (events ++ [⟨.accepts creds, false⟩])

/-- The service waits at its portal. -/
structure AtPortal (service : ProvisioningService) (world : World) : Prop where
  state_eq : service.state = .apPortal
  apUp : world.apUp = true
  portalRunning : world.portalRunning = true
  not_joined : world.joined = false

/-- The service is in operation. -/
structure Online (service : ProvisioningService) (world : World) : Prop where
  state_eq : service.state = .operational
  joined : world.joined = true
  apDown : world.apUp = false
  portalStopped : world.portalRunning = false
  entered : Entered world.events

/-- What an operation leaves: the service at its portal or in operation. -/
structure Settled (service : ProvisioningService) (world : World) : Prop where
  begun : world.begun = true
  rests : AtPortal service world ∨ Online service world

/-- The invariant between two operations: nothing has begun, or the service is settled. -/
def Resting (service : ProvisioningService) (world : World) : Prop :=
  world = {} ∨ Settled service world

/-! ### The operations restore it -/

/-- The rule for a call of the service. -/
theorem wp_call {request : ProvCall} {resume : ProvAns request → Prog ProvCall ProvAns
    ProvisioningService} {post : ProvisioningService → World → Prop} {world : World}
    (hguard : exclusive world request)
    (hresume : ∀ reply, world.Allows request reply →
      setting.wp exclusive (resume reply) post (world.after request reply)) :
    setting.wp exclusive (.call request resume) post world := by
  apply Setting.quiet_alone.wp_call_iff.mpr
  refine ⟨hguard, ?_⟩
  rintro reply world' ⟨hallows, rfl⟩
  exact hresume reply hallows

theorem wp_return {service : ProvisioningService} {post : ProvisioningService → World → Prop}
    {world : World} (hpost : post service world) :
    setting.wp exclusive (.ret service) post world :=
  Setting.quiet_alone.wp_ret_iff.mpr hpost

/-- Opening the portal leads to it from every world without a station link. -/
theorem wp_openPortal (service : ProvisioningService) (now : Millis) {world : World}
    (hbegun : world.begun = true) (hjoined : world.joined = false) :
    setting.wp exclusive (service.openPortal now)
      (fun service' world' ↦ world'.begun = true ∧ AtPortal service' world') world := by
  unfold openPortal
  simp only [Prog.ask_bind, Prog.pure_eq]
  refine wp_call hjoined fun started hstarted ↦ ?_
  refine wp_call trivial fun _ _ ↦ ?_
  apply wp_return
  refine ⟨hbegun, rfl, ?_, rfl, hjoined⟩
  change (world.apUp || started) = true
  rw [hstarted, Bool.or_true]

/-- Opening the portal settles the service. -/
theorem wp_openPortal_settled (service : ProvisioningService) (now : Millis) {world : World}
    (hbegun : world.begun = true) (hjoined : world.joined = false) :
    setting.wp exclusive (service.openPortal now) Settled world := by
  refine Setting.wp_mono ?_ (wp_openPortal service now hbegun hjoined)
  rintro service' world' ⟨hbegun', hrest⟩
  exact ⟨hbegun', .inl hrest⟩

/-- A message to the browser changes nothing else. -/
theorem wp_setMessage {service : ProvisioningService} {world : World} (message : String)
    (hbegun : world.begun = true) (hrest : AtPortal service world) :
    setting.wp exclusive
      (.call (.setMessage message) fun _ ↦ .ret service) Settled world := by
  refine wp_call trivial fun _ _ ↦ wp_return ⟨hbegun, .inl ?_⟩
  exact ⟨hrest.state_eq, hrest.apUp, hrest.portalRunning, hrest.not_joined⟩

/-- A failed test goes back to the portal. -/
theorem wp_onTestFailed (service : ProvisioningService) {world : World}
    (hbegun : world.begun = true) :
    setting.wp exclusive service.onTestFailed Settled world := by
  unfold onTestFailed
  simp only [Prog.ask_bind, Prog.pure_eq]
  refine wp_call trivial fun _ _ ↦ ?_
  apply Setting.wp_bind
  refine Setting.wp_mono ?_ (wp_openPortal _ _ hbegun rfl)
  rintro service' world' ⟨hbegun', hrest⟩
  exact wp_setMessage _ hbegun' hrest

/-- A submission that was taken ends at the portal or in operation. -/
theorem wp_onCredentialsSubmitted (service : ProvisioningService)
    (creds : ProvisioningCredentials) {world : World} {before : List ProvEvent}
    (hbegun : world.begun = true) (hrest : AtPortal service world)
    (hevents : world.events = before ++ [⟨.accepts creds, true⟩]) :
    setting.wp exclusive (service.onCredentialsSubmitted creds) Settled world := by
  unfold onCredentialsSubmitted
  split_ifs with hvalid
  · simp only [Prog.ask_bind, Prog.pure_eq]
    exact wp_setMessage _ hbegun hrest
  · have hvalid' : creds.valid = true := by simpa using hvalid
    unfold runSequentialTest
    simp only [Prog.ask_bind]
    refine wp_call trivial fun ⟨⟩ _ ↦ ?_
    refine wp_call trivial fun ⟨⟩ _ ↦ ?_
    refine wp_call trivial fun ⟨⟩ _ ↦ ?_
    refine wp_call rfl fun joined _ ↦ ?_
    cases joined with
    | false => exact wp_onTestFailed _ (by simpa only [World.begun_after] using hbegun)
    | true =>
      simp only [Bool.not_true, Bool.false_eq_true, ↓reduceIte, afterJoin, persistCreds,
        runEnrollment, Prog.ask_bind, Prog.call_bind, Prog.pure_eq, Prog.ret_bind]
      refine wp_call trivial fun ssidStored _ ↦ ?_
      refine wp_call trivial fun passStored _ ↦ ?_
      refine wp_call trivial fun enrolled _ ↦ ?_
      cases enrolled with
      | false => exact wp_onTestFailed _ (by simpa only [World.begun_after] using hbegun)
      | true =>
        apply wp_return
        have hentered := Entered.submission before creds service.cfg.staTimeoutMs ssidStored
          passStored hvalid'
        refine ⟨by simpa only [World.begun_after] using hbegun, .inr
          ⟨rfl, Bool.or_true _, rfl, rfl, ?_⟩⟩
        simp only [World.after, World.moved, hevents, enter, List.append_assoc, List.cons_append,
          List.nil_append]
        exact hentered

/-- A poll handles its submissions one after the other. -/
theorem wp_playPoll (submissions : List ProvisioningCredentials) (service : ProvisioningService)
    {world : World} (hsettled : Settled service world) :
    setting.wp exclusive (playPoll submissions service) Settled world := by
  induction submissions generalizing service world with
  | nil => exact wp_return hsettled
  | cons creds rest ih =>
    obtain ⟨hbegun, hrests⟩ := hsettled
    unfold playPoll
    simp only [Prog.ask_bind]
    refine wp_call trivial fun accepted haccepted ↦ ?_
    cases accepted with
    | false =>
      simp only [Bool.false_eq_true, ↓reduceIte]
      refine ih service ⟨hbegun, ?_⟩
      rcases hrests with hportal | honline
      · exact .inl ⟨hportal.state_eq, hportal.apUp, hportal.portalRunning, hportal.not_joined⟩
      · exact .inr ⟨honline.state_eq, honline.joined, honline.apDown, honline.portalStopped,
          .refused _ creds honline.entered⟩
    | true =>
      have hrunning : world.portalRunning = true := haccepted rfl
      simp only [↓reduceIte]
      rcases hrests with hportal | honline
      · apply Setting.wp_bind
        refine Setting.wp_mono (fun service' world' ↦ ih service') ?_
        exact wp_onCredentialsSubmitted service creds hbegun
          ⟨hportal.state_eq, hportal.apUp, hportal.portalRunning, hportal.not_joined⟩ rfl
      · rw [honline.portalStopped] at hrunning
        cases hrunning

theorem wp_tick (service : ProvisioningService) (now : Millis) {world : World}
    (hsettled : Settled service world) :
    setting.wp exclusive (service.tick now) Settled world := by
  unfold tick
  split_ifs with hstate
  · simp only [Prog.ask_bind, Prog.pure_eq]
    refine wp_call trivial fun submissions _ ↦ ?_
    apply Setting.wp_bind
    have hsettled' : Settled service (world.after .poll submissions) := by
      obtain ⟨hbegun, hportal | honline⟩ := hsettled
      · exact ⟨hbegun, .inl ⟨hstate, hportal.apUp, hportal.portalRunning, hportal.not_joined⟩⟩
      · rw [honline.state_eq] at hstate
        cases hstate
    refine Setting.wp_mono ?_ (wp_playPoll submissions service hsettled')
    rintro service' world' ⟨hbegun, hrests⟩
    apply wp_return
    split_ifs
    · refine ⟨hbegun, hrests.imp ?_ ?_⟩
      · rintro ⟨hstate', hap, hportal, hjoined⟩
        exact ⟨hstate', hap, hportal, hjoined⟩
      · rintro ⟨hstate', hjoined, hap, hportal, hentered⟩
        exact ⟨hstate', hjoined, hap, hportal, hentered⟩
    · exact ⟨hbegun, hrests⟩
  · exact wp_return hsettled

theorem wp_begin (service : ProvisioningService) (now : Millis) :
    setting.wp exclusive (service.begin now) Settled { begun := true } := by
  unfold begin isProvisioned hasStoredCreds
  simp only [Prog.ask_bind, Prog.pure_eq, Prog.call_bind, Prog.ret_bind]
  refine wp_call trivial fun probe _ ↦ ?_
  by_cases hstored : probe.1 > 0
  · simp only [hstored, decide_true, ↓reduceIte, Prog.ask_bind]
    refine wp_call trivial fun certified _ ↦ ?_
    cases certified with
    | false => exact wp_openPortal_settled _ now rfl rfl
    | true =>
      simp only [↓reduceIte, tryStoredConnect, Prog.ask_bind, Prog.call_bind, Prog.pure_eq]
      refine wp_call trivial fun ssid _ ↦ ?_
      by_cases hssid : ssid.1 = 0
      · simp only [hssid, ↓reduceIte, Prog.ret_bind, Bool.false_eq_true]
        exact wp_openPortal_settled _ now rfl rfl
      · simp only [hssid, ↓reduceIte, Prog.call_bind, Prog.ask_bind]
        refine wp_call trivial fun pass _ ↦ ?_
        refine wp_call rfl fun joined _ ↦ ?_
        cases joined with
        | false => exact wp_openPortal_settled _ now rfl rfl
        | true =>
          exact wp_return ⟨rfl, .inr ⟨rfl, rfl, rfl, rfl,
            .begin probe ssid pass service.cfg.staTimeoutMs hstored hssid⟩⟩
  · simp only [hstored, decide_false, ↓reduceIte, Prog.ret_bind, Bool.false_eq_true]
    exact wp_openPortal_settled _ now rfl rfl

/-- Every operation restores the invariant, and keeps AP and station apart on the way. -/
theorem wp_handle (service : ProvisioningService) (operation : Operation) (world world' : World)
    (hresting : Resting service world) (hstart : starts world operation world') :
    setting.wp exclusive (component.handle service operation) Resting world' := by
  refine Setting.wp_mono (fun _ _ ↦ Or.inr) ?_
  cases operation with
  | begin now =>
    obtain ⟨hbegun, rfl⟩ := hstart
    obtain rfl | hsettled := hresting
    · exact wp_begin service now
    · rw [hsettled.begun] at hbegun
      cases hbegun
  | tick now =>
    obtain ⟨hbegun, rfl⟩ := hstart
    obtain rfl | hsettled := hresting
    · cases hbegun
    · exact wp_tick service now hsettled

/-! ### All runs -/

/-- AP and station are never run together, and the service rests at its portal or in operation. -/
theorem exclusive_and_resting (cfg : ProvConfig)
    {phase : Component.Phase ProvCall ProvAns ProvisioningService Operation} {world : World}
    (hsteps : component.Steps setting starts (.idle { cfg := cfg }, {}) (phase, world)) :
    (∀ operation ssid pass timeoutMs resume,
      phase = .busy operation (.call (.connectSta ssid pass timeoutMs) resume) →
        world.apUp = false) ∧
    (∀ operation ssid pass resume, phase = .busy operation (.call (.startAp ssid pass) resume) →
      world.joined = false) ∧
    (∀ service, phase = .idle service → world.begun = true →
      AtPortal service world ∨ Online service world) := by
  have hmaintained : Component.Maintains setting exclusive Resting (phase, world) :=
    Component.invariant_rule
      (fun _ _ _ _ hinterfere ↦ absurd hinterfere (Setting.quiet_alone _ _))
      wp_handle hsteps (Or.inl rfl)
  refine ⟨?_, ?_, ?_⟩
  · rintro operation ssid pass timeoutMs resume rfl
    exact (Setting.wp_guard hmaintained : exclusive world (.connectSta ssid pass timeoutMs))
  · rintro operation ssid pass resume rfl
    exact (Setting.wp_guard hmaintained : exclusive world (.startAp ssid pass))
  · rintro service rfl hbegun
    obtain rfl | hsettled := (hmaintained : Resting service world)
    · cases hbegun
    · exact hsettled.rests

/-- The service of a new device, and the world after its `begin`. -/
def newDevice : ProvisioningService :=
  { cfg := { apSsid := ascii "Switch-A1B2", apPass := ascii "pass1234" } }

def newDeviceBegun : World :=
  ((World.after { begun := true } (.getBlob (ascii "sta_ssid") kMaxSsid) (0, [])).after
    (.startAp (ascii "Switch-A1B2") (ascii "pass1234")) true).after .startPortal ()

theorem exclusive_and_resting_witness :
    AtPortal (newDevice.enter .apPortal 0) newDeviceBegun ∨
      Online (newDevice.enter .apPortal 0) newDeviceBegun := by
  have hsteps : component.Steps setting starts (.idle { cfg := newDevice.cfg }, {})
      (.idle (newDevice.enter .apPortal 0), newDeviceBegun) := by
    have hstart : starts {} (.begin 0) { begun := true } := ⟨rfl, rfl⟩
    have hread (world : World) : setting.answers world (.getBlob (ascii "sta_ssid") kMaxSsid)
        (0, []) (world.after (.getBlob (ascii "sta_ssid") kMaxSsid) (0, [])) := ⟨trivial, rfl⟩
    have hap (world : World) (ssid pass : Bytes) :
        setting.answers world (.startAp ssid pass) true (world.after (.startAp ssid pass) true) :=
      ⟨rfl, rfl⟩
    have hportal (world : World) :
        setting.answers world .startPortal () (world.after .startPortal ()) := ⟨trivial, rfl⟩
    apply Relation.ReflTransGen.head (.start hstart)
    apply Relation.ReflTransGen.head (.answer (hread _))
    apply Relation.ReflTransGen.head (.answer (hap _ _ _))
    apply Relation.ReflTransGen.head (.answer (hportal _))
    exact .single .finish
  exact (exclusive_and_resting newDevice.cfg hsteps).2.2 _ rfl rfl

end ProvisioningService

end LibreSwitch.Net
