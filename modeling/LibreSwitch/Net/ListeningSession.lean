import LibreSwitch.Net.MqttService

/-!
# Sessions that listen

The MQTT service with a broker client that may refuse any call and lose the connection at any time.
A `Session` is the client's current session with the broker: whether it is up, and what was asked
to be subscribed in it. `onConnected` asks once in every session, for all commands of the device,
and ignores the answer. So a session in which the client refused is kept, online and deaf, as long
as the connection lasts. `listens_iff` says that these are the only sessions that do not listen, and
that there are none when the client refuses only when the connection is gone.
-/

set_option autoImplicit false
set_option relaxedAutoImplicit false

namespace LibreSwitch.Net

open LibreSwitch.Library LibreSwitch.Domain

/-- The session of a client with the broker. -/
structure Session where
  up : Bool := false
  /-- The topics that were asked to be subscribed, with the answers of the client. -/
  asked : List (Bytes × Bool) := []
  deriving DecidableEq, Repr

namespace Session

/-- The client accepted a subscription. -/
def Listens (session : Session) (filter : Bytes) : Prop := (filter, true) ∈ session.asked

/-- The client refused a subscription. -/
def Refused (session : Session) : Prop := ∃ filter, (filter, false) ∈ session.asked

/-- A client that succeeds or fails as it likes. A connection starts a session, without the
subscriptions of the last one if it is a clean one. -/
def setting : Setting MqttCall MqttAns Session where
  answers session request reply session' :=
    match request with
    | .connected => reply = session.up ∧ session' = session
    | .connect params => session' =
        if reply then ⟨true, if params.cleanSession then [] else session.asked⟩
        else { session with up := false }
    | .subscribe topic _ => session' = { session with asked := session.asked ++ [(topic, reply)] }
    | .disconnect => session' = { session with up := false }
    | _ => session' = session
  interferes session session' := session' = { session with up := false }

/-- A subscription is refused only when the connection is gone. -/
def DropsRefused (session : Session) (request : MqttCall) (reply : MqttAns request) : Prop :=
  match request with
  | .subscribe _ _ => reply = true ∨ session.up = false
  | _ => True

end Session

namespace MqttService

/-- A tick may start at any time. -/
def starts (session : Session) (_ : Tick) (session' : Session) : Prop := session' = session

/-- The filter for all commands of the device. -/
def commandFilter (topics : MqttTopics) : Bytes := topics.full (ascii "cmd/#")

/-- In a session that is up, exactly the filter was asked for, once. -/
def Asked (filter : Bytes) (session : Session) : Prop :=
  session.up = true → ∃ answer, session.asked = [(filter, answer)]

theorem asked_of_interferes {filter : Bytes} (session session' : Session)
    (_ : Asked filter session) (hinterfere : Session.setting.interferes session session') :
    Asked filter session' := by
  obtain rfl : session' = { session with up := false } := hinterfere
  exact fun hup ↦ absurd hup Bool.false_ne_true

/-- No guard is needed on what a tick asks. -/
abbrev unguarded (_ : Session) (_ : MqttCall) : Prop := True

variable {service : MqttService} {filter : Bytes} {session : Session}

/-- The calls on an open connection leave the subscriptions alone. -/
theorem asked_of_serves (session : Session) (request : MqttCall) (reply : MqttAns request)
    (session' : Session) (hserves : Serves request) (hasked : Asked filter session)
    (hanswers : Session.setting.answers session request reply session') :
    Asked filter session' := by
  cases request with
  | connected => exact hserves.elim
  | connect params => exact hserves.elim
  | subscribe topic qos => exact hserves.elim
  | disconnect =>
    obtain rfl : session' = { session with up := false } := hanswers
    exact fun hup ↦ absurd hup Bool.false_ne_true
  | _ =>
    obtain rfl : session' = session := hanswers
    exact hasked

theorem wp_serve (ts : UInt32) (hasked : Asked filter session) :
    Session.setting.wp unguarded (service.serve ts)
      (fun next session' ↦ next = service ∧ Asked filter session') session := by
  refine Setting.wp_mono (fun next session' hserved ↦ ?_)
    (Setting.wp_of_asksOnly asked_of_interferes (fun _ _ _ _ ↦ trivial) asked_of_serves
      (asksOnly_serve service ts) hasked)
  obtain ⟨⟨trace, hruns⟩, hasked'⟩ := hserved
  exact ⟨serve_runs hruns, hasked'⟩

/-- Nothing was asked to be subscribed yet. -/
def Fresh (session : Session) : Prop := session.asked = []

/-- A session that was just started is asked for the commands of the device, once. -/
theorem wp_onConnected (hfits : (service.topics.cmdWildcard kMaxTopicLen).2 = true)
    (hfresh : Fresh session) : Session.setting.wp unguarded service.onConnected
      (fun _ ↦ Asked (commandFilter service.topics)) session := by
  have hstable : ∀ session session', Fresh session →
      Session.setting.interferes session session' → Fresh session' := by
    rintro session _ hfresh rfl
    exact hfresh
  simp only [onConnected, Prog.ask_bind, Prog.pure_eq]
  refine Setting.wp_call_of_stable hstable hfresh (fun _ _ ↦ trivial) ?_
  rintro reached published _ hreached rfl
  refine Setting.wp_call_of_stable hstable hreached (fun _ _ ↦ trivial) ?_
  rintro told answer _ htold rfl
  have htopic : (service.topics.cmdWildcard kMaxTopicLen).1 = commandFilter service.topics :=
    MqttTopics.fst_fmt hfits
  apply Setting.wp_ret_of_stable
  · exact asked_of_interferes
  · intro _
    exact ⟨answer, by rw [htopic, htold, List.nil_append]⟩

theorem wp_attemptConnect (now : Millis) (seed : UInt32)
    (hfits : (service.topics.cmdWildcard kMaxTopicLen).2 = true) :
    Session.setting.wp unguarded (service.attemptConnect now seed) (fun next session' ↦
      next.topics = service.topics ∧ Asked (commandFilter service.topics) session') session := by
  have hnothing : ∀ session session', True → Session.setting.interferes session session' → True :=
    fun _ _ _ _ ↦ trivial
  rw [attemptConnect, Prog.ask_bind]
  refine Setting.wp_call_of_stable hnothing trivial (fun _ _ ↦ trivial) ?_
  rintro reached connected _ - rfl
  cases connected with
  | true =>
    have hfresh : Fresh ⟨true, []⟩ := rfl
    refine Setting.wp_bind (Setting.wp_mono (fun _ session' hasked ↦ ?_)
      (wp_onConnected hfits hfresh))
    exact Setting.wp_ret_of_stable
      (fun _ _ hpost hinterfere ↦ ⟨hpost.1, asked_of_interferes _ _ hpost.2 hinterfere⟩)
      ⟨rfl, hasked⟩
  | false =>
    exact Setting.wp_ret_of_stable
      (fun _ _ hpost hinterfere ↦ ⟨hpost.1, asked_of_interferes _ _ hpost.2 hinterfere⟩)
      ⟨rfl, fun hup ↦ absurd hup Bool.false_ne_true⟩

theorem wp_tick (tick : Tick) (hfits : (service.topics.cmdWildcard kMaxTopicLen).2 = true)
    (hasked : Asked (commandFilter service.topics) session) :
    Session.setting.wp unguarded (component.handle service tick) (fun next session' ↦
      next.topics = service.topics ∧ Asked (commandFilter service.topics) session') session := by
  simp only [component, MqttService.tick, Prog.ask_bind]
  refine Setting.wp_call_of_stable asked_of_interferes hasked (fun _ _ ↦ trivial) ?_
  rintro reached connected _ hreached ⟨-, rfl⟩
  cases connected with
  | true =>
    refine Setting.wp_mono (fun next session' hserved ↦ ?_) (wp_serve tick.tsForPublish hreached)
    exact ⟨congrArg MqttService.topics hserved.1, hserved.2⟩
  | false =>
    simp only [Bool.false_eq_true, ↓reduceIte]
    split_ifs with hready
    · exact wp_attemptConnect tick.now tick.jitterSeed hfits
    · exact Setting.wp_ret_of_stable
        (fun _ _ hpost hinterfere ↦ ⟨hpost.1, asked_of_interferes _ _ hpost.2 hinterfere⟩)
        ⟨rfl, hreached⟩

/-! ### All runs -/

/-- In every run, a session that is up when the service rests was asked for the filter. -/
theorem asked_of_steps {service service' : MqttService}
    (hfits : (service.topics.cmdWildcard kMaxTopicLen).2 = true) {session : Session}
    (hsteps : component.Steps Session.setting starts (.idle service, {})
      (.idle service', session)) :
    Asked (commandFilter service.topics) session := by
  have hmaintains : Component.Maintains Session.setting unguarded
      (fun reached session ↦ reached.topics = service.topics ∧
        Asked (commandFilter service.topics) session)
      ((.idle service' : Component.Phase MqttCall MqttAns MqttService Tick), session) := by
    refine Component.invariant_rule ?_ ?_ hsteps ⟨rfl, fun hup ↦ absurd hup Bool.false_ne_true⟩
    · exact fun _ _ _ hrest hinterfere ↦ ⟨hrest.1, asked_of_interferes _ _ hrest.2 hinterfere⟩
    · rintro reached tick world _ ⟨htopics, hasked⟩ rfl
      rw [← htopics] at hfits hasked ⊢
      exact wp_tick tick hfits hasked
  exact hmaintains.2

/-- The service connects with clean sessions only. -/
def Clean : MqttCall → Prop
  | .connect params => params.cleanSession = true
  | _ => True

theorem clean_of_serves : ∀ request, Serves request → Clean request
  | .connect _, hserves => hserves.elim
  | .connected, _ => trivial
  | .publish _ _ _, _ => trivial
  | .subscribe _ _, _ => trivial
  | .loop, _ => trivial
  | .disconnect, _ => trivial
  | .pop, _ => trivial
  | .submit _, _ => trivial
  | .onOtaManifest _, _ => trivial
  | .onOtaConfirm, _ => trivial

theorem asksOnly_tick (service : MqttService) (tick : Tick) :
    (component.handle service tick).AsksOnly Clean := by
  simp only [component, MqttService.tick, Prog.ask_bind]
  refine ⟨trivial, fun connected ↦ ?_⟩
  dsimp only
  split_ifs
  · exact (asksOnly_serve service _).mono clean_of_serves
  · refine Prog.asksOnly_ask_bind.mpr ⟨rfl, fun accepted ↦ ?_⟩
    split_ifs
    · refine Prog.asksOnly_bind ?_ fun _ ↦ trivial
      exact ⟨trivial, fun _ ↦ ⟨trivial, fun _ ↦ trivial⟩⟩
    · trivial
  · trivial

/-- Where a refused subscription means that the connection is gone, no session that is up was
refused one. -/
theorem not_refused_of_answers (session : Session) (request : MqttCall) (reply : MqttAns request)
    (session' : Session) (hclean : Clean request) (hkept : session.up = true → ¬ session.Refused)
    (hanswers : (Session.setting.restrict Session.DropsRefused).answers session request reply
      session') : session'.up = true → ¬ session'.Refused := by
  obtain ⟨hanswers, hdrops⟩ := hanswers
  cases request with
  | connect params =>
    have hparams : params.cleanSession = true := hclean
    cases reply with
    | true =>
      obtain rfl : session' = ⟨true, if params.cleanSession then [] else session.asked⟩ := hanswers
      rintro - ⟨filter, hrefused⟩
      rw [hparams] at hrefused
      exact absurd hrefused List.not_mem_nil
    | false =>
      obtain rfl : session' = { session with up := false } := hanswers
      exact fun hup ↦ absurd hup Bool.false_ne_true
  | subscribe topic qos =>
    obtain rfl : session' = { session with asked := session.asked ++ [(topic, reply)] } := hanswers
    rintro hup ⟨filter, hrefused⟩
    rcases hdrops with rfl | hdown
    · refine hkept hup ⟨filter, ?_⟩
      simpa using hrefused
    · exact absurd hup (by simp [hdown])
  | disconnect =>
    obtain rfl : session' = { session with up := false } := hanswers
    exact fun hup ↦ absurd hup Bool.false_ne_true
  | connected =>
    obtain ⟨-, rfl⟩ := hanswers
    exact hkept
  | _ =>
    obtain rfl : session' = session := hanswers
    exact hkept

theorem not_refused_of_steps {service service' : MqttService} {session : Session}
    (hsteps : component.Steps (Session.setting.restrict Session.DropsRefused) starts
      (.idle service, {}) (.idle service', session)) (hup : session.up = true) :
    ¬ session.Refused := by
  refine (Component.request_rule asksOnly_tick not_refused_of_answers ?_ ?_ hsteps trivial ?_).2 hup
  · rintro world tick _ hkept rfl
    exact hkept
  · rintro world _ - rfl hup
    exact absurd hup Bool.false_ne_true
  · exact fun hup ↦ absurd hup Bool.false_ne_true

/-- Exactly when a connected session listens: in every run, a session that is up when the service
rests has the subscription for the commands of the device if and only if the client did not refuse
it. So every such session listens where the client refuses only when the connection is gone. -/
theorem listens_iff (service : MqttService)
    (hfits : (service.topics.cmdWildcard kMaxTopicLen).2 = true) :
    (∀ service' session,
      component.Steps Session.setting starts (.idle service, {}) (.idle service', session) →
        session.up = true →
          (session.Listens (commandFilter service.topics) ↔ ¬ session.Refused)) ∧
    ∀ service' session, component.Steps (Session.setting.restrict Session.DropsRefused) starts
      (.idle service, {}) (.idle service', session) → session.up = true →
        session.Listens (commandFilter service.topics) := by
  have hlistens : ∀ service' session,
      component.Steps Session.setting starts (.idle service, {}) (.idle service', session) →
        session.up = true →
          (session.Listens (commandFilter service.topics) ↔ ¬ session.Refused) := by
    intro service' session hsteps hup
    obtain ⟨answer, hasked⟩ := asked_of_steps hfits hsteps hup
    rw [Session.Listens, Session.Refused, hasked]
    cases answer <;> simp
  refine ⟨hlistens, fun service' session hsteps hup ↦ ?_⟩
  exact (hlistens service' session (Component.steps_of_restrict hsteps) hup).mpr
    (not_refused_of_steps hsteps hup)

/-! ### A refused subscription -/

/-- A service that was never connected. -/
def newService : MqttService where
  topics := ⟨ascii "sw", ascii "dev01"⟩
  clientId := ascii "client-dev01"

/-- A client that connects and publishes, and answers a subscription in a given way. -/
def client (grants : Bool) (session : Session) :
    (request : MqttCall) → Option (MqttAns request × Session)
  | .connected => some (session.up, session)
  | .connect params => some (true, ⟨true, if params.cleanSession then [] else session.asked⟩)
  | .publish _ _ _ => some (true, session)
  | .subscribe topic _ =>
    some (grants, { session with asked := session.asked ++ [(topic, grants)] })
  | _ => none

/-- The session behind the first tick. -/
def firstSession (grants : Bool) : Session := ⟨true, [(commandFilter newService.topics, grants)]⟩

/-- The service behind a tick that connected. -/
def connectedService : MqttService := { newService with backoff := newService.backoff.onSuccess }

def firstTick : Tick := ⟨0, 0, 0⟩

theorem steps_firstSession (grants : Bool) : component.Steps Session.setting starts
    (.idle newService, {}) (.idle connectedService, firstSession grants) := by
  have hrespond : ∀ session request reply, client grants session request = some reply →
      Session.setting.answers session request reply.1 reply.2 := by
    intro session request reply hreply
    cases request <;> cases hreply <;> simp [Session.setting]
  have hstart : component.Step Session.setting starts (.idle newService, {})
      (.busy firstTick (component.handle newService firstTick), {}) := .start rfl
  have hresult : (component.handle newService firstTick).tryRunOn (client grants) {} =
      some (connectedService, firstSession grants) := by
    cases grants <;> rfl
  exact .head hstart (Component.steps_tryRunOn hrespond firstTick hresult)

theorem listens_iff_witness : (firstSession true).Listens (commandFilter newService.topics) ↔
    ¬ (firstSession true).Refused :=
  (listens_iff newService (by decide)).1 _ _ (steps_firstSession true) rfl

/-- The client refuses, the service is connected, and it does not listen. -/
theorem refused_session_is_kept : ¬ ∀ (service service' : MqttService) (session : Session),
    (service.topics.cmdWildcard kMaxTopicLen).2 = true →
    component.Steps Session.setting starts (.idle service, {}) (.idle service', session) →
    session.up = true → session.Listens (commandFilter service.topics) := by
  intro hall
  have hlistens := hall newService _ _ (by decide) (steps_firstSession false) rfl
  simp [Session.Listens, firstSession] at hlistens

end MqttService

end LibreSwitch.Net
