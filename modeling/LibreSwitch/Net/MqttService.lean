import Mathlib.Tactic
import LibreSwitch.Domain.ControlCoordinator
import LibreSwitch.Library.Interaction
import LibreSwitch.Net.MqttRouting
import LibreSwitch.Net.ReconnectBackoff

/-!
# The MQTT service

`MqttService` of `net/mqtt_service.h`, over the seam `MqttClient`, the command port, the sink of
system commands and the queue of pending relay states, which the control task fills. One tick is a
program over them. A `loop` of the client answers with the messages it delivers, and `onMessage`
of `MqttRouting` says what each leads to. A manifest may make the sink yield the connection
before it returns (`yieldConnection`).
-/

set_option autoImplicit false
set_option relaxedAutoImplicit false

namespace LibreSwitch.Net

open LibreSwitch.Library LibreSwitch.Domain

/-- `PendingState`: a relay state waiting to be published. -/
structure PendingState where
  ch : ℕ := 0
  state : RelayState := .off
  source : CommandSource := .local_
  deriving DecidableEq, Repr

instance : Inhabited PendingState := ⟨{}⟩

/-- `kPublishQueueDepth`. -/
def kPublishQueueDepth : ℕ := 16

/-- `MqttConnectParams`. -/
structure MqttConnectParams where
  clientId : Bytes
  user : Option Bytes := none
  pass : Option Bytes := none
  lwtTopic : Bytes
  lwtPayload : Bytes
  lwtQos : UInt8
  lwtRetain : Bool
  cleanSession : Bool
  deriving DecidableEq, Repr

/-- A message the client delivers. -/
structure Message where
  topic : Bytes
  payload : Bytes
  deriving DecidableEq, Repr

/-- The calls of a tick. -/
inductive MqttCall
  | connected
  | connect (params : MqttConnectParams)
  | publish (topic payload : Bytes) (retain : Bool)
  | subscribe (topic : Bytes) (qos : UInt8)
  | loop
  | disconnect
  | pop
  | submit (command : ControlCommand)
  | onOtaManifest (payload : Bytes)
  | onOtaConfirm

/-- What they answer; a manifest answers whether the sink yields the connection. -/
abbrev MqttAns : MqttCall → Type
  | .connected => Bool
  | .connect _ => Bool
  | .publish _ _ _ => Bool
  | .subscribe _ _ => Bool
  | .loop => List Message
  | .pop => Option PendingState
  | .submit _ => Status
  | .onOtaManifest _ => Bool
  | _ => Unit

/-- `MqttService`, apart from what it refers to and its queue. -/
structure MqttService where
  topics : MqttTopics
  clientId : Bytes
  sys : Bool := false
  backoff : ReconnectBackoff := .new

namespace MqttService

open Prog (ask)

/-- The action that a routed message leads to. -/
def act : Routed → Prog MqttCall MqttAns Unit
  | .nothing => return ()
  | .submit command => do
    let _ ← ask (MqttCall.submit command)
    return ()
  | .otaManifest payload => do
    let yields ← ask (MqttCall.onOtaManifest payload)
    if yields then ask MqttCall.disconnect
    else return ()
  | .otaConfirm => ask MqttCall.onOtaConfirm

/-- The messages of one `loop`. -/
def deliver (service : MqttService) : List Message → Prog MqttCall MqttAns Unit
  | [] => return ()
  | message :: rest => do
    act (onMessage service.sys message.topic message.payload)
    service.deliver rest

/-- `publishState`: a topic that does not fit its buffer is not published. -/
def publishState (service : MqttService) (pending : PendingState) (ts : UInt32) :
    Prog MqttCall MqttAns Unit :=
  let topic := service.topics.evtRelayState kMaxTopicLen pending.ch
  let payload := MqttPayload.relayState 64 pending.state pending.source ts
  if topic.2 = true ∧ payload ≠ [] then do
    let _ ← ask (MqttCall.publish topic.1 payload true)
    return ()
  else return ()

/-- `drainPublishes`, with the budget that is left. -/
def drainPublishes (service : MqttService) (ts : UInt32) : ℕ → Prog MqttCall MqttAns Unit
  | 0 => return ()
  | budget + 1 => do
    match ← ask MqttCall.pop with
    | none => return ()
    | some pending =>
      service.publishState pending ts
      service.drainPublishes ts budget

/-- `onConnected`: announces the device, then subscribes to its commands. -/
def onConnected (service : MqttService) : Prog MqttCall MqttAns Unit := do
  let _ ← ask (MqttCall.publish (service.topics.evtOnline kMaxTopicLen).1
    (MqttPayload.online 32 true) true)
  let _ ← ask (MqttCall.subscribe (service.topics.cmdWildcard kMaxTopicLen).1 1)
  return ()

/-- The parameters of a connect, with the last will. -/
def connectParams (service : MqttService) : MqttConnectParams where
  clientId := service.clientId
  lwtTopic := (service.topics.evtOnline kMaxTopicLen).1
  lwtPayload := MqttPayload.online 32 false
  lwtQos := 1
  lwtRetain := true
  cleanSession := true

def attemptConnect (service : MqttService) (now : Millis) (jitterSeed : UInt32) :
    Prog MqttCall MqttAns MqttService := do
  let connected ← ask (MqttCall.connect service.connectParams)
  if connected then
    service.onConnected
    return { service with backoff := service.backoff.onSuccess }
  else return { service with backoff := service.backoff.onFailure now jitterSeed }

/-- The part of `tick` with a connection. -/
def serve (service : MqttService) (tsForPublish : UInt32) : Prog MqttCall MqttAns MqttService := do
  let messages ← ask MqttCall.loop
  service.deliver messages
  service.drainPublishes tsForPublish kPublishQueueDepth
  return service

def tick (service : MqttService) (now : Millis) (jitterSeed tsForPublish : UInt32) :
    Prog MqttCall MqttAns MqttService := do
  let connected ← ask MqttCall.connected
  if connected then service.serve tsForPublish
  else if service.backoff.ready now then service.attemptConnect now jitterSeed
  else return service

/-! ### What a connected tick can ask -/

/-- The calls on an open connection that neither ask about it nor subscribe. -/
def Serves : MqttCall → Prop
  | .connected => False
  | .connect _ => False
  | .subscribe _ _ => False
  | _ => True

theorem asksOnly_act (routed : Routed) : (act routed).AsksOnly Serves := by
  cases routed with
  | nothing => trivial
  | otaManifest payload =>
    refine Prog.asksOnly_ask_bind.mpr ⟨trivial, fun yields ↦ ?_⟩
    cases yields with
    | true => exact ⟨trivial, fun _ ↦ trivial⟩
    | false => trivial
  | _ => exact ⟨trivial, fun _ ↦ trivial⟩

theorem asksOnly_deliver (service : MqttService) (messages : List Message) :
    (service.deliver messages).AsksOnly Serves := by
  induction messages with
  | nil => trivial
  | cons message rest ih => exact Prog.asksOnly_bind (asksOnly_act _) fun _ ↦ ih

theorem asksOnly_publishState (service : MqttService) (pending : PendingState) (ts : UInt32) :
    (service.publishState pending ts).AsksOnly Serves := by
  unfold publishState
  dsimp only
  split_ifs
  · exact ⟨trivial, fun _ ↦ trivial⟩
  · trivial

theorem asksOnly_drainPublishes (service : MqttService) (ts : UInt32) (budget : ℕ) :
    (service.drainPublishes ts budget).AsksOnly Serves := by
  induction budget with
  | zero => trivial
  | succ budget ih =>
    refine Prog.asksOnly_ask_bind.mpr ⟨trivial, fun pending ↦ ?_⟩
    cases pending with
    | none => trivial
    | some pending =>
      exact Prog.asksOnly_bind (asksOnly_publishState service pending ts) fun _ ↦ ih

theorem asksOnly_serve (service : MqttService) (ts : UInt32) :
    (service.serve ts).AsksOnly Serves := by
  refine Prog.asksOnly_ask_bind.mpr ⟨trivial, fun messages ↦ ?_⟩
  exact Prog.asksOnly_bind (asksOnly_deliver service messages) fun _ ↦
    Prog.asksOnly_bind (asksOnly_drainPublishes service ts _) fun _ ↦ trivial

theorem serve_runs {service next : MqttService} {ts : UInt32}
    {trace : List (Prog.Event MqttCall MqttAns)}
    (hruns : (service.serve ts).Runs trace next) : next = service := by
  rw [serve, Prog.ask_bind] at hruns
  obtain ⟨messages, rest, rfl, hruns⟩ := hruns
  obtain ⟨-, -, second, -, -, hruns⟩ := Prog.runs_bind.mp hruns
  obtain ⟨-, -, last, -, -, hruns⟩ := Prog.runs_bind.mp hruns
  exact hruns.2

/-! ### The component -/

/-- The arguments of a tick. -/
structure Tick where
  now : Millis
  jitterSeed : UInt32
  tsForPublish : UInt32

/-- The MQTT part of the net task runs one operation, its tick. -/
def component : Component MqttCall MqttAns MqttService Tick where
  handle service operation :=
    service.tick operation.now operation.jitterSeed operation.tsForPublish

end MqttService

end LibreSwitch.Net
