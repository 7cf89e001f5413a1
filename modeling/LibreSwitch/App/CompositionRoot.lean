import Mathlib.Tactic
import LibreSwitch.Library.Interaction
import LibreSwitch.Domain.IndicatorController
import LibreSwitch.Net.OtaHealthConfirm
import LibreSwitch.Net.ProvisioningService
import LibreSwitch.Platform.KvStore
import LibreSwitch.Profiles.DeviceProfile

/-!
# The composition root

`CompositionRoot` of `app/composition_root.h`: what `begin` takes from the store about the hardware
profile and the health window, the net task's `netTick` with `healthTick` and the system sink, the
factory reset, and the seeds. A net tick is a program over the objects it works on. The
provisioning service and the MQTT service are seen from outside: they may do anything that their
interfaces allow, so what is said about all runs here does not depend on them. A tick of the MQTT
service delivers the system commands that arrived in it. The members that the control task uses
too, the health window and its flag, are behind calls of their own, since the other task may change
them between two calls.

The lines on the serial port are left out.
-/

set_option autoImplicit false
set_option relaxedAutoImplicit false

namespace LibreSwitch.App

open LibreSwitch.Library LibreSwitch.Domain LibreSwitch.Net LibreSwitch.Platform
open LibreSwitch.Profiles

/-- A call of the MQTT service on the `SystemCommandSink`. -/
inductive SystemCommand
  | otaManifest (payload : Bytes)
  | otaConfirm

/-- The calls of a net tick. -/
inductive RootCall
  | nowMs
  | provBegin (now : Millis)
  | provTick (now : Millis)
  | provState
  | startSntpOnce
  | setStatus (status : DeviceStatus)
  | isConnected
  | mqttTick (now : Millis) (jitterSeed tsForPublish : UInt32)
  | handleOtaManifest (payload : Bytes)
  | otaPending
  | clearOtaPending
  | markNetworkUp
  | markExplicitConfirm
  | evaluate (now : Millis)
  | erase (key : Bytes)
  | rollBack
  | reboot

/-- What they answer. -/
abbrev RootAns : RootCall → Type
  | .nowMs => Millis
  | .provBegin _ => ProvState
  | .provState => ProvState
  | .isConnected => Bool
  | .mqttTick _ _ _ => List SystemCommand
  | .otaPending => Bool
  | .evaluate _ => HealthOutcome
  | .erase _ => Bool
  | .rollBack => Bool
  | _ => Unit

/-- The members of `CompositionRoot` that only the net task uses. `prov` and `mqtt` say whether
the service was constructed. -/
structure CompositionRoot where
  prov : Bool := false
  mqtt : Bool := false
  provBegun : Bool := false
  wifiOperational : Bool := false
  deriving DecidableEq, Repr

namespace CompositionRoot

open Prog (ask)

/-- The part of `resolveProfile` after the read: the byte in the zeroed variable is looked up if it
was read whole. -/
def profileOfRead (read : ℕ × Bytes) : Option DeviceProfile :=
  if read.1 = 1 then ProfileResolver.resolveRaw ((zeroed 1 read.2).headD 0) else none

/-- `resolveProfile`; a profile that is missing or unknown fails the boot. -/
def resolveProfile {κ : Type} [KvStore κ] (kv : κ) : Option DeviceProfile :=
  profileOfRead (KvStore.getBlob kv (ascii "profile_id") 1)

/-- The arming of the health window in `begin`: the flag `otaPending_` and the window. -/
def armHealth {κ : Type} [KvStore κ] (kv : κ) (now : Millis) : Bool × OtaHealthConfirm :=
  let pend := KvStore.getBlob kv (ascii "ota_pending") 1
  if pend.1 = 1 ∧ pend.2 = [1] then (true, OtaHealthConfirm.onBoot {} now) else (false, {})

/-- The root that a successful `begin` leaves: the provisioning stack is always constructed, the
MQTT service if its configuration is complete. -/
def begun (mqtt : Bool) : CompositionRoot := { prov := true, mqtt := mqtt }

/-- `SystemSink`: the calls of one MQTT tick. -/
def systemCommands : List SystemCommand → Prog RootCall RootAns Unit
  | [] => return ()
  | .otaManifest payload :: rest => do
    ask (RootCall.handleOtaManifest payload)
    systemCommands rest
  | .otaConfirm :: rest => do
    let pending ← ask RootCall.otaPending
    if pending then
      ask RootCall.markExplicitConfirm
      systemCommands rest
    else systemCommands rest

/-- The branch of `healthTick` that accepts the image. -/
def acceptImage : Prog RootCall RootAns Unit := do
  let _ ← ask (RootCall.erase (ascii "ota_pending"))
  let _ ← ask (RootCall.erase (ascii "ota_pending_ver"))
  ask RootCall.clearOtaPending

/-- The branch of `healthTick` that reverts to the previous image. -/
def revertImage : Prog RootCall RootAns Unit := do
  let _ ← ask (RootCall.erase (ascii "ota_pending"))
  let _ ← ask (RootCall.erase (ascii "ota_pending_ver"))
  let _ ← ask RootCall.rollBack
  ask RootCall.reboot

def healthTick (now : Millis) : Prog RootCall RootAns Unit := do
  match ← ask (RootCall.evaluate now) with
  | .confirmed => acceptImage
  | .rollback => revertImage
  | .pending => return ()

/-- The part of `netTick` that starts provisioning once. -/
def beginProvisioning (root : CompositionRoot) (now : Millis) :
    Prog RootCall RootAns CompositionRoot :=
  if !root.provBegun then do
    let state ← ask (RootCall.provBegin now)
    if state = .apPortal then
      ask (RootCall.setStatus .provisioning)
      return { root with provBegun := true }
    else return { root with provBegun := true }
  else return root

/-- The part of `netTick` at the first operational tick. -/
def noteOperational (root : CompositionRoot) (operational : Bool) :
    Prog RootCall RootAns CompositionRoot :=
  if operational && !root.wifiOperational then do
    ask RootCall.startSntpOnce
    ask (RootCall.setStatus (if root.mqtt then .connecting else .offline))
    return { root with wifiOperational := true }
  else return root

/-- The status shown when a tick changed the connection. -/
def showConnection (was connected : Bool) : Prog RootCall RootAns Unit :=
  if connected && !was then ask (RootCall.setStatus .online)
  else if !connected && was then ask (RootCall.setStatus .offline)
  else return ()

/-- The MQTT part of `netTick`. -/
def tickMqtt (root : CompositionRoot) (now : Millis) : Prog RootCall RootAns Unit :=
  if root.mqtt then do
    let was ← ask RootCall.isConnected
    let commands ← ask (RootCall.mqttTick now now (now / 1000))
    systemCommands commands
    let connected ← ask RootCall.isConnected
    showConnection was connected
    let pending ← ask RootCall.otaPending
    if pending && connected then ask RootCall.markNetworkUp
    else return ()
  else return ()

/-- The last line of `netTick`. -/
def tickHealth (now : Millis) : Prog RootCall RootAns Unit := do
  let pending ← ask RootCall.otaPending
  if pending then healthTick now
  else return ()

/-- The part of `netTick` with an operational Wi-Fi. -/
def tickOperational (root : CompositionRoot) (now : Millis) :
    Prog RootCall RootAns CompositionRoot := do
  root.tickMqtt now
  tickHealth now
  return root

def netTick (root : CompositionRoot) : Prog RootCall RootAns CompositionRoot := do
  let now ← ask RootCall.nowMs
  if !root.prov then return root
  else
    let root ← root.beginProvisioning now
    ask (RootCall.provTick now)
    let state ← ask RootCall.provState
    let root ← root.noteOperational (state = .operational)
    if state ≠ .operational then return root
    else root.tickOperational now

/-! ### Factory reset and seeds -/

/-- `kWipe`: the keys a factory reset erases. -/
def kWipe : List Bytes :=
  [ascii "sta_ssid", ascii "sta_pass", ascii "enroll_token", ascii "mqtt_host", ascii "mqtt_root",
    ascii "device_id", ascii "tls_ca", ascii "tls_cert", ascii "tls_key", ascii "relay_state",
    ascii "ota_pending", ascii "ota_pending_ver"]

/-- The loop of `factoryReset` over the keys still to erase. -/
def wipe : List Bytes → Prog RootCall RootAns Unit
  | [] => return ()
  | key :: rest => do
    let _ ← ask (RootCall.erase key)
    wipe rest

def factoryReset : Prog RootCall RootAns Unit := do
  wipe kWipe
  ask RootCall.reboot

/-- `seedProfileId`, given whether the store could be bound. -/
def seedProfileId (bound : Bool) (id : UInt8) : Prog KvCall KvAns Bool :=
  if !bound then return false
  else ask (KvCall.setBlob (ascii "profile_id") [id])

/-- `seedEnrollToken`, given whether the store could be bound; no token stands for the null
pointer. -/
def seedEnrollToken (bound : Bool) (token : Option Bytes) : Prog KvCall KvAns Bool :=
  match token with
  | none | some [] => return false
  | some token =>
    if !bound then return false
    else ask (KvCall.setBlob (ascii "enroll_token") token)

/-! ### The net task -/

/-- The net task runs one operation, its tick. -/
def netTask : Component RootCall RootAns CompositionRoot Unit where
  handle root _ := root.netTick

end CompositionRoot

end LibreSwitch.App
