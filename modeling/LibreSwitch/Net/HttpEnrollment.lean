import Mathlib.Tactic
import LibreSwitch.Net.EnrollmentResponse
import LibreSwitch.Net.NetworkClient
import LibreSwitch.Platform.KvStore

/-!
# Enrollment

The two implementations of `Enrollment` in `net/provisioning_impl.h`: `KvsDevEnrollment`, the
stand-in without a server, and `HttpEnrollment`, which exchanges a token for an identity. Both are
programs over the key-value store, the second also over a network client. The lines on the serial
port are left out; memory that the source does not initialise is a call that answers any bytes.

`Exchanged` is what an exchange can do with the bytes it received: leave the store alone, or write
the `identity` in them, where each write may fail. `exchanged_doEnroll` shows that every run of
`doEnroll` is one.
-/

set_option autoImplicit false
set_option relaxedAutoImplicit false

namespace LibreSwitch.Net

open LibreSwitch.Library LibreSwitch.Platform

/-- `kMaxToken`. -/
def kMaxToken : ℕ := 65

/-! ### The stand-in -/

namespace KvsDevEnrollment

open Prog (ask)

/-- `KvsDevEnrollment::enroll`; no token stands for the null pointer. -/
def enroll (token : Option Bytes) : Prog KvCall KvAns Bool :=
  match token with
  | none | some [] => return false
  | some token => ask (KvCall.setBlob (ascii "enroll_token") token)

/-- `KvsDevEnrollment::hasOperationalCert`. -/
def hasOperationalCert : Prog KvCall KvAns Bool := do
  let cert ← ask (KvCall.getBlob (ascii "tls_cert") 4)
  if cert.1 > 0 then return true
  else
    let token ← ask (KvCall.getBlob (ascii "enroll_token") 4)
    return token.1 > 0

end KvsDevEnrollment

/-! ### The exchange -/

/-- The calls of an enrollment. -/
inductive EnrollCall
  | kv (request : KvCall)
  | client (request : ClientCall)
  | stackBytes (size : ℕ)

/-- What they answer. -/
abbrev EnrollAns : EnrollCall → Type
  | .kv request => KvAns request
  | .client request => ClientAns request
  | .stackBytes _ => Bytes

/-- `HttpEnrollment`, apart from its store and its buffer. `insecure` is the build flag
`ENROLL_INSECURE`. -/
structure HttpEnrollment where
  url : Bytes
  ca : Bytes := []
  hw : Bytes
  hint : Bytes
  insecure : Bool := false

namespace HttpEnrollment

open Prog (ask)

variable {α : Type}

/-- A part of an enrollment that works on the store. -/
def onKv (program : Prog KvCall KvAns α) : Prog EnrollCall EnrollAns α :=
  program.embed .kv fun _ ↦ Equiv.refl _

/-- A part of an enrollment that works on the connection. -/
def onClient (program : Prog ClientCall ClientAns α) : Prog EnrollCall EnrollAns α :=
  program.embed .client fun _ ↦ Equiv.refl _

/-- `HttpEnrollment::hasOperationalCert`. -/
def hasOperationalCert : Prog KvCall KvAns Bool := do
  let cert ← ask (KvCall.getBlob (ascii "tls_cert") 4)
  return cert.1 > 0

/-- The part of `parseUrl` behind the scheme. -/
def parseAuthority (rest : Bytes) (port : UInt16) (hostCap pathCap : ℕ) :
    Option (Bytes × UInt16 × Bytes) :=
  let hostPart := rest.takeWhile (· ≠ 47)
  let (host, port) :=
    match strchr 58 hostPart with
    | some _ =>
      (hostPart.takeWhile (· ≠ 58),
        UInt16.ofInt (atoi (((strchr 58 rest).getD []).tail)))
    | none => (hostPart, port)
  if host.length + 1 > hostCap then none
  else
    match strchr 47 rest with
    | some path => if path.length + 1 > pathCap then none else some (host, port, path)
    | none => if pathCap < 2 then none else some (host, port, ascii "/")

/-- `parseUrl`: host, port and path. -/
def parseUrl (url : Bytes) (hostCap pathCap : ℕ) : Option (Bytes × UInt16 × Bytes) :=
  if (ascii "https://").isPrefixOf url then parseAuthority (url.drop 8) 443 hostCap pathCap
  else if (ascii "http://").isPrefixOf url then parseAuthority (url.drop 7) 80 hostCap pathCap
  else none

/-- The loop of `readBody`, with the room that is left in the buffer. Every round reads a byte at
least, so as many rounds as there is room are enough. -/
def readBodyLoop (out : Bytes) : ℕ → ℕ → Prog ClientCall ClientAns Bytes
  | 0, _ => return out
  | rounds + 1, room =>
    if room = 0 then return out
    else do
      match ← NetworkClient.awaitData 10 (NetworkClient.kIdleTimeoutMs / 10) with
      | .closed => return out
      | .timedOut => return out
      | .ready avail =>
        let read ← ask (ClientCall.readInto (min avail room))
        if read.1 = [] then return out
        else readBodyLoop (out ++ read.1) rounds (room - read.1.length)

/-- `readBody`: the bytes it put into a buffer of this size. -/
def readBody (cap : ℕ) : Prog ClientCall ClientAns Bytes := readBodyLoop [] (cap - 1) (cap - 1)

/-- The writes by which `store` persists a response that was parsed from these bytes. -/
def writes (body : Bytes) (response : EnrollmentResponse) : List (Bytes × Bytes) :=
  [(ascii "tls_ca", response.text body .tlsCa), (ascii "tls_cert", response.text body .tlsCert),
    (ascii "tls_key", response.text body .tlsKey),
    (ascii "mqtt_host", response.text body .mqttHost)] ++
  (if (response.field .mqttRoot).present then
    [(ascii "mqtt_root", response.text body .mqttRoot)] else []) ++
  (if (response.field .deviceId).present then
    [(ascii "device_id", response.text body .deviceId)] else [])

/-- Makes writes one after the other; the result says whether all of them succeeded. -/
def writeAll : List (Bytes × Bytes) → Prog KvCall KvAns Bool
  | [] => return true
  | (key, data) :: rest => do
    let stored ← ask (KvCall.setBlob key data)
    let others ← writeAll rest
    return stored && others

/-- The size that a certificate or key must not exceed. -/
def TooLarge (response : EnrollmentResponse) : Prop :=
  (response.field .tlsCa).len > 1799 ∨ (response.field .tlsCert).len > 1799 ∨
    (response.field .tlsKey).len > 1799

instance (response : EnrollmentResponse) : Decidable (TooLarge response) :=
  inferInstanceAs (Decidable (_ ∨ _ ∨ _))

def store (body : Bytes) (response : EnrollmentResponse) : Prog KvCall KvAns Bool :=
  if TooLarge response then return false
  else writeAll (writes body response)

/-- The part of `doEnroll` with the whole response in the buffer. -/
def acceptResponse (body : Bytes) : Prog KvCall KvAns Bool :=
  if body.length = 0 then return false
  else
    let response := EnrollmentResponseCodec.parse body
    if !response.valid then return false
    else store body response

/-- The request body that `snprintf` composes. -/
def requestBody (enrollment : HttpEnrollment) (token : Bytes) : Bytes :=
  ascii "token=" ++ token ++ ascii "&id=" ++ enrollment.hint ++ ascii "&hw=" ++ enrollment.hw

/-- Pins the server if a certificate is given, and connects. -/
def openConnection (enrollment : HttpEnrollment) (host : Bytes) (port : UInt16) :
    Prog ClientCall ClientAns ℤ := do
  if enrollment.ca ≠ [] then ask (ClientCall.setCACert enrollment.ca)
  ask (ClientCall.connect host port)

def sendRequest (host path body : Bytes) : Prog ClientCall ClientAns Unit := do
  ask (ClientCall.print (ascii "POST " ++ path ++ ascii " HTTP/1.1\r\n"))
  ask (ClientCall.print (ascii "Host: " ++ host ++ ascii "\r\n"))
  ask (ClientCall.print (ascii "Content-Type: application/x-www-form-urlencoded\r\n"))
  ask (ClientCall.print (ascii "Content-Length: " ++ decimal body.length ++ ascii "\r\n"))
  ask (ClientCall.print (ascii "Connection: close\r\n\r\n"))
  ask (ClientCall.print body)

/-- The part of `doEnroll` after the request was sent. -/
def receive (rounds : ℕ) : Prog EnrollCall EnrollAns Bool := do
  let line ← ask (EnrollCall.stackBytes NetworkClient.kLineCap)
  let headed ← onClient (NetworkClient.readHead rounds line)
  if !headed then
    onClient (ask ClientCall.stop)
    return false
  else
    let body ← onClient (readBody EnrollmentResponseCodec.kMaxResponse)
    onClient (ask ClientCall.stop)
    onKv (acceptResponse body)

def doEnroll (enrollment : HttpEnrollment) (rounds : ℕ) (token : Bytes) :
    Prog EnrollCall EnrollAns Bool :=
  match parseUrl enrollment.url 128 160 with
  | none => return false
  | some (host, port, path) =>
    if (enrollment.requestBody token).length ≥ 256 then return false
    else do
      let connected ← onClient (enrollment.openConnection host port)
      if connected ≠ 1 then return false
      else
        onClient (sendRequest host path (enrollment.requestBody token))
        receive rounds

/-- The token of the form, or else the one that was seeded in the store. -/
def chooseToken (token : Option Bytes) : Prog KvCall KvAns Bytes :=
  match token with
  | none | some [] => do
    let seeded ← ask (KvCall.getBlob (ascii "enroll_token") kMaxToken)
    return if seeded.1 > 0 then cString (zeroed kMaxToken seeded.2) else []
  | some token => return token

/-- `HttpEnrollment::enroll`; no token stands for the null pointer. -/
def enroll (enrollment : HttpEnrollment) (rounds : ℕ) (token : Option Bytes) :
    Prog EnrollCall EnrollAns Bool := do
  let certified ← onKv hasOperationalCert
  if certified then return true
  else
    let token ← onKv (chooseToken token)
    if token = [] then return false
    else if enrollment.url = [] then return false
    else if enrollment.ca = [] ∧ enrollment.insecure = false then return false
    else enrollment.doEnroll rounds token

/-! ### The identity in a response -/

/-- The keys and values under which an identity with these fields is stored; a field without bytes
is left out. -/
def identity (fields : FieldName → Bytes) : List (Bytes × Bytes) :=
  [(ascii "tls_ca", fields .tlsCa), (ascii "tls_cert", fields .tlsCert),
    (ascii "tls_key", fields .tlsKey), (ascii "mqtt_host", fields .mqttHost)] ++
  (if fields .mqttRoot ≠ [] then [(ascii "mqtt_root", fields .mqttRoot)] else []) ++
  (if fields .deviceId ≠ [] then [(ascii "device_id", fields .deviceId)] else [])

/-- `store` writes the identity of the fields that were parsed. -/
theorem writes_parse (body : Bytes) : writes body (EnrollmentResponseCodec.parse body) =
    identity (EnrollmentResponseCodec.fields body) := by
  unfold writes identity
  congr 1
  · congr 1
    exact if_congr EnrollmentResponseCodec.present_iff rfl rfl
  · exact if_congr EnrollmentResponseCodec.present_iff rfl rfl

/-! ### The events of an enrollment -/

/-- A call of an enrollment with its answer. -/
abbrev EnrollEvent := Prog.Event EnrollCall EnrollAns

/-- The calls of an enrollment on the store. -/
def kvEvents (trace : List EnrollEvent) : List KvEvent :=
  trace.filterMap fun event ↦
    match event with
    | ⟨.kv request, answer⟩ => some ⟨request, answer⟩
    | _ => none

/-- The calls of an enrollment on the connection. -/
def clientEvents (trace : List EnrollEvent) : List (Prog.Event ClientCall ClientAns) :=
  trace.filterMap fun event ↦
    match event with
    | ⟨.client request, answer⟩ => some ⟨request, answer⟩
    | _ => none

/-- The bytes of the response that an enrollment received. -/
def received (trace : List EnrollEvent) : Bytes := NetworkClient.received (clientEvents trace)

/-- The writes that an enrollment makes, and their results. -/
def writesOf (trace : List EnrollEvent) : List ((Bytes × Bytes) × Bool) :=
  (kvEvents trace).filterMap writeOf

/-- The response that was parsed from these bytes is stored. -/
def Accepted (body : Bytes) : Prop :=
  (EnrollmentResponseCodec.parse body).valid = true ∧
    ¬ TooLarge (EnrollmentResponseCodec.parse body)

instance (body : Bytes) : Decidable (Accepted body) := inferInstanceAs (Decidable (_ ∧ _))

section Events

variable (first second : List EnrollEvent)

@[simp] theorem kvEvents_append : kvEvents (first ++ second) = kvEvents first ++ kvEvents second :=
  List.filterMap_append

@[simp] theorem clientEvents_append :
    clientEvents (first ++ second) = clientEvents first ++ clientEvents second :=
  List.filterMap_append

@[simp] theorem received_append : received (first ++ second) =
    received first ++ received second := by
  rw [received, clientEvents_append, NetworkClient.received_append]
  rfl

end Events

/-- A part on the store receives nothing, and its calls on the store are a run of that part. -/
theorem runs_onKv {program : Prog KvCall KvAns α} {trace : List EnrollEvent} {result : α}
    (hruns : (onKv program).Runs trace result) :
    program.Runs (kvEvents trace) result ∧ received trace = [] := by
  have hclient : clientEvents trace = [] := Prog.filterMap_part (fun _ ↦ rfl) hruns
  refine ⟨Prog.runs_part (fun _ ↦ rfl) hruns, ?_⟩
  rw [received, hclient]
  rfl

/-- A part on the connection leaves the store alone, and its calls are a run of that part. -/
theorem runs_onClient {program : Prog ClientCall ClientAns α} {trace : List EnrollEvent}
    {result : α} (hruns : (onClient program).Runs trace result) :
    program.Runs (clientEvents trace) result ∧ kvEvents trace = [] :=
  ⟨Prog.runs_part (fun _ ↦ rfl) hruns, Prog.filterMap_part (fun _ ↦ rfl) hruns⟩

/-- A part on the connection that reads byte by byte receives nothing of the body. -/
theorem received_onClient {program : Prog ClientCall ClientAns α} {trace : List EnrollEvent}
    {result : α} (hprogram : program.AsksOnly NetworkClient.Bytewise)
    (hruns : (onClient program).Runs trace result) : received trace = [] :=
  NetworkClient.received_of_asksOnly hprogram (runs_onClient hruns).1

/-! ### What an enrollment receives and writes -/

/-- The body is what the reads put into the buffer. -/
theorem eq_received_of_runs {out : Bytes} {rounds room : ℕ}
    {trace : List (Prog.Event ClientCall ClientAns)} {body : Bytes}
    (hruns : (readBodyLoop out rounds room).Runs trace body) :
    body = out ++ NetworkClient.received trace := by
  induction rounds generalizing out room trace with
  | zero =>
    obtain ⟨rfl, rfl⟩ := hruns
    rw [NetworkClient.received_nil, List.append_nil]
  | succ rounds ih =>
    unfold readBodyLoop at hruns
    split_ifs at hruns with hroom
    · obtain ⟨rfl, rfl⟩ := hruns
      rw [NetworkClient.received_nil, List.append_nil]
    · obtain ⟨wait, first, rest, rfl, hwait, hrest⟩ := Prog.runs_bind.mp hruns
      have hquiet := NetworkClient.received_of_listens
        (NetworkClient.asksOnly_awaitData _ _) hwait
      rw [NetworkClient.received_append, hquiet, List.nil_append]
      cases wait with
      | closed | timedOut =>
        obtain ⟨rfl, rfl⟩ := hrest
        rw [NetworkClient.received_nil, List.append_nil]
      | ready avail =>
        simp only [Prog.ask_bind, Prog.runs_call] at hrest
        obtain ⟨read, later, rfl, hlater⟩ := hrest
        rw [NetworkClient.received_cons]
        change body = out ++ (read.val ++ _)
        split_ifs at hlater with hnone
        · obtain ⟨rfl, rfl⟩ := hlater
          rw [hnone, NetworkClient.received_nil, List.append_nil, List.append_nil]
        · rw [ih hlater, List.append_assoc]

/-- The run of a list of writes with these results. -/
def writeEvents (list : List (Bytes × Bytes)) (results : List Bool) : List KvEvent :=
  List.zipWith (fun write stored ↦ ⟨.setBlob write.1 write.2, stored⟩) list results

/-- The writes of such a run, each with its result. -/
theorem filterMap_writeEvents (list : List (Bytes × Bytes)) (results : List Bool) :
    (writeEvents list results).filterMap writeOf = list.zip results := by
  induction list generalizing results with
  | nil => rfl
  | cons write rest ih =>
    cases results with
    | nil => rfl
    | cons stored results => exact congrArg ((write, stored) :: ·) (ih results)

theorem runs_writeAll {list : List (Bytes × Bytes)} {trace : List KvEvent} {result : Bool}
    (hruns : (writeAll list).Runs trace result) :
    ∃ results : List Bool, results.length = list.length ∧ trace = writeEvents list results ∧
      result = results.all id := by
  induction list generalizing trace result with
  | nil =>
    obtain ⟨rfl, rfl⟩ := hruns
    exact ⟨[], rfl, rfl, rfl⟩
  | cons write rest ih =>
    simp only [writeAll, Prog.ask_bind] at hruns
    obtain ⟨stored, later, rfl, hlater⟩ := hruns
    obtain ⟨others, first, second, rfl, hfirst, rfl, rfl⟩ := Prog.runs_bind.mp hlater
    obtain ⟨results, hlength, rfl, rfl⟩ := ih hfirst
    refine ⟨stored :: results, by rw [List.length_cons, List.length_cons, hlength], ?_, rfl⟩
    rw [List.append_nil]
    rfl

/-- What an exchange does with the body it received: the calls on the store, and the result. -/
inductive Exchanged (body : Bytes) : List KvEvent → Bool → Prop
  | refused (hrefused : ¬ Accepted body) : Exchanged body [] false
  | stored (haccepted : Accepted body) (results : List Bool)
      (hlength : results.length = (identity (EnrollmentResponseCodec.fields body)).length) :
      Exchanged body (writeEvents (identity (EnrollmentResponseCodec.fields body)) results)
        (results.all id)

/-- A response that is accepted is written field by field; any other leaves the store alone. -/
theorem exchanged_of_runs {body : Bytes} {trace : List KvEvent} {result : Bool}
    (hruns : (acceptResponse body).Runs trace result) : Exchanged body trace result := by
  unfold acceptResponse at hruns
  split_ifs at hruns with hempty
  · obtain ⟨rfl, rfl⟩ := hruns
    rw [List.length_eq_zero_iff.mp hempty]
    exact .refused (by decide)
  · by_cases hvalid : (EnrollmentResponseCodec.parse body).valid = true
    · simp only [hvalid, Bool.not_true, Bool.false_eq_true, ↓reduceIte, store] at hruns
      split_ifs at hruns with hlarge
      · obtain ⟨rfl, rfl⟩ := hruns
        exact .refused fun haccepted ↦ haccepted.2 hlarge
      · rw [writes_parse] at hruns
        obtain ⟨results, hlength, rfl, rfl⟩ := runs_writeAll hruns
        exact .stored ⟨hvalid, hlarge⟩ results hlength
    · simp only [hvalid, Bool.not_false, ↓reduceIte] at hruns
      obtain ⟨rfl, rfl⟩ := hruns
      exact .refused fun haccepted ↦ hvalid haccepted.1

/-- An exchange that received nothing leaves the store alone. -/
theorem exchanged_nil {trace : List EnrollEvent} (hkv : kvEvents trace = [])
    (hreceived : received trace = []) : Exchanged (received trace) (kvEvents trace) false := by
  rw [hkv, hreceived]
  exact .refused (by decide)

/-- The part after the request. -/
theorem exchanged_receive {rounds : ℕ} {trace : List EnrollEvent} {result : Bool}
    (hruns : (receive rounds).Runs trace result) :
    Exchanged (received trace) (kvEvents trace) result := by
  simp only [receive, Prog.ask_bind, Prog.runs_call] at hruns
  obtain ⟨line, trace, rfl, hruns⟩ := hruns
  obtain ⟨headed, first, rest, rfl, hhead, hrest⟩ := Prog.runs_bind.mp hruns
  have hheadKv := (runs_onClient hhead).2
  have hheadReceived := received_onClient ((NetworkClient.asksOnly_readHead rounds line).mono
    fun _ ↦ NetworkClient.bytewise_of_listens) hhead
  change Exchanged (received (first ++ rest)) (kvEvents (first ++ rest)) result
  rw [received_append, kvEvents_append, hheadKv, hheadReceived, List.nil_append, List.nil_append]
  have hbytewise : (ask ClientCall.stop : Prog ClientCall ClientAns Unit).AsksOnly
      NetworkClient.Bytewise := ⟨fun _ hread ↦ ClientCall.noConfusion hread, fun _ ↦ trivial⟩
  have hstop {events : List EnrollEvent} {value : Unit}
      (hstop : (onClient (ask ClientCall.stop)).Runs events value) :
      received events = [] ∧ kvEvents events = [] :=
    ⟨received_onClient hbytewise hstop, (runs_onClient hstop).2⟩
  cases headed with
  | false =>
    simp only [Bool.not_false, ↓reduceIte] at hrest
    obtain ⟨_, second, last, rfl, hsecond, rfl, rfl⟩ := Prog.runs_bind.mp hrest
    obtain ⟨hreceived, hkv⟩ := hstop hsecond
    rw [List.append_nil]
    exact exchanged_nil hkv hreceived
  | true =>
    simp only [Bool.not_true, Bool.false_eq_true, ↓reduceIte] at hrest
    obtain ⟨body, second, rest, rfl, hbody, hrest⟩ := Prog.runs_bind.mp hrest
    obtain ⟨_, third, last, rfl, hthird, hlast⟩ := Prog.runs_bind.mp hrest
    obtain ⟨hreceived, hkv⟩ := hstop hthird
    obtain ⟨haccept, hlastReceived⟩ := runs_onKv hlast
    obtain ⟨hread, hbodyKv⟩ := runs_onClient hbody
    have hbodyReceived : body = received second := eq_received_of_runs hread
    rw [received_append, received_append, kvEvents_append, kvEvents_append, hreceived, hkv,
      hlastReceived, hbodyKv, List.append_nil, List.append_nil, List.nil_append, List.nil_append,
      ← hbodyReceived]
    exact exchanged_of_runs haccept

theorem asksOnly_openConnection (enrollment : HttpEnrollment) (host : Bytes) (port : UInt16) :
    (enrollment.openConnection host port).AsksOnly NetworkClient.Bytewise := by
  unfold openConnection
  split_ifs
  · exact ⟨nofun, fun _ ↦ ⟨nofun, fun _ ↦ trivial⟩⟩
  · exact ⟨nofun, fun _ ↦ trivial⟩

theorem asksOnly_sendRequest (host path body : Bytes) :
    (sendRequest host path body).AsksOnly NetworkClient.Bytewise := by
  refine ⟨nofun, fun _ ↦ ⟨nofun, fun _ ↦ ⟨nofun, fun _ ↦ ⟨nofun, fun _ ↦ ⟨nofun, fun _ ↦ ?_⟩⟩⟩⟩⟩
  exact ⟨nofun, fun _ ↦ trivial⟩

/-- A run of `doEnroll` is an exchange of the bytes it received. -/
theorem exchanged_doEnroll {enrollment : HttpEnrollment} {rounds : ℕ} {token : Bytes}
    {trace : List EnrollEvent} {result : Bool}
    (hruns : (enrollment.doEnroll rounds token).Runs trace result) :
    Exchanged (received trace) (kvEvents trace) result := by
  unfold doEnroll at hruns
  cases htarget : parseUrl enrollment.url 128 160 with
  | none =>
    rw [htarget] at hruns
    obtain ⟨rfl, rfl⟩ := hruns
    exact exchanged_nil rfl rfl
  | some target =>
    obtain ⟨host, port, path⟩ := target
    rw [htarget] at hruns
    simp only at hruns
    split_ifs at hruns with hlong
    · obtain ⟨rfl, rfl⟩ := hruns
      exact exchanged_nil rfl rfl
    · obtain ⟨connected, first, rest, rfl, hopen, hrest⟩ := Prog.runs_bind.mp hruns
      have hopenKv := (runs_onClient hopen).2
      have hopenReceived :=
        received_onClient (enrollment.asksOnly_openConnection host port) hopen
      rw [received_append, kvEvents_append, hopenKv, hopenReceived, List.nil_append,
        List.nil_append]
      split_ifs at hrest with hconnected
      · obtain ⟨rfl, rfl⟩ := hrest
        exact exchanged_nil rfl rfl
      · obtain ⟨_, second, rest, rfl, hsend, hreceive⟩ := Prog.runs_bind.mp hrest
        rw [received_append, kvEvents_append, (runs_onClient hsend).2,
          received_onClient (asksOnly_sendRequest _ _ _) hsend, List.nil_append, List.nil_append]
        exact exchanged_receive hreceive

end HttpEnrollment

end LibreSwitch.Net
