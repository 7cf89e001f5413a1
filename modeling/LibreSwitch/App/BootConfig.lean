import LibreSwitch.Net.EnrollmentHistory

/-!
# The configuration of a boot

`bringUpMqtt` of `app/composition_root.h` reads what enrollment stored into the fixed buffers that
the MQTT service then uses as C strings. The buffers are zero at boot, and a read fills at most the
whole of a buffer, so a value is a C string there if it leaves room for the terminator.

`store` bounds the certificates and keys by their buffers, but not the three other values, and
takes a device id to be optional that `bringUpMqtt` requires. `Usable` collects what a response must
meet beyond being accepted, and `uses_iff_of_holds` shows that the boot uses exactly the fields of
the response if and only if it does.
-/

set_option autoImplicit false
set_option relaxedAutoImplicit false

namespace LibreSwitch.App

open LibreSwitch.Library LibreSwitch.Net LibreSwitch.Platform

/-- The buffers that `bringUpMqtt` fills. -/
structure MqttConfig where
  brokerHost : Bytes
  topicRoot : Bytes
  deviceId : Bytes
  clientId : Bytes
  tlsCa : Bytes
  tlsCert : Bytes
  tlsKey : Bytes

namespace CompositionRoot

/-- `bringUpMqtt`: the buffers with which the MQTT service is constructed, if it is. -/
def bringUpMqtt {κ : Type} [KvStore κ] (kv : κ) : Option MqttConfig :=
  let host := KvStore.getBlob kv (ascii "mqtt_host") 64
  if host.1 = 0 then none
  else
    let root := KvStore.getBlob kv (ascii "mqtt_root") 24
    let topicRoot := if root.1 = 0 then zeroed 24 (ascii "sw") else zeroed 24 root.2
    let id := KvStore.getBlob kv (ascii "device_id") 40
    if id.1 = 0 then none
    else
      let ca := KvStore.getBlob kv (ascii "tls_ca") 1800
      let cert := KvStore.getBlob kv (ascii "tls_cert") 1800
      let key := KvStore.getBlob kv (ascii "tls_key") 1800
      if ca.1 = 0 then none
      else if cert.1 = 0 then none
      else if key.1 = 0 then none
      else
        some
          { brokerHost := zeroed 64 host.2
            topicRoot := topicRoot
            deviceId := zeroed 40 id.2
            clientId := zeroed 40 ((cString (zeroed 40 id.2)).take 39)
            tlsCa := zeroed 1800 ca.2
            tlsCert := zeroed 1800 cert.2
            tlsKey := zeroed 1800 key.2 }

end CompositionRoot

open EnrollmentResponseCodec (fields)

namespace MqttConfig

/-- The C strings in the buffers are the fields of an identity, with the default topic root if it
has none. -/
structure Uses (texts : FieldName → Bytes) (config : MqttConfig) : Prop where
  brokerHost : HoldsString config.brokerHost (texts .mqttHost)
  topicRoot : HoldsString config.topicRoot
    (if texts .mqttRoot = [] then ascii "sw" else texts .mqttRoot)
  deviceId : HoldsString config.deviceId (texts .deviceId)
  tlsCa : HoldsString config.tlsCa (texts .tlsCa)
  tlsCert : HoldsString config.tlsCert (texts .tlsCert)
  tlsKey : HoldsString config.tlsKey (texts .tlsKey)

end MqttConfig

/-- What a response must meet to be used as it is: it names the device, the values that `store` does
not bound leave room for the terminator in their buffers, and no value has a zero byte in it. -/
structure Usable (texts : FieldName → Bytes) : Prop where
  deviceId_ne_nil : texts .deviceId ≠ []
  length_deviceId : (texts .deviceId).length < 40
  length_mqttHost : (texts .mqttHost).length < 64
  length_mqttRoot : (texts .mqttRoot).length < 24
  zero_notMem : ∀ name, (0 : UInt8) ∉ texts name

/-! ### Reading an identity back -/

section Read

variable {texts : FieldName → Bytes} {kv : KvMap} (hholds : HttpEnrollment.HoldsIdentity texts kv)

include hholds

/-- A read of a field, whether it is stored or not. -/
theorem getBlob_of_holds (name : FieldName) (bufLen : ℕ) :
    KvStore.getBlob kv (HttpEnrollment.keyOf name) bufLen =
      (((texts name).take bufLen).length, (texts name).take bufLen) := by
  rw [KvMap.getBlob_eq, hholds name]
  split_ifs with htext
  · rw [htext, Option.getD_none]
  · rw [Option.getD_some]

/-- The configuration of a boot that finds an identity with the required fields. -/
theorem bringUpMqtt_of_holds
    (hrequired : ∀ name, EnrollmentResponseCodec.Required name → texts name ≠ []) :
    CompositionRoot.bringUpMqtt kv =
      if texts .deviceId = [] then none
      else some
        { brokerHost := zeroed 64 ((texts .mqttHost).take 64)
          topicRoot := if texts .mqttRoot = [] then zeroed 24 (ascii "sw")
            else zeroed 24 ((texts .mqttRoot).take 24)
          deviceId := zeroed 40 ((texts .deviceId).take 40)
          clientId := zeroed 40 ((cString (zeroed 40 ((texts .deviceId).take 40))).take 39)
          tlsCa := zeroed 1800 ((texts .tlsCa).take 1800)
          tlsCert := zeroed 1800 ((texts .tlsCert).take 1800)
          tlsKey := zeroed 1800 ((texts .tlsKey).take 1800) } := by
  have hread := getBlob_of_holds hholds
  have hempty (name : FieldName) {bufLen : ℕ} (hbufLen : bufLen ≠ 0) :
      ((texts name).take bufLen).length = 0 ↔ texts name = [] := by
    rw [List.length_eq_zero_iff, List.take_eq_nil_iff]
    exact or_iff_right hbufLen
  have hhost := hrequired .mqttHost (.inr (.inr (.inr rfl)))
  have hca := hrequired .tlsCa (.inl rfl)
  have hcert := hrequired .tlsCert (.inr (.inl rfl))
  have hkey := hrequired .tlsKey (.inr (.inr (.inl rfl)))
  unfold CompositionRoot.bringUpMqtt
  rw [show ascii "mqtt_host" = HttpEnrollment.keyOf .mqttHost from rfl,
    show ascii "mqtt_root" = HttpEnrollment.keyOf .mqttRoot from rfl,
    show ascii "device_id" = HttpEnrollment.keyOf .deviceId from rfl,
    show ascii "tls_ca" = HttpEnrollment.keyOf .tlsCa from rfl,
    show ascii "tls_cert" = HttpEnrollment.keyOf .tlsCert from rfl,
    show ascii "tls_key" = HttpEnrollment.keyOf .tlsKey from rfl]
  simp only [hread, hempty _ (show (64 : ℕ) ≠ 0 by decide), hempty _ (show (24 : ℕ) ≠ 0 by decide),
    hempty _ (show (40 : ℕ) ≠ 0 by decide), hempty _ (show (1800 : ℕ) ≠ 0 by decide), hhost, hca,
    hcert, hkey, ↓reduceIte]

/-- The boot uses the fields of an identity exactly when it is usable. -/
theorem uses_iff_of_holds
    (hrequired : ∀ name, EnrollmentResponseCodec.Required name → texts name ≠ [])
    (hca : (texts .tlsCa).length < 1800) (hcert : (texts .tlsCert).length < 1800)
    (hkey : (texts .tlsKey).length < 1800) :
    (∃ config, CompositionRoot.bringUpMqtt kv = some config ∧ config.Uses texts) ↔
      Usable texts := by
  rw [bringUpMqtt_of_holds hholds hrequired]
  constructor
  · intro huses
    obtain ⟨config, hconfig, huses⟩ := huses
    have hid : texts .deviceId ≠ [] := by
      intro hid
      rw [if_pos hid] at hconfig
      cases hconfig
    rw [if_neg hid] at hconfig
    obtain rfl := Option.some.inj hconfig
    obtain ⟨hzeroHost, hlengthHost⟩ := holdsString_zeroed_iff.mp huses.brokerHost
    obtain ⟨hzeroId, hlengthId⟩ := holdsString_zeroed_iff.mp huses.deviceId
    have hroot : (0 : UInt8) ∉ texts .mqttRoot ∧ (texts .mqttRoot).length < 24 := by
      by_cases hnone : texts .mqttRoot = []
      · simp [hnone]
      · have hholdsRoot := huses.topicRoot
        simp only [hnone, ↓reduceIte] at hholdsRoot
        exact holdsString_zeroed_iff.mp hholdsRoot
    refine ⟨hid, hlengthId, hlengthHost, hroot.2, fun name ↦ ?_⟩
    cases name with
    | deviceId => exact hzeroId
    | mqttHost => exact hzeroHost
    | mqttRoot => exact hroot.1
    | tlsCa => exact (holdsString_zeroed_iff.mp huses.tlsCa).1
    | tlsCert => exact (holdsString_zeroed_iff.mp huses.tlsCert).1
    | tlsKey => exact (holdsString_zeroed_iff.mp huses.tlsKey).1
  · intro husable
    have hzero := husable.zero_notMem
    rw [if_neg husable.deviceId_ne_nil]
    refine ⟨_, rfl, ?_, ?_, ?_, ?_, ?_, ?_⟩
    · exact holdsString_zeroed_iff.mpr ⟨hzero _, husable.length_mqttHost⟩
    · by_cases hnone : texts .mqttRoot = []
      · simp only [hnone, ↓reduceIte]
        exact ⟨by decide, by decide⟩
      · simp only [hnone, ↓reduceIte]
        exact holdsString_zeroed_iff.mpr ⟨hzero _, husable.length_mqttRoot⟩
    · exact holdsString_zeroed_iff.mpr ⟨hzero _, husable.length_deviceId⟩
    · exact holdsString_zeroed_iff.mpr ⟨hzero _, hca⟩
    · exact holdsString_zeroed_iff.mpr ⟨hzero _, hcert⟩
    · exact holdsString_zeroed_iff.mpr ⟨hzero _, hkey⟩

end Read

/-! ### From a response to the next boot -/

/-- A certificate or key of a valid response that `store` takes is shorter than its buffer. -/
theorem length_lt_of_accepted {body : Bytes} (haccepted : HttpEnrollment.Accepted body) :
    (fields body .tlsCa).length < 1800 ∧ (fields body .tlsCert).length < 1800 ∧
      (fields body .tlsKey).length < 1800 := by
  obtain ⟨hvalid, hsmall⟩ := haccepted
  have hlength {name : FieldName} (hname : EnrollmentResponseCodec.Required name) :
      (fields body name).length = ((EnrollmentResponseCodec.parse body).field name).len :=
    EnrollmentField.length_text (EnrollmentResponseCodec.inBounds_parse body name)
      (EnrollmentResponseCodec.present_iff.mpr
        (EnrollmentResponseCodec.valid_iff.mp hvalid name hname))
  rw [hlength (.inl rfl), hlength (.inr (.inl rfl)), hlength (.inr (.inr (.inl rfl)))]
  unfold HttpEnrollment.TooLarge at hsmall
  omega

/-- A `store` that returned true in a store without an identity leaves that of the response. -/
theorem holdsIdentity_store {body : Bytes} {events : List KvEvent} {kv : KvMap}
    (hvalid : (EnrollmentResponseCodec.parse body).valid = true)
    (hruns : (HttpEnrollment.store body (EnrollmentResponseCodec.parse body)).Runs events true)
    (hnew : HttpEnrollment.Unenrolled kv) :
    HttpEnrollment.Accepted body ∧
      HttpEnrollment.HoldsIdentity (fields body) (kv.afterAll events) := by
  unfold HttpEnrollment.store at hruns
  split_ifs at hruns with hlarge
  · obtain ⟨-, hresult⟩ := hruns
    cases hresult
  · have haccepted : HttpEnrollment.Accepted body := ⟨hvalid, hlarge⟩
    rw [HttpEnrollment.writes_parse] at hruns
    obtain ⟨results, hlength, rfl, hresult⟩ := HttpEnrollment.runs_writeAll hruns
    refine ⟨haccepted, HttpEnrollment.holdsIdentity_writeEvents haccepted hlength ?_
      fun name _ ↦ hnew name⟩
    intro write hwrite
    exact List.all_eq_true.mp hresult.symm _ (List.of_mem_zip hwrite).2

/-- After an enrollment that stored a valid response in a store without an identity, the next boot
enables MQTT with exactly the fields of the response if and only if the response is usable. -/
theorem bringUpMqtt_uses_iff {body : Bytes} {events : List KvEvent} {kv : KvMap}
    (hvalid : (EnrollmentResponseCodec.parse body).valid = true)
    (hruns : (HttpEnrollment.store body (EnrollmentResponseCodec.parse body)).Runs events true)
    (hnew : HttpEnrollment.Unenrolled kv) :
    (∃ config, CompositionRoot.bringUpMqtt (kv.afterAll events) = some config ∧
        config.Uses (fields body)) ↔ Usable (fields body) := by
  obtain ⟨haccepted, hholds⟩ := holdsIdentity_store hvalid hruns hnew
  obtain ⟨hca, hcert, hkey⟩ := length_lt_of_accepted haccepted
  exact uses_iff_of_holds hholds (EnrollmentResponseCodec.valid_iff.mp hvalid) hca hcert hkey

/-- What `store` does with a response in an empty store. -/
def storing (body : Bytes) : Option (List KvEvent × Bool) :=
  (HttpEnrollment.store body (EnrollmentResponseCodec.parse body)).play
    (fun kv request ↦ some (KvMap.respond kv request)) HttpEnrollment.emptyStore

/-- A response that names the device. -/
def namedResponse : Bytes := HttpEnrollment.wholeResponse ++ ascii "@@device_id\nsw\n"

theorem runs_storing_namedResponse :
    (HttpEnrollment.store namedResponse (EnrollmentResponseCodec.parse namedResponse)).Runs
      ((storing namedResponse).get (by decide)).1 true :=
  Prog.runs_play (by decide)

theorem runs_storing_wholeResponse :
    (HttpEnrollment.store HttpEnrollment.wholeResponse
      (EnrollmentResponseCodec.parse HttpEnrollment.wholeResponse)).Runs
      ((storing HttpEnrollment.wholeResponse).get (by decide)).1 true :=
  Prog.runs_play (by decide)

theorem bringUpMqtt_uses_iff_witness : ∃ config,
    CompositionRoot.bringUpMqtt (HttpEnrollment.emptyStore.afterAll
      ((storing namedResponse).get (by decide)).1) = some config ∧
        config.Uses (fields namedResponse) := by
  refine (bringUpMqtt_uses_iff (by decide) runs_storing_namedResponse fun _ ↦ rfl).mpr ?_
  refine ⟨by decide, by decide, by decide, by decide, fun name ↦ ?_⟩
  cases name <;> decide

/-- A response without the optional device id is stored, and MQTT stays disabled. -/
theorem bringUpMqtt_uses_false_wholeResponse :
    ¬ ∀ (body : Bytes) (events : List KvEvent) (kv : KvMap),
      (EnrollmentResponseCodec.parse body).valid = true →
      (HttpEnrollment.store body (EnrollmentResponseCodec.parse body)).Runs events true →
      HttpEnrollment.Unenrolled kv → ∃ config,
        CompositionRoot.bringUpMqtt (kv.afterAll events) = some config ∧
          config.Uses (fields body) := by
  intro hall
  obtain ⟨config, hconfig, -⟩ :=
    hall _ _ HttpEnrollment.emptyStore (by decide) runs_storing_wholeResponse fun _ ↦ rfl
  have hnone : CompositionRoot.bringUpMqtt (HttpEnrollment.emptyStore.afterAll
      ((storing HttpEnrollment.wholeResponse).get (by decide)).1) = none := by decide
  rw [hnone] at hconfig
  cases hconfig

end LibreSwitch.App
