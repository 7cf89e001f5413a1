import LibreSwitch.App.CompositionRoot
import LibreSwitch.App.PersistingStateListener
import LibreSwitch.Log.LogOrder
import LibreSwitch.Net.HttpEnrollment
import LibreSwitch.Net.OtaService
import LibreSwitch.Net.StoredCredentials

/-!
# What the firmware writes to the store

Six parts of the firmware share the partition `kvs`: provisioning, the two enrollments, the relay
states, updates with their health window, the logger, and the seeds and the factory reset.
`StoreCall` is a call on the store that some run of one of them makes, and `Reachable` a content
that such calls leave, in any order and with any of them failing. A power cycle between two calls
changes nothing in the store.

The footprint of a part is the set of keys it writes. `within_of_storeCall` says that all
footprints lie within the keys that a factory reset erases and the three it keeps, and
`key_mem_of_reachable` that no other key is ever there.
-/

set_option autoImplicit false
set_option relaxedAutoImplicit false

namespace LibreSwitch.App

open LibreSwitch.Library LibreSwitch.Domain LibreSwitch.Net LibreSwitch.Platform
open LibreSwitch.Adapters LibreSwitch.Log

namespace StoreFootprint

/-! ### Footprints -/

/-- A call that writes none but these keys. -/
def Within (keys : List Bytes) : KvCall → Prop
  | .setBlob key _ => key ∈ keys
  | _ => True

section Footprint

variable {Call : Type} {Ans : Call → Type} {α : Type} {part : Call → Option KvCall}
  {keys : List Bytes}

/-- A call that, if it concerns the store, writes none but these keys. -/
def Writes (part : Call → Option KvCall) (keys : List Bytes) (request : Call) : Prop :=
  ∀ kvCall, part request = some kvCall → Within keys kvCall

/-- Some run of the program makes this call on the store. -/
def Makes (program : Prog Call Ans α) (part : Call → Option KvCall) (kvCall : KvCall) : Prop :=
  ∃ trace result, program.Runs trace result ∧ ∃ event ∈ trace, part event.request = some kvCall

/-- What a program can ask bounds what its runs write. -/
theorem within_of_makes {program : Prog Call Ans α} {kvCall : KvCall}
    (hprogram : program.AsksOnly (Writes part keys)) (hmakes : Makes program part kvCall) :
    Within keys kvCall := by
  obtain ⟨trace, result, hruns, event, hevent, hpart⟩ := hmakes
  exact hprogram.of_runs hruns event hevent kvCall hpart

theorem writes_setBlob {request : Call} {key data : Bytes}
    (hpart : part request = some (.setBlob key data)) (hkey : key ∈ keys) :
    Writes part keys request := by
  intro kvCall hcall
  obtain rfl := Option.some.inj (hpart.symm.trans hcall)
  exact hkey

theorem writes_none {request : Call} (hpart : part request = none) : Writes part keys request := by
  intro kvCall hcall
  rw [hpart] at hcall
  cases hcall

/-- A program on the store, as a part of a larger one. -/
theorem asksOnly_part {inj : KvCall → Call} {ans : ∀ request, KvAns request ≃ Ans (inj request)}
    (hpart : ∀ request, part (inj request) = some request) {program : Prog KvCall KvAns α}
    (hprogram : program.AsksOnly (Within keys)) :
    (program.embed inj ans).AsksOnly (Writes part keys) := by
  refine Prog.asksOnly_embed (hprogram.mono fun request hwithin kvCall hcall ↦ ?_)
  obtain rfl := Option.some.inj ((hpart request).symm.trans hcall)
  exact hwithin

end Footprint

/-! ### The parts of the firmware -/

/-- The calls of the provisioning service on the store. -/
def provisioningPart : ProvCall → Option KvCall
  | .setBlob key data => some (.setBlob key data)
  | .getBlob key bufLen => some (.getBlob key bufLen)
  | _ => none

/-- The calls of an enrollment on the store. -/
def enrollmentPart : EnrollCall → Option KvCall
  | .kv request => some request
  | _ => none

/-- The calls of an update on the store. -/
def updatePart : OtaCall → Option KvCall
  | .setBlob key data => some (.setBlob key data)
  | _ => none

/-- The calls of a net tick and of the factory reset on the store. -/
def rootPart : RootCall → Option KvCall
  | .erase key => some (.erase key)
  | _ => none

/-- The calls of the logger on the store. -/
def logPart : LogCall → Option KvCall
  | .kv request => some request
  | _ => none

/-- A call on the store that the firmware makes. -/
inductive StoreCall : KvCall → Prop
  | provisioning (service : ProvisioningService) (operation : ProvisioningService.Operation)
      {request : KvCall}
      (hmakes : Makes (ProvisioningService.component.handle service operation) provisioningPart
        request) : StoreCall request
  | devEnrollment (token : Option Bytes) {request : KvCall}
      (hmakes : Makes (KvsDevEnrollment.enroll token) some request) : StoreCall request
  | httpEnrollment (enrollment : HttpEnrollment) (rounds : ℕ) (token : Option Bytes)
      {request : KvCall} (hmakes : Makes (enrollment.enroll rounds token) enrollmentPart request) :
      StoreCall request
  | relayChange (snapshot : PersistedRelayState) :
      StoreCall (.setBlob FlashDbStatePersistence.kKey
        (FlashDbStatePersistence.pack snapshot).toBytes)
  | update (service : OtaService) (manifest : OtaManifest) {request : KvCall}
      (hmakes : Makes (service.apply manifest) updatePart request) : StoreCall request
  | netTick (root : CompositionRoot) {request : KvCall}
      (hmakes : Makes root.netTick rootPart request) : StoreCall request
  | logBegin (logger : Logger) {request : KvCall} (hmakes : Makes logger.begin logPart request) :
      StoreCall request
  | logOperation (logger : Logger) (operation : LogOrder.Operation) {request : KvCall}
      (hmakes : Makes (LogOrder.perform logger operation) logPart request) : StoreCall request
  | seedProfileId (bound : Bool) (id : UInt8) {request : KvCall}
      (hmakes : Makes (CompositionRoot.seedProfileId bound id) some request) : StoreCall request
  | seedEnrollToken (bound : Bool) (token : Option Bytes) {request : KvCall}
      (hmakes : Makes (CompositionRoot.seedEnrollToken bound token) some request) :
      StoreCall request
  | factoryReset {request : KvCall}
      (hmakes : Makes CompositionRoot.factoryReset rootPart request) : StoreCall request

/-- The contents of the store that the firmware can leave. -/
inductive Reachable : KvMap → Prop
  | fresh : Reachable ⟨fun _ ↦ none⟩
  | call {kv : KvMap} {request : KvCall} {reply : KvAns request} (hreachable : Reachable kv)
      (hcall : StoreCall request) (hallows : kv.Allows request reply) :
      Reachable (kv.after request reply)

/-- The keys that outlive a factory reset. -/
def kKept : List Bytes := [ascii "profile_id", ascii "boot_id", ascii "ntp_floor"]

/-- All keys of the store. -/
def kKeys : List Bytes := CompositionRoot.kWipe ++ kKept

/-! ### The footprint of each part -/

section Provisioning

open ProvisioningService

/-- A call that neither writes nor joins writes none but these keys. -/
theorem writes_of_harmless {request : ProvCall} (hharmless : StoredCredentials.Harmless request) :
    Writes provisioningPart kKeys request := by
  intro kvCall hpart
  cases request with
  | setBlob key data => exact hharmless.elim
  | getBlob key bufLen =>
    obtain rfl := Option.some.inj hpart
    trivial
  | _ => cases hpart

theorem asksOnly_openPortal (service : ProvisioningService) (now : Millis) :
    (service.openPortal now).AsksOnly (Writes provisioningPart kKeys) :=
  (StoredCredentials.asksOnly_openPortal service now).mono fun _ ↦ writes_of_harmless

theorem asksOnly_begin (service : ProvisioningService) (now : Millis) :
    (service.begin now).AsksOnly (Writes provisioningPart kKeys) := by
  unfold ProvisioningService.begin
  refine Prog.asksOnly_bind
    (StoredCredentials.asksOnly_isProvisioned.mono fun _ ↦ writes_of_harmless)
    fun provisioned ↦ ?_
  split_ifs
  · refine Prog.asksOnly_bind ?_ fun joined ↦ ?_
    · unfold tryStoredConnect
      simp only [Prog.ask_bind, Prog.pure_eq]
      refine Prog.asksOnly_call.mpr ⟨writes_of_harmless trivial, fun ssid ↦ ?_⟩
      split_ifs
      · trivial
      · exact ⟨writes_of_harmless trivial, fun _ ↦ ⟨writes_none rfl, fun _ ↦ trivial⟩⟩
    · split_ifs
      · trivial
      · exact asksOnly_openPortal _ now
  · exact asksOnly_openPortal _ now

/-- A submission is stored under the two keys of the credentials. -/
theorem asksOnly_onCredentialsSubmitted (service : ProvisioningService)
    (creds : ProvisioningCredentials) :
    (service.onCredentialsSubmitted creds).AsksOnly (Writes provisioningPart kKeys) := by
  have hfailed (service : ProvisioningService) :
      service.onTestFailed.AsksOnly (Writes provisioningPart kKeys) :=
    (StoredCredentials.asksOnly_onTestFailed service).mono fun _ ↦ writes_of_harmless
  unfold onCredentialsSubmitted
  split_ifs
  · exact ⟨writes_none rfl, fun _ ↦ trivial⟩
  · unfold runSequentialTest
    simp only [Prog.ask_bind]
    refine ⟨writes_none rfl, fun _ ↦ ⟨writes_none rfl, fun _ ↦
      ⟨writes_none rfl, fun _ ↦ Prog.asksOnly_call.mpr
      ⟨writes_none rfl, fun joined ↦ ?_⟩⟩⟩⟩
    split_ifs
    · exact hfailed _
    · unfold afterJoin
      refine Prog.asksOnly_bind ?_ fun _ ↦ Prog.asksOnly_bind ⟨writes_none rfl, fun _ ↦ trivial⟩
        fun enrolled ↦ ?_
      · exact ⟨writes_setBlob rfl (by decide), fun _ ↦
          ⟨writes_setBlob rfl (by decide), fun _ ↦ trivial⟩⟩
      · obtain ⟨enrolled, service⟩ := enrolled
        simp only
        split_ifs
        · exact hfailed _
        · trivial

theorem asksOnly_tick (service : ProvisioningService) (now : Millis) :
    (service.tick now).AsksOnly (Writes provisioningPart kKeys) := by
  have hpoll (submissions : List ProvisioningCredentials) (service : ProvisioningService) :
      (playPoll submissions service).AsksOnly (Writes provisioningPart kKeys) := by
    induction submissions generalizing service with
    | nil => trivial
    | cons creds rest ih =>
      unfold playPoll
      simp only [Prog.ask_bind]
      refine Prog.asksOnly_call.mpr ⟨writes_none rfl, fun accepted ↦ ?_⟩
      split_ifs
      · exact Prog.asksOnly_bind (asksOnly_onCredentialsSubmitted service creds) ih
      · exact ih service
  unfold ProvisioningService.tick
  simp only [Prog.ask_bind]
  split_ifs
  · exact ⟨writes_none rfl, fun submissions ↦
      Prog.asksOnly_bind (hpoll submissions service) fun _ ↦ trivial⟩
  · trivial

end Provisioning

section Enrollment

open HttpEnrollment

theorem asksOnly_onKv {α : Type} {program : Prog KvCall KvAns α}
    (hprogram : program.AsksOnly (Within kKeys)) :
    (HttpEnrollment.onKv program).AsksOnly (Writes enrollmentPart kKeys) := by
  have hpart (request : KvCall) : enrollmentPart (.kv request) = some request := rfl
  exact asksOnly_part hpart hprogram

theorem asksOnly_onClient {α : Type} (program : Prog ClientCall ClientAns α) :
    (onClient program).AsksOnly (Writes enrollmentPart kKeys) :=
  Prog.asksOnly_embed (Prog.asksOnly_of_forall (fun _ ↦ writes_none rfl) program)

theorem asksOnly_writeAll {list : List (Bytes × Bytes)} (hlist : ∀ write ∈ list, write.1 ∈ kKeys) :
    (writeAll list).AsksOnly (Within kKeys) := by
  induction list with
  | nil => trivial
  | cons write rest ih =>
    have hrest := ih fun other hother ↦ hlist other (List.mem_cons_of_mem _ hother)
    exact Prog.asksOnly_ask_bind.mpr ⟨hlist write List.mem_cons_self, fun stored ↦
      Prog.asksOnly_bind hrest fun _ ↦ trivial⟩

/-- An identity is written under its six keys. -/
theorem asksOnly_acceptResponse (body : Bytes) :
    (acceptResponse body).AsksOnly (Within kKeys) := by
  have hkeys (fields : FieldName → Bytes) : ∀ write ∈ identity fields, write.1 ∈ kKeys := by
    intro write hwrite
    simp only [identity, List.mem_append, List.mem_cons, List.not_mem_nil, or_false,
      List.mem_ite_nil_right] at hwrite
    obtain ((rfl | rfl | rfl | rfl) | ⟨-, rfl⟩) | ⟨-, rfl⟩ := hwrite
    all_goals
      change ascii _ ∈ kKeys
      decide
  unfold acceptResponse store
  simp only
  split_ifs
  · trivial
  · trivial
  · trivial
  · rw [writes_parse]
    exact asksOnly_writeAll (hkeys _)

theorem asksOnly_httpEnroll (enrollment : HttpEnrollment) (rounds : ℕ) (token : Option Bytes) :
    (enrollment.enroll rounds token).AsksOnly (Writes enrollmentPart kKeys) := by
  have hchoose : (chooseToken token).AsksOnly (Within kKeys) := by
    unfold chooseToken
    split
    · exact ⟨trivial, fun _ ↦ trivial⟩
    · exact ⟨trivial, fun _ ↦ trivial⟩
    · trivial
  have hreceive : (receive rounds).AsksOnly (Writes enrollmentPart kKeys) := by
    refine Prog.asksOnly_ask_bind.mpr ⟨writes_none rfl, fun line ↦ ?_⟩
    refine Prog.asksOnly_bind (asksOnly_onClient _) fun headed ↦ ?_
    split
    · exact Prog.asksOnly_bind (asksOnly_onClient _) fun _ ↦ trivial
    · exact Prog.asksOnly_bind (asksOnly_onClient _) fun body ↦
        Prog.asksOnly_bind (asksOnly_onClient _) fun _ ↦
          asksOnly_onKv (asksOnly_acceptResponse body)
  have hexchange (token : Bytes) :
      (enrollment.doEnroll rounds token).AsksOnly (Writes enrollmentPart kKeys) := by
    unfold doEnroll
    split
    · trivial
    · split_ifs
      · trivial
      · refine Prog.asksOnly_bind (asksOnly_onClient _) fun connected ↦ ?_
        split_ifs
        · trivial
        · exact Prog.asksOnly_bind (asksOnly_onClient _) fun _ ↦ hreceive
  unfold HttpEnrollment.enroll
  refine Prog.asksOnly_bind (asksOnly_onKv ⟨trivial, fun _ ↦ trivial⟩) fun certified ↦ ?_
  split
  · trivial
  · refine Prog.asksOnly_bind (asksOnly_onKv hchoose) fun token ↦ ?_
    split_ifs
    · trivial
    · trivial
    · trivial
    · exact hexchange token

theorem asksOnly_devEnroll (token : Option Bytes) :
    (KvsDevEnrollment.enroll token).AsksOnly (Writes some kKeys) := by
  unfold KvsDevEnrollment.enroll
  split
  · trivial
  · trivial
  · exact ⟨writes_setBlob rfl (by decide), fun _ ↦ trivial⟩

end Enrollment

section Update

open OtaService

/-- An update writes the flag of the health window and the version. -/
theorem asksOnly_apply (service : OtaService) (manifest : OtaManifest) :
    (service.apply manifest).AsksOnly (Writes updatePart kKeys) := by
  have hplay (run : DownloadRun) : (playDownload run).AsksOnly (Writes updatePart kKeys) := by
    induction run with
    | returns delivered => exact ⟨writes_none rfl, fun _ ↦ trivial⟩
    | chunk data next ih => exact ⟨writes_none rfl, fun written ↦ ih written⟩
  have hdownload : (doDownload manifest).AsksOnly (Writes updatePart kKeys) := by
    refine Prog.asksOnly_ask_bind.mpr ⟨writes_none rfl, fun begun ↦ ?_⟩
    split
    · trivial
    · refine Prog.asksOnly_ask_bind.mpr ⟨writes_none rfl, fun run ↦ ?_⟩
      refine Prog.asksOnly_bind (hplay run) fun delivered ↦ ?_
      split
      · trivial
      · exact ⟨writes_none rfl, fun _ ↦ trivial⟩
  have habort (result : OtaResult) : (abortWith result).AsksOnly (Writes updatePart kKeys) :=
    ⟨writes_none rfl, fun _ ↦ ⟨writes_none rfl, fun _ ↦ trivial⟩⟩
  have hfinish : (finishUpdate manifest).AsksOnly (Writes updatePart kKeys) := by
    refine ⟨writes_setBlob rfl (by decide), fun _ ↦ ⟨writes_setBlob rfl (by decide), fun _ ↦ ?_⟩⟩
    exact ⟨writes_none rfl, fun _ ↦ ⟨writes_none rfl, fun _ ↦ trivial⟩⟩
  have hinstall : (install manifest).AsksOnly (Writes updatePart kKeys) := by
    refine Prog.asksOnly_ask_bind.mpr ⟨writes_none rfl, fun _ ↦ ?_⟩
    refine Prog.asksOnly_bind hdownload fun downloaded ↦ ?_
    split
    · exact habort _
    · refine Prog.asksOnly_ask_bind.mpr ⟨writes_none rfl, fun _ ↦ ?_⟩
      refine Prog.asksOnly_ask_bind.mpr ⟨writes_none rfl, fun verified ↦ ?_⟩
      split
      · exact habort _
      · refine Prog.asksOnly_ask_bind.mpr ⟨writes_none rfl, fun _ ↦ ?_⟩
        refine Prog.asksOnly_ask_bind.mpr ⟨writes_none rfl, fun committed ↦ ?_⟩
        split
        · exact habort _
        · exact hfinish
  unfold apply
  split
  · exact ⟨writes_none rfl, fun _ ↦ trivial⟩
  · refine Prog.asksOnly_ask_bind.mpr ⟨writes_none rfl, fun _ ↦ ?_⟩
    split
    · exact ⟨writes_none rfl, fun _ ↦ trivial⟩
    · exact hinstall

end Update

section Log

open Logger

theorem asksOnly_log_onKv {α : Type} {program : Prog KvCall KvAns α}
    (hprogram : program.AsksOnly (Within kKeys)) :
    (Logger.onKv program).AsksOnly (Writes logPart kKeys) := by
  have hpart (request : KvCall) : logPart (.kv request) = some request := rfl
  exact asksOnly_part hpart hprogram

/-- A record is not kept in the store. -/
theorem asksOnly_buildRecord (logger : Logger) (code : EventCode) (severity : Severity)
    (arg1 arg2 : UInt16) (anchor : Bool) :
    (logger.buildRecord code severity arg1 arg2 anchor).AsksOnly (Writes logPart kKeys) := by
  refine Prog.asksOnly_ask_bind.mpr
    ⟨writes_none rfl, fun uptime ↦ Prog.asksOnly_bind ?_ fun _ ↦ trivial⟩
  refine Prog.asksOnly_ask_bind.mpr ⟨writes_none rfl, fun synced ↦ ?_⟩
  split
  · exact ⟨writes_none rfl, fun _ ↦ trivial⟩
  · trivial

theorem asksOnly_log (logger : Logger) (code : EventCode) (severity : Severity)
    (arg1 arg2 : UInt16) :
    (logger.log code severity arg1 arg2).AsksOnly (Writes logPart kKeys) :=
  Prog.asksOnly_bind (asksOnly_buildRecord _ _ _ _ _ _) fun _ ↦ ⟨writes_none rfl, fun _ ↦ trivial⟩

theorem asksOnly_logBegin (logger : Logger) : logger.begin.AsksOnly (Writes logPart kKeys) := by
  have hnext : nextBootId.AsksOnly (Within kKeys) := by
    refine ⟨trivial, fun _ ↦ ⟨?_, fun _ ↦ trivial⟩⟩
    change ascii "boot_id" ∈ kKeys
    decide
  refine Prog.asksOnly_bind (asksOnly_log_onKv hnext) fun bootId ↦ ?_
  refine Prog.asksOnly_bind (asksOnly_log_onKv ⟨trivial, fun _ ↦ trivial⟩) fun floor ↦ ?_
  exact Prog.asksOnly_bind (asksOnly_log _ _ _ _ _) fun _ ↦ trivial

theorem asksOnly_perform (logger : Logger) (operation : LogOrder.Operation) :
    (LogOrder.perform logger operation).AsksOnly (Writes logPart kKeys) := by
  cases operation with
  | log code severity arg1 arg2 =>
    exact Prog.asksOnly_bind (asksOnly_log _ _ _ _ _) fun _ ↦ trivial
  | onNtpSync =>
    change logger.onNtpSync.AsksOnly _
    unfold onNtpSync
    split
    · trivial
    · refine Prog.asksOnly_bind (asksOnly_buildRecord _ _ _ _ _ _) fun anchor ↦ ?_
      refine Prog.asksOnly_bind ⟨writes_none rfl, fun _ ↦ trivial⟩ fun taken ↦ ?_
      refine Prog.asksOnly_ask_bind.mpr ⟨writes_none rfl, fun epoch ↦ asksOnly_log_onKv ?_⟩
      unfold persistNtpFloor
      split
      · trivial
      · refine ⟨?_, fun _ ↦ trivial⟩
        change ascii "ntp_floor" ∈ kKeys
        decide

end Log

/-- The net task and the factory reset erase, and write nothing themselves. -/
theorem asksOnly_root {α : Type} (program : Prog RootCall RootAns α) :
    program.AsksOnly (Writes rootPart kKeys) := by
  refine Prog.asksOnly_of_forall (fun request kvCall hpart ↦ ?_) program
  cases request with
  | erase key =>
    obtain rfl := Option.some.inj hpart
    trivial
  | _ => cases hpart

theorem asksOnly_seedProfileId (bound : Bool) (id : UInt8) :
    (CompositionRoot.seedProfileId bound id).AsksOnly (Writes some kKeys) := by
  unfold CompositionRoot.seedProfileId
  split
  · trivial
  · exact ⟨writes_setBlob rfl (by decide), fun _ ↦ trivial⟩

theorem asksOnly_seedEnrollToken (bound : Bool) (token : Option Bytes) :
    (CompositionRoot.seedEnrollToken bound token).AsksOnly (Writes some kKeys) := by
  unfold CompositionRoot.seedEnrollToken
  split
  · trivial
  · trivial
  · split
    · trivial
    · exact ⟨writes_setBlob rfl (by decide), fun _ ↦ trivial⟩

/-! ### The footprint of the firmware -/

theorem within_of_storeCall {request : KvCall} (hcall : StoreCall request) :
    Within kKeys request := by
  cases hcall with
  | provisioning service operation hmakes =>
    cases operation with
    | begin now => exact within_of_makes (asksOnly_begin service now) hmakes
    | tick now => exact within_of_makes (asksOnly_tick service now) hmakes
  | devEnrollment token hmakes => exact within_of_makes (asksOnly_devEnroll token) hmakes
  | httpEnrollment enrollment rounds token hmakes =>
    exact within_of_makes (asksOnly_httpEnroll enrollment rounds token) hmakes
  | relayChange snapshot =>
    change FlashDbStatePersistence.kKey ∈ kKeys
    decide
  | update service manifest hmakes => exact within_of_makes (asksOnly_apply service manifest) hmakes
  | netTick root hmakes => exact within_of_makes (asksOnly_root _) hmakes
  | logBegin logger hmakes => exact within_of_makes (asksOnly_logBegin logger) hmakes
  | logOperation logger operation hmakes =>
    exact within_of_makes (asksOnly_perform logger operation) hmakes
  | seedProfileId bound id hmakes =>
    exact within_of_makes (asksOnly_seedProfileId bound id) hmakes
  | seedEnrollToken bound token hmakes =>
    exact within_of_makes (asksOnly_seedEnrollToken bound token) hmakes
  | factoryReset hmakes => exact within_of_makes (asksOnly_root _) hmakes

/-- A call within a footprint adds no key from outside it. -/
theorem key_mem_after {keys : List Bytes} {kv : KvMap} {request : KvCall}
    (hkv : ∀ key, kv.blobs key ≠ none → key ∈ keys) (hwithin : Within keys request)
    (reply : KvAns request) :
    ∀ key, (kv.after request reply).blobs key ≠ none → key ∈ keys := by
  intro key hkey
  cases request with
  | getBlob read bufLen => exact hkv key hkey
  | setBlob written data =>
    by_cases hsame : key = written
    · rw [hsame]
      exact hwithin
    · rw [KvMap.blobs_after_setBlob_of_ne hsame] at hkey
      exact hkv key hkey
  | erase erased =>
    cases reply with
    | false => exact hkv key hkey
    | true =>
      by_cases hsame : key = erased
      · rw [KvMap.blobs_after_erase, hsame, Function.update_self] at hkey
        exact absurd rfl hkey
      · rw [KvMap.blobs_after_erase_of_ne hsame] at hkey
        exact hkv key hkey

/-- Every key in the store is one that the firmware knows. -/
theorem key_mem_of_reachable {kv : KvMap} (hreachable : Reachable kv) :
    ∀ key, kv.blobs key ≠ none → key ∈ kKeys := by
  induction hreachable with
  | fresh =>
    intro key hkey
    exact absurd rfl hkey
  | call _ hcall _ ih => exact key_mem_after ih (within_of_storeCall hcall) _

end StoreFootprint

end LibreSwitch.App
