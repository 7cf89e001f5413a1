import LibreSwitch.App.BootConfig
import LibreSwitch.App.StoreFootprint

/-!
# The factory reset

A factory reset erases the keys of `kWipe` and restarts. `Unprovisioned` says what the next boot
makes of a store: the hardware profile of before, every relay off, no MQTT service, no health
window, the portal instead of a join, and no key but the three that are kept. Each of these hangs
on a few keys that the boot reads, so it follows from which keys are gone
(`unprovisioned_of_blobs`); that none is forgotten is the footprint of the firmware.
-/

set_option autoImplicit false
set_option relaxedAutoImplicit false

namespace LibreSwitch.App

open LibreSwitch.Library LibreSwitch.Domain LibreSwitch.Net LibreSwitch.Platform
open LibreSwitch.Adapters LibreSwitch.Log LibreSwitch.Profiles

namespace FactoryReset

open CompositionRoot StoreFootprint
open ProvisioningService (ProvEvent)

/-- A call of the composition root with its answer. -/
abbrev RootEvent := Prog.Event RootCall RootAns

/-- The erases of a run. -/
def erasures (trace : List RootEvent) : List KvEvent :=
  trace.filterMap fun event ↦
    match event with
    | ⟨.erase key, erased⟩ => some ⟨.erase key, erased⟩
    | _ => none

/-- The start of the log, the one thing in a boot that writes to the store: it is skipped if the log
cannot be bound. -/
inductive LogsBoot (kv : KvMap) : KvMap → Prop
  | unbound : LogsBoot kv kv
  | bound {trace : List LogEvent} {logger : Logger} (hruns : (Logger.begin {}).Runs trace logger)
      (hfaithful : kv.Faithful (Logger.kvEvents trace)) :
      LogsBoot kv (kv.afterAll (Logger.kvEvents trace))

/-- What a run of `ProvisioningService::begin` reads is what the store holds. -/
def ReadsFrom (kv : KvMap) (trace : List ProvEvent) : Prop :=
  ∀ key bufLen read, (⟨.getBlob key bufLen, read⟩ : ProvEvent) ∈ trace →
    read = KvStore.getBlob kv key bufLen

/-- A boot from this store is that of an unprovisioned device with the hardware identity of the
store before. -/
structure Unprovisioned (before after : KvMap) : Prop where
  profile_eq : resolveProfile after = resolveProfile before
  relays_off : ∀ {ρ : Type} [RelaySink ρ] (sink : ρ) {profile : DeviceProfile} {channel : ℕ},
    resolveProfile after = some profile → channel < profile.channelCount →
      (BootPolicy.boot { sink := sink } profile.channelCount (FlashDbStatePersistence.mk after)
        .restoreLast).state channel = .off
  mqtt_disabled : bringUpMqtt after = none
  no_window : ∀ now, (armHealth after now).1 = false
  opens_portal : ∀ {service result : ProvisioningService} {now : Millis} {trace : List ProvEvent},
    (service.begin now).Runs trace result → ReadsFrom after trace →
      result.state = .apPortal ∧ (⟨.startPortal, ()⟩ : ProvEvent) ∈ trace ∧
        ∀ ssid pass timeoutMs joined,
          (⟨.connectSta ssid pass timeoutMs, joined⟩ : ProvEvent) ∉ trace
  survives : ∀ key, after.blobs key ≠ none → key ∈ kKept

/-! ### What is erased -/

/-- The erases of a wipe, if all of them succeed. -/
theorem erasures_wipe {keys : List Bytes} {trace : List RootEvent}
    (hruns : (wipe keys).Runs trace ())
    (herased : ∀ key, (⟨.erase key, false⟩ : RootEvent) ∉ trace) :
    erasures trace = keys.map fun key ↦ ⟨.erase key, true⟩ := by
  induction keys generalizing trace with
  | nil =>
    obtain ⟨rfl, -⟩ := hruns
    rfl
  | cons key rest ih =>
    simp only [wipe, Prog.ask_bind, Prog.runs_call] at hruns
    obtain ⟨erased, later, rfl, hlater⟩ := hruns
    have hrest := ih hlater fun other hmem ↦ herased other (List.mem_cons_of_mem _ hmem)
    have hdone : erased = true := by
      by_contra hfailed
      rw [Bool.not_eq_true] at hfailed
      rw [hfailed] at herased
      exact herased key List.mem_cons_self
    rw [hdone, List.map_cons, ← hrest]
    rfl

/-- Erased keys are gone, and the others are as before. -/
theorem blobs_afterAll_erase (keys : List Bytes) (kv : KvMap) (key : Bytes) :
    (kv.afterAll (keys.map fun erased ↦ ⟨.erase erased, true⟩)).blobs key =
      if key ∈ keys then none else kv.blobs key := by
  induction keys generalizing kv with
  | nil => rfl
  | cons erased rest ih =>
    rw [List.map_cons, KvMap.afterAll_cons, ih]
    by_cases hrest : key ∈ rest
    · rw [if_pos hrest, if_pos (List.mem_cons_of_mem _ hrest)]
    · rw [if_neg hrest]
      by_cases hsame : key = erased
      · rw [hsame, if_pos List.mem_cons_self]
        simp only [KvMap.blobs_after_erase, Function.update_self]
      · have hnot : key ∉ erased :: rest := by
          intro hmem
          rcases List.mem_cons.mp hmem with heq | hlater
          · exact hsame heq
          · exact hrest hlater
        rw [if_neg hnot]
        exact KvMap.blobs_after_erase_of_ne hsame kv true

/-- The store after the wipe of a factory reset. -/
theorem blobs_factoryReset {trace : List RootEvent} (hruns : factoryReset.Runs trace ())
    (herased : ∀ key, (⟨.erase key, false⟩ : RootEvent) ∉ trace) (kv : KvMap) (key : Bytes) :
    (kv.afterAll (erasures trace)).blobs key = if key ∈ kWipe then none else kv.blobs key := by
  obtain ⟨_, first, second, rfl, hwipe, hreboot⟩ := Prog.runs_bind.mp hruns
  obtain ⟨_, rest, rfl, rfl, -⟩ := hreboot
  have herasures : erasures (first ++ [⟨.reboot, ()⟩]) = erasures first := by
    rw [erasures, List.filterMap_append]
    exact List.append_nil _
  rw [herasures, erasures_wipe hwipe fun key hmem ↦ herased key (List.mem_append_left _ hmem)]
  exact blobs_afterAll_erase kWipe kv key

/-- The start of the log changes the boot counter only. -/
theorem blobs_of_logsBoot {kv kv' : KvMap} (hboots : LogsBoot kv kv') {key : Bytes}
    (hkey : key ≠ ascii "boot_id") : kv'.blobs key = kv.blobs key := by
  cases hboots with
  | unbound => rfl
  | bound hruns hfaithful =>
    obtain ⟨read, data, stored, floor, hevents⟩ := Logger.kvEvents_begin hruns
    rw [hevents]
    exact KvMap.blobs_after_setBlob_of_ne hkey kv data stored

/-! ### What a boot makes of it -/

section Blobs

variable {before after : KvMap}

/-- Nothing is read of a key that is not there. -/
theorem getBlob_of_none {kv : KvMap} {key : Bytes} (hnone : kv.blobs key = none) (bufLen : ℕ) :
    KvStore.getBlob kv key bufLen = (0, []) := by
  rw [KvMap.getBlob_eq, hnone, Option.getD_none, List.take_nil]
  rfl

/-- A profile that is looked up is a registered one. -/
theorem mem_kProfiles_of_resolveProfile {profile : DeviceProfile}
    (hprofile : resolveProfile before = some profile) : profile ∈ kProfiles := by
  have hresolve {id : ProfileId} (hfound : ProfileResolver.resolve id = some profile) :
      profile ∈ kProfiles := List.mem_of_find?_eq_some hfound
  unfold resolveProfile profileOfRead at hprofile
  split at hprofile
  · unfold ProfileResolver.resolveRaw at hprofile
    split at hprofile
    · exact hresolve hprofile
    · exact hresolve hprofile
    · exact hresolve hprofile
    · exact hresolve hprofile
    · cases hprofile
  · cases hprofile

/-- Without a stored SSID, `begin` opens the portal. -/
theorem opens_portal_of_blobs (hssid : after.blobs (ascii "sta_ssid") = none)
    {service result : ProvisioningService} {now : Millis} {trace : List ProvEvent}
    (hruns : (service.begin now).Runs trace result) (hreads : ReadsFrom after trace) :
    result.state = .apPortal ∧ (⟨.startPortal, ()⟩ : ProvEvent) ∈ trace ∧
      ∀ ssid pass timeoutMs joined,
        (⟨.connectSta ssid pass timeoutMs, joined⟩ : ProvEvent) ∉ trace := by
  unfold ProvisioningService.begin ProvisioningService.isProvisioned
    ProvisioningService.hasStoredCreds at hruns
  simp only [Prog.ask_bind, Prog.pure_eq, Prog.call_bind, Prog.ret_bind, Prog.runs_call] at hruns
  obtain ⟨read, rest, rfl, hrest⟩ := hruns
  have hread : read = (0, []) := by
    rw [hreads _ _ _ List.mem_cons_self, getBlob_of_none hssid]
  rw [hread] at hrest ⊢
  obtain ⟨started, middle, rfl, opened, last, rfl, rfl, rfl⟩ := hrest
  refine ⟨rfl, ?_, ?_⟩
  · exact List.mem_cons_of_mem _ (List.mem_cons_of_mem _ List.mem_cons_self)
  · intro ssid pass timeoutMs joined hmem
    simp at hmem

/-- A store without the keys of the wipe and with the same profile boots as an unprovisioned
device. -/
theorem unprovisioned_of_blobs (hgone : ∀ key ∈ kWipe, after.blobs key = none)
    (hprofile : after.blobs (ascii "profile_id") = before.blobs (ascii "profile_id"))
    (hkeys : ∀ key, after.blobs key ≠ none → key ∈ kKeys) : Unprovisioned before after where
  profile_eq := by
    rw [resolveProfile, resolveProfile, KvMap.getBlob_eq, KvMap.getBlob_eq, hprofile]
  relays_off := by
    intro ρ _ sink profile channel hresolves hpresent
    have hcount := (kProfiles_pins profile (mem_kProfiles_of_resolveProfile hresolves)).1
    rw [BootPolicy.state_boot _ hcount _ _ hpresent, FlashDbStatePersistence.bootTarget_eq,
      hgone _ (by decide : FlashDbStatePersistence.kKey ∈ kWipe)]
    exact if_neg (by decide)
  mqtt_disabled := by
    rw [bringUpMqtt, getBlob_of_none (hgone (ascii "mqtt_host") (by decide))]
    rfl
  no_window now := by
    rw [armHealth, getBlob_of_none (hgone (ascii "ota_pending") (by decide))]
    rfl
  opens_portal := opens_portal_of_blobs (hgone _ (by decide))
  survives := by
    intro key hkey
    rcases List.mem_append.mp (hkeys key hkey) with hwiped | hkept
    · exact absurd (hgone key hwiped) hkey
    · exact hkept

end Blobs

/-- A factory reset from any content that the firmware can leave, with erases that succeed, and the
boot after it. -/
theorem unprovisioned_of_factoryReset {kv booted : KvMap} (hreachable : Reachable kv)
    {trace : List RootEvent} (hruns : factoryReset.Runs trace ())
    (herased : ∀ key, (⟨.erase key, false⟩ : RootEvent) ∉ trace)
    (hboots : LogsBoot (kv.afterAll (erasures trace)) booted) : Unprovisioned kv booted := by
  have hwiped := blobs_factoryReset hruns herased kv
  have hbooted {key : Bytes} (hkey : key ≠ ascii "boot_id") :
      booted.blobs key = if key ∈ kWipe then none else kv.blobs key :=
    (blobs_of_logsBoot hboots hkey).trans (hwiped key)
  have hlog : ascii "boot_id" ∉ kWipe := by decide
  have hprofile : ascii "profile_id" ∉ kWipe := by decide
  refine unprovisioned_of_blobs (fun key hkey ↦ ?_) ?_ fun key hkey ↦ ?_
  · rw [hbooted (ne_of_mem_of_not_mem hkey hlog), if_pos hkey]
  · rw [hbooted (by decide), if_neg hprofile]
  · by_cases hsame : key = ascii "boot_id"
    · rw [hsame]
      decide
    · rw [hbooted hsame] at hkey
      by_cases hmem : key ∈ kWipe
      · rw [if_pos hmem] at hkey
        exact absurd rfl hkey
      · rw [if_neg hmem] at hkey
        exact key_mem_of_reachable hreachable key hkey

/-! ### A device that was switched on once -/

/-- The store after the seed of a four-gang profile and one relay change. -/
def usedStore : KvMap :=
  ((⟨fun _ ↦ none⟩ : KvMap).after (.setBlob (ascii "profile_id") [4]) true).after
    (.setBlob FlashDbStatePersistence.kKey
      (FlashDbStatePersistence.pack { channel := fun _ ↦ .on, valid := true }).toBytes) true

theorem reachable_usedStore : Reachable usedStore := by
  have hseed : Makes (seedProfileId true 4) some (.setBlob (ascii "profile_id") [4]) :=
    ⟨[⟨.setBlob (ascii "profile_id") [4], true⟩], true, ⟨true, [], rfl, rfl, rfl⟩, _,
      List.mem_cons_self, rfl⟩
  exact .call (.call .fresh (.seedProfileId true 4 hseed) trivial) (.relayChange _) trivial

/-- A factory reset whose erases succeed. -/
def resetTrace : List RootEvent := kWipe.map (fun key ↦ ⟨.erase key, true⟩) ++ [⟨.reboot, ()⟩]

theorem runs_resetTrace : factoryReset.Runs resetTrace () := by
  have hwipe (keys : List Bytes) : (wipe keys).Runs (keys.map fun key ↦ ⟨.erase key, true⟩) () := by
    induction keys with
    | nil => exact ⟨rfl, rfl⟩
    | cons key rest ih => exact ⟨true, _, rfl, ih⟩
  exact Prog.runs_bind.mpr ⟨(), _, _, rfl, hwipe kWipe, (), [], rfl, rfl, rfl⟩

theorem unprovisioned_of_factoryReset_witness :
    Unprovisioned usedStore (usedStore.afterAll (erasures resetTrace)) := by
  refine unprovisioned_of_factoryReset reachable_usedStore runs_resetTrace (fun key hmem ↦ ?_)
    .unbound
  rcases List.mem_append.mp hmem with herase | hreboot
  · obtain ⟨erased, -, heq⟩ := List.mem_map.mp herase
    cases heq
  · cases List.mem_singleton.mp hreboot

end FactoryReset

end LibreSwitch.App
