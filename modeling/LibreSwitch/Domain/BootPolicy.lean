import Mathlib.Tactic
import LibreSwitch.Domain.RelayController

/-!
# The boot policy

`BootPolicy` of `domain/boot_policy.h`, over the types of `boot_policy_types.h` and the port
`StatePersistencePort`. At cold boot the policy sets every present channel of an initialized
controller: all off, all on, or to the persisted state, with all off when nothing valid is
persisted (R-7). A policy value outside the three enumerators is `RestorePolicy.other`.

`applyBootState_eq` gives the whole of it on an initialized controller: the boot succeeds, and is
the loop that drives each present channel once, to the state `bootTarget` names.
-/

set_option autoImplicit false
set_option relaxedAutoImplicit false

namespace LibreSwitch.Domain

/-- `RestorePolicy`. -/
inductive RestorePolicy
  | alwaysOff
  | alwaysOn
  | restoreLast
  | other (raw : UInt8)
  deriving DecidableEq, Repr

/-- `PersistedRelayState`: a state for each of the `kMaxChannels` channels. -/
structure PersistedRelayState where
  channel : ℕ → RelayState := fun _ ↦ .off
  valid : Bool := false

/-- The port `StatePersistencePort`. -/
class StatePersistencePort (π : Type) where
  loadRelayState : π → PersistedRelayState
  saveRelayState : π → PersistedRelayState → Status × π

/-- Persistence held in memory: it loads what was saved last. -/
instance : StatePersistencePort PersistedRelayState where
  loadRelayState saved := saved
  saveRelayState _ snapshot := (.success, snapshot)

namespace BootPolicy

variable {ρ π : Type} [RelaySink ρ] [StatePersistencePort π]

/-- The loop of `applyPersisted`, which stops at the first channel that cannot be set. -/
def applyPersistedLoop (saved : PersistedRelayState) :
    List ℕ → RelayController ρ → Status × RelayController ρ
  | [], relays => (.success, relays)
  | channel :: rest, relays =>
    if (relays.set channel (saved.channel channel)).1.ok then
      applyPersistedLoop saved rest (relays.set channel (saved.channel channel)).2
    else relays.set channel (saved.channel channel)

def applyPersisted (relays : RelayController ρ) (saved : PersistedRelayState) :
    Status × RelayController ρ :=
  applyPersistedLoop saved (List.range relays.count) relays

def applyRestoreLast (relays : RelayController ρ) (persist : π) : Status × RelayController ρ :=
  if (StatePersistencePort.loadRelayState persist).valid then
    applyPersisted relays (StatePersistencePort.loadRelayState persist)
  else relays.setAll .off

def applyBootState (relays : RelayController ρ) (persist : π) (policy : RestorePolicy) :
    Status × RelayController ρ :=
  if !relays.initialized then (.fail .notInitialized, relays)
  else
    match policy with
    | .alwaysOff => relays.setAll .off
    | .alwaysOn => relays.setAll .on
    | .restoreLast => applyRestoreLast relays persist
    | .other _ => relays.setAll .off

/-- The state a policy gives a channel. -/
def bootTarget (persist : π) : RestorePolicy → ℕ → RelayState
  | .alwaysOn, _ => .on
  | .restoreLast, channel =>
    if (StatePersistencePort.loadRelayState persist).valid then
      (StatePersistencePort.loadRelayState persist).channel channel
    else .off
  | _, _ => .off

/-- On present channels of an initialized controller the loop never stops early. -/
theorem applyPersistedLoop_of_present (saved : PersistedRelayState) (channels : List ℕ)
    (relays : RelayController ρ) (hinitialized : relays.initialized = true)
    (hpresent : ∀ channel ∈ channels, channel < relays.count) :
    applyPersistedLoop saved channels relays =
      (.success, channels.foldl
        (fun reached channel ↦ reached.applyState channel (saved.channel channel)) relays) := by
  induction channels generalizing relays with
  | nil => rfl
  | cons channel rest ih =>
    have hchannel : channel < relays.count := hpresent channel (by simp)
    simp only [applyPersistedLoop, RelayController.set_of_present hinitialized hchannel,
      Status.ok_success, if_true, List.foldl_cons]
    exact ih _ hinitialized fun other hother ↦ hpresent other (by simp [hother])

/-- On an initialized controller a boot succeeds and drives each present channel once, to the
state the policy gives it. -/
theorem applyBootState_eq {relays : RelayController ρ} (hinitialized : relays.initialized = true)
    (persist : π) (policy : RestorePolicy) : applyBootState relays persist policy =
      (.success, relays.applyEach (bootTarget persist policy) relays.count) := by
  have hsetAll (target : RelayState) : relays.setAll target =
      (.success, relays.applyEach (fun _ ↦ target) relays.count) := by
    simp [RelayController.setAll, hinitialized]
  simp only [applyBootState, hinitialized, Bool.not_true, Bool.false_eq_true, if_false]
  cases policy with
  | alwaysOff => exact hsetAll .off
  | alwaysOn => exact hsetAll .on
  | other raw => exact hsetAll .off
  | restoreLast =>
    simp only [applyRestoreLast]
    by_cases hvalid : (StatePersistencePort.loadRelayState persist).valid = true
    · have htarget : bootTarget persist .restoreLast =
          (StatePersistencePort.loadRelayState persist).channel := by
        funext channel
        simp [bootTarget, hvalid]
      rw [if_pos hvalid, applyPersisted, applyPersistedLoop_of_present _ _ _ hinitialized
        fun channel hchannel ↦ List.mem_range.mp hchannel, htarget]
      rfl
    · have htarget : bootTarget persist .restoreLast = fun _ ↦ RelayState.off := by
        funext channel
        simp [bootTarget, hvalid]
      rw [if_neg hvalid, hsetAll, htarget]

theorem applyBootState_of_not_initialized {relays : RelayController ρ}
    (hinitialized : relays.initialized = false) (persist : π) (policy : RestorePolicy) :
    applyBootState relays persist policy = (.fail .notInitialized, relays) := by
  simp [applyBootState, hinitialized]

theorem applyBootState_drives (relays : RelayController ρ) (persist : π)
    (policy : RestorePolicy) : relays.Drives (applyBootState relays persist policy).2 := by
  cases hinitialized : relays.initialized with
  | false =>
    rw [applyBootState_of_not_initialized hinitialized]
    exact .refl relays
  | true =>
    rw [applyBootState_eq hinitialized]
    exact relays.applyEach_drives _ le_rfl

/-- A boot that fails changes nothing. -/
theorem applyBootState_of_not_ok {relays : RelayController ρ} {persist : π}
    {policy : RestorePolicy} (hfail : (applyBootState relays persist policy).1.ok = false) :
    (applyBootState relays persist policy).2 = relays := by
  cases hinitialized : relays.initialized with
  | false => rw [applyBootState_of_not_initialized hinitialized]
  | true =>
    rw [applyBootState_eq hinitialized] at hfail
    simp at hfail

/-! ### Power-up -/

/-- Power-up of the relays: `init` with all channels off, then the policy. -/
def boot (relays : RelayController ρ) (channelCount : ℕ) (persist : π) (policy : RestorePolicy) :
    RelayController ρ :=
  (applyBootState (relays.init channelCount).2 persist policy).2

/-- Power-up drives every present channel off, then every present channel to its target. -/
theorem boot_eq (relays : RelayController ρ) {channelCount : ℕ}
    (hcount : 0 < channelCount ∧ channelCount ≤ kMaxChannels) (persist : π)
    (policy : RestorePolicy) : boot relays channelCount persist policy =
      RelayController.applyEach
        { ({ relays with count := channelCount }.applyEach (fun _ ↦ .off) channelCount) with
          initialized := true }
        (bootTarget persist policy) channelCount := by
  obtain ⟨-, hinit⟩ :=
    RelayController.init_eq_of_ok ((relays.init_ok_iff channelCount .off).mpr hcount)
  rw [boot, applyBootState_eq (by rw [hinit]), hinit]
  simp only [RelayController.count_applyEach]

theorem count_boot (relays : RelayController ρ) {channelCount : ℕ}
    (hcount : 0 < channelCount ∧ channelCount ≤ kMaxChannels) (persist : π)
    (policy : RestorePolicy) :
    (boot relays channelCount persist policy).count = channelCount := by
  simp only [boot_eq relays hcount, RelayController.count_applyEach]

theorem initialized_boot (relays : RelayController ρ) {channelCount : ℕ}
    (hcount : 0 < channelCount ∧ channelCount ≤ kMaxChannels) (persist : π)
    (policy : RestorePolicy) :
    (boot relays channelCount persist policy).initialized = true := by
  simp only [boot_eq relays hcount, RelayController.initialized_applyEach]

/-- After power-up every present channel is in the state the policy gives it. -/
theorem state_boot (relays : RelayController ρ) {channelCount : ℕ}
    (hcount : 0 < channelCount ∧ channelCount ≤ kMaxChannels) (persist : π)
    (policy : RestorePolicy) {channel : ℕ} (hpresent : channel < channelCount) :
    (boot relays channelCount persist policy).state channel =
      bootTarget persist policy channel := by
  rw [RelayController.state, count_boot relays hcount, if_pos hpresent, boot_eq relays hcount,
    RelayController.states_applyEach, if_pos hpresent]

end BootPolicy

end LibreSwitch.Domain
