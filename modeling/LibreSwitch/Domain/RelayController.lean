import Mathlib.Tactic
import Mathlib.Logic.Relation

/-!
# The relay controller

`RelayController` of `domain/relay_controller.h`, with the value types of `relay_types.h`,
`result.h` and `config.h` it is written over. The controller owns the logical state of every
channel and is the only object that drives the `RelaySink` port. A port is a class over the type
of the object behind it, and an object that holds a reference to a collaborator holds the
collaborator here, so that a controller over a sink `ρ` carries the sink it drives.

Channel numbers (`ChannelId`) are natural numbers. The source stores them in a `uint8_t`; the
places where it narrows a wider number to one say so.

Every operation of the controller is a sequence of `applyState` steps on present channels, or an
error that changes nothing. `Drives` is the relation "reached by such steps", and the lemmas
`set_drives`, `toggleChannel_drives` and `setAll_drives` say it once for each operation: whatever
one `applyState` on a present channel preserves, every operation preserves (`Drives.induction`).
-/

set_option autoImplicit false
set_option relaxedAutoImplicit false

namespace LibreSwitch.Domain

/-! ### Value types -/

/-- `Error` of `result.h`. -/
inductive Error
  | none
  | invalidChannel
  | channelNotPresent
  | invalidArgument
  | notInitialized
  | alreadyInitialized
  | busy
  | internalInvariant
  deriving DecidableEq, Repr

/-- `Status` of `result.h`: whether a state-changing operation succeeded. -/
structure Status where
  error : Error := .none
  deriving DecidableEq, Repr

namespace Status

def ok (status : Status) : Bool := status.error = .none

def success : Status := ⟨.none⟩

def fail (error : Error) : Status := ⟨error⟩

@[simp] theorem ok_success : success.ok = true := rfl

end Status

/-- `kMaxChannels` of `config.h`. -/
def kMaxChannels : ℕ := 4

/-- `RelayState` of `relay_types.h`. -/
inductive RelayState
  | off
  | on
  deriving DecidableEq, Repr

/-- `toggle` of `relay_types.h`. -/
def toggle : RelayState → RelayState
  | .on => .off
  | .off => .on

@[simp] theorem toggle_ne (state : RelayState) : toggle state ≠ state := by
  cases state <;> decide

/-- `CommandSource` of `relay_types.h`: who caused a state change. -/
inductive CommandSource
  | local_
  | cloud
  | lan
  | boot
  | internal
  deriving DecidableEq, Repr

/-! ### The controller -/

/-- The port `RelaySink`: drives one physical channel and reports a hardware failure. -/
class RelaySink (ρ : Type) where
  driveRelay : ρ → ℕ → RelayState → Bool × ρ

/-- A sink that records the drives it is asked for. -/
abbrev DriveLog := List (ℕ × RelayState)

instance : RelaySink DriveLog where
  driveRelay log channel state := (true, log ++ [(channel, state)])

/-- `RelayController`, with the sink it drives. -/
structure RelayController (ρ : Type) where
  sink : ρ
  states : ℕ → RelayState := fun _ ↦ .off
  count : ℕ := 0
  initialized : Bool := false

namespace RelayController

variable {ρ : Type} [RelaySink ρ]

/-- Query `state`: absent channels read as off. -/
def state (relays : RelayController ρ) (channel : ℕ) : RelayState :=
  if channel < relays.count then relays.states channel else .off

def guardChannel (relays : RelayController ρ) (channel : ℕ) : Status :=
  if !relays.initialized then .fail .notInitialized
  else if channel ≥ relays.count then .fail .channelNotPresent
  else .success

/-- `applyState`: records the state and drives the sink. The sink's report is not looked at. -/
def applyState (relays : RelayController ρ) (channel : ℕ) (target : RelayState) :
    RelayController ρ :=
  { relays with
    states := Function.update relays.states channel target
    sink := (RelaySink.driveRelay relays.sink channel target).2 }

/-- The loop `for ch in 0 .. bound: applyState(ch, target ch)`. -/
def applyEach (relays : RelayController ρ) (target : ℕ → RelayState) (bound : ℕ) :
    RelayController ρ :=
  (List.range bound).foldl (fun reached channel ↦ reached.applyState channel (target channel))
    relays

def init (relays : RelayController ρ) (channelCount : ℕ)
    (coldBoot : RelayState := .off) : Status × RelayController ρ :=
  if channelCount = 0 ∨ channelCount > kMaxChannels then (.fail .invalidArgument, relays)
  else
    (.success, { ({ relays with count := channelCount }.applyEach (fun _ ↦ coldBoot) channelCount)
      with initialized := true })

def set (relays : RelayController ρ) (channel : ℕ) (target : RelayState) :
    Status × RelayController ρ :=
  let status := relays.guardChannel channel
  if status.ok then (.success, relays.applyState channel target) else (status, relays)

def toggleChannel (relays : RelayController ρ) (channel : ℕ) :
    Status × RelayController ρ :=
  let status := relays.guardChannel channel
  if status.ok then (.success, relays.applyState channel (toggle (relays.states channel)))
  else (status, relays)

def setAll (relays : RelayController ρ) (target : RelayState) : Status × RelayController ρ :=
  if !relays.initialized then (.fail .notInitialized, relays)
  else (.success, relays.applyEach (fun _ ↦ target) relays.count)

/-! ### One step and the loop -/

@[simp] theorem count_applyState (relays : RelayController ρ) (channel : ℕ)
    (target : RelayState) : (relays.applyState channel target).count = relays.count := rfl

@[simp] theorem initialized_applyState (relays : RelayController ρ) (channel : ℕ)
    (target : RelayState) :
    (relays.applyState channel target).initialized = relays.initialized := rfl

theorem states_applyState (relays : RelayController ρ) (channel other : ℕ)
    (target : RelayState) : (relays.applyState channel target).states other =
      if other = channel then target else relays.states other := by
  simp [applyState, Function.update_apply]

/-- Setting a present channel changes the query on that channel and no other. -/
theorem state_applyState (relays : RelayController ρ) {channel : ℕ}
    (hpresent : channel < relays.count) (target : RelayState) (other : ℕ) :
    (relays.applyState channel target).state other =
      if other = channel then target else relays.state other := by
  simp only [state, count_applyState, states_applyState]
  by_cases hsame : other = channel
  · simp [hsame, hpresent]
  · simp [hsame]

@[simp] theorem applyEach_zero (relays : RelayController ρ) (target : ℕ → RelayState) :
    relays.applyEach target 0 = relays := rfl

theorem applyEach_succ (relays : RelayController ρ) (target : ℕ → RelayState)
    (bound : ℕ) : relays.applyEach target (bound + 1) =
      (relays.applyEach target bound).applyState bound (target bound) := by
  simp [applyEach, List.range_succ]

@[simp] theorem count_applyEach (relays : RelayController ρ) (target : ℕ → RelayState)
    (bound : ℕ) : (relays.applyEach target bound).count = relays.count := by
  induction bound with
  | zero => rfl
  | succ bound ih => rw [applyEach_succ, count_applyState, ih]

@[simp] theorem initialized_applyEach (relays : RelayController ρ)
    (target : ℕ → RelayState) (bound : ℕ) :
    (relays.applyEach target bound).initialized = relays.initialized := by
  induction bound with
  | zero => rfl
  | succ bound ih => rw [applyEach_succ, initialized_applyState, ih]

theorem states_applyEach (relays : RelayController ρ) (target : ℕ → RelayState)
    (bound : ℕ) (channel : ℕ) : (relays.applyEach target bound).states channel =
      if channel < bound then target channel else relays.states channel := by
  induction bound with
  | zero => simp
  | succ bound ih =>
    rw [applyEach_succ, states_applyState, ih]
    rcases lt_trichotomy channel bound with hlt | heq | hgt
    · rw [if_neg hlt.ne, if_pos hlt, if_pos (by omega)]
    · rw [if_pos heq, if_pos (by omega), heq]
    · rw [if_neg hgt.ne', if_neg (by omega), if_neg (by omega)]

/-- The loop drives the channels below the bound, in order. -/
theorem sink_applyEach (relays : RelayController DriveLog) (target : ℕ → RelayState) (bound : ℕ) :
    (relays.applyEach target bound).sink =
      relays.sink ++ (List.range bound).map fun channel ↦ (channel, target channel) := by
  induction bound with
  | zero => simp
  | succ bound ih =>
    rw [applyEach_succ, List.range_succ, List.map_append, ← List.append_assoc, ← ih]
    rfl

/-- The loop over all present channels sets every one of them. -/
theorem state_applyEach (relays : RelayController ρ) (target : ℕ → RelayState)
    {channel : ℕ} (hpresent : channel < relays.count) :
    (relays.applyEach target relays.count).state channel = target channel := by
  simp [state, states_applyEach, hpresent]

/-! ### What an operation can do -/

/-- Reached by `applyState` steps on present channels. -/
def Drives (before after : RelayController ρ) : Prop :=
  Relation.ReflTransGen (fun relays next ↦ ∃ channel < relays.count, ∃ target,
    next = relays.applyState channel target) before after

theorem Drives.refl (relays : RelayController ρ) : Drives relays relays :=
  Relation.ReflTransGen.refl

theorem Drives.trans {first middle last : RelayController ρ} (hfirst : Drives first middle)
    (hlast : Drives middle last) : Drives first last :=
  Relation.ReflTransGen.trans hfirst hlast

theorem Drives.single (relays : RelayController ρ) {channel : ℕ}
    (hpresent : channel < relays.count) (target : RelayState) :
    Drives relays (relays.applyState channel target) :=
  Relation.ReflTransGen.single ⟨channel, hpresent, target, rfl⟩

/-- What one `applyState` on a present channel preserves, every sequence of them preserves. -/
theorem Drives.induction {motive : RelayController ρ → Prop}
    (hstep : ∀ relays channel target, channel < relays.count → motive relays →
      motive (relays.applyState channel target))
    {before after : RelayController ρ} (hdrives : Drives before after)
    (hbefore : motive before) : motive after := by
  induction hdrives with
  | refl => exact hbefore
  | tail _ hlast ih =>
    obtain ⟨channel, hpresent, target, rfl⟩ := hlast
    exact hstep _ _ _ hpresent ih

theorem Drives.count_eq {before after : RelayController ρ} (hdrives : Drives before after) :
    after.count = before.count :=
  hdrives.induction (motive := fun relays ↦ relays.count = before.count)
    (fun _ _ _ _ hcount ↦ hcount) rfl

theorem Drives.initialized_eq {before after : RelayController ρ} (hdrives : Drives before after) :
    after.initialized = before.initialized :=
  hdrives.induction (motive := fun relays ↦ relays.initialized = before.initialized)
    (fun _ _ _ _ hinitialized ↦ hinitialized) rfl

theorem applyEach_drives (relays : RelayController ρ) (target : ℕ → RelayState)
    {bound : ℕ} (hbound : bound ≤ relays.count) :
    Drives relays (relays.applyEach target bound) := by
  induction bound with
  | zero => exact .refl relays
  | succ bound ih =>
    rw [applyEach_succ]
    exact (ih (by omega)).trans (.single _ (by rw [count_applyEach]; omega) _)

omit [RelaySink ρ] in
/-- A channel passes the guard when the controller is initialized and has it. -/
theorem guardChannel_ok_iff (relays : RelayController ρ) (channel : ℕ) :
    (relays.guardChannel channel).ok = true ↔
      relays.initialized = true ∧ channel < relays.count := by
  unfold guardChannel
  cases hinitialized : relays.initialized
  · simp [Status.ok, Status.fail]
  · by_cases hpresent : channel < relays.count
    · simp [hpresent, Nat.not_le.mpr hpresent]
    · simp [hpresent, Status.ok, Status.fail, Nat.le_of_not_lt hpresent]

/-- `set` on a present channel is one step. -/
theorem set_of_present {relays : RelayController ρ} {channel : ℕ}
    (hinitialized : relays.initialized = true) (hpresent : channel < relays.count)
    (target : RelayState) :
    relays.set channel target = (.success, relays.applyState channel target) := by
  simp [set, (relays.guardChannel_ok_iff channel).mpr ⟨hinitialized, hpresent⟩]

/-- `toggleChannel` on a present channel is one step to the other state. -/
theorem toggleChannel_of_present {relays : RelayController ρ} {channel : ℕ}
    (hinitialized : relays.initialized = true) (hpresent : channel < relays.count) :
    relays.toggleChannel channel =
      (.success, relays.applyState channel (toggle (relays.state channel))) := by
  simp [toggleChannel, (relays.guardChannel_ok_iff channel).mpr ⟨hinitialized, hpresent⟩, state,
    hpresent]

omit [RelaySink ρ] in
theorem guardChannel_not_ok {relays : RelayController ρ} {channel : ℕ}
    (habsent : ¬ channel < relays.count) : (relays.guardChannel channel).ok = false :=
  Bool.eq_false_iff.mpr fun hok ↦ habsent ((relays.guardChannel_ok_iff channel).mp hok).2

/-- `set` puts its channel, if it is present, where it is told. -/
theorem state_set {relays : RelayController ρ} (hready : relays.initialized = true)
    (channel : ℕ) (target : RelayState) (other : ℕ) :
    (relays.set channel target).2.state other =
      if other < relays.count ∧ other = channel then target else relays.state other := by
  by_cases hpresent : channel < relays.count
  · rw [set_of_present hready hpresent, relays.state_applyState hpresent]
    by_cases hown : other = channel
    · rw [if_pos hown, if_pos ⟨hown ▸ hpresent, hown⟩]
    · rw [if_neg hown, if_neg fun hboth ↦ hown hboth.2]
  · have habsent : ¬ (other < relays.count ∧ other = channel) := fun hboth ↦
      hpresent (hboth.2 ▸ hboth.1)
    rw [if_neg habsent]
    simp [set, guardChannel_not_ok hpresent]

/-- `toggleChannel` flips its channel, if it is present. -/
theorem state_toggleChannel {relays : RelayController ρ} (hready : relays.initialized = true)
    (channel other : ℕ) : (relays.toggleChannel channel).2.state other =
      if other < relays.count ∧ other = channel then toggle (relays.state other)
      else relays.state other := by
  by_cases hpresent : channel < relays.count
  · rw [toggleChannel_of_present hready hpresent, relays.state_applyState hpresent]
    by_cases hown : other = channel
    · rw [if_pos hown, if_pos ⟨hown ▸ hpresent, hown⟩, hown]
    · rw [if_neg hown, if_neg fun hboth ↦ hown hboth.2]
  · have habsent : ¬ (other < relays.count ∧ other = channel) := fun hboth ↦
      hpresent (hboth.2 ▸ hboth.1)
    rw [if_neg habsent]
    simp [toggleChannel, guardChannel_not_ok hpresent]

/-- `setAll` puts every present channel where it is told. -/
theorem state_setAll {relays : RelayController ρ} (hready : relays.initialized = true)
    (target : RelayState) (other : ℕ) : (relays.setAll target).2.state other =
      if other < relays.count then target else relays.state other := by
  have hall : (relays.setAll target).2 = relays.applyEach (fun _ ↦ target) relays.count := by
    simp [setAll, hready]
  rw [hall]
  by_cases hpresent : other < relays.count
  · rw [relays.state_applyEach _ hpresent, if_pos hpresent]
  · rw [if_neg hpresent]
    simp [state, hpresent]

theorem set_drives (relays : RelayController ρ) (channel : ℕ) (target : RelayState) :
    Drives relays (relays.set channel target).2 := by
  by_cases hok : (relays.guardChannel channel).ok = true
  · simpa [set, hok] using .single relays ((guardChannel_ok_iff _ _).mp hok).2 target
  · simpa [set, hok] using .refl relays

theorem toggleChannel_drives (relays : RelayController ρ) (channel : ℕ) :
    Drives relays (relays.toggleChannel channel).2 := by
  by_cases hok : (relays.guardChannel channel).ok = true
  · simpa [toggleChannel, hok] using .single relays ((guardChannel_ok_iff _ _).mp hok).2 _
  · simpa [toggleChannel, hok] using .refl relays

theorem setAll_drives (relays : RelayController ρ) (target : RelayState) :
    Drives relays (relays.setAll target).2 := by
  unfold setAll
  split_ifs
  · exact .refl relays
  · exact relays.applyEach_drives _ le_rfl

theorem set_of_not_ok {relays : RelayController ρ} {channel : ℕ} {target : RelayState}
    (hfail : (relays.set channel target).1.ok = false) :
    (relays.set channel target).2 = relays := by
  by_cases hok : (relays.guardChannel channel).ok = true
  · simp [set, hok] at hfail
  · simp [set, hok]

theorem toggleChannel_of_not_ok {relays : RelayController ρ} {channel : ℕ}
    (hfail : (relays.toggleChannel channel).1.ok = false) :
    (relays.toggleChannel channel).2 = relays := by
  by_cases hok : (relays.guardChannel channel).ok = true
  · simp [toggleChannel, hok] at hfail
  · simp [toggleChannel, hok]

theorem setAll_of_not_ok {relays : RelayController ρ} {target : RelayState}
    (hfail : (relays.setAll target).1.ok = false) : (relays.setAll target).2 = relays := by
  unfold setAll at hfail ⊢
  split_ifs at hfail ⊢ with hinitialized
  · rfl
  · simp at hfail

/-- A successful `init` is the loop over the channels it was given, from a controller that has
them. -/
theorem init_eq_of_ok {relays : RelayController ρ} {channelCount : ℕ}
    {coldBoot : RelayState} (hok : (relays.init channelCount coldBoot).1.ok = true) :
    (0 < channelCount ∧ channelCount ≤ kMaxChannels) ∧
      (relays.init channelCount coldBoot).2 =
        { ({ relays with count := channelCount }.applyEach (fun _ ↦ coldBoot) channelCount)
          with initialized := true } := by
  unfold init at hok ⊢
  split_ifs at hok ⊢ with hrange
  · simp [Status.ok, Status.fail] at hok
  · exact ⟨by omega, rfl⟩

theorem init_ok_iff (relays : RelayController ρ) (channelCount : ℕ)
    (coldBoot : RelayState) : (relays.init channelCount coldBoot).1.ok = true ↔
      0 < channelCount ∧ channelCount ≤ kMaxChannels := by
  refine ⟨fun hok ↦ (init_eq_of_ok hok).1, fun hrange ↦ ?_⟩
  simp only [init]
  rw [if_neg (by omega)]
  rfl

end RelayController

end LibreSwitch.Domain
