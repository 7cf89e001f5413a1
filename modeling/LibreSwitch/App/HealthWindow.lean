import Mathlib.Tactic
import LibreSwitch.App.CompositionRoot

/-!
# The health window after an update

Whether a boot that finds `ota_pending` enforces the window of `OtaHealthConfirm`: the image is
accepted only if all criteria were met in time, and a net tick after the end of the window either
comes back with the image accepted, or has rolled it back and ends in a reboot (`WindowEnforced`).

`HealthWorld` is what the two tasks share, with the true time next to the readings of the
millisecond counter, and with the time at which the criteria were complete. Time passes and the
control task runs between any two calls of the net task.

The window is not enforced in every run: a net tick returns before `healthTick` while Wi-Fi is not
operational (`offline_never_rolls_back`), criteria that are completed late are still accepted, and
the elapsed time wraps around with the counter. `Timely` says that none of this happens in a step,
and `window_enforced` that the window is enforced in all runs of such steps. The invariant is
`Inv`; `Keeps` is what every step but the decisive ones leaves alone. The guard of the calls is
`Reverted`: no reboot is asked for before the image is rolled back.
-/

set_option autoImplicit false
set_option relaxedAutoImplicit false

namespace LibreSwitch.App

open LibreSwitch.Library LibreSwitch.Domain LibreSwitch.Net LibreSwitch.Platform

/-! ### The shared state -/

/-- What the tasks share after a boot, and the times of the run: when the last net tick was started
and what it read from the clock. -/
structure HealthWorld where
  time : ℕ
  bootTime : ℕ
  startedAt : ℕ
  tickAt : ℕ
  health : OtaHealthConfirm
  otaPending : Bool
  flagStored : Bool
  metAt : Option ℕ := none
  outcome : HealthOutcome := .pending
  rolledBack : Bool := false

namespace HealthWorld

/-- The world after the arming in `begin`. -/
def atBoot {κ : Type} [KvStore κ] (kv : κ) (bootTime : ℕ) : HealthWorld where
  time := bootTime
  bootTime := bootTime
  startedAt := bootTime
  tickAt := bootTime
  health := (CompositionRoot.armHealth kv (UInt32.ofNat bootTime)).2
  otaPending := (CompositionRoot.armHealth kv (UInt32.ofNat bootTime)).1
  flagStored := true

/-- The end of the window. -/
def deadline (world : HealthWorld) : ℕ := world.bootTime + 180000

/-- A milestone, and the time if it completes the criteria. -/
def mark (world : HealthWorld) (health : OtaHealthConfirm) : HealthWorld :=
  { world with
    health := health
    metAt := if world.metAt = none ∧ health.allCriteriaMet = true then some world.time
      else world.metAt }

/-- The line of `controlTick` about the window; the rest of a control tick is the control loop and,
at the end, the factory reset. -/
def controlTick (world : HealthWorld) : HealthWorld :=
  if world.otaPending then world.mark world.health.markLocalControlOk else world

/-- What a call of the net task can answer, and the world it leaves. The services and the radio
answer as they like. A new image that is committed stores the flag again and reboots. A reboot
does not return. -/
def Answers (world : HealthWorld) : (request : RootCall) → RootAns request → HealthWorld → Prop
  | .nowMs, now, world' =>
    now = UInt32.ofNat world.time ∧ world' = { world with tickAt := world.time }
  | .handleOtaManifest _, _, world' => world' = world ∨ world' = { world with flagStored := true }
  | .otaPending, pending, world' => pending = world.otaPending ∧ world' = world
  | .clearOtaPending, _, world' => world' = { world with otaPending := false }
  | .markNetworkUp, _, world' => world' = world.mark world.health.markNetworkUp
  | .markExplicitConfirm, _, world' => world' = world.mark world.health.markExplicitConfirm
  | .evaluate now, outcome, world' =>
    outcome = world.health.evaluate now ∧ world' = { world with outcome := outcome }
  | .erase key, erased, world' =>
    world' = if erased ∧ key = ascii "ota_pending" then { world with flagStored := false }
      else world
  | .rollBack, _, world' => world' = { world with rolledBack := true }
  | .reboot, _, _ => False
  | _, _, world' => world' = world

/-- Between two calls time passes and the control task runs; a factory reset erases the flag. -/
def Interferes (world world' : HealthWorld) : Prop :=
  (∃ elapsed, world' = { world with time := world.time + elapsed }) ∨
    world' = world.controlTick ∨ world' = { world with flagStored := false }

/-- The net task's surroundings. -/
def setting : Setting RootCall RootAns HealthWorld where
  answers := Answers
  interferes := Interferes

/-- A net tick may start at any time. -/
def starts (world : HealthWorld) (_ : Unit) (world' : HealthWorld) : Prop :=
  world' = { world with startedAt := world.time }

/-! ### What enforcing the window means -/

/-- The image is accepted: the flag is cleared as `Confirmed`. -/
def Accepted (world : HealthWorld) : Prop :=
  world.outcome = .confirmed ∧ (world.otaPending = false ∨ world.flagStored = false)

/-- All criteria were met before the end of the window. -/
def MetInTime (world : HealthWorld) : Prop :=
  ∃ met, world.metAt = some met ∧ met < world.deadline

/-- The window is enforced in a configuration: an accepted image met its criteria in time, a net
tick from the end of the window on comes back only if the image is accepted or rolled back, and one
that is about to reboot, which it does not come back from, has rolled the image back. -/
structure WindowEnforced (phase : Component.Phase RootCall RootAns CompositionRoot Unit)
    (world : HealthWorld) : Prop where
  in_time (haccepted : Accepted world) : MetInTime world
  decided (root : CompositionRoot) (hrest : phase = .idle root)
    (hlate : world.deadline ≤ world.startedAt ∨ world.deadline ≤ world.tickAt) :
    Accepted world ∨ world.rolledBack = true
  reverted (resume : RootAns .reboot → Prog RootCall RootAns CompositionRoot)
    (hreboot : phase = .busy () (.call .reboot resume)) : world.rolledBack = true

/-- The steps in which the window works: from its end on, while the image is not accepted, Wi-Fi is
operational when a net tick looks, and the counter has not wrapped around within the elapsed time;
and no evaluation finds criteria that were completed after the end. -/
def Timely (world : HealthWorld) : (request : RootCall) → RootAns request → Prop
  | .provState, state =>
    world.otaPending = true → world.deadline ≤ world.tickAt → state = .operational
  | .evaluate _, _ =>
    (∀ met, world.metAt = some met → met < world.deadline) ∧
      (world.deadline ≤ world.tickAt → 180000 ≤ (world.tickAt - world.bootTime) % 2 ^ 32)
  | _, _ => True

/-! ### The invariant -/

/-- The recorded times agree with the window: `metAt` is set when the criteria are complete, and an
acceptance was in time. -/
structure Sound (world : HealthWorld) : Prop where
  met_iff : world.health.allCriteriaMet = true ↔ world.metAt.isSome = true
  confirmed : world.outcome = .confirmed → MetInTime world

/-- What holds of the shared state at every call of a timely run. -/
structure Inv (world : HealthWorld) : Prop where
  sound : Sound world
  window : world.health.windowMs = 180000
  bootAt : world.health.bootAt = UInt32.ofNat world.bootTime
  started : world.health.started = true
  cleared : world.otaPending = false → world.outcome = .confirmed
  boot_le : world.bootTime ≤ world.tickAt
  tick_le : world.tickAt ≤ world.time
  started_le : world.startedAt ≤ world.time

/-- The invariant once the tick has read the clock. -/
structure Current (world : HealthWorld) : Prop extends Inv world where
  read : world.startedAt ≤ world.tickAt

/-- A milestone is recorded when it completes the criteria. -/
theorem Sound.mark {world : HealthWorld} {health : OtaHealthConfirm} (hsound : Sound world)
    (hmarks : OtaHealthConfirm.Marks world.health health) : Sound (world.mark health) where
  met_iff := by
    change health.allCriteriaMet = true ↔ Option.isSome (ite _ _ _) = true
    split_ifs with hcomplete
    · exact iff_of_true hcomplete.2 rfl
    · rw [← hsound.met_iff]
      refine ⟨fun hhealth ↦ ?_, hmarks.keeps.2.2.2⟩
      have hsome : world.metAt ≠ none := fun hnone ↦ hcomplete ⟨hnone, hhealth⟩
      exact hsound.met_iff.mpr (Option.isSome_iff_ne_none.mpr hsome)
  confirmed := by
    intro hconfirmed
    obtain ⟨met, hmetAt, hearly⟩ := hsound.confirmed hconfirmed
    refine ⟨met, ?_, hearly⟩
    change ite _ _ _ = some met
    rw [if_neg (by rw [hmetAt]; simp), hmetAt]

/-- A step that is not decisive: the invariant is kept, and neither the start of the tick nor a
decision changes. -/
structure Keeps (world world' : HealthWorld) : Prop where
  inv : Inv world → Inv world'
  bootTime_eq : world'.bootTime = world.bootTime
  startedAt_eq : world'.startedAt = world.startedAt
  tickAt_eq : world'.tickAt = world.tickAt
  otaPending_eq : world'.otaPending = world.otaPending
  outcome_eq : world'.outcome = world.outcome
  rolledBack_eq : world'.rolledBack = world.rolledBack

theorem Keeps.refl (world : HealthWorld) : Keeps world world :=
  ⟨id, rfl, rfl, rfl, rfl, rfl, rfl⟩

theorem Keeps.trans {first second third : HealthWorld} (hfirst : Keeps first second)
    (hsecond : Keeps second third) : Keeps first third where
  inv hinv := hsecond.inv (hfirst.inv hinv)
  bootTime_eq := hsecond.bootTime_eq.trans hfirst.bootTime_eq
  startedAt_eq := hsecond.startedAt_eq.trans hfirst.startedAt_eq
  tickAt_eq := hsecond.tickAt_eq.trans hfirst.tickAt_eq
  otaPending_eq := hsecond.otaPending_eq.trans hfirst.otaPending_eq
  outcome_eq := hsecond.outcome_eq.trans hfirst.outcome_eq
  rolledBack_eq := hsecond.rolledBack_eq.trans hfirst.rolledBack_eq

theorem Keeps.current {world world' : HealthWorld} (hkeeps : Keeps world world')
    (hcurrent : Current world) : Current world' where
  toInv := hkeeps.inv hcurrent.toInv
  read := by
    rw [hkeeps.startedAt_eq, hkeeps.tickAt_eq]
    exact hcurrent.read

theorem Keeps.deadline_eq {world world' : HealthWorld} (hkeeps : Keeps world world') :
    world'.deadline = world.deadline := by
  rw [deadline, hkeeps.bootTime_eq, deadline]

/-- A milestone is not decisive. -/
theorem keeps_mark {world : HealthWorld} {health : OtaHealthConfirm}
    (hmarks : OtaHealthConfirm.Marks world.health health) : Keeps world (world.mark health) where
  inv hinv := by
    obtain ⟨hwindow, hbootAt, hstarted, -⟩ := hmarks.keeps
    exact ⟨hinv.sound.mark hmarks, hwindow.trans hinv.window, hbootAt.trans hinv.bootAt,
      hstarted.trans hinv.started, hinv.cleared, hinv.boot_le, hinv.tick_le, hinv.started_le⟩
  bootTime_eq := rfl
  startedAt_eq := rfl
  tickAt_eq := rfl
  otaPending_eq := rfl
  outcome_eq := rfl
  rolledBack_eq := rfl

theorem keeps_flagStored (world : HealthWorld) (stored : Bool) :
    Keeps world { world with flagStored := stored } where
  inv hinv := ⟨⟨hinv.sound.met_iff, hinv.sound.confirmed⟩, hinv.window, hinv.bootAt, hinv.started,
    hinv.cleared, hinv.boot_le, hinv.tick_le, hinv.started_le⟩
  bootTime_eq := rfl
  startedAt_eq := rfl
  tickAt_eq := rfl
  otaPending_eq := rfl
  outcome_eq := rfl
  rolledBack_eq := rfl

theorem keeps_time (world : HealthWorld) (elapsed : ℕ) :
    Keeps world { world with time := world.time + elapsed } where
  inv hinv := ⟨⟨hinv.sound.met_iff, hinv.sound.confirmed⟩, hinv.window, hinv.bootAt, hinv.started,
    hinv.cleared, hinv.boot_le, hinv.tick_le.trans (Nat.le_add_right _ _),
    hinv.started_le.trans (Nat.le_add_right _ _)⟩
  bootTime_eq := rfl
  startedAt_eq := rfl
  tickAt_eq := rfl
  otaPending_eq := rfl
  outcome_eq := rfl
  rolledBack_eq := rfl

theorem keeps_of_interferes {world world' : HealthWorld} (hinterferes : Interferes world world') :
    Keeps world world' := by
  obtain ⟨elapsed, rfl⟩ | rfl | rfl := hinterferes
  · exact keeps_time world elapsed
  · unfold controlTick
    split_ifs
    · exact keeps_mark (.localControlOk _)
    · exact Keeps.refl world
  · exact keeps_flagStored world false

theorem keeps_of_reflTransGen {world world' : HealthWorld}
    (hinterferes : Relation.ReflTransGen Interferes world world') : Keeps world world' := by
  induction hinterferes with
  | refl => exact Keeps.refl world
  | tail _ hlast ih => exact ih.trans (keeps_of_interferes hlast)

/-- The calls that decide nothing. -/
def Neutral : RootCall → Prop
  | .nowMs | .clearOtaPending | .evaluate _ | .rollBack | .reboot => False
  | _ => True

theorem keeps_of_answers {world world' : HealthWorld} {request : RootCall}
    {reply : RootAns request} (hneutral : Neutral request)
    (hanswers : Answers world request reply world') : Keeps world world' := by
  cases request with
  | nowMs | clearOtaPending | evaluate | rollBack | reboot => exact hneutral.elim
  | provBegin | provTick | provState | startSntpOnce | setStatus | isConnected | mqttTick =>
    cases hanswers
    exact Keeps.refl world
  | handleOtaManifest =>
    obtain rfl | rfl := hanswers
    · exact Keeps.refl world'
    · exact keeps_flagStored world true
  | otaPending =>
    obtain ⟨-, rfl⟩ := hanswers
    exact Keeps.refl world'
  | markNetworkUp =>
    cases hanswers
    exact keeps_mark (.networkUp _)
  | markExplicitConfirm =>
    cases hanswers
    exact keeps_mark (.explicitConfirm _)
  | erase key =>
    change world' = ite _ _ _ at hanswers
    rw [hanswers]
    split_ifs
    · exact keeps_flagStored world false
    · exact Keeps.refl world

/-! ### The rules for one call -/

/-- The setting of the timely runs. -/
abbrev timely : Setting RootCall RootAns HealthWorld := setting.restrict Timely

/-- A reboot is asked for only after `rollBack`. -/
def Reverted (world : HealthWorld) (request : RootCall) : Prop :=
  request = .reboot → world.rolledBack = true

variable {α : Type}

/-- The rule for any call: it is answered in a world that the other task may have moved to. -/
theorem wp_call {request : RootCall} {resume : RootAns request → Prog RootCall RootAns α}
    {post : α → HealthWorld → Prop} {world : HealthWorld} (hreverted : Reverted world request)
    (hresume : ∀ last reply world', Keeps world last → Answers last request reply world' →
      Timely last request reply → timely.wp Reverted (resume reply) post world') :
    timely.wp Reverted (.call request resume) post world := by
  intro last hlast
  have hkeeps := keeps_of_reflTransGen hlast
  refine ⟨fun hreboot ↦ hkeeps.rolledBack_eq.trans (hreverted hreboot), ?_⟩
  rintro reply world' ⟨hanswers, htimely⟩
  exact hresume last reply world' hkeeps hanswers htimely

/-- A call that decides nothing is no reboot. -/
theorem Neutral.reverted {request : RootCall} (hneutral : Neutral request) (world : HealthWorld) :
    Reverted world request := by
  rintro rfl
  exact hneutral.elim

/-- The rule for a call that decides nothing. -/
theorem wp_neutral {request : RootCall} {resume : RootAns request → Prog RootCall RootAns α}
    {post : α → HealthWorld → Prop} {world : HealthWorld} (hneutral : Neutral request)
    (hresume : ∀ reply world', Keeps world world' →
      timely.wp Reverted (resume reply) post world') :
    timely.wp Reverted (.call request resume) post world := by
  refine wp_call (hneutral.reverted world) ?_
  intro last reply world' hlast hanswers _
  exact hresume reply world' (hlast.trans (keeps_of_answers hneutral hanswers))

theorem wp_ask_otaPending {resume : Bool → Prog RootCall RootAns α}
    {post : α → HealthWorld → Prop} {world : HealthWorld}
    (hresume : ∀ world', Keeps world world' →
      timely.wp Reverted (resume world.otaPending) post world') :
    timely.wp Reverted (.call .otaPending resume) post world := by
  refine wp_call (by rintro ⟨⟩) ?_
  rintro last reply world' hlast ⟨rfl, rfl⟩ -
  rw [hlast.otaPending_eq]
  exact hresume _ hlast

/-- The rule for a value whose postcondition is kept by everything that decides nothing. -/
theorem wp_return {value : α} {post : α → HealthWorld → Prop} {world : HealthWorld}
    (hpost : ∀ world', Keeps world world' → post value world') :
    timely.wp Reverted (.ret value) post world :=
  fun _ hlast ↦ hpost _ (keeps_of_reflTransGen hlast)

/-! ### The parts of a tick -/

theorem wp_systemCommands (commands : List SystemCommand) (world : HealthWorld) :
    timely.wp Reverted (CompositionRoot.systemCommands commands) (fun _ ↦ Keeps world)
      world := by
  induction commands generalizing world with
  | nil => exact wp_return fun _ hkeeps ↦ hkeeps
  | cons command rest ih =>
    have hrest (world' : HealthWorld) (hkeeps : Keeps world world') :
        timely.wp Reverted (CompositionRoot.systemCommands rest) (fun _ ↦ Keeps world) world' :=
      Setting.wp_mono (fun _ _ ↦ hkeeps.trans) (ih world')
    cases command with
    | otaManifest payload => exact wp_neutral trivial fun _ world' hkeeps ↦ hrest world' hkeeps
    | otaConfirm =>
      refine wp_neutral trivial fun pending world' hkeeps ↦ ?_
      cases pending with
      | false => exact hrest world' hkeeps
      | true =>
        exact wp_neutral trivial fun _ world'' hkeeps' ↦ hrest world'' (hkeeps.trans hkeeps')

theorem wp_beginProvisioning (root : CompositionRoot) (now : Millis) (world : HealthWorld) :
    timely.wp Reverted (root.beginProvisioning now)
      (fun root' world' ↦ root'.prov = root.prov ∧ Keeps world world') world := by
  unfold CompositionRoot.beginProvisioning
  simp only [Prog.ask_bind, Prog.pure_eq]
  split_ifs
  · refine wp_neutral trivial fun state world' hkeeps ↦ ?_
    split_ifs
    · refine wp_neutral trivial fun _ world'' hkeeps' ↦ ?_
      exact wp_return fun _ hlast ↦ ⟨rfl, (hkeeps.trans hkeeps').trans hlast⟩
    · exact wp_return fun _ hlast ↦ ⟨rfl, hkeeps.trans hlast⟩
  · exact wp_return fun _ hlast ↦ ⟨rfl, hlast⟩

theorem wp_noteOperational (root : CompositionRoot) (operational : Bool) (world : HealthWorld) :
    timely.wp Reverted (root.noteOperational operational)
      (fun root' world' ↦ root'.prov = root.prov ∧ Keeps world world') world := by
  unfold CompositionRoot.noteOperational
  simp only [Prog.ask_bind, Prog.pure_eq]
  by_cases hfirst : (operational && !root.wifiOperational) = true
  · rw [if_pos hfirst]
    refine wp_neutral trivial fun _ world' hkeeps ↦ ?_
    refine wp_neutral trivial fun _ world'' hkeeps' ↦ ?_
    exact wp_return fun _ hlast ↦ ⟨rfl, (hkeeps.trans hkeeps').trans hlast⟩
  · rw [if_neg hfirst]
    exact wp_return fun _ hlast ↦ ⟨rfl, hlast⟩

theorem wp_showConnection (was connected : Bool) (world : HealthWorld) :
    timely.wp Reverted (CompositionRoot.showConnection was connected) (fun _ ↦ Keeps world)
      world := by
  unfold CompositionRoot.showConnection
  split_ifs
  · exact wp_neutral trivial fun _ _ hkeeps ↦ wp_return fun _ hlast ↦ hkeeps.trans hlast
  · exact wp_neutral trivial fun _ _ hkeeps ↦ wp_return fun _ hlast ↦ hkeeps.trans hlast
  · exact wp_return fun _ hlast ↦ hlast

theorem wp_tickMqtt (root : CompositionRoot) (now : Millis) (world : HealthWorld) :
    timely.wp Reverted (root.tickMqtt now) (fun _ ↦ Keeps world) world := by
  unfold CompositionRoot.tickMqtt
  simp only [Prog.ask_bind, Prog.pure_eq]
  split_ifs
  · refine wp_neutral trivial fun was first hfirst ↦ ?_
    refine wp_neutral trivial fun commands second hsecond ↦ ?_
    apply Setting.wp_bind
    refine Setting.wp_mono (fun _ third hthird ↦ ?_) (wp_systemCommands commands second)
    refine wp_neutral trivial fun connected fourth hfourth ↦ ?_
    apply Setting.wp_bind
    refine Setting.wp_mono (fun _ fifth hfifth ↦ ?_) (wp_showConnection was connected fourth)
    have hkeeps := (((hfirst.trans hsecond).trans hthird).trans hfourth).trans hfifth
    refine wp_neutral trivial fun pending sixth hsixth ↦ ?_
    split_ifs
    · refine wp_neutral trivial fun _ seventh hseventh ↦ ?_
      exact wp_return fun _ hlast ↦ ((hkeeps.trans hsixth).trans hseventh).trans hlast
    · exact wp_return fun _ hlast ↦ (hkeeps.trans hsixth).trans hlast
  · exact wp_return fun _ hlast ↦ hlast

/-! ### The decision -/

/-- From the end of the window on, the image is accepted or rolled back. -/
def Decided (world : HealthWorld) : Prop :=
  world.deadline ≤ world.tickAt → world.otaPending = false ∨ world.rolledBack = true

theorem Keeps.decided {world world' : HealthWorld} (hkeeps : Keeps world world')
    (hdecided : Decided world) : Decided world' := by
  unfold Decided
  rw [hkeeps.deadline_eq, hkeeps.tickAt_eq, hkeeps.otaPending_eq, hkeeps.rolledBack_eq]
  exact hdecided

/-- The elapsed time of an evaluation, as a number. -/
theorem toNat_elapsed {world : HealthWorld} (hinv : Inv world) :
    (world.health.elapsed (UInt32.ofNat world.tickAt)).toNat =
      (world.tickAt - world.bootTime) % 2 ^ 32 := by
  have hle := hinv.boot_le
  rw [OtaHealthConfirm.elapsed, hinv.bootAt, UInt32.toNat_sub, UInt32.toNat_ofNat',
    UInt32.toNat_ofNat']
  omega

/-- An evaluation that accepts found criteria that were complete in time. -/
theorem metInTime_of_confirmed {world : HealthWorld} {now : Millis} (hsound : Sound world)
    (htimely : Timely world (.evaluate now) .confirmed)
    (hconfirmed : world.health.evaluate now = .confirmed) : MetInTime world := by
  have hcriteria := (OtaHealthConfirm.evaluate_eq_confirmed_iff.mp hconfirmed).2
  obtain ⟨met, hmet⟩ := Option.isSome_iff_exists.mp (hsound.met_iff.mp hcriteria)
  exact ⟨met, hmet, htimely.1 met hmet⟩

/-- An evaluation that waits was made before the end of the window. -/
theorem lt_deadline_of_pending {world : HealthWorld} (hinv : Inv world)
    (htimely : Timely world (.evaluate (UInt32.ofNat world.tickAt)) .pending)
    (hpending : world.health.evaluate (UInt32.ofNat world.tickAt) = .pending) :
    world.tickAt < world.deadline := by
  by_contra hlate
  have hcriteria : world.health.allCriteriaMet = false := by
    by_contra hmet
    rw [OtaHealthConfirm.evaluate_eq_confirmed_iff.mpr ⟨hinv.started, by simpa using hmet⟩]
      at hpending
    cases hpending
  have hwindow : world.health.windowMs ≤ world.health.elapsed (UInt32.ofNat world.tickAt) := by
    rw [UInt32.le_iff_toNat_le, toNat_elapsed hinv, hinv.window]
    exact htimely.2 (by omega)
  rw [OtaHealthConfirm.evaluate_eq_rollback_iff.mpr ⟨hinv.started, hcriteria, hwindow⟩] at hpending
  cases hpending

/-- An outcome that is not against the invariant can be recorded. -/
theorem Current.outcome {world : HealthWorld} (hcurrent : Current world)
    (hpending : world.otaPending = true) (outcome : HealthOutcome)
    (houtcome : outcome = .confirmed → MetInTime world) :
    Current { world with outcome := outcome } where
  sound := ⟨hcurrent.sound.met_iff, houtcome⟩
  window := hcurrent.window
  bootAt := hcurrent.bootAt
  started := hcurrent.started
  cleared hcleared := absurd (hpending.symm.trans hcleared) (by simp)
  boot_le := hcurrent.boot_le
  tick_le := hcurrent.tick_le
  started_le := hcurrent.started_le
  read := hcurrent.read

/-- What a net tick establishes. -/
def Settled (world : HealthWorld) : Prop := Current world ∧ Decided world

theorem Keeps.settled {world world' : HealthWorld} (hkeeps : Keeps world world')
    (hsettled : Settled world) : Settled world' :=
  ⟨hkeeps.current hsettled.1, hkeeps.decided hsettled.2⟩

theorem wp_acceptImage {world : HealthWorld} (hcurrent : Current world)
    (hconfirmed : world.outcome = .confirmed) :
    timely.wp Reverted CompositionRoot.acceptImage (fun _ ↦ Settled) world := by
  unfold CompositionRoot.acceptImage
  simp only [Prog.ask_bind]
  refine wp_neutral trivial fun _ first hfirst ↦ ?_
  refine wp_neutral trivial fun _ second hsecond ↦ ?_
  refine wp_call (by rintro ⟨⟩) ?_
  rintro last _ world' hlast rfl -
  have hkeeps := (hfirst.trans hsecond).trans hlast
  have hlast' := hkeeps.current hcurrent
  have hinv' : Inv { last with otaPending := false } :=
    ⟨⟨hlast'.sound.met_iff, hlast'.sound.confirmed⟩, hlast'.window, hlast'.bootAt, hlast'.started,
      fun _ ↦ hkeeps.outcome_eq.trans hconfirmed, hlast'.boot_le, hlast'.tick_le,
      hlast'.started_le⟩
  exact wp_return fun _ hrest ↦ hrest.settled ⟨⟨hinv', hlast'.read⟩, fun _ ↦ .inl rfl⟩

/-- The image is rolled back before the reboot, which ends the run. -/
theorem wp_revertImage (world : HealthWorld) :
    timely.wp Reverted CompositionRoot.revertImage (fun _ ↦ Settled) world := by
  unfold CompositionRoot.revertImage
  simp only [Prog.ask_bind]
  refine wp_neutral trivial fun _ first _ ↦ ?_
  refine wp_neutral trivial fun _ second _ ↦ ?_
  refine wp_call (by rintro ⟨⟩) ?_
  rintro last _ third - hrolled -
  have hrolledBack : third.rolledBack = true := by rw [hrolled]
  refine wp_call (fun _ ↦ hrolledBack) ?_
  rintro _ _ _ - hreboot
  exact hreboot.elim

theorem wp_healthTick {world : HealthWorld} (hcurrent : Current world)
    (hpending : world.otaPending = true) :
    timely.wp Reverted (CompositionRoot.healthTick (UInt32.ofNat world.tickAt))
      (fun _ ↦ Settled) world := by
  unfold CompositionRoot.healthTick
  simp only [Prog.ask_bind]
  refine wp_call (by rintro ⟨⟩) ?_
  rintro last outcome world' hlast ⟨houtcome, rfl⟩ htimely
  rw [← hlast.tickAt_eq] at houtcome htimely
  have hlast' := hlast.current hcurrent
  have hpending' : last.otaPending = true := hlast.otaPending_eq.trans hpending
  cases outcome with
  | confirmed =>
    exact wp_acceptImage (hlast'.outcome hpending' _ fun _ ↦
      metInTime_of_confirmed hlast'.sound htimely houtcome.symm) rfl
  | rollback => exact wp_revertImage _
  | pending =>
    have hearly := lt_deadline_of_pending hlast'.toInv htimely houtcome.symm
    refine wp_return fun _ hrest ↦ hrest.settled ⟨hlast'.outcome hpending' _ (by simp), ?_⟩
    exact fun hlate ↦ absurd hearly (not_lt.mpr hlate)

theorem wp_tickHealth {world : HealthWorld} (hcurrent : Current world) :
    timely.wp Reverted (CompositionRoot.tickHealth (UInt32.ofNat world.tickAt))
      (fun _ ↦ Settled) world := by
  unfold CompositionRoot.tickHealth
  simp only [Prog.ask_bind, Prog.pure_eq]
  refine wp_ask_otaPending fun world' hkeeps ↦ ?_
  split_ifs with hpending
  · rw [← hkeeps.tickAt_eq]
    exact wp_healthTick (hkeeps.current hcurrent) (hkeeps.otaPending_eq.trans hpending)
  · refine wp_return fun _ hrest ↦ (hkeeps.trans hrest).settled ⟨hcurrent, fun _ ↦ .inl ?_⟩
    simpa using hpending

/-- What holds between two net ticks. -/
def Rests (root : CompositionRoot) (world : HealthWorld) : Prop := root.prov = true ∧ Settled world

theorem wp_tickOperational {root : CompositionRoot} {world : HealthWorld} (hprov : root.prov = true)
    (hcurrent : Current world) :
    timely.wp Reverted (root.tickOperational (UInt32.ofNat world.tickAt)) Rests world := by
  unfold CompositionRoot.tickOperational
  apply Setting.wp_bind
  refine Setting.wp_mono (fun _ world' hkeeps ↦ ?_) (wp_tickMqtt root _ world)
  rw [← hkeeps.tickAt_eq]
  apply Setting.wp_bind
  refine Setting.wp_mono (fun _ world'' hsettled ↦ ?_) (wp_tickHealth (hkeeps.current hcurrent))
  exact wp_return fun _ hrest ↦ ⟨hprov, hrest.settled hsettled⟩

/-- Where Wi-Fi is not operational, a timely tick has nothing to decide. -/
theorem decided_of_offline {world : HealthWorld} {state : ProvState}
    (htimely : Timely world .provState state) (hstate : state ≠ .operational) :
    Decided world := by
  intro hlate
  by_contra hundecided
  rw [not_or] at hundecided
  exact hstate (htimely (by simpa using hundecided.1) hlate)

theorem wp_netTick {root : CompositionRoot} {world : HealthWorld} (hprov : root.prov = true)
    (hinv : Inv world) : timely.wp Reverted root.netTick Rests world := by
  unfold CompositionRoot.netTick
  simp only [Prog.ask_bind, Prog.pure_eq, hprov, Bool.not_true, Bool.false_eq_true, ↓reduceIte]
  refine wp_call (by rintro ⟨⟩) ?_
  rintro last now started hlast ⟨rfl, hstarted⟩ -
  have hlast' := hlast.inv hinv
  have hcurrent : Current started := by
    rw [hstarted]
    exact ⟨⟨⟨hlast'.sound.met_iff, hlast'.sound.confirmed⟩, hlast'.window, hlast'.bootAt,
      hlast'.started, hlast'.cleared, hlast'.boot_le.trans hlast'.tick_le, le_rfl,
      hlast'.started_le⟩, hlast'.started_le⟩
  have hnow : last.time = started.tickAt := by rw [hstarted]
  rw [hnow]
  apply Setting.wp_bind
  refine Setting.wp_mono ?_ (wp_beginProvisioning root _ started)
  rintro root' first ⟨hroot', hfirst⟩
  refine wp_neutral trivial fun _ second hsecond ↦ ?_
  refine wp_call (by rintro ⟨⟩) ?_
  rintro _ state third hthird rfl htimely
  have hkeeps := (hfirst.trans hsecond).trans hthird
  apply Setting.wp_bind
  refine Setting.wp_mono ?_ (wp_noteOperational root' _ third)
  rintro root'' fourth ⟨hroot'', hfourth⟩
  have hprov'' : root''.prov = true := hroot''.trans (hroot'.trans hprov)
  split_ifs with hstate
  · refine wp_return fun _ hrest ↦ ⟨hprov'', (hfourth.trans hrest).settled ?_⟩
    exact ⟨hkeeps.current hcurrent, decided_of_offline htimely hstate⟩
  · rw [← (hkeeps.trans hfourth).tickAt_eq]
    exact wp_tickOperational hprov'' ((hkeeps.trans hfourth).current hcurrent)

/-! ### All runs -/

theorem rests_atBoot {κ : Type} [KvStore κ] {kv : κ}
    (hpending : KvStore.getBlob kv (ascii "ota_pending") 1 = (1, [1])) (mqtt : Bool)
    (bootTime : ℕ) : Rests (.begun mqtt) (atBoot kv bootTime) := by
  have harmed : CompositionRoot.armHealth kv (UInt32.ofNat bootTime) =
      (true, OtaHealthConfirm.onBoot {} (UInt32.ofNat bootTime)) := by
    rw [CompositionRoot.armHealth, hpending]
    rfl
  refine ⟨rfl, ?_, ?_⟩
  · refine ⟨⟨⟨?_, ?_⟩, ?_, ?_, ?_, ?_, le_rfl, le_rfl, le_rfl⟩, le_rfl⟩
    all_goals simp [atBoot, harmed, OtaHealthConfirm.onBoot, OtaHealthConfirm.allCriteriaMet]
  · intro hlate
    simp only [atBoot, deadline] at hlate
    omega

/-- An acceptance is in time, whatever the net task asks. -/
theorem sound_of_answers {world world' : HealthWorld} {request : RootCall}
    {reply : RootAns request} (hsound : Sound world)
    (hanswers : timely.answers world request reply world') : Sound world' := by
  obtain ⟨hanswers, htimely⟩ := hanswers
  cases request with
  | reboot => exact hanswers.elim
  | provBegin | provTick | provState | startSntpOnce | setStatus | isConnected | mqttTick =>
    cases hanswers
    exact hsound
  | nowMs | otaPending =>
    obtain ⟨-, rfl⟩ := hanswers
    exact ⟨hsound.met_iff, hsound.confirmed⟩
  | clearOtaPending | rollBack =>
    cases hanswers
    exact ⟨hsound.met_iff, hsound.confirmed⟩
  | handleOtaManifest =>
    obtain rfl | rfl := hanswers
    · exact hsound
    · exact ⟨hsound.met_iff, hsound.confirmed⟩
  | markNetworkUp =>
    cases hanswers
    exact hsound.mark (.networkUp _)
  | markExplicitConfirm =>
    cases hanswers
    exact hsound.mark (.explicitConfirm _)
  | evaluate now =>
    obtain ⟨houtcome, rfl⟩ := hanswers
    refine ⟨hsound.met_iff, fun hconfirmed ↦ ?_⟩
    have hreply : reply = HealthOutcome.confirmed := hconfirmed
    rw [hreply] at houtcome
    have hmet := metInTime_of_confirmed hsound htimely houtcome.symm
    exact hmet
  | erase key =>
    change world' = ite _ _ _ at hanswers
    rw [hanswers]
    split_ifs
    · exact ⟨hsound.met_iff, hsound.confirmed⟩
    · exact hsound

theorem sound_of_interferes {world world' : HealthWorld} (hsound : Sound world)
    (hinterferes : Interferes world world') : Sound world' := by
  obtain ⟨elapsed, rfl⟩ | rfl | rfl := hinterferes
  · exact ⟨hsound.met_iff, hsound.confirmed⟩
  · unfold controlTick
    split_ifs
    · exact hsound.mark (.localControlOk _)
    · exact hsound
  · exact ⟨hsound.met_iff, hsound.confirmed⟩

/-- The health window is enforced in every run whose steps are timely. -/
theorem window_enforced {κ : Type} [KvStore κ] (kv : κ)
    (hpending : KvStore.getBlob kv (ascii "ota_pending") 1 = (1, [1])) (mqtt : Bool)
    (bootTime : ℕ) {phase : Component.Phase RootCall RootAns CompositionRoot Unit}
    {world : HealthWorld}
    (hsteps : CompositionRoot.netTask.Steps (setting.restrict Timely) starts
      (.idle (.begun mqtt), atBoot kv bootTime) (phase, world)) :
    WindowEnforced phase world := by
  have hrests := rests_atBoot hpending mqtt bootTime
  have hsound : Sound world := by
    refine Component.world_rule ?_ ?_ ?_ hsteps hrests.2.1.sound
    · exact fun _ _ _ _ ↦ sound_of_answers
    · rintro first _ second hfirst rfl
      exact ⟨hfirst.met_iff, hfirst.confirmed⟩
    · exact fun _ _ ↦ sound_of_interferes
  have hmaintained : Component.Maintains timely Reverted Rests (phase, world) := by
    refine Component.invariant_rule ?_ ?_ hsteps hrests
    · rintro root first second ⟨hprov, hsettled⟩ hinterferes
      exact ⟨hprov, (keeps_of_interferes hinterferes).settled hsettled⟩
    · rintro root _ first second ⟨hprov, hcurrent, -⟩ rfl
      exact wp_netTick hprov ⟨⟨hcurrent.sound.met_iff, hcurrent.sound.confirmed⟩, hcurrent.window,
        hcurrent.bootAt, hcurrent.started, hcurrent.cleared, hcurrent.boot_le, hcurrent.tick_le,
        le_rfl⟩
  refine ⟨fun haccepted ↦ hsound.confirmed haccepted.1, ?_, ?_⟩
  · rintro root rfl hlate
    obtain ⟨-, hcurrent, hdecided⟩ := (hmaintained : Rests root world)
    have htick : world.deadline ≤ world.tickAt :=
      hlate.elim (fun hstarted ↦ hstarted.trans hcurrent.read) id
    refine (hdecided htick).imp_left fun hcleared ↦ ?_
    exact ⟨hcurrent.cleared hcleared, .inl hcleared⟩
  · rintro resume rfl
    exact Setting.wp_guard hmaintained rfl

/-- The store of a device that booted after an update. -/
def updatedKv : KvMap := ⟨Function.update (fun _ ↦ none) (ascii "ota_pending") (some [1])⟩

/-- The calls of a tick with Wi-Fi and without a broker, up to the reboot. Its evaluation has to be
timely. -/
def lateCalls (world : HealthWorld) : (request : RootCall) → Option (RootAns request × HealthWorld)
  | .nowMs => some (UInt32.ofNat world.time, { world with tickAt := world.time })
  | .provBegin _ | .provState => some (.operational, world)
  | .provTick _ | .startSntpOnce | .setStatus _ => some ((), world)
  | .isConnected => some (false, world)
  | .mqttTick _ _ _ => some ([], world)
  | .otaPending => some (world.otaPending, world)
  | .evaluate now =>
    if world.metAt = none ∧ 180000 ≤ (world.tickAt - world.bootTime) % 2 ^ 32 then
      some (world.health.evaluate now, { world with outcome := world.health.evaluate now })
    else none
  | .erase key =>
    some (true, if key = ascii "ota_pending" then { world with flagStored := false } else world)
  | .rollBack => some (true, { world with rolledBack := true })
  | _ => none

theorem answers_lateCalls (world : HealthWorld) (request : RootCall)
    (reply : RootAns request × HealthWorld) (hreply : lateCalls world request = some reply) :
    timely.answers world request reply.1 reply.2 := by
  cases request with
  | handleOtaManifest | clearOtaPending | markNetworkUp | markExplicitConfirm | reboot =>
    cases hreply
  | nowMs | otaPending =>
    obtain rfl := Option.some.inj hreply
    exact ⟨⟨rfl, rfl⟩, trivial⟩
  | provState =>
    obtain rfl := Option.some.inj hreply
    exact ⟨rfl, fun _ _ ↦ rfl⟩
  | evaluate now =>
    obtain ⟨⟨hunmet, hlate⟩, hreply⟩ := Option.ite_none_right_eq_some.mp hreply
    obtain rfl := Option.some.inj hreply
    refine ⟨⟨rfl, rfl⟩, fun met hmet ↦ ?_, fun _ ↦ hlate⟩
    rw [hunmet] at hmet
    cases hmet
  | erase key =>
    obtain rfl := Option.some.inj hreply
    refine ⟨?_, trivial⟩
    change _ = ite _ _ _
    simp
  | provBegin | provTick | startSntpOnce | setStatus | isConnected | mqttTick | rollBack =>
    obtain rfl := Option.some.inj hreply
    exact ⟨rfl, trivial⟩

/-- The first tick at the end of the window: nothing was confirmed in it. -/
def lateTick : Prog RootCall RootAns CompositionRoot × HealthWorld :=
  (CompositionRoot.begun true).netTick.runUntil lateCalls
    { atBoot updatedKv 0 with time := 180000, startedAt := 180000 }

/-- The device is about to reboot, with the image rolled back. -/
theorem window_enforced_witness :
    lateTick.1.pending = some .reboot ∧ lateTick.2.rolledBack = true ∧
      WindowEnforced (.busy () lateTick.1) lateTick.2 := by
  have hsteps : CompositionRoot.netTask.Steps (setting.restrict Timely) starts
      (.idle (.begun true), atBoot updatedKv 0) (.busy () lateTick.1, lateTick.2) :=
    .head (.interfere (.inl ⟨180000, rfl⟩)) (.head (.start rfl)
      (@Component.steps_runUntil _ _ _ _ _ CompositionRoot.netTask timely starts _ id lateCalls
        answers_lateCalls () _ _))
  have hpending : lateTick.1.pending = some .reboot := by rfl
  obtain ⟨resume, hresume⟩ := Prog.exists_of_pending hpending
  have henforced := window_enforced updatedKv rfl true 0 hsteps
  exact ⟨hpending, henforced.reverted resume (congrArg (Component.Phase.busy ()) hresume),
    henforced⟩

/-- An image that breaks Wi-Fi: at the end of the window a net tick finds the portal open and
returns, and the image is neither accepted nor rolled back. -/
theorem offline_never_rolls_back :
    ∃ phase world, CompositionRoot.netTask.Steps setting starts
      (.idle (.begun false), atBoot updatedKv 0) (phase, world) ∧ ¬ WindowEnforced phase world := by
  have hstart (world : HealthWorld) : starts world () { world with startedAt := world.time } := rfl
  have hnow (world : HealthWorld) : setting.answers world .nowMs (UInt32.ofNat world.time)
      { world with tickAt := world.time } := ⟨rfl, rfl⟩
  have hbegin (world : HealthWorld) (now : Millis) :
      setting.answers world (.provBegin now) .apPortal world := rfl
  have hstatus (world : HealthWorld) (status : DeviceStatus) :
      setting.answers world (.setStatus status) () world := rfl
  have htick (world : HealthWorld) (now : Millis) :
      setting.answers world (.provTick now) () world := rfl
  have hstate (world : HealthWorld) : setting.answers world .provState .apPortal world := rfl
  refine ⟨.idle { CompositionRoot.begun false with provBegun := true },
    { atBoot updatedKv 0 with time := 180000, startedAt := 180000, tickAt := 180000 }, ?_,
    fun henforced ↦ ?_⟩
  · apply Relation.ReflTransGen.head (.interfere (.inl ⟨180000, rfl⟩))
    apply Relation.ReflTransGen.head (.start (hstart _))
    apply Relation.ReflTransGen.head (.answer (hnow _))
    apply Relation.ReflTransGen.head (.answer (hbegin _ _))
    apply Relation.ReflTransGen.head (.answer (hstatus _ _))
    apply Relation.ReflTransGen.head (.answer (htick _ _))
    apply Relation.ReflTransGen.head (.answer (hstate _))
    exact .single .finish
  · obtain ⟨houtcome, -⟩ | hrolled := henforced.decided _ rfl (.inr (by decide))
    · cases houtcome
    · cases hrolled

end HealthWorld

end LibreSwitch.App
