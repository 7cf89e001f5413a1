import LibreSwitch.Net.ProvisioningService
import LibreSwitch.Platform.KvStore

/-!
# The stored Wi-Fi credentials

`ProvisioningService` stores an SSID and a password after they joined, and `begin` reads them back
after a reboot. They are two keys, written one after the other, and neither result is looked at.

`World` is the store and the pairs for which `connectSta` returned true. Its ghost `due` is set
between the two writes of a submission, with the result of the first. `setting` answers every call
in any way the seams can; `Paired` is the condition on the second write under which the keys stay a
pair: it takes effect exactly if the first one did, or what it leaves has joined before. With power
cycles that do not fall between two such writes, the stored pair is then absent or one that joined,
in every life of the device (`pairOk_of_lives`).
-/

set_option autoImplicit false
set_option relaxedAutoImplicit false

namespace LibreSwitch.Net

open LibreSwitch.Library LibreSwitch.Domain LibreSwitch.Platform

/-- The texts are C strings in the buffers of `ProvisioningCredentials`. -/
structure FitsBuffers (ssid pass : Bytes) : Prop where
  zero_notMem_ssid : (0 : UInt8) ∉ ssid
  zero_notMem_pass : (0 : UInt8) ∉ pass
  length_ssid : ssid.length < kMaxSsid
  length_pass : pass.length < kMaxPass

namespace StoredCredentials

open ProvisioningService

/-! ### The store and the joins -/

/-- The store, the pairs that joined, whether `begin` is the operation that runs, and the result of
a write of the SSID whose password is still due. -/
structure World where
  kv : KvMap
  joins : List (Bytes × Bytes) := []
  starting : Bool := false
  due : Option Bool := none

/-- The store holds exactly this pair. -/
def HoldsPair (ssid pass : Bytes) (kv : KvMap) : Prop :=
  kv.blobs (ascii "sta_ssid") = some (ssid ++ [0]) ∧
    kv.blobs (ascii "sta_pass") = some (pass ++ [0])

/-- The store holds a pair that joined. -/
def HoldsJoined (joins : List (Bytes × Bytes)) (kv : KvMap) : Prop :=
  ∃ ssid pass, (ssid, pass) ∈ joins ∧ FitsBuffers ssid pass ∧ HoldsPair ssid pass kv

/-- The store holds no pair. -/
def Absent (kv : KvMap) : Prop :=
  kv.blobs (ascii "sta_ssid") = none ∧ kv.blobs (ascii "sta_pass") = none

/-- The stored pair is absent or has joined. -/
def PairOk (world : World) : Prop := Absent world.kv ∨ HoldsJoined world.joins world.kv

/-- The same store as far as the two keys go. -/
def SameCreds (kv kv' : KvMap) : Prop :=
  kv'.blobs (ascii "sta_ssid") = kv.blobs (ascii "sta_ssid") ∧
    kv'.blobs (ascii "sta_pass") = kv.blobs (ascii "sta_pass")

/-- The result of a write whose password is due, after a write of this key. -/
def dueAfter (due : Option Bool) (key : Bytes) (stored : Bool) : Option Bool :=
  if key = ascii "sta_ssid" then some stored
  else if key = ascii "sta_pass" then none
  else due

/-- An answered call. The portal hands over texts that fit their buffers, an enrollment may write
other keys, reads are faithful, and a write may fail. -/
def World.Answers (world : World) : (request : ProvCall) → ProvAns request → World → Prop
  | .setBlob key data, stored, world' =>
    world' = { world with
      kv := world.kv.after (.setBlob key data) stored
      due := dueAfter world.due key stored }
  | .getBlob key bufLen, read, world' =>
    read = KvStore.getBlob world.kv key bufLen ∧ world' = world
  | .connectSta ssid pass _, joined, world' =>
    world' = { world with joins := if joined then (ssid, pass) :: world.joins else world.joins }
  | .enroll _, _, world' => ∃ kv, SameCreds world.kv kv ∧ world' = { world with kv := kv }
  | .poll, submissions, world' =>
    (∀ creds ∈ submissions, FitsBuffers creds.ssid creds.pass) ∧ world' = world
  | _, _, world' => world' = world

/-- The seams around the service. -/
def setting : Setting ProvCall ProvAns World where
  answers := World.Answers

/-- The condition on the second write of a submission: it takes effect exactly if the first one
did, or the pair it leaves has joined before. -/
def Paired (world : World) : (request : ProvCall) → ProvAns request → Prop
  | .setBlob key data, stored =>
    ∀ ssidStored, world.due = some ssidStored → key = ascii "sta_pass" →
      stored = ssidStored ∨ HoldsJoined world.joins (world.kv.after (.setBlob key data) stored)
  | _, _ => True

/-- The seams when the two writes of every submission are paired. -/
def pairedSetting : Setting ProvCall ProvAns World := setting.restrict Paired

/-- An operation starts. -/
def starts (world : World) : Operation → World → Prop
  | .begin _, world' => world' = { world with starting := true }
  | .tick _, world' => world' = { world with starting := false }

/-- A power cycle: the store is what remains, and the service is constructed anew. -/
def boots (world : World) (service : ProvisioningService) (world' : World) : Prop :=
  service = { cfg := service.cfg } ∧ world' = { world with starting := false, due := none }

/-- A power cycle that does not fall between the two writes of a submission, unless the keys hold
a pair that joined there too. -/
def cleanBoots (world : World) (service : ProvisioningService) (world' : World) : Prop :=
  (world.due = some true → HoldsJoined world.joins world.kv) ∧ boots world service world'

/-- What holds at every moment: except between the two writes of a submission, the stored pair is
absent or has joined, and there an SSID is stored. -/
structure Sound (world : World) : Prop where
  pairOk : world.due ≠ some true → PairOk world
  ssid_stored : world.due = some true → world.kv.blobs (ascii "sta_ssid") ≠ none

/-- What holds at every call: the world is sound, and `begin` joins with the stored pair. -/
def guard (world : World) (request : ProvCall) : Prop :=
  Sound world ∧ ∀ ssid pass timeoutMs, request = .connectSta ssid pass timeoutMs →
    world.starting = true → HoldsPair ssid pass world.kv

/-- No write is due, and the stored pair is absent or has joined. -/
structure Calm (starting : Bool) (world : World) : Prop where
  due_eq : world.due = none
  starting_eq : world.starting = starting
  pairOk : PairOk world

theorem Calm.sound {starting : Bool} {world : World} (hcalm : Calm starting world) :
    Sound world := by
  refine ⟨fun _ ↦ hcalm.pairOk, fun hdue ↦ ?_⟩
  rw [hcalm.due_eq] at hdue
  cases hdue

/-! ### Calls that leave the pair alone -/

/-- A call that neither writes nor joins. -/
def Harmless : ProvCall → Prop
  | .setBlob _ _ => False
  | .connectSta _ _ _ => False
  | _ => True

theorem holdsJoined_congr {joins : List (Bytes × Bytes)} {kv kv' : KvMap}
    (hsame : SameCreds kv kv') (hholds : HoldsJoined joins kv) : HoldsJoined joins kv' := by
  obtain ⟨ssid, pass, hjoined, hfits, hssid, hpass⟩ := hholds
  exact ⟨ssid, pass, hjoined, hfits, hsame.1.trans hssid, hsame.2.trans hpass⟩

/-- A harmless call keeps the world calm. -/
theorem calm_of_answers {starting : Bool} {world world' : World} {request : ProvCall}
    {reply : ProvAns request} (hharmless : Harmless request) (hcalm : Calm starting world)
    (hanswers : pairedSetting.answers world request reply world') : Calm starting world' := by
  obtain ⟨hmoves, -⟩ := hanswers
  cases request with
  | setBlob key data => exact hharmless.elim
  | connectSta ssid pass timeoutMs => exact hharmless.elim
  | enroll token =>
    obtain ⟨kv, hsame, rfl⟩ := hmoves
    refine ⟨hcalm.due_eq, hcalm.starting_eq, hcalm.pairOk.imp ?_ (holdsJoined_congr hsame)⟩
    intro habsent
    exact ⟨hsame.1.trans habsent.1, hsame.2.trans habsent.2⟩
  | getBlob key bufLen =>
    obtain ⟨-, rfl⟩ := hmoves
    exact hcalm
  | poll =>
    obtain ⟨-, rfl⟩ := hmoves
    exact hcalm
  | _ =>
    obtain rfl := hmoves
    exact hcalm

/-- The rule for a harmless call. -/
theorem wp_harmless {α : Type} {starting : Bool} {request : ProvCall}
    {resume : ProvAns request → Prog ProvCall ProvAns α} {post : α → World → Prop} {world : World}
    (hharmless : Harmless request) (hcalm : Calm starting world)
    (hresume : ∀ reply world', Calm starting world' →
      (request = .poll → pairedSetting.answers world request reply world') →
      pairedSetting.wp guard (resume reply) post world') :
    pairedSetting.wp guard (.call request resume) post world := by
  refine Setting.quiet_alone.wp_call_iff.mpr ⟨⟨hcalm.sound, ?_⟩, fun reply world' hanswers ↦ ?_⟩
  · rintro ssid pass timeoutMs rfl
    exact hharmless.elim
  · exact hresume reply world' (calm_of_answers hharmless hcalm hanswers) fun _ ↦ hanswers

theorem wp_return {α : Type} {starting : Bool} {value : α} {world : World}
    (hcalm : Calm starting world) :
    pairedSetting.wp guard (.ret value) (fun _ ↦ Calm starting) world :=
  Setting.quiet_alone.wp_ret_iff.mpr hcalm

/-- A program of harmless calls keeps the world calm. -/
theorem wp_of_asksOnly {α : Type} {program : Prog ProvCall ProvAns α} {starting : Bool}
    (hprogram : program.AsksOnly Harmless) {world : World} (hcalm : Calm starting world) :
    pairedSetting.wp guard program (fun _ ↦ Calm starting) world := by
  have hguard (world : World) (request : ProvCall) (hharmless : Harmless request)
      (hcalm : Calm starting world) : guard world request := by
    refine ⟨hcalm.sound, ?_⟩
    rintro ssid pass timeoutMs rfl
    exact hharmless.elim
  refine Setting.wp_mono (fun _ _ hlast ↦ hlast.2) (Setting.wp_of_asksOnly
    (fun _ _ _ hinterfere ↦ absurd hinterfere (Setting.quiet_alone _ _)) hguard ?_ hprogram hcalm)
  exact fun _ _ _ _ ↦ calm_of_answers

theorem asksOnly_openPortal (service : ProvisioningService) (now : Millis) :
    (service.openPortal now).AsksOnly Harmless :=
  ⟨trivial, fun _ ↦ ⟨trivial, fun _ ↦ trivial⟩⟩

theorem asksOnly_isProvisioned : isProvisioned.AsksOnly Harmless := by
  unfold isProvisioned hasStoredCreds
  simp only [Prog.ask_bind, Prog.pure_eq, Prog.call_bind, Prog.ret_bind]
  refine Prog.asksOnly_call.mpr ⟨trivial, fun ssid ↦ ?_⟩
  split_ifs
  · exact ⟨trivial, fun _ ↦ trivial⟩
  · trivial

theorem asksOnly_onTestFailed (service : ProvisioningService) :
    service.onTestFailed.AsksOnly Harmless :=
  ⟨trivial, fun _ ↦ ⟨trivial, fun _ ↦ ⟨trivial, fun _ ↦ ⟨trivial, fun _ ↦ trivial⟩⟩⟩⟩

/-! ### The operations -/

@[simp] theorem dueAfter_ssid (due : Option Bool) (stored : Bool) :
    dueAfter due (ascii "sta_ssid") stored = some stored := if_pos rfl

@[simp] theorem dueAfter_pass (due : Option Bool) (stored : Bool) :
    dueAfter due (ascii "sta_pass") stored = none := rfl

theorem ssid_ne_pass : ascii "sta_ssid" ≠ ascii "sta_pass" := by decide

/-- Both writes took effect. -/
theorem holdsPair_of_written (kv : KvMap) (ssid pass : Bytes) :
    HoldsPair ssid pass ((kv.after (.setBlob (ascii "sta_ssid") (ssid ++ [0])) true).after
      (.setBlob (ascii "sta_pass") (pass ++ [0])) true) := by
  constructor
  · rw [KvMap.blobs_after_setBlob_of_ne ssid_ne_pass, KvMap.blobs_after_setBlob,
      Function.update_self]
  · rw [KvMap.blobs_after_setBlob, Function.update_self]

/-- A call other than a join is allowed wherever the world is sound. -/
theorem guard_of_sound {world : World} {request : ProvCall} (hsound : Sound world)
    (hrequest : ∀ ssid pass timeoutMs, request ≠ .connectSta ssid pass timeoutMs) :
    guard world request :=
  ⟨hsound, fun ssid pass timeoutMs heq ↦ absurd heq (hrequest ssid pass timeoutMs)⟩

/-- Storing a pair that joined leaves a pair that joined, or none. -/
theorem wp_persistCreds {creds : ProvisioningCredentials} {starting : Bool} {world : World}
    (hcalm : Calm starting world) (hfits : FitsBuffers creds.ssid creds.pass)
    (hjoined : (creds.ssid, creds.pass) ∈ world.joins) :
    pairedSetting.wp guard (persistCreds creds) (fun _ ↦ Calm starting) world := by
  unfold persistCreds
  simp only [Prog.ask_bind, Prog.pure_eq]
  refine Setting.quiet_alone.wp_call_iff.mpr ⟨guard_of_sound hcalm.sound nofun, ?_⟩
  rintro ssidStored world₁ ⟨rfl, -⟩
  refine Setting.quiet_alone.wp_call_iff.mpr ⟨guard_of_sound ?_ nofun, ?_⟩
  · cases ssidStored with
    | true =>
      refine ⟨fun hdue ↦ absurd (dueAfter_ssid world.due true) hdue, fun _ hnone ↦ ?_⟩
      rw [KvMap.blobs_after_setBlob, Function.update_self] at hnone
      cases hnone
    | false => exact ⟨fun _ ↦ hcalm.pairOk, nofun⟩
  · rintro passStored world₂ ⟨rfl, hpaired⟩
    refine Setting.quiet_alone.wp_ret_iff.mpr ⟨rfl, hcalm.starting_eq, ?_⟩
    rcases hpaired ssidStored (dueAfter_ssid world.due ssidStored) rfl with rfl | hmixed
    · cases passStored with
      | true => exact .inr ⟨creds.ssid, creds.pass, hjoined, hfits, holdsPair_of_written _ _ _⟩
      | false => exact hcalm.pairOk
    · exact .inr hmixed

/-- Whatever a join returns, the stored pair is the same, and it has joined as before. -/
theorem calm_of_connectSta {starting : Bool} {world world' : World} {ssid pass : Bytes}
    {timeoutMs : UInt32} {joined : Bool} (hcalm : Calm starting world)
    (hanswers : pairedSetting.answers world (.connectSta ssid pass timeoutMs) joined world') :
    Calm starting world' ∧ (joined = true → (ssid, pass) ∈ world'.joins) := by
  obtain ⟨rfl, -⟩ := hanswers
  refine ⟨⟨hcalm.due_eq, hcalm.starting_eq, hcalm.pairOk.imp id ?_⟩, ?_⟩
  · intro hholds
    obtain ⟨ssid', pass', hmem, hrest⟩ := hholds
    refine ⟨ssid', pass', ?_, hrest⟩
    cases joined with
    | true => exact List.mem_cons_of_mem _ hmem
    | false => exact hmem
  · rintro rfl
    exact List.mem_cons_self

/-- A submission that was taken. -/
theorem wp_onCredentialsSubmitted (service : ProvisioningService)
    {creds : ProvisioningCredentials} {world : World} (hcalm : Calm false world)
    (hfits : FitsBuffers creds.ssid creds.pass) :
    pairedSetting.wp guard (service.onCredentialsSubmitted creds) (fun _ ↦ Calm false) world := by
  unfold onCredentialsSubmitted
  split_ifs with hvalid
  · have hasks : (Prog.call (.setMessage "Invalid: SSID required") fun _ ↦ .ret service :
        Prog ProvCall ProvAns ProvisioningService).AsksOnly Harmless := ⟨trivial, fun _ ↦ trivial⟩
    exact wp_of_asksOnly hasks hcalm
  · unfold runSequentialTest
    simp only [Prog.ask_bind]
    refine wp_harmless trivial hcalm fun ⟨⟩ _ hcalm _ ↦ ?_
    refine wp_harmless trivial hcalm fun ⟨⟩ _ hcalm _ ↦ ?_
    refine wp_harmless trivial hcalm fun ⟨⟩ _ hcalm _ ↦ ?_
    refine Setting.quiet_alone.wp_call_iff.mpr ⟨⟨hcalm.sound, ?_⟩, ?_⟩
    · intro ssid pass timeoutMs _ hstarting
      rw [hcalm.starting_eq] at hstarting
      cases hstarting
    · intro joined world' hanswers
      obtain ⟨hcalm', hjoined⟩ := calm_of_connectSta hcalm hanswers
      cases joined with
      | false => exact wp_of_asksOnly (asksOnly_onTestFailed _) hcalm'
      | true =>
        simp only [Bool.not_true, Bool.false_eq_true, ↓reduceIte, afterJoin]
        apply Setting.wp_bind
        refine Setting.wp_mono ?_ (wp_persistCreds hcalm' hfits (hjoined rfl))
        intro _ world'' hcalm''
        simp only [runEnrollment, Prog.ask_bind, Prog.call_bind, Prog.pure_eq, Prog.ret_bind]
        refine wp_harmless trivial hcalm'' fun enrolled _ hcalm _ ↦ ?_
        cases enrolled with
        | false => exact wp_of_asksOnly (asksOnly_onTestFailed _) hcalm
        | true => exact wp_return hcalm

/-- A poll handles its submissions one after the other. -/
theorem wp_playPoll (submissions : List ProvisioningCredentials)
    (hfits : ∀ creds ∈ submissions, FitsBuffers creds.ssid creds.pass)
    (service : ProvisioningService) {world : World} (hcalm : Calm false world) :
    pairedSetting.wp guard (playPoll submissions service) (fun _ ↦ Calm false) world := by
  induction submissions generalizing service world with
  | nil => exact wp_return hcalm
  | cons creds rest ih =>
    have hrest := ih fun other hother ↦ hfits other (List.mem_cons_of_mem _ hother)
    unfold playPoll
    simp only [Prog.ask_bind]
    refine wp_harmless trivial hcalm fun accepted _ hcalm _ ↦ ?_
    cases accepted with
    | false => exact hrest service hcalm
    | true =>
      apply Setting.wp_bind
      exact Setting.wp_mono (fun service' _ hcalm' ↦ hrest service' hcalm')
        (wp_onCredentialsSubmitted service hcalm (hfits creds List.mem_cons_self))

theorem wp_tick (service : ProvisioningService) (now : Millis) {world : World}
    (hcalm : Calm false world) :
    pairedSetting.wp guard (service.tick now) (fun _ ↦ Calm false) world := by
  unfold tick
  split_ifs with hstate
  · simp only [Prog.ask_bind, Prog.pure_eq]
    refine wp_harmless trivial hcalm fun submissions world' hcalm' hpoll ↦ ?_
    obtain ⟨⟨hfits, -⟩, -⟩ := hpoll rfl
    apply Setting.wp_bind
    refine Setting.wp_mono ?_ (wp_playPoll submissions hfits service hcalm')
    intro service' world'' hcalm''
    exact wp_return hcalm''
  · exact wp_return hcalm

/-- A stored pair that joined is read back as it is. -/
theorem wp_tryStoredConnect (service : ProvisioningService) {world : World}
    (hcalm : Calm true world) :
    pairedSetting.wp guard service.tryStoredConnect (fun _ ↦ Calm true) world := by
  unfold tryStoredConnect
  simp only [Prog.ask_bind, Prog.pure_eq]
  refine Setting.quiet_alone.wp_call_iff.mpr ⟨guard_of_sound hcalm.sound nofun, ?_⟩
  rintro ssidRead world' ⟨⟨rfl, hworld⟩, -⟩
  rw [hworld]
  rcases hcalm.pairOk with habsent | hholds
  · have hnone : (KvStore.getBlob world.kv (ascii "sta_ssid") kMaxSsid).1 = 0 := by
      rw [KvMap.getBlob_eq, habsent.1]
      rfl
    rw [if_pos hnone]
    exact wp_return hcalm
  · obtain ⟨ssid, pass, hjoined, hfits, hssid, hpass⟩ := hholds
    have hread {key text : Bytes} {size : ℕ} (hstored : world.kv.blobs key = some (text ++ [0]))
        (hlength : text.length < size) :
        KvStore.getBlob world.kv key size = (text.length + 1, text ++ [0]) := by
      rw [KvMap.getBlob_eq, hstored, Option.getD_some,
        List.take_of_length_le (by rw [List.length_append, List.length_singleton]; omega),
        List.length_append, List.length_singleton]
    rw [hread hssid hfits.length_ssid, if_neg (Nat.succ_ne_zero _)]
    refine Setting.quiet_alone.wp_call_iff.mpr ⟨guard_of_sound hcalm.sound nofun, ?_⟩
    rintro passRead world'' ⟨⟨rfl, hworld'⟩, -⟩
    rw [hworld', hread hpass hfits.length_pass, cString_append_zero hfits.zero_notMem_ssid,
      cString_append_zero hfits.zero_notMem_pass]
    refine Setting.quiet_alone.wp_call_iff.mpr ⟨⟨hcalm.sound, ?_⟩, ?_⟩
    · intro ssid' pass' timeoutMs heq _
      obtain ⟨rfl, rfl, -⟩ := ProvCall.connectSta.inj heq
      exact ⟨hssid, hpass⟩
    · intro joined world' hanswers
      exact wp_return (calm_of_connectSta hcalm hanswers).1

theorem wp_begin (service : ProvisioningService) (now : Millis) {world : World}
    (hcalm : Calm true world) :
    pairedSetting.wp guard (service.begin now) (fun _ ↦ Calm true) world := by
  unfold begin
  apply Setting.wp_bind
  refine Setting.wp_mono ?_ (wp_of_asksOnly asksOnly_isProvisioned hcalm)
  intro provisioned world' hcalm'
  cases provisioned with
  | false => exact wp_of_asksOnly (asksOnly_openPortal _ _) hcalm'
  | true =>
    apply Setting.wp_bind
    refine Setting.wp_mono ?_ (wp_tryStoredConnect _ hcalm')
    intro joined world'' hcalm''
    cases joined with
    | false => exact wp_of_asksOnly (asksOnly_openPortal _ _) hcalm''
    | true => exact wp_return hcalm''

/-- A submission whose join fails writes nothing. -/
theorem not_setBlob_of_failed {service : ProvisioningService} {creds : ProvisioningCredentials}
    {trace : List ProvEvent} {result : ProvisioningService}
    (hruns : (service.onCredentialsSubmitted creds).Runs trace result)
    (hfailed : ∀ ssid pass timeoutMs, ⟨.connectSta ssid pass timeoutMs, true⟩ ∉ trace) :
    ∀ event ∈ trace, ∀ key data, event.request ≠ .setBlob key data := by
  unfold onCredentialsSubmitted at hruns
  split_ifs at hruns
  · obtain ⟨_, _, rfl, rfl, -⟩ := hruns
    simp
  · unfold runSequentialTest at hruns
    simp only [Prog.ask_bind, Prog.runs_call] at hruns
    obtain ⟨_, _, rfl, _, _, rfl, _, _, rfl, joined, rest, rfl, hrest⟩ := hruns
    cases joined with
    | true =>
      exact absurd (by simp [enter]) (hfailed creds.ssid creds.pass service.cfg.staTimeoutMs)
    | false =>
      have hharmless := (asksOnly_onTestFailed _).of_runs hrest
      simp only [List.forall_mem_cons]
      refine ⟨nofun, nofun, nofun, nofun, fun event hevent key data hwrite ↦ ?_⟩
      have hnot := hharmless event hevent
      rw [hwrite] at hnot
      exact hnot

/-! ### All lives -/

/-- No write is due at rest, and the stored pair is absent or has joined. -/
def Resting (_ : ProvisioningService) (world : World) : Prop := ∃ starting, Calm starting world

theorem wp_handle (service : ProvisioningService) (operation : Operation) (world world' : World)
    (hresting : Resting service world) (hstart : starts world operation world') :
    pairedSetting.wp guard (component.handle service operation) Resting world' := by
  obtain ⟨starting, hcalm⟩ := hresting
  cases operation with
  | begin now =>
    obtain rfl := hstart
    exact Setting.wp_mono (fun _ _ hcalm' ↦ ⟨true, hcalm'⟩)
      (wp_begin service now ⟨hcalm.due_eq, rfl, hcalm.pairOk⟩)
  | tick now =>
    obtain rfl := hstart
    exact Setting.wp_mono (fun _ _ hcalm' ↦ ⟨false, hcalm'⟩)
      (wp_tick service now ⟨hcalm.due_eq, rfl, hcalm.pairOk⟩)

theorem resting_of_boots (world : World) (service : ProvisioningService) (world' : World)
    (hsound : Sound world) (hboots : cleanBoots world service world') : Resting service world' := by
  obtain ⟨hclean, -, rfl⟩ := hboots
  refine ⟨false, rfl, rfl, ?_⟩
  by_cases hdue : world.due = some true
  · exact .inr (hclean hdue)
  · exact hsound.pairOk hdue

/-- Between the two writes of a submission, the SSID must have joined with the old password. -/
theorem Sound.pairOk_iff {world : World} (hsound : Sound world) :
    PairOk world ↔ (world.due = some true → HoldsJoined world.joins world.kv) := by
  constructor
  · intro hpair hdue
    exact hpair.resolve_left fun habsent ↦ hsound.ssid_stored hdue habsent.1
  · intro hjoined
    by_cases hdue : world.due = some true
    · exact .inr (hjoined hdue)
    · exact hsound.pairOk hdue

/-- In every life whose writes are paired and whose power cycles are clean, the stored pair is
absent or has joined at every moment, but for an SSID whose password is still to be written, which
must have joined with the old one; `begin` joins with exactly the stored pair; and a submission
whose join fails writes nothing. -/
theorem pairOk_of_lives {service : ProvisioningService} {world world' : World}
    {phase : Component.Phase ProvCall ProvAns ProvisioningService Operation}
    (hdue : world.due = none) (hpair : PairOk world)
    (hlives : component.Lives pairedSetting starts cleanBoots (.idle service, world)
      (phase, world')) :
    (PairOk world' ↔ (world'.due = some true → HoldsJoined world'.joins world'.kv)) ∧
      (∀ operation ssid pass timeoutMs resume,
        phase = .busy operation (.call (.connectSta ssid pass timeoutMs) resume) →
          world'.starting = true → HoldsPair ssid pass world'.kv) ∧
      ∀ (service : ProvisioningService) (creds : ProvisioningCredentials)
        (trace : List ProvEvent) (result : ProvisioningService),
        (service.onCredentialsSubmitted creds).Runs trace result →
          (∀ ssid pass timeoutMs, ⟨.connectSta ssid pass timeoutMs, true⟩ ∉ trace) →
            ∀ event ∈ trace, ∀ key data, event.request ≠ .setBlob key data := by
  have hbefore : Component.Maintains pairedSetting guard Resting
      ((.idle service, world) :
        Component.Phase ProvCall ProvAns ProvisioningService Operation × World) :=
    ⟨world.starting, hdue, rfl, hpair⟩
  obtain ⟨hmaintained, hsound⟩ := Component.life_rule
    (fun _ _ _ _ hinterfere ↦ absurd hinterfere (Setting.quiet_alone _ _)) wp_handle
    (fun _ _ hresting ↦ hresting.choose_spec.sound) (fun _ _ hguard ↦ hguard.1) resting_of_boots
    hlives hbefore
  refine ⟨hsound.pairOk_iff, ?_, fun _ _ _ _ ↦ not_setBlob_of_failed⟩
  rintro operation ssid pass timeoutMs resume rfl hstarting
  exact (Setting.wp_guard hmaintained).2 ssid pass timeoutMs rfl hstarting

/-! ### One submission to a new device -/

/-- Seams with one submission, which joins and enrolls, and a store that takes some writes. -/
def answering (stores : World → Bytes → Bool) (world : World) :
    (request : ProvCall) → ProvAns request × World
  | .setBlob key data =>
    (stores world key, { world with
      kv := world.kv.after (.setBlob key data) (stores world key)
      due := dueAfter world.due key (stores world key) })
  | .getBlob key bufLen => (KvStore.getBlob world.kv key bufLen, world)
  | .connectSta ssid pass _ => (true, { world with joins := (ssid, pass) :: world.joins })
  | .poll => ([{ ssid := ascii "home", pass := ascii "secret12", valid := true }], world)
  | .startAp _ _ | .accepts _ | .enroll _ | .hasOperationalCert => (true, world)
  | .stopAp | .disconnectSta | .startPortal | .stopPortal | .setMessage _ => ((), world)

theorem answers_answering (stores : World → Bytes → Bool) (world : World) (request : ProvCall) :
    setting.answers world request (answering stores world request).1
      (answering stores world request).2 := by
  cases request with
  | getBlob key bufLen => exact ⟨rfl, rfl⟩
  | poll =>
    refine ⟨fun creds hcreds ↦ ?_, rfl⟩
    obtain rfl := List.mem_singleton.mp hcreds
    exact ⟨by decide, by decide, by decide, by decide⟩
  | enroll token => exact ⟨world.kv, ⟨rfl, rfl⟩, rfl⟩
  | _ => rfl

/-- The world of a new device. -/
def newWorld : World := { kv := ⟨fun _ ↦ none⟩ }

theorem starts_newWorld : starts newWorld (.tick 0) newWorld := rfl

/-- The world after the submission. -/
def submitted (stores : World → Bytes → Bool) : World :=
  ((newDevice.tick 0).runOn (answering stores) newWorld).2

theorem pairOk_of_lives_witness : PairOk (submitted fun world _ ↦ world.due.getD true) := by
  have hanswers (world : World) (request : ProvCall) :
      pairedSetting.answers world request (answering (fun world _ ↦ world.due.getD true) world
        request).1 (answering (fun world _ ↦ world.due.getD true) world request).2 := by
    refine ⟨answers_answering _ world request, ?_⟩
    cases request with
    | setBlob key data =>
      intro ssidStored hdue _
      refine .inl ?_
      change world.due.getD true = ssidStored
      rw [hdue, Option.getD_some]
    | _ => trivial
  have hlives : component.Lives pairedSetting starts cleanBoots (.idle newDevice, newWorld)
      (.idle ((newDevice.tick 0).runOn (answering fun world _ ↦ world.due.getD true) newWorld).1,
        submitted fun world _ ↦ world.due.getD true) :=
    Component.lives_of_steps (.head (.start starts_newWorld)
      (Component.steps_runOn hanswers (Operation.tick 0) (newDevice.tick 0) newWorld))
  exact (pairOk_of_lives rfl (.inl ⟨rfl, rfl⟩) hlives).1.mpr (absurd · (by decide))

/-- If the password is not written, the SSID is stored without it. -/
theorem pairOk_of_lives_false_unpaired :
    ¬ ∀ (service : ProvisioningService) (world world' : World)
      (phase : Component.Phase ProvCall ProvAns ProvisioningService Operation),
      world.due = none → PairOk world →
        component.Lives setting starts boots (.idle service, world) (phase, world') →
          PairOk world' := by
  intro hall
  have hlives : component.Lives setting starts boots (.idle newDevice, newWorld)
      (.idle ((newDevice.tick 0).runOn (answering fun _ key ↦ key ≠ ascii "sta_pass")
        newWorld).1, submitted fun _ key ↦ key ≠ ascii "sta_pass") :=
    Component.lives_of_steps (.head (.start starts_newWorld)
      (Component.steps_runOn (answers_answering _) (Operation.tick 0) (newDevice.tick 0) newWorld))
  rcases hall _ _ _ _ rfl (.inl ⟨rfl, rfl⟩) hlives with habsent | hholds
  · exact absurd habsent.1 (by decide)
  · obtain ⟨ssid, pass, -, -, -, hpass⟩ := hholds
    have hnone : (submitted fun _ key ↦ key ≠ ascii "sta_pass").kv.blobs (ascii "sta_pass") =
        none := by decide
    rw [hnone] at hpass
    cases hpass

end StoredCredentials

end LibreSwitch.Net
