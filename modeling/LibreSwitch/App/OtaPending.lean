import LibreSwitch.App.CompositionRoot
import LibreSwitch.Net.OtaService

/-!
# The flag of the health window

`ota_pending` is what makes a new image answer for its health after the reboot: an update writes it
after the commit, `begin` arms the health window if it reads it, and a health tick erases it. It has
to outlive everything but the end of the trial.

Two things can lose it. An update does not look at the result of the write and restarts without the
flag if that failed (`flagged_iff`). And a tick that has decided for a rollback erases the flag
before it rolls back, so a rollback that fails or is cut short leaves an image on trial that no boot
will ask again. Lives in which no such erase takes effect keep the flag as long as the image is on
trial (`armed_of_lives`).
-/

set_option autoImplicit false
set_option relaxedAutoImplicit false

namespace LibreSwitch.App

open LibreSwitch.Library LibreSwitch.Domain LibreSwitch.Net LibreSwitch.Platform

namespace CompositionRoot

/-- The next boot arms the health window. -/
def Armed (kv : KvMap) : Prop := ∀ now, (armHealth kv now).1 = true

theorem armed_iff {kv : KvMap} :
    Armed kv ↔ ((kv.blobs (ascii "ota_pending")).getD []).take 1 = [1] := by
  have harm (now : Millis) : (armHealth kv now).1 = true ↔
      ((kv.blobs (ascii "ota_pending")).getD []).take 1 = [1] := by
    unfold armHealth
    rw [KvMap.getBlob_eq]
    simp only
    split_ifs with hpend
    · exact iff_of_true rfl hpend.2
    · refine iff_of_false nofun fun hone ↦ hpend ?_
      rw [hone]
      exact ⟨rfl, rfl⟩
  exact ⟨fun harmed ↦ (harm 0).mp (harmed 0), fun hone now ↦ (harm now).mpr hone⟩

theorem armed_congr {kv kv' : KvMap}
    (hsame : kv'.blobs (ascii "ota_pending") = kv.blobs (ascii "ota_pending")) :
    Armed kv' ↔ Armed kv := by
  rw [armed_iff, armed_iff, hsame]

end CompositionRoot

/-! ### An update -/

namespace OtaFlag

open OtaService

/-- The store after the calls of an update. -/
def storeAfter (kv : KvMap) (trace : List OtaEvent) : KvMap :=
  trace.foldl
    (fun kv event ↦
      match event with
      | ⟨.setBlob key data, stored⟩ => kv.after (.setBlob key data) stored
      | _ => kv)
    kv

@[simp] theorem storeAfter_append (kv : KvMap) (first second : List OtaEvent) :
    storeAfter kv (first ++ second) = storeAfter (storeAfter kv first) second :=
  List.foldl_append

/-- Calls of which none settles the update leave the store alone. -/
theorem storeAfter_of_noSettling {trace : List OtaEvent}
    (htrace : ∀ request ∈ requests trace, request.isSettling = false) (kv : KvMap) :
    storeAfter kv trace = kv := by
  induction trace generalizing kv with
  | nil => rfl
  | cons event trace ih =>
    have hevent := htrace event.request List.mem_cons_self
    have hrest := ih (fun request hrequest ↦ htrace request (List.mem_cons_of_mem _ hrequest)) kv
    obtain ⟨request, answer⟩ := event
    cases request with
    | setBlob key data => cases hevent
    | _ => exact hrest

/-- After an update that restarts, the flag is stored and the next boot is armed if and only if the
store did not refuse the write of the flag or it was so before. -/
theorem flagged_iff {service : OtaService} {manifest : OtaManifest} {trace : List OtaEvent}
    {result : OtaResult} (hruns : (service.apply manifest).Runs trace result)
    (hreboot : OtaCall.reboot ∈ requests trace) (kv : KvMap) :
    ((storeAfter kv trace).blobs (ascii "ota_pending") = some [1] ↔
      (⟨.setBlob (ascii "ota_pending") [1], false⟩ : OtaEvent) ∉ trace ∨
        kv.blobs (ascii "ota_pending") = some [1]) ∧
    (CompositionRoot.Armed (storeAfter kv trace) ↔
      (⟨.setBlob (ascii "ota_pending") [1], false⟩ : OtaEvent) ∉ trace ∨
        CompositionRoot.Armed kv) := by
  cases outcome_of_runs hruns with
  | badManifest hvalid => simp at hreboot
  | rejected hvalid hprecheck => simp at hreboot
  | notDownloaded hvalid hprecheck hdownload =>
    have hnot : OtaCall.reboot ∉ requests _ := notMem_of_noSettling hdownload.noSettling rfl
    simp [aborted, hnot] at hreboot
  | notVerified hvalid hprecheck hdownload =>
    have hnot : OtaCall.reboot ∉ requests _ := notMem_of_noSettling hdownload.noSettling rfl
    simp [aborted, hnot] at hreboot
  | notCommitted hvalid hprecheck hdownload =>
    have hnot : OtaCall.reboot ∉ requests _ :=
      notMem_of_noSettling (staged_noSettling hdownload) rfl
    simp [aborted, hnot] at hreboot
  | @updated download hvalid hprecheck hdownload flagged versioned =>
    have hnot : OtaCall.setBlob (ascii "ota_pending") [1] ∉ requests _ :=
      notMem_of_noSettling (staged_noSettling hdownload) rfl
    have hmem : ∀ stored, (⟨.setBlob (ascii "ota_pending") [1], stored⟩ : OtaEvent) ∉
        staged manifest download :=
      fun stored hstored ↦ hnot (List.mem_map.mpr ⟨_, hstored, rfl⟩)
    have hblobs : (storeAfter kv (staged manifest download ++ ⟨.commit, true⟩ ::
        [⟨.setBlob (ascii "ota_pending") [1], flagged⟩,
          ⟨.setBlob (ascii "ota_pending_ver") manifest.version.toBytes, versioned⟩,
          ⟨.onPhase .confirmed .ok, ()⟩, ⟨.reboot, ()⟩])).blobs (ascii "ota_pending") =
        (kv.after (.setBlob (ascii "ota_pending") [1]) flagged).blobs (ascii "ota_pending") := by
      rw [storeAfter_append, storeAfter_of_noSettling (staged_noSettling hdownload)]
      exact KvMap.blobs_after_setBlob_of_ne (by decide) _ _ _
    rw [CompositionRoot.armed_congr hblobs, hblobs]
    cases flagged with
    | true =>
      have hstored : (kv.after (.setBlob (ascii "ota_pending") [1]) true).blobs
          (ascii "ota_pending") = some [1] := by
        rw [KvMap.blobs_after_setBlob, Function.update_self]
      have hkey : ascii "ota_pending" ≠ ascii "ota_pending_ver" := by decide
      refine ⟨iff_of_true hstored (.inl ?_), iff_of_true ?_ (.inl ?_)⟩
      · simp [hmem, hkey]
      · rw [CompositionRoot.armed_iff, hstored]
        rfl
      · simp [hmem, hkey]
    | false => simp

/-- Seams that deliver and verify every image, and a store that refuses to write some keys. -/
def refusing (refuses : Bytes → Bool) (world : Unit) :
    (request : OtaCall) → Option (OtaAns request × Unit)
  | .begin _ | .writeChunk _ | .finish | .commit | .verifyStagedImage _ => some (true, world)
  | .setBlob key _ => some (!refuses key, world)
  | .download _ _ => some (.returns true, world)
  | .onPhase _ _ | .abort | .downloadReturns _ | .reboot => some ((), world)

theorem isSome_play (refuses : Bytes → Bool) :
    ((device.apply newerImage).play (refusing refuses) ()).isSome = true := by rfl

/-- The update of the device with such a store. -/
def update (refuses : Bytes → Bool) : List OtaEvent × OtaResult :=
  ((device.apply newerImage).play (refusing refuses) ()).get (isSome_play refuses)

theorem runs_update (refuses : Bytes → Bool) :
    (device.apply newerImage).Runs (update refuses).1 (update refuses).2 :=
  Prog.runs_play (isSome_play refuses)

/-- The call is no write that was refused. -/
def taken : OtaEvent → Bool
  | ⟨.setBlob _ _, stored⟩ => stored
  | _ => true

theorem taken_update : (update fun _ ↦ false).1.all taken = true := by rfl

theorem flagged_iff_witness :
    (storeAfter ⟨fun _ ↦ none⟩ (update fun _ ↦ false).1).blobs (ascii "ota_pending") = some [1] :=
  (flagged_iff (runs_update fun _ ↦ false) (by decide) ⟨fun _ ↦ none⟩).1.mpr
    (.inl fun hrefused ↦ Bool.false_ne_true (List.all_eq_true.mp taken_update _ hrefused))

/-- If the write of the flag fails, the new image boots without a health window. -/
theorem flagged_false_refused :
    ¬ ∀ (service : OtaService) (manifest : OtaManifest) (trace : List OtaEvent)
      (result : OtaResult) (kv : KvMap), (service.apply manifest).Runs trace result →
        OtaCall.reboot ∈ requests trace →
          (storeAfter kv trace).blobs (ascii "ota_pending") = some [1] := by
  intro hall
  have hflag := hall device newerImage _ _ ⟨fun _ ↦ none⟩ (runs_update fun _ ↦ true) (by decide)
  exact absurd hflag (by decide)

end OtaFlag

/-! ### The trial of an image -/

namespace Trial

open CompositionRoot

/-- The store, the flag `otaPending_`, the last verdict on the image, and whether the image was
ever confirmed or rolled back. -/
structure World where
  kv : KvMap
  otaPending : Bool
  verdict : HealthOutcome := .pending
  confirmed : Bool := false
  rolledBack : Bool := false

/-- An answered call of a health tick. The verdict may be any, a write or a rollback may fail, and
nothing comes back from a reboot. -/
def World.Answers (world : World) : (request : RootCall) → RootAns request → World → Prop
  | .otaPending, pending, world' => pending = world.otaPending ∧ world' = world
  | .clearOtaPending, _, world' => world' = { world with otaPending := false }
  | .evaluate _, verdict, world' =>
    world' = { world with
      verdict := verdict, confirmed := world.confirmed || verdict = .confirmed }
  | .erase key, erased, world' =>
    world' = { world with kv := world.kv.after (.erase key) erased }
  | .rollBack, rolledBack, world' =>
    world' = { world with rolledBack := world.rolledBack || rolledBack }
  | .reboot, _, _ => False
  | _, _, world' => world' = world

/-- What surrounds the health ticks. -/
def setting : Setting RootCall RootAns World where
  answers := World.Answers

/-- The condition on a step: an erase of the flag takes no effect when the last verdict was to roll
back. -/
def KeepsFlag (world : World) : (request : RootCall) → RootAns request → Prop
  | .erase key, erased =>
    key = ascii "ota_pending" → world.verdict = .rollback → erased = false
  | _, _ => True

def keepingSetting : Setting RootCall RootAns World := setting.restrict KeepsFlag

/-- The health ticks of the net task. -/
def healthTicks : Component RootCall RootAns Unit Millis where
  handle _ now := tickHealth now

/-- A health tick can start at any time. -/
def starts (world : World) (_ : Millis) (world' : World) : Prop := world' = world

/-- A power cycle: the store is what remains, and `begin` arms the window by it. -/
def boots (world : World) (_ : Unit) (world' : World) : Prop :=
  ∃ now, world' = { world with otaPending := (armHealth world.kv now).1, verdict := .pending }

/-- As long as the image on trial is neither confirmed nor rolled back, the next boot is armed. -/
def Remembered (world : World) : Prop :=
  world.confirmed = false → world.rolledBack = false → Armed world.kv

/-- The rule for a call that keeps what has to be remembered. -/
theorem wp_call {request : RootCall} {resume : RootAns request → Prog RootCall RootAns Unit}
    {world : World} (hremembered : Remembered world)
    (hresume : ∀ reply world', keepingSetting.answers world request reply world' →
      keepingSetting.wp (fun world _ ↦ Remembered world) (resume reply)
        (fun _ ↦ Remembered) world') :
    keepingSetting.wp (fun world _ ↦ Remembered world) (.call request resume)
      (fun _ ↦ Remembered) world :=
  Setting.quiet_alone.wp_call_iff.mpr ⟨hremembered, hresume⟩

theorem wp_return {world : World} (hremembered : Remembered world) :
    keepingSetting.wp (fun world _ ↦ Remembered world) (.ret ()) (fun _ ↦ Remembered) world :=
  Setting.quiet_alone.wp_ret_iff.mpr hremembered

/-- An image that was confirmed needs no flag any more. -/
theorem wp_acceptImage {world : World} (hconfirmed : world.confirmed = true) :
    keepingSetting.wp (fun world _ ↦ Remembered world) acceptImage (fun _ ↦ Remembered) world := by
  have hremembered {world : World} (hconfirmed : world.confirmed = true) : Remembered world := by
    intro hnot
    rw [hconfirmed] at hnot
    cases hnot
  unfold acceptImage
  simp only [Prog.ask_bind]
  refine wp_call (hremembered hconfirmed) fun flagErased world₁ hfirst ↦ ?_
  obtain ⟨rfl, -⟩ := hfirst
  refine wp_call (hremembered hconfirmed) fun versionErased world₂ hsecond ↦ ?_
  obtain ⟨rfl, -⟩ := hsecond
  refine wp_call (hremembered hconfirmed) fun _ world₃ hthird ↦ ?_
  obtain ⟨rfl, -⟩ := hthird
  exact wp_return (hremembered hconfirmed)

/-- A rollback whose erase takes no effect leaves the flag until it is done. -/
theorem wp_revertImage {world : World} (hverdict : world.verdict = .rollback)
    (hremembered : Remembered world) :
    keepingSetting.wp (fun world _ ↦ Remembered world) revertImage (fun _ ↦ Remembered) world := by
  unfold revertImage
  simp only [Prog.ask_bind]
  refine wp_call hremembered fun flagErased world₁ hfirst ↦ ?_
  obtain ⟨rfl, hkept⟩ := hfirst
  obtain rfl := hkept rfl hverdict
  refine wp_call hremembered fun versionErased world₂ hsecond ↦ ?_
  obtain ⟨rfl, -⟩ := hsecond
  have hversion : Remembered { world with
      kv := world.kv.after (.erase (ascii "ota_pending_ver")) versionErased } := by
    intro hconfirmed hrolledBack
    exact (armed_congr (KvMap.blobs_after_erase_of_ne (by decide) _ _)).mpr
      (hremembered hconfirmed hrolledBack)
  refine wp_call hversion fun rolledBack world₃ hthird ↦ ?_
  obtain ⟨rfl, -⟩ := hthird
  have hdone : Remembered { world with
      kv := world.kv.after (.erase (ascii "ota_pending_ver")) versionErased
      rolledBack := world.rolledBack || rolledBack } := by
    intro hconfirmed hrolledBack
    exact hversion hconfirmed (Bool.or_eq_false_iff.mp hrolledBack).1
  exact wp_call hdone fun _ _ hreboot ↦ hreboot.1.elim

theorem wp_tickHealth (now : Millis) {world : World} (hremembered : Remembered world) :
    keepingSetting.wp (fun world _ ↦ Remembered world) (tickHealth now) (fun _ ↦ Remembered)
      world := by
  unfold tickHealth
  simp only [Prog.ask_bind, Prog.pure_eq]
  refine wp_call hremembered fun pending world' hpending ↦ ?_
  obtain ⟨⟨rfl, hworld⟩, -⟩ := hpending
  rw [hworld]
  split_ifs with harmed
  · unfold healthTick
    simp only [Prog.ask_bind]
    refine wp_call hremembered fun verdict world'' hverdict ↦ ?_
    obtain ⟨rfl, -⟩ := hverdict
    cases verdict with
    | pending => exact wp_return fun hconfirmed ↦ hremembered (Bool.or_eq_false_iff.mp hconfirmed).1
    | confirmed => exact wp_acceptImage (Bool.or_true _)
    | rollback =>
      exact wp_revertImage rfl fun hconfirmed ↦ hremembered (Bool.or_eq_false_iff.mp hconfirmed).1
  · exact wp_return hremembered

/-- In every life in which no erase of the flag takes effect after a verdict to roll back, the next
boot arms the health window as long as the image on trial is neither confirmed nor rolled back. -/
theorem armed_of_lives {world world' : World}
    {phase : Component.Phase RootCall RootAns Unit Millis} (harmed : Armed world.kv)
    (hlives : healthTicks.Lives keepingSetting starts boots (.idle (), world) (phase, world')) :
    world'.confirmed = false → world'.rolledBack = false → Armed world'.kv := by
  have hbefore : Component.Maintains keepingSetting (fun world _ ↦ Remembered world)
      (fun _ ↦ Remembered)
      ((.idle (), world) : Component.Phase RootCall RootAns Unit Millis × World) :=
    fun _ _ ↦ harmed
  have hhandle (state : Unit) (now : Millis) (world₁ world₂ : World)
      (hremembered : Remembered world₁)
      (hstart : starts world₁ now world₂) :
      keepingSetting.wp (fun world _ ↦ Remembered world) (healthTicks.handle state now)
        (fun _ ↦ Remembered) world₂ := by
    obtain rfl := hstart
    exact wp_tickHealth now hremembered
  have hboots (world₁ : World) (state : Unit) (world₂ : World) (hremembered : Remembered world₁)
      (hboot : boots world₁ state world₂) : Remembered world₂ := by
    obtain ⟨now, rfl⟩ := hboot
    exact hremembered
  obtain ⟨-, hremembered⟩ := Component.life_rule
    (fun _ _ _ _ hinterfere ↦ absurd hinterfere (Setting.quiet_alone _ _)) hhandle
    (fun _ _ hremembered ↦ hremembered) (fun _ _ hremembered ↦ hremembered) hboots hlives hbefore
  exact hremembered

/-! ### A tick after the window -/

/-- The first boot of a new image. -/
def trialWorld : World :=
  { kv := ⟨Function.update (fun _ ↦ none) (ascii "ota_pending") (some [1])⟩, otaPending := true }

/-- The verdict to roll back. -/
def decidedWorld : World := { trialWorld with verdict := .rollback }

/-- After the erases. -/
def erasedWorld : World :=
  { decidedWorld with
    kv := (decidedWorld.kv.after (.erase (ascii "ota_pending")) true).after
      (.erase (ascii "ota_pending_ver")) true }

theorem armed_trialWorld : Armed trialWorld.kv := armed_iff.mpr (by decide)

theorem armed_of_lives_witness : Armed decidedWorld.kv := by
  have hpending : keepingSetting.answers trialWorld .otaPending true trialWorld :=
    ⟨⟨rfl, rfl⟩, trivial⟩
  have hverdict : keepingSetting.answers trialWorld (.evaluate 180000) .rollback decidedWorld :=
    ⟨rfl, trivial⟩
  have hlives : healthTicks.Lives keepingSetting starts boots (.idle (), trialWorld)
      (.busy 180000 revertImage, decidedWorld) := by
    apply Component.lives_of_steps
    apply Relation.ReflTransGen.head (.start (rfl : starts trialWorld 180000 trialWorld))
    apply Relation.ReflTransGen.head (.answer hpending)
    exact .single (.answer hverdict)
  exact armed_of_lives armed_trialWorld hlives rfl rfl

/-- The flag is erased and the rollback fails: the rejected image stays, and no boot asks again. -/
theorem armed_false_erasedWorld :
    ¬ ∀ (world world' : World) (phase : Component.Phase RootCall RootAns Unit Millis),
      Armed world.kv → healthTicks.Lives setting starts boots (.idle (), world) (phase, world') →
        world'.confirmed = false → world'.rolledBack = false → Armed world'.kv := by
  intro hall
  have hpending : setting.answers trialWorld .otaPending true trialWorld := ⟨rfl, rfl⟩
  have hverdict : setting.answers trialWorld (.evaluate 180000) .rollback decidedWorld := rfl
  have hflag : setting.answers decidedWorld (.erase (ascii "ota_pending")) true
      { decidedWorld with kv := decidedWorld.kv.after (.erase (ascii "ota_pending")) true } := rfl
  have hversion : setting.answers
      { decidedWorld with kv := decidedWorld.kv.after (.erase (ascii "ota_pending")) true }
      (.erase (ascii "ota_pending_ver")) true erasedWorld := rfl
  have hrollBack : setting.answers erasedWorld .rollBack false erasedWorld := rfl
  have hlives : healthTicks.Lives setting starts boots (.idle (), trialWorld)
      (.busy 180000 (.call .reboot .ret), erasedWorld) := by
    apply Component.lives_of_steps
    apply Relation.ReflTransGen.head (.start (rfl : starts trialWorld 180000 trialWorld))
    apply Relation.ReflTransGen.head (.answer hpending)
    apply Relation.ReflTransGen.head (.answer hverdict)
    apply Relation.ReflTransGen.head (.answer hflag)
    apply Relation.ReflTransGen.head (.answer hversion)
    exact .single (.answer hrollBack)
  have harmed := armed_iff.mp (hall _ _ _ armed_trialWorld hlives rfl rfl)
  exact absurd harmed (by decide)

end Trial

end LibreSwitch.App
