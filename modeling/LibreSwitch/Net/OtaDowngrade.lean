import LibreSwitch.Net.OtaService

/-!
# What the signature of an update covers

The signature is verified over the staged image. The manifest that comes with it is read by the
precheck alone, and its version and `allowDowngrade` take no part in the verification.

`edit` is a manifest with another version and another `allowDowngrade`. With the same seams an
edited manifest goes through the same calls up to the commit, so it is applied exactly if its own
version passes the policy (`resultOf_edit_eq_ok_iff`), and with `allowDowngrade` every version does.
-/

set_option autoImplicit false
set_option relaxedAutoImplicit false

namespace LibreSwitch.Net

open LibreSwitch.Library LibreSwitch.Profiles

/-- The manifest with another version and another `allowDowngrade`. -/
def OtaManifest.edit (manifest : OtaManifest) (version : FwVersion) (allowDowngrade : Bool) :
    OtaManifest :=
  { manifest with version := version, allowDowngrade := allowDowngrade }

namespace OtaService

variable {W : Type} (respond : W → (request : OtaCall) → OtaAns request × W)

/-- The result of applying a manifest with these seams. -/
def resultOf (service : OtaService) (manifest : OtaManifest) (world : W) : OtaResult :=
  ((service.apply manifest).runOn respond world).1

/-- The result of an installation, by the answers of the seams. -/
theorem runOn_install (manifest : OtaManifest) (world : W) :
    ((install manifest).runOn respond world).1 =
      let downloaded := (doDownload manifest).runOn respond
        (respond world (.onPhase .downloading .ok)).2
      let verified := respond (respond downloaded.2 (.onPhase .verifying .ok)).2
        (.verifyStagedImage manifest.sigB64)
      let committed := respond (respond verified.2 (.onPhase .committing .ok)).2 .commit
      if !downloaded.1 then .downloadFailed
      else if !verified.1 then .verifyFailed
      else if !committed.1 then .commitFailed
      else .ok := by
  unfold install
  simp only [Prog.ask_bind, Prog.runOn_call, Prog.runOn_bind]
  split_ifs with hdownloaded hverified hcommitted
  · rfl
  · simp only [Prog.runOn_call]
    rw [if_pos hverified]
    rfl
  · simp only [Prog.runOn_call]
    rw [if_neg hverified]
    simp only [Prog.runOn_call]
    rw [if_pos hcommitted]
    rfl
  · simp only [Prog.runOn_call]
    rw [if_neg hverified]
    simp only [Prog.runOn_call]
    rw [if_neg hcommitted]
    rfl

/-- The installation of an edited manifest ends as that of the original. -/
theorem runOn_install_edit (manifest : OtaManifest) (version : FwVersion) (allowDowngrade : Bool)
    (world : W) : ((install (manifest.edit version allowDowngrade)).runOn respond world).1 =
      ((install manifest).runOn respond world).1 := by
  rw [runOn_install, runOn_install]
  rfl

/-- A manifest is applied if it is valid and passes the precheck, and its installation succeeds. -/
theorem resultOf_eq_ok_iff (service : OtaService) (manifest : OtaManifest) (world : W) :
    resultOf respond service manifest world = .ok ↔ manifest.valid = true ∧
      service.precheck manifest = .ok ∧
      ((install manifest).runOn respond (respond world (.onPhase .precheck .ok)).2).1 = .ok := by
  unfold resultOf apply
  cases hvalid : manifest.valid with
  | false =>
    simp only [Bool.not_false, ↓reduceIte, Bool.false_eq_true, false_and, iff_false]
    intro hok
    cases hok
  | true =>
    simp only [Bool.not_true, Bool.false_eq_true, ↓reduceIte, Prog.ask_bind, Prog.runOn_call,
      true_and]
    split_ifs with hprecheck
    · exact iff_of_false (fun hok ↦ hprecheck hok) fun hboth ↦ hprecheck hboth.1
    · exact (and_iff_right (not_not.mp hprecheck)).symm

theorem precheck_eq_ok_iff (service : OtaService) (manifest : OtaManifest) :
    service.precheck manifest = .ok ↔
      ProfileResolver.hwCompatMatches service.profile manifest.hwFamily manifest.hwChannels = true ∧
        OtaPolicy.sizeFits manifest.sizeBytes = true ∧
        OtaPolicy.versionAccepted manifest.version service.current manifest.allowDowngrade =
          true := by
  unfold precheck
  split_ifs with hhw hsize hversion
  · exact iff_of_false nofun fun hall ↦ by simp [hall.1] at hhw
  · exact iff_of_false nofun fun hall ↦ by simp [hall.2.1] at hsize
  · exact iff_of_false nofun fun hall ↦ by simp [hall.2.2] at hversion
  · exact iff_of_true rfl ⟨by simpa using hhw, by simpa using hsize, by simpa using hversion⟩

/-- Where a manifest is applied, an edited one is applied exactly if its version passes. -/
theorem resultOf_edit_eq_ok_iff {service : OtaService} {manifest : OtaManifest} {world : W}
    (hok : resultOf respond service manifest world = .ok) (version : FwVersion)
    (allowDowngrade : Bool) :
    resultOf respond service (manifest.edit version allowDowngrade) world = .ok ↔
      OtaPolicy.versionAccepted version service.current allowDowngrade = true := by
  obtain ⟨hvalid, hprecheck, hinstall⟩ := (resultOf_eq_ok_iff _ _ _ _).mp hok
  obtain ⟨hhw, hsize, -⟩ := (precheck_eq_ok_iff _ _).mp hprecheck
  rw [resultOf_eq_ok_iff, precheck_eq_ok_iff, runOn_install_edit]
  constructor
  · intro hedited
    exact hedited.2.1.2.2
  · intro hversion
    exact ⟨hvalid, ⟨hhw, hsize, hversion⟩, hinstall⟩

/-- No manifest that differs from this one in the version or in `allowDowngrade` is applied with
these seams. -/
def Authenticated (service : OtaService) (manifest : OtaManifest) (world : W) : Prop :=
  ∀ version allowDowngrade, manifest.edit version allowDowngrade ≠ manifest →
    resultOf respond service (manifest.edit version allowDowngrade) world ≠ .ok

/-- Another version is another manifest. -/
theorem exists_edit_ne (manifest : OtaManifest) :
    ∃ version, manifest.edit version true ≠ manifest := by
  refine ⟨{ manifest.version with patch := manifest.version.patch + 1 }, fun heq ↦ ?_⟩
  have hpatch : manifest.version.patch + 1 = manifest.version.patch :=
    congrArg (fun edited ↦ edited.version.patch) heq
  simp at hpatch

/-- The version and `allowDowngrade` of a manifest that is applied are never authenticated: every
version is applied in its place if `allowDowngrade` is set. -/
theorem not_authenticated {service : OtaService} {manifest : OtaManifest} {world : W}
    (hok : resultOf respond service manifest world = .ok) :
    (∀ version, resultOf respond service (manifest.edit version true) world = .ok) ∧
      ¬ Authenticated respond service manifest world := by
  have hany (version : FwVersion) :
      resultOf respond service (manifest.edit version true) world = .ok :=
    (resultOf_edit_eq_ok_iff respond hok version true).mpr rfl
  refine ⟨hany, fun hauthenticated ↦ ?_⟩
  obtain ⟨version, hne⟩ := exists_edit_ne manifest
  exact hauthenticated version true hne (hany version)

/-! ### A downgrade -/

/-- Seams that deliver and verify every image. -/
def delivering (world : Unit) : (request : OtaCall) → OtaAns request × Unit
  | .begin _ | .writeChunk _ | .finish | .commit | .verifyStagedImage _ | .setBlob _ _ =>
    (true, world)
  | .download _ _ => (.returns true, world)
  | .onPhase _ _ | .abort | .downloadReturns _ | .reboot => ((), world)

theorem not_authenticated_witness :
    resultOf delivering device (newerImage.edit ⟨0, 9, 0⟩ true) () = .ok :=
  (not_authenticated delivering (by decide : resultOf delivering device newerImage () = .ok)).1
    ⟨0, 9, 0⟩

/-- With `dg=1` a device that runs 1.0.0 takes 0.9.0 under the signature of another manifest. -/
theorem authenticated_false_downgrade :
    ¬ ∀ (service : OtaService) (respond : Unit → (request : OtaCall) → OtaAns request × Unit)
      (manifest : OtaManifest), resultOf respond service manifest () = .ok →
        Authenticated respond service manifest () := by
  intro hall
  have hauthenticated := hall device delivering newerImage (by decide)
  have hne : newerImage.edit ⟨0, 9, 0⟩ true ≠ newerImage := by
    intro heq
    exact absurd (congrArg (fun edited ↦ edited.allowDowngrade) heq) (by decide)
  exact hauthenticated ⟨0, 9, 0⟩ true hne (by decide)

end OtaService

end LibreSwitch.Net
