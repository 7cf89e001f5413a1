import LibreSwitch.Net.ManifestMeaning
import LibreSwitch.Net.StagedImage

/-!
# From a message to a restart

`CompositionRoot::handleOtaManifest` with everything behind it: the manifest codec, the update
service, and behind its seams the downloader, the firmware writer and the verifier of the device,
the store and the reboot control. The parts are known one by one. Here the service is run with the
device's own seams (`translate_doDownload` says that a download is then a session of `StagedImage`),
message after message, with the writer as each session left it, and with any answers of the network,
the flash and the store.

`restarts_into_verified` says what follows for the device: it writes and erases its slot only for a
message that is for this hardware and not a downgrade; it restarts only into the bytes that it read
from the server, all of them written, as many as the message says and with the digest that the
message says; and whenever the net task is back in its loop, every session that began has been
aborted.
-/

set_option autoImplicit false
set_option relaxedAutoImplicit false

namespace LibreSwitch.App

open LibreSwitch.Library LibreSwitch.Net
open Prog (ask)
open OtaManifestCodec (Parsing tokens parse_eq parseLoop_eq_foldl)

/-! ### The update path of the device -/

/-- The calls that a message leads to. `canRollBack` and `abort` are those of `Update`. -/
inductive DeliveryCall
  | yieldConnection
  | onPhase (phase : OtaPhase) (result : OtaResult)
  | session (request : DeviceCall)
  | canRollBack
  | abort
  | setBlob (key data : Bytes)
  | restart

/-- What they answer. -/
abbrev DeliveryAns : DeliveryCall → Type
  | .session request => DeviceAns request
  | .canRollBack => Bool
  | .setBlob _ _ => Bool
  | _ => Unit

namespace OtaDelivery

variable {Ctx : Type} (mbedtls : Mbedtls Ctx) (downloader : HttpDownloader) (rounds : ℕ)

/-- A part of a message's handling that is an update session. -/
def onSession {α : Type} (program : Prog DeviceCall DeviceAns α) :
    Prog DeliveryCall DeliveryAns α :=
  program.embed .session fun _ ↦ Equiv.refl _

/-- The seams of the update service at the device. The downloader hands its chunks to the writer
while it downloads, so nothing is left to do when it has returned. -/
def seams (writer : LibreTinyFirmwareWriter Ctx) : (request : OtaCall) →
    Prog DeliveryCall DeliveryAns (OtaAns request × LibreTinyFirmwareWriter Ctx)
  | .onPhase phase result => do
    ask (DeliveryCall.onPhase phase result)
    return ((), writer)
  | .begin size => onSession (StagedImage.onUpdate (writer.begin mbedtls size))
  | .writeChunk data => onSession (StagedImage.onUpdate (writer.writeChunk mbedtls data))
  | .finish => onSession (StagedImage.onUpdate (writer.finish mbedtls))
  | .abort => do
    ask DeliveryCall.abort
    return ((), writer)
  | .commit => do
    let committed ← ask DeliveryCall.canRollBack
    return (committed, writer)
  | .download url size => do
    let (delivered, writer) ← onSession
      ((downloader.download rounds (cString url) size).translate
        (StagedImage.attend mbedtls) writer)
    return (.returns delivered, writer)
  | .downloadReturns _ => return ((), writer)
  | .verifyStagedImage sigB64 =>
    return (DevSha256Verifier.verifyStagedImage mbedtls writer (some (cString sigB64)), writer)
  | .setBlob key data => do
    let stored ← ask (DeliveryCall.setBlob key data)
    return (stored, writer)
  | .reboot => do
    ask DeliveryCall.restart
    return ((), writer)

/-- `handleOtaManifest`, with the update service and the MQTT service if they were constructed. -/
def handleOtaManifest (ota : Option OtaService) (mqtt : Bool)
    (writer : LibreTinyFirmwareWriter Ctx) (payload : Bytes) :
    Prog DeliveryCall DeliveryAns (LibreTinyFirmwareWriter Ctx) :=
  match ota with
  | none => return writer
  | some service =>
    let manifest := OtaManifestCodec.parse payload
    if !manifest.valid then return writer
    else do
      if mqtt then ask DeliveryCall.yieldConnection
      let (_, writer) ← (service.apply manifest).translate (seams mbedtls downloader rounds) writer
      return writer

/-- With the device behind its seams, the download of the service is an update session. -/
theorem translate_doDownload (manifest : OtaManifest) (writer : LibreTinyFirmwareWriter Ctx) :
    (OtaService.doDownload manifest).translate (seams mbedtls downloader rounds) writer =
      onSession (StagedImage.doDownload mbedtls downloader rounds manifest writer) := by
  unfold OtaService.doDownload StagedImage.doDownload onSession
  rw [Prog.embed_bind]
  refine congrArg (_ >>= ·) (funext fun begun ↦ ?_)
  obtain ⟨begun, started⟩ := begun
  cases begun with
  | false => rfl
  | true =>
    simp only [Bool.not_true, Bool.false_eq_true, if_false]
    rw [Prog.embed_bind]
    refine (Prog.bind_assoc _ _ _).trans (congrArg (_ >>= ·) (funext fun delivered ↦ ?_))
    obtain ⟨delivered, ended⟩ := delivered
    cases delivered with
    | false => rfl
    | true => exact Prog.bind_ret _

/-- The service after its precheck, with the device behind its seams. -/
theorem translate_install (manifest : OtaManifest) (writer : LibreTinyFirmwareWriter Ctx) :
    (OtaService.install manifest).translate (seams mbedtls downloader rounds) writer =
      .call (.onPhase .downloading .ok) fun _ ↦
        onSession (StagedImage.doDownload mbedtls downloader rounds manifest writer) >>=
          fun session ↦
            if !session.1 then
              (OtaService.abortWith .downloadFailed).translate (seams mbedtls downloader rounds)
                session.2
            else .call (.onPhase .verifying .ok) fun _ ↦
              if !DevSha256Verifier.verifyStagedImage mbedtls session.2
                  (some (cString manifest.sigB64)) then
                (OtaService.abortWith .verifyFailed).translate (seams mbedtls downloader rounds)
                  session.2
              else .call (.onPhase .committing .ok) fun _ ↦ .call .canRollBack fun committed ↦
                if !committed then
                  (OtaService.abortWith .commitFailed).translate (seams mbedtls downloader rounds)
                    session.2
                else
                  (OtaService.finishUpdate manifest).translate (seams mbedtls downloader rounds)
                    session.2 := by
  refine congrArg (Prog.call _) (funext fun _ ↦
    (Prog.translate_bind (OtaService.doDownload manifest) _ writer).trans ?_)
  rw [translate_doDownload]
  refine congrArg (_ >>= ·) (funext fun session ↦ ?_)
  obtain ⟨downloaded, writer'⟩ := session
  cases downloaded with
  | false => rfl
  | true =>
    refine congrArg (Prog.call _) (funext fun _ ↦ ?_)
    cases haccepted : DevSha256Verifier.verifyStagedImage mbedtls writer'
        (some (cString manifest.sigB64)) with
    | false =>
      exact congrArg (fun accepted ↦ Prog.translate _ (if !accepted then _ else _) _) haccepted
    | true =>
      refine (congrArg (fun accepted ↦ Prog.translate _ (if !accepted then _ else _) _)
        haccepted).trans ?_
      refine congrArg (Prog.call _)
        (funext fun _ ↦ congrArg (Prog.call _) (funext fun committed ↦ ?_))
      cases committed with
      | false => rfl
      | true => rfl

end OtaDelivery

/-! ### The device while it handles messages -/

/-- What happened since the last message arrived: whether the MQTT connection was given up, the
update session so far, the last answer of `canRollBack`, the abort, and the writes to the store. -/
structure DeliveryWorld where
  payload : Bytes := []
  yielded : Bool := false
  session : List DeviceEvent := []
  committed : Bool := false
  aborted : Bool := false
  stored : List (Bytes × Bytes) := []

namespace DeliveryWorld

/-- A message arrives. -/
def receives (_ : DeliveryWorld) (payload : Bytes) : DeliveryWorld := { payload := payload }

/-- What an answer leaves. -/
def after (world : DeliveryWorld) : (request : DeliveryCall) → DeliveryAns request → DeliveryWorld
  | .yieldConnection, _ => { world with yielded := true }
  | .onPhase _ _, _ => world
  | .session request, answer => { world with session := world.session ++ [⟨request, answer⟩] }
  | .canRollBack, committed => { world with committed := committed }
  | .abort, _ => { world with aborted := true }
  | .setBlob key data, _ => { world with stored := world.stored ++ [(key, data)] }
  | .restart, _ => world

/-- The manifest that arrived. -/
def manifest (world : DeliveryWorld) : OtaManifest := OtaManifestCodec.parse world.payload

/-- The bytes that were written to the slot. -/
def image (world : DeliveryWorld) : Bytes :=
  ((StagedImage.writes world.session).map Prod.fst).flatten

/-- The message is for this device, and the MQTT connection has been given up for it. -/
structure Admitted (service : OtaService) (mqtt : Bool) (world : DeliveryWorld) : Prop where
  acceptable : OtaManifestCodec.Acceptable world.payload
  admissible : OtaService.Admissible service world.manifest
  yielded : mqtt = true → world.yielded = true

/-- The image in the slot is what the server sent, whole, and what the message says. -/
structure Verified (sha256 : Bytes → Bytes) (base64 : Bytes → Option Bytes)
    (world : DeliveryWorld) : Prop where
  received_eq : world.image = StagedImage.received world.session
  length_eq : world.image.length = world.manifest.sizeBytes.toNat
  whole : ∀ write ∈ StagedImage.writes world.session, write.2 = write.1.length
  digest_eq : base64 (cString world.manifest.sigB64) = some (sha256 world.image)
  not_aborted : world.aborted = false

/-- The image is activated, and the health window of the next boot was asked for. -/
structure Flagged (world : DeliveryWorld) : Prop where
  committed : world.committed = true
  stored_eq : world.stored =
    [(ascii "ota_pending", [1]), (ascii "ota_pending_ver", world.manifest.version.toBytes)]

/-- Nothing was begun for the last message, or it was aborted. -/
def Settled (world : DeliveryWorld) : Prop := world.session = [] ∨ world.aborted = true

/-- What has to hold when a call is made. An abort erases what is in the slot. -/
def Justified (service : OtaService) (mqtt : Bool) (sha256 : Bytes → Bytes)
    (base64 : Bytes → Option Bytes) (world : DeliveryWorld) : DeliveryCall → Prop
  | .yieldConnection => OtaManifestCodec.Acceptable world.payload
  | .onPhase _ _ => OtaManifestCodec.Acceptable world.payload
  | .session _ => world.Admitted service mqtt
  | .abort => world.Admitted service mqtt
  | .canRollBack => world.Admitted service mqtt ∧ world.Verified sha256 base64
  | .setBlob _ _ =>
    world.Admitted service mqtt ∧ world.Verified sha256 base64 ∧ world.committed = true
  | .restart => world.Admitted service mqtt ∧ world.Verified sha256 base64 ∧ world.Flagged

end DeliveryWorld

namespace OtaDelivery

/-- Any answers may come; a restart does not come back. -/
def setting : Setting DeliveryCall DeliveryAns DeliveryWorld where
  answers world request answer world' := request ≠ .restart ∧ world' = world.after request answer

/-- The part of the net task that handles messages; what it keeps is the firmware writer. -/
def updates {Ctx : Type} (mbedtls : Mbedtls Ctx) (downloader : HttpDownloader) (rounds : ℕ)
    (ota : Option OtaService) (mqtt : Bool) :
    Component DeliveryCall DeliveryAns (LibreTinyFirmwareWriter Ctx) Bytes where
  handle writer payload := handleOtaManifest mbedtls downloader rounds ota mqtt writer payload

/-- Any message may arrive. -/
def starts (world : DeliveryWorld) (payload : Bytes) (world' : DeliveryWorld) : Prop :=
  world' = world.receives payload

section Handling

open DeliveryWorld

variable {Ctx : Type} {mbedtls : Mbedtls Ctx} {downloader : HttpDownloader} {rounds : ℕ}
  {sha256 : Bytes → Bytes} {base64 : Bytes → Option Bytes} {service : OtaService} {mqtt : Bool}
  {writer : LibreTinyFirmwareWriter Ctx} {world : DeliveryWorld}

/-- A call that may be made, when what follows is settled for each of its answers. -/
theorem wp_call {α : Type} {request : DeliveryCall}
    {resume : DeliveryAns request → Prog DeliveryCall DeliveryAns α}
    {post : α → DeliveryWorld → Prop}
    (hjustified : world.Justified service mqtt sha256 base64 request)
    (hresume : ∀ answer, request ≠ .restart →
      setting.wp (Justified service mqtt sha256 base64) (resume answer) post
        (world.after request answer)) :
    setting.wp (Justified service mqtt sha256 base64) (.call request resume) post world := by
  refine Setting.quiet_alone.wp_call_iff.mpr ⟨hjustified, ?_⟩
  rintro answer _ ⟨hreturns, rfl⟩
  exact hresume answer hreturns

/-- A session that may take place is one of its runs. -/
theorem wp_session {α : Type} (program : Prog DeviceCall DeviceAns α)
    (hadmitted : world.Admitted service mqtt) :
    setting.wp (Justified service mqtt sha256 base64) (onSession program)
      (fun value last ↦ ∃ trace, program.Runs trace value ∧
        last = { world with session := world.session ++ trace }) world := by
  induction program generalizing world with
  | ret value =>
    refine Setting.quiet_alone.wp_ret_iff.mpr ⟨[], ⟨rfl, rfl⟩, ?_⟩
    rw [List.append_nil]
  | call request resume ih =>
    refine wp_call hadmitted fun answer _ ↦ ?_
    have hadmitted' : (world.after (.session request) answer).Admitted service mqtt :=
      ⟨hadmitted.acceptable, hadmitted.admissible, hadmitted.yielded⟩
    refine Setting.wp_mono ?_ (ih answer hadmitted')
    rintro value last ⟨trace, hruns, rfl⟩
    refine ⟨⟨request, answer⟩ :: trace, ⟨answer, trace, rfl, hruns⟩, ?_⟩
    simp only [after, List.append_assoc, List.singleton_append]

/-- A failure that is only reported leaves things settled if they were. -/
theorem wp_fail (result : OtaResult) (haccept : OtaManifestCodec.Acceptable world.payload)
    (hsettled : world.Settled) :
    setting.wp (Justified service mqtt sha256 base64)
      ((OtaService.fail result).translate (seams mbedtls downloader rounds) writer)
      (fun _ last ↦ last.Settled) world :=
  wp_call haccept fun _ _ ↦ Setting.quiet_alone.wp_ret_iff.mpr hsettled

/-- A failure with an abort settles things. -/
theorem wp_abortWith (result : OtaResult) (hadmitted : world.Admitted service mqtt) :
    setting.wp (Justified service mqtt sha256 base64)
      ((OtaService.abortWith result).translate (seams mbedtls downloader rounds) writer)
      (fun _ last ↦ last.Settled) world :=
  wp_call hadmitted fun _ _ ↦ wp_fail result hadmitted.acceptable (.inr rfl)

/-- The part after the commit ends in the restart. -/
theorem wp_finishUpdate (world : DeliveryWorld) (hadmitted : world.Admitted service mqtt)
    (hverified : world.Verified sha256 base64) (hcommitted : world.committed = true)
    (hstored : world.stored = []) :
    setting.wp (Justified service mqtt sha256 base64)
      ((OtaService.finishUpdate world.manifest).translate (seams mbedtls downloader rounds) writer)
      (fun _ last ↦ last.Settled) world := by
  refine wp_call ⟨hadmitted, hverified, hcommitted⟩ fun flagged _ ↦ ?_
  have hadmitted' : (world.after (.setBlob (ascii "ota_pending") [1]) flagged).Admitted service
      mqtt := ⟨hadmitted.acceptable, hadmitted.admissible, hadmitted.yielded⟩
  have hverified' : (world.after (.setBlob (ascii "ota_pending") [1]) flagged).Verified sha256
      base64 := ⟨hverified.1, hverified.2, hverified.3, hverified.4, hverified.5⟩
  refine wp_call ⟨hadmitted', hverified', hcommitted⟩ fun versioned _ ↦ ?_
  refine wp_call hadmitted.acceptable fun _ _ ↦ ?_
  refine wp_call ⟨?_, ?_, hcommitted, ?_⟩ fun _ hreturns ↦ absurd rfl hreturns
  · exact ⟨hadmitted.acceptable, hadmitted.admissible, hadmitted.yielded⟩
  · exact ⟨hverified.1, hverified.2, hverified.3, hverified.4, hverified.5⟩
  · simp only [after, hstored]
    rfl

/-- What a session that succeeded leaves is verified if the verifier accepts it. -/
theorem verified_of_runs (hcorrect : mbedtls.Correct sha256 base64)
    {writer' : LibreTinyFirmwareWriter Ctx}
    (hruns : (StagedImage.doDownload mbedtls downloader rounds
      world.manifest writer).Runs world.session (true, writer'))
    (haccepted : DevSha256Verifier.verifyStagedImage mbedtls writer'
      (some (cString world.manifest.sigB64)) = true) (haborted : world.aborted = false) :
    world.Verified sha256 base64 := by
  obtain ⟨hflatten, hlength, hwhole, hdigest⟩ := StagedImage.digest_of_session hcorrect hruns
  obtain ⟨text, htext, hdecoded⟩ := (DevSha256Verifier.verifyStagedImage_iff hcorrect hdigest
    (hcorrect.length_sha256 _) _).mp haccepted
  obtain rfl := Option.some.inj htext
  rw [← hflatten] at hlength hdecoded
  exact ⟨hflatten, hlength, hwhole, hdecoded, haborted⟩

/-- An admitted message is installed, or what it began is aborted. -/
theorem wp_install (hcorrect : mbedtls.Correct sha256 base64)
    (hadmitted : world.Admitted service mqtt) (hsession : world.session = [])
    (haborted : world.aborted = false) (hstored : world.stored = []) :
    setting.wp (Justified service mqtt sha256 base64)
      ((OtaService.install world.manifest).translate (seams mbedtls downloader rounds) writer)
      (fun _ last ↦ last.Settled) world := by
  rw [translate_install]
  refine wp_call hadmitted.acceptable fun _ _ ↦
    Setting.wp_bind (Setting.wp_mono ?_ (wp_session _ hadmitted))
  rintro ⟨downloaded, writer'⟩ last ⟨trace, hruns, rfl⟩
  have hadmitted' : Admitted service mqtt { world with session := world.session ++ trace } :=
    ⟨hadmitted.acceptable, hadmitted.admissible, hadmitted.yielded⟩
  cases downloaded with
  | false => exact wp_abortWith _ hadmitted'
  | true =>
    refine wp_call hadmitted.acceptable fun _ _ ↦ ?_
    cases haccepted : DevSha256Verifier.verifyStagedImage mbedtls writer'
      (some (cString world.manifest.sigB64)) with
    | false => exact wp_abortWith _ hadmitted'
    | true =>
      have hran : (StagedImage.doDownload mbedtls downloader rounds world.manifest writer).Runs
          (world.session ++ trace) (true, writer') := by
        rw [hsession]
        exact hruns
      have hverified : Verified sha256 base64 { world with session := world.session ++ trace } :=
        verified_of_runs hcorrect hran haccepted haborted
      refine wp_call hadmitted.acceptable fun _ _ ↦
        wp_call ⟨hadmitted', hverified⟩ fun committed _ ↦ ?_
      cases committed with
      | false =>
        exact wp_abortWith _ ⟨hadmitted.acceptable, hadmitted.admissible, hadmitted.yielded⟩
      | true =>
        exact wp_finishUpdate
          { world with session := world.session ++ trace, committed := true }
          ⟨hadmitted.acceptable, hadmitted.admissible, hadmitted.yielded⟩
          ⟨hverified.1, hverified.2, hverified.3, hverified.4, hverified.5⟩ rfl hstored

/-- The handling of a message, from the precheck on. -/
theorem wp_apply (hcorrect : mbedtls.Correct sha256 base64) (world : DeliveryWorld)
    (haccept : OtaManifestCodec.Acceptable world.payload)
    (hyielded : mqtt = true → world.yielded = true) (hsession : world.session = [])
    (haborted : world.aborted = false) (hstored : world.stored = []) :
    setting.wp (Justified service mqtt sha256 base64)
      ((service.apply world.manifest).translate (seams mbedtls downloader rounds) writer)
      (fun _ last ↦ last.Settled) world := by
  unfold OtaService.apply
  split_ifs with hvalid hprecheck
  · exact wp_fail _ haccept (.inl hsession)
  · exact wp_call haccept fun _ _ ↦ wp_fail _ haccept (.inl hsession)
  · have hadmissible : OtaService.Admissible service world.manifest :=
      (OtaService.admissible_iff service world.manifest).mpr
        ⟨by simpa using hvalid, not_not.mp hprecheck⟩
    exact wp_call haccept fun _ _ ↦
      wp_install hcorrect ⟨haccept, hadmissible, hyielded⟩ hsession haborted hstored

/-- A message that arrives is handled. -/
theorem wp_handleOtaManifest (hcorrect : mbedtls.Correct sha256 base64) (payload : Bytes) :
    setting.wp (Justified service mqtt sha256 base64)
      (handleOtaManifest mbedtls downloader rounds (some service) mqtt writer payload)
      (fun _ last ↦ last.Settled) (world.receives payload) := by
  unfold handleOtaManifest
  simp only
  split_ifs with hvalid hmqtt
  · exact Setting.quiet_alone.wp_ret_iff.mpr (.inl rfl)
  · have haccept : OtaManifestCodec.Acceptable payload :=
      (OtaManifestCodec.valid_iff payload).mp (by simpa using hvalid)
    have hafter : setting.wp (Justified service mqtt sha256 base64)
        ((service.apply (OtaManifestCodec.parse payload)).translate
          (seams mbedtls downloader rounds) writer >>= fun reply ↦ .ret reply.2)
        (fun _ last ↦ last.Settled) { payload := payload, yielded := true } := by
      refine Setting.wp_bind (Setting.wp_mono ?_
        (wp_apply hcorrect { payload := payload, yielded := true } haccept
          (fun _ ↦ rfl) rfl rfl rfl))
      exact fun _ _ hsettled ↦ Setting.quiet_alone.wp_ret_iff.mpr hsettled
    exact wp_call haccept fun _ _ ↦ hafter
  · have haccept : OtaManifestCodec.Acceptable payload :=
      (OtaManifestCodec.valid_iff payload).mp (by simpa using hvalid)
    refine Setting.wp_bind (Setting.wp_mono ?_ (wp_apply hcorrect (world.receives payload) haccept
      (fun hpresent ↦ absurd hpresent hmqtt) rfl rfl rfl))
    exact fun _ _ hsettled ↦ Setting.quiet_alone.wp_ret_iff.mpr hsettled

/-- While a message is handled, it is the last one that arrived. -/
theorem payload_of_steps {phase : Component.Phase DeliveryCall DeliveryAns
      (LibreTinyFirmwareWriter Ctx) Bytes}
    (hsteps : (updates mbedtls downloader rounds (some service) mqtt).Steps setting starts
      (.idle writer, {}) (phase, world)) (payload : Bytes)
    (program : Prog DeliveryCall DeliveryAns (LibreTinyFirmwareWriter Ctx))
    (hphase : phase = .busy payload program) : world.payload = payload := by
  suffices hall : ∀ config, (updates mbedtls downloader rounds (some service) mqtt).Steps setting
      starts (.idle writer, {}) config → ∀ payload program, config.1 = .busy payload program →
        config.2.payload = payload from hall _ hsteps payload program hphase
  intro config hreached
  induction hreached with
  | refl => exact fun _ _ hidle ↦ nomatch hidle
  | tail _ hstep ih =>
    intro payload program hbusy
    cases hstep with
    | start hstart =>
      obtain ⟨rfl, -⟩ := Component.Phase.busy.inj hbusy
      exact congrArg DeliveryWorld.payload hstart
    | @answer operation request resume world world' reply hanswer =>
      obtain ⟨rfl, -⟩ := Component.Phase.busy.inj hbusy
      have hkept : (world.after request reply).payload = world.payload := by
        cases request <;> rfl
      exact (congrArg DeliveryWorld.payload hanswer.2).trans (hkept.trans (ih _ _ rfl))
    | interfere hinterfere => exact absurd hinterfere (Setting.quiet_alone _ _)
    | finish => cases hbusy

/-- Over all messages that arrive, in any order and number, and all answers of the network, the
flash and the store: nothing at all is done for a message that is not acceptable; what belongs to an
update session, and the abort that erases the slot, is done only for a message that is for this
hardware, fits the slot and is no downgrade, with the MQTT connection given up; the image is
activated only if all the bytes written are the bytes received, as many as the manifest says, with
the digest that it says; the device restarts only if the image was then activated and the flag of
the health window was asked for; and between two messages nothing is left that was begun and not
aborted. -/
theorem restarts_into_verified (hcorrect : mbedtls.Correct sha256 base64)
    {phase : Component.Phase DeliveryCall DeliveryAns (LibreTinyFirmwareWriter Ctx) Bytes}
    (hsteps : (updates mbedtls downloader rounds (some service) mqtt).Steps setting starts
      (.idle writer, {}) (phase, world)) :
    (∀ payload request resume, phase = .busy payload (.call request resume) →
      world.payload = payload ∧ world.Justified service mqtt sha256 base64 request) ∧
      ∀ writer', phase = .idle writer' → world.Settled := by
  have hmaintains : Component.Maintains setting (Justified service mqtt sha256 base64)
      (fun _ last ↦ last.Settled) (phase, world) := by
    refine Component.invariant_rule
      (fun _ _ _ _ hinterfere ↦ absurd hinterfere (Setting.quiet_alone _ _)) ?_ hsteps (.inl rfl)
    rintro _ payload _ _ - rfl
    exact wp_handleOtaManifest hcorrect payload
  constructor
  · rintro payload request resume hphase
    refine ⟨payload_of_steps hsteps payload _ hphase, ?_⟩
    subst hphase
    exact Setting.wp_guard hmaintains
  · rintro writer' rfl
    exact hmaintains

end Handling

/-! ### A message for three bytes -/

/-- The message, for a two-gang device. -/
def abcPayload : Bytes :=
  ascii "url=http://host/fw;ver=1.1.0;hw=bk7231n.relay_touch;ch=2;size=3;" ++
    ascii "sig=ungWv48Bz+pBQUDeXa4iI7ADYaOWF3qctBD/YfIAFa0="

/-- What the codec reads. -/
def abcRead : OtaManifest :=
  let parsing := (tokens abcPayload).foldl Parsing.parseToken {}
  { parsing.m with valid := parsing.isValid }

theorem parse_abcPayload : OtaManifestCodec.parse abcPayload = abcRead := by
  rw [parse_eq (by decide) (by decide), parseLoop_eq_foldl]
  rfl

/-- The answers of a server that sends this, of a flash that takes every write, and of a store that
refuses nothing. Nothing answers the restart. -/
def delivering (world : DeliveryWorld × Bytes) :
    (request : DeliveryCall) → Option (DeliveryAns request × (DeliveryWorld × Bytes))
  | .session request =>
    (StagedImage.serving world.2 request).map fun reply ↦
      (reply.1, world.1.after (.session request) reply.1, reply.2)
  | .canRollBack => some (true, world.1.after .canRollBack true, world.2)
  | .setBlob key data => some (true, world.1.after (.setBlob key data) true, world.2)
  | .onPhase phase result => some ((), world.1.after (.onPhase phase result) (), world.2)
  | .yieldConnection => some ((), world.1.after .yieldConnection (), world.2)
  | .abort => some ((), world.1.after .abort (), world.2)
  | .restart => none

theorem answers_delivering (world : DeliveryWorld × Bytes) (request : DeliveryCall)
    (reply : DeliveryAns request × (DeliveryWorld × Bytes))
    (hreply : delivering world request = some reply) :
    setting.answers world.1 request reply.1 reply.2.1 := by
  cases request with
  | session request =>
    obtain ⟨served, -, rfl⟩ := Option.map_eq_some_iff.mp hreply
    exact ⟨nofun, rfl⟩
  | restart => cases hreply
  | _ =>
    obtain rfl := Option.some.inj hreply
    exact ⟨nofun, rfl⟩

/-- The part of the net task that handles messages, at a two-gang device. -/
abbrev abcUpdates : Component DeliveryCall DeliveryAns (LibreTinyFirmwareWriter Bytes) Bytes :=
  updates StagedImage.abcMbedtls {} 4 (some OtaService.device) true

/-- The handling of the message, up to the call that is not answered. -/
def abcHandling : Prog DeliveryCall DeliveryAns (LibreTinyFirmwareWriter Bytes) ×
    (DeliveryWorld × Bytes) :=
  (abcUpdates.handle StagedImage.usedWriter abcPayload).runUntil delivering
    (({} : DeliveryWorld).receives abcPayload, ascii "HTTP/1.1 200\r\n\r\nabc")

theorem pending_abcHandling :
    abcHandling.1.pending = some .restart ∧ abcHandling.2.1.image = ascii "abc" := by
  unfold abcHandling abcUpdates updates handleOtaManifest
  simp only
  rw [parse_abcPayload]
  exact ⟨rfl, rfl⟩

theorem steps_abcHandling : abcUpdates.Steps setting starts (.idle StagedImage.usedWriter, {})
    (.busy abcPayload abcHandling.1, abcHandling.2.1) := by
  have hstart : abcUpdates.Step setting starts (.idle StagedImage.usedWriter, {})
      (.busy abcPayload (abcUpdates.handle StagedImage.usedWriter abcPayload),
        ({} : DeliveryWorld).receives abcPayload) := .start rfl
  have hhandled := @Component.steps_runUntil _ _ _ _ _
    abcUpdates setting starts _ Prod.fst delivering
    answers_delivering abcPayload (abcUpdates.handle StagedImage.usedWriter abcPayload)
    (({} : DeliveryWorld).receives abcPayload, ascii "HTTP/1.1 200\r\n\r\nabc")
  unfold abcHandling
  exact .head hstart hhandled

/-- The device is about to restart into the three bytes. -/
theorem restarts_into_verified_abc :
    abcHandling.2.1.Verified StagedImage.abcHash StagedImage.abcBase64 ∧ abcHandling.2.1.Flagged ∧
      abcHandling.2.1.image = ascii "abc" := by
  obtain ⟨hpending, himage⟩ := pending_abcHandling
  obtain ⟨resume, hresume⟩ := Prog.exists_of_pending hpending
  have hjustified := ((restarts_into_verified StagedImage.correct_abcMbedtls steps_abcHandling).1
    abcPayload .restart resume (congrArg (Component.Phase.busy abcPayload) hresume)).2
  exact ⟨hjustified.2.1, hjustified.2.2, himage⟩

end OtaDelivery

end LibreSwitch.App
