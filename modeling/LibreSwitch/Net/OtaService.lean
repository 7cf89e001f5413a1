import Mathlib.Tactic
import LibreSwitch.Library.Interaction
import LibreSwitch.Profiles.DeviceProfile

/-!
# Over-the-air updates

`OtaService` of `net/ota_service.h`, over the types and policy of `net/ota_types.h` and the seams of
`net/ota_ports.h`. Applying a manifest is a program over the seams: the firmware writer, the
downloader, the signature verifier, the key-value store, the progress reporter and the reboot
control may each answer in any way. A downloader is a strategy of its own (`DownloadRun`): it
hands chunks to its sink, may react to each answer, and returns.

`Outcome` lists the ways an `apply` can go, one constructor for each exit of the function, and
`outcome_of_runs` says that there are no others. The four parts of the trust pipeline are read off
it, and `apply_trust_pipeline` puts them together.
-/

set_option autoImplicit false
set_option relaxedAutoImplicit false

namespace LibreSwitch.Net

open LibreSwitch.Library LibreSwitch.Profiles

/-! ### Types and policy -/

/-- `FwVersion`. -/
structure FwVersion where
  major : UInt16 := 0
  minor : UInt16 := 0
  patch : UInt16 := 0
  deriving DecidableEq, Repr

namespace FwVersion

def isNewerThan (version other : FwVersion) : Bool :=
  if version.major ≠ other.major then version.major > other.major
  else if version.minor ≠ other.minor then version.minor > other.minor
  else version.patch > other.patch

/-- The bytes of a version in memory. -/
def toBytes (version : FwVersion) : Bytes :=
  littleEndian 2 version.major.toNat ++ littleEndian 2 version.minor.toNat ++
    littleEndian 2 version.patch.toNat

/-- Newer is greater in the lexicographic order. -/
theorem isNewerThan_iff (version other : FwVersion) : version.isNewerThan other = true ↔
    other.major < version.major ∨
      (other.major = version.major ∧ (other.minor < version.minor ∨
        (other.minor = version.minor ∧ other.patch < version.patch))) := by
  unfold isNewerThan
  split_ifs with hmajor hminor
  · simp [Ne.symm hmajor]
  · rw [not_not] at hmajor
    simp [hmajor, Ne.symm hminor]
  · rw [not_not] at hmajor hminor
    simp [hmajor, hminor]

end FwVersion

/-- `OtaManifest`. The texts are the buffers that hold them. -/
structure OtaManifest where
  url : Bytes := []
  version : FwVersion := {}
  sigB64 : Bytes := []
  hwFamily : Bytes := []
  hwChannels : ℕ := 0
  sizeBytes : UInt32 := 0
  allowDowngrade : Bool := false
  valid : Bool := false

/-- `OtaResult`. -/
inductive OtaResult
  | ok
  | rejectHwMismatch
  | rejectDowngrade
  | rejectTooLarge
  | downloadFailed
  | verifyFailed
  | commitFailed
  | badManifest
  deriving DecidableEq, Repr

/-- `OtaPhase`. -/
inductive OtaPhase
  | idle
  | precheck
  | downloading
  | verifying
  | committing
  | confirmed
  | failed
  deriving DecidableEq, Repr

namespace OtaPolicy

def versionAccepted (incoming current : FwVersion) (allowDowngrade : Bool) : Bool :=
  if allowDowngrade then true else incoming.isNewerThan current

def kSlotBytes : UInt32 := 0xA6000

def sizeFits (bytes : UInt32) : Bool := bytes > 0 && bytes ≤ kSlotBytes

end OtaPolicy

/-! ### The seams -/

/-- What a downloader does with its sink: it hands over a chunk and goes on by the answer, or
returns whether the image was delivered. -/
inductive DownloadRun
  | returns (delivered : Bool)
  | chunk (data : Bytes) (next : Bool → DownloadRun)

/-- The calls of an update. `downloadReturns` marks the moment the downloader is done. -/
inductive OtaCall
  | onPhase (phase : OtaPhase) (result : OtaResult)
  | begin (size : UInt32)
  | writeChunk (data : Bytes)
  | finish
  | abort
  | commit
  | download (url : Bytes) (expectedSize : UInt32)
  | downloadReturns (delivered : Bool)
  | verifyStagedImage (sigB64 : Bytes)
  | setBlob (key data : Bytes)
  | reboot
  deriving DecidableEq

/-- What the seams answer. -/
abbrev OtaAns : OtaCall → Type
  | .begin _ => Bool
  | .writeChunk _ => Bool
  | .finish => Bool
  | .commit => Bool
  | .download _ _ => DownloadRun
  | .verifyStagedImage _ => Bool
  | .setBlob _ _ => Bool
  | _ => Unit

/-- The calls on the firmware writer. -/
def OtaCall.isWriter : OtaCall → Bool
  | .begin _ | .writeChunk _ | .finish | .abort | .commit => true
  | _ => false

/-- The calls that settle an update: the image is erased or activated, the flag of the health
window is written, the device restarts. -/
def OtaCall.isSettling : OtaCall → Bool
  | .abort | .commit | .setBlob _ _ | .reboot => true
  | _ => false

/-- The calls on the writer, the downloader, the verifier, the store or the reboot control: all but
the progress reports. -/
def OtaCall.isSeam : OtaCall → Bool
  | .onPhase _ _ => false
  | _ => true

/-! ### The service -/

/-- `OtaService`, apart from its seams. -/
structure OtaService where
  profile : DeviceProfile
  current : FwVersion

namespace OtaService

open Prog (ask)

/-- `fail`: reports the phase and hands the result back. -/
def fail (result : OtaResult) : Prog OtaCall OtaAns OtaResult := do
  ask (OtaCall.onPhase .failed result)
  return result

def precheck (service : OtaService) (manifest : OtaManifest) : OtaResult :=
  if !ProfileResolver.hwCompatMatches service.profile manifest.hwFamily manifest.hwChannels then
    .rejectHwMismatch
  else if !OtaPolicy.sizeFits manifest.sizeBytes then .rejectTooLarge
  else if !OtaPolicy.versionAccepted manifest.version service.current manifest.allowDowngrade then
    .rejectDowngrade
  else .ok

/-- The downloader at work: `onChunk` writes every chunk straight to the slot. -/
def playDownload : DownloadRun → Prog OtaCall OtaAns Bool
  | .returns delivered => do
    ask (OtaCall.downloadReturns delivered)
    return delivered
  | .chunk data next => do
    let written ← ask (OtaCall.writeChunk data)
    playDownload (next written)

def doDownload (manifest : OtaManifest) : Prog OtaCall OtaAns Bool := do
  let begun ← ask (OtaCall.begin manifest.sizeBytes)
  if !begun then return false
  else
    let run ← ask (OtaCall.download manifest.url manifest.sizeBytes)
    let delivered ← playDownload run
    if !delivered then return false
    else ask OtaCall.finish

/-- `markAwaitingConfirm`: the flag of the health window and the version. -/
def markAwaitingConfirm (version : FwVersion) : Prog OtaCall OtaAns Unit := do
  let _ ← ask (OtaCall.setBlob (ascii "ota_pending") [1])
  let _ ← ask (OtaCall.setBlob (ascii "ota_pending_ver") version.toBytes)
  return ()

/-- The part of `apply` after a successful commit. -/
def finishUpdate (manifest : OtaManifest) : Prog OtaCall OtaAns OtaResult := do
  markAwaitingConfirm manifest.version
  ask (OtaCall.onPhase .confirmed .ok)
  ask OtaCall.reboot
  return .ok

/-- Erases the staged image and fails. -/
def abortWith (result : OtaResult) : Prog OtaCall OtaAns OtaResult := do
  ask OtaCall.abort
  fail result

/-- The part of `apply` after a successful precheck. -/
def install (manifest : OtaManifest) : Prog OtaCall OtaAns OtaResult := do
  ask (OtaCall.onPhase .downloading .ok)
  let downloaded ← doDownload manifest
  if !downloaded then abortWith .downloadFailed
  else
    ask (OtaCall.onPhase .verifying .ok)
    let verified ← ask (OtaCall.verifyStagedImage manifest.sigB64)
    if !verified then abortWith .verifyFailed
    else
      ask (OtaCall.onPhase .committing .ok)
      let committed ← ask OtaCall.commit
      if !committed then abortWith .commitFailed
      else finishUpdate manifest

/-- `OtaService::apply`. -/
def apply (service : OtaService) (manifest : OtaManifest) : Prog OtaCall OtaAns OtaResult :=
  if !manifest.valid then fail .badManifest
  else do
    ask (OtaCall.onPhase .precheck .ok)
    if service.precheck manifest ≠ .ok then fail (service.precheck manifest)
    else install manifest

/-! ### The ways an update can go -/

/-- A call of an update with its answer. -/
abbrev OtaEvent := Prog.Event OtaCall OtaAns

/-- The writes of the chunks, with their answers. -/
def writes (chunks : List (Bytes × Bool)) : List OtaEvent :=
  chunks.map fun chunk ↦ ⟨.writeChunk chunk.1, chunk.2⟩

/-- The ways a download can go. -/
inductive DownloadTrace (manifest : OtaManifest) : List OtaEvent → Bool → Prop
  | notBegun : DownloadTrace manifest [⟨.begin manifest.sizeBytes, false⟩] false
  | notDelivered (run : DownloadRun) (chunks : List (Bytes × Bool)) :
      DownloadTrace manifest
        ([⟨.begin manifest.sizeBytes, true⟩, ⟨.download manifest.url manifest.sizeBytes, run⟩] ++
          writes chunks ++ [⟨.downloadReturns false, ()⟩])
        false
  | delivered (run : DownloadRun) (chunks : List (Bytes × Bool)) (finished : Bool) :
      DownloadTrace manifest
        ([⟨.begin manifest.sizeBytes, true⟩, ⟨.download manifest.url manifest.sizeBytes, run⟩] ++
          writes chunks ++ [⟨.downloadReturns true, ()⟩, ⟨.finish, finished⟩])
        finished

/-- An update up to its commit: downloaded and verified. -/
def staged (manifest : OtaManifest) (download : List OtaEvent) : List OtaEvent :=
  [⟨.onPhase .precheck .ok, ()⟩, ⟨.onPhase .downloading .ok, ()⟩] ++ download ++
    [⟨.onPhase .verifying .ok, ()⟩, ⟨.verifyStagedImage manifest.sigB64, true⟩,
      ⟨.onPhase .committing .ok, ()⟩]

/-- The end of an update that failed after the precheck. -/
def aborted (result : OtaResult) : List OtaEvent :=
  [⟨.abort, ()⟩, ⟨.onPhase .failed result, ()⟩]

/-- The ways an `apply` can go. -/
inductive Outcome (service : OtaService) (manifest : OtaManifest) :
    List OtaEvent → OtaResult → Prop
  | badManifest (hvalid : manifest.valid = false) :
      Outcome service manifest [⟨.onPhase .failed .badManifest, ()⟩] .badManifest
  | rejected (hvalid : manifest.valid = true) (hprecheck : service.precheck manifest ≠ .ok) :
      Outcome service manifest
        [⟨.onPhase .precheck .ok, ()⟩, ⟨.onPhase .failed (service.precheck manifest), ()⟩]
        (service.precheck manifest)
  | notDownloaded {download : List OtaEvent} (hvalid : manifest.valid = true)
      (hprecheck : service.precheck manifest = .ok)
      (hdownload : DownloadTrace manifest download false) :
      Outcome service manifest
        ([⟨.onPhase .precheck .ok, ()⟩, ⟨.onPhase .downloading .ok, ()⟩] ++ download ++
          aborted .downloadFailed)
        .downloadFailed
  | notVerified {download : List OtaEvent} (hvalid : manifest.valid = true)
      (hprecheck : service.precheck manifest = .ok)
      (hdownload : DownloadTrace manifest download true) :
      Outcome service manifest
        ([⟨.onPhase .precheck .ok, ()⟩, ⟨.onPhase .downloading .ok, ()⟩] ++ download ++
          ([⟨.onPhase .verifying .ok, ()⟩, ⟨.verifyStagedImage manifest.sigB64, false⟩] ++
            aborted .verifyFailed))
        .verifyFailed
  | notCommitted {download : List OtaEvent} (hvalid : manifest.valid = true)
      (hprecheck : service.precheck manifest = .ok)
      (hdownload : DownloadTrace manifest download true) :
      Outcome service manifest
        (staged manifest download ++ ⟨.commit, false⟩ :: aborted .commitFailed) .commitFailed
  | updated {download : List OtaEvent} (hvalid : manifest.valid = true)
      (hprecheck : service.precheck manifest = .ok)
      (hdownload : DownloadTrace manifest download true) (flagged versioned : Bool) :
      Outcome service manifest
        (staged manifest download ++ ⟨.commit, true⟩ ::
          [⟨.setBlob (ascii "ota_pending") [1], flagged⟩,
            ⟨.setBlob (ascii "ota_pending_ver") manifest.version.toBytes, versioned⟩,
            ⟨.onPhase .confirmed .ok, ()⟩, ⟨.reboot, ()⟩])
        .ok

/-- A downloader at work writes chunks and returns. -/
theorem playDownload_runs {run : DownloadRun} {trace : List OtaEvent} {delivered : Bool}
    (hruns : (playDownload run).Runs trace delivered) :
    ∃ chunks, trace = writes chunks ++ [⟨.downloadReturns delivered, ()⟩] := by
  induction run generalizing trace with
  | returns answer =>
    simp only [playDownload, Prog.ask_bind, Prog.runs_call, Prog.pure_eq, Prog.runs_ret] at hruns
    obtain ⟨-, rest, rfl, rfl, rfl⟩ := hruns
    exact ⟨[], rfl⟩
  | chunk data next ih =>
    simp only [playDownload, Prog.ask_bind, Prog.runs_call] at hruns
    obtain ⟨written, rest, rfl, hrest⟩ := hruns
    obtain ⟨chunks, rfl⟩ := ih written hrest
    exact ⟨(data, written) :: chunks, rfl⟩

theorem doDownload_runs {manifest : OtaManifest} {trace : List OtaEvent} {downloaded : Bool}
    (hruns : (doDownload manifest).Runs trace downloaded) :
    DownloadTrace manifest trace downloaded := by
  simp only [doDownload, Prog.ask_bind, Prog.runs_call] at hruns
  obtain ⟨begun, rest, rfl, hruns⟩ := hruns
  cases begun with
  | false =>
    obtain ⟨rfl, rfl⟩ := hruns
    exact .notBegun
  | true =>
    simp only [Bool.not_true, Bool.false_eq_true, if_false, Prog.runs_call, Prog.runs_bind]
      at hruns
    obtain ⟨run, _, rfl, delivered, played, last, rfl, hplayed, hruns⟩ := hruns
    obtain ⟨chunks, rfl⟩ := playDownload_runs hplayed
    cases delivered with
    | false =>
      obtain ⟨rfl, rfl⟩ := hruns
      simpa using DownloadTrace.notDelivered run chunks
    | true =>
      obtain ⟨finished, rest, rfl, rfl, hfinished⟩ := hruns
      rw [hfinished]
      simpa using DownloadTrace.delivered run chunks finished

theorem abortWith_runs {failure result : OtaResult} {trace : List OtaEvent}
    (hruns : (abortWith failure).Runs trace result) :
    trace = aborted failure ∧ result = failure := by
  obtain ⟨-, _, rfl, -, _, rfl, rfl, rfl⟩ := hruns
  exact ⟨rfl, rfl⟩

theorem fail_runs {failure result : OtaResult} {trace : List OtaEvent}
    (hruns : (fail failure).Runs trace result) :
    trace = [⟨.onPhase .failed failure, ()⟩] ∧ result = failure := by
  obtain ⟨-, _, rfl, rfl, rfl⟩ := hruns
  exact ⟨rfl, rfl⟩

/-- Every run of `apply` is one of the outcomes. -/
theorem outcome_of_runs {service : OtaService} {manifest : OtaManifest} {trace : List OtaEvent}
    {result : OtaResult} (hruns : (service.apply manifest).Runs trace result) :
    Outcome service manifest trace result := by
  unfold apply at hruns
  cases hvalid : manifest.valid with
  | false =>
    rw [hvalid] at hruns
    obtain ⟨rfl, rfl⟩ := fail_runs hruns
    exact .badManifest hvalid
  | true =>
    simp only [hvalid, Bool.not_true, Bool.false_eq_true, if_false, Prog.ask_bind, Prog.runs_call]
      at hruns
    obtain ⟨-, rest, rfl, hruns⟩ := hruns
    split_ifs at hruns with hprecheck
    · obtain ⟨rfl, rfl⟩ := fail_runs hruns
      exact .rejected hvalid hprecheck
    · rw [not_not] at hprecheck
      simp only [install, Prog.ask_bind, Prog.runs_call, Prog.runs_bind] at hruns
      obtain ⟨-, _, rfl, downloaded, download, last, rfl, hdownload, hruns⟩ := hruns
      have htrace := doDownload_runs hdownload
      cases downloaded with
      | false =>
        obtain ⟨rfl, rfl⟩ := abortWith_runs hruns
        exact .notDownloaded hvalid hprecheck htrace
      | true =>
        obtain ⟨-, _, rfl, verified, _, rfl, hruns⟩ := hruns
        cases verified with
        | false =>
          obtain ⟨rfl, rfl⟩ := abortWith_runs hruns
          exact .notVerified hvalid hprecheck htrace
        | true =>
          obtain ⟨-, _, rfl, committed, _, rfl, hruns⟩ := hruns
          cases committed with
          | false =>
            obtain ⟨rfl, rfl⟩ := abortWith_runs hruns
            simpa [staged] using Outcome.notCommitted hvalid hprecheck htrace
          | true =>
            obtain ⟨flagged, _, rfl, versioned, _, rfl, -, _, rfl, -, _, rfl, rfl, rfl⟩ := hruns
            simpa [staged] using Outcome.updated hvalid hprecheck htrace flagged versioned

/-! ### The trust pipeline -/

/-- What a manifest must satisfy before anything is touched. -/
structure Admissible (service : OtaService) (manifest : OtaManifest) : Prop where
  valid : manifest.valid = true
  family : cString manifest.hwFamily = cString service.profile.hwCompatFamily
  channels : manifest.hwChannels = service.profile.channelCount
  size_pos : 1 ≤ manifest.sizeBytes
  size_le : manifest.sizeBytes ≤ OtaPolicy.kSlotBytes
  version : manifest.allowDowngrade = true ∨
    service.current.major < manifest.version.major ∨
      (service.current.major = manifest.version.major ∧
        (service.current.minor < manifest.version.minor ∨
          (service.current.minor = manifest.version.minor ∧
            service.current.patch < manifest.version.patch)))

/-- A valid manifest passes the precheck exactly when it is admissible. -/
theorem admissible_iff (service : OtaService) (manifest : OtaManifest) :
    Admissible service manifest ↔ manifest.valid = true ∧ service.precheck manifest = .ok := by
  have hsize : OtaPolicy.sizeFits manifest.sizeBytes = true ↔
      1 ≤ manifest.sizeBytes ∧ manifest.sizeBytes ≤ OtaPolicy.kSlotBytes := by
    simp only [OtaPolicy.sizeFits, Bool.and_eq_true, decide_eq_true_eq, gt_iff_lt,
      UInt32.lt_iff_toNat_lt, UInt32.le_iff_toNat_le]
    exact Iff.rfl
  have hversion : OtaPolicy.versionAccepted manifest.version service.current
      manifest.allowDowngrade = true ↔ manifest.allowDowngrade = true ∨
        manifest.version.isNewerThan service.current = true := by
    cases hallow : manifest.allowDowngrade <;> simp [OtaPolicy.versionAccepted]
  rw [FwVersion.isNewerThan_iff] at hversion
  have hmatches := ProfileResolver.hwCompatMatches_iff service.profile manifest.hwFamily
    manifest.hwChannels
  unfold precheck
  constructor
  · rintro ⟨hvalid, hfamily, hchannels, hpos, hle, hnewer⟩
    rw [hmatches.mpr ⟨hchannels, hfamily⟩, hsize.mpr ⟨hpos, hle⟩, hversion.mpr hnewer]
    exact ⟨hvalid, rfl⟩
  · rintro ⟨hvalid, hprecheck⟩
    split_ifs at hprecheck with hhw hfits haccepted
    · simp only [Bool.not_eq_true', Bool.not_eq_false] at hhw hfits haccepted
      obtain ⟨hchannels, hfamily⟩ := hmatches.mp hhw
      obtain ⟨hpos, hle⟩ := hsize.mp hfits
      exact ⟨hvalid, hfamily, hchannels, hpos, hle, hversion.mp haccepted⟩

/-- The requests of a trace. -/
def requests (trace : List OtaEvent) : List OtaCall := trace.map (·.request)

@[simp] theorem requests_nil : requests [] = [] := rfl

@[simp] theorem requests_cons (event : OtaEvent) (rest : List OtaEvent) :
    requests (event :: rest) = event.request :: requests rest := rfl

@[simp] theorem requests_append (first second : List OtaEvent) :
    requests (first ++ second) = requests first ++ requests second :=
  List.map_append

theorem writes_noSettling (chunks : List (Bytes × Bool)) :
    ∀ request ∈ requests (writes chunks), request.isSettling = false := by
  intro request hrequest
  simp only [requests, writes, List.map_map, List.mem_map] at hrequest
  obtain ⟨chunk, -, rfl⟩ := hrequest
  rfl

/-- A download settles nothing. -/
theorem DownloadTrace.noSettling {manifest : OtaManifest} {download : List OtaEvent}
    {downloaded : Bool} (hdownload : DownloadTrace manifest download downloaded) :
    ∀ request ∈ requests download, request.isSettling = false := by
  cases hdownload with
  | notBegun => simp [OtaCall.isSettling]
  | notDelivered run chunks =>
    simp only [requests_append, requests_cons, requests_nil, List.mem_append, List.mem_cons,
      List.not_mem_nil, or_false]
    rintro request (((rfl | rfl) | hmem) | rfl)
    · rfl
    · rfl
    · exact writes_noSettling chunks request hmem
    · rfl
  | delivered run chunks finished =>
    simp only [requests_append, requests_cons, requests_nil, List.mem_append, List.mem_cons,
      List.not_mem_nil, or_false]
    rintro request (((rfl | rfl) | hmem) | rfl | rfl)
    · rfl
    · rfl
    · exact writes_noSettling chunks request hmem
    · rfl
    · rfl

/-- Nothing is settled before the commit. -/
theorem staged_noSettling {manifest : OtaManifest} {download : List OtaEvent} {downloaded : Bool}
    (hdownload : DownloadTrace manifest download downloaded) :
    ∀ request ∈ requests (staged manifest download), request.isSettling = false := by
  simp only [staged, requests_append, requests_cons, requests_nil, List.mem_append, List.mem_cons,
    List.not_mem_nil, or_false]
  rintro request (((rfl | rfl) | hmem) | rfl | rfl | rfl)
  · rfl
  · rfl
  · exact hdownload.noSettling request hmem
  · rfl
  · rfl
  · rfl

theorem notMem_of_noSettling {calls : List OtaCall} {request : OtaCall}
    (hcalls : ∀ call ∈ calls, call.isSettling = false) (hsettling : request.isSettling = true) :
    request ∉ calls := by
  intro hmem
  rw [hcalls request hmem] at hsettling
  exact absurd hsettling (by decide)

/-- A download that succeeded began, delivered and finished, in this order. -/
theorem DownloadTrace.sublist {manifest : OtaManifest} {download : List OtaEvent}
    (hdownload : DownloadTrace manifest download true) :
    List.Sublist [⟨.begin manifest.sizeBytes, true⟩, ⟨.downloadReturns true, ()⟩,
      ⟨.finish, true⟩] download := by
  cases hdownload with
  | delivered run chunks _ =>
    have hmiddle : List.Sublist ([] : List OtaEvent)
        (⟨.download manifest.url manifest.sizeBytes, run⟩ :: writes chunks) := List.nil_sublist _
    exact (hmiddle.append (List.Sublist.refl _)).cons_cons _

/-- Only an admissible manifest reaches a seam. -/
theorem Outcome.admissible {service : OtaService} {manifest : OtaManifest} {trace : List OtaEvent}
    {result : OtaResult} (houtcome : Outcome service manifest trace result)
    (hseam : ∃ request ∈ requests trace, request.isSeam = true) : Admissible service manifest := by
  rw [admissible_iff]
  cases houtcome with
  | badManifest hvalid => simp [OtaCall.isSeam] at hseam
  | rejected hvalid hprecheck => simp [OtaCall.isSeam] at hseam
  | notDownloaded hvalid hprecheck hdownload => exact ⟨hvalid, hprecheck⟩
  | notVerified hvalid hprecheck hdownload => exact ⟨hvalid, hprecheck⟩
  | notCommitted hvalid hprecheck hdownload => exact ⟨hvalid, hprecheck⟩
  | updated hvalid hprecheck hdownload flagged versioned => exact ⟨hvalid, hprecheck⟩

/-- An update up to its commit has begun, delivered, finished and verified, in this order. -/
theorem staged_sublist {manifest : OtaManifest} {download : List OtaEvent}
    (hdownload : DownloadTrace manifest download true) :
    List.Sublist [⟨.begin manifest.sizeBytes, true⟩, ⟨.downloadReturns true, ()⟩, ⟨.finish, true⟩,
      ⟨.verifyStagedImage manifest.sigB64, true⟩] (staged manifest download) := by
  have hverify : List.Sublist [(⟨.verifyStagedImage manifest.sigB64, true⟩ : OtaEvent)]
      [⟨.onPhase .verifying .ok, ()⟩, ⟨.verifyStagedImage manifest.sigB64, true⟩,
        ⟨.onPhase .committing .ok, ()⟩] :=
    List.singleton_sublist.mpr (by simp)
  exact ((List.nil_sublist _).append hdownload.sublist).append hverify

/-- A request made once is found in one place. -/
theorem before_eq_of_split {request : OtaCall} {answer answer' : OtaAns request}
    {before after first last : List OtaEvent} (hfirst : request ∉ requests first)
    (hlast : request ∉ requests last)
    (hsplit : first ++ ⟨request, answer'⟩ :: last = before ++ ⟨request, answer⟩ :: after) :
    before = first := by
  have hmap : requests first ++ request :: requests last =
      requests before ++ request :: requests after := by
    have hcongr := congrArg requests hsplit
    simpa using hcongr
  obtain ⟨hrequests, -, -⟩ := (List.append_cons_inj_of_notMem hfirst hlast).mp hmap
  have hlength : first.length = before.length := by
    simpa [requests] using congrArg List.length hrequests
  exact (List.append_inj_left hsplit hlength).symm

/-- A commit comes after `begin`, `download`, `finish` and the verification have all succeeded, in
this order. -/
theorem Outcome.before_commit {service : OtaService} {manifest : OtaManifest}
    {trace before after : List OtaEvent} {result : OtaResult} {answer : Bool}
    (houtcome : Outcome service manifest trace result)
    (hsplit : trace = before ++ ⟨.commit, answer⟩ :: after) :
    List.Sublist [⟨.begin manifest.sizeBytes, true⟩, ⟨.downloadReturns true, ()⟩, ⟨.finish, true⟩,
      ⟨.verifyStagedImage manifest.sigB64, true⟩] before := by
  have hmem : OtaCall.commit ∈ requests trace := by simp [hsplit]
  cases houtcome with
  | badManifest hvalid => simp at hmem
  | rejected hvalid hprecheck => simp at hmem
  | notDownloaded hvalid hprecheck hdownload =>
    have hnot : OtaCall.commit ∉ requests _ := notMem_of_noSettling hdownload.noSettling rfl
    simp [aborted, hnot] at hmem
  | notVerified hvalid hprecheck hdownload =>
    have hnot : OtaCall.commit ∉ requests _ := notMem_of_noSettling hdownload.noSettling rfl
    simp [aborted, hnot] at hmem
  | notCommitted hvalid hprecheck hdownload =>
    rw [before_eq_of_split (notMem_of_noSettling (staged_noSettling hdownload) rfl)
      (by simp [aborted]) hsplit]
    exact staged_sublist hdownload
  | updated hvalid hprecheck hdownload flagged versioned =>
    rw [before_eq_of_split (notMem_of_noSettling (staged_noSettling hdownload) rfl)
      (by simp) hsplit]
    exact staged_sublist hdownload

/-- A reboot comes after a commit that succeeded. -/
theorem Outcome.before_reboot {service : OtaService} {manifest : OtaManifest}
    {trace before after : List OtaEvent} {result : OtaResult}
    (houtcome : Outcome service manifest trace result)
    (hsplit : trace = before ++ ⟨.reboot, ()⟩ :: after) :
    (⟨.commit, true⟩ : OtaEvent) ∈ before := by
  have hmem : OtaCall.reboot ∈ requests trace := by simp [hsplit]
  cases houtcome with
  | badManifest hvalid => simp at hmem
  | rejected hvalid hprecheck => simp at hmem
  | notDownloaded hvalid hprecheck hdownload =>
    have hnot : OtaCall.reboot ∉ requests _ := notMem_of_noSettling hdownload.noSettling rfl
    simp [aborted, hnot] at hmem
  | notVerified hvalid hprecheck hdownload =>
    have hnot : OtaCall.reboot ∉ requests _ := notMem_of_noSettling hdownload.noSettling rfl
    simp [aborted, hnot] at hmem
  | notCommitted hvalid hprecheck hdownload =>
    have hnot : OtaCall.reboot ∉ requests _ :=
      notMem_of_noSettling (staged_noSettling hdownload) rfl
    simp [aborted, hnot] at hmem
  | @updated download hvalid hprecheck hdownload flagged versioned =>
    have hnot : OtaCall.reboot ∉ requests _ :=
      notMem_of_noSettling (staged_noSettling hdownload) rfl
    have hlast : staged manifest download ++ ⟨.commit, true⟩ ::
        [⟨.setBlob (ascii "ota_pending") [1], flagged⟩,
          ⟨.setBlob (ascii "ota_pending_ver") manifest.version.toBytes, versioned⟩,
          ⟨.onPhase .confirmed .ok, ()⟩, ⟨.reboot, ()⟩] =
        (staged manifest download ++ [⟨.commit, true⟩,
          ⟨.setBlob (ascii "ota_pending") [1], flagged⟩,
          ⟨.setBlob (ascii "ota_pending_ver") manifest.version.toBytes, versioned⟩,
          ⟨.onPhase .confirmed .ok, ()⟩]) ++ ⟨.reboot, ()⟩ :: [] := by simp
    rw [before_eq_of_split (by simp [hnot]) (by simp) (hlast.symm.trans hsplit)]
    simp

/-- The result is success exactly when a commit succeeded, and then there is one reboot. -/
theorem Outcome.ok_iff {service : OtaService} {manifest : OtaManifest} {trace : List OtaEvent}
    {result : OtaResult} (houtcome : Outcome service manifest trace result) :
    (result = .ok ↔ (⟨.commit, true⟩ : OtaEvent) ∈ trace) ∧
      (requests trace).count .reboot = if result = .ok then 1 else 0 := by
  have hcommit {events : List OtaEvent}
      (hevents : ∀ call ∈ requests events, call.isSettling = false) :
      (⟨.commit, true⟩ : OtaEvent) ∉ events := by
    intro hmem
    have hsettling := hevents .commit (List.mem_map.mpr ⟨_, hmem, rfl⟩)
    exact absurd hsettling (by decide)
  have hreboot {events : List OtaEvent}
      (hevents : ∀ call ∈ requests events, call.isSettling = false) :
      (requests events).count .reboot = 0 :=
    List.count_eq_zero.mpr (notMem_of_noSettling hevents rfl)
  cases houtcome with
  | badManifest hvalid => simp
  | rejected hvalid hprecheck => simp [hprecheck]
  | notDownloaded hvalid hprecheck hdownload =>
    simp [aborted, hcommit hdownload.noSettling, hreboot hdownload.noSettling]
  | notVerified hvalid hprecheck hdownload =>
    simp [aborted, hcommit hdownload.noSettling, hreboot hdownload.noSettling]
  | notCommitted hvalid hprecheck hdownload =>
    simp [aborted, hcommit (staged_noSettling hdownload), hreboot (staged_noSettling hdownload)]
  | updated hvalid hprecheck hdownload flagged versioned =>
    simp [hreboot (staged_noSettling hdownload)]

/-- An update that fails after the precheck ends with the abort and the report of the failure. Of
the calls that settle an update it made, before these, at most the commit. -/
theorem Outcome.failure {service : OtaService} {manifest : OtaManifest} {trace : List OtaEvent}
    {result : OtaResult} (houtcome : Outcome service manifest trace result)
    (hadmissible : Admissible service manifest) (hresult : result ≠ .ok) :
    ∃ earlier, trace = earlier ++ aborted result ∧ ∀ request ∈ requests earlier,
      request.isSettling = true → request = .commit := by
  obtain ⟨hvalid, hpassed⟩ := (admissible_iff service manifest).mp hadmissible
  have hnone {request : OtaCall} (hnot : request.isSettling = false) :
      request.isSettling = true → request = .commit := by simp [hnot]
  cases houtcome with
  | badManifest hinvalid => simp [hinvalid] at hvalid
  | rejected _ hprecheck => exact absurd hpassed hprecheck
  | notDownloaded _ _ hdownload =>
    refine ⟨_, rfl, ?_⟩
    simp only [requests_append, requests_cons, requests_nil, List.mem_append, List.mem_cons,
      List.not_mem_nil, or_false]
    rintro request ((rfl | rfl) | hmem)
    · exact hnone rfl
    · exact hnone rfl
    · exact hnone (hdownload.noSettling request hmem)
  | notVerified _ _ hdownload =>
    refine ⟨_, (List.append_assoc _ _ _).symm, ?_⟩
    simp only [requests_append, requests_cons, requests_nil, List.mem_append, List.mem_cons,
      List.not_mem_nil, or_false]
    rintro request (((rfl | rfl) | hmem) | rfl | rfl)
    · exact hnone rfl
    · exact hnone rfl
    · exact hnone (hdownload.noSettling request hmem)
    · exact hnone rfl
    · exact hnone rfl
  | notCommitted _ _ hdownload =>
    refine ⟨_, (List.append_cons _ _ _), ?_⟩
    simp only [requests_append, requests_cons, requests_nil, List.mem_append, List.mem_cons,
      List.not_mem_nil, or_false]
    rintro request (hmem | rfl)
    · exact hnone (staged_noSettling hdownload request hmem)
    · exact fun _ ↦ rfl
  | updated _ _ _ _ _ => exact absurd rfl hresult

/-- For every manifest and every behaviour of the seams: (a) no seam is called unless the manifest
is admissible; (b) a commit comes after `begin`, `download`, `finish` and the verification have all
returned true, in this order; (c) a reboot comes after a commit that returned true, the result is
success exactly when a commit returned true, and then there is exactly one reboot, else none; (d) a
failure after the precheck ends the writer calls with exactly one abort, writes no key, does not
reboot, and reports the failed phase with the result. -/
theorem apply_trust_pipeline (service : OtaService) (manifest : OtaManifest)
    (trace : List OtaEvent) (result : OtaResult)
    (hruns : (service.apply manifest).Runs trace result) :
    ((∃ request ∈ requests trace, request.isSeam = true) → Admissible service manifest) ∧
    (∀ before answer after, trace = before ++ ⟨.commit, answer⟩ :: after →
      List.Sublist [⟨.begin manifest.sizeBytes, true⟩, ⟨.downloadReturns true, ()⟩,
        ⟨.finish, true⟩, ⟨.verifyStagedImage manifest.sigB64, true⟩] before) ∧
    ((∀ before after, trace = before ++ ⟨.reboot, ()⟩ :: after →
        (⟨.commit, true⟩ : OtaEvent) ∈ before) ∧
      (result = .ok ↔ (⟨.commit, true⟩ : OtaEvent) ∈ trace) ∧
      (requests trace).count .reboot = if result = .ok then 1 else 0) ∧
    (Admissible service manifest → result ≠ .ok →
      (∃ calls, (requests trace).filter OtaCall.isWriter = calls ++ [.abort] ∧ .abort ∉ calls) ∧
      (∀ key data, .setBlob key data ∉ requests trace) ∧ .reboot ∉ requests trace ∧
      (requests trace).getLast? = some (.onPhase .failed result)) := by
  have houtcome := outcome_of_runs hruns
  refine ⟨houtcome.admissible, fun _ _ _ ↦ houtcome.before_commit,
    ⟨fun _ _ ↦ houtcome.before_reboot, houtcome.ok_iff⟩, fun hadmissible hresult ↦ ?_⟩
  obtain ⟨earlier, rfl, hsettling⟩ := houtcome.failure hadmissible hresult
  have hnot {request : OtaCall} (hrequest : request.isSettling = true)
      (hother : request ≠ .commit) : request ∉ requests earlier :=
    fun hmem ↦ hother (hsettling request hmem hrequest)
  have hstored (key data : Bytes) : OtaCall.setBlob key data ∉ requests earlier :=
    hnot rfl (by simp)
  have hrebooted : OtaCall.reboot ∉ requests earlier := hnot rfl (by simp)
  refine ⟨⟨(requests earlier).filter OtaCall.isWriter, ?_, ?_⟩, fun key data ↦ ?_, ?_, ?_⟩
  · rw [requests_append, List.filter_append]
    rfl
  · exact fun hmem ↦ hnot rfl (by simp) (List.mem_of_mem_filter hmem)
  · simpa [aborted] using hstored key data
  · simpa [aborted] using hrebooted
  · simp [aborted]

/-- An image for the two-gang device, newer than the one it runs. -/
def newerImage : OtaManifest where
  version := ⟨1, 1, 0⟩
  hwFamily := kHwFamily
  hwChannels := 2
  sizeBytes := 4096
  valid := true

/-- A two-gang device that runs version 1.0.0. -/
def device : OtaService := ⟨kSwitch2G, ⟨1, 0, 0⟩⟩

/-- A run in which the writer refuses to begin. -/
def refused : List OtaEvent :=
  [⟨.onPhase .precheck .ok, ()⟩, ⟨.onPhase .downloading .ok, ()⟩, ⟨.begin 4096, false⟩,
    ⟨.abort, ()⟩, ⟨.onPhase .failed .downloadFailed, ()⟩]

theorem refused_runs : (device.apply newerImage).Runs refused .downloadFailed := by
  refine ⟨(), _, rfl, ?_⟩
  rw [if_neg (by decide)]
  exact ⟨(), _, rfl, false, _, rfl, (), _, rfl, (), _, rfl, rfl, rfl⟩

theorem apply_trust_pipeline_witness :
    (∃ calls, (requests refused).filter OtaCall.isWriter = calls ++ [.abort] ∧ .abort ∉ calls) ∧
      (∀ key data, .setBlob key data ∉ requests refused) ∧ .reboot ∉ requests refused ∧
      (requests refused).getLast? = some (.onPhase .failed .downloadFailed) :=
  (apply_trust_pipeline device newerImage refused .downloadFailed refused_runs).2.2.2
    ((admissible_iff _ _).mpr (by decide)) (by decide)

end OtaService

end LibreSwitch.Net
