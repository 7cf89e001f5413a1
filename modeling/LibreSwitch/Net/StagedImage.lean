import LibreSwitch.Net.HttpDownloader
import LibreSwitch.Net.OtaService

/-!
# The staged image and its digest

`LibreTinyFirmwareWriter` and `DevSha256Verifier` of `net/ota_impl.h`, and `OtaService::doDownload`
with these and the downloader behind the seams. The hash and base64 are those of mbedTLS, of which
`Mbedtls.Correct` says what the code relies on; the flash is the platform's `Update`.

The writer hashes what it writes, so its digest speaks of the staged image only if every chunk that
was hashed was also written, all of them were read from this response, and nothing is left in the
context from a session before. `staged_is_verified` says that this is so, for any state in which
earlier sessions left the writer. `writerEvents_of_runs` connects the parts to the service of
`OtaService`, whose seams may be anything.
-/

set_option autoImplicit false
set_option relaxedAutoImplicit false

namespace LibreSwitch.Net

open LibreSwitch.Library

/-! ### mbedTLS -/

/-- The functions of mbedTLS that are called, over the hash contexts. `sha256Finish` also gives the
digest it writes, `base64Decode` the result and the bytes it writes into a buffer of a given
size. -/
structure Mbedtls (Ctx : Type) where
  sha256Init : Ctx → Ctx
  sha256Starts : Ctx → Ctx
  sha256Update : Ctx → Bytes → Ctx
  sha256Finish : Ctx → Ctx × Bytes
  sha256Free : Ctx → Ctx
  base64Decode : ℕ → Bytes → ℤ × Bytes

/-- mbedTLS computes a hash of 32 bytes and decodes texts. The chunks hashed between a start and a
finish count as one message, and into a buffer for a hash a text is decoded if its bytes fit. -/
structure Mbedtls.Correct {Ctx : Type} (mbedtls : Mbedtls Ctx) (sha256 : Bytes → Bytes)
    (base64 : Bytes → Option Bytes) : Prop where
  length_sha256 : ∀ message, (sha256 message).length = 32
  digest_eq : ∀ (ctx : Ctx) (chunks : List Bytes), chunks.flatten.length < 2 ^ 61 →
    (mbedtls.sha256Finish (chunks.foldl mbedtls.sha256Update
      (mbedtls.sha256Starts (mbedtls.sha256Init ctx)))).2 = sha256 chunks.flatten
  base64_nil : base64 [] = some []
  decode_iff : ∀ text bytes, mbedtls.base64Decode 32 text = (0, bytes) ↔
    base64 text = some bytes ∧ bytes.length ≤ 32

/-! ### The writer and the verifier -/

/-- The calls on `Update`. -/
inductive UpdateCall
  | begin (size : UInt32)
  | write (data : Bytes)
  | finish (evenIfRemaining : Bool)

/-- What they answer; a write says how many bytes it wrote. -/
abbrev UpdateAns : UpdateCall → Type
  | .write _ => ℕ
  | _ => Bool

/-- `LibreTinyFirmwareWriter`. -/
structure LibreTinyFirmwareWriter (Ctx : Type) where
  sha : Ctx
  digestBytes : Bytes := List.replicate 32 0
  digestReady : Bool := false

namespace LibreTinyFirmwareWriter

open Prog (ask)

variable {Ctx : Type} (mbedtls : Mbedtls Ctx) (writer : LibreTinyFirmwareWriter Ctx)

def begin (size : UInt32) : Prog UpdateCall UpdateAns (Bool × LibreTinyFirmwareWriter Ctx) := do
  let sha := mbedtls.sha256Starts (mbedtls.sha256Init writer.sha)
  let begun ← ask (UpdateCall.begin size)
  return (begun, { writer with sha := sha, digestReady := false })

def writeChunk (data : Bytes) :
    Prog UpdateCall UpdateAns (Bool × LibreTinyFirmwareWriter Ctx) := do
  let sha := mbedtls.sha256Update writer.sha data
  let written ← ask (UpdateCall.write data)
  return (written = data.length, { writer with sha := sha })

def finish : Prog UpdateCall UpdateAns (Bool × LibreTinyFirmwareWriter Ctx) := do
  let hashed := mbedtls.sha256Finish writer.sha
  let finished ← ask (UpdateCall.finish false)
  return (finished,
    { sha := mbedtls.sha256Free hashed.1, digestBytes := hashed.2, digestReady := true })

/-- The digest of the last session; none is the null pointer. -/
def digest : Option Bytes := if writer.digestReady then some writer.digestBytes else none

end LibreTinyFirmwareWriter

namespace DevSha256Verifier

variable {Ctx : Type}

/-- `DevSha256Verifier::verifyStagedImage`; no signature stands for the null pointer. -/
def verifyStagedImage (mbedtls : Mbedtls Ctx) (writer : LibreTinyFirmwareWriter Ctx)
    (sigB64 : Option Bytes) : Bool :=
  match writer.digest, sigB64 with
  | some digest, some text =>
    if text = [] then false
    else
      let decoded := mbedtls.base64Decode 32 text
      if decoded.1 ≠ 0 then false
      else if decoded.2.length ≠ 32 then false
      else decoded.2 = digest
  | _, _ => false

/-- A signature is accepted if it is the digest in base64. -/
theorem verifyStagedImage_iff {mbedtls : Mbedtls Ctx} {sha256 : Bytes → Bytes}
    {base64 : Bytes → Option Bytes} (hcorrect : mbedtls.Correct sha256 base64)
    {writer : LibreTinyFirmwareWriter Ctx} {digest : Bytes} (hdigest : writer.digest = some digest)
    (hlength : digest.length = 32) (sigB64 : Option Bytes) :
    verifyStagedImage mbedtls writer sigB64 = true ↔
      ∃ text, sigB64 = some text ∧ base64 text = some digest := by
  unfold verifyStagedImage
  rw [hdigest]
  cases sigB64 with
  | none => exact iff_of_false nofun nofun
  | some text =>
    have hsome : (∃ other, some text = some other ∧ base64 other = some digest) ↔
        base64 text = some digest := by simp
    have hdecode := hcorrect.decode_iff text
    rw [hsome]
    simp only
    generalize mbedtls.base64Decode 32 text = decoded at hdecode ⊢
    have hfits (hdecoded : base64 text = some digest) : decoded = (0, digest) :=
      (hdecode digest).mpr ⟨hdecoded, hlength.le⟩
    split_ifs with hnil hfailed hshort
    · refine iff_of_false nofun fun hdecoded ↦ ?_
      rw [hnil, hcorrect.base64_nil] at hdecoded
      rw [← Option.some.inj hdecoded] at hlength
      cases hlength
    · exact iff_of_false nofun fun hdecoded ↦ hfailed (by rw [hfits hdecoded])
    · exact iff_of_false nofun fun hdecoded ↦ hshort (by rw [hfits hdecoded, hlength])
    · rw [not_not] at hfailed
      rw [decide_eq_true_eq, ((hdecode decoded.2).mp (Prod.ext hfailed rfl)).1, Option.some_inj]

end DevSha256Verifier

/-! ### An update session -/

/-- The calls of an update session: on the client, and on `Update`. -/
inductive DeviceCall
  | client (secure : Bool) (request : ClientCall)
  | stackBytes (size : ℕ)
  | update (request : UpdateCall)

/-- What they answer. -/
abbrev DeviceAns : DeviceCall → Type
  | .client _ request => ClientAns request
  | .stackBytes _ => Bytes
  | .update request => UpdateAns request

/-- A call of a session with its answer. -/
abbrev DeviceEvent := Prog.Event DeviceCall DeviceAns

namespace StagedImage

open Prog (ask)

variable {Ctx : Type}

/-- A part of a session that works on `Update`. -/
def onUpdate {α : Type} (program : Prog UpdateCall UpdateAns α) : Prog DeviceCall DeviceAns α :=
  program.embed .update fun _ ↦ Equiv.refl _

/-- The downloader at the device, with `OtaService::onChunk` as its sink. -/
def attend (mbedtls : Mbedtls Ctx) (writer : LibreTinyFirmwareWriter Ctx) :
    (request : DownloadCall) →
      Prog DeviceCall DeviceAns (DownloadAns request × LibreTinyFirmwareWriter Ctx)
  | .client secure request => do
    let reply ← ask (DeviceCall.client secure request)
    return (reply, writer)
  | .onChunk data => onUpdate (writer.writeChunk mbedtls data)
  | .stackBytes size => do
    let bytes ← ask (DeviceCall.stackBytes size)
    return (bytes, writer)

/-- `OtaService::doDownload` with the downloader and the writer of the device. -/
def doDownload (mbedtls : Mbedtls Ctx) (downloader : HttpDownloader) (rounds : ℕ)
    (manifest : OtaManifest) (writer : LibreTinyFirmwareWriter Ctx) :
    Prog DeviceCall DeviceAns (Bool × LibreTinyFirmwareWriter Ctx) := do
  let (begun, writer) ← onUpdate (writer.begin mbedtls manifest.sizeBytes)
  if !begun then return (false, writer)
  else
    let (delivered, writer) ←
      (downloader.download rounds (cString manifest.url) manifest.sizeBytes).translate
        (attend mbedtls) writer
    if !delivered then return (false, writer)
    else onUpdate (writer.finish mbedtls)

/-! ### The events of a session -/

/-- The writes to the flash, with the bytes that each of them wrote. -/
def writes (trace : List DeviceEvent) : List (Bytes × ℕ) :=
  trace.filterMap fun event ↦
    match event with
    | ⟨.update (.write data), written⟩ => some (data, written)
    | _ => none

/-- The bytes of the body that were read. -/
def received (trace : List DeviceEvent) : Bytes :=
  NetworkClient.received (trace.filterMap fun event ↦
    match event with
    | ⟨.client _ request, answer⟩ => some ⟨request, answer⟩
    | _ => none)

/-- The calls on the firmware writer, as the service makes them. -/
def writerEvents (trace : List DeviceEvent) : List OtaService.OtaEvent :=
  trace.filterMap fun event ↦
    match event with
    | ⟨.update (.begin size), begun⟩ => some ⟨.begin size, begun⟩
    | ⟨.update (.write data), written⟩ => some ⟨.writeChunk data, decide (written = data.length)⟩
    | ⟨.update (.finish _), finished⟩ => some ⟨.finish, finished⟩
    | _ => none

section Events

variable (first second : List DeviceEvent)

@[simp] theorem writes_append : writes (first ++ second) = writes first ++ writes second :=
  List.filterMap_append

@[simp] theorem received_append : received (first ++ second) =
    received first ++ received second := by
  rw [received, List.filterMap_append, NetworkClient.received_append]
  rfl

@[simp] theorem writerEvents_append :
    writerEvents (first ++ second) = writerEvents first ++ writerEvents second :=
  List.filterMap_append

end Events

/-! ### What the writer does with the chunks -/

/-- What a download leaves at the device: the chunks it offered are written and hashed in order, and
a chunk is taken if all of it was written. -/
structure Kept (mbedtls : Mbedtls Ctx) (writer : LibreTinyFirmwareWriter Ctx)
    (inner : List DownloadEvent) (trace : List DeviceEvent)
    (writer' : LibreTinyFirmwareWriter Ctx) : Prop where
  received_eq : received trace = HttpDownloader.received inner
  offered_eq : HttpDownloader.offered inner =
    (writes trace).map fun write ↦ (write.1, decide (write.2 = write.1.length))
  writerEvents_eq : writerEvents trace = OtaService.writes (HttpDownloader.offered inner)
  sha_eq : writer'.sha = ((HttpDownloader.offered inner).map Prod.fst).foldl mbedtls.sha256Update
    writer.sha

theorem kept_of_handled {mbedtls : Mbedtls Ctx} {writer writer' : LibreTinyFirmwareWriter Ctx}
    {inner : List DownloadEvent} {trace : List DeviceEvent}
    (hhandled : Prog.Handled (attend mbedtls) writer inner trace writer') :
    Kept mbedtls writer inner trace writer' := by
  induction hhandled with
  | nil writer => exact ⟨rfl, rfl, rfl, rfl⟩
  | @cons writer middle last request answer inner first rest hfirst hrest ih =>
    cases request with
    | client secure request =>
      obtain ⟨reply, later, rfl, rfl, heq⟩ := hfirst
      obtain ⟨rfl, rfl⟩ := Prod.mk.inj heq
      refine ⟨?_, ih.offered_eq, ih.writerEvents_eq, ih.sha_eq⟩
      exact congrArg (NetworkClient.bytesRead ⟨request, answer⟩ ++ ·) ih.received_eq
    | stackBytes size =>
      obtain ⟨bytes, later, rfl, rfl, heq⟩ := hfirst
      obtain ⟨rfl, rfl⟩ := Prod.mk.inj heq
      exact ⟨ih.received_eq, ih.offered_eq, ih.writerEvents_eq, ih.sha_eq⟩
    | onChunk data =>
      obtain ⟨written, later, rfl, rfl, heq⟩ := hfirst
      obtain ⟨rfl, rfl⟩ := Prod.mk.inj heq
      refine ⟨ih.received_eq, ?_, ?_, ih.sha_eq⟩
      · exact congrArg ((data, decide (written = data.length)) :: ·) ih.offered_eq
      · exact congrArg (⟨.writeChunk data, decide (written = data.length)⟩ :: ·) ih.writerEvents_eq

/-- The ways a session can go: it does not begin, the download fails, or the image is finished. -/
inductive Session (mbedtls : Mbedtls Ctx) (downloader : HttpDownloader) (rounds : ℕ)
    (manifest : OtaManifest) (writer : LibreTinyFirmwareWriter Ctx) :
    List DeviceEvent → Bool → LibreTinyFirmwareWriter Ctx → Prop
  | notBegun (writer' : LibreTinyFirmwareWriter Ctx) :
      Session mbedtls downloader rounds manifest writer
        [⟨.update (.begin manifest.sizeBytes), false⟩] false writer'
  | notDelivered {inner : List DownloadEvent} {trace : List DeviceEvent}
      {started writer' : LibreTinyFirmwareWriter Ctx}
      (hkept : Kept mbedtls started inner trace writer') :
      Session mbedtls downloader rounds manifest writer
        (⟨.update (.begin manifest.sizeBytes), true⟩ :: trace) false writer'
  | finished {inner : List DownloadEvent} {trace : List DeviceEvent}
      {started ended writer' : LibreTinyFirmwareWriter Ctx} (done : Bool)
      (hdownload : (downloader.download rounds (cString manifest.url) manifest.sizeBytes).Runs
        inner true)
      (hkept : Kept mbedtls started inner trace ended)
      (hstarted : started.sha = mbedtls.sha256Starts (mbedtls.sha256Init writer.sha))
      (hended : writer'.digest = some (mbedtls.sha256Finish ended.sha).2) :
      Session mbedtls downloader rounds manifest writer
        (⟨.update (.begin manifest.sizeBytes), true⟩ :: trace ++ [⟨.update (.finish false), done⟩])
        done writer'

theorem session_of_runs {mbedtls : Mbedtls Ctx} {downloader : HttpDownloader} {rounds : ℕ}
    {manifest : OtaManifest} {writer writer' : LibreTinyFirmwareWriter Ctx}
    {trace : List DeviceEvent} {result : Bool}
    (hruns : (doDownload mbedtls downloader rounds manifest writer).Runs trace (result, writer')) :
    Session mbedtls downloader rounds manifest writer trace result writer' := by
  obtain ⟨⟨begun, started⟩, first, rest, rfl, hbegin, hrest⟩ := Prog.runs_bind.mp hruns
  obtain ⟨answer, later, rfl, rfl, heq⟩ := hbegin
  obtain ⟨rfl, rfl⟩ := Prod.mk.inj heq
  cases begun with
  | false =>
    obtain ⟨rfl, heq⟩ := hrest
    obtain ⟨rfl, rfl⟩ := Prod.mk.inj heq
    exact .notBegun _
  | true =>
    obtain ⟨⟨delivered, ended⟩, second, last, rfl, hdownload, hlast⟩ := Prog.runs_bind.mp hrest
    obtain ⟨inner, hinner, hhandled⟩ := Prog.handled_of_runs hdownload
    have hkept := kept_of_handled hhandled
    cases delivered with
    | false =>
      obtain ⟨rfl, heq⟩ := hlast
      obtain ⟨rfl, rfl⟩ := Prod.mk.inj heq
      rw [List.append_nil]
      exact .notDelivered hkept
    | true =>
      obtain ⟨done, later, rfl, rfl, heq⟩ := hlast
      obtain ⟨rfl, rfl⟩ := Prod.mk.inj heq
      exact .finished _ hinner hkept rfl rfl

/-! ### The service with these parts -/

/-- The strategy of a downloader that offers these chunks and returns. -/
def offering (chunks : List (Bytes × Bool)) (delivered : Bool) : DownloadRun :=
  chunks.foldr (fun chunk next ↦ .chunk chunk.1 fun _ ↦ next) (.returns delivered)

theorem playDownload_offering (chunks : List (Bytes × Bool)) (delivered : Bool) :
    (OtaService.playDownload (offering chunks delivered)).Runs
      (OtaService.writes chunks ++ [⟨.downloadReturns delivered, ()⟩]) delivered := by
  induction chunks with
  | nil => exact ⟨(), [], rfl, rfl, rfl⟩
  | cons chunk rest ih => exact ⟨chunk.2, _, rfl, ih⟩

/-- The calls of a download on the service, with a downloader that offers these chunks. -/
def serviceEvents (manifest : OtaManifest) (chunks : List (Bytes × Bool)) (delivered : Bool) :
    List OtaService.OtaEvent :=
  [⟨.begin manifest.sizeBytes, true⟩,
    ⟨.download manifest.url manifest.sizeBytes, offering chunks delivered⟩] ++
      (OtaService.writes chunks ++ [⟨.downloadReturns delivered, ()⟩])

theorem runs_serviceEvents (manifest : OtaManifest) (chunks : List (Bytes × Bool)) :
    (OtaService.doDownload manifest).Runs (serviceEvents manifest chunks false) false ∧
      ∀ finished, (OtaService.doDownload manifest).Runs
        (serviceEvents manifest chunks true ++ [⟨.finish, finished⟩]) finished := by
  have hbegin {delivered result : Bool} {last : List OtaService.OtaEvent}
      (hlast : (if !delivered then pure false else ask OtaCall.finish :
        Prog OtaCall OtaAns Bool).Runs last result) :
      (OtaService.doDownload manifest).Runs
        (serviceEvents manifest chunks delivered ++ last) result := by
    unfold OtaService.doDownload
    simp only [Prog.ask_bind, Prog.runs_call]
    refine ⟨true, _, rfl, ?_⟩
    simp only [Bool.not_true, Bool.false_eq_true, ↓reduceIte, Prog.runs_call]
    exact ⟨offering chunks delivered, _, rfl, Prog.runs_bind.mpr
      ⟨delivered, _, last, rfl, playDownload_offering chunks delivered, hlast⟩⟩
  constructor
  · rw [← List.append_nil (serviceEvents manifest chunks false)]
    exact hbegin ⟨rfl, rfl⟩
  · intro finished
    exact hbegin ⟨finished, [], rfl, rfl, rfl⟩

/-- The calls on the writer among them. -/
theorem filter_serviceEvents (manifest : OtaManifest) (chunks : List (Bytes × Bool))
    (delivered : Bool) :
    (serviceEvents manifest chunks delivered).filter (fun event ↦ event.request.isWriter) =
      ⟨.begin manifest.sizeBytes, true⟩ :: OtaService.writes chunks := by
  have hwrites : (OtaService.writes chunks).filter (fun event ↦ event.request.isWriter) =
      OtaService.writes chunks := by
    refine List.filter_eq_self.mpr fun event hevent ↦ ?_
    obtain ⟨chunk, -, rfl⟩ := List.mem_map.mp hevent
    rfl
  rw [serviceEvents, List.filter_append, List.filter_append, hwrites]
  exact congrArg (_ :: ·) (List.append_nil _)

/-- A session is a run of the service with some downloader: the same calls on the writer, with the
same answers and the same result. -/
theorem writerEvents_of_runs {mbedtls : Mbedtls Ctx} {downloader : HttpDownloader} {rounds : ℕ}
    {manifest : OtaManifest} {writer writer' : LibreTinyFirmwareWriter Ctx}
    {trace : List DeviceEvent} {result : Bool}
    (hruns : (doDownload mbedtls downloader rounds manifest writer).Runs trace (result, writer')) :
    ∃ events, (OtaService.doDownload manifest).Runs events result ∧
      events.filter (fun event ↦ event.request.isWriter) = writerEvents trace := by
  cases session_of_runs hruns with
  | notBegun => exact ⟨[⟨.begin manifest.sizeBytes, false⟩], ⟨false, [], rfl, rfl, rfl⟩, rfl⟩
  | @notDelivered inner trace _ _ hkept =>
    refine ⟨serviceEvents manifest (HttpDownloader.offered inner) false,
      (runs_serviceEvents manifest _).1, ?_⟩
    rw [filter_serviceEvents, ← hkept.writerEvents_eq]
    rfl
  | @finished inner trace _ _ _ _ hdownload hkept hstarted hended =>
    refine ⟨serviceEvents manifest (HttpDownloader.offered inner) true ++ [⟨.finish, result⟩],
      (runs_serviceEvents manifest _).2 result, ?_⟩
    rw [List.filter_append, filter_serviceEvents, ← hkept.writerEvents_eq, List.cons_append,
      writerEvents_append]
    rfl

/-! ### What is verified -/

/-- A session that succeeds has read as many bytes as the manifest says, written all of them in the
order in which they were read, and left their hash as the digest. -/
theorem digest_of_session {mbedtls : Mbedtls Ctx} {sha256 : Bytes → Bytes}
    {base64 : Bytes → Option Bytes} (hcorrect : mbedtls.Correct sha256 base64)
    {downloader : HttpDownloader} {rounds : ℕ} {manifest : OtaManifest}
    {writer writer' : LibreTinyFirmwareWriter Ctx} {trace : List DeviceEvent}
    (hruns : (doDownload mbedtls downloader rounds manifest writer).Runs trace (true, writer')) :
    ((writes trace).map Prod.fst).flatten = received trace ∧
      (received trace).length = manifest.sizeBytes.toNat ∧
      (∀ write ∈ writes trace, write.2 = write.1.length) ∧
      writer'.digest = some (sha256 (received trace)) := by
  cases session_of_runs hruns with
  | @finished inner trace started ended _ _ hdownload hkept hstarted hended =>
    have hstreams := HttpDownloader.streams_download hdownload
    obtain ⟨hlength, htaken⟩ := hstreams.whole rfl
    have hwrites : writes (⟨.update (.begin manifest.sizeBytes), true⟩ :: trace ++
        [⟨.update (.finish false), true⟩]) = writes trace := by
      rw [writes_append]
      exact List.append_nil _
    have hreceived : received (⟨.update (.begin manifest.sizeBytes), true⟩ :: trace ++
        [⟨.update (.finish false), true⟩]) = received trace := by
      rw [received_append]
      exact List.append_nil _
    have hchunks : (writes trace).map Prod.fst = (HttpDownloader.offered inner).map Prod.fst := by
      rw [hkept.offered_eq, List.map_map]
      rfl
    rw [hwrites, hreceived, hkept.received_eq, hchunks]
    refine ⟨hstreams.flatten_eq, hlength, fun write hwrite ↦ ?_, ?_⟩
    · have hmem : (write.1, decide (write.2 = write.1.length)) ∈ HttpDownloader.offered inner := by
        rw [hkept.offered_eq]
        exact List.mem_map_of_mem hwrite
      exact of_decide_eq_true (htaken _ hmem)
    · have hsmall : ((HttpDownloader.offered inner).map Prod.fst).flatten.length < 2 ^ 61 := by
        rw [hstreams.flatten_eq, hlength]
        exact manifest.sizeBytes.toNat_lt.trans (by norm_num)
      rw [hended, hkept.sha_eq, hstarted, hcorrect.digest_eq _ _ hsmall, hstreams.flatten_eq]

/-- What is verified is what was staged. The loop over the body ends within a number of calls and of
milliseconds that the size gives, for every connection; a download never hands over more bytes than
expected; and a session that succeeds, whatever sessions were before it, has written whole chunks
that are the bytes read, in order and as many as the manifest says, so that a signature is accepted
exactly if it is the hash of these bytes in base64. -/
theorem staged_is_verified {mbedtls : Mbedtls Ctx} {sha256 : Bytes → Bytes}
    {base64 : Bytes → Option Bytes} (hcorrect : mbedtls.Correct sha256 base64)
    (downloader : HttpDownloader) (manifest : OtaManifest) :
    (∀ secure rounds, manifest.sizeBytes.toNat < rounds →
      (HttpDownloader.bodyLoop secure manifest.sizeBytes.toNat rounds 0).AsksOnly
          (fun request ↦ request ≠ .client secure .unending) ∧
        (HttpDownloader.bodyLoop secure manifest.sizeBytes.toNat rounds 0).Spends (fun _ ↦ 1)
          ((manifest.sizeBytes.toNat + 1) * (NetworkClient.kIdleTimeoutMs / 10 * 4 + 2)) ∧
        (HttpDownloader.bodyLoop secure manifest.sizeBytes.toNat rounds 0).Spends
          HttpDownloader.delayMs
          ((manifest.sizeBytes.toNat + 1) * NetworkClient.kIdleTimeoutMs)) ∧
      (∀ rounds url trace delivered,
        (downloader.download rounds url manifest.sizeBytes).Runs trace delivered →
          ((HttpDownloader.offered trace).map Prod.fst).flatten.length ≤
            manifest.sizeBytes.toNat) ∧
      ∀ (writer : LibreTinyFirmwareWriter Ctx) rounds trace writer',
        (doDownload mbedtls downloader rounds manifest writer).Runs trace (true, writer') →
          ((writes trace).map Prod.fst).flatten = received trace ∧
            (received trace).length = manifest.sizeBytes.toNat ∧
            (∀ write ∈ writes trace, write.2 = write.1.length) ∧
            ∀ sigB64, DevSha256Verifier.verifyStagedImage mbedtls writer' sigB64 = true ↔
              ∃ text, sigB64 = some text ∧
                base64 text = some (sha256 ((writes trace).map Prod.fst).flatten) := by
  refine ⟨fun secure rounds hrounds ↦ HttpDownloader.ends_bodyLoop hrounds,
    fun rounds url trace delivered hruns ↦ ?_, fun writer rounds trace writer' hruns ↦ ?_⟩
  · have hstreams := HttpDownloader.streams_download hruns
    rw [hstreams.flatten_eq]
    exact hstreams.length_le
  · obtain ⟨hflatten, hlength, hwhole, hdigest⟩ := digest_of_session hcorrect hruns
    refine ⟨hflatten, hlength, hwhole, fun sigB64 ↦ ?_⟩
    rw [hflatten]
    exact DevSha256Verifier.verifyStagedImage_iff hcorrect hdigest (hcorrect.length_sha256 _) sigB64

/-! ### A session of three bytes -/

/-- The SHA-256 digest of `abc`. -/
def abcDigest : Bytes :=
  [0xba, 0x78, 0x16, 0xbf, 0x8f, 0x01, 0xcf, 0xea, 0x41, 0x41, 0x40, 0xde, 0x5d, 0xae, 0x22, 0x23,
    0xb0, 0x03, 0x61, 0xa3, 0x96, 0x17, 0x7a, 0x9c, 0xb4, 0x10, 0xff, 0x61, 0xf2, 0x00, 0x15, 0xad]

/-- The hash, as far as it is used here. -/
def abcHash (message : Bytes) : Bytes :=
  if message = ascii "abc" then abcDigest else List.replicate 32 0

/-- Its text in base64, and the text without bytes. -/
def abcBase64 (text : Bytes) : Option Bytes :=
  if text = ascii "ungWv48Bz+pBQUDeXa4iI7ADYaOWF3qctBD/YfIAFa0=" then some abcDigest
  else if text = [] then some []
  else none

/-- mbedTLS, as far as it is used here, with the message itself as the hash context. -/
def abcMbedtls : Mbedtls Bytes where
  sha256Init _ := []
  sha256Starts ctx := ctx
  sha256Update ctx data := ctx ++ data
  sha256Finish ctx := (ctx, abcHash ctx)
  sha256Free _ := []
  base64Decode size text :=
    match abcBase64 text with
    | none => (-44, [])
    | some bytes => if bytes.length ≤ size then (0, bytes) else (-42, [])

theorem correct_abcMbedtls : abcMbedtls.Correct abcHash abcBase64 where
  length_sha256 message := by
    unfold abcHash
    split_ifs
    · rfl
    · rfl
  digest_eq ctx chunks _ := by
    have hfold (message : Bytes) (chunks : List Bytes) :
        chunks.foldl abcMbedtls.sha256Update message = message ++ chunks.flatten := by
      induction chunks generalizing message with
      | nil => exact (List.append_nil message).symm
      | cons data rest ih =>
        rw [List.foldl_cons, ih, List.flatten_cons, ← List.append_assoc]
        rfl
    exact congrArg abcHash (hfold [] chunks)
  base64_nil := by decide
  decode_iff text bytes := by
    unfold abcMbedtls
    simp only
    cases abcBase64 text with
    | none => exact iff_of_false nofun nofun
    | some decoded =>
      simp only [Option.some_inj]
      split_ifs with hfits
      · constructor
        · intro heq
          obtain rfl := (Prod.mk.inj heq).2
          exact ⟨rfl, hfits⟩
        · rintro ⟨rfl, -⟩
          rfl
      · refine iff_of_false nofun fun hall ↦ hfits ?_
        rw [hall.1]
        exact hall.2

/-- A server that sends its response at once and closes, and a flash that takes every write. -/
def serving (coming : Bytes) : (request : DeviceCall) → Option (DeviceAns request × Bytes)
  | .client _ (.setCACert _) => some ((), coming)
  | .client _ (.connect _ _) => some (1, coming)
  | .client _ (.print _) => some ((), coming)
  | .client _ .available => some (coming.length, coming)
  | .client _ .connected => some (false, coming)
  | .client _ .read => some (coming.head?, coming.tail)
  | .client _ (.readInto want) =>
    some (⟨coming.take want, List.length_take_le _ _⟩, coming.drop want)
  | .client _ (.delay _) => some ((), coming)
  | .client _ .stop => some ((), coming)
  | .client _ .unending => none
  | .stackBytes size => some (List.replicate size 0, coming)
  | .update (.begin _) => some (true, coming)
  | .update (.write data) => some (data.length, coming)
  | .update (.finish _) => some (true, coming)

def abcManifest : OtaManifest :=
  { url := ascii "http://host/fw", sizeBytes := 3, valid := true }

/-- A writer with the digest of an earlier session. -/
def usedWriter : LibreTinyFirmwareWriter Bytes :=
  { sha := [1], digestBytes := List.replicate 32 7, digestReady := true }

/-- The session in which the three bytes are staged. -/
def abcSession : Option (List DeviceEvent × (Bool × LibreTinyFirmwareWriter Bytes)) :=
  (doDownload abcMbedtls {} 4 abcManifest usedWriter).play serving
    (ascii "HTTP/1.1 200\r\n\r\nabc")

theorem isSome_abcSession : abcSession.isSome = true := by decide

theorem runs_abcSession :
    (doDownload abcMbedtls {} 4 abcManifest usedWriter).Runs (abcSession.get isSome_abcSession).1
      (true, (abcSession.get isSome_abcSession).2.2) :=
  Prog.runs_play isSome_abcSession

/-- The digest of the staged bytes is accepted. -/
theorem staged_is_verified_witness :
    received (abcSession.get isSome_abcSession).1 = ascii "abc" ∧
      DevSha256Verifier.verifyStagedImage abcMbedtls (abcSession.get isSome_abcSession).2.2
        (some (ascii "ungWv48Bz+pBQUDeXa4iI7ADYaOWF3qctBD/YfIAFa0=")) = true :=
  ⟨by decide, (((staged_is_verified correct_abcMbedtls {} abcManifest).2.2 usedWriter 4 _ _
    runs_abcSession).2.2.2 _).mpr ⟨_, rfl, by decide⟩⟩

end StagedImage

end LibreSwitch.Net
