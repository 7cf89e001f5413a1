import LibreSwitch.Library.HttpRequest
import LibreSwitch.Net.OtaManifest
import LibreSwitch.Net.TokenEncoding
import LibreSwitch.Net.UrlTargets

/-!
# The requests that the device sends

The downloader and the enrollment write their requests by hand, piece by piece, into a connection
that they opened before. `Talk` is a whole exchange as the network sees it: a server may be pinned,
a connection is opened, and if that succeeds one request is sent, the device listens, and the
connection is closed. Every run of the two is such an exchange or keeps away from the network.

The texts in a request come from elsewhere: the host and the path from an announcement or from the
build, the token from a form or from the store. No announcement can add a line to the request for
its image (`announced_request`), and no token can end the request that carries it
(`enrolling_request`). What a server reads is the request that was meant, exactly if host and path
are `Sendable`.
-/

set_option autoImplicit false
set_option relaxedAutoImplicit false

namespace LibreSwitch.Net

open LibreSwitch.Library LibreSwitch.Platform

/-! ### Exchanges -/

namespace NetworkClient

/-- An event on a connection. -/
abbrev ClientEvent := Prog.Event ClientCall ClientAns

variable {α : Type}

/-- The bytes that an event sends. -/
def bytesSent : ClientEvent → Bytes
  | ⟨.print text, _⟩ => text
  | _ => []

/-- The bytes that a run sends. -/
def sent (trace : List ClientEvent) : Bytes := trace.flatMap bytesSent

/-- The calls that send. -/
inductive Sends : ClientCall → Prop
  | print (text : Bytes) : Sends (.print text)

/-- The calls that listen, byte by byte or into a buffer. -/
inductive Hears : ClientCall → Prop
  | listens {request : ClientCall} (hlistens : Listens request) : Hears request
  | readInto (want : ℕ) : Hears (.readInto want)

/-- The server is pinned if there is a certificate for it. -/
def pinning (ca : Bytes) : List ClientEvent := if ca = [] then [] else [⟨.setCACert ca, ()⟩]

/-- What the network sees of one exchange: no connection, or the request, the response and the
end. -/
inductive Talk (ca host : Bytes) (port : UInt16) (request : Bytes) : List ClientEvent → Prop
  | refused {answer : ℤ} (hanswer : answer ≠ 1) :
      Talk ca host port request (pinning ca ++ [⟨.connect host port, answer⟩])
  | held {sending hearing : List ClientEvent}
      (hsending : ∀ event ∈ sending, Sends event.request) (hsent : sent sending = request)
      (hhearing : ∀ event ∈ hearing, Hears event.request) :
      Talk ca host port request (pinning ca ++ ⟨.connect host port, (1 : ℤ)⟩ ::
        (sending ++ (hearing ++ [⟨.stop, ()⟩])))

/-- Pins the server if there is a certificate for it, and connects. -/
def connecting (ca host : Bytes) (port : UInt16) : Prog ClientCall ClientAns ℤ := do
  if ca ≠ [] then Prog.ask (ClientCall.setCACert ca)
  Prog.ask (ClientCall.connect host port)

theorem runs_connecting {ca host : Bytes} {port : UInt16} {trace : List ClientEvent} {answer : ℤ}
    (hruns : (connecting ca host port).Runs trace answer) :
    trace = pinning ca ++ [⟨.connect host port, answer⟩] := by
  unfold connecting at hruns
  unfold pinning
  by_cases hca : ca = []
  · rw [if_neg (not_not_intro hca)] at hruns
    rw [if_pos hca]
    obtain ⟨_, rest, rfl, rfl, rfl⟩ := hruns
    rfl
  · rw [if_pos hca] at hruns
    rw [if_neg hca]
    obtain ⟨_, _, rfl, _, rest, rfl, rfl, rfl⟩ := hruns
    rfl

/-- The head of a response and what is behind it is heard. -/
theorem asksOnly_hears {program : Prog ClientCall ClientAns α}
    (hprogram : program.AsksOnly Listens) : program.AsksOnly Hears :=
  hprogram.mono fun _ ↦ .listens

/-- An exchange from its parts. -/
theorem talk_of_parts {ca host request : Bytes} {port : UInt16} {answer : ℤ}
    {opening sending behind : List ClientEvent}
    (hopening : (connecting ca host port).Runs opening answer) (hanswer : answer = 1)
    (hsending : ∀ event ∈ sending, Sends event.request) (hsent : sent sending = request)
    (hbehind : ∃ hearing, behind = hearing ++ [⟨.stop, ()⟩] ∧
      ∀ event ∈ hearing, Hears event.request) :
    Talk ca host port request (opening ++ (sending ++ behind)) := by
  obtain ⟨hearing, rfl, hhearing⟩ := hbehind
  obtain rfl := runs_connecting hopening
  subst hanswer
  rw [List.append_assoc, List.singleton_append]
  exact .held hsending hsent hhearing

end NetworkClient

open NetworkClient

/-! ### What a server makes of a request -/

/-- A host and a path that a server reads as they were meant. -/
structure Sendable (host path : Bytes) : Prop where
  trimmed : HttpRequest.trimOws host = host
  host_value : host.all HttpRequest.isValueByte = true
  path_target : path.all HttpRequest.isTargetByte = true

/-- A request with just these lines. -/
def HasLines (request : Bytes) (lines : List Bytes) : Prop :=
  request = lines.flatMap (· ++ HttpRequest.crlf) ∧
    ∀ line ∈ lines, (10 : UInt8) ∉ line ∧ (13 : UInt8) ∉ line

/-- The field for the host, and others, each with a text of its own. -/
theorem fieldOk_host_iff {host : Bytes} {fields : List (Bytes × Bytes)}
    (hfields : ∀ field ∈ fields, HttpRequest.FieldOk field) :
    (∀ field ∈ (ascii "Host", host) :: fields, HttpRequest.FieldOk field) ↔
      host.all HttpRequest.isValueByte = true ∧ HttpRequest.trimOws host = host := by
  rw [List.forall_mem_cons]
  constructor
  · rintro ⟨hhost, -⟩
    exact ⟨hhost.value, hhost.trimmed⟩
  · rintro ⟨hvalue, htrimmed⟩
    exact ⟨⟨(by decide : ascii "Host" ≠ []), rfl, hvalue, htrimmed⟩, hfields⟩

/-- The path of a URL is never empty. -/
theorem UrlParts.path_ne_nil_of_taken (parts : UrlParts) {scheme port : UInt16}
    {hostCap pathCap : ℕ} {host path : Bytes}
    (htaken : parts.taken scheme hostCap pathCap = some (host, port, path)) : path ≠ [] := by
  obtain ⟨-, -, htarget⟩ := UrlParts.taken_eq_some_iff.mp htaken
  obtain ⟨-, hrest⟩ := Prod.mk.inj htarget
  obtain ⟨-, rfl⟩ := Prod.mk.inj hrest
  unfold UrlParts.target
  cases parts.path with
  | none => exact nofun
  | some behind => exact List.cons_ne_nil _ _

/-! ### The request for an image -/

namespace HttpDownloader

/-- The request for an image. -/
def getRequest (host path : Bytes) : HttpRequest where
  method := ascii "GET"
  target := path
  fields := [(ascii "Host", host), (ascii "Connection", ascii "close")]
  body := []

theorem wellFormed_getRequest_iff {host path : Bytes} (hpath : path ≠ []) :
    (getRequest host path).WellFormed ↔ Sendable host path := by
  have hclose : ∀ field ∈ [(ascii "Connection", ascii "close")], HttpRequest.FieldOk field := by
    intro field hfield
    obtain rfl := List.mem_singleton.mp hfield
    exact ⟨by decide, rfl, rfl, rfl⟩
  constructor
  · intro hrequest
    obtain ⟨hvalue, htrimmed⟩ := (fieldOk_host_iff hclose).mp hrequest.fields
    exact ⟨htrimmed, hvalue, hrequest.target⟩
  · rintro ⟨htrimmed, hvalue, htarget⟩
    exact ⟨(by decide : ascii "GET" ≠ []), rfl, hpath, htarget,
      (fieldOk_host_iff hclose).mpr ⟨hvalue, htrimmed⟩, rfl⟩

theorem sends_sendRequest {host path : Bytes} {trace : List ClientEvent} {result : Unit}
    (hruns : (sendRequest host path).Runs trace result) :
    (∀ event ∈ trace, Sends event.request) ∧ sent trace = (getRequest host path).render := by
  have hasks : (sendRequest host path).AsksOnly Sends := by
    refine ⟨.print _, fun _ ↦ ⟨.print _, fun _ ↦ ⟨.print _, fun _ ↦ ⟨.print _, fun _ ↦ ?_⟩⟩⟩⟩
    exact ⟨.print _, fun _ ↦ ⟨.print _, fun _ ↦ ⟨.print _, fun _ ↦ trivial⟩⟩⟩
  refine ⟨hasks.of_runs hruns, ?_⟩
  obtain ⟨_, _, rfl, _, _, rfl, _, _, rfl, _, _, rfl, _, _, rfl, _, _, rfl, _, _, rfl, rfl, -⟩ :=
    hruns
  have hbytes : ascii "GET " ++ (path ++ (ascii " HTTP/1.1\r\n" ++ (ascii "Host: " ++ (host ++
      (ascii "\r\n" ++ ascii "Connection: close\r\n\r\n"))))) =
      (getRequest host path).render := by
    simp only [HttpRequest.render, HttpRequest.renderStart, HttpRequest.renderFields,
      HttpRequest.renderField, getRequest, List.flatMap_cons, List.flatMap_nil, List.append_assoc,
      List.cons_append, List.append_nil]
    rfl
  rw [← hbytes]
  simp only [sent, bytesSent, List.flatMap_cons, List.flatMap_nil, List.append_nil]

/-- Text without line ends between the pieces of the request adds no lines to it. -/
theorem hasLines_getRequest {host path : Bytes}
    (hhost : (10 : UInt8) ∉ host ∧ (13 : UInt8) ∉ host)
    (hpath : (10 : UInt8) ∉ path ∧ (13 : UInt8) ∉ path) :
    HasLines (getRequest host path).render [ascii "GET " ++ path ++ ascii " HTTP/1.1",
      ascii "Host: " ++ host, ascii "Connection: close", []] := by
  constructor
  · simp only [HttpRequest.render, HttpRequest.renderStart, HttpRequest.renderFields,
      HttpRequest.renderField, getRequest, List.flatMap_cons, List.flatMap_nil, List.append_assoc,
      List.cons_append, List.nil_append, List.append_nil]
    rfl
  · rw [List.forall_mem_cons, List.forall_mem_cons]
    simp only [List.mem_append, not_or]
    exact ⟨⟨⟨⟨by decide, hpath.1⟩, by decide⟩, ⟨by decide, hpath.2⟩, by decide⟩,
      ⟨⟨by decide, hhost.1⟩, by decide, hhost.2⟩, by decide⟩

/-- The calls of a download after its request was sent. -/
def Listening : DownloadCall → Prop
  | .client _ request => Hears request
  | _ => True

section Listening

variable {α : Type} {secure : Bool}

theorem asksOnly_onClient {program : Prog ClientCall ClientAns α}
    (hprogram : program.AsksOnly Hears) : (onClient secure program).AsksOnly Listening :=
  Prog.asksOnly_embed hprogram

theorem asksOnly_bodyLoop (expectedSize rounds total : ℕ) :
    (bodyLoop secure expectedSize rounds total).AsksOnly Listening := by
  induction rounds generalizing total with
  | zero => exact ⟨Hears.listens .unending, nofun⟩
  | succ rounds ih =>
    unfold bodyLoop
    split_ifs
    · refine Prog.asksOnly_bind (asksOnly_onClient (asksOnly_hears (asksOnly_awaitData _ _)))
        fun wait ↦ ?_
      cases wait with
      | closed => trivial
      | timedOut => trivial
      | ready avail =>
        simp only [Prog.ask_bind, Prog.pure_eq]
        refine Prog.asksOnly_call.mpr ⟨Hears.readInto _, fun read ↦ ?_⟩
        split_ifs
        · trivial
        · refine Prog.asksOnly_call.mpr ⟨trivial, fun taken ↦ ?_⟩
          split_ifs
          · trivial
          · exact ih _
    · trivial

/-- Only listening is seen on the connection. -/
theorem hears_of_listening {program : Prog DownloadCall DownloadAns α}
    (hprogram : program.AsksOnly Listening) {trace : List DownloadEvent} {result : α}
    (hruns : program.Runs trace result) : ∀ event ∈ clientEvents trace, Hears event.request := by
  intro event hevent
  obtain ⟨⟨request, answer⟩, hmem, hpart⟩ := List.mem_filterMap.mp hevent
  have hlistening := hprogram.of_runs hruns _ hmem
  cases request with
  | client secure request =>
    obtain rfl := Option.some.inj hpart
    exact hlistening
  | onChunk data => cases hpart
  | stackBytes size => cases hpart

theorem clientEvents_stop {trace : List DownloadEvent} {result : Unit}
    (hruns : (onClient secure (Prog.ask ClientCall.stop)).Runs trace result) :
    clientEvents trace = [⟨.stop, ()⟩] := by
  obtain ⟨_, rest, htrace, rfl, -⟩ := (runs_onClient hruns).1
  exact htrace

/-- After the request the device listens and closes the connection. -/
theorem hears_receive {rounds : ℕ} {expectedSize : UInt32} {trace : List DownloadEvent}
    {delivered : Bool} (hruns : (receive secure rounds expectedSize).Runs trace delivered) :
    ∃ hearing, clientEvents trace = hearing ++ [⟨.stop, ()⟩] ∧
      ∀ event ∈ hearing, Hears event.request := by
  simp only [receive, Prog.ask_bind, Prog.runs_call] at hruns
  obtain ⟨line, later, rfl, hlater⟩ := hruns
  obtain ⟨headed, first, rest, rfl, hhead, hrest⟩ := Prog.runs_bind.mp hlater
  have hhearing := hears_of_listening
    (asksOnly_onClient (asksOnly_hears (asksOnly_readHead rounds line))) hhead
  change ∃ hearing, clientEvents (first ++ rest) = _ ∧ _
  rw [clientEvents_append]
  cases headed with
  | false =>
    obtain ⟨_, second, last, rfl, hstop, rfl, -⟩ := Prog.runs_bind.mp hrest
    rw [List.append_nil, clientEvents_stop hstop]
    exact ⟨_, rfl, hhearing⟩
  | true =>
    obtain ⟨value, second, rest, rfl, hbody, hrest⟩ := Prog.runs_bind.mp hrest
    obtain ⟨_, third, last, rfl, hstop, rfl, -⟩ := Prog.runs_bind.mp hrest
    rw [List.append_nil, clientEvents_append, clientEvents_stop hstop, ← List.append_assoc]
    refine ⟨_, rfl, fun event hevent ↦ ?_⟩
    rcases List.mem_append.mp hevent with hinhead | hinbody
    · exact hhearing event hinhead
    · exact hears_of_listening (asksOnly_bodyLoop _ _ _) hbody event hinbody

end Listening

theorem openConnection_eq (downloader : HttpDownloader) (secure : Bool) (host : Bytes)
    (port : UInt16) : downloader.openConnection secure host port =
      connecting (if secure then downloader.ca else []) host port := by
  unfold openConnection connecting
  cases secure with
  | false => rfl
  | true =>
    simp only [true_and]
    rfl

/-- A download is one exchange with the host in its URL, or keeps away from the network. -/
theorem talk_of_download {downloader : HttpDownloader} {rounds : ℕ} {url : Bytes}
    {expectedSize : UInt32} {trace : List DownloadEvent} {delivered : Bool}
    (hruns : (downloader.download rounds url expectedSize).Runs trace delivered) :
    parseUrl url = none ∧ clientEvents trace = [] ∨
      ∃ host port path, parseUrl url = some (host, port, path) ∧
        Talk (if isSecure url then downloader.ca else []) host port (getRequest host path).render
          (clientEvents trace) := by
  unfold download at hruns
  cases htarget : parseUrl url with
  | none =>
    rw [htarget] at hruns
    obtain ⟨rfl, -⟩ := hruns
    exact .inl ⟨rfl, rfl⟩
  | some target =>
    obtain ⟨host, port, path⟩ := target
    rw [htarget] at hruns
    refine .inr ⟨host, port, path, rfl, ?_⟩
    obtain ⟨connected, first, rest, rfl, hopen, hrest⟩ := Prog.runs_bind.mp hruns
    have hopening := (runs_onClient hopen).1
    rw [openConnection_eq] at hopening
    rw [clientEvents_append]
    split_ifs at hrest with hconnected
    · obtain ⟨rfl, -⟩ := hrest
      rw [runs_connecting hopening]
      exact (List.append_nil _).symm ▸ Talk.refused hconnected
    · obtain ⟨_, second, last, rfl, hsend, hreceive⟩ := Prog.runs_bind.mp hrest
      obtain ⟨hsending, hsent⟩ := sends_sendRequest (runs_onClient hsend).1
      rw [clientEvents_append]
      exact talk_of_parts hopening (not_not.mp hconnected) hsending hsent (hears_receive hreceive)

end HttpDownloader

/-! ### Announcements -/

namespace OtaManifestCodec

/-- No token has a separator in it. -/
theorem notMem_tokens {payload token : Bytes} (htoken : token ∈ tokens payload) {byte : UInt8}
    (hbyte : isSeparator byte = true) : byte ∉ token := by
  unfold tokens at htoken
  induction payload generalizing token with
  | nil =>
    obtain rfl := List.mem_singleton.mp htoken
    exact List.not_mem_nil
  | cons first payload ih =>
    rw [List.splitOnP_cons_eq_if_modifyHead] at htoken
    split_ifs at htoken with hfirst
    · rcases List.mem_cons.mp htoken with rfl | hlater
      · exact List.not_mem_nil
      · exact ih hlater
    · obtain ⟨head, others, hsplit⟩ :=
        List.exists_cons_of_ne_nil (List.splitOnP_ne_nil isSeparator payload)
      rw [hsplit, List.modifyHead_cons] at htoken
      rw [hsplit] at ih
      rcases List.mem_cons.mp htoken with rfl | hlater
      · rw [List.mem_cons, not_or]
        refine ⟨fun heq ↦ hfirst (heq ▸ hbyte), ih List.mem_cons_self⟩
      · exact ih (List.mem_cons_of_mem _ hlater)

/-- The URL of a valid announcement has no separator in it, and so no line end. -/
theorem notMem_url {payload : Bytes} (hvalid : (parse payload).valid = true) {byte : UInt8}
    (hbyte : isSeparator byte = true) : byte ∉ cString (parse payload).url := by
  have haccept := (valid_iff payload).mp hvalid
  obtain ⟨value, hlast, hfits⟩ := haccept.url
  have hheld : HoldsText (({} : Parsing).parseLoop payload).m.url value :=
    text_read (by decide) Parsing.owns_url hlast hfits {}
  have hurl : (parse payload).url = (({} : Parsing).parseLoop payload).m.url := by
    rw [parse_eq haccept.length_pos haccept.length_le]
  obtain ⟨-, before, after, htokens, -⟩ := hlast
  have htoken : ascii "url" ++ 61 :: value ∈ tokens payload := by
    rw [htokens]
    exact List.mem_append_right _ List.mem_cons_self
  have hvalue : byte ∉ value := fun hmem ↦ notMem_tokens htoken hbyte
    (List.mem_append_right _ (List.mem_cons_of_mem _ hmem))
  obtain ⟨behind, hbehind⟩ := hheld
  intro hmem
  rw [hurl, hbehind, cString, List.takeWhile_append] at hmem
  split_ifs at hmem with hwhole
  · rw [List.takeWhile_cons_of_neg (by decide), List.append_nil] at hmem
    exact hvalue hmem
  · exact hvalue ((List.takeWhile_prefix _).subset hmem)

end OtaManifestCodec

/-- Host and path are made of bytes of the URL. -/
theorem HttpDownloader.subset_of_parseUrl {url host path : Bytes} {port : UInt16}
    (hparse : HttpDownloader.parseUrl url = some (host, port, path)) {byte : UInt8}
    (hbyte : byte ∉ url) (hslash : byte ≠ 47) : byte ∉ host ∧ byte ∉ path := by
  obtain ⟨scheme, -, parts, rfl, htaken⟩ := HttpDownloader.parseUrl_eq_some_iff.mp hparse
  obtain ⟨-, -, htarget⟩ := UrlParts.taken_eq_some_iff.mp htaken
  obtain ⟨rfl, hrest⟩ := Prod.mk.inj htarget
  obtain ⟨-, rfl⟩ := Prod.mk.inj hrest
  rw [List.mem_append, not_or, UrlParts.render, List.mem_append, List.mem_append, not_or,
    not_or] at hbyte
  obtain ⟨-, ⟨hhost, -⟩, hpath⟩ := hbyte
  refine ⟨hhost, ?_⟩
  unfold UrlParts.pathText at hpath
  unfold UrlParts.target
  cases hcase : parts.path with
  | none => exact fun hmem ↦ hslash (List.mem_singleton.mp hmem)
  | some behind =>
    rw [hcase] at hpath
    exact hpath

/-- The request for the image of a valid announcement. However the announcement was written, it has
the four lines of the source and no other, so nothing in it becomes a header of its own. A server
reads it as it was meant, with nothing taken from what is behind it, exactly if host and path are
`Sendable`. -/
theorem HttpDownloader.announced_request {payload : Bytes}
    (hvalid : (OtaManifestCodec.parse payload).valid = true) {downloader : HttpDownloader}
    {rounds : ℕ} {trace : List DownloadEvent} {delivered : Bool}
    (hruns : (downloader.download rounds (cString (OtaManifestCodec.parse payload).url)
      (OtaManifestCodec.parse payload).sizeBytes).Runs trace delivered) :
    clientEvents trace = [] ∨ ∃ host port path,
      parseUrl (cString (OtaManifestCodec.parse payload).url) = some (host, port, path) ∧
      Talk (if isSecure (cString (OtaManifestCodec.parse payload).url) then downloader.ca else [])
        host port (getRequest host path).render (clientEvents trace) ∧
      HasLines (getRequest host path).render [ascii "GET " ++ path ++ ascii " HTTP/1.1",
        ascii "Host: " ++ host, ascii "Connection: close", []] ∧
      ∀ rest, HttpRequest.parse ((getRequest host path).render ++ rest) =
        some (getRequest host path, rest) ↔ Sendable host path := by
  rcases talk_of_download hruns with ⟨-, hquiet⟩ | ⟨host, port, path, hparse, htalk⟩
  · exact .inl hquiet
  · have hlf := subset_of_parseUrl hparse (OtaManifestCodec.notMem_url hvalid rfl)
      (by decide : (10 : UInt8) ≠ 47)
    have hcr := subset_of_parseUrl hparse (OtaManifestCodec.notMem_url hvalid rfl)
      (by decide : (13 : UInt8) ≠ 47)
    refine .inr ⟨host, port, path, hparse, htalk,
      hasLines_getRequest ⟨hlf.1, hcr.1⟩ ⟨hlf.2, hcr.2⟩, fun rest ↦ ?_⟩
    obtain ⟨scheme, -, parts, -, htaken⟩ := parseUrl_eq_some_iff.mp hparse
    rw [HttpRequest.parse_render_iff,
      wellFormed_getRequest_iff (parts.path_ne_nil_of_taken htaken)]

namespace HttpDownloader

/-- A server that sends its response at once and closes, and a sink that takes every chunk. -/
def serving (coming : Bytes) : (request : DownloadCall) → Option (DownloadAns request × Bytes)
  | .client _ (.connect _ _) => some ((1 : ℤ), coming)
  | .client _ .available => some ((coming.length : ℤ), coming)
  | .client _ .connected => some (false, coming)
  | .client _ .read => some (coming.head?, coming.tail)
  | .client _ (.readInto want) =>
    some (⟨coming.take want, List.length_take_le _ _⟩, coming.drop want)
  | .client _ .unending => none
  | .client _ (.setCACert _) | .client _ (.print _) | .client _ (.delay _) | .client _ .stop =>
    some ((), coming)
  | .onChunk _ => some (true, coming)
  | .stackBytes size => some (List.replicate size 0, coming)

/-- An announcement of an image of three bytes. -/
def shortPayload : Bytes := ascii "url=http://h/f&ver=1.0.0&sig=s&hw=h&ch=1&size=3"

theorem parse_shortPayload : (OtaManifestCodec.parse shortPayload).valid = true ∧
    cString (OtaManifestCodec.parse shortPayload).url = ascii "http://h/f" ∧
    (OtaManifestCodec.parse shortPayload).sizeBytes = 3 := by
  rw [OtaManifestCodec.parse_eq (by decide) (by decide), OtaManifestCodec.parseLoop_eq_foldl]
  decide

/-- The download of its image. -/
def shortDownload : Option (List DownloadEvent × Bool) :=
  (download {} 4 (ascii "http://h/f") 3).play serving (ascii "HTTP/1.1 200\r\n\r\nabc")

theorem isSome_shortDownload : shortDownload.isSome = true := by decide

theorem announced_request_short : ∃ host port path,
    Talk [] host port (getRequest host path).render
      (clientEvents (shortDownload.get isSome_shortDownload).1) ∧
    ∀ rest, HttpRequest.parse ((getRequest host path).render ++ rest) =
      some (getRequest host path, rest) ↔ Sendable host path := by
  obtain ⟨hvalid, hurl, hsize⟩ := parse_shortPayload
  have hruns : (download {} 4 (cString (OtaManifestCodec.parse shortPayload).url)
      (OtaManifestCodec.parse shortPayload).sizeBytes).Runs
      (shortDownload.get isSome_shortDownload).1 (shortDownload.get isSome_shortDownload).2 := by
    rw [hurl, hsize]
    exact Prog.runs_play isSome_shortDownload
  rcases announced_request hvalid hruns with hquiet | ⟨host, port, path, -, htalk, -, hread⟩
  · exact absurd hquiet (by decide)
  · rw [hurl] at htalk
    exact ⟨host, port, path, htalk, hread⟩

end HttpDownloader

/-! ### The request for an identity -/

namespace HttpEnrollment

/-- The request for an identity. -/
def postRequest (host path body : Bytes) : HttpRequest where
  method := ascii "POST"
  target := path
  fields := [(ascii "Host", host),
    (ascii "Content-Type", ascii "application/x-www-form-urlencoded"),
    (ascii "Content-Length", decimal body.length), (ascii "Connection", ascii "close")]
  body := body

/-- The length stands in the request as its digits. -/
theorem fieldOk_length (n : ℕ) : HttpRequest.FieldOk (ascii "Content-Length", decimal n) := by
  have hbytes : ∀ byte ∈ decimal n,
      HttpRequest.isValueByte byte = true ∧ HttpRequest.isOws byte = false := by
    intro byte hbyte
    have hdigit := isDigit_of_mem_decimal hbyte
    simp only [isDigit, Bool.and_eq_true, decide_eq_true_eq] at hdigit
    constructor <;> grind [HttpRequest.isValueByte, HttpRequest.isOws]
  exact ⟨(by decide : ascii "Content-Length" ≠ []), rfl,
    List.all_eq_true.mpr fun byte hbyte ↦ (hbytes byte hbyte).1,
    HttpRequest.trimOws_of_forall fun byte hbyte ↦ (hbytes byte hbyte).2⟩

theorem contentLength_postRequest (host path body : Bytes) :
    HttpRequest.contentLength (postRequest host path body).fields = some body.length := by
  have hfields : HttpRequest.lengthFields (postRequest host path body).fields =
      [(ascii "Content-Length", decimal body.length)] := rfl
  have hdigits : (decimal body.length).all isDigit = true :=
    List.all_eq_true.mpr fun _ ↦ isDigit_of_mem_decimal
  unfold HttpRequest.contentLength
  rw [hfields]
  simp only
  rw [if_pos ⟨rfl, decimal_ne_nil _, hdigits⟩, decimalValue_decimal]

/-- Whether a server reads the request as it was meant is not up to the body. -/
theorem wellFormed_postRequest_iff {host path : Bytes} (hpath : path ≠ []) (body : Bytes) :
    (postRequest host path body).WellFormed ↔ Sendable host path := by
  have hothers : ∀ field ∈ (postRequest host path body).fields.tail,
      HttpRequest.FieldOk field := by
    intro field hfield
    simp only [postRequest, List.tail_cons, List.mem_cons, List.not_mem_nil, or_false] at hfield
    rcases hfield with rfl | rfl | rfl
    · exact ⟨by decide, rfl, rfl, rfl⟩
    · exact fieldOk_length _
    · exact ⟨by decide, rfl, rfl, rfl⟩
  constructor
  · intro hrequest
    obtain ⟨hvalue, htrimmed⟩ := (fieldOk_host_iff hothers).mp hrequest.fields
    exact ⟨htrimmed, hvalue, hrequest.target⟩
  · rintro ⟨htrimmed, hvalue, htarget⟩
    exact ⟨(by decide : ascii "POST" ≠ []), rfl, hpath, htarget,
      (fieldOk_host_iff hothers).mpr ⟨hvalue, htrimmed⟩,
      contentLength_postRequest host path body⟩

theorem sends_sendRequest {host path body : Bytes} {trace : List ClientEvent} {result : Unit}
    (hruns : (sendRequest host path body).Runs trace result) :
    (∀ event ∈ trace, Sends event.request) ∧
      sent trace = (postRequest host path body).render := by
  have hasks : (sendRequest host path body).AsksOnly Sends := by
    refine ⟨.print _, fun _ ↦ ⟨.print _, fun _ ↦ ⟨.print _, fun _ ↦ ⟨.print _, fun _ ↦ ?_⟩⟩⟩⟩
    exact ⟨.print _, fun _ ↦ ⟨.print _, fun _ ↦ trivial⟩⟩
  refine ⟨hasks.of_runs hruns, ?_⟩
  obtain ⟨_, _, rfl, _, _, rfl, _, _, rfl, _, _, rfl, _, _, rfl, _, _, rfl, rfl, -⟩ := hruns
  simp only [sent, bytesSent, HttpRequest.render, HttpRequest.renderStart,
    HttpRequest.renderFields, HttpRequest.renderField, postRequest, List.flatMap_cons,
    List.flatMap_nil, List.append_assoc, List.cons_append, List.append_nil]
  rfl

theorem hears_readBodyLoop (out : Bytes) (rounds room : ℕ) :
    (readBodyLoop out rounds room).AsksOnly Hears := by
  induction rounds generalizing out room with
  | zero => trivial
  | succ rounds ih =>
    unfold readBodyLoop
    split_ifs
    · trivial
    · refine Prog.asksOnly_bind (asksOnly_hears (asksOnly_awaitData _ _)) fun wait ↦ ?_
      cases wait with
      | closed => trivial
      | timedOut => trivial
      | ready avail =>
        simp only [Prog.ask_bind, Prog.pure_eq]
        refine Prog.asksOnly_call.mpr ⟨.readInto _, fun read ↦ ?_⟩
        split_ifs
        · trivial
        · exact ih _ _

section Listening

variable {α : Type}

theorem clientEvents_onKv {program : Prog KvCall KvAns α} {trace : List EnrollEvent} {result : α}
    (hruns : (onKv program).Runs trace result) : clientEvents trace = [] :=
  Prog.filterMap_part (fun _ ↦ rfl) hruns

theorem clientEvents_stop {trace : List EnrollEvent} {result : Unit}
    (hruns : (onClient (Prog.ask ClientCall.stop)).Runs trace result) :
    clientEvents trace = [⟨.stop, ()⟩] := by
  obtain ⟨_, rest, htrace, rfl, -⟩ := (runs_onClient hruns).1
  exact htrace

/-- After the request the device listens and closes the connection. -/
theorem hears_receive {rounds : ℕ} {trace : List EnrollEvent} {result : Bool}
    (hruns : (receive rounds).Runs trace result) :
    ∃ hearing, clientEvents trace = hearing ++ [⟨.stop, ()⟩] ∧
      ∀ event ∈ hearing, Hears event.request := by
  simp only [receive, Prog.ask_bind, Prog.runs_call] at hruns
  obtain ⟨line, later, rfl, hlater⟩ := hruns
  obtain ⟨headed, first, rest, rfl, hhead, hrest⟩ := Prog.runs_bind.mp hlater
  have hhearing := (asksOnly_hears (asksOnly_readHead rounds line)).of_runs (runs_onClient hhead).1
  change ∃ hearing, clientEvents (first ++ rest) = _ ∧ _
  rw [clientEvents_append]
  cases headed with
  | false =>
    obtain ⟨_, second, last, rfl, hstop, rfl, -⟩ := Prog.runs_bind.mp hrest
    rw [List.append_nil, clientEvents_stop hstop]
    exact ⟨_, rfl, hhearing⟩
  | true =>
    obtain ⟨body, second, rest, rfl, hbody, hrest⟩ := Prog.runs_bind.mp hrest
    obtain ⟨_, third, last, rfl, hstop, hlast⟩ := Prog.runs_bind.mp hrest
    rw [clientEvents_append, clientEvents_append, clientEvents_stop hstop, clientEvents_onKv hlast,
      List.append_nil, ← List.append_assoc]
    refine ⟨_, rfl, fun event hevent ↦ ?_⟩
    rcases List.mem_append.mp hevent with hinhead | hinbody
    · exact hhearing event hinhead
    · exact (hears_readBodyLoop _ _ _).of_runs (runs_onClient hbody).1 event hinbody

end Listening

/-- An exchange of a token is one exchange with the host in the URL, or keeps away from the
network. -/
theorem talk_of_doEnroll {enrollment : HttpEnrollment} {rounds : ℕ} {token : Bytes}
    {trace : List EnrollEvent} {result : Bool}
    (hruns : (enrollment.doEnroll rounds token).Runs trace result) :
    clientEvents trace = [] ∨ ∃ host port path,
      parseUrl enrollment.url 128 160 = some (host, port, path) ∧
      Talk enrollment.ca host port (postRequest host path (enrollment.requestBody token)).render
        (clientEvents trace) := by
  unfold doEnroll at hruns
  cases htarget : parseUrl enrollment.url 128 160 with
  | none =>
    rw [htarget] at hruns
    obtain ⟨rfl, -⟩ := hruns
    exact .inl rfl
  | some target =>
    obtain ⟨host, port, path⟩ := target
    rw [htarget] at hruns
    simp only at hruns
    split_ifs at hruns with hlong
    · obtain ⟨rfl, -⟩ := hruns
      exact .inl rfl
    · refine .inr ⟨host, port, path, rfl, ?_⟩
      obtain ⟨connected, first, rest, rfl, hopen, hrest⟩ := Prog.runs_bind.mp hruns
      have hopening : (connecting enrollment.ca host port).Runs (clientEvents first) connected :=
        (runs_onClient hopen).1
      rw [clientEvents_append]
      split_ifs at hrest with hconnected
      · obtain ⟨rfl, -⟩ := hrest
        rw [runs_connecting hopening]
        exact (List.append_nil _).symm ▸ Talk.refused hconnected
      · obtain ⟨_, second, last, rfl, hsend, hreceive⟩ := Prog.runs_bind.mp hrest
        obtain ⟨hsending, hsent⟩ := sends_sendRequest (runs_onClient hsend).1
        rw [clientEvents_append]
        exact talk_of_parts hopening (not_not.mp hconnected) hsending hsent
          (hears_receive hreceive)

/-- The token of a run: the one that was submitted, or without one what the store answered. -/
def Uses (submitted : Option Bytes) (trace : List EnrollEvent) (token : Bytes) : Prop :=
  submitted = some token ∨ (submitted = none ∨ submitted = some []) ∧
    ∃ seeded : ℕ × Bytes, ⟨.kv (.getBlob (ascii "enroll_token") kMaxToken), seeded⟩ ∈ trace ∧
      token = cString (zeroed kMaxToken seeded.2)

theorem uses_of_chooseToken {submitted : Option Bytes} {trace : List EnrollEvent} {token : Bytes}
    (hruns : (onKv (chooseToken submitted)).Runs trace token) (htoken : token ≠ []) :
    Uses submitted trace token := by
  unfold chooseToken at hruns
  have hseeded {events : List EnrollEvent}
      (hseed : ∃ (seeded : ℕ × Bytes) (rest : List EnrollEvent),
        events = ⟨.kv (.getBlob (ascii "enroll_token") kMaxToken), seeded⟩ :: rest ∧ rest = [] ∧
        token = if seeded.1 > 0 then cString (zeroed kMaxToken seeded.2) else []) :
      ∃ seeded : ℕ × Bytes,
        ⟨.kv (.getBlob (ascii "enroll_token") kMaxToken), seeded⟩ ∈ events ∧
          token = cString (zeroed kMaxToken seeded.2) := by
    obtain ⟨seeded, rest, rfl, -, hchosen⟩ := hseed
    split_ifs at hchosen with hsome
    · exact ⟨seeded, List.mem_cons_self, hchosen⟩
    · exact absurd hchosen htoken
  split at hruns
  · exact .inr ⟨.inl rfl, hseeded hruns⟩
  · exact .inr ⟨.inr rfl, hseeded hruns⟩
  · obtain ⟨-, rfl⟩ := hruns
    exact .inl rfl

/-- The request for an identity. Where no certificate pins the server, no connection is opened
unless the build asks for it, and a token leaves the device only in the body of one request, behind
its length. Whatever bytes the token has, a server reads this request as it was meant, with nothing
taken from what is behind it, exactly if host and path are `Sendable`. -/
theorem enrolling_request {enrollment : HttpEnrollment} {rounds : ℕ} {submitted : Option Bytes}
    {trace : List EnrollEvent} {result : Bool}
    (hruns : (enrollment.enroll rounds submitted).Runs trace result) :
    clientEvents trace = [] ∨ ∃ host port path token,
      parseUrl enrollment.url 128 160 = some (host, port, path) ∧
      (enrollment.ca ≠ [] ∨ enrollment.insecure = true) ∧ Uses submitted trace token ∧
      Talk enrollment.ca host port (postRequest host path (enrollment.requestBody token)).render
        (clientEvents trace) ∧
      ∀ rest, HttpRequest.parse
          ((postRequest host path (enrollment.requestBody token)).render ++ rest) =
        some (postRequest host path (enrollment.requestBody token), rest) ↔ Sendable host path := by
  obtain ⟨certified, first, rest, rfl, hfirst, hrest⟩ := Prog.runs_bind.mp hruns
  rw [clientEvents_append, clientEvents_onKv hfirst, List.nil_append]
  cases certified with
  | true =>
    obtain ⟨rfl, -⟩ := hrest
    exact .inl rfl
  | false =>
    simp only [Bool.false_eq_true, ↓reduceIte] at hrest
    obtain ⟨token, second, last, rfl, hchosen, hlast⟩ := Prog.runs_bind.mp hrest
    rw [clientEvents_append, clientEvents_onKv hchosen, List.nil_append]
    split_ifs at hlast with hnone hurl hunpinned
    · obtain ⟨rfl, -⟩ := hlast
      exact .inl rfl
    · obtain ⟨rfl, -⟩ := hlast
      exact .inl rfl
    · obtain ⟨rfl, -⟩ := hlast
      exact .inl rfl
    · rcases talk_of_doEnroll hlast with hquiet | ⟨host, port, path, hparse, htalk⟩
      · exact .inl hquiet
      · have hpath : path ≠ [] := by
          obtain ⟨scheme, -, parts, -, htaken⟩ := parseUrl_eq_some_iff.mp hparse
          exact parts.path_ne_nil_of_taken htaken
        have huses : Uses submitted (first ++ (second ++ last)) token := by
          refine (uses_of_chooseToken hchosen hnone).imp_right (And.imp_right ?_)
          rintro ⟨seeded, hmem, htoken⟩
          exact ⟨seeded, List.mem_append_right _ (List.mem_append_left _ hmem), htoken⟩
        have hpinned : enrollment.ca ≠ [] ∨ enrollment.insecure = true := by
          by_contra hneither
          rw [not_or, not_not, Bool.not_eq_true] at hneither
          exact hunpinned hneither
        refine .inr ⟨host, port, path, token, hparse, hpinned, huses, htalk, fun rest ↦ ?_⟩
        rw [HttpRequest.parse_render_iff, wellFormed_postRequest_iff hpath]

/-- A token with a `+` in it leaves in one request. -/
theorem enrolling_request_plus : ∃ host port path token,
    Uses (some (ascii "a+b/w==")) plusAttempt.1 token ∧
    Talk (ascii "ca") host port (postRequest host path (pinned.requestBody token)).render
      (clientEvents plusAttempt.1) := by
  rcases enrolling_request runs_plusAttempt with
    hquiet | ⟨host, port, path, token, -, -, huses, htalk, -⟩
  · exact absurd hquiet (by decide)
  · exact ⟨host, port, path, token, huses, htalk⟩

end HttpEnrollment

end LibreSwitch.Net
