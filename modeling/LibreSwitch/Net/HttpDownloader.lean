import LibreSwitch.Net.HttpEnrollment

/-!
# The downloader

`HttpDownloader` of `net/ota_impl.h`: a request over a plain or a secure client, the head of the
response, and the loop that hands the body to the sink chunk by chunk. It is a program over the
client and the sink. The head and the wait for data are those of `NetworkClient`.

`Streams` is what the sink was offered in a run: the bytes read, in order, and never more than are
missing. The loop over the body comes to its end within a number of calls and of milliseconds that
depends on the size alone (`spends_bodyLoop`).
-/

set_option autoImplicit false
set_option relaxedAutoImplicit false

namespace LibreSwitch.Net

open LibreSwitch.Library

/-- The calls of a download: on the plain or the secure client, on the sink, and for memory that the
source does not initialise. -/
inductive DownloadCall
  | client (secure : Bool) (request : ClientCall)
  | onChunk (data : Bytes)
  | stackBytes (size : ℕ)

/-- What they answer. -/
abbrev DownloadAns : DownloadCall → Type
  | .client _ request => ClientAns request
  | .onChunk _ => Bool
  | .stackBytes _ => Bytes

/-- A call of a download with its answer. -/
abbrev DownloadEvent := Prog.Event DownloadCall DownloadAns

/-- `HttpDownloader`; no bytes stand for a null pointer. -/
structure HttpDownloader where
  ca : Bytes := []

namespace HttpDownloader

open Prog (ask)

variable {α : Type}

/-- A part of a download that works on the connection. -/
def onClient (secure : Bool) (program : Prog ClientCall ClientAns α) :
    Prog DownloadCall DownloadAns α :=
  program.embed (.client secure) fun _ ↦ Equiv.refl _

/-- Whether the URL asks for TLS. -/
def isSecure (url : Bytes) : Bool := (ascii "https://").isPrefixOf url

/-- The part of `download` that takes apart what is behind the scheme. A pointer into the URL is
the rest of the text from there on, so that of two the longer one points further to the front. -/
def parseAuthority (p : Bytes) (port : UInt16) : Option (Bytes × UInt16 × Bytes) :=
  let slash := strchr 47 p
  let hostEnd := slash.getD []
  let (hlen, port) :=
    match strchr 58 p with
    | some colon =>
      if hostEnd.length < colon.length then
        (p.length - colon.length, UInt16.ofInt (atoi colon.tail))
      else (p.length - hostEnd.length, port)
    | none => (p.length - hostEnd.length, port)
  if hlen + 1 > 128 then none
  else
    match slash with
    | some path => if path.length + 1 > 256 then none else some (p.take hlen, port, path)
    | none => some (p.take hlen, port, ascii "/")

/-- The part of `download` that takes the URL apart: host, port and path. -/
def parseUrl (url : Bytes) : Option (Bytes × UInt16 × Bytes) :=
  if (ascii "https://").isPrefixOf url then parseAuthority (url.drop 8) 443
  else if (ascii "http://").isPrefixOf url then parseAuthority (url.drop 7) 80
  else none

/-- Pins the server if the connection is secure and a certificate is given, and connects. -/
def openConnection (downloader : HttpDownloader) (secure : Bool) (host : Bytes) (port : UInt16) :
    Prog ClientCall ClientAns ℤ := do
  if secure ∧ downloader.ca ≠ [] then ask (ClientCall.setCACert downloader.ca)
  ask (ClientCall.connect host port)

def sendRequest (host path : Bytes) : Prog ClientCall ClientAns Unit := do
  ask (ClientCall.print (ascii "GET "))
  ask (ClientCall.print path)
  ask (ClientCall.print (ascii " HTTP/1.1\r\n"))
  ask (ClientCall.print (ascii "Host: "))
  ask (ClientCall.print host)
  ask (ClientCall.print (ascii "\r\n"))
  ask (ClientCall.print (ascii "Connection: close\r\n\r\n"))

/-- The size of the buffer for the body. -/
def kBodyCap : ℕ := 1024

/-- The loop over the body, with the bytes handed over so far. It has no bound in the source: when
the rounds are used up it goes on for ever. -/
def bodyLoop (secure : Bool) (expectedSize : ℕ) : ℕ → ℕ → Prog DownloadCall DownloadAns Bool
  | 0, _ => .call (.client secure .unending) Empty.elim
  | rounds + 1, total =>
    if total < expectedSize then do
      match ← onClient secure (NetworkClient.awaitData 10 (NetworkClient.kIdleTimeoutMs / 10)) with
      | .closed => return total = expectedSize
      | .timedOut => return total = expectedSize
      | .ready avail =>
        let want := min (min avail kBodyCap) (expectedSize - total)
        let read ← ask (DownloadCall.client secure (.readInto want))
        if read.1 = [] then return total = expectedSize
        else
          let taken ← ask (DownloadCall.onChunk read.1)
          if !taken then return false
          else bodyLoop secure expectedSize rounds (total + read.1.length)
    else return total = expectedSize

/-- The part of `download` after the request was sent. -/
def receive (secure : Bool) (rounds : ℕ) (expectedSize : UInt32) :
    Prog DownloadCall DownloadAns Bool := do
  let line ← ask (DownloadCall.stackBytes NetworkClient.kLineCap)
  let headed ← onClient secure (NetworkClient.readHead rounds line)
  if !headed then
    onClient secure (ask ClientCall.stop)
    return false
  else
    let delivered ← bodyLoop secure expectedSize.toNat rounds 0
    onClient secure (ask ClientCall.stop)
    return delivered

/-- `HttpDownloader::download`. -/
def download (downloader : HttpDownloader) (rounds : ℕ) (url : Bytes) (expectedSize : UInt32) :
    Prog DownloadCall DownloadAns Bool :=
  match parseUrl url with
  | none => return false
  | some (host, port, path) => do
    let connected ← onClient (isSecure url) (downloader.openConnection (isSecure url) host port)
    if connected ≠ 1 then return false
    else
      onClient (isSecure url) (sendRequest host path)
      receive (isSecure url) rounds expectedSize

/-! ### The events of a download -/

/-- The calls of a download on the connection. -/
def clientEvents (trace : List DownloadEvent) : List (Prog.Event ClientCall ClientAns) :=
  trace.filterMap fun event ↦
    match event with
    | ⟨.client _ request, answer⟩ => some ⟨request, answer⟩
    | _ => none

/-- The bytes of the body that a download read. -/
def received (trace : List DownloadEvent) : Bytes := NetworkClient.received (clientEvents trace)

/-- The chunks that the sink was offered, and whether it took them. -/
def offered (trace : List DownloadEvent) : List (Bytes × Bool) :=
  trace.filterMap fun event ↦
    match event with
    | ⟨.onChunk data, taken⟩ => some (data, taken)
    | _ => none

section Events

variable (first second : List DownloadEvent)

@[simp] theorem clientEvents_append :
    clientEvents (first ++ second) = clientEvents first ++ clientEvents second :=
  List.filterMap_append

@[simp] theorem received_append :
    received (first ++ second) = received first ++ received second := by
  rw [received, clientEvents_append, NetworkClient.received_append]
  rfl

@[simp] theorem offered_append : offered (first ++ second) = offered first ++ offered second :=
  List.filterMap_append

end Events

/-- A part on the connection offers nothing, and its calls are a run of that part. -/
theorem runs_onClient {secure : Bool} {program : Prog ClientCall ClientAns α}
    {trace : List DownloadEvent} {result : α}
    (hruns : (onClient secure program).Runs trace result) :
    program.Runs (clientEvents trace) result ∧ offered trace = [] :=
  ⟨Prog.runs_part (fun _ ↦ rfl) hruns, Prog.filterMap_part (fun _ ↦ rfl) hruns⟩

/-! ### What the sink is offered -/

/-- The sink was offered the bytes that were read, never more than are missing, and if the download
succeeded none is missing and the sink took all of them. -/
structure Streams (missing : ℕ) (trace : List DownloadEvent) (delivered : Bool) : Prop where
  flatten_eq : ((offered trace).map Prod.fst).flatten = received trace
  length_le : (received trace).length ≤ missing
  whole : delivered = true →
    (received trace).length = missing ∧ ∀ chunk ∈ offered trace, chunk.2 = true

/-- A part of a run in which nothing of the body is read and nothing is offered. -/
structure Idle (trace : List DownloadEvent) : Prop where
  offered_eq : offered trace = []
  received_eq : received trace = []

theorem idle_nil : Idle [] := ⟨rfl, rfl⟩

theorem Idle.append {first second : List DownloadEvent} (hfirst : Idle first)
    (hsecond : Idle second) : Idle (first ++ second) := by
  constructor
  · rw [offered_append, hfirst.offered_eq, hsecond.offered_eq, List.append_nil]
  · rw [received_append, hfirst.received_eq, hsecond.received_eq, List.append_nil]

theorem Idle.append_streams {first second : List DownloadEvent} {missing : ℕ} {delivered : Bool}
    (hfirst : Idle first) (hsecond : Streams missing second delivered) :
    Streams missing (first ++ second) delivered := by
  have hoffered : offered (first ++ second) = offered second := by
    rw [offered_append, hfirst.offered_eq, List.nil_append]
  have hreceived : received (first ++ second) = received second := by
    rw [received_append, hfirst.received_eq, List.nil_append]
  exact ⟨by rw [hoffered, hreceived, hsecond.flatten_eq],
    by rw [hreceived]; exact hsecond.length_le,
    by rw [hoffered, hreceived]; exact hsecond.whole⟩

theorem Streams.append_idle {first second : List DownloadEvent} {missing : ℕ} {delivered : Bool}
    (hfirst : Streams missing first delivered) (hsecond : Idle second) :
    Streams missing (first ++ second) delivered := by
  have hoffered : offered (first ++ second) = offered first := by
    rw [offered_append, hsecond.offered_eq, List.append_nil]
  have hreceived : received (first ++ second) = received first := by
    rw [received_append, hsecond.received_eq, List.append_nil]
  exact ⟨by rw [hoffered, hreceived, hfirst.flatten_eq], by rw [hreceived]; exact hfirst.length_le,
    by rw [hoffered, hreceived]; exact hfirst.whole⟩

/-- Where nothing is read, a download can only succeed if nothing is missing. -/
theorem Idle.streams {trace : List DownloadEvent} (hidle : Idle trace) {missing : ℕ}
    {delivered : Bool} (hdelivered : delivered = true → missing = 0) :
    Streams missing trace delivered := by
  refine ⟨?_, ?_, fun htrue ↦ ?_⟩
  · rw [hidle.offered_eq, hidle.received_eq]
    rfl
  · rw [hidle.received_eq]
    exact Nat.zero_le _
  · rw [hidle.received_eq, hidle.offered_eq, hdelivered htrue]
    exact ⟨rfl, fun _ hchunk ↦ absurd hchunk List.not_mem_nil⟩

/-- The part on the connection that reads byte by byte. -/
theorem idle_onClient {secure : Bool} {program : Prog ClientCall ClientAns α}
    (hprogram : program.AsksOnly NetworkClient.Bytewise) {trace : List DownloadEvent} {result : α}
    (hruns : (onClient secure program).Runs trace result) : Idle trace :=
  ⟨(runs_onClient hruns).2, NetworkClient.received_of_asksOnly hprogram (runs_onClient hruns).1⟩

/-- A chunk that was read and offered. -/
def chunkEvents (secure : Bool) (want : ℕ) (read : { bytes : Bytes // bytes.length ≤ want })
    (taken : Bool) : List DownloadEvent :=
  [⟨.client secure (.readInto want), read⟩, ⟨.onChunk read.1, taken⟩]

/-- One more chunk in front of what a download streams. -/
theorem Streams.chunk {secure : Bool} {want missing : ℕ}
    {read : { bytes : Bytes // bytes.length ≤ want }} {trace : List DownloadEvent}
    {delivered : Bool} (hwant : want ≤ missing)
    (hstreams : Streams (missing - read.1.length) trace delivered) :
    Streams missing (chunkEvents secure want read true ++ trace) delivered := by
  have hoffered : offered (chunkEvents secure want read true ++ trace) =
      (read.1, true) :: offered trace := offered_append _ _
  have hreceived : received (chunkEvents secure want read true ++ trace) =
      read.1 ++ received trace := by
    rw [received_append]
    congr 1
    exact List.append_nil _
  have hread := read.2
  have hlength := hstreams.length_le
  refine ⟨?_, ?_, ?_⟩
  · rw [hoffered, hreceived, List.map_cons, List.flatten_cons, hstreams.flatten_eq]
  · rw [hreceived, List.length_append]
    omega
  · intro htrue
    obtain ⟨hall, htaken⟩ := hstreams.whole htrue
    rw [hoffered, hreceived, List.length_append, List.forall_mem_cons]
    exact ⟨by omega, rfl, htaken⟩

/-- A chunk that the sink refused. -/
theorem streams_refused {secure : Bool} {want missing : ℕ}
    {read : { bytes : Bytes // bytes.length ≤ want }} (hwant : want ≤ missing) :
    Streams missing (chunkEvents secure want read false) false := by
  have hoffered : offered (chunkEvents secure want read false) = [(read.1, false)] := rfl
  have hreceived : received (chunkEvents secure want read false) = read.1 := List.append_nil _
  have hread := read.2
  refine ⟨?_, ?_, nofun⟩
  · rw [hoffered, hreceived]
    exact List.append_nil _
  · rw [hreceived]
    omega

/-- What the loop over the body streams. -/
theorem streams_bodyLoop {secure : Bool} {expectedSize rounds total : ℕ}
    {trace : List DownloadEvent} {delivered : Bool} (htotal : total ≤ expectedSize)
    (hruns : (bodyLoop secure expectedSize rounds total).Runs trace delivered) :
    Streams (expectedSize - total) trace delivered := by
  have hended {total : ℕ} : decide (total = expectedSize) = true → expectedSize - total = 0 := by
    intro htrue
    have hall := of_decide_eq_true htrue
    omega
  induction rounds generalizing total trace with
  | zero => exact hruns.choose.elim
  | succ rounds ih =>
    unfold bodyLoop at hruns
    split_ifs at hruns with hmore
    · obtain ⟨wait, first, rest, rfl, hwait, hrest⟩ := Prog.runs_bind.mp hruns
      have hidle := idle_onClient ((NetworkClient.asksOnly_awaitData _ _).mono fun _ ↦
        NetworkClient.bytewise_of_listens) hwait
      cases wait with
      | closed | timedOut =>
        obtain ⟨rfl, rfl⟩ := hrest
        exact (hidle.append idle_nil).streams hended
      | ready avail =>
        refine hidle.append_streams ?_
        simp only [Prog.ask_bind, Prog.runs_call] at hrest
        obtain ⟨read, later, rfl, hlater⟩ := hrest
        have hwant : min (min avail kBodyCap) (expectedSize - total) ≤ expectedSize - total :=
          Nat.min_le_right _ _
        split_ifs at hlater with hnone
        · obtain ⟨rfl, rfl⟩ := hlater
          have hempty : Idle [⟨.client secure (.readInto (min (min avail kBodyCap)
              (expectedSize - total))), read⟩] := ⟨rfl, (List.append_nil _).trans hnone⟩
          exact hempty.streams hended
        · obtain ⟨taken, last, rfl, hlast⟩ := hlater
          cases taken with
          | false =>
            obtain ⟨rfl, rfl⟩ := hlast
            exact streams_refused hwant
          | true =>
            have hread := read.2
            have hlater := ih (by omega) hlast
            rw [← Nat.sub_sub] at hlater
            exact hlater.chunk hwant
    · obtain ⟨rfl, rfl⟩ := hruns
      exact idle_nil.streams hended

theorem asksOnly_openConnection (downloader : HttpDownloader) (secure : Bool) (host : Bytes)
    (port : UInt16) :
    (downloader.openConnection secure host port).AsksOnly NetworkClient.Bytewise := by
  unfold openConnection
  split_ifs
  · exact ⟨nofun, fun _ ↦ ⟨nofun, fun _ ↦ trivial⟩⟩
  · exact ⟨nofun, fun _ ↦ trivial⟩

theorem asksOnly_sendRequest (host path : Bytes) :
    (sendRequest host path).AsksOnly NetworkClient.Bytewise := by
  refine ⟨nofun, fun _ ↦ ⟨nofun, fun _ ↦ ⟨nofun, fun _ ↦ ⟨nofun, fun _ ↦ ⟨nofun, fun _ ↦ ?_⟩⟩⟩⟩⟩
  exact ⟨nofun, fun _ ↦ ⟨nofun, fun _ ↦ trivial⟩⟩

/-- Closing the connection. -/
theorem idle_stop {secure : Bool} {trace : List DownloadEvent} {result : Unit}
    (hruns : (onClient secure (ask ClientCall.stop)).Runs trace result) : Idle trace := by
  have hbytewise : (ask ClientCall.stop : Prog ClientCall ClientAns Unit).AsksOnly
      NetworkClient.Bytewise := ⟨nofun, fun _ ↦ trivial⟩
  exact idle_onClient hbytewise hruns

/-- What the part after the request streams. -/
theorem streams_receive {secure : Bool} {rounds : ℕ} {expectedSize : UInt32}
    {trace : List DownloadEvent} {delivered : Bool}
    (hruns : (receive secure rounds expectedSize).Runs trace delivered) :
    Streams expectedSize.toNat trace delivered := by
  simp only [receive, Prog.ask_bind, Prog.runs_call] at hruns
  obtain ⟨line, later, rfl, hlater⟩ := hruns
  obtain ⟨headed, first, rest, rfl, hhead, hrest⟩ := Prog.runs_bind.mp hlater
  have hline : Idle [⟨.stackBytes NetworkClient.kLineCap, line⟩] := ⟨rfl, rfl⟩
  have hidle := hline.append (idle_onClient ((NetworkClient.asksOnly_readHead rounds line).mono
    fun _ ↦ NetworkClient.bytewise_of_listens) hhead)
  rw [← List.singleton_append, ← List.append_assoc]
  cases headed with
  | false =>
    obtain ⟨_, second, last, rfl, hstop, rfl, rfl⟩ := Prog.runs_bind.mp hrest
    exact (hidle.append ((idle_stop hstop).append idle_nil)).streams
      fun htrue ↦ absurd htrue Bool.false_ne_true
  | true =>
    obtain ⟨value, second, rest, rfl, hbody, hrest⟩ := Prog.runs_bind.mp hrest
    obtain ⟨_, third, last, rfl, hstop, rfl, rfl⟩ := Prog.runs_bind.mp hrest
    exact hidle.append_streams
      ((streams_bodyLoop (Nat.zero_le _) hbody).append_idle ((idle_stop hstop).append idle_nil))

/-- What a download streams. -/
theorem streams_download {downloader : HttpDownloader} {rounds : ℕ} {url : Bytes}
    {expectedSize : UInt32} {trace : List DownloadEvent} {delivered : Bool}
    (hruns : (downloader.download rounds url expectedSize).Runs trace delivered) :
    Streams expectedSize.toNat trace delivered := by
  unfold download at hruns
  cases htarget : parseUrl url with
  | none =>
    rw [htarget] at hruns
    obtain ⟨rfl, rfl⟩ := hruns
    exact idle_nil.streams nofun
  | some target =>
    obtain ⟨host, port, path⟩ := target
    rw [htarget] at hruns
    obtain ⟨connected, first, rest, rfl, hopen, hrest⟩ := Prog.runs_bind.mp hruns
    have hidle := idle_onClient (downloader.asksOnly_openConnection _ host port) hopen
    split_ifs at hrest with hconnected
    · obtain ⟨rfl, rfl⟩ := hrest
      exact (hidle.append idle_nil).streams nofun
    · obtain ⟨_, second, rest, rfl, hsend, hreceive⟩ := Prog.runs_bind.mp hrest
      exact hidle.append_streams ((idle_onClient (asksOnly_sendRequest host path) hsend
        ).append_streams (streams_receive hreceive))

/-! ### How long the body takes -/

/-- What each call costs in milliseconds. -/
def delayMs : DownloadCall → ℕ
  | .client _ (.delay ms) => ms
  | _ => 0

/-- A wait costs what its idle rounds cost. -/
theorem spends_awaitData {cost : ClientCall → ℕ} {perRound idleMs : ℕ}
    (hround : cost .available + cost .connected + cost .available + cost (.delay idleMs) ≤
      perRound) (rounds : ℕ) :
    (NetworkClient.awaitData idleMs rounds).Spends cost (rounds * perRound) := by
  induction rounds with
  | zero => trivial
  | succ rounds ih =>
    have hbudget : perRound + rounds * perRound = (rounds + 1) * perRound := by ring
    have hrest : (Prog.call (.delay idleMs) fun _ ↦ NetworkClient.awaitData idleMs rounds).Spends
        cost (cost (.delay idleMs) + rounds * perRound) :=
      Prog.spends_call_add le_rfl fun _ ↦ ih
    rw [← hbudget]
    unfold NetworkClient.awaitData
    simp only [Prog.ask_bind, Prog.pure_eq]
    refine Prog.spends_call.mpr ⟨by omega, fun avail ↦ ?_⟩
    split_ifs
    · refine Prog.spends_call.mpr ⟨by omega, fun connected ↦ ?_⟩
      split_ifs
      · refine Prog.spends_call.mpr ⟨by omega, fun again ↦ ?_⟩
        split_ifs
        · trivial
        · exact hrest.mono (by omega)
      · exact hrest.mono (by omega)
    · trivial

/-- Every chunk costs a wait, a read and the work of the sink, and there is one wait more. -/
theorem spends_bodyLoop {cost : DownloadCall → ℕ} {secure : Bool} {perWait perChunk : ℕ}
    (hwait : (onClient secure (NetworkClient.awaitData 10
      (NetworkClient.kIdleTimeoutMs / 10))).Spends cost perWait)
    (hchunk : ∀ want data,
      cost (.client secure (.readInto want)) + cost (.onChunk data) ≤ perChunk)
    {expectedSize rounds total : ℕ} (hrounds : expectedSize - total < rounds) :
    (bodyLoop secure expectedSize rounds total).Spends cost
      ((expectedSize - total + 1) * (perWait + perChunk)) := by
  induction rounds generalizing total with
  | zero => exact absurd hrounds (Nat.not_lt_zero _)
  | succ rounds ih =>
    unfold bodyLoop
    split_ifs with hmore
    · have hbudget : (expectedSize - total + 1) * (perWait + perChunk) =
          perWait + (perChunk + (expectedSize - total) * (perWait + perChunk)) := by ring
      rw [hbudget]
      refine Prog.spends_bind hwait fun wait ↦ ?_
      cases wait with
      | closed | timedOut => trivial
      | ready avail =>
        have hnow := hchunk (min (min avail kBodyCap) (expectedSize - total))
        simp only [Prog.ask_bind, Prog.pure_eq]
        refine Prog.spends_call.mpr ⟨by have := hnow []; omega, fun read ↦ ?_⟩
        split_ifs with hnone
        · trivial
        · have hcost := hnow read.1
          refine Prog.spends_call.mpr ⟨by omega, fun taken ↦ ?_⟩
          cases taken with
          | false => trivial
          | true =>
            have hpos := List.length_pos_of_ne_nil hnone
            have hread := read.2
            have hless : expectedSize - (total + read.1.length) + 1 ≤ expectedSize - total := by
              omega
            have hscaled := Nat.mul_le_mul_right (perWait + perChunk) hless
            have hlater := @ih (total + read.1.length) (by omega)
            exact hlater.mono (by omega)
    · trivial

/-- What marks a loop that goes on for ever. -/
def endless : DownloadCall → ℕ
  | .client _ .unending => 1
  | _ => 0

/-- With more rounds than bytes are missing, the loop over the body comes to its end, within a
number of calls and of milliseconds. -/
theorem ends_bodyLoop {secure : Bool} {expectedSize rounds : ℕ} (hrounds : expectedSize < rounds) :
    (bodyLoop secure expectedSize rounds 0).AsksOnly
        (fun request ↦ request ≠ .client secure .unending) ∧
      (bodyLoop secure expectedSize rounds 0).Spends (fun _ ↦ 1)
        ((expectedSize + 1) * (NetworkClient.kIdleTimeoutMs / 10 * 4 + 2)) ∧
      (bodyLoop secure expectedSize rounds 0).Spends delayMs
        ((expectedSize + 1) * NetworkClient.kIdleTimeoutMs) := by
  have hwait (cost : DownloadCall → ℕ) {perRound : ℕ}
      (hround : cost (.client secure .available) + cost (.client secure .connected) +
        cost (.client secure .available) + cost (.client secure (.delay 10)) ≤ perRound) :
      (onClient secure (NetworkClient.awaitData 10 (NetworkClient.kIdleTimeoutMs / 10))).Spends cost
        (NetworkClient.kIdleTimeoutMs / 10 * perRound) :=
    Prog.spends_embed (spends_awaitData hround _)
  have hless : expectedSize - 0 < rounds := hrounds
  refine ⟨?_, ?_, ?_⟩
  · have hfree := spends_bodyLoop (hwait endless le_rfl) (fun _ _ ↦ le_rfl) hless
    refine Prog.AsksOnly.mono (Prog.Spends.asksOnly hfree) fun request hnone hloop ↦ ?_
    rw [hloop] at hnone
    exact absurd hnone Nat.one_ne_zero
  · exact spends_bodyLoop (hwait (fun _ ↦ 1) le_rfl) (fun _ _ ↦ le_rfl) hless
  · exact spends_bodyLoop (hwait delayMs le_rfl) (fun _ _ ↦ le_rfl) hless

end HttpDownloader

end LibreSwitch.Net
