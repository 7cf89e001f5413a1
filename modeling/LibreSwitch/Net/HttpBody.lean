import LibreSwitch.Net.HttpFraming

/-!
# What is read of the body

Behind the head of a response the downloader hands the sink what is unread, up to the expected size,
and the enrollment reads it into its buffer for the body, up to the size of that. Both depend only
on the bytes and not on their segments (`wp_bodyLoop`, `wp_readBodyLoop`), so they see exactly the
body wherever the head was read exactly.

`framing_exact_iff` puts this together: a response with status 200 is seen exactly if and only if
no line of its head splits and, for the enrollment, the body fits the buffer. A longer body is cut.
-/

set_option autoImplicit false
set_option relaxedAutoImplicit false

namespace LibreSwitch.Net

open LibreSwitch.Library LibreSwitch.Platform

namespace HttpBody

open NetworkClient Delivery HttpFraming

variable {α : Type}

/-! ### A download under way -/

/-- The connection of a download, and the bytes that its sink took. -/
structure Download where
  net : Delivery
  sink : Bytes := []

namespace Download

/-- An answered call of a download, with a sink that takes every chunk. -/
def Answers (world : Download) : (request : DownloadCall) → DownloadAns request → Download → Prop
  | .client _ request, answer, world' =>
    world.net.Answers request answer world'.net ∧ world'.sink = world.sink
  | .onChunk data, taken, world' =>
    taken = true ∧ world' = { world with sink := world.sink ++ data }
  | .stackBytes size, bytes, world' => bytes.length = size ∧ world' = world

/-- The connection and the sink around a download. -/
def setting : Setting DownloadCall DownloadAns Download where
  answers := Answers

/-- No loop goes on for ever. -/
def guard (_ : Download) (request : DownloadCall) : Prop :=
  ∀ secure, request ≠ .client secure .unending

variable {secure : Bool} {world : Download}

/-- A part on the connection leaves the sink as it is. -/
theorem wp_onClient {program : Prog ClientCall ClientAns α} {post : α → Delivery → Prop}
    (hwp : Delivery.setting.wp Delivery.guard program post world.net) :
    setting.wp guard (HttpDownloader.onClient secure program)
      (fun value last ↦ post value last.net ∧ last.sink = world.sink) world := by
  refine Setting.wp_embed (fun _ _ _ _ hanswers ↦ hanswers)
    (fun _ _ hinterfere ↦ absurd hinterfere (Setting.quiet_alone _ _)) ?_ hwp
  rintro _ request hrequest _ hloop
  injection hloop with _ hunending
  exact hrequest hunending

/-- The sink took the first bytes of a text, as many as are missing of the expected size, and the
download succeeded if there were so many. -/
structure HandsOver (sink text : Bytes) (missing : ℕ) (delivered : Bool) (last : Download) :
    Prop where
  sink_eq : last.sink = sink ++ text.take missing
  delivered_iff : delivered = true ↔ missing ≤ text.length

/-- At the end of a text, or of what is missing, a download stops. -/
theorem handsOver_of_end {text : Bytes} {expectedSize total : ℕ} (htotal : total ≤ expectedSize)
    (hend : text = [] ∨ ¬ total < expectedSize) :
    HandsOver world.sink text (expectedSize - total) (decide (total = expectedSize)) world := by
  rcases hend with rfl | hnone
  · refine ⟨by rw [List.take_nil, List.append_nil], ?_⟩
    rw [decide_eq_true_iff, List.length_nil]
    omega
  · have hmissing : expectedSize - total = 0 := Nat.sub_eq_zero_of_le (not_lt.mp hnone)
    refine ⟨by rw [hmissing, List.take_zero, List.append_nil], ?_⟩
    rw [decide_eq_true_iff]
    omega

/-- One more chunk in front of what is handed over. -/
theorem HandsOver.chunk {sink text read rest : Bytes} {missing : ℕ} {delivered : Bool}
    {last : Download} (hlast : HandsOver (sink ++ read) rest (missing - read.length) delivered last)
    (htext : text = read ++ rest) (hfits : read.length ≤ missing) :
    HandsOver sink text missing delivered last := by
  refine ⟨?_, hlast.delivered_iff.trans ?_⟩
  · rw [hlast.sink_eq, htext, List.take_append, List.take_of_length_le hfits, List.append_assoc]
  · rw [htext, List.length_append]
    omega

/-- The loop over the body hands over what is unread. -/
theorem wp_bodyLoop {expectedSize rounds total : ℕ} (htotal : total ≤ expectedSize)
    (hlive : world.net.Live) (hrounds : world.net.unread.length < rounds) :
    setting.wp guard (HttpDownloader.bodyLoop secure expectedSize rounds total)
      (HandsOver world.sink world.net.unread (expectedSize - total)) world := by
  induction rounds generalizing total world with
  | zero => exact absurd hrounds (Nat.not_lt_zero _)
  | succ rounds ih =>
    unfold HttpDownloader.bodyLoop
    split_ifs with hmore
    · apply Setting.wp_bind
      refine Setting.wp_mono ?_ (wp_onClient (wp_awaitBody hlive))
      rintro wait waited ⟨hfound, hsink⟩
      rw [← hsink]
      cases wait with
      | closed => exact Setting.quiet_alone.wp_ret_iff.mpr (handsOver_of_end htotal (.inl hfound.2))
      | timedOut =>
        exact Setting.quiet_alone.wp_ret_iff.mpr (handsOver_of_end htotal (.inl hfound.2))
      | ready avail =>
        obtain ⟨hsame, harrived, havail⟩ := hfound
        have hwant : 0 < min (min avail HttpDownloader.kBodyCap) (expectedSize - total) :=
          lt_min (lt_min havail (by decide)) (Nat.sub_pos_of_lt hmore)
        simp only [Prog.ask_bind, Prog.pure_eq]
        refine Setting.quiet_alone.wp_call_iff.mpr
          ⟨fun _ hloop ↦ ClientCall.noConfusion (DownloadCall.client.inj hloop).2, ?_⟩
        rintro read after ⟨hanswers, hafter⟩
        have hread := chunkRead_of_answers hanswers hsame.live harrived hwant
        have hfits : read.1.length ≤ expectedSize - total := read.2.trans (Nat.min_le_right _ _)
        have hpos := List.length_pos_of_ne_nil hread.ne_nil
        have hunread : world.net.unread = read.1 ++ after.net.unread :=
          hsame.unread_eq.symm.trans hread.unread_eq
        have hlength := congrArg List.length hunread
        rw [List.length_append] at hlength
        rw [if_neg hread.ne_nil]
        refine Setting.quiet_alone.wp_call_iff.mpr
          ⟨fun _ hloop ↦ DownloadCall.noConfusion hloop, ?_⟩
        rintro taken offered ⟨rfl, rfl⟩
        rw [← hafter]
        refine Setting.wp_mono (fun delivered last hlast ↦ ?_)
          (@ih { after with sink := after.sink ++ read.1 } (total + read.1.length) (by omega)
            hread.live (by simp only; omega))
        rw [← Nat.sub_sub] at hlast
        exact hlast.chunk hunread hfits
    · exact Setting.quiet_alone.wp_ret_iff.mpr (handsOver_of_end htotal (.inr hmore))

/-- After the request the sink is handed what the head leaves unread. -/
theorem wp_receive {response : OkResponse} {leftover : Bytes}
    (hstop : stop response.body (response.status.length + 1) response.lines = some leftover)
    {rounds : ℕ} (hrounds : response.bytes.length < rounds)
    (hbrings : Brings world.net response.bytes) {expectedSize : UInt32} :
    setting.wp guard (HttpDownloader.receive secure rounds expectedSize)
      (HandsOver world.sink leftover expectedSize.toNat) world := by
  simp only [HttpDownloader.receive, Prog.ask_bind]
  refine Setting.quiet_alone.wp_call_iff.mpr ⟨fun _ hloop ↦ DownloadCall.noConfusion hloop, ?_⟩
  rintro line asked ⟨hline, rfl⟩
  apply Setting.wp_bind
  refine Setting.wp_mono ?_
    (wp_onClient (wp_readHead hstop hline hrounds hbrings.live hbrings.unread_eq))
  rintro headed behind ⟨hheaded, hsink⟩
  have hheadedTrue : headed = true := hheaded.headed
  rw [hheadedTrue]
  simp only [Bool.not_true, Bool.false_eq_true, ↓reduceIte]
  apply Setting.wp_bind
  have hleft : behind.net.unread.length < rounds := by
    rw [hheaded.unread_eq]
    exact (OkResponse.length_le_of_stop hstop).trans_lt hrounds
  refine Setting.wp_mono ?_ (wp_bodyLoop (Nat.zero_le _) hheaded.live hleft)
  intro delivered after hhanded
  rw [hheaded.unread_eq, Nat.sub_zero, hsink] at hhanded
  apply Setting.wp_bind
  refine Setting.wp_mono (fun _ last hlast ↦ ?_) (wp_onClient (wp_stop after.net))
  refine Setting.quiet_alone.wp_ret_iff.mpr ⟨?_, hhanded.delivered_iff⟩
  rw [hlast.2, hhanded.sink_eq]

theorem announces_sendRequest (host path : Bytes) :
    (HttpDownloader.sendRequest host path).AsksOnly Announces := by
  refine ⟨.print _, fun _ ↦ ⟨.print _, fun _ ↦ ⟨.print _, fun _ ↦ ⟨.print _, fun _ ↦ ?_⟩⟩⟩⟩
  exact ⟨.print _, fun _ ↦ ⟨.print _, fun _ ↦ ⟨.print _, fun _ ↦ trivial⟩⟩⟩

/-- A download hands the sink what the head leaves unread, up to the expected size. -/
theorem wp_download {response : OkResponse} {leftover : Bytes}
    (hstop : stop response.body (response.status.length + 1) response.lines = some leftover)
    {rounds : ℕ} (hrounds : response.bytes.length < rounds)
    (hbrings : Brings world.net response.bytes) {downloader : HttpDownloader} {url : Bytes}
    (hurl : (HttpDownloader.parseUrl url).isSome) {expectedSize : UInt32} :
    setting.wp guard (downloader.download rounds url expectedSize)
      (HandsOver world.sink leftover expectedSize.toNat) world := by
  obtain ⟨⟨host, port, path⟩, htarget⟩ := Option.isSome_iff_exists.mp hurl
  unfold HttpDownloader.download
  rw [htarget]
  apply Setting.wp_bind
  refine Setting.wp_mono ?_ (wp_onClient wp_connect)
  rintro connected opened ⟨⟨rfl, hopened⟩, hopenedSink⟩
  simp only [ne_eq, not_true_eq_false, ↓reduceIte]
  apply Setting.wp_bind
  refine Setting.wp_mono ?_ (wp_onClient (wp_of_announces (announces_sendRequest host path) _))
  rintro _ sent ⟨hsent, hsentSink⟩
  rw [hopened] at hsent
  rw [← hopenedSink, ← hsentSink]
  rw [← hsent] at hbrings
  exact wp_receive hstop hrounds hbrings

/-- Where everything has arrived, every call is answered. -/
theorem exists_answers (hcoming : world.net.coming = []) {request : DownloadCall}
    (hguard : guard world request) :
    ∃ answer world', setting.answers world request answer world' ∧ world'.net.coming = [] := by
  cases request with
  | client secure request =>
    have hrequest : Delivery.guard world.net request := fun hunending ↦
      hguard secure (congrArg _ hunending)
    obtain ⟨answer, net, hanswers, hnet⟩ := HttpFraming.exists_answers hcoming hrequest
    exact ⟨answer, { world with net := net }, ⟨hanswers, rfl⟩, hnet⟩
  | onChunk data => exact ⟨true, _, ⟨rfl, rfl⟩, hcoming⟩
  | stackBytes size => exact ⟨List.replicate size 0, world, ⟨List.length_replicate, rfl⟩, hcoming⟩

end Download

/-- However the response comes, a download of it hands the sink the first bytes of the body, as many
as are expected, and succeeds if and only if there are so many. -/
def DownloadExact (response : OkResponse) : Prop :=
  ∀ (downloader : HttpDownloader) (rounds : ℕ) (url : Bytes) (expectedSize : UInt32)
    (delivery : Delivery), (HttpDownloader.parseUrl url).isSome →
      response.bytes.length < rounds → Brings delivery response.bytes →
        Download.setting.wp Download.guard (downloader.download rounds url expectedSize)
          (fun delivered last ↦ last.sink = response.body.take expectedSize.toNat ∧
            (delivered = true ↔ expectedSize.toNat ≤ response.body.length)) { net := delivery }

theorem downloadExact_of_whole {response : OkResponse} (hwhole : Whole response) :
    DownloadExact response := by
  intro downloader rounds url expectedSize delivery hurl hrounds hbrings
  have hnet : Brings ({ net := delivery } : Download).net response.bytes := hbrings
  exact Setting.wp_mono (fun _ _ hlast ↦ ⟨hlast.sink_eq, hlast.delivered_iff⟩)
    (Download.wp_download (stop_response_of_whole hwhole) hrounds hnet hurl)

/-- An exact download shows of what the head leaves unread what it shows of the body. -/
theorem DownloadExact.take_eq {response : OkResponse} (hexact : DownloadExact response)
    {leftover : Bytes}
    (hstop : stop response.body (response.status.length + 1) response.lines = some leftover)
    (expectedSize : UInt32) :
    leftover.take expectedSize.toNat = response.body.take expectedSize.toNat := by
  have hurl : (HttpDownloader.parseUrl (ascii "http://a/")).isSome := by decide
  have hbrings : Brings ({ net := arrivedAll response.bytes } : Download).net response.bytes :=
    brings_arrivedAll response.bytes
  have hsink := Setting.wp_and
    (Download.wp_download hstop (Nat.lt_succ_self _) hbrings hurl)
    (hexact {} _ _ expectedSize _ hurl (Nat.lt_succ_self _) hbrings)
  obtain ⟨delivered, last, hleft, hbody, -⟩ := Setting.exists_of_wp
    (fun _ _ hcoming hguard ↦ Download.exists_answers hcoming hguard) rfl hsink
  exact hleft.sink_eq.symm.trans hbody

/-! ### An enrollment under way -/

/-- The connection of an enrollment, and its calls on the store. -/
structure Enrolling where
  net : Delivery
  kv : List KvEvent := []

namespace Enrolling

/-- An answered call of an enrollment, with a store that answers anything. -/
def Answers (world : Enrolling) : (request : EnrollCall) → EnrollAns request → Enrolling → Prop
  | .kv request, answer, world' => world' = { world with kv := world.kv ++ [⟨request, answer⟩] }
  | .client request, answer, world' =>
    world.net.Answers request answer world'.net ∧ world'.kv = world.kv
  | .stackBytes size, bytes, world' => bytes.length = size ∧ world' = world

/-- The connection and the store around an enrollment. -/
def setting : Setting EnrollCall EnrollAns Enrolling where
  answers := Answers

/-- No loop goes on for ever. -/
def guard (_ : Enrolling) (request : EnrollCall) : Prop := request ≠ .client .unending

variable {world : Enrolling}

/-- A part on the connection leaves the store alone. -/
theorem wp_onClient {program : Prog ClientCall ClientAns α} {post : α → Delivery → Prop}
    (hwp : Delivery.setting.wp Delivery.guard program post world.net) :
    setting.wp guard (HttpEnrollment.onClient program)
      (fun value last ↦ post value last.net ∧ last.kv = world.kv) world := by
  refine Setting.wp_embed (fun _ _ _ _ hanswers ↦ hanswers)
    (fun _ _ hinterfere ↦ absurd hinterfere (Setting.quiet_alone _ _)) ?_ hwp
  intro _ request hrequest hloop
  injection hloop with hunending
  exact hrequest hunending

/-- A part on the store leaves the connection alone, and its calls are a run of that part. -/
theorem wp_onKv (program : Prog KvCall KvAns α) :
    setting.wp guard (HttpEnrollment.onKv program)
      (fun value last ↦
        (∃ trace, program.Runs trace value ∧ last.kv = world.kv ++ trace) ∧
          last.net = world.net) world := by
  refine Setting.wp_embed ?_ (fun _ _ hinterfere ↦ absurd hinterfere (Setting.quiet_alone _ _))
    (fun _ _ _ hloop ↦ EnrollCall.noConfusion hloop) (Setting.wp_recording program world.kv)
  rintro before request answer _ rfl
  exact ⟨rfl, rfl⟩

end Enrolling

/-- The buffer holds what it held before and the first bytes that were unread, as many as there was
room for. -/
structure Fills (delivery : Delivery) (out : Bytes) (room : ℕ) (body : Bytes) (last : Delivery) :
    Prop where
  body_eq : body = out ++ delivery.unread.take room
  taken_eq : last.taken = delivery.taken ++ delivery.unread.take room

/-- Nothing is read where there is nothing, or no room. -/
theorem fills_of_end {delivery last : Delivery} {out : Bytes} {room : ℕ}
    (hend : delivery.unread = [] ∨ room = 0) (htaken : last.taken = delivery.taken) :
    Fills delivery out room out last := by
  have hnone : delivery.unread.take room = [] := by
    rcases hend with hunread | rfl
    · rw [hunread, List.take_nil]
    · exact List.take_zero
  exact ⟨by rw [hnone, List.append_nil], by rw [hnone, List.append_nil, htaken]⟩

/-- One more chunk in front of what is read. -/
theorem Fills.chunk {delivery waited after last : Delivery} {out read body : Bytes} {room : ℕ}
    (hlast : Fills after (out ++ read) (room - read.length) body last)
    (hsame : Same delivery waited) (hread : ChunkRead waited read after)
    (hfits : read.length ≤ room) : Fills delivery out room body last := by
  have htake := hread.take_eq hfits
  rw [hsame.unread_eq] at htake
  refine ⟨?_, ?_⟩
  · rw [hlast.body_eq, htake, List.append_assoc]
  · rw [hlast.taken_eq, hread.taken_eq, hsame.taken_eq, htake, List.append_assoc]

/-- The loop over the body puts what is unread into the buffer. -/
theorem wp_readBodyLoop {out : Bytes} {rounds room : ℕ} (hrounds : room ≤ rounds)
    {delivery : Delivery} (hlive : delivery.Live) :
    Delivery.setting.wp Delivery.guard (HttpEnrollment.readBodyLoop out rounds room)
      (Fills delivery out room) delivery := by
  induction rounds generalizing out room delivery with
  | zero =>
    exact Setting.quiet_alone.wp_ret_iff.mpr (fills_of_end (.inr (Nat.le_zero.mp hrounds)) rfl)
  | succ rounds ih =>
    unfold HttpEnrollment.readBodyLoop
    split_ifs with hroom
    · exact Setting.quiet_alone.wp_ret_iff.mpr (fills_of_end (.inr hroom) rfl)
    · apply Setting.wp_bind
      refine Setting.wp_mono ?_ (wp_awaitBody hlive)
      intro wait waited hfound
      cases wait with
      | closed =>
        exact Setting.quiet_alone.wp_ret_iff.mpr
          (fills_of_end (.inl hfound.2) hfound.1.taken_eq)
      | timedOut =>
        exact Setting.quiet_alone.wp_ret_iff.mpr
          (fills_of_end (.inl hfound.2) hfound.1.taken_eq)
      | ready avail =>
        obtain ⟨hsame, harrived, havail⟩ := hfound
        have hwant : 0 < min avail room := lt_min havail (Nat.pos_of_ne_zero hroom)
        simp only [Prog.ask_bind, Prog.pure_eq]
        refine Setting.quiet_alone.wp_call_iff.mpr
          ⟨fun hloop ↦ ClientCall.noConfusion hloop, fun read after hanswers ↦ ?_⟩
        have hread := chunkRead_of_answers hanswers hsame.live harrived hwant
        have hfits : read.1.length ≤ room := read.2.trans (Nat.min_le_right _ _)
        have hpos := List.length_pos_of_ne_nil hread.ne_nil
        rw [if_neg hread.ne_nil]
        exact Setting.wp_mono (fun _ _ hlast ↦ hlast.chunk hsame hread hfits)
          (@ih (out ++ read.1) (room - read.1.length) (by omega) after hread.live)

namespace Enrolling

variable {world : Enrolling}

/-- The buffer holds a text, and the store saw an exchange of it. -/
structure Parses (text : Bytes) (result : Bool) (last : Enrolling) : Prop where
  taken_eq : last.net.taken = text
  exchanged : HttpEnrollment.Exchanged text last.kv result

/-- After the request the enrollment parses what the head leaves unread, as much as fits. -/
theorem wp_receive {response : OkResponse} {leftover : Bytes}
    (hstop : stop response.body (response.status.length + 1) response.lines = some leftover)
    {rounds : ℕ} (hrounds : response.bytes.length < rounds)
    (hbrings : Brings world.net response.bytes) (hkv : world.kv = []) :
    setting.wp guard (HttpEnrollment.receive rounds)
      (Parses (leftover.take (EnrollmentResponseCodec.kMaxResponse - 1))) world := by
  simp only [HttpEnrollment.receive, Prog.ask_bind]
  refine Setting.quiet_alone.wp_call_iff.mpr ⟨fun hloop ↦ EnrollCall.noConfusion hloop, ?_⟩
  rintro line asked ⟨hline, rfl⟩
  apply Setting.wp_bind
  refine Setting.wp_mono ?_
    (wp_onClient (wp_readHead hstop hline hrounds hbrings.live hbrings.unread_eq))
  rintro headed behind ⟨hheaded, hbehind⟩
  have hheadedTrue : headed = true := hheaded.headed
  rw [hheadedTrue]
  simp only [Bool.not_true, Bool.false_eq_true, ↓reduceIte]
  apply Setting.wp_bind
  refine Setting.wp_mono ?_ (wp_onClient (wp_readBodyLoop le_rfl hheaded.live))
  rintro body after ⟨hfills, hafter⟩
  obtain ⟨rfl, htaken⟩ := hfills
  rw [hheaded.unread_eq, hheaded.taken_eq, hbrings.taken_eq, List.nil_append] at htaken
  rw [hheaded.unread_eq, List.nil_append]
  apply Setting.wp_bind
  refine Setting.wp_mono ?_ (wp_onClient (wp_stop after.net))
  rintro _ stopped ⟨hstopped, hstoppedKv⟩
  refine Setting.wp_mono ?_ (wp_onKv _)
  rintro result last ⟨⟨trace, hruns, hlastKv⟩, hlast⟩
  refine ⟨by rw [hlast, hstopped, htaken], ?_⟩
  rw [hlastKv, hstoppedKv, hafter, hbehind, hkv, List.nil_append]
  exact HttpEnrollment.exchanged_of_runs hruns

theorem announces_sendRequest (host path body : Bytes) :
    (HttpEnrollment.sendRequest host path body).AsksOnly Announces := by
  refine ⟨.print _, fun _ ↦ ⟨.print _, fun _ ↦ ⟨.print _, fun _ ↦ ⟨.print _, fun _ ↦ ?_⟩⟩⟩⟩
  exact ⟨.print _, fun _ ↦ ⟨.print _, fun _ ↦ trivial⟩⟩

/-- An enrollment parses what the head leaves unread, as much as fits its buffer. -/
theorem wp_doEnroll {response : OkResponse} {leftover : Bytes}
    (hstop : stop response.body (response.status.length + 1) response.lines = some leftover)
    {rounds : ℕ} (hrounds : response.bytes.length < rounds)
    (hbrings : Brings world.net response.bytes) (hkv : world.kv = []) {enrollment : HttpEnrollment}
    {token : Bytes} (hurl : (HttpEnrollment.parseUrl enrollment.url 128 160).isSome)
    (hbody : (enrollment.requestBody token).length < 256) :
    setting.wp guard (enrollment.doEnroll rounds token)
      (Parses (leftover.take (EnrollmentResponseCodec.kMaxResponse - 1))) world := by
  obtain ⟨⟨host, port, path⟩, htarget⟩ := Option.isSome_iff_exists.mp hurl
  unfold HttpEnrollment.doEnroll
  rw [htarget]
  simp only
  rw [if_neg (not_le.mpr hbody)]
  apply Setting.wp_bind
  refine Setting.wp_mono ?_ (wp_onClient wp_connect)
  rintro connected opened ⟨⟨rfl, hopened⟩, hopenedKv⟩
  simp only [ne_eq, not_true_eq_false, ↓reduceIte]
  apply Setting.wp_bind
  refine Setting.wp_mono ?_ (wp_onClient (wp_of_announces (announces_sendRequest host path _) _))
  rintro _ sent ⟨hsent, hsentKv⟩
  rw [← hopened, ← hsent] at hbrings
  exact wp_receive hstop hrounds hbrings (hsentKv.trans (hopenedKv.trans hkv))

/-- Where everything has arrived, every call is answered. -/
theorem exists_answers (hcoming : world.net.coming = []) {request : EnrollCall}
    (hguard : guard world request) :
    ∃ answer world', setting.answers world request answer world' ∧ world'.net.coming = [] := by
  cases request with
  | kv request =>
    cases request with
    | setBlob key data => exact ⟨true, _, rfl, hcoming⟩
    | getBlob key bufLen => exact ⟨(0, []), _, rfl, hcoming⟩
    | erase key => exact ⟨true, _, rfl, hcoming⟩
  | client request =>
    have hrequest : Delivery.guard world.net request := fun hunending ↦
      hguard (congrArg _ hunending)
    obtain ⟨answer, net, hanswers, hnet⟩ := HttpFraming.exists_answers hcoming hrequest
    exact ⟨answer, { world with net := net }, ⟨hanswers, rfl⟩, hnet⟩
  | stackBytes size => exact ⟨List.replicate size 0, world, ⟨List.length_replicate, rfl⟩, hcoming⟩

end Enrolling

/-- However the response comes, an enrollment reads the body and nothing else into its buffer, and
does with it what an exchange of the body does. -/
def EnrollExact (response : OkResponse) : Prop :=
  ∀ (enrollment : HttpEnrollment) (rounds : ℕ) (token : Bytes) (delivery : Delivery),
    (HttpEnrollment.parseUrl enrollment.url 128 160).isSome →
      (enrollment.requestBody token).length < 256 →
        response.bytes.length < rounds → Brings delivery response.bytes →
          Enrolling.setting.wp Enrolling.guard (enrollment.doEnroll rounds token)
            (fun result last ↦ last.net.taken = response.body ∧
              HttpEnrollment.Exchanged response.body last.kv result) { net := delivery }

theorem enrollExact_of_whole {response : OkResponse} (hwhole : Whole response)
    (hbody : response.body.length < EnrollmentResponseCodec.kMaxResponse) :
    EnrollExact response := by
  intro enrollment rounds token delivery hurl hrequest hrounds hbrings
  have hnet : Brings ({ net := delivery } : Enrolling).net response.bytes := hbrings
  have hstop := stop_response_of_whole hwhole
  have henroll := Enrolling.wp_doEnroll hstop hrounds hnet rfl hurl hrequest
  rw [List.take_of_length_le (Nat.le_sub_one_of_lt hbody)] at henroll
  exact Setting.wp_mono (fun _ _ hlast ↦ ⟨hlast.taken_eq, hlast.exchanged⟩) henroll

/-- What an exact enrollment has in its buffer is the body. -/
theorem EnrollExact.take_eq {response : OkResponse} (hexact : EnrollExact response)
    {leftover : Bytes}
    (hstop : stop response.body (response.status.length + 1) response.lines = some leftover) :
    leftover.take (EnrollmentResponseCodec.kMaxResponse - 1) = response.body := by
  let enrollment : HttpEnrollment := { url := ascii "http://a/", hw := [], hint := [] }
  have hurl : (HttpEnrollment.parseUrl enrollment.url 128 160).isSome := by decide
  have hrequest : (enrollment.requestBody []).length < 256 := by decide
  have hbrings : Brings ({ net := arrivedAll response.bytes } : Enrolling).net response.bytes :=
    brings_arrivedAll response.bytes
  have htaken := Setting.wp_and
    (Enrolling.wp_doEnroll hstop (Nat.lt_succ_self _) hbrings rfl hurl hrequest)
    (hexact enrollment _ [] _ hurl hrequest (Nat.lt_succ_self _) hbrings)
  obtain ⟨result, last, hleft, hbody, -⟩ := Setting.exists_of_wp
    (fun _ _ hcoming hguard ↦ Enrolling.exists_answers hcoming hguard) rfl htaken
  exact hleft.taken_eq.symm.trans hbody

/-! ### The whole response -/

/-- The head loop stops exactly behind the empty line, a download hands on exactly the body, and an
enrollment parses exactly the body. -/
structure FramedExactly (response : OkResponse) : Prop where
  head : HeadExact response
  download : DownloadExact response
  enroll : EnrollExact response

/-- A response is framed exactly, however it comes in segments, if and only if no line of its head
splits and its body fits the buffer of the enrollment. For the downloader the first is enough. -/
theorem framing_exact_iff (response : OkResponse) :
    (FramedExactly response ↔
      Whole response ∧ response.body.length < EnrollmentResponseCodec.kMaxResponse) ∧
    (HeadExact response ∧ DownloadExact response ↔ Whole response) := by
  refine ⟨⟨fun hexact ↦ ?_, fun hcond ↦ ?_⟩, fun hexact ↦ headExact_iff.mp hexact.1,
    fun hwhole ↦ ?_⟩
  · have hwhole := headExact_iff.mp hexact.head
    refine ⟨hwhole, ?_⟩
    have htake := congrArg List.length (hexact.enroll.take_eq (stop_response_of_whole hwhole))
    have hpos : 0 < EnrollmentResponseCodec.kMaxResponse := by decide
    rw [List.length_take] at htake
    omega
  · obtain ⟨hwhole, hbody⟩ := hcond
    exact ⟨headExact_iff.mpr hwhole, downloadExact_of_whole hwhole,
      enrollExact_of_whole hwhole hbody⟩
  · exact ⟨headExact_iff.mpr hwhole, downloadExact_of_whole hwhole⟩

/-- A response with one header line of 254 bytes. -/
def longHeader : OkResponse where
  status := ascii "HTTP/1.1 200 OK"
  headers := [List.replicate 254 120]
  body := ascii "abc"
  isOkStatus := isOkStatus_ok
  clean_status := clean_ok
  clean_headers := by
    intro line hline
    rw [List.mem_singleton.mp hline]
    exact ⟨fun hmem ↦ absurd (List.eq_of_mem_replicate hmem) (by decide),
      fun hmem ↦ absurd (List.eq_of_mem_replicate hmem) (by decide),
      fun hmem ↦ absurd (List.eq_of_mem_replicate hmem) (by decide)⟩
  headers_ne_nil := by
    intro line hline
    rw [List.mem_singleton.mp hline]
    exact List.cons_ne_nil _ _

/-- The line end of the empty line is taken for body. -/
theorem stop_longHeader : stop longHeader.body (longHeader.status.length + 1) longHeader.lines =
    some ([13, 10] ++ longHeader.body) := by
  have hstatus : ¬ (longHeader.status.length + 1) % (kLineCap - 1) ≤ 1 := by decide
  have hheader : (List.replicate 254 (120 : UInt8)).length + 1 = 255 := by
    rw [List.length_replicate]
  change stop longHeader.body _ [List.replicate 254 120, []] = _
  rw [stop, if_neg hstatus, hheader]
  rfl

/-- The head loop stops too early behind a header line of 254 bytes: a download of the three bytes
behind it hands on other bytes, and an enrollment parses other bytes. -/
theorem longHeader_not_exact :
    ¬ HeadExact longHeader ∧ ¬ DownloadExact longHeader ∧ ¬ EnrollExact longHeader := by
  refine ⟨fun hexact ↦ ?_, fun hexact ↦ ?_, fun hexact ↦ ?_⟩
  · have hsplits : Splits (List.replicate 254 120) := by
      rw [Splits, List.length_replicate]
      decide
    exact headExact_iff.mp hexact _ (List.mem_cons_of_mem _ List.mem_cons_self) hsplits
  · exact absurd (hexact.take_eq stop_longHeader 3) (by decide)
  · exact absurd (hexact.take_eq stop_longHeader) (by decide)

end HttpBody

end LibreSwitch.Net
