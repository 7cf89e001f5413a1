import LibreSwitch.Net.NetworkClient

/-!
# A response on its way

`Delivery` is a connection on which a server sends a text that comes in segments: what has arrived
and was not read yet, and what is still to come. A segment of any length may come before every
question for data, and less may be shown or read than has arrived. The connection stays up while
something is still to come.

Time is the time that the device spends in `delay`: `idleMs` counts it since the last segment, and
while something is still to come it stays below the idle time of the read loops. A segment that
comes while the device sleeps is one that comes when it asks next.

The wait for data of the source then never gives up too early (`wp_awaitData`), and `readLine`
depends only on the text and not on its segments (`wp_readLine`): it stops behind a line that fits
the buffer with its end, and else when the buffer is full.
-/

set_option autoImplicit false
set_option relaxedAutoImplicit false

namespace LibreSwitch.Net

open LibreSwitch.Library

/-- A text that was sent: the part that arrived and was not read yet, the part that is to come, the
time without a segment, and the bytes that were read into buffers. -/
structure Delivery where
  arrived : Bytes
  coming : Bytes
  idleMs : ℕ := 0
  taken : Bytes := []

namespace Delivery

open NetworkClient

/-- What was sent and not read yet. -/
def unread (delivery : Delivery) : Bytes := delivery.arrived ++ delivery.coming

/-- The idle time is not over while something is to come. -/
def Live (delivery : Delivery) : Prop := delivery.coming ≠ [] → delivery.idleMs < kIdleTimeoutMs

/-- A segment comes, or none. -/
inductive Comes (delivery : Delivery) : Delivery → Prop
  | nothing : Comes delivery delivery
  | segment {segment rest : Bytes} (hsegment : segment ≠ [])
      (hcoming : delivery.coming = segment ++ rest) :
      Comes delivery
        { delivery with arrived := delivery.arrived ++ segment, coming := rest, idleMs := 0 }

/-- An answered call of the client. -/
def Answers (delivery : Delivery) : (request : ClientCall) → ClientAns request → Delivery → Prop
  | .connect _ _, result, delivery' => result = 1 ∧ delivery' = delivery
  | .available, avail, delivery' => delivery.Comes delivery' ∧
      if delivery'.arrived = [] then avail ≤ 0 else 0 < avail ∧ avail ≤ delivery'.arrived.length
  | .connected, connected, delivery' =>
    (delivery.coming ≠ [] → connected = true) ∧ delivery' = delivery
  | .read, byte, delivery' =>
    byte = delivery.arrived.head? ∧ delivery' = { delivery with arrived := delivery.arrived.tail }
  | .readInto want, read, delivery' =>
    read.1 <+: delivery.arrived ∧ (0 < want → delivery.arrived ≠ [] → read.1 ≠ []) ∧
      delivery' = { delivery with
        arrived := delivery.arrived.drop read.1.length
        taken := delivery.taken ++ read.1 }
  | .delay ms, _, delivery' =>
    (delivery.coming ≠ [] → delivery.idleMs + ms < kIdleTimeoutMs) ∧
      delivery' = { delivery with idleMs := delivery.idleMs + ms }
  | .unending, answer, _ => answer.elim
  | .setCACert _, _, delivery' | .print _, _, delivery' | .stop, _, delivery' =>
    delivery' = delivery

/-- The connection around a program. -/
def setting : Setting ClientCall ClientAns Delivery where
  answers := Answers

/-- No loop goes on for ever. -/
def guard (_ : Delivery) (request : ClientCall) : Prop := request ≠ .unending

section Comes

variable {delivery delivery' : Delivery}

theorem Comes.unread_eq (hcomes : delivery.Comes delivery') :
    delivery'.unread = delivery.unread := by
  cases hcomes with
  | nothing => rfl
  | segment _ hcoming => rw [unread, unread, hcoming, List.append_assoc]

theorem Comes.taken_eq (hcomes : delivery.Comes delivery') : delivery'.taken = delivery.taken := by
  cases hcomes with
  | nothing => rfl
  | segment _ _ => rfl

theorem Comes.live (hcomes : delivery.Comes delivery') (hlive : delivery.Live) :
    delivery'.Live := by
  cases hcomes with
  | nothing => exact hlive
  | segment _ _ => exact fun _ ↦ Nat.zero_lt_succ _

/-- Where nothing has arrived, nothing came. -/
theorem Comes.eq_of_arrived_nil (hcomes : delivery.Comes delivery')
    (harrived : delivery'.arrived = []) : delivery' = delivery := by
  cases hcomes with
  | nothing => rfl
  | segment hsegment _ => exact absurd (List.append_eq_nil_iff.mp harrived).2 hsegment

/-- Where nothing is to come, nothing comes. -/
theorem Comes.eq_of_coming_nil (hcomes : delivery.Comes delivery')
    (hcoming : delivery.coming = []) : delivery' = delivery := by
  cases hcomes with
  | nothing => rfl
  | segment hsegment hsplit =>
    rw [hcoming] at hsplit
    exact absurd (List.append_eq_nil_iff.mp hsplit.symm).1 hsegment

end Comes

theorem unread_of_arrived_nil {delivery : Delivery} (harrived : delivery.arrived = [])
    (hcoming : delivery.coming = []) : delivery.unread = [] := by
  rw [unread, harrived, hcoming]
  rfl

/-! ### Calls that read nothing -/

/-- The calls that send something, or end the connection. -/
inductive Announces : ClientCall → Prop
  | print (text : Bytes) : Announces (.print text)
  | stop : Announces .stop

theorem wp_of_announces {α : Type} {program : Prog ClientCall ClientAns α}
    (hprogram : program.AsksOnly Announces) (delivery : Delivery) :
    setting.wp guard program (fun _ last ↦ last = delivery) delivery := by
  have hanswers (world : Delivery) (request : ClientCall) (answer : ClientAns request)
      (world' : Delivery) (hannounces : Announces request) (hworld : world = delivery)
      (hanswers : setting.answers world request answer world') : world' = delivery := by
    cases hannounces with
    | print text => exact Eq.trans hanswers hworld
    | stop => exact Eq.trans hanswers hworld
  have hguard (world : Delivery) (request : ClientCall) (hannounces : Announces request)
      (_ : world = delivery) : guard world request := by
    rintro rfl
    cases hannounces
  exact Setting.wp_mono (fun _ _ hlast ↦ hlast.2) (Setting.wp_of_asksOnly
    (fun _ _ _ hinterfere ↦ absurd hinterfere (Setting.quiet_alone _ _))
    hguard hanswers hprogram rfl)

theorem wp_stop (delivery : Delivery) :
    setting.wp guard (Prog.ask ClientCall.stop) (fun _ last ↦ last = delivery) delivery := by
  have hannounces : (Prog.ask ClientCall.stop : Prog ClientCall ClientAns Unit).AsksOnly
      Announces := ⟨.stop, fun _ ↦ trivial⟩
  exact wp_of_announces hannounces delivery

/-- A connection is made, with a certificate that the server is pinned to or without. -/
theorem wp_connect {pinned : Prop} [Decidable pinned] {ca host : Bytes} {port : UInt16}
    {delivery : Delivery} :
    setting.wp guard (do
      if pinned then Prog.ask (ClientCall.setCACert ca)
      Prog.ask (ClientCall.connect host port))
      (fun connected last ↦ connected = (1 : ℤ) ∧ last = delivery) delivery := by
  have hconnect : setting.wp guard (Prog.ask (ClientCall.connect host port))
      (fun connected last ↦ connected = (1 : ℤ) ∧ last = delivery) delivery :=
    Setting.quiet_alone.wp_call_iff.mpr
      ⟨nofun, fun _ _ hanswers ↦ Setting.quiet_alone.wp_ret_iff.mpr hanswers⟩
  split_ifs
  · refine Setting.quiet_alone.wp_call_iff.mpr ⟨nofun, ?_⟩
    rintro _ _ rfl
    exact hconnect
  · exact hconnect

/-! ### The wait for data -/

/-- The same text is still unread, and the same bytes were read. -/
structure Same (delivery delivery' : Delivery) : Prop where
  live : delivery'.Live
  unread_eq : delivery'.unread = delivery.unread
  taken_eq : delivery'.taken = delivery.taken

theorem Same.trans {delivery delivery' delivery'' : Delivery} (hfirst : Same delivery delivery')
    (hsecond : Same delivery' delivery'') : Same delivery delivery'' :=
  ⟨hsecond.live, hsecond.unread_eq.trans hfirst.unread_eq,
    hsecond.taken_eq.trans hfirst.taken_eq⟩

/-- What a wait finds: data that has arrived, or the end of the text. -/
def Found (delivery : Delivery) : Wait → Delivery → Prop
  | .ready avail, delivery' => Same delivery delivery' ∧ delivery'.arrived ≠ [] ∧ 0 < avail
  | .closed, delivery' => Same delivery delivery' ∧ delivery.unread = []
  | .timedOut, delivery' => Same delivery delivery' ∧ delivery.unread = []

/-- A wait whose rounds reach to the idle time finds what is still to come. -/
theorem wp_awaitData {ms rounds : ℕ} {delivery : Delivery} (hlive : delivery.Live)
    (htime : kIdleTimeoutMs ≤ delivery.idleMs + rounds * ms)
    (hzero : rounds = 0 → delivery.arrived = []) :
    setting.wp guard (awaitData ms rounds) (Found delivery) delivery := by
  induction rounds generalizing delivery with
  | zero =>
    have hcoming : delivery.coming = [] := by
      by_contra hmore
      have hidle := hlive hmore
      omega
    exact Setting.quiet_alone.wp_ret_iff.mpr
      ⟨⟨hlive, rfl, rfl⟩, unread_of_arrived_nil (hzero rfl) hcoming⟩
  | succ rounds ih =>
    have hsleep {slept : Delivery} {answer : Unit} (harrived : delivery.arrived = [])
        (hanswers : setting.answers delivery (.delay ms) answer slept) :
        setting.wp guard (awaitData ms rounds) (Found delivery) slept := by
      obtain ⟨hless, rfl⟩ := hanswers
      refine Setting.wp_mono ?_ (@ih { delivery with idleMs := delivery.idleMs + ms } hless ?_
        fun _ ↦ harrived)
      · intro wait last hfound
        have hsame : Same delivery { delivery with idleMs := delivery.idleMs + ms } :=
          ⟨hless, rfl, rfl⟩
        cases wait with
        | ready avail => exact ⟨hsame.trans hfound.1, hfound.2⟩
        | closed => exact ⟨hsame.trans hfound.1, hfound.2⟩
        | timedOut => exact ⟨hsame.trans hfound.1, hfound.2⟩
      · rw [Nat.succ_mul] at htime
        simp only
        omega
    unfold awaitData
    simp only [Prog.ask_bind, Prog.pure_eq]
    refine Setting.quiet_alone.wp_call_iff.mpr
      ⟨fun hloop ↦ ClientCall.noConfusion hloop, fun avail asked hasked ↦ ?_⟩
    obtain ⟨hcomes, havail⟩ := hasked
    split_ifs at havail with harrived
    · obtain rfl := hcomes.eq_of_arrived_nil harrived
      rw [if_pos havail]
      refine Setting.quiet_alone.wp_call_iff.mpr ⟨fun hloop ↦ ClientCall.noConfusion hloop, ?_⟩
      rintro connected asked ⟨hconnected, rfl⟩
      cases connected with
      | true =>
        exact Setting.quiet_alone.wp_call_iff.mpr ⟨fun hloop ↦ ClientCall.noConfusion hloop,
          fun _ slept hslept ↦ hsleep harrived hslept⟩
      | false =>
        have hcoming : asked.coming = [] := by
          by_contra hmore
          cases hconnected hmore
        refine Setting.quiet_alone.wp_call_iff.mpr
          ⟨fun hloop ↦ ClientCall.noConfusion hloop, fun again asked' hasked' ↦ ?_⟩
        obtain ⟨hcomes', hagain⟩ := hasked'
        obtain rfl := hcomes'.eq_of_coming_nil hcoming
        rw [if_pos harrived] at hagain
        rw [if_pos hagain]
        exact Setting.quiet_alone.wp_ret_iff.mpr
          ⟨⟨hlive, rfl, rfl⟩, unread_of_arrived_nil harrived hcoming⟩
    · have hpos : (0 : ℤ) < avail := havail.1
      rw [if_neg (not_le.mpr hpos)]
      exact Setting.quiet_alone.wp_ret_iff.mpr
        ⟨⟨hcomes.live hlive, hcomes.unread_eq, hcomes.taken_eq⟩, harrived, Int.lt_toNat.mpr hpos⟩

/-- The wait of the loops over a body. -/
theorem wp_awaitBody {delivery : Delivery} (hlive : delivery.Live) :
    setting.wp guard (awaitData 10 (kIdleTimeoutMs / 10)) (Found delivery) delivery := by
  have htime : kIdleTimeoutMs ≤ delivery.idleMs + kIdleTimeoutMs / 10 * 10 := Nat.le_add_left _ _
  exact wp_awaitData hlive htime fun hzero ↦ absurd hzero (by decide)

/-! ### Reads into a buffer -/

/-- What a read into a buffer gives: some of the text, from its front. -/
structure ChunkRead (delivery : Delivery) (read : Bytes) (last : Delivery) : Prop where
  live : last.Live
  ne_nil : read ≠ []
  unread_eq : delivery.unread = read ++ last.unread
  taken_eq : last.taken = delivery.taken ++ read

theorem chunkRead_of_answers {want : ℕ} {delivery last : Delivery}
    {read : ClientAns (.readInto want)}
    (hanswers : delivery.Answers (.readInto want) read last) (hlive : delivery.Live)
    (harrived : delivery.arrived ≠ []) (hwant : 0 < want) : ChunkRead delivery read.1 last := by
  obtain ⟨⟨rest, hrest⟩, hsome, rfl⟩ := hanswers
  refine ⟨hlive, hsome hwant harrived, ?_, rfl⟩
  rw [unread, unread, ← hrest, List.drop_left, List.append_assoc]

/-- As much of a text as there is room for begins with a chunk that fits. -/
theorem ChunkRead.take_eq {delivery last : Delivery} {read : Bytes}
    (hread : ChunkRead delivery read last) {room : ℕ} (hroom : read.length ≤ room) :
    delivery.unread.take room = read ++ last.unread.take (room - read.length) := by
  rw [hread.unread_eq, List.take_append, List.take_of_length_le hroom]

/-! ### Lines -/

/-- A line without the carriage return at its end. -/
def stripped (text : Bytes) : Bytes := if text.getLast? = some 13 then text.dropLast else text

theorem set_length_append {text behind : Bytes} {byte other : UInt8} :
    (text ++ other :: behind).set text.length byte = text ++ byte :: behind := by
  rw [List.set_append_right _ _ le_rfl, Nat.sub_self, List.set_cons_zero]

/-- The line that `endLine` leaves in the buffer. -/
theorem cString_endLine {text behind : Bytes} (hzero : (0 : UInt8) ∉ text) (hbehind : behind ≠ []) :
    cString (endLine (text ++ behind) text.length) = stripped text := by
  obtain ⟨other, rest, rfl⟩ := List.exists_cons_of_ne_nil hbehind
  unfold endLine stripped
  simp only [set_length_append]
  rcases List.eq_nil_or_concat' text with rfl | ⟨init, byte, rfl⟩
  · rfl
  · have hinit : (0 : UInt8) ∉ init := fun hmem ↦ hzero (List.mem_append_left _ hmem)
    have hsplit : init ++ [byte] ++ 0 :: rest = init ++ byte :: 0 :: rest := by
      rw [List.append_assoc]
      rfl
    have hlast : (init ++ [byte]).length - 1 = init.length := by
      rw [List.length_append, List.length_singleton]
      rfl
    have hbyte : (init ++ byte :: 0 :: rest).getD init.length 0 = byte := by
      simp
    have hpos : 0 < (init ++ [byte]).length := by simp
    rw [List.getLast?_concat, List.dropLast_concat, hsplit, hlast, hbyte]
    by_cases hreturn : byte = 13
    · rw [if_pos ⟨hpos, hreturn⟩, if_pos (congrArg some hreturn), set_length_append,
        cString_append_zero hinit]
    · rw [if_neg fun hall ↦ hreturn hall.2, if_neg fun hsome ↦ hreturn (Option.some.inj hsome),
        ← hsplit, cString_append_zero hzero]

theorem length_endLine (out : Bytes) (i : ℕ) : (endLine out i).length = out.length := by
  unfold endLine
  simp only
  split_ifs
  · rw [List.length_set, List.length_set]
  · rw [List.length_set]

/-- What a read of a line leaves: behind a line that fits with its end, the rest of the text; else a
full buffer, and the rest of the line. -/
structure LineRead (delivery : Delivery) (before text rest : Bytes) (room : ℕ)
    (result : Bool × Bytes) (last : Delivery) : Prop where
  live : last.Live
  taken_eq : last.taken = delivery.taken
  found : result.1 = true
  length_eq : result.2.length = before.length + room + 1
  whole : text.length < room →
    cString result.2 = stripped (before ++ text) ∧ last.unread = rest
  full : room ≤ text.length →
    cString result.2 = before ++ text.take room ∧ last.unread = text.drop room ++ 10 :: rest

/-- The end of a line is read. -/
theorem lineRead_endLine {delivery last : Delivery} {before behind rest : Bytes} {room : ℕ}
    (hbefore : (0 : UInt8) ∉ before) (hbehind : behind.length = room + 1 + 1)
    (hlive : last.Live) (htaken : last.taken = delivery.taken) (hunread : last.unread = rest) :
    LineRead delivery before [] rest (room + 1)
      (true, endLine (before ++ behind) before.length) last := by
  have hne : behind ≠ [] := List.ne_nil_of_length_pos (by omega)
  refine ⟨hlive, htaken, rfl, ?_, fun _ ↦ ⟨?_, hunread⟩,
    fun hlong ↦ absurd hlong (Nat.not_succ_le_zero _)⟩
  · rw [length_endLine, List.length_append, hbehind]
    rfl
  · rw [cString_endLine hbefore hne, List.append_nil]

/-- One more byte of the line is read. -/
theorem LineRead.cons {delivery next last : Delivery} {before text rest : Bytes} {byte : UInt8}
    {room : ℕ} {result : Bool × Bytes}
    (hread : LineRead next (before ++ [byte]) text rest room result last)
    (htaken : next.taken = delivery.taken) :
    LineRead delivery before (byte :: text) rest (room + 1) result last := by
  have happend (tail : Bytes) : before ++ [byte] ++ tail = before ++ byte :: tail := by
    rw [List.append_assoc]
    rfl
  refine ⟨hread.live, hread.taken_eq.trans htaken, hread.found, ?_, fun hshort ↦ ?_,
    fun hlong ↦ ?_⟩
  · rw [hread.length_eq, List.length_append, List.length_singleton]
    omega
  · rw [List.length_cons] at hshort
    rw [← happend]
    exact hread.whole (by omega)
  · rw [List.length_cons] at hlong
    rw [List.take_succ_cons, List.drop_succ_cons, ← happend]
    exact hread.full (by omega)

theorem wp_readLineLoop {rest : Bytes} {room : ℕ} {before behind text : Bytes}
    (hbefore : (0 : UInt8) ∉ before) (hbehind : behind.length = room + 1)
    (hsome : 0 < before.length + room) (hzero : (0 : UInt8) ∉ text) (hline : (10 : UInt8) ∉ text)
    {delivery : Delivery} (hlive : delivery.Live) (hunread : delivery.unread = text ++ 10 :: rest) :
    setting.wp guard (readLineLoop (before ++ behind) before.length room)
      (LineRead delivery before text rest room) delivery := by
  induction room generalizing before behind text delivery with
  | zero =>
    obtain ⟨other, rfl⟩ := List.length_eq_one_iff.mp hbehind
    refine Setting.quiet_alone.wp_ret_iff.mpr
      ⟨hlive, rfl, decide_eq_true hsome, ?_, fun hshort ↦ absurd hshort (Nat.not_lt_zero _),
        fun _ ↦ ⟨?_, hunread⟩⟩
    · rw [List.length_set, List.length_append]
      rfl
    · rw [set_length_append, cString_append_zero hbefore, List.take_zero, List.append_nil]
  | succ room ih =>
    unfold readLineLoop
    apply Setting.wp_bind
    have hwait : kIdleTimeoutMs ≤ delivery.idleMs + kIdleTimeoutMs / 5 * 5 := Nat.le_add_left _ _
    refine Setting.wp_mono ?_ (wp_awaitData hlive hwait fun hzero ↦ absurd hzero (by decide))
    intro wait waited hfound
    have hnonempty : delivery.unread ≠ [] := by
      rw [hunread]
      exact List.append_ne_nil_of_right_ne_nil _ (List.cons_ne_nil _ _)
    cases wait with
    | closed => exact absurd hfound.2 hnonempty
    | timedOut => exact absurd hfound.2 hnonempty
    | ready avail =>
      obtain ⟨hsame, harrived, -⟩ := hfound
      obtain ⟨byte, more, hbyte⟩ := List.exists_cons_of_ne_nil harrived
      simp only [Prog.ask_bind, Prog.pure_eq]
      refine Setting.quiet_alone.wp_call_iff.mpr ⟨fun hloop ↦ ClientCall.noConfusion hloop, ?_⟩
      rintro read last ⟨rfl, rfl⟩
      rw [hbyte, List.head?_cons]
      simp only [List.tail_cons]
      have hstream : byte :: (more ++ waited.coming) = text ++ 10 :: rest := by
        rw [← hunread, ← hsame.unread_eq, unread, hbyte]
        rfl
      have hlive' : Live { waited with arrived := more } := hsame.live
      -- the byte is the line end if nothing of the line is left, and else its next byte
      cases text with
      | nil =>
        rw [if_pos (List.cons.inj hstream).1]
        exact Setting.quiet_alone.wp_ret_iff.mpr
          (lineRead_endLine hbefore hbehind hlive' hsame.taken_eq
          (List.cons.inj hstream).2)
      | cons first others =>
        obtain ⟨rfl, hothers⟩ := List.cons.inj hstream
        have hbyte' : byte ≠ 10 := fun hend ↦ hline (hend ▸ List.mem_cons_self)
        obtain ⟨other, behind, rfl⟩ : ∃ other more, behind = other :: more :=
          List.exists_cons_of_length_eq_add_one hbehind
        have hset : (before ++ other :: behind).set before.length byte =
            (before ++ [byte]) ++ behind := by
          rw [set_length_append, List.append_assoc]
          rfl
        have hlength : before.length + 1 = (before ++ [byte]).length := by
          rw [List.length_append, List.length_singleton]
        have hbefore' : (0 : UInt8) ∉ before ++ [byte] := by
          intro hmem
          rcases List.mem_append.mp hmem with hmem | hmem
          · exact hbefore hmem
          · exact hzero (List.mem_cons.mpr (.inl (List.mem_singleton.mp hmem)))
        rw [if_neg hbyte', hset, hlength]
        exact Setting.wp_mono (fun _ _ hread ↦ hread.cons hsame.taken_eq)
          (@ih (before ++ [byte]) behind others hbefore' (Nat.succ.inj hbehind)
            (by rw [← hlength]; omega) (fun hmem ↦ hzero (List.mem_cons_of_mem _ hmem))
            (fun hmem ↦ hline (List.mem_cons_of_mem _ hmem)) { waited with arrived := more } hlive'
            hothers)

/-- `readLine` into one of the line buffers, in front of a line of the text. -/
theorem wp_readLine {buffer text rest : Bytes} (hbuffer : buffer.length = kLineCap)
    (hzero : (0 : UInt8) ∉ text) (hline : (10 : UInt8) ∉ text) {delivery : Delivery}
    (hlive : delivery.Live) (hunread : delivery.unread = text ++ 10 :: rest) :
    setting.wp guard (readLine buffer kLineCap) (LineRead delivery [] text rest (kLineCap - 1))
      delivery :=
  @wp_readLineLoop rest (kLineCap - 1) [] buffer text List.not_mem_nil hbuffer
    (Nat.zero_lt_succ _) hzero hline _ hlive hunread

end Delivery

end LibreSwitch.Net
