import LibreSwitch.Net.EnrollmentDelivery
import LibreSwitch.Net.ProvForm

/-!
# The token in the enrollment request

`doEnroll` sends the token as a field of a form without encoding it. Here the request body is read
back with the form decoder of the portal. `field_requestBody` says what the decoder finds: the
token up to its first `&`, decoded. That is the token itself exactly when no byte of it is special
in a form (`Plain`), which `token_survives_iff` states for the body that a run of `enroll` sends,
whether the token was submitted at the portal or seeded in the store.
-/

set_option autoImplicit false
set_option relaxedAutoImplicit false

namespace LibreSwitch.Net

open LibreSwitch.Library LibreSwitch.Platform

namespace ProvForm

/-- A text that stands for itself: without `+` and without an escape. -/
def Literal (text : Bytes) : Prop :=
  (43 : UInt8) ∉ text ∧ ∀ high low, isHex high = true → isHex low = true →
    ¬ [37, high, low] <:+: text

/-- A token that the form encoding would leave as it is. -/
def Plain (token : Bytes) : Prop := (38 : UInt8) ∉ token ∧ Literal token

theorem escape_eq_none_iff {c : UInt8} {rest : Bytes} :
    escape c rest = none ↔ ∀ high low, isHex high = true → isHex low = true →
      ¬ [37, high, low] <+: c :: rest := by
  constructor
  · intro hnone high low hhigh hlow hpre
    obtain ⟨behind, hbehind⟩ := hpre
    obtain ⟨rfl, rfl⟩ := List.cons.inj hbehind
    simp [escape, hhigh, hlow] at hnone
  · intro hnone
    cases hescape : escape c rest with
    | none => rfl
    | some read =>
      obtain ⟨rfl, high, low, hhigh, hlow, rfl⟩ := escape_eq_some hescape
      exact absurd ⟨read.2, rfl⟩ (hnone high low hhigh hlow)

theorem literal_cons {c : UInt8} {rest : Bytes} :
    Literal (c :: rest) ↔ c ≠ 43 ∧ escape c rest = none ∧ Literal rest := by
  rw [escape_eq_none_iff]
  unfold Literal
  simp only [List.mem_cons, List.infix_cons_iff, not_or]
  constructor
  · rintro ⟨⟨hplus, hrest⟩, hnone⟩
    exact ⟨Ne.symm hplus, fun high low hhigh hlow ↦ (hnone high low hhigh hlow).1, hrest,
      fun high low hhigh hlow ↦ (hnone high low hhigh hlow).2⟩
  · rintro ⟨hplus, hhere, hrest, hlater⟩
    exact ⟨⟨Ne.symm hplus, hrest⟩,
      fun high low hhigh hlow ↦ ⟨hhere high low hhigh hlow, hlater high low hhigh hlow⟩⟩

/-- Decoding leaves exactly the literal texts as they are. -/
theorem decodeLoop_eq_self_iff {room : ℕ} {text : Bytes} (hroom : text.length ≤ room) :
    decodeLoop room text = text ↔ Literal text := by
  induction room generalizing text with
  | zero =>
    obtain rfl := List.eq_nil_of_length_eq_zero (Nat.le_zero.mp hroom)
    exact iff_of_true rfl ⟨List.not_mem_nil, fun _ _ _ _ hinfix ↦ by simp at hinfix⟩
  | succ room ih =>
    cases text with
    | nil => exact iff_of_true rfl ⟨List.not_mem_nil, fun _ _ _ _ hinfix ↦ by simp at hinfix⟩
    | cons c rest =>
      rw [literal_cons, decodeLoop]
      split_ifs with hplus
      · simp [hplus]
      · cases hescape : escape c rest with
        | none =>
          have hrest := ih (Nat.le_of_succ_le_succ hroom)
          simp [hplus, hrest]
        | some read =>
          obtain ⟨-, high, low, -, -, rfl⟩ := escape_eq_some hescape
          have hshort := length_decodeLoop_le room read.2
          refine iff_of_false (fun heq ↦ ?_) (by simp)
          have hlength := congrArg List.length heq
          simp only [List.length_cons] at hlength
          omega

end ProvForm

namespace HttpEnrollment

open Prog (ask)
open ProvForm (Plain)

variable {α : Type}

/-- What the form decoder finds in the request body. -/
theorem field_requestBody (enrollment : HttpEnrollment) (token : Bytes) (outCap : ℕ) :
    ProvForm.field (enrollment.requestBody token) (ascii "token") outCap =
      (true, ProvForm.urlDecode (token.takeWhile (· ≠ 38)) outCap) := by
  obtain ⟨behind, hbody⟩ : ∃ behind, enrollment.requestBody token =
      ascii "token" ++ 61 :: (token ++ 38 :: behind) := by
    refine ⟨ascii "id=" ++ enrollment.hint ++ ascii "&hw=" ++ enrollment.hw, ?_⟩
    have htoken : ascii "token=" = ascii "token" ++ [61] := by decide
    have hid : ascii "&id=" = 38 :: ascii "id=" := by decide
    rw [requestBody, htoken, hid]
    simp only [List.append_assoc, List.cons_append, List.nil_append]
  have hvalue : (token ++ 38 :: behind).takeWhile (· ≠ 38) = token.takeWhile (· ≠ 38) := by
    by_cases hamp : (38 : UInt8) ∈ token
    · obtain ⟨first, rest, rfl, hfirst⟩ := List.eq_append_cons_of_mem hamp
      rw [List.append_assoc, List.cons_append, takeWhile_ne_append_cons hfirst,
        takeWhile_ne_append_cons hfirst]
    · rw [takeWhile_ne_append_cons hamp, takeWhile_ne_of_notMem hamp]
  have hname : (61 : UInt8) ∉ ascii "token" := by decide
  rw [ProvForm.field, hbody, ProvForm.fieldLoop, strchr_append_cons hname]
  simp only [takeWhile_ne_append_cons hname, List.tail_cons, hvalue, if_true]

/-- The decoder gives the token back exactly when no byte of it is special in a form. -/
theorem field_requestBody_eq_iff (enrollment : HttpEnrollment) {token : Bytes}
    (hlength : token.length ≤ 64) :
    ProvForm.field (enrollment.requestBody token) (ascii "token") kMaxToken = (true, token) ↔
      Plain token := by
  rw [field_requestBody, ProvForm.urlDecode, Prod.mk.injEq, and_iff_right rfl]
  by_cases hamp : (38 : UInt8) ∈ token
  · refine iff_of_false (fun heq ↦ ?_) fun hplain ↦ hplain.1 hamp
    obtain ⟨first, rest, rfl, hfirst⟩ := List.eq_append_cons_of_mem hamp
    rw [takeWhile_ne_append_cons hfirst] at heq
    have hshort := ProvForm.length_decodeLoop_le (kMaxToken - 1) first
    rw [heq, List.length_append, List.length_cons] at hshort
    omega
  · have hroom : token.length ≤ kMaxToken - 1 := hlength
    rw [takeWhile_ne_of_notMem hamp, ProvForm.decodeLoop_eq_self_iff hroom, Plain,
      and_iff_right hamp]

/-! ### What a run sends -/

/-- The text that an event puts on the connection. -/
def printOf : EnrollEvent → Option Bytes
  | ⟨.client (.print text), _⟩ => some text
  | _ => none

/-- The texts that a run puts on the connection, in order. -/
def printed (trace : List EnrollEvent) : List Bytes := trace.filterMap printOf

/-- The request body that a run sends is the last thing it puts on the connection. -/
def sentBody (trace : List EnrollEvent) : Option Bytes := (printed trace).getLast?

@[simp] theorem printed_append (first second : List EnrollEvent) :
    printed (first ++ second) = printed first ++ printed second := List.filterMap_append

/-- A call that puts nothing on the connection. -/
def Silent (request : ClientCall) : Prop := ∀ text, request ≠ .print text

theorem silent_of_listens {request : ClientCall} (hlistens : NetworkClient.Listens request) :
    Silent request := by
  cases hlistens <;> exact nofun

theorem asksOnly_readBodyLoop (out : Bytes) (rounds room : ℕ) :
    (readBodyLoop out rounds room).AsksOnly Silent := by
  induction rounds generalizing out room with
  | zero => trivial
  | succ rounds ih =>
    unfold readBodyLoop
    split_ifs
    · trivial
    · refine Prog.asksOnly_bind
        ((NetworkClient.asksOnly_awaitData _ _).mono fun _ ↦ silent_of_listens) fun wait ↦ ?_
      cases wait with
      | closed => trivial
      | timedOut => trivial
      | ready avail =>
        simp only [Prog.ask_bind, Prog.pure_eq]
        refine Prog.asksOnly_call.mpr ⟨fun _ hprint ↦ ClientCall.noConfusion hprint, fun read ↦ ?_⟩
        split_ifs
        · trivial
        · exact ih _ _

theorem printed_onKv {program : Prog KvCall KvAns α} {trace : List EnrollEvent} {result : α}
    (hruns : (onKv program).Runs trace result) : printed trace = [] :=
  Prog.filterMap_part (fun _ ↦ rfl) hruns

theorem printed_onClient {program : Prog ClientCall ClientAns α} {trace : List EnrollEvent}
    {result : α} (hprogram : program.AsksOnly Silent)
    (hruns : (onClient program).Runs trace result) : printed trace = [] := by
  obtain ⟨inner, hinner, rfl⟩ := Prog.runs_embed.mp hruns
  rw [printed, List.filterMap_map, List.filterMap_eq_nil_iff]
  intro event hevent
  have hsilent := hprogram.of_runs hinner event hevent
  obtain ⟨request, reply⟩ := event
  cases request with
  | print text => exact absurd rfl (hsilent text)
  | _ => rfl

theorem printed_receive {rounds : ℕ} {trace : List EnrollEvent} {result : Bool}
    (hruns : (receive rounds).Runs trace result) : printed trace = [] := by
  have hsilent : (ask ClientCall.stop : Prog ClientCall ClientAns Unit).AsksOnly Silent :=
    ⟨nofun, fun _ ↦ trivial⟩
  unfold receive at hruns
  simp only [Prog.ask_bind, Prog.runs_call] at hruns
  obtain ⟨line, rest, rfl, hruns⟩ := hruns
  obtain ⟨headed, first, rest, rfl, hhead, hrest⟩ := Prog.runs_bind.mp hruns
  have hfirst := printed_onClient
    ((NetworkClient.asksOnly_readHead rounds line).mono fun _ ↦ silent_of_listens) hhead
  change printed (first ++ rest) = []
  rw [printed_append, hfirst, List.nil_append]
  cases headed with
  | false =>
    simp only [Bool.not_false, ↓reduceIte] at hrest
    obtain ⟨_, second, last, rfl, hsecond, rfl, rfl⟩ := Prog.runs_bind.mp hrest
    rw [List.append_nil, printed_onClient hsilent hsecond]
  | true =>
    simp only [Bool.not_true, Bool.false_eq_true, ↓reduceIte] at hrest
    obtain ⟨body, second, rest, rfl, hbody, hrest⟩ := Prog.runs_bind.mp hrest
    obtain ⟨_, third, last, rfl, hthird, hlast⟩ := Prog.runs_bind.mp hrest
    rw [printed_append, printed_append, printed_onClient (asksOnly_readBodyLoop _ _ _) hbody,
      printed_onClient hsilent hthird, printed_onKv hlast]
    rfl

/-- What a run of `doEnroll` sends as a body is the request body. -/
theorem sentBody_doEnroll {enrollment : HttpEnrollment} {rounds : ℕ} {token body : Bytes}
    {trace : List EnrollEvent} {result : Bool}
    (hruns : (enrollment.doEnroll rounds token).Runs trace result)
    (hsent : sentBody trace = some body) : body = enrollment.requestBody token := by
  unfold doEnroll at hruns
  split at hruns
  · obtain ⟨rfl, -⟩ := hruns
    cases hsent
  · rename_i host port path _
    split_ifs at hruns with hlong
    · obtain ⟨rfl, -⟩ := hruns
      cases hsent
    · obtain ⟨connected, first, rest, rfl, hopen, hrest⟩ := Prog.runs_bind.mp hruns
      have hsilent : (enrollment.openConnection host port).AsksOnly Silent := by
        unfold openConnection
        split_ifs
        · exact ⟨nofun, fun _ ↦ ⟨nofun, fun _ ↦ trivial⟩⟩
        · exact ⟨nofun, fun _ ↦ trivial⟩
      rw [sentBody, printed_append, printed_onClient hsilent hopen, List.nil_append] at hsent
      split_ifs at hrest with hconnected
      · obtain ⟨rfl, -⟩ := hrest
        cases hsent
      · obtain ⟨_, second, rest, rfl, hsend, hreceive⟩ := Prog.runs_bind.mp hrest
        rw [printed_append, printed_receive hreceive, List.append_nil] at hsent
        obtain ⟨inner, hinner, rfl⟩ := Prog.runs_embed.mp hsend
        obtain ⟨_, _, rfl, _, _, rfl, _, _, rfl, _, _, rfl, _, _, rfl, _, _, rfl, rfl, -⟩ := hinner
        exact (Option.some.inj hsent).symm

/-- The token that an attempt works with: the one submitted at the portal, or without one the one
that the store holds. -/
def Offers (kv : KvMap) (submitted : Option Bytes) (token : Bytes) : Prop :=
  submitted = some token ∨
    (submitted = none ∨ submitted = some []) ∧ kv.blobs (ascii "enroll_token") = some token

/-- The chosen token is the one that was offered. -/
theorem chosen_of_offers {kv : KvMap} {submitted : Option Bytes} {token chosen : Bytes}
    (hne : token ≠ []) (hzero : (0 : UInt8) ∉ token) (hlength : token.length ≤ 64)
    (hoffers : Offers kv submitted token) {trace : List KvEvent}
    (hruns : (chooseToken submitted).Runs trace chosen) (hfaithful : kv.Faithful trace) :
    chosen = token := by
  rcases hoffers with rfl | ⟨hnothing, hblob⟩
  · obtain ⟨first, rest, rfl⟩ := List.exists_cons_of_ne_nil hne
    exact hruns.2
  · have hread : ∃ seeded, trace = [⟨.getBlob (ascii "enroll_token") kMaxToken, seeded⟩] ∧
        chosen = if seeded.1 > 0 then cString (zeroed kMaxToken seeded.2) else [] := by
      rcases hnothing with rfl | rfl
      · obtain ⟨seeded, rest, rfl, rfl, rfl⟩ := hruns
        exact ⟨seeded, rfl, rfl⟩
      · obtain ⟨seeded, rest, rfl, rfl, rfl⟩ := hruns
        exact ⟨seeded, rfl, rfl⟩
    obtain ⟨seeded, rfl, rfl⟩ := hread
    have hseeded : seeded = KvStore.getBlob kv (ascii "enroll_token") kMaxToken := hfaithful.1
    have hfits : token.length < kMaxToken := Nat.lt_succ_of_le hlength
    have hholds := (@holdsString_zeroed_iff kMaxToken token).mpr ⟨hzero, hfits⟩
    rw [List.take_of_length_le hfits.le] at hholds
    rw [hseeded, KvMap.getBlob_eq, hblob, Option.getD_some, List.take_of_length_le hfits.le,
      if_pos (List.length_pos_of_ne_nil hne)]
    exact hholds.2

/-- Exactly when the token survives: the body that an enrollment sends is read back by the form
decoder as the token if and only if no byte of it is special in a form. -/
theorem token_survives_iff {enrollment : HttpEnrollment} {rounds : ℕ} {kv : KvMap}
    {submitted : Option Bytes} {token body : Bytes} (hne : token ≠ [])
    (hzero : (0 : UInt8) ∉ token) (hlength : token.length ≤ 64)
    (hoffers : Offers kv submitted token) {trace : List EnrollEvent} {result : Bool}
    (hruns : (enrollment.enroll rounds submitted).Runs trace result)
    (hfaithful : kv.Faithful (kvEvents trace)) (hsent : sentBody trace = some body) :
    ProvForm.field body (ascii "token") kMaxToken = (true, token) ↔ Plain token := by
  have hbody : body = enrollment.requestBody token := by
    obtain ⟨certified, first, rest, rfl, hfirst, hrest⟩ := Prog.runs_bind.mp hruns
    rw [sentBody, printed_append, printed_onKv hfirst, List.nil_append] at hsent
    rw [kvEvents_append, KvMap.faithful_append] at hfaithful
    cases certified with
    | true =>
      obtain ⟨rfl, -⟩ := hrest
      cases hsent
    | false =>
      simp only [Bool.false_eq_true, ↓reduceIte] at hrest
      obtain ⟨chosen, second, last, rfl, hsecond, hlast⟩ := Prog.runs_bind.mp hrest
      rw [printed_append, printed_onKv hsecond, List.nil_append] at hsent
      rw [kvEvents_append, KvMap.faithful_append] at hfaithful
      have hkept : kv.afterAll (kvEvents first) = kv := by
        obtain ⟨cert, events, hevents, rfl, -⟩ := (runs_onKv hfirst).1
        rw [hevents]
        rfl
      rw [hkept] at hfaithful
      obtain rfl := chosen_of_offers hne hzero hlength hoffers (runs_onKv hsecond).1 hfaithful.2.1
      split_ifs at hlast
      · obtain ⟨rfl, -⟩ := hlast
        cases hsent
      · obtain ⟨rfl, -⟩ := hlast
        cases hsent
      · obtain ⟨rfl, -⟩ := hlast
        cases hsent
      · exact sentBody_doEnroll hlast hsent
  rw [hbody]
  exact enrollment.field_requestBody_eq_iff hlength

/-! ### A token in base 64 -/

/-- An enrollment with this token at a server that refuses it. -/
def attemptWith (token : Bytes) : Option (List EnrollEvent × Bool) :=
  (pinned.enroll 2 (some token)).play (serve fun _ ↦ false) (ascii "HTTP/1.1 403\n\n")

theorem isSome_attemptWith : (attemptWith (ascii "a+b/w==")).isSome = true := by decide

/-- The attempt with a token in which a `+` stands. -/
def plusAttempt : List EnrollEvent × Bool := (attemptWith (ascii "a+b/w==")).get isSome_attemptWith

theorem runs_plusAttempt :
    (pinned.enroll 2 (some (ascii "a+b/w=="))).Runs plusAttempt.1 plusAttempt.2 :=
  Prog.runs_play isSome_attemptWith

/-- The body that the attempt sends. -/
def plusBody : Bytes := ascii "token=a+b/w==&id=A1&hw=sw4"

theorem sentBody_plusAttempt : sentBody plusAttempt.1 = some plusBody := by decide

theorem token_survives_iff_witness :
    ProvForm.field plusBody (ascii "token") kMaxToken = (true, ascii "a+b/w==") ↔
      Plain (ascii "a+b/w==") :=
  @token_survives_iff _ _ ⟨fun _ ↦ none⟩ _ _ _ (by decide) (by decide) (by decide) (.inl rfl)
    _ _ runs_plusAttempt (by decide) sentBody_plusAttempt

/-- The server reads a blank where the token has a plus sign. -/
theorem plus_is_lost :
    ¬ ∀ (enrollment : HttpEnrollment) (rounds : ℕ) (kv : KvMap) (submitted : Option Bytes)
      (token body : Bytes) (trace : List EnrollEvent) (result : Bool), token ≠ [] →
      (0 : UInt8) ∉ token → token.length ≤ 64 → Offers kv submitted token →
      (enrollment.enroll rounds submitted).Runs trace result → kv.Faithful (kvEvents trace) →
      sentBody trace = some body →
        ProvForm.field body (ascii "token") kMaxToken = (true, token) := by
  intro hall
  have hfield := hall pinned 2 ⟨fun _ ↦ none⟩ (some (ascii "a+b/w==")) (ascii "a+b/w==") plusBody
    _ _ (by decide) (by decide) (by decide) (.inl rfl) runs_plusAttempt (by decide)
    sentBody_plusAttempt
  exact absurd hfield (by decide)

end HttpEnrollment

end LibreSwitch.Net
