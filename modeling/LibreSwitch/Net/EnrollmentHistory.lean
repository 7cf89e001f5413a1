import LibreSwitch.Net.EnrollmentDelivery

/-!
# Repeated enrollment

A device enrolls until it has a certificate: `History` are the attempts it made and the store they
left, where every read is faithful and every write may fail. `store` writes the keys of an identity
one after the other, and the question whether the device is enrolled looks at `tls_cert` alone, so
an identity counts as complete from that write on.

`Undamaged` is the condition on an attempt under which this is right: once its certificate is
written no other write of it fails, and a field its response lacks is not left in the store by an
earlier attempt. Histories of such attempts keep the invariant that a store with a certificate holds
the identity of one attempt that succeeded (`enrolledBy_of_history`).
-/

set_option autoImplicit false
set_option relaxedAutoImplicit false

namespace LibreSwitch.Net

open LibreSwitch.Library LibreSwitch.Platform

namespace HttpEnrollment

open EnrollmentResponseCodec (fields)

/-! ### The identity in a store -/

/-- The key under which a field is stored. -/
def keyOf : FieldName → Bytes
  | .deviceId => ascii "device_id"
  | .mqttHost => ascii "mqtt_host"
  | .mqttRoot => ascii "mqtt_root"
  | .tlsCa => ascii "tls_ca"
  | .tlsCert => ascii "tls_cert"
  | .tlsKey => ascii "tls_key"

/-- The store holds the identity with these fields, and nothing under the keys of those that have
no bytes. -/
def HoldsIdentity (texts : FieldName → Bytes) (kv : KvMap) : Prop :=
  ∀ name, kv.blobs (keyOf name) = if texts name = [] then none else some (texts name)

/-- No key of an identity is stored. -/
def Unenrolled (kv : KvMap) : Prop := ∀ name, kv.blobs (keyOf name) = none

theorem keyOf_injective : Function.Injective keyOf := by
  intro first second heq
  cases first <;> cases second <;> first | rfl | exact absurd heq (by decide)

/-- The fields in the order in which they are stored. -/
def storeOrder : List FieldName := [.tlsCa, .tlsCert, .tlsKey, .mqttHost, .mqttRoot, .deviceId]

/-- An identity with the required fields has exactly the fields that have bytes, in order. -/
theorem identity_eq {texts : FieldName → Bytes}
    (hrequired : ∀ name, EnrollmentResponseCodec.Required name → texts name ≠ []) :
    identity texts = (storeOrder.filter fun name ↦ texts name ≠ []).map fun name ↦
      (keyOf name, texts name) := by
  have hca := hrequired .tlsCa (.inl rfl)
  have hcert := hrequired .tlsCert (.inr (.inl rfl))
  have hkey := hrequired .tlsKey (.inr (.inr (.inl rfl)))
  have hhost := hrequired .mqttHost (.inr (.inr (.inr rfl)))
  by_cases hroot : texts .mqttRoot = [] <;> by_cases hid : texts .deviceId = [] <;>
    simp [identity, storeOrder, keyOf, hca, hcert, hkey, hhost, hroot, hid]

/-! ### The store after a list of writes -/

/-- A key outside the list is not written. -/
theorem blobs_writeEvents_of_notMem {list : List (Bytes × Bytes)} {key : Bytes}
    (hkey : key ∉ list.map Prod.fst) (results : List Bool) (kv : KvMap) :
    (kv.afterAll (writeEvents list results)).blobs key = kv.blobs key := by
  induction list generalizing results kv with
  | nil => rfl
  | cons write rest ih =>
    cases results with
    | nil => rfl
    | cons stored results =>
      rw [List.map_cons, List.mem_cons, not_or] at hkey
      change ((kv.after (.setBlob write.1 write.2) stored).afterAll
        (writeEvents rest results)).blobs
        key = kv.blobs key
      rw [ih hkey.2, KvMap.blobs_after_setBlob_of_ne hkey.1]

/-- What is written for a key that stands in the list once: the new value if the write succeeded,
else the old one. -/
theorem blobs_writeEvents {list : List (Bytes × Bytes)} (hnodup : (list.map Prod.fst).Nodup)
    {results : List Bool} (hlength : results.length = list.length) {key data : Bytes}
    (hmem : (key, data) ∈ list) (kv : KvMap) :
    (((key, data), true) ∈ list.zip results ∧
        (kv.afterAll (writeEvents list results)).blobs key = some data) ∨
      (((key, data), false) ∈ list.zip results ∧
        (kv.afterAll (writeEvents list results)).blobs key = kv.blobs key) := by
  induction list generalizing results kv with
  | nil => cases hmem
  | cons write rest ih =>
    cases results with
    | nil => cases hlength
    | cons stored results =>
      obtain ⟨hfresh, hrest⟩ := List.nodup_cons.mp hnodup
      change (((key, data), true) ∈ (write, stored) :: rest.zip results ∧
          ((kv.after (.setBlob write.1 write.2) stored).afterAll
            (writeEvents rest results)).blobs key = some data) ∨
        (((key, data), false) ∈ (write, stored) :: rest.zip results ∧
          ((kv.after (.setBlob write.1 write.2) stored).afterAll
            (writeEvents rest results)).blobs key = kv.blobs key)
      rcases List.mem_cons.mp hmem with rfl | hlater
      · rw [blobs_writeEvents_of_notMem hfresh]
        cases stored with
        | true => exact .inl ⟨List.mem_cons_self, by simp⟩
        | false => exact .inr ⟨List.mem_cons_self, rfl⟩
      · have hkey : key ≠ write.1 := fun heq ↦
          hfresh (heq ▸ List.mem_map_of_mem (f := Prod.fst) hlater)
        have hkept := KvMap.blobs_after_setBlob_of_ne hkey kv write.2 stored
        rcases ih hrest (Nat.succ.inj hlength) hlater (kv.after (.setBlob write.1 write.2) stored)
          with hwritten | hfailed
        · exact .inl ⟨List.mem_cons_of_mem _ hwritten.1, hwritten.2⟩
        · exact .inr ⟨List.mem_cons_of_mem _ hfailed.1, hfailed.2.trans hkept⟩

/-! ### One attempt -/

/-- `hasOperationalCert` is true of this store. -/
def Certified (kv : KvMap) : Prop :=
  ∃ trace, hasOperationalCert.Runs trace true ∧ kv.Faithful trace

theorem certified_iff {kv : KvMap} :
    Certified kv ↔ ((kv.blobs (ascii "tls_cert")).getD []).take 4 ≠ [] := by
  constructor
  · intro hcertified
    obtain ⟨trace, hruns, hfaithful⟩ := hcertified
    obtain ⟨cert, rest, rfl, -, hcert⟩ := hruns
    have hread : cert = KvStore.getBlob kv (ascii "tls_cert") 4 := hfaithful.1
    rw [hread, KvMap.getBlob_eq] at hcert
    exact List.ne_nil_of_length_pos (of_decide_eq_true hcert.symm)
  · intro hblob
    refine ⟨[⟨.getBlob (ascii "tls_cert") 4, KvStore.getBlob kv (ascii "tls_cert") 4⟩],
      ⟨_, [], rfl, rfl, ?_⟩, rfl, trivial⟩
    rw [KvMap.getBlob_eq]
    exact (decide_eq_true (List.length_pos_of_ne_nil hblob)).symm

theorem certified_congr {kv kv' : KvMap}
    (hcert : kv'.blobs (ascii "tls_cert") = kv.blobs (ascii "tls_cert")) :
    Certified kv' ↔ Certified kv := by
  rw [certified_iff, certified_iff, hcert]

theorem runs_hasOperationalCert {kv : KvMap} {trace : List KvEvent} {result : Bool}
    (hruns : hasOperationalCert.Runs trace result) (hfaithful : kv.Faithful trace) :
    (result = true ↔ Certified kv) ∧ kv.afterAll trace = kv ∧ trace.filterMap writeOf = [] := by
  obtain ⟨cert, rest, rfl, rfl, rfl⟩ := hruns
  have hread : cert = KvStore.getBlob kv (ascii "tls_cert") 4 := hfaithful.1
  refine ⟨?_, rfl, rfl⟩
  rw [certified_iff, hread, KvMap.getBlob_eq, decide_eq_true_iff, gt_iff_lt, List.length_pos_iff]

theorem runs_chooseToken {token : Option Bytes} {trace : List KvEvent} {chosen : Bytes}
    (hruns : (chooseToken token).Runs trace chosen) (kv : KvMap) :
    kv.afterAll trace = kv ∧ trace.filterMap writeOf = [] := by
  unfold chooseToken at hruns
  split at hruns
  · obtain ⟨seeded, rest, rfl, rfl, -⟩ := hruns
    exact ⟨rfl, rfl⟩
  · obtain ⟨seeded, rest, rfl, rfl, -⟩ := hruns
    exact ⟨rfl, rfl⟩
  · obtain ⟨rfl, -⟩ := hruns
    exact ⟨rfl, rfl⟩

/-- An attempt finds a certificate and returns true without any write, or it is an exchange. -/
theorem enroll_cases {enrollment : HttpEnrollment} {rounds : ℕ} {token : Option Bytes}
    {kv : KvMap} {trace : List EnrollEvent} {result : Bool}
    (hruns : (enrollment.enroll rounds token).Runs trace result)
    (hfaithful : kv.Faithful (kvEvents trace)) :
    (Certified kv ∧ result = true ∧ kv.afterAll (kvEvents trace) = kv) ∨
      (¬ Certified kv ∧ ∃ events, Exchanged (received trace) events result ∧
        writesOf trace = events.filterMap writeOf ∧
        kv.afterAll (kvEvents trace) = kv.afterAll events) := by
  obtain ⟨certified, first, rest, rfl, hfirst, hrest⟩ := Prog.runs_bind.mp hruns
  obtain ⟨hcert, hfirstReceived⟩ := runs_onKv hfirst
  rw [kvEvents_append, KvMap.faithful_append] at hfaithful
  obtain ⟨hcertified, hfirstKv, hfirstWrites⟩ := runs_hasOperationalCert hcert hfaithful.1
  rw [writesOf, kvEvents_append, KvMap.afterAll_append, List.filterMap_append, hfirstKv,
    hfirstWrites, List.nil_append, received_append, hfirstReceived, List.nil_append]
  cases certified with
  | true =>
    obtain ⟨rfl, rfl⟩ := hrest
    exact .inl ⟨hcertified.mp rfl, rfl, rfl⟩
  | false =>
    refine .inr ⟨fun hcert ↦ Bool.false_ne_true (hcertified.mpr hcert), ?_⟩
    simp only [Bool.false_eq_true, ↓reduceIte] at hrest
    obtain ⟨chosen, second, last, rfl, hsecond, hlast⟩ := Prog.runs_bind.mp hrest
    obtain ⟨hchoose, hsecondReceived⟩ := runs_onKv hsecond
    obtain ⟨hsecondKv, hsecondWrites⟩ := runs_chooseToken hchoose kv
    rw [kvEvents_append, KvMap.afterAll_append, List.filterMap_append, hsecondKv, hsecondWrites,
      List.nil_append, received_append, hsecondReceived, List.nil_append]
    refine ⟨kvEvents last, ?_, rfl, rfl⟩
    split_ifs at hlast
    · obtain ⟨rfl, rfl⟩ := hlast
      exact exchanged_nil rfl rfl
    · obtain ⟨rfl, rfl⟩ := hlast
      exact exchanged_nil rfl rfl
    · obtain ⟨rfl, rfl⟩ := hlast
      exact exchanged_nil rfl rfl
    · exact exchanged_doEnroll hlast

/-! ### Histories -/

/-- A call of `enroll`: its argument, its run and its result. -/
structure Attempt where
  token : Option Bytes
  trace : List EnrollEvent
  result : Bool

/-- The bytes of the response that an attempt received. -/
def Attempt.response (attempt : Attempt) : Bytes := received attempt.trace

/-- The attempts of a device that started without an identity, each of which meets a condition on
the store it started from, and the store they left. -/
inductive History (enrollment : HttpEnrollment) (meets : KvMap → Attempt → Prop) :
    List Attempt → KvMap → Prop
  | new {kv : KvMap} (hnew : Unenrolled kv) : History enrollment meets [] kv
  | attempt {attempts : List Attempt} {kv : KvMap} {rounds : ℕ} {attempt : Attempt}
      (hhistory : History enrollment meets attempts kv)
      (hruns : (enrollment.enroll rounds attempt.token).Runs attempt.trace attempt.result)
      (hfaithful : kv.Faithful (kvEvents attempt.trace)) (hmeets : meets kv attempt) :
      History enrollment meets (attempts ++ [attempt]) (kv.afterAll (kvEvents attempt.trace))

/-- If an attempt writes its certificate, then no write of it fails, and the fields that its
response lacks are not stored from before. -/
def Undamaged (kv : KvMap) (attempt : Attempt) : Prop :=
  (∃ data, ((ascii "tls_cert", data), true) ∈ writesOf attempt.trace) →
    (∀ write ∈ writesOf attempt.trace, write.2 = true) ∧
    ∀ name, fields attempt.response name = [] → kv.blobs (keyOf name) = none

/-- The attempt succeeded with a complete response, and the store holds the identity in it. -/
structure EnrolledBy (attempt : Attempt) (kv : KvMap) : Prop where
  succeeded : attempt.result = true
  accepted : Accepted attempt.response
  holds : HoldsIdentity (fields attempt.response) kv

section Stored

variable {body : Bytes} (haccepted : Accepted body) {results : List Bool}
  (hlength : results.length = (identity (fields body)).length)

include haccepted

theorem nodup_identity : ((identity (fields body)).map Prod.fst).Nodup := by
  rw [identity_eq (EnrollmentResponseCodec.valid_iff.mp haccepted.1), List.map_map]
  exact List.Nodup.map keyOf_injective (List.Nodup.filter _ (by decide))

theorem mem_identity {name : FieldName} (hname : fields body name ≠ []) :
    (keyOf name, fields body name) ∈ identity (fields body) := by
  rw [identity_eq (EnrollmentResponseCodec.valid_iff.mp haccepted.1)]
  refine List.mem_map.mpr ⟨name, List.mem_filter.mpr ⟨?_, decide_eq_true hname⟩, rfl⟩
  cases name <;> decide

theorem notMem_identity {name : FieldName} (hname : fields body name = []) :
    keyOf name ∉ (identity (fields body)).map Prod.fst := by
  rw [identity_eq (EnrollmentResponseCodec.valid_iff.mp haccepted.1), List.map_map]
  intro hmem
  obtain ⟨other, hother, hkey⟩ := List.mem_map.mp hmem
  rw [keyOf_injective hkey] at hother
  exact of_decide_eq_true (List.mem_filter.mp hother).2 hname

include hlength

/-- The writes of an accepted response leave its identity if all of them succeed. -/
theorem holdsIdentity_writeEvents
    (hwritten : ∀ write ∈ (identity (fields body)).zip results, write.2 = true) {kv : KvMap}
    (habsent : ∀ name, fields body name = [] → kv.blobs (keyOf name) = none) :
    HoldsIdentity (fields body) (kv.afterAll (writeEvents (identity (fields body)) results)) := by
  intro name
  split_ifs with hname
  · rw [blobs_writeEvents_of_notMem (notMem_identity haccepted hname), habsent name hname]
  · rcases blobs_writeEvents (nodup_identity haccepted) hlength (mem_identity haccepted hname) kv
      with hstored | hfailed
    · exact hstored.2
    · exact absurd (hwritten _ hfailed.1) Bool.false_ne_true

end Stored

/-- One attempt: it returns true over a certificate that it found, or leaves the identity in its
response, or returns false and leaves no certificate. -/
theorem enrolledBy_of_attempt {enrollment : HttpEnrollment} {rounds : ℕ} {kv : KvMap}
    {attempt : Attempt}
    (hruns : (enrollment.enroll rounds attempt.token).Runs attempt.trace attempt.result)
    (hfaithful : kv.Faithful (kvEvents attempt.trace)) (hundamaged : Undamaged kv attempt) :
    (Certified kv ∧ attempt.result = true ∧ kv.afterAll (kvEvents attempt.trace) = kv) ∨
      EnrolledBy attempt (kv.afterAll (kvEvents attempt.trace)) ∨
      (attempt.result = false ∧ ¬ Certified (kv.afterAll (kvEvents attempt.trace))) := by
  obtain ⟨token, trace, result⟩ := attempt
  rcases enroll_cases hruns hfaithful with hfound | hexchange
  · exact .inl hfound
  · obtain ⟨hcertified, events, hexchanged, hwrites, hafter⟩ := hexchange
    simp only [Undamaged, Attempt.response, hwrites] at hundamaged
    simp only [hafter]
    refine .inr ?_
    cases hexchanged with
    | refused hrefused => exact .inr ⟨rfl, hcertified⟩
    | stored haccepted results hlength =>
      rw [filterMap_writeEvents] at hundamaged
      have hcert : fields (received trace) .tlsCert ≠ [] :=
        EnrollmentResponseCodec.valid_iff.mp haccepted.1 .tlsCert (.inr (.inl rfl))
      rcases blobs_writeEvents (nodup_identity haccepted) hlength (mem_identity haccepted hcert) kv
        with hstored | hfailed
      · obtain ⟨hwritten, habsent⟩ := hundamaged ⟨_, hstored.1⟩
        refine .inl ⟨?_, haccepted, holdsIdentity_writeEvents haccepted hlength hwritten habsent⟩
        refine List.all_eq_true.mpr fun stored hmem ↦ ?_
        rw [← List.map_snd_zip hlength.le] at hmem
        obtain ⟨write, hwrite, rfl⟩ := List.mem_map.mp hmem
        exact hwritten write hwrite
      · refine .inr ⟨List.all_eq_false.mpr ⟨false, (List.of_mem_zip hfailed.1).2, by simp⟩, ?_⟩
        rwa [certified_congr hfailed.2]

/-- In a history of undamaged attempts, a store with a certificate holds the identity of one of
them. -/
theorem enrolledBy_of_history {enrollment : HttpEnrollment} {attempts : List Attempt} {kv : KvMap}
    (hhistory : History enrollment Undamaged attempts kv) (hcertified : Certified kv) :
    ∃ attempt ∈ attempts, EnrolledBy attempt kv := by
  induction hhistory with
  | new hnew =>
    rw [certified_iff, show ascii "tls_cert" = keyOf .tlsCert from rfl, hnew .tlsCert] at hcertified
    exact absurd rfl hcertified
  | @attempt attempts kv rounds attempt hhistory hruns hfaithful hmeets ih =>
    rcases enrolledBy_of_attempt hruns hfaithful hmeets with hfound | henrolled | hfailed
    · obtain ⟨earlier, hearlier, henrolled⟩ := ih hfound.1
      rw [hfound.2.2]
      exact ⟨earlier, List.mem_append_left _ hearlier, henrolled⟩
    · exact ⟨attempt, List.mem_append_right _ (List.mem_singleton_self _), henrolled⟩
    · exact absurd hcertified hfailed.2

/-- A history of undamaged attempts whose last one returned false leaves no certificate. -/
theorem not_certified_of_failed {enrollment : HttpEnrollment} {attempts : List Attempt} {kv : KvMap}
    (hhistory : History enrollment Undamaged attempts kv) {before : List Attempt}
    {attempt : Attempt} (hsplit : attempts = before ++ [attempt])
    (hresult : attempt.result = false) : ¬ Certified kv := by
  cases hhistory with
  | new hnew => simp at hsplit
  | @attempt attempts kv rounds last hhistory hruns hfaithful hmeets =>
    obtain ⟨-, hlast⟩ := List.append_inj' hsplit rfl
    obtain rfl : last = attempt := by simpa using hlast
    rcases enrolledBy_of_attempt hruns hfaithful hmeets with hfound | henrolled | hfailed
    · exact absurd (hresult.symm.trans hfound.2.1) Bool.false_ne_true
    · exact absurd (hresult.symm.trans henrolled.succeeded) Bool.false_ne_true
    · exact hfailed.2

/-- Enrollment is all or nothing in every history of undamaged attempts: a store with a certificate
holds the identity in the response of one attempt, which succeeded; an attempt that returned false
leaves no certificate; and one that returns true has an exchange that succeeded behind it, its own
or an earlier one. -/
theorem all_or_nothing {enrollment : HttpEnrollment} {attempts : List Attempt} {kv : KvMap}
    (hhistory : History enrollment Undamaged attempts kv) :
    (Certified kv → ∃ attempt ∈ attempts, EnrolledBy attempt kv) ∧
      (∀ before attempt, attempts = before ++ [attempt] → attempt.result = false →
        ¬ Certified kv) ∧
      ∀ before attempt after, attempts = before ++ attempt :: after → attempt.result = true →
        ∃ exchange ∈ before ++ [attempt], exchange.result = true ∧ Accepted exchange.response := by
  refine ⟨enrolledBy_of_history hhistory,
    fun before attempt hsplit ↦ not_certified_of_failed hhistory hsplit, ?_⟩
  induction hhistory with
  | new hnew =>
    intro before attempt after hsplit
    simp at hsplit
  | @attempt attempts kv rounds attempt hhistory hruns hfaithful hmeets ih =>
    intro before chosen after hsplit hresult
    rcases List.eq_nil_or_concat after with rfl | ⟨after, last, rfl⟩
    · obtain ⟨rfl, hchosen⟩ := List.append_inj' hsplit rfl
      obtain rfl : attempt = chosen := by simpa using hchosen
      rcases enrolledBy_of_attempt hruns hfaithful hmeets with hfound | henrolled | hfailed
      · obtain ⟨earlier, hearlier, henrolled⟩ := enrolledBy_of_history hhistory hfound.1
        exact ⟨earlier, List.mem_append_left _ hearlier, henrolled.succeeded, henrolled.accepted⟩
      · exact ⟨attempt, List.mem_append_right _ (List.mem_singleton_self _), henrolled.succeeded,
          henrolled.accepted⟩
      · rw [hfailed.1] at hresult
        cases hresult
    · rw [List.concat_eq_append, ← List.cons_append, ← List.append_assoc] at hsplit
      exact ih before chosen after (List.append_inj' hsplit rfl).1 hresult

/-! ### The attempts of a new device -/

/-- What a device without a certificate does when the server sends it a whole response, and its
store refuses to write some keys. -/
def answeredEnroll (refuses : Bytes → Bool) : Option (List EnrollEvent × Bool) :=
  (pinned.enroll 2 (some (ascii "t"))).play (serve refuses)
    (ascii "HTTP/1.1 200\n\n" ++ wholeResponse)

/-- That attempt. -/
def answeredAttempt (refuses : Bytes → Bool) (hsome : (answeredEnroll refuses).isSome = true) :
    Attempt :=
  { token := some (ascii "t")
    trace := ((answeredEnroll refuses).get hsome).1
    result := ((answeredEnroll refuses).get hsome).2 }

theorem runs_answeredAttempt {refuses : Bytes → Bool}
    (hsome : (answeredEnroll refuses).isSome = true) :
    (pinned.enroll 2 (answeredAttempt refuses hsome).token).Runs
      (answeredAttempt refuses hsome).trace (answeredAttempt refuses hsome).result :=
  Prog.runs_play hsome

theorem isSome_stored : (answeredEnroll fun _ ↦ false).isSome = true := by decide

theorem isSome_certless : (answeredEnroll fun key ↦ key = ascii "tls_cert").isSome = true := by
  decide

theorem isSome_keyless : (answeredEnroll fun key ↦ key = ascii "tls_key").isSome = true := by
  decide

def storedAttempt : Attempt := answeredAttempt (fun _ ↦ false) isSome_stored

/-- The attempt whose certificate was not written. -/
def certlessAttempt : Attempt := answeredAttempt (fun key ↦ key = ascii "tls_cert") isSome_certless

/-- The attempt whose key was not written. -/
def keylessAttempt : Attempt := answeredAttempt (fun key ↦ key = ascii "tls_key") isSome_keyless

def emptyStore : KvMap := ⟨fun _ ↦ none⟩

/-- What the attempt without a certificate leaves: all other keys of its response. -/
def certlessStore : KvMap := emptyStore.afterAll (kvEvents certlessAttempt.trace)

theorem history_certlessAttempt : History pinned Undamaged [certlessAttempt] certlessStore := by
  have hundamaged : Undamaged emptyStore certlessAttempt := by
    rintro ⟨data, hwritten⟩
    have hnone : ∀ write ∈ writesOf certlessAttempt.trace, write.2 = true →
        write.1.1 ≠ ascii "tls_cert" := by decide
    exact absurd rfl (hnone _ hwritten rfl)
  exact .attempt (.new fun _ ↦ rfl) (runs_answeredAttempt isSome_certless) (by decide) hundamaged

theorem history_storedAttempt : History pinned Undamaged [certlessAttempt, storedAttempt]
    (certlessStore.afterAll (kvEvents storedAttempt.trace)) := by
  have hundamaged : Undamaged certlessStore storedAttempt := by
    refine fun _ ↦ ⟨by decide, fun name hname ↦ ?_⟩
    revert hname
    cases name <;> decide
  exact .attempt history_certlessAttempt (runs_answeredAttempt isSome_stored) (by decide) hundamaged

theorem history_keylessAttempt : History pinned (fun _ _ ↦ True) [keylessAttempt]
    (emptyStore.afterAll (kvEvents keylessAttempt.trace)) :=
  .attempt (.new fun _ ↦ rfl) (runs_answeredAttempt isSome_keyless) (by decide) trivial

/-- The failed attempt leaves no certificate, and the next one the identity of one response. -/
theorem all_or_nothing_witness :
    ¬ Certified certlessStore ∧
      ∃ attempt ∈ [certlessAttempt, storedAttempt],
        EnrolledBy attempt (certlessStore.afterAll (kvEvents storedAttempt.trace)) :=
  ⟨(all_or_nothing history_certlessAttempt).2.1 [] certlessAttempt rfl (by decide),
    (all_or_nothing history_storedAttempt).1 (certified_iff.mpr (by decide))⟩

/-- With the certificate stored and the key not, the device counts as enrolled. -/
theorem all_or_nothing_false_keylessAttempt :
    ¬ ∀ (enrollment : HttpEnrollment) (attempts : List Attempt) (kv : KvMap),
      History enrollment (fun _ _ ↦ True) attempts kv → Certified kv →
        ∀ name, EnrollmentResponseCodec.Required name → kv.blobs (keyOf name) ≠ none := by
  intro hall
  have hpresent := hall pinned _ _ history_keylessAttempt (certified_iff.mpr (by decide)) .tlsKey
    (.inr (.inr (.inl rfl)))
  exact absurd hpresent (by decide)

end HttpEnrollment

end LibreSwitch.Net
