import Mathlib.Data.Prod.Lex
import LibreSwitch.Log.Logger

/-!
# The order of the log

Without a real-time clock the reader puts records in order by their session and their uptime. A run
of sessions over one store is `Boots`: each counts up the boot counter and then logs any number of
events, with time passing and other parts of the firmware writing other keys. `InOrder` says that
the stamps do not decrease from record to record and that sessions can be told apart.

Both clocks are counters that wrap around. `inOrder_iff` says that the records are in order exactly
as long as neither wrap shows: the boot counter does not pass 65535, and no session has records on
both sides of a multiple of 2³² milliseconds in the wrong order.
-/

set_option autoImplicit false
set_option relaxedAutoImplicit false

namespace LibreSwitch.Log

open LibreSwitch.Library LibreSwitch.Platform Logger

namespace LogOrder

/-! ### Sessions -/

/-- A call on the logger after `begin`. -/
inductive Operation
  | log (code : EventCode) (severity : Severity) (arg1 arg2 : UInt16)
  | onNtpSync

def perform (logger : Logger) : Operation → Prog LogCall LogAns Logger
  | .log code severity arg1 arg2 => do
    let _ ← logger.log code severity arg1 arg2
    return logger
  | .onNtpSync => logger.onNtpSync

def performAll (logger : Logger) : List Operation → Prog LogCall LogAns Logger
  | [] => return logger
  | operation :: rest => do
    let logger ← perform logger operation
    performAll logger rest

/-- The calls of a session. -/
def sessionProgram (operations : List Operation) : Prog LogCall LogAns Logger := do
  let logger ← Logger.begin {}
  performAll logger operations

/-- A session: what was logged, what happened, and the milliseconds since boot at which the uptime
was read. -/
structure Session where
  operations : List Operation
  trace : List LogEvent
  times : List ℕ

/-- The stamps of the records that were given to the sink. -/
def Session.given (session : Session) : List (UInt16 ×ₗ UInt32) :=
  (appends session.trace).map fun append ↦ stamp append.1

/-- The stamps of the records that the sink took. -/
def Session.taken (session : Session) : List (UInt16 ×ₗ UInt32) :=
  ((appends session.trace).filter (·.2)).map fun append ↦ stamp append.1

/-- The session ran over a store, every write of the boot counter succeeded, and the uptime is the
time since boot modulo 2³². -/
structure IsSession (kv : KvMap) (session : Session) : Prop where
  runs : ∃ logger, (sessionProgram session.operations).Runs session.trace logger
  faithful : kv.Faithful (kvEvents session.trace)
  counted : ∀ data, (⟨.setBlob (ascii "boot_id") data, false⟩ : KvEvent) ∉ kvEvents session.trace
  clock : uptimes session.trace = session.times.map UInt32.ofNat
  passes : session.times.Pairwise (· ≤ ·)

/-- A run of sessions. Between two of them the other keys of the store may change. -/
inductive Boots : KvMap → List Session → Prop
  | nil (kv : KvMap) : Boots kv []
  | cons {kv kv' : KvMap} {session : Session} {rest : List Session}
      (hsession : IsSession kv session)
      (hkept : kv'.blobs (ascii "boot_id") =
        (kv.afterAll (kvEvents session.trace)).blobs (ascii "boot_id"))
      (hrest : Boots kv' rest) : Boots kv (session :: rest)

/-- The stamps of the sessions do not decrease from one record to a later one, and records of
different sessions have different boot ids. -/
structure InOrder (sessions : List (List (UInt16 ×ₗ UInt32))) : Prop where
  ordered : sessions.flatten.Pairwise (· ≤ ·)
  distinct : sessions.Pairwise fun earlier later ↦
    ∀ first ∈ earlier, ∀ second ∈ later, (ofLex first).1 ≠ (ofLex second).1

/-- Neither counter wraps around where it shows. -/
structure NoWrap (kv : KvMap) (sessions : List Session) : Prop where
  bootId : (storedBootId kv + 1).toNat + sessions.length ≤ 2 ^ 16
  uptime : ∀ session ∈ sessions,
    session.times.Pairwise fun first second ↦ first % 2 ^ 32 ≤ second % 2 ^ 32

/-! ### The stamps of a run -/

theorem stamped_perform {logger result : Logger} {operation : Operation} {trace : List LogEvent}
    (hruns : (perform logger operation).Runs trace result) :
    result.bootId = logger.bootId ∧ Stamped logger.bootId trace ∧ KeepsBootId trace := by
  cases operation with
  | log code severity arg1 arg2 =>
    obtain ⟨taken, first, second, rfl, hlog, rfl, rfl⟩ := Prog.runs_bind.mp hruns
    obtain ⟨hstamped, hkv, -⟩ := built_of_runs hlog
    rw [List.append_nil]
    exact ⟨rfl, hstamped, keepsBootId_of_nil hkv⟩
  | onNtpSync => exact onNtpSync_of_runs hruns

theorem stamped_performAll {logger result : Logger} {operations : List Operation}
    {trace : List LogEvent} (hruns : (performAll logger operations).Runs trace result) :
    Stamped logger.bootId trace ∧ KeepsBootId trace := by
  induction operations generalizing logger trace with
  | nil =>
    obtain ⟨rfl, rfl⟩ := hruns
    exact ⟨rfl, nofun⟩
  | cons operation rest ih =>
    obtain ⟨next, first, second, rfl, hfirst, hsecond⟩ := Prog.runs_bind.mp hruns
    obtain ⟨hbootId, hstamped, hkeeps⟩ := stamped_perform hfirst
    obtain ⟨hrest, hrestKeeps⟩ := ih hsecond
    rw [hbootId] at hrest
    exact ⟨stamped_append hstamped hrest, keepsBootId_append hkeeps hrestKeeps⟩

/-- The stamps of a session that read the clock at these times. -/
def stampsAt (id : UInt16) (times : List ℕ) : List (UInt16 ×ₗ UInt32) :=
  times.map fun time ↦ toLex (id, UInt32.ofNat time)

/-- A session has the boot id that follows the stored one, a record for every reading of the
clock, and at least one record; it leaves its boot id in the store. -/
theorem given_of_isSession {kv : KvMap} {session : Session} (hsession : IsSession kv session) :
    session.given = stampsAt (storedBootId kv + 1) session.times ∧ session.times ≠ [] ∧
      storedBootId (kv.afterAll (kvEvents session.trace)) = storedBootId kv + 1 := by
  obtain ⟨operations, trace, times⟩ := session
  obtain ⟨⟨result, hruns⟩, hfaithful, hcounted, hclock, -⟩ := hsession
  obtain ⟨logger, first, second, rfl, hbegin, hperform⟩ := Prog.runs_bind.mp hruns
  simp only [kvEvents_append] at hfaithful hcounted
  obtain ⟨hbootId, hstored, hfirst, hlength⟩ := begin_of_runs hbegin
    (KvMap.faithful_append.mp hfaithful).1
    fun data hmem ↦ hcounted data (List.mem_append_left _ hmem)
  obtain ⟨hsecond, hkeeps⟩ := stamped_performAll hperform
  have hstamped := stamped_append hfirst hsecond
  unfold Stamped at hstamped
  simp only at hclock
  refine ⟨?_, ?_, ?_⟩
  · change List.map _ (appends (first ++ second)) = _
    rw [hstamped, hclock, List.map_map, hbootId]
    rfl
  · rintro rfl
    rw [uptimes_append, List.map_nil, List.append_eq_nil_iff] at hclock
    rw [hclock.1] at hlength
    cases hlength
  · change storedBootId (kv.afterAll (kvEvents (first ++ second))) = _
    rw [kvEvents_append, KvMap.afterAll_append, storedBootId_congr (KvMap.blobs_afterAll hkeeps _),
      hstored, hbootId]

/-- The stamps of consecutive sessions. -/
def stampsFrom : UInt16 → List (List ℕ) → List (List (UInt16 ×ₗ UInt32))
  | _, [] => []
  | id, times :: rest => stampsAt id times :: stampsFrom (id + 1) rest

/-- The sessions of a run have consecutive boot ids. -/
theorem given_of_boots {kv : KvMap} {sessions : List Session} (hboots : Boots kv sessions) :
    sessions.map Session.given = stampsFrom (storedBootId kv + 1) (sessions.map (·.times)) ∧
      ∀ times ∈ sessions.map (·.times), times ≠ [] := by
  induction hboots with
  | nil kv => exact ⟨rfl, nofun⟩
  | @cons kv kv' session rest hsession hkept _ ih =>
    obtain ⟨hgiven, hnonempty, hstored⟩ := given_of_isSession hsession
    obtain ⟨hrest, hothers⟩ := ih
    have hid : storedBootId kv' = storedBootId kv + 1 := (storedBootId_congr hkept).trans hstored
    rw [hid] at hrest
    refine ⟨?_, ?_⟩
    · rw [List.map_cons, hgiven, hrest]
      rfl
    · intro times htimes
      rw [List.map_cons] at htimes
      rcases List.mem_cons.mp htimes with rfl | hlater
      · exact hnonempty
      · exact hothers times hlater

/-! ### When stamps are in order -/

/-- Sessions are in order when each is, and when the boot ids increase. -/
theorem inOrder_iff_pairwise {sessions : List (List (UInt16 ×ₗ UInt32))} :
    InOrder sessions ↔ (∀ session ∈ sessions, session.Pairwise (· ≤ ·)) ∧
      sessions.Pairwise fun earlier later ↦
        ∀ first ∈ earlier, ∀ second ∈ later, (ofLex first).1 < (ofLex second).1 := by
  constructor
  · intro horder
    obtain ⟨hwithin, hacross⟩ := List.pairwise_flatten.mp horder.ordered
    refine ⟨hwithin, hacross.imp₂ (fun earlier later hle hne ↦ ?_) horder.distinct⟩
    intro first hfirst second hsecond
    rcases Prod.Lex.le_iff.mp (hle first hfirst second hsecond) with hlt | ⟨heq, -⟩
    · exact hlt
    · exact absurd heq (hne first hfirst second hsecond)
  · intro hparts
    obtain ⟨hwithin, hacross⟩ := hparts
    refine ⟨List.pairwise_flatten.mpr ⟨hwithin, hacross.imp fun hlt ↦ ?_⟩, hacross.imp fun hlt ↦ ?_⟩
    · intro first hfirst second hsecond
      exact Prod.Lex.le_iff.mpr (.inl (hlt first hfirst second hsecond))
    · intro first hfirst second hsecond
      exact UInt16.ne_of_lt (hlt first hfirst second hsecond)

/-- Records that the sink did not take can be left out. -/
theorem inOrder_taken {sessions : List Session} (horder : InOrder (sessions.map Session.given)) :
    InOrder (sessions.map Session.taken) := by
  have hsublist (session : Session) : session.taken.Sublist session.given :=
    List.filter_sublist.map _
  rw [inOrder_iff_pairwise, List.pairwise_map] at horder ⊢
  obtain ⟨hwithin, hacross⟩ := horder
  refine ⟨fun stamps hstamps ↦ ?_, hacross.imp fun {earlier later} hlt ↦ ?_⟩
  · obtain ⟨session, hsession, rfl⟩ := List.mem_map.mp hstamps
    exact (hwithin _ (List.mem_map_of_mem hsession)).sublist (hsublist session)
  · intro first hfirst second hsecond
    exact hlt first ((hsublist earlier).subset hfirst) second ((hsublist later).subset hsecond)

/-- Within a session the stamps are in order when the readings are. -/
theorem pairwise_stampsAt {id : UInt16} {times : List ℕ} :
    (stampsAt id times).Pairwise (· ≤ ·) ↔
      times.Pairwise fun first second ↦ first % 2 ^ 32 ≤ second % 2 ^ 32 := by
  rw [stampsAt, List.pairwise_map]
  refine List.Pairwise.iff fun first second ↦ ?_
  rw [Prod.Lex.toLex_le_toLex, UInt32.le_iff_toNat_le, UInt32.toNat_ofNat', UInt32.toNat_ofNat']
  constructor
  · intro hle
    rcases hle with hlt | ⟨-, huptime⟩
    · exact absurd hlt (UInt16.lt_irrefl id)
    · exact huptime
  · intro huptime
    exact .inr ⟨rfl, huptime⟩

/-- Every session is in order when its readings are. -/
theorem forall_mem_stampsFrom {id : UInt16} {sessions : List (List ℕ)} :
    (∀ session ∈ stampsFrom id sessions, session.Pairwise (· ≤ ·)) ↔
      ∀ times ∈ sessions, times.Pairwise fun first second ↦ first % 2 ^ 32 ≤ second % 2 ^ 32 := by
  induction sessions generalizing id with
  | nil => exact iff_of_true nofun nofun
  | cons times rest ih =>
    rw [stampsFrom, List.forall_mem_cons, List.forall_mem_cons, pairwise_stampsAt, ih]

theorem toNat_succ {id : UInt16} (hid : id.toNat + 1 < 2 ^ 16) : (id + 1).toNat = id.toNat + 1 := by
  rw [UInt16.toNat_add]
  exact Nat.mod_eq_of_lt hid

/-- As long as the counter does not wrap, no session has a smaller boot id than the first. -/
theorem le_of_mem_stampsFrom {id : UInt16} {sessions : List (List ℕ)}
    (hid : id.toNat + sessions.length ≤ 2 ^ 16) {session : List (UInt16 ×ₗ UInt32)}
    (hsession : session ∈ stampsFrom id sessions) {stamp : UInt16 ×ₗ UInt32}
    (hstamp : stamp ∈ session) : id.toNat ≤ (ofLex stamp).1.toNat := by
  induction sessions generalizing id with
  | nil => cases hsession
  | cons times rest ih =>
    rw [List.length_cons] at hid
    rcases List.mem_cons.mp hsession with rfl | hlater
    · obtain ⟨time, -, rfl⟩ := List.mem_map.mp hstamp
      exact le_rfl
    · cases rest with
      | nil => cases hlater
      | cons next others =>
        rw [List.length_cons] at hid
        have hsucc : (id + 1).toNat = id.toNat + 1 := toNat_succ (by omega)
        have hle := ih (by rw [hsucc, List.length_cons]; omega) hlater
        omega

/-- Boot ids of consecutive sessions increase exactly as long as the counter does not wrap. -/
theorem pairwise_stampsFrom {id : UInt16} {sessions : List (List ℕ)}
    (hnonempty : ∀ times ∈ sessions, times ≠ []) :
    ((stampsFrom id sessions).Pairwise fun earlier later ↦
        ∀ first ∈ earlier, ∀ second ∈ later, (ofLex first).1 < (ofLex second).1) ↔
      id.toNat + sessions.length ≤ 2 ^ 16 := by
  induction sessions generalizing id with
  | nil => exact iff_of_true .nil id.toNat_lt.le
  | cons times rest ih =>
    rw [stampsFrom, List.pairwise_cons,
      ih fun others hothers ↦ hnonempty others (List.mem_cons_of_mem _ hothers)]
    cases rest with
    | nil =>
      exact iff_of_true ⟨nofun, (id + 1).toNat_lt.le⟩ id.toNat_lt
    | cons next others =>
      rw [List.length_cons, List.length_cons, List.length_cons]
      constructor
      · intro hboth
        obtain ⟨hfirst, hlength⟩ := hboth
        obtain ⟨time, htime⟩ := List.exists_mem_of_ne_nil times (hnonempty times List.mem_cons_self)
        obtain ⟨time', htime'⟩ := List.exists_mem_of_ne_nil next
          (hnonempty next (List.mem_cons_of_mem _ List.mem_cons_self))
        have hlt := hfirst _ List.mem_cons_self _ (List.mem_map_of_mem htime) _
          (List.mem_map_of_mem htime')
        rw [UInt16.lt_iff_toNat_lt] at hlt
        change id.toNat < (id + 1).toNat at hlt
        rw [UInt16.toNat_add] at hlt hlength
        have hid := id.toNat_lt
        change id.toNat < (id.toNat + 1) % 2 ^ 16 at hlt
        change (id.toNat + 1) % 2 ^ 16 + _ ≤ _ at hlength
        omega
      · intro hlength
        have hsucc : (id + 1).toNat = id.toNat + 1 := toNat_succ (by omega)
        have hlater : (id + 1).toNat + (next :: others).length ≤ 2 ^ 16 := by
          rw [hsucc, List.length_cons]
          omega
        refine ⟨fun later hmem first hfirst second hsecond ↦ ?_, hlater⟩
        obtain ⟨time, -, rfl⟩ := List.mem_map.mp hfirst
        have hle := le_of_mem_stampsFrom hlater hmem hsecond
        rw [UInt16.lt_iff_toNat_lt]
        change id.toNat < _
        omega

/-- The log of a run of sessions is in order if and only if neither counter wraps around where it
shows; the records that the sink took are then in order too. -/
theorem inOrder_iff {kv : KvMap} {sessions : List Session} (hboots : Boots kv sessions) :
    (InOrder (sessions.map Session.given) ↔ NoWrap kv sessions) ∧
      (NoWrap kv sessions → InOrder (sessions.map Session.taken)) := by
  obtain ⟨hgiven, hnonempty⟩ := given_of_boots hboots
  have hiff : InOrder (sessions.map Session.given) ↔ NoWrap kv sessions := by
    rw [inOrder_iff_pairwise, hgiven, pairwise_stampsFrom hnonempty, List.length_map,
      forall_mem_stampsFrom, List.forall_mem_map]
    exact ⟨fun hparts ↦ ⟨hparts.2, hparts.1⟩, fun hnowrap ↦ ⟨hnowrap.uptime, hnowrap.bootId⟩⟩
  exact ⟨hiff, fun hnowrap ↦ inOrder_taken (hiff.mpr hnowrap)⟩

/-! ### The sessions of a device -/

/-- A fresh store. -/
def freshStore : KvMap := ⟨fun _ ↦ none⟩

/-- Seams that read given uptimes, never synchronise, and store everything. -/
def offline (world : List UInt32 × KvMap) :
    (request : LogCall) → Option (LogAns request × (List UInt32 × KvMap))
  | .uptimeMs =>
    match world.1 with
    | [] => none
    | uptime :: rest => some (uptime, (rest, world.2))
  | .utcEpoch => some (0, world)
  | .ntpSynced => some (false, world)
  | .append _ _ => some (true, world)
  | .kv request => some ((world.2.respond request).1, (world.1, (world.2.respond request).2))

/-- A relay is switched once after the first boot. -/
def switched : List Operation := [.log .relayOn .info 0 0]

theorem isSome_switched (kv : KvMap) (boot later : ℕ) : ((sessionProgram switched).play offline
    ([UInt32.ofNat boot, UInt32.ofNat later], kv)).isSome = true := by rfl

/-- A session over a store, with the times of its boot and of the switching. -/
def switchedAt (kv : KvMap) (boot later : ℕ) : Session where
  operations := switched
  trace := (((sessionProgram switched).play offline
    ([UInt32.ofNat boot, UInt32.ofNat later], kv)).get (isSome_switched kv boot later)).1
  times := [boot, later]

theorem isSession_switchedAt (kv : KvMap) {boot later : ℕ} (hle : boot ≤ later) :
    IsSession kv (switchedAt kv boot later) := by
  obtain ⟨data, hkv⟩ : ∃ data, kvEvents (switchedAt kv boot later).trace =
      [⟨.getBlob (ascii "boot_id") 2, KvStore.getBlob kv (ascii "boot_id") 2⟩,
        ⟨.setBlob (ascii "boot_id") data, true⟩,
        ⟨.getBlob (ascii "ntp_floor") 4, KvStore.getBlob
          (kv.after (.setBlob (ascii "boot_id") data) true) (ascii "ntp_floor") 4⟩] := ⟨_, rfl⟩
  refine ⟨⟨_, Prog.runs_play (isSome_switched kv boot later)⟩, ?_, ?_, rfl, ?_⟩
  · rw [hkv]
    exact ⟨rfl, trivial, rfl, trivial⟩
  · rw [hkv]
    intro data hmem
    simp at hmem
  · exact List.pairwise_pair.mpr hle

/-- The store after the first session. -/
def secondStore : KvMap := freshStore.afterAll (kvEvents (switchedAt freshStore 1000 2000).trace)

/-- Two sessions; the uptimes of the second are below those of the first. -/
theorem inOrder_iff_witness :
    InOrder ([switchedAt freshStore 1000 2000, switchedAt secondStore 500 900].map
      Session.taken) := by
  have hboots : Boots freshStore
      [switchedAt freshStore 1000 2000, switchedAt secondStore 500 900] :=
    .cons (isSession_switchedAt _ (by decide)) rfl
      (.cons (isSession_switchedAt _ (by decide)) rfl (.nil _))
  refine (inOrder_iff hboots).2 ⟨by decide, fun session hsession ↦ ?_⟩
  rcases List.mem_pair.mp hsession with rfl | rfl <;> decide

/-- A record from after the 49th day sorts before the boot record of its own session. -/
theorem inOrder_false_switchedAt :
    ¬ ∀ (kv : KvMap) (sessions : List Session), Boots kv sessions →
      InOrder (sessions.map Session.taken) := by
  intro hall
  have hboots : Boots freshStore [switchedAt freshStore 1000 (2 ^ 32)] :=
    .cons (isSession_switchedAt _ (by decide)) rfl (.nil _)
  have horder := (hall _ _ hboots).ordered
  have hstamps : ([switchedAt freshStore 1000 (2 ^ 32)].map Session.taken).flatten =
      [toLex (1, 1000), toLex (1, 0)] := by decide
  rw [hstamps, List.pairwise_pair, Prod.Lex.toLex_le_toLex] at horder
  revert horder
  decide

end LogOrder

end LibreSwitch.Log
