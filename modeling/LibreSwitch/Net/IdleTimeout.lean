import LibreSwitch.Library.Machine
import LibreSwitch.Net.ProvisioningService

/-!
# The idle timeout of the portal

A tick of the provisioning service tests for the portal, polls it, and then looks at the clock. The
poll may hand the service a submission, and a submission may end in operation, so the state behind
the poll is not the state that was tested.

`Reported` is what the timeout should be: raised from the first tick on that runs late and ends at
the portal, and not raised by a tick that ends in operation. `timeout_reported_iff` says which
sessions keep it. The tick that goes wrong is the first late one, when an enrollment succeeds in it.
Here the radio, the portal and the store may answer in any way, and the portal may hand over a
submission even after it was stopped.
-/

set_option autoImplicit false
set_option relaxedAutoImplicit false

namespace LibreSwitch.Net

open LibreSwitch.Library LibreSwitch.Domain

namespace ProvisioningService

/-! ### What an operation leaves -/

/-- What the timeout is measured with, and whether it was raised. -/
structure Kept (service service' : ProvisioningService) : Prop where
  cfg_eq : service'.cfg = service.cfg
  startedAt_eq : service'.startedAt = service.startedAt
  idleTimedOut_eq : service'.idleTimedOut = service.idleTimedOut

theorem Kept.trans {first second third : ProvisioningService} (hfirst : Kept first second)
    (hsecond : Kept second third) : Kept first third :=
  ⟨hsecond.cfg_eq.trans hfirst.cfg_eq, hsecond.startedAt_eq.trans hfirst.startedAt_eq,
    hsecond.idleTimedOut_eq.trans hfirst.idleTimedOut_eq⟩

/-- Whether an enrollment has succeeded since a station was last tried. -/
def enrolledAfter (enrolled : Bool) (trace : List ProvEvent) : Bool :=
  trace.foldl (fun enrolled event ↦ match event with
    | ⟨.connectSta _ _ _, _⟩ => false
    | ⟨.enroll _, succeeded⟩ => succeeded
    | _ => enrolled) enrolled

theorem enrolledAfter_append (enrolled : Bool) (first second : List ProvEvent) :
    enrolledAfter enrolled (first ++ second) =
      enrolledAfter (enrolledAfter enrolled first) second :=
  List.foldl_append

/-- The state in which the service rests. -/
def resting (enrolled : Bool) : ProvState := if enrolled then .operational else .apPortal

theorem resting_eq_apPortal {enrolled : Bool} :
    resting enrolled = .apPortal ↔ enrolled = false := by
  cases enrolled <;> decide

/-- Opening the portal enters its state, without another enrollment. -/
theorem runs_openPortal {service service' : ProvisioningService} {now : Millis}
    {trace : List ProvEvent} (hruns : (service.openPortal now).Runs trace service') :
    service' = service.enter .apPortal now ∧
      ∀ enrolled, enrolledAfter enrolled trace = enrolled := by
  unfold openPortal at hruns
  simp only [Prog.ask_bind, Prog.pure_eq, Prog.runs_call, Prog.runs_ret] at hruns
  obtain ⟨_, _, rfl, _, _, rfl, rfl, rfl⟩ := hruns
  exact ⟨rfl, fun _ ↦ rfl⟩

/-- A failed test goes back to the portal, without another enrollment. -/
theorem runs_onTestFailed {service service' : ProvisioningService} {trace : List ProvEvent}
    (hruns : service.onTestFailed.Runs trace service') :
    Kept service service' ∧ service'.state = resting (enrolledAfter false trace) := by
  unfold onTestFailed at hruns
  simp only [Prog.ask_bind, Prog.runs_call] at hruns
  obtain ⟨_, rest, rfl, hrest⟩ := hruns
  obtain ⟨opened, first, second, rfl, hopened, hmessage⟩ := Prog.runs_bind.mp hrest
  obtain ⟨rfl, houtcome⟩ := runs_openPortal hopened
  obtain ⟨_, _, rfl, rfl, rfl⟩ := hmessage
  refine ⟨⟨rfl, rfl, rfl⟩, (resting_eq_apPortal.mpr ?_).symm⟩
  exact (enrolledAfter_append false first _).trans (houtcome false)

/-- Behind a join, the service is in operation exactly when the enrollment succeeds. -/
theorem runs_afterJoin {service service' : ProvisioningService} {trace : List ProvEvent}
    (enrolled : Bool) (hruns : service.afterJoin.Runs trace service') :
    Kept service service' ∧ service'.state = resting (enrolledAfter enrolled trace) := by
  unfold afterJoin persistCreds runEnrollment at hruns
  simp only [Prog.ask_bind, Prog.call_bind, Prog.pure_eq, Prog.ret_bind, Prog.runs_call] at hruns
  obtain ⟨_, _, rfl, _, _, rfl, succeeded, rest, rfl, hrest⟩ := hruns
  cases succeeded with
  | false =>
    obtain ⟨hkept, hstate⟩ := runs_onTestFailed hrest
    exact ⟨⟨hkept.cfg_eq, hkept.startedAt_eq, hkept.idleTimedOut_eq⟩, hstate⟩
  | true =>
    obtain ⟨rfl, rfl⟩ := hrest
    exact ⟨⟨rfl, rfl, rfl⟩, rfl⟩

/-- A submission leaves the service at rest, in operation exactly when the last enrollment
succeeded. -/
theorem runs_onCredentialsSubmitted {service service' : ProvisioningService}
    {creds : ProvisioningCredentials} {trace : List ProvEvent} {enrolled : Bool}
    (hrest : service.state = resting enrolled)
    (hruns : (service.onCredentialsSubmitted creds).Runs trace service') :
    Kept service service' ∧ service'.state = resting (enrolledAfter enrolled trace) := by
  unfold onCredentialsSubmitted at hruns
  split_ifs at hruns with hvalid
  · obtain ⟨_, _, rfl, rfl, rfl⟩ := hruns
    exact ⟨⟨rfl, rfl, rfl⟩, hrest⟩
  · unfold runSequentialTest at hruns
    simp only [Prog.ask_bind, Prog.runs_call] at hruns
    obtain ⟨_, _, rfl, _, _, rfl, _, _, rfl, joined, rest, rfl, htried⟩ := hruns
    cases joined with
    | false =>
      obtain ⟨hkept, hstate⟩ := runs_onTestFailed htried
      exact ⟨⟨hkept.cfg_eq, hkept.startedAt_eq, hkept.idleTimedOut_eq⟩, hstate⟩
    | true =>
      obtain ⟨hkept, hstate⟩ := runs_afterJoin false htried
      exact ⟨⟨hkept.cfg_eq, hkept.startedAt_eq, hkept.idleTimedOut_eq⟩, hstate⟩

/-- The submissions of a poll, one after the other. -/
theorem runs_playPoll {submissions : List ProvisioningCredentials}
    {service service' : ProvisioningService} {trace : List ProvEvent} {enrolled : Bool}
    (hrest : service.state = resting enrolled)
    (hruns : (playPoll submissions service).Runs trace service') :
    Kept service service' ∧ service'.state = resting (enrolledAfter enrolled trace) := by
  induction submissions generalizing service trace enrolled with
  | nil =>
    obtain ⟨rfl, rfl⟩ := hruns
    exact ⟨⟨rfl, rfl, rfl⟩, hrest⟩
  | cons creds rest ih =>
    unfold playPoll at hruns
    simp only [Prog.ask_bind, Prog.runs_call] at hruns
    obtain ⟨accepted, later, rfl, hlater⟩ := hruns
    cases accepted with
    | false =>
      obtain ⟨hkept, hlast⟩ := ih hrest hlater
      exact ⟨hkept, hlast⟩
    | true =>
      obtain ⟨next, first, second, rfl, hfirst, hsecond⟩ := Prog.runs_bind.mp hlater
      obtain ⟨hkept, hnext⟩ := runs_onCredentialsSubmitted hrest hfirst
      obtain ⟨hkept', hlast⟩ := ih hnext hsecond
      refine ⟨hkept.trans hkept', hlast.trans ?_⟩
      rw [← enrolledAfter_append]
      rfl

/-- What a tick does: it raises the timeout by the clock alone, if it found the service at its
portal, and leaves it there unless an enrollment succeeds. -/
structure Ticked (service : ProvisioningService) (now : Millis) (trace : List ProvEvent)
    (service' : ProvisioningService) : Prop where
  cfg_eq : service'.cfg = service.cfg
  startedAt_eq : service'.startedAt = service.startedAt
  rests : ∃ enrolled, service'.state = resting enrolled
  stays_iff : service'.state = .apPortal ↔
    service.state = .apPortal ∧ enrolledAfter false trace = false
  raises_iff : service'.idleTimedOut = true ↔
    service.idleTimedOut = true ∨ service.state = .apPortal ∧ service.timedOut now = true
  enrolls : enrolledAfter false trace = true → service.state = .apPortal

/-- A tick in operation does nothing. -/
theorem ticked_of_operational {service service' : ProvisioningService} {now : Millis}
    {trace : List ProvEvent} (hstate : service.state = .operational)
    (hruns : (service.tick now).Runs trace service') : Ticked service now trace service' := by
  have haway : service.state ≠ .apPortal := by
    rw [hstate]
    decide
  unfold tick at hruns
  rw [if_neg haway] at hruns
  obtain ⟨rfl, rfl⟩ := hruns
  exact ⟨rfl, rfl, ⟨true, hstate⟩, iff_of_false haway fun hboth ↦ haway hboth.1,
    (or_iff_left fun hboth ↦ haway hboth.1).symm, fun henrolled ↦ Bool.noConfusion henrolled⟩

/-- A tick at the portal polls it, and then looks at the clock. -/
theorem ticked_of_apPortal {service service' : ProvisioningService} {now : Millis}
    {trace : List ProvEvent} (hstate : service.state = .apPortal)
    (hruns : (service.tick now).Runs trace service') : Ticked service now trace service' := by
  unfold tick at hruns
  rw [if_pos hstate] at hruns
  simp only [Prog.ask_bind, Prog.pure_eq, Prog.runs_call] at hruns
  obtain ⟨submissions, later, rfl, hlater⟩ := hruns
  obtain ⟨polled, first, second, rfl, hfirst, rfl, hleft⟩ := Prog.runs_bind.mp hlater
  have hrest : service.state = resting false := hstate
  obtain ⟨hkept, hpolled⟩ := runs_playPoll hrest hfirst
  have hclock : polled.timedOut now = service.timedOut now := by
    unfold timedOut
    rw [hkept.startedAt_eq, hkept.cfg_eq]
  have hfields : service'.cfg = polled.cfg ∧ service'.startedAt = polled.startedAt ∧
      service'.state = polled.state ∧
      service'.idleTimedOut = (polled.idleTimedOut || polled.timedOut now) := by
    rw [hleft]
    split_ifs with hlate
    · exact ⟨rfl, rfl, rfl, by rw [hlate, Bool.or_true]⟩
    · exact ⟨rfl, rfl, rfl, by rw [Bool.eq_false_of_not_eq_true hlate, Bool.or_false]⟩
  obtain ⟨hcfg, hstarted, hends, hraised⟩ := hfields
  rw [List.append_nil]
  refine ⟨hcfg.trans hkept.cfg_eq, hstarted.trans hkept.startedAt_eq, ⟨_, hends.trans hpolled⟩,
    ?_, ?_, fun _ ↦ hstate⟩
  · rw [hends, hpolled, resting_eq_apPortal]
    exact (and_iff_right hstate).symm
  · rw [hraised, hkept.idleTimedOut_eq, hclock, Bool.or_eq_true, and_iff_right hstate]

theorem ticked_of_runs {service service' : ProvisioningService} {now : Millis}
    {trace : List ProvEvent} (hrests : ∃ enrolled, service.state = resting enrolled)
    (hruns : (service.tick now).Runs trace service') : Ticked service now trace service' := by
  obtain ⟨enrolled, hrest⟩ := hrests
  cases enrolled with
  | false => exact ticked_of_apPortal hrest hruns
  | true => exact ticked_of_operational hrest hruns

/-! ### Sessions -/

/-- `begin` leaves the service at rest, with its clock started and no timeout raised. -/
theorem runs_begin {service service' : ProvisioningService} {now : Millis}
    {trace : List ProvEvent} (hruns : (service.begin now).Runs trace service') :
    Kept { service with startedAt := now } service' ∧
      ∃ enrolled, service'.state = resting enrolled := by
  have hopen {rest : List ProvEvent}
      (hopened : (openPortal { service with startedAt := now } now).Runs rest service') :
      Kept { service with startedAt := now } service' ∧
        ∃ enrolled, service'.state = resting enrolled := by
    obtain ⟨rfl, -⟩ := runs_openPortal hopened
    exact ⟨⟨rfl, rfl, rfl⟩, false, rfl⟩
  unfold begin at hruns
  obtain ⟨provisioned, _, rest, rfl, -, hrest⟩ := Prog.runs_bind.mp hruns
  split_ifs at hrest
  · obtain ⟨joined, _, last, rfl, -, hlast⟩ := Prog.runs_bind.mp hrest
    split_ifs at hlast
    · obtain ⟨rfl, rfl⟩ := hlast
      exact ⟨⟨rfl, rfl, rfl⟩, true, rfl⟩
    · exact hopen hlast
  · exact hopen hrest

/-- A tick of a session: how long after `begin` it runs, the service it finds, what it asks and is
answered, and the service it leaves. -/
structure TickRun where
  elapsed : ℕ
  found : ProvisioningService
  trace : List ProvEvent
  left : ProvisioningService

/-- The sessions of a service that begins at `t0`: the ticks so far and the service behind them. -/
inductive Session (cfg : ProvConfig) (t0 : Millis) : List TickRun → ProvisioningService → Prop
  | begin {trace : List ProvEvent} {service : ProvisioningService}
      (hruns : (ProvisioningService.begin { cfg := cfg } t0).Runs trace service) :
      Session cfg t0 [] service
  | tick {ticks : List TickRun} {service service' : ProvisioningService} {trace : List ProvEvent}
      {elapsed : ℕ} (hsession : Session cfg t0 ticks service)
      (hlater : ∀ earlier ∈ ticks, earlier.elapsed ≤ elapsed) (hwithin : elapsed < 2 ^ 32)
      (hruns : (service.tick (t0 + UInt32.ofNat elapsed)).Runs trace service') :
      Session cfg t0 (ticks ++ [⟨elapsed, service, trace, service'⟩]) service'

/-- The tick runs at the idle timeout or after it. -/
def TickRun.Late (cfg : ProvConfig) (tick : TickRun) : Prop :=
  cfg.apIdleTimeoutMs.toNat ≤ tick.elapsed

/-- The timeout is raised exactly when a late tick has ended at the portal, before a tick and
behind it, and a tick that ends in operation does not raise it. -/
structure Reported (cfg : ProvConfig) (before : List TickRun) (tick : TickRun) : Prop where
  found_iff : tick.found.idleTimedOut = true ↔
    ∃ earlier ∈ before, earlier.Late cfg ∧ earlier.left.state = .apPortal
  left_iff : tick.left.idleTimedOut = true ↔
    ∃ earlier ∈ before ++ [tick], earlier.Late cfg ∧ earlier.left.state = .apPortal
  not_operational : tick.left.state = .operational → tick.found.idleTimedOut = false →
    tick.left.idleTimedOut = false

/-- No enrollment succeeds in the first late tick, unless a station is tried again behind it. -/
def Timely (cfg : ProvConfig) (before : List TickRun) (tick : TickRun) : Prop :=
  tick.Late cfg → enrolledAfter false tick.trace = true → ∃ earlier ∈ before, earlier.Late cfg

/-! ### What a session shows -/

/-- The clock of a tick, as long as the time since `begin` fits its word. -/
theorem timedOut_add {service : ProvisioningService} {t0 : Millis} {elapsed : ℕ}
    (hstarted : service.startedAt = t0) (hwithin : elapsed < 2 ^ 32) :
    service.timedOut (t0 + UInt32.ofNat elapsed) = true ↔
      service.cfg.apIdleTimeoutMs.toNat ≤ elapsed := by
  have hsince : t0 + UInt32.ofNat elapsed - t0 = UInt32.ofNat elapsed := by
    rw [UInt32.add_comm, UInt32.add_sub_cancel]
  unfold timedOut
  rw [decide_eq_true_iff, hstarted, hsince, ge_iff_le, UInt32.le_iff_toNat_le,
    UInt32.toNat_ofNat', Nat.mod_eq_of_lt hwithin]

/-- A late tick among these found the service at its portal. -/
def FoundLate (cfg : ProvConfig) (ticks : List TickRun) : Prop :=
  ∃ tick ∈ ticks, tick.Late cfg ∧ tick.found.state = .apPortal

/-- A late tick among these left the service at its portal. -/
def LeftLate (cfg : ProvConfig) (ticks : List TickRun) : Prop :=
  ∃ tick ∈ ticks, tick.Late cfg ∧ tick.left.state = .apPortal

/-- What can be seen of a tick of a session: the timeout is raised by the late ticks that find the
service at its portal, and a service that is found there has never left it. -/
structure Observed (cfg : ProvConfig) (before : List TickRun) (tick : TickRun) : Prop where
  found_iff : tick.found.idleTimedOut = true ↔ FoundLate cfg before
  left_iff : tick.left.idleTimedOut = true ↔ FoundLate cfg (before ++ [tick])
  stayed : tick.found.state = .apPortal → ∀ earlier ∈ before, earlier.left.state = .apPortal
  stays_iff : tick.left.state = .apPortal ↔
    tick.found.state = .apPortal ∧ enrolledAfter false tick.trace = false
  enrolls : enrolledAfter false tick.trace = true → tick.found.state = .apPortal

/-- The invariant of a session. -/
structure Watched (cfg : ProvConfig) (t0 : Millis) (ticks : List TickRun)
    (service : ProvisioningService) : Prop where
  cfg_eq : service.cfg = cfg
  startedAt_eq : service.startedAt = t0
  rests : ∃ enrolled, service.state = resting enrolled
  raised_iff : service.idleTimedOut = true ↔ FoundLate cfg ticks
  stayed : service.state = .apPortal → ∀ tick ∈ ticks, tick.left.state = .apPortal
  observed : AtEvery (Observed cfg) ticks

theorem foundLate_concat {cfg : ProvConfig} {ticks : List TickRun} {tick : TickRun} :
    FoundLate cfg (ticks ++ [tick]) ↔
      FoundLate cfg ticks ∨ tick.Late cfg ∧ tick.found.state = .apPortal := by
  unfold FoundLate
  simp only [List.mem_append, List.mem_singleton, or_and_right, exists_or, exists_eq_left]

/-- One more tick. -/
theorem Watched.tick {cfg : ProvConfig} {t0 : Millis} {ticks : List TickRun}
    {service service' : ProvisioningService} {trace : List ProvEvent} {elapsed : ℕ}
    (hwatched : Watched cfg t0 ticks service) (hwithin : elapsed < 2 ^ 32)
    (hruns : (service.tick (t0 + UInt32.ofNat elapsed)).Runs trace service') :
    Watched cfg t0 (ticks ++ [⟨elapsed, service, trace, service'⟩]) service' := by
  have hticked := ticked_of_runs hwatched.rests hruns
  have hraised : service'.idleTimedOut = true ↔
      FoundLate cfg (ticks ++ [⟨elapsed, service, trace, service'⟩]) := by
    rw [foundLate_concat, hticked.raises_iff, hwatched.raised_iff,
      timedOut_add hwatched.startedAt_eq hwithin, hwatched.cfg_eq, and_comm]
    rfl
  refine ⟨hticked.cfg_eq.trans hwatched.cfg_eq, hticked.startedAt_eq.trans hwatched.startedAt_eq,
    hticked.rests, hraised, ?_, ?_⟩
  · intro hstate tick htick
    rcases List.mem_append.mp htick with hearlier | hlast
    · exact hwatched.stayed (hticked.stays_iff.mp hstate).1 tick hearlier
    · obtain rfl := List.mem_singleton.mp hlast
      exact hstate
  · refine atEvery_concat.mpr ⟨hwatched.observed, ?_⟩
    exact ⟨hwatched.raised_iff, hraised, hwatched.stayed, hticked.stays_iff, hticked.enrolls⟩

/-- The invariant holds behind every session. -/
theorem watched_of_session {cfg : ProvConfig} {t0 : Millis} {ticks : List TickRun}
    {service : ProvisioningService} (hsession : Session cfg t0 ticks service) :
    Watched cfg t0 ticks service := by
  induction hsession with
  | begin hruns =>
    obtain ⟨hkept, hrests⟩ := runs_begin hruns
    refine ⟨hkept.cfg_eq, hkept.startedAt_eq, hrests, ?_, ?_, atEvery_nil⟩
    · rw [hkept.idleTimedOut_eq]
      exact iff_of_false Bool.false_ne_true fun ⟨_, hnone, _⟩ ↦ absurd hnone List.not_mem_nil
    · exact fun _ _ hnone ↦ absurd hnone List.not_mem_nil
  | tick _ _ hwithin hruns ih => exact ih.tick hwithin hruns

/-! ### When the timeout is reported as it should be -/

/-- Where no enrollment comes in the first late tick, a late tick found the service at its portal
exactly when one left it there. -/
theorem foundLate_iff_leftLate {cfg : ProvConfig} {ticks : List TickRun}
    (hobserved : AtEvery (Observed cfg) ticks) (htimely : AtEvery (Timely cfg) ticks) :
    FoundLate cfg ticks ↔ LeftLate cfg ticks := by
  constructor
  · rintro ⟨tick, htick, hlate, hfound⟩
    obtain ⟨before, rest, hsplit⟩ := List.append_of_mem htick
    have hseen := hobserved before tick rest hsplit
    by_cases henrolled : enrolledAfter false tick.trace = true
    · obtain ⟨earlier, hearlier, hearlierLate⟩ :=
        htimely before tick rest hsplit hlate henrolled
      refine ⟨earlier, ?_, hearlierLate, hseen.stayed hfound earlier hearlier⟩
      rw [hsplit]
      exact List.mem_append_left _ hearlier
    · have hleft := hseen.stays_iff.mpr ⟨hfound, Bool.eq_false_of_not_eq_true henrolled⟩
      exact ⟨tick, htick, hlate, hleft⟩
  · rintro ⟨tick, htick, hlate, hleft⟩
    obtain ⟨before, rest, hsplit⟩ := List.append_of_mem htick
    exact ⟨tick, htick, hlate, ((hobserved before tick rest hsplit).stays_iff.mp hleft).1⟩

/-- A tick that goes wrong is the first late one, with an enrollment in it. -/
theorem timely_of_reported {cfg : ProvConfig} {before : List TickRun} {tick : TickRun}
    (hobserved : Observed cfg before tick) (hreported : Reported cfg before tick) :
    Timely cfg before tick := by
  intro hlate henrolled
  have hfound := hobserved.enrolls henrolled
  have hraised := hobserved.left_iff.mpr (foundLate_concat.mpr (.inr ⟨hlate, hfound⟩))
  obtain ⟨earlier, hearlier, hearlierLate, hleft⟩ := hreported.left_iff.mp hraised
  rcases List.mem_append.mp hearlier with hbefore | hlast
  · exact ⟨earlier, hbefore, hearlierLate⟩
  · obtain rfl := List.mem_singleton.mp hlast
    rw [(hobserved.stays_iff.mp hleft).2] at henrolled
    cases henrolled

/-- The timeout is reported as it should be at every tick of a session exactly when no enrollment
comes in its first late tick. -/
theorem timeout_reported_iff {cfg : ProvConfig} {t0 : Millis} {ticks : List TickRun}
    {service : ProvisioningService} (hsession : Session cfg t0 ticks service) :
    AtEvery (Reported cfg) ticks ↔ AtEvery (Timely cfg) ticks := by
  have hobserved := (watched_of_session hsession).observed
  constructor
  · intro hreported before tick rest hsplit
    exact timely_of_reported (hobserved before tick rest hsplit) (hreported before tick rest hsplit)
  · rintro htimely before tick rest rfl
    have hseen := hobserved before tick rest rfl
    rw [List.append_cons] at hobserved htimely
    have hleft := hseen.left_iff.trans
      (foundLate_iff_leftLate hobserved.of_append htimely.of_append)
    have hfound := hseen.found_iff.trans
      (foundLate_iff_leftLate hobserved.of_append.of_append htimely.of_append.of_append)
    refine ⟨hfound, hleft, fun hstate hnot ↦ ?_⟩
    by_contra hraised
    obtain ⟨earlier, hearlier, hlate, hportal⟩ := hleft.mp (Bool.eq_true_of_not_eq_false hraised)
    rcases List.mem_append.mp hearlier with hbefore | hlast
    · rw [hfound.mpr ⟨earlier, hbefore, hlate, hportal⟩] at hnot
      cases hnot
    · obtain rfl := List.mem_singleton.mp hlast
      rw [hportal] at hstate
      cases hstate

/-! ### A submission at the last moment -/

/-- The form of a user whose network can be joined. -/
def lateForm : ProvisioningCredentials :=
  { ssid := ascii "home", pass := ascii "secret", token := ascii "t", valid := true }

/-- Seams that have nothing stored, deliver this form at every poll and let everything succeed. -/
def obliging (world : Unit) : (request : ProvCall) → Option (ProvAns request × Unit)
  | .startAp _ _ => some (true, world)
  | .connectSta _ _ _ => some (true, world)
  | .poll => some ([lateForm], world)
  | .accepts _ => some (true, world)
  | .enroll _ => some (true, world)
  | .hasOperationalCert => some (false, world)
  | .setBlob _ _ => some (true, world)
  | .getBlob _ _ => some ((0, []), world)
  | .stopAp | .disconnectSta | .startPortal | .stopPortal | .setMessage _ => some ((), world)

theorem isSome_begun : ((newDevice.begin 0).play obliging ()).isSome = true := by decide

/-- The new device at its portal. -/
def begunDevice : ProvisioningService := (((newDevice.begin 0).play obliging ()).get isSome_begun).2

theorem isSome_lateTick :
    ((begunDevice.tick (0 + UInt32.ofNat 600000)).play obliging ()).isSome = true := by decide

/-- The first tick of the device, ten minutes after its `begin`. -/
def lateTick : TickRun :=
  let played := ((begunDevice.tick (0 + UInt32.ofNat 600000)).play obliging ()).get isSome_lateTick
  ⟨600000, begunDevice, played.1, played.2⟩

theorem session_lateTick : Session newDevice.cfg 0 [lateTick] lateTick.left := by
  have hbegun : Session newDevice.cfg 0 [] begunDevice := .begin (Prog.runs_play isSome_begun)
  exact hbegun.tick (fun _ hnone ↦ absurd hnone List.not_mem_nil) (by decide)
    (Prog.runs_play isSome_lateTick)

theorem timeout_reported_iff_lateTick : AtEvery (Reported newDevice.cfg) [lateTick] ↔
    AtEvery (Timely newDevice.cfg) [lateTick] :=
  timeout_reported_iff session_lateTick

/-- A form that comes in with the tick at ten minutes brings the device into operation, and the tick
raises the timeout. -/
theorem not_reported_lateTick : ¬ ∀ (cfg : ProvConfig) (t0 : Millis) (ticks : List TickRun)
    (service : ProvisioningService), Session cfg t0 ticks service →
      AtEvery (Reported cfg) ticks := by
  intro hall
  have hreported := hall newDevice.cfg 0 [lateTick] lateTick.left session_lateTick
  have hleft := (hreported [] lateTick [] rfl).not_operational (by decide) (by decide)
  have hraised : lateTick.left.idleTimedOut = true := by decide
  rw [hraised] at hleft
  cases hleft

end ProvisioningService

end LibreSwitch.Net
