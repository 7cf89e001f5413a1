import Mathlib.Tactic
import LibreSwitch.App.ControlLoop

/-!
# The path of a remote command

The control loop beside a task that submits remote commands at any time, between ticks and between
any two requests of a tick. Pushing and popping are single steps, as the critical section of
`SyncQueue` makes them. `CommandWorld` is the control plane with a record of the submissions and
their answers, and of the commands handed to the coordinator.

`Balanced` is the invariant: the accepted commands are those handed over, the one in hand between
its pop and its hand-over, and those in the queue, in this order. It also bounds what the queue
holds when nothing was submitted since the tick started, which the budget of the drain brings down
to nothing. `commands_once_in_order` is the result over all interleavings.
-/

set_option autoImplicit false
set_option relaxedAutoImplicit false

namespace LibreSwitch.App

open LibreSwitch.Library LibreSwitch.Domain LibreSwitch.Platform

/-- The control plane with the history of the remote commands. -/
structure CommandWorld (ρ σ ι : Type) where
  plane : ControlPlane ρ σ ι
  /-- The remote submissions with their answers, oldest first. -/
  submissions : List (ControlCommand × Status) := []
  /-- The commands handed to the coordinator, oldest first. -/
  handed : List ControlCommand := []
  /-- How many submissions there were when the last tick started. -/
  startedAt : ℕ := 0

namespace CommandWorld

variable {ρ σ ι : Type}

/-- The commands whose submission succeeded, oldest first. -/
def accepted (world : CommandWorld ρ σ ι) : List ControlCommand :=
  (world.submissions.filter fun submission ↦ submission.2.ok).map Prod.fst

/-- A control plane with a new command queue. -/
def fresh (coord : ControlCoordinator ρ σ (LocalResetHandler ι)) (engine : TouchInput) :
    CommandWorld ρ σ ι where
  plane := ⟨.new (Nat.succ_pos 7), coord, engine⟩

section Steps

variable [RelaySink ρ] [StateChangePort σ ρ] [IndicatorSink ι]

/-- A remote submission. -/
def offer (world : CommandWorld ρ σ ι) (command : ControlCommand) : CommandWorld ρ σ ι :=
  { world with
    plane := (world.plane.submitRemote command).2
    submissions := world.submissions ++ [(command, (world.plane.submitRemote command).1)] }

/-- The answer to a request of the tick, recorded when it hands a command over. -/
def answered (high : Bool) (world : CommandWorld ρ σ ι) (request : LoopCall) :
    CommandWorld ρ σ ι :=
  { world with
    plane := (world.plane.answer high request).2
    handed := match request with
      | .submit command => world.handed ++ [command]
      | _ => world.handed }

/-- The surroundings of a tick: its own objects answer, the pads read anything, and the other
task submits anything at any time. -/
def setting : Setting LoopCall LoopAns (CommandWorld ρ σ ι) where
  answers world request reply world' := ∃ high,
    reply = (world.plane.answer high request).1 ∧ world' = world.answered high request
  interferes world world' := ∃ command, world' = world.offer command

/-- A tick may start at any time. -/
def starts (world : CommandWorld ρ σ ι) (_ : Millis) (world' : CommandWorld ρ σ ι) : Prop :=
  world' = { world with startedAt := world.submissions.length }

end Steps

end CommandWorld

/-- The control loop as a component: every operation is a tick. -/
def controlLoop (touch : GpioTouchSource) : Component LoopCall LoopAns Unit Millis where
  handle _ nowMs := tick touch nowMs

/-- The command that a request hands to the coordinator. -/
def LoopCall.hands : LoopCall → List ControlCommand
  | .submit command => [command]
  | _ => []

/-- The command that was popped and is about to be handed over. -/
def inHand : Component.Phase LoopCall LoopAns Unit Millis → List ControlCommand
  | .busy _ (.call request _) => request.hands
  | _ => []

/-! ### The invariant -/

section Invariant

variable {ρ σ ι : Type}

/-- The accepted commands are those handed over, those in hand, and those in the queue. If nothing
was submitted since the tick started, the queue holds no more than a bound. -/
structure Balanced (hands : List ControlCommand) (bound : ℕ) (world : CommandWorld ρ σ ι) :
    Prop where
  policy : world.plane.queue.policy = .rejectWhenFull
  started : world.startedAt ≤ world.submissions.length
  balance : world.accepted = world.handed ++ hands ++ world.plane.queue.toList
  backlog : world.submissions.length = world.startedAt →
    world.plane.queue.toList.length ≤ bound

theorem balanced_fresh (coord : ControlCoordinator ρ σ (LocalResetHandler ι))
    (engine : TouchInput) : Balanced [] 0 (CommandWorld.fresh coord engine) where
  policy := rfl
  started := le_rfl
  balance := rfl
  backlog _ := le_rfl

variable [RelaySink ρ] [StateChangePort σ ρ] [IndicatorSink ι]

omit [RelaySink ρ] [StateChangePort σ ρ] [IndicatorSink ι] in
/-- A submission is stored at the end of the queue, or answered busy without any effect. -/
theorem submitRemote_cases {plane : ControlPlane ρ σ ι}
    (hpolicy : plane.queue.policy = .rejectWhenFull) (command : ControlCommand) :
    ((plane.submitRemote command).1 = .success ∧
        (plane.submitRemote command).2.queue.toList = plane.queue.toList ++ [command]) ∨
      plane.submitRemote command = (.fail .busy, plane) := by
  by_cases hroom : plane.queue.count < kCommandQueueDepth
  · obtain ⟨hstored, hlist⟩ := BoundedQueue.toList_push_of_room hroom command
    exact .inl ⟨by simp [ControlPlane.submitRemote, hstored], hlist⟩
  · have hfull : plane.queue.count = kCommandQueueDepth :=
      Nat.le_antisymm plane.queue.count_le (Nat.le_of_not_lt hroom)
    exact .inr (by simp [ControlPlane.submitRemote, BoundedQueue.push_of_full_reject hfull hpolicy])

omit [RelaySink ρ] [StateChangePort σ ρ] [IndicatorSink ι] in
theorem accepted_offer (world : CommandWorld ρ σ ι) (command : ControlCommand) :
    (world.offer command).accepted = world.accepted ++
      if (world.plane.submitRemote command).1.ok then [command] else [] := by
  simp only [CommandWorld.accepted, CommandWorld.offer, List.filter_append, List.map_append]
  cases hok : (world.plane.submitRemote command).1.ok <;> simp [hok]

omit [RelaySink ρ] [StateChangePort σ ρ] [IndicatorSink ι] in
/-- A submission that succeeds lengthens the queue and the accepted commands by the same command;
one that is refused leaves both as they are. -/
theorem Balanced.offer {hands : List ControlCommand} {bound : ℕ} {world : CommandWorld ρ σ ι}
    (hbalanced : Balanced hands bound world) (command : ControlCommand) :
    Balanced hands bound (world.offer command) := by
  obtain ⟨hpolicy, hstarted, hbalance, -⟩ := hbalanced
  have hlength : (world.offer command).submissions.length = world.submissions.length + 1 := by
    simp [CommandWorld.offer]
  refine ⟨by simpa [CommandWorld.offer, ControlPlane.submitRemote] using hpolicy, ?_, ?_, ?_⟩
  · rw [hlength]
    exact Nat.le_succ_of_le hstarted
  · rw [accepted_offer, hbalance]
    rcases submitRemote_cases hpolicy command with ⟨hsuccess, hlist⟩ | hbusy
    · simp [CommandWorld.offer, hsuccess, hlist]
    · simp [CommandWorld.offer, hbusy, Status.ok, Status.fail]
  · intro hnone
    rw [hlength] at hnone
    have hsame : (world.offer command).startedAt = world.startedAt := rfl
    omega

theorem Balanced.interferes {hands : List ControlCommand} {bound : ℕ}
    (world world' : CommandWorld ρ σ ι) (hbalanced : Balanced hands bound world)
    (hinterfere : CommandWorld.setting.interferes world world') : Balanced hands bound world' := by
  obtain ⟨command, rfl⟩ := hinterfere
  exact hbalanced.offer command

/-! ### A tick restores the invariant -/

/-- At every request of a tick the accepted commands are accounted for, where a command is in hand
exactly when the request hands it over. -/
def guard (world : CommandWorld ρ σ ι) (request : LoopCall) : Prop :=
  ∃ bound, Balanced request.hands bound world

/-- A request that leaves queue and coordinator alone keeps the invariant. -/
theorem wp_local {request : LoopCall} {resume : LoopAns request → Prog LoopCall LoopAns Unit}
    {post : Unit → CommandWorld ρ σ ι → Prop} {bound : ℕ} (hhands : request.hands = [])
    (hlocal : ∀ high (world : CommandWorld ρ σ ι),
      (world.answered high request).plane.queue = world.plane.queue ∧
        (world.answered high request).handed = world.handed)
    (hresume : ∀ reply world, Balanced [] bound world →
      CommandWorld.setting.wp guard (resume reply) post world)
    {world : CommandWorld ρ σ ι} (hbalanced : Balanced [] bound world) :
    CommandWorld.setting.wp guard (.call request resume) post world := by
  refine Setting.wp_call_of_stable Balanced.interferes hbalanced
    (fun reached hreached ↦ ⟨bound, hhands ▸ hreached⟩) ?_
  rintro reached reply _ hreached ⟨high, -, rfl⟩
  obtain ⟨hqueue, hhanded⟩ := hlocal high reached
  refine hresume reply _ ⟨?_, hreached.started, ?_, ?_⟩
  · rw [hqueue]
    exact hreached.policy
  · rw [hqueue, hhanded]
    exact hreached.balance
  · rw [hqueue]
    exact hreached.backlog

/-- Handing a popped command over completes its transfer. -/
theorem wp_submit {command : ControlCommand} {resume : Status → Prog LoopCall LoopAns Unit}
    {post : Unit → CommandWorld ρ σ ι → Prop} {bound : ℕ}
    (hresume : ∀ reply world, Balanced [] bound world →
      CommandWorld.setting.wp guard (resume reply) post world)
    {world : CommandWorld ρ σ ι} (hbalanced : Balanced [command] bound world) :
    CommandWorld.setting.wp guard (.call (.submit command) resume) post world := by
  refine Setting.wp_call_of_stable Balanced.interferes hbalanced
    (fun reached hreached ↦ ⟨bound, hreached⟩) ?_
  rintro reached reply _ hreached ⟨high, -, rfl⟩
  refine hresume reply _ ⟨hreached.policy, hreached.started, ?_, hreached.backlog⟩
  have hbalance := hreached.balance
  simpa [CommandWorld.answered, CommandWorld.accepted, ControlPlane.answer] using hbalance

/-- A pop takes the oldest command in hand, or finds the queue empty. -/
theorem wp_pop {resume : Option ControlCommand → Prog LoopCall LoopAns Unit}
    {post : Unit → CommandWorld ρ σ ι → Prop} {bound : ℕ}
    (hnone : ∀ world, Balanced [] 0 world →
      CommandWorld.setting.wp guard (resume none) post world)
    (hsome : ∀ command world, Balanced [command] bound world →
      CommandWorld.setting.wp guard (resume (some command)) post world)
    {world : CommandWorld ρ σ ι} (hbalanced : Balanced [] (bound + 1) world) :
    CommandWorld.setting.wp guard (.call .pop resume) post world := by
  refine Setting.wp_call_of_stable Balanced.interferes hbalanced
    (fun reached hreached ↦ ⟨bound + 1, hreached⟩) ?_
  rintro reached reply _ hreached ⟨high, rfl, rfl⟩
  obtain ⟨hoption, hlist⟩ := reached.plane.queue.toList_pop
  have hpolicy : reached.plane.queue.pop.2.policy = .rejectWhenFull := by
    rw [BoundedQueue.policy_pop, hreached.policy]
  have hbalance := hreached.balance
  cases hqueue : reached.plane.queue.toList with
  | nil =>
    rw [hqueue] at hoption hlist hbalance
    have hreply : (reached.plane.answer high LoopCall.pop).1 = none := hoption
    rw [hreply]
    refine hnone _ ⟨hpolicy, hreached.started, ?_, fun _ ↦ ?_⟩
    · exact hbalance.trans (congrArg (reached.handed ++ [] ++ ·) hlist.symm)
    · exact le_of_eq (congrArg List.length hlist)
  | cons command rest =>
    rw [hqueue] at hoption hlist hbalance
    have hreply : (reached.plane.answer high LoopCall.pop).1 = some command := hoption
    rw [hreply]
    refine hsome command _ ⟨hpolicy, hreached.started, ?_, fun hquiet ↦ ?_⟩
    · have hsplit : reached.accepted = reached.handed ++ [command] ++ rest := by
        simpa using hbalance
      exact hsplit.trans (congrArg (reached.handed ++ [command] ++ ·) hlist.symm)
    · have hbound := hreached.backlog hquiet
      have hrest : rest.length ≤ bound := by
        rw [hqueue, List.length_cons] at hbound
        omega
      exact le_of_eq_of_le (congrArg List.length hlist) hrest

theorem wp_done {world : CommandWorld ρ σ ι} (hbalanced : Balanced [] 0 world) :
    CommandWorld.setting.wp guard (.ret ()) (fun _ ↦ Balanced [] 0) world := by
  apply Setting.wp_ret_of_stable
  · exact Balanced.interferes
  · exact hbalanced

/-- The drain empties a queue that nothing was submitted to since the tick started. -/
theorem wp_drainCommands (budget : ℕ) {world : CommandWorld ρ σ ι}
    (hbalanced : Balanced [] budget world) :
    CommandWorld.setting.wp guard (drainCommands budget) (fun _ ↦ Balanced [] 0) world := by
  induction budget generalizing world with
  | zero => exact wp_done hbalanced
  | succ budget ih =>
    refine wp_pop (fun reached hreached ↦ ?_) (fun command reached hreached ↦ ?_) hbalanced
    · exact wp_done hreached
    · exact wp_submit (fun _ _ hafter ↦ ih hafter) hreached

theorem wp_deliver (calls : List TouchCall) {world : CommandWorld ρ σ ι}
    (hbalanced : Balanced [] 0 world) :
    CommandWorld.setting.wp guard (deliver calls) (fun _ ↦ Balanced [] 0) world := by
  induction calls generalizing world with
  | nil => exact wp_done hbalanced
  | cons call rest ih =>
    exact wp_local rfl (fun _ _ ↦ ⟨rfl, rfl⟩) (fun _ _ hafter ↦ ih hafter) hbalanced

theorem wp_scanLoop (touch : GpioTouchSource) (nowMs : Millis) (channels : List ℕ)
    {world : CommandWorld ρ σ ι} (hbalanced : Balanced [] 0 world) :
    CommandWorld.setting.wp guard (touch.scanLoop nowMs channels) (fun _ ↦ Balanced [] 0)
      world := by
  induction channels generalizing world with
  | nil => exact wp_done hbalanced
  | cons channel rest ih =>
    unfold GpioTouchSource.scanLoop
    split_ifs with hpin
    · exact ih hbalanced
    · refine Setting.wp_bind (Setting.wp_mono (fun _ _ hafter ↦ ih hafter) ?_)
      refine wp_local rfl (fun _ _ ↦ ⟨rfl, rfl⟩) (fun high read hread ↦ ?_) hbalanced
      refine wp_local rfl (fun _ _ ↦ ⟨rfl, rfl⟩) (fun polled reached hreached ↦ ?_) hread
      exact wp_deliver polled.2 hreached

/-- A tick started on a balanced queue leaves it balanced, and empty if nothing was submitted
since. -/
theorem wp_tick (touch : GpioTouchSource) (nowMs : Millis) {world : CommandWorld ρ σ ι}
    (hbalanced : Balanced [] kCommandQueueDepth world) :
    CommandWorld.setting.wp guard (tick touch nowMs) (fun _ ↦ Balanced [] 0) world := by
  refine Setting.wp_bind (Setting.wp_mono (fun _ drained hdrained ↦ ?_)
    (wp_drainCommands kCommandQueueDepth hbalanced))
  refine Setting.wp_bind (Setting.wp_mono (fun _ scanned hscanned ↦ ?_)
    (wp_scanLoop touch nowMs _ hdrained))
  exact wp_local rfl (fun _ _ ↦ ⟨rfl, rfl⟩) (fun _ _ hafter ↦ wp_done hafter) hscanned

/-! ### All interleavings -/

/-- In every configuration the control loop reaches beside any submissions, the invariant holds at
rest and the rest of a tick restores it. -/
theorem maintains_balanced (touch : GpioTouchSource)
    (coord : ControlCoordinator ρ σ (LocalResetHandler ι)) (engine : TouchInput)
    {phase : Component.Phase LoopCall LoopAns Unit Millis} {world : CommandWorld ρ σ ι}
    (hsteps : (controlLoop touch).Steps CommandWorld.setting CommandWorld.starts
      (.idle (), CommandWorld.fresh coord engine) (phase, world)) :
    Component.Maintains CommandWorld.setting guard (fun _ ↦ Balanced [] 0) (phase, world) := by
  refine Component.invariant_rule (fun _ ↦ Balanced.interferes) ?_ hsteps
    (balanced_fresh coord engine)
  rintro _ nowMs reached _ hreached rfl
  refine wp_tick touch nowMs ⟨hreached.policy, le_rfl, hreached.balance, fun _ ↦ ?_⟩
  exact reached.plane.queue.length_toList_le

/-- In every configuration the accepted commands are accounted for, with the command in hand
between those handed over and those in the queue. -/
theorem exists_balanced_inHand (touch : GpioTouchSource)
    (coord : ControlCoordinator ρ σ (LocalResetHandler ι)) (engine : TouchInput)
    {phase : Component.Phase LoopCall LoopAns Unit Millis} {world : CommandWorld ρ σ ι}
    (hsteps : (controlLoop touch).Steps CommandWorld.setting CommandWorld.starts
      (.idle (), CommandWorld.fresh coord engine) (phase, world)) :
    ∃ bound, Balanced (inHand phase) bound world := by
  have hmaintains := maintains_balanced touch coord engine hsteps
  match phase with
  | .idle () => exact ⟨0, hmaintains⟩
  | .busy _ (.ret ()) => exact ⟨0, hmaintains world .refl⟩
  | .busy _ (.call _ _) => exact Setting.wp_guard hmaintains

/-- For every interleaving of remote submissions with the requests of ticks, at every point: the
commands handed to the coordinator are a prefix of the accepted ones, what is missing is the
command in hand, if one was just popped, and the content of the queue, which is no longer than its
depth; a submission answered busy has no effect; between ticks, if nothing was submitted since the
last one started, the queue is empty; and the relays change only by a request of a tick. -/
theorem commands_once_in_order (touch : GpioTouchSource)
    (coord : ControlCoordinator ρ σ (LocalResetHandler ι)) (engine : TouchInput)
    {phase : Component.Phase LoopCall LoopAns Unit Millis} {world : CommandWorld ρ σ ι}
    (hsteps : (controlLoop touch).Steps CommandWorld.setting CommandWorld.starts
      (.idle (), CommandWorld.fresh coord engine) (phase, world)) :
    world.handed <+: world.accepted ∧
      world.accepted = world.handed ++ inHand phase ++ world.plane.queue.toList ∧
      world.plane.queue.toList.length ≤ kCommandQueueDepth ∧
      (∀ command, (world.plane.submitRemote command).1 = .fail .busy →
        (world.offer command).plane = world.plane ∧
          (world.offer command).accepted = world.accepted) ∧
      (phase = .idle () → world.submissions.length = world.startedAt →
        world.plane.queue.toList = []) ∧
      ∀ phase' world', (controlLoop touch).Step CommandWorld.setting CommandWorld.starts
        (phase, world) (phase', world') →
          world'.plane.coord.relays ≠ world.plane.coord.relays →
            ∃ nowMs request resume, phase = .busy nowMs (.call request resume) := by
  obtain ⟨bound, hpolicy, -, hbalance, -⟩ := exists_balanced_inHand touch coord engine hsteps
  refine ⟨⟨inHand phase ++ world.plane.queue.toList, ?_⟩, hbalance,
    world.plane.queue.length_toList_le, fun command hbusy ↦ ?_, ?_, ?_⟩
  · rw [hbalance, List.append_assoc]
  · rcases submitRemote_cases hpolicy command with ⟨hsuccess, -⟩ | hrefused
    · rw [hsuccess] at hbusy
      exact absurd hbusy (by decide)
    · refine ⟨by simp [CommandWorld.offer, hrefused], ?_⟩
      rw [accepted_offer, hrefused]
      exact List.append_nil _
  · rintro rfl hquiet
    have hresting : Balanced [] 0 world := maintains_balanced touch coord engine hsteps
    exact List.length_eq_zero_iff.mp (Nat.le_zero.mp (hresting.backlog hquiet))
  · intro phase' world' hstep hchanged
    cases hstep with
    | start hstart =>
      rw [hstart] at hchanged
      exact absurd rfl hchanged
    | answer hanswer => exact ⟨_, _, _, rfl⟩
    | interfere hinterfere =>
      obtain ⟨command, rfl⟩ := hinterfere
      exact absurd rfl hchanged
    | finish => exact absurd rfl hchanged

end Invariant

/-- A two-gang device to which one command was submitted. -/
def offered : CommandWorld DriveLog (List Announcement) (List Bool) :=
  (CommandWorld.fresh idlePlane.coord idlePlane.engine).offer { kind := .setAll, state := .on }

theorem commands_once_in_order_witness :
    offered.accepted = offered.handed ++ [] ++ offered.plane.queue.toList :=
  have hsteps : (controlLoop ⟨Profiles.kSwitch2G, .activeHigh⟩).Steps
      CommandWorld.setting CommandWorld.starts
      (.idle (), CommandWorld.fresh idlePlane.coord idlePlane.engine)
      (.busy 0 (tick ⟨Profiles.kSwitch2G, .activeHigh⟩ 0), offered) :=
    .tail (.single (.start rfl)) (.interfere ⟨_, rfl⟩)
  (commands_once_in_order _ _ _ hsteps).2.1

end LibreSwitch.App
