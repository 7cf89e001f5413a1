import LibreSwitch.Library.Monitor
import LibreSwitch.Platform.QueueRefinement

/-!
# The queue that tasks share

`SyncQueue` of `platform/sync_queue.h` is a `BoundedQueue` whose operations run between `enter` and
`exit` of a critical section. Here the operations of the ring are the single loads and stores of
the source, in its order, on cells that nothing keeps in agreement: a task can be preempted between
any two of them.

Run alone, the loads and stores of an operation are the operation on the ring (`runOn_push`,
`runOn_pop`). Under the lock the bounded list is therefore all that any number of tasks can see, in
every interleaving (`sync_queue_linearizable`).
-/

set_option autoImplicit false
set_option relaxedAutoImplicit false

namespace LibreSwitch.Platform

open LibreSwitch.Library

variable {α : Type} {capacity : ℕ}

/-! ### Cells and accesses -/

/-- The members of a `BoundedQueue` that its operations write. -/
structure Cells (α : Type) where
  buf : ℕ → α
  head : ℕ
  tail : ℕ
  count : ℕ

/-- A single load or store. -/
inductive CellAccess (α : Type)
  | loadHead
  | loadTail
  | loadCount
  | loadItem (index : ℕ)
  | storeHead (value : ℕ)
  | storeTail (value : ℕ)
  | storeCount (value : ℕ)
  | storeItem (index : ℕ) (item : α)

@[reducible] def CellAccess.Ans : CellAccess α → Type
  | .loadHead | .loadTail | .loadCount => ℕ
  | .loadItem _ => α
  | _ => Unit

namespace Cells

def respond (cells : Cells α) : (access : CellAccess α) → CellAccess.Ans access × Cells α
  | .loadHead => (cells.head, cells)
  | .loadTail => (cells.tail, cells)
  | .loadCount => (cells.count, cells)
  | .loadItem index => (cells.buf index, cells)
  | .storeHead value => ((), { cells with head := value })
  | .storeTail value => ((), { cells with tail := value })
  | .storeCount value => ((), { cells with count := value })
  | .storeItem index item => ((), { cells with buf := Function.update cells.buf index item })

end Cells

/-- A program of loads and stores. -/
abbrev CellProg (α : Type) := Prog (CellAccess α) CellAccess.Ans

abbrev CellProg.ask (access : CellAccess α) : CellProg α access.Ans := Prog.ask access

/-- The cells of a ring. -/
def BoundedQueue.cells (queue : BoundedQueue α capacity) : Cells α where
  buf := queue.buf
  head := queue.head
  tail := queue.tail
  count := queue.count

/-! ### The operations, access by access -/

namespace BoundedQueue

/-- `popInternal`: `head_ = next(head_); --count_`. -/
def popInternalAccesses (α : Type) (capacity : ℕ) : CellProg α Unit := do
  let head ← CellProg.ask .loadHead
  CellProg.ask (.storeHead (next capacity head))
  let count ← CellProg.ask .loadCount
  CellProg.ask (.storeCount (count - 1))

/-- The end of `push`: `buf_[tail_] = item; tail_ = next(tail_); ++count_`. -/
def storeAccesses (capacity : ℕ) (item : α) : CellProg α Unit := do
  let index ← CellProg.ask .loadTail
  CellProg.ask (.storeItem index item)
  let tail ← CellProg.ask .loadTail
  CellProg.ask (.storeTail (next capacity tail))
  let count ← CellProg.ask .loadCount
  CellProg.ask (.storeCount (count + 1))

/-- `push`. The policy is never written. -/
def pushAccesses (capacity : ℕ) (policy : OverflowPolicy) (item : α) : CellProg α Bool := do
  let count ← CellProg.ask .loadCount
  if count = capacity then
    if policy = .rejectWhenFull then return false
    popInternalAccesses α capacity
  storeAccesses capacity item
  return true

/-- `pop`, with the item in place of the reference it is written through. -/
def popAccesses (α : Type) (capacity : ℕ) : CellProg α (Option α) := do
  let count ← CellProg.ask .loadCount
  if count = 0 then return none
  let head ← CellProg.ask .loadHead
  let item ← CellProg.ask (.loadItem head)
  popInternalAccesses α capacity
  return some item

/-- `empty`. -/
def emptyAccesses (α : Type) : CellProg α Bool := do
  let count ← CellProg.ask .loadCount
  return count = 0

variable (queue : BoundedQueue α capacity)

theorem runOn_loadCount {β : Type} (next : ℕ → CellProg α β) (cells : Cells α) :
    (CellProg.ask .loadCount >>= next).runOn Cells.respond cells =
      (next cells.count).runOn Cells.respond cells := rfl

/-- Run alone, the accesses of `push` are `push`. -/
theorem runOn_push (item : α) :
    (pushAccesses capacity queue.policy item).runOn Cells.respond queue.cells =
      ((queue.push item).1, (queue.push item).2.cells) := by
  by_cases hfull : queue.full = true
  · have hcount : queue.cells.count = capacity := of_decide_eq_true hfull
    by_cases hpolicy : queue.policy = .rejectWhenFull
    · rw [push, dif_pos hfull, if_pos hpolicy]
      rw [pushAccesses, runOn_loadCount, if_pos hcount, if_pos hpolicy]
      rfl
    · rw [push, dif_pos hfull, if_neg hpolicy]
      rw [pushAccesses, runOn_loadCount, if_pos hcount, if_neg hpolicy]
      rfl
  · have hcount : ¬ queue.cells.count = capacity := fun heq ↦ hfull (decide_eq_true heq)
    rw [push, dif_neg hfull]
    rw [pushAccesses, runOn_loadCount, if_neg hcount]
    rfl

/-- Run alone, the accesses of `pop` are `pop`. -/
theorem runOn_pop :
    (popAccesses α capacity).runOn Cells.respond queue.cells =
      (queue.pop.1, queue.pop.2.cells) := by
  by_cases hcount : 0 < queue.count
  · have hne : ¬ queue.cells.count = 0 := hcount.ne'
    rw [pop, dif_pos hcount]
    rw [popAccesses, runOn_loadCount, if_neg hne]
    rfl
  · have hzero : queue.cells.count = 0 := Nat.eq_zero_of_not_pos hcount
    rw [pop, dif_neg hcount]
    rw [popAccesses, runOn_loadCount, if_pos hzero]
    rfl

theorem runOn_empty :
    (emptyAccesses α).runOn Cells.respond queue.cells = (queue.empty, queue.cells) := rfl

end BoundedQueue

/-! ### The guarded queue -/

/-- A call of the public interface of `SyncQueue`. `capacity` reads nothing that changes. -/
inductive SyncCall (α : Type)
  | push (item : α)
  | pop
  | empty
  deriving DecidableEq, Repr

namespace SyncQueue

/-- The call of the queue inside the critical section. -/
def inner : SyncCall α → QueueCall α
  | .push item => .push item
  | .pop => .pop
  | .empty => .empty

/-- The operations of `SyncQueue`: those of the ring between the two ends of a `CriticalGuard`. -/
def monitor (α : Type) (capacity : ℕ) (policy : OverflowPolicy) :
    Monitor (CellAccess α) CellAccess.Ans (Cells α) (SyncCall α) (QueueAnswer α) where
  respond := Cells.respond
  body
    | .push item => QueueAnswer.flag <$> BoundedQueue.pushAccesses capacity policy item
    | .pop => QueueAnswer.item <$> BoundedQueue.popAccesses α capacity
    | .empty => QueueAnswer.flag <$> BoundedQueue.emptyAccesses α

/-- What the queue is for: the bounded list, a call at a time. -/
def listMachine (α : Type) (capacity : ℕ) (policy : OverflowPolicy) :
    Machine (SyncCall α) (QueueAnswer α) (List α) where
  step items call := (BoundedList.machine α capacity policy).step items (inner call)

/-- The cells hold a ring with the policy and the items. -/
def Holds (capacity : ℕ) (policy : OverflowPolicy) (cells : Cells α) (items : List α) : Prop :=
  ∃ queue : BoundedQueue α capacity,
    queue.cells = cells ∧ BoundedQueue.Stands policy queue items

theorem runOn_map {β γ : Type} (f : β → γ) (program : CellProg α β) (cells : Cells α) :
    (f <$> program).runOn Cells.respond cells =
      (f (program.runOn Cells.respond cells).1, (program.runOn Cells.respond cells).2) :=
  Prog.runOn_bind program (fun value ↦ .ret (f value)) cells

/-- Run alone on a ring, the accesses of a call are the call. -/
theorem runOn_body (policy : OverflowPolicy) (call : SyncCall α) (queue : BoundedQueue α capacity)
    (hpolicy : queue.policy = policy) :
    ((monitor α capacity policy).body call).runOn Cells.respond queue.cells =
      (((BoundedQueue.machine α capacity).step queue (inner call)).2,
        ((BoundedQueue.machine α capacity).step queue (inner call)).1.cells) := by
  subst hpolicy
  cases call with
  | push item =>
    rw [monitor, runOn_map, BoundedQueue.runOn_push]
    rfl
  | pop =>
    rw [monitor, runOn_map, BoundedQueue.runOn_pop]
    rfl
  | empty =>
    rw [monitor, runOn_map, BoundedQueue.runOn_empty]
    rfl

/-- Run alone, every operation is one step of the bounded list. -/
theorem implements (capacity : ℕ) (policy : OverflowPolicy) :
    (monitor α capacity policy).Implements (listMachine α capacity policy)
      (Holds capacity policy) := by
  rintro call _ items ⟨queue, rfl, hstands⟩
  have hrun := runOn_body policy call queue hstands.2
  have hanswer := BoundedQueue.answer_step (inner call) queue
  have hnext := BoundedQueue.stands_step (inner call) queue items hstands
  rw [hstands.1, hstands.2] at hanswer
  exact ⟨(congrArg Prod.fst hrun).trans hanswer, _, (congrArg Prod.snd hrun).symm, hnext⟩

/-- Any number of tasks that push, pop and ask of a new `SyncQueue`, preempted between any two
loads or stores, see the bounded list: the calls and returns are those of operations that take
effect at once, in one order. Only the holder of the critical section touches the ring, and it is
a ring with exactly the items of the list whenever nobody is in there. Nobody waits for ever on a
section that nobody leaves. -/
theorem sync_queue_linearizable [Inhabited α] (hcapacity : 0 < capacity)
    (policy : OverflowPolicy) {τ : Type} [DecidableEq τ]
    {history : List (Mark τ (SyncCall α) (QueueAnswer α))}
    {after : Shared (CellAccess α) CellAccess.Ans τ (Cells α) (SyncCall α) (QueueAnswer α)}
    (hruns : (monitor α capacity policy).Runs
      (Shared.quiet (BoundedQueue.new hcapacity policy).cells) history after) :
    (∃ marks, Linearizes (listMachine α capacity policy) [] history marks ∧
      (after.holder = none →
        Holds capacity policy after.memory
          (stateAfter (listMachine α capacity policy) [] marks))) ∧
    (∀ task operation access resume,
      after.activity task = .running operation (.call (.access access) resume) →
        after.holder = some task) ∧
    (∀ task, after.activity task ≠ .resting →
      ∃ worker seen next, after.activity worker ≠ .resting ∧
        (monitor α capacity policy).Step after seen next ∧
        ∀ other, other ≠ worker → next.activity other = after.activity other) := by
  have himplements := @implements α capacity policy
  have hstart : Holds capacity policy
      (BoundedQueue.new hcapacity policy : BoundedQueue α capacity).cells [] := ⟨_, rfl, rfl, rfl⟩
  exact ⟨Monitor.linearizable himplements hstart hruns,
    fun _ _ _ _ hrunning ↦ Monitor.exclusive himplements hstart hruns hrunning,
    fun _ hbusy ↦ Monitor.progress himplements hstart hruns hbusy⟩

/-- One task in the middle of a push, another that has asked for an item. -/
theorem sync_queue_linearizable_pair :
    ∃ after : Shared (CellAccess ℕ) CellAccess.Ans Bool (Cells ℕ) (SyncCall ℕ) (QueueAnswer ℕ),
      after.holder = some true ∧ after.activity false ≠ .resting ∧
        ∃ marks, Linearizes (listMachine ℕ 8 .rejectWhenFull) []
          [.called true (.push 5), .called false .pop] marks := by
  let start : Shared (CellAccess ℕ) CellAccess.Ans Bool (Cells ℕ) (SyncCall ℕ) (QueueAnswer ℕ) :=
    Shared.quiet (BoundedQueue.new (by decide) .rejectWhenFull : BoundedQueue ℕ 8).cells
  have hpush : (monitor ℕ 8 .rejectWhenFull).Runs start ([] ++ [.called true (.push 5)]) _ :=
    .tail .refl (.call (SyncCall.push 5) rfl)
  have hpop : (monitor ℕ 8 .rejectWhenFull).Runs start
      ([] ++ [.called true (.push 5)] ++ [.called false .pop]) _ :=
    .tail hpush (.call SyncCall.pop rfl)
  have henter : (monitor ℕ 8 .rejectWhenFull).Runs start
      ([] ++ [.called true (.push 5)] ++ [.called false .pop] ++ []) _ :=
    .tail hpop (@Monitor.Step.enter _ _ _ _ _ _ _ _ _ true _ _ rfl rfl)
  obtain ⟨after, hruns, hholder, hactivity⟩ : ∃ after, (monitor ℕ 8 .rejectWhenFull).Runs start
      [.called true (.push 5), .called false .pop] after ∧ after.holder = some true ∧
        after.activity false ≠ .resting := ⟨_, henter, rfl, fun heq ↦ by cases heq⟩
  obtain ⟨⟨marks, hmarks, -⟩, -⟩ := sync_queue_linearizable _ _ hruns
  exact ⟨after, hholder, hactivity, marks, hmarks⟩

end SyncQueue

end LibreSwitch.Platform
