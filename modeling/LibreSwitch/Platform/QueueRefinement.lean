import Mathlib.Data.List.DropRight
import LibreSwitch.Library.Machine
import LibreSwitch.Platform.BoundedQueue

/-!
# The ring buffer and the list it stands for

What a bounded queue is for, without a ring: a list of at most `capacity` items. A push puts its
item at the end, and what the overflow policy says of a full list is in `BoundedList.push`: it
answers false and keeps the list, or it keeps the last `capacity` items of the longer one. A pop
takes the first item.

`BoundedQueue` refines it. The two are machines over the same calls, and the ring with its content
`toList` simulates the list: each call answers the same and leaves related states
(`answer_step`, `toList_step`). From a new queue every sequence of calls, in any order and with
the questions `empty`, `full` and `size` anywhere between, is therefore answered as the list
answers it (`queue_refines_list`).
-/

set_option autoImplicit false
set_option relaxedAutoImplicit false

namespace LibreSwitch.Platform

open LibreSwitch.Library (Machine)

/-- A call of the public interface of the queue. -/
inductive QueueCall (α : Type)
  | push (item : α)
  | pop
  | empty
  | full
  | size
  deriving DecidableEq, Repr

/-- What a call returns: a flag, the item of a `pop` that had one, or a number. -/
inductive QueueAnswer (α : Type)
  | flag (answer : Bool)
  | item (answer : Option α)
  | number (answer : ℕ)
  deriving DecidableEq, Repr

variable {α : Type} {capacity : ℕ}

/-! ### The bounded list -/

namespace BoundedList

/-- A push onto a list of at most `capacity` items. -/
def push (capacity : ℕ) (items : List α) (item : α) : OverflowPolicy → Bool × List α
  | .rejectWhenFull =>
    if items.length = capacity then (false, items) else (true, items ++ [item])
  | .dropOldest => (true, (items ++ [item]).rtake capacity)

/-- The list as a machine over the calls. -/
def machine (α : Type) (capacity : ℕ) (policy : OverflowPolicy) :
    Machine (QueueCall α) (QueueAnswer α) (List α) where
  step items
    | .push item =>
      let (stored, items') := push capacity items item policy
      (items', .flag stored)
    | .pop => (items.tail, .item items.head?)
    | .empty => (items, .flag items.isEmpty)
    | .full => (items, .flag (items.length = capacity))
    | .size => (items, .number items.length)

/-- With room, either policy appends. -/
theorem push_of_room {items : List α} (hroom : items.length < capacity) (item : α)
    (policy : OverflowPolicy) : push capacity items item policy = (true, items ++ [item]) := by
  cases policy with
  | rejectWhenFull => rw [push, if_neg hroom.ne]
  | dropOldest =>
    have hfits : (items ++ [item]).length - capacity = 0 := by
      rw [List.length_append, List.length_singleton]
      omega
    rw [push, List.rtake, hfits, List.drop_zero]

/-- A full list that drops its oldest item makes room and appends. -/
theorem push_of_full_drop {items : List α} (hcapacity : 0 < capacity)
    (hfull : items.length = capacity) (item : α) :
    push capacity items item .dropOldest = (true, items.tail ++ [item]) := by
  have hone : (items ++ [item]).length - capacity = 1 := by
    rw [List.length_append, List.length_singleton]
    omega
  rw [push, List.rtake, hone, List.drop_append_of_le_length (by omega), List.drop_one]

end BoundedList

/-! ### The ring simulates the list -/

namespace BoundedQueue

/-- The queue as a machine over the calls. -/
def machine (α : Type) (capacity : ℕ) :
    Machine (QueueCall α) (QueueAnswer α) (BoundedQueue α capacity) where
  step queue
    | .push item =>
      let (stored, queue') := queue.push item
      (queue', .flag stored)
    | .pop =>
      let (item, queue') := queue.pop
      (queue', .item item)
    | .empty => (queue, .flag queue.empty)
    | .full => (queue, .flag queue.full)
    | .size => (queue, .number queue.size)

/-- A push into the ring is a push onto its content. -/
theorem push_eq_listPush (queue : BoundedQueue α capacity) (item : α) :
    ((queue.push item).1, (queue.push item).2.toList) =
      BoundedList.push capacity queue.toList item queue.policy := by
  have hlength := length_toList queue
  rcases queue.count_le.lt_or_eq with hroom | hfull
  · obtain ⟨hstored, hlist⟩ := toList_push_of_room hroom item
    rw [hstored, hlist, BoundedList.push_of_room (hlength.trans_lt hroom)]
  · cases hpolicy : queue.policy with
    | rejectWhenFull =>
      rw [push_of_full_reject hfull hpolicy, BoundedList.push, if_pos (hlength.trans hfull)]
    | dropOldest =>
      obtain ⟨hstored, hlist⟩ := toList_push_of_full_drop hfull hpolicy item
      rw [hstored, hlist, BoundedList.push_of_full_drop (Nat.zero_lt_of_lt queue.head_lt)
        (hlength.trans hfull)]

theorem empty_eq_isEmpty (queue : BoundedQueue α capacity) :
    queue.empty = queue.toList.isEmpty := by
  rw [empty, Bool.eq_iff_iff, decide_eq_true_iff, List.isEmpty_iff, toList_eq_nil_iff]

theorem full_eq_decide_length (queue : BoundedQueue α capacity) :
    queue.full = decide (queue.toList.length = capacity) := by
  rw [full, length_toList]

theorem size_eq_length (queue : BoundedQueue α capacity) : queue.size = queue.toList.length := by
  rw [size, length_toList]

/-- Every call is answered as the content answers it. -/
theorem answer_step (call : QueueCall α) (queue : BoundedQueue α capacity) :
    ((machine α capacity).step queue call).2 =
      ((BoundedList.machine α capacity queue.policy).step queue.toList call).2 := by
  cases call with
  | push item =>
    exact congrArg QueueAnswer.flag (congrArg Prod.fst (push_eq_listPush queue item))
  | pop => exact congrArg QueueAnswer.item (toList_pop queue).1
  | empty => exact congrArg QueueAnswer.flag (empty_eq_isEmpty queue)
  | full => exact congrArg QueueAnswer.flag (full_eq_decide_length queue)
  | size => exact congrArg QueueAnswer.number (size_eq_length queue)

/-- Every call moves the content as it moves the list, and keeps the policy. -/
theorem toList_step (call : QueueCall α) (queue : BoundedQueue α capacity) :
    ((machine α capacity).step queue call).1.toList =
        ((BoundedList.machine α capacity queue.policy).step queue.toList call).1 ∧
      ((machine α capacity).step queue call).1.policy = queue.policy := by
  cases call with
  | push item =>
    exact ⟨congrArg Prod.snd (push_eq_listPush queue item), policy_push queue item⟩
  | pop => exact ⟨(toList_pop queue).2, policy_pop queue⟩
  | empty => exact ⟨rfl, rfl⟩
  | full => exact ⟨rfl, rfl⟩
  | size => exact ⟨rfl, rfl⟩

/-- A ring and a list that are the same queue under a policy. -/
def Stands (policy : OverflowPolicy) (queue : BoundedQueue α capacity) (items : List α) : Prop :=
  queue.toList = items ∧ queue.policy = policy

theorem stands_step {policy : OverflowPolicy} (call : QueueCall α)
    (queue : BoundedQueue α capacity) (items : List α) (hstands : Stands policy queue items) :
    Stands policy ((machine α capacity).step queue call).1
      ((BoundedList.machine α capacity policy).step items call).1 := by
  obtain ⟨rfl, rfl⟩ := hstands
  exact toList_step call queue

/-- A push is refused by a full queue that rejects, and by no other. -/
theorem push_refused_iff (queue : BoundedQueue α capacity) (item : α) :
    (queue.push item).1 = false ↔
      queue.policy = .rejectWhenFull ∧ queue.toList.length = capacity := by
  have hpush : (queue.push item).1 =
      (BoundedList.push capacity queue.toList item queue.policy).1 :=
    congrArg Prod.fst (push_eq_listPush queue item)
  rw [hpush]
  cases queue.policy with
  | rejectWhenFull =>
    by_cases hfull : queue.toList.length = capacity
    · rw [BoundedList.push, if_pos hfull]
      exact iff_of_true rfl ⟨rfl, hfull⟩
    · rw [BoundedList.push, if_neg hfull]
      exact iff_of_false Bool.false_ne_true.symm fun hboth ↦ hfull hboth.2
  | dropOldest =>
    exact iff_of_false Bool.false_ne_true.symm fun hboth ↦ OverflowPolicy.noConfusion hboth.1

/-- A push that is refused leaves the ring as it is. -/
theorem push_of_refused {queue : BoundedQueue α capacity} {item : α}
    (hrefused : (queue.push item).1 = false) : (queue.push item).2 = queue := by
  obtain ⟨hpolicy, hfull⟩ := (push_refused_iff queue item).mp hrefused
  rw [push_of_full_reject ((length_toList queue).symm.trans hfull) hpolicy]

/-- Every sequence of calls on a new queue is answered as the bounded list answers it, and the
ring holds the items of the list behind it. A push is refused exactly by a full list that rejects,
and then leaves the ring itself as it is. -/
theorem queue_refines_list [Inhabited α] (hcapacity : 0 < capacity) (policy : OverflowPolicy)
    (calls : List (QueueCall α)) :
    let queue := (machine α capacity).final (new hcapacity policy) calls
    let items := (BoundedList.machine α capacity policy).final [] calls
    (machine α capacity).reports (new hcapacity policy) calls =
        (BoundedList.machine α capacity policy).reports [] calls ∧
      queue.toList = items ∧
      ∀ item, ((queue.push item).1 = false ↔
          policy = .rejectWhenFull ∧ items.length = capacity) ∧
        ((queue.push item).1 = false → (queue.push item).2 = queue) := by
  have hstart : Stands policy (new hcapacity policy : BoundedQueue α capacity) [] :=
    ⟨toList_new hcapacity policy, rfl⟩
  have hfinal := Machine.final_of_simulates (Stands policy) id stands_step hstart calls
  have hreports : (machine α capacity).reports (new hcapacity policy) calls =
      (BoundedList.machine α capacity policy).reports [] (calls.map id) := by
    refine Machine.reports_eq_of_simulates (fun _ ↦ Stands policy) id ?_ hstart
    rintro call rest queue items hstands
    refine ⟨?_, stands_step call queue items hstands⟩
    obtain ⟨rfl, rfl⟩ := hstands
    exact answer_step call queue
  rw [List.map_id] at hfinal hreports
  obtain ⟨hlist, hpolicy⟩ := hfinal
  refine ⟨hreports, hlist, fun item ↦ ⟨?_, push_of_refused⟩⟩
  rw [push_refused_iff, hlist, hpolicy]

/-- Three pushes into two places that drop the oldest, then two questions and three pops. -/
theorem queue_refines_list_drop :
    (machine ℕ 2).reports (new Nat.two_pos .dropOldest)
        [.push 7, .push 8, .push 9, .full, .size, .pop, .pop, .pop] =
      (BoundedList.machine ℕ 2 .dropOldest).reports []
        [.push 7, .push 8, .push 9, .full, .size, .pop, .pop, .pop] ∧
    (BoundedList.machine ℕ 2 .dropOldest).reports []
        [.push 7, .push 8, .push 9, .full, .size, .pop, .pop, .pop] =
      [.flag true, .flag true, .flag true, .flag true, .number 2, .item (some 8), .item (some 9),
        .item none] :=
  ⟨(queue_refines_list Nat.two_pos .dropOldest _).1, by decide⟩

end BoundedQueue

end LibreSwitch.Platform
