import Mathlib.Tactic

/-!
# The bounded queue

`BoundedQueue` of `platform/bounded_queue.h`: a ring buffer with a head, a tail and a count. The
structure carries the relation of the three as fields, so that a ring whose indices disagree cannot
be built. `SyncQueue` of `platform/sync_queue.h` is the same object with every operation inside a
critical section: its operations are the ones below, taken as single steps.

`toList` is the content, oldest first. The specification is in its terms: whatever the fill level
and wherever the ring wraps, a push appends (`toList_push_of_room`), is refused
(`push_of_full_reject`) or drops the oldest item (`toList_push_of_full_drop`), by the policy, and a
pop takes the oldest (`toList_pop`).
-/

set_option autoImplicit false
set_option relaxedAutoImplicit false

namespace LibreSwitch.Platform

/-- `OverflowPolicy`. -/
inductive OverflowPolicy
  | rejectWhenFull
  | dropOldest
  deriving DecidableEq, Repr

/-- `BoundedQueue`. -/
structure BoundedQueue (α : Type) (capacity : ℕ) where
  buf : ℕ → α
  head : ℕ
  tail : ℕ
  count : ℕ
  policy : OverflowPolicy
  head_lt : head < capacity
  count_le : count ≤ capacity
  tail_eq : tail = (head + count) % capacity

namespace BoundedQueue

variable {α : Type} {capacity : ℕ}

/-- A new queue. The source asserts that the capacity is positive. -/
def new [Inhabited α] (hcapacity : 0 < capacity)
    (policy : OverflowPolicy := .rejectWhenFull) : BoundedQueue α capacity where
  buf _ := default
  head := 0
  tail := 0
  count := 0
  policy := policy
  head_lt := hcapacity
  count_le := Nat.zero_le _
  tail_eq := (Nat.zero_mod _).symm

/-- `next`: the index after an index, around the ring. -/
def next (capacity index : ℕ) : ℕ := (index + 1) % capacity

def empty (queue : BoundedQueue α capacity) : Bool := queue.count = 0

def full (queue : BoundedQueue α capacity) : Bool := queue.count = capacity

def size (queue : BoundedQueue α capacity) : ℕ := queue.count

/-- `popInternal`, which the source calls on a queue that is not empty. -/
def popInternal (queue : BoundedQueue α capacity) (hcount : 0 < queue.count) :
    BoundedQueue α capacity :=
  { queue with
    head := next capacity queue.head
    count := queue.count - 1
    head_lt := Nat.mod_lt _ (Nat.zero_lt_of_lt queue.head_lt)
    count_le := (Nat.sub_le _ _).trans queue.count_le
    tail_eq := by
      rw [queue.tail_eq, next, Nat.mod_add_mod]
      congr 1
      omega }

/-- The part of `push` that stores the item in a queue with room. -/
def store (queue : BoundedQueue α capacity) (item : α) (hroom : queue.count < capacity) :
    BoundedQueue α capacity :=
  { queue with
    buf := Function.update queue.buf queue.tail item
    tail := next capacity queue.tail
    count := queue.count + 1
    count_le := hroom
    tail_eq := by rw [next, queue.tail_eq, Nat.mod_add_mod, Nat.add_assoc] }

theorem count_pos_of_full {queue : BoundedQueue α capacity} (hfull : queue.full = true) :
    0 < queue.count := by
  rw [of_decide_eq_true hfull]
  exact Nat.zero_lt_of_lt queue.head_lt

theorem count_lt_of_not_full {queue : BoundedQueue α capacity} (hfull : ¬ queue.full = true) :
    queue.count < capacity :=
  lt_of_le_of_ne queue.count_le fun heq ↦ hfull (decide_eq_true heq)

def push (queue : BoundedQueue α capacity) (item : α) : Bool × BoundedQueue α capacity :=
  if hfull : queue.full = true then
    if queue.policy = .rejectWhenFull then (false, queue)
    else
      (true, (queue.popInternal (count_pos_of_full hfull)).store item
        (lt_of_lt_of_le (Nat.sub_lt (count_pos_of_full hfull) Nat.one_pos) queue.count_le))
  else (true, queue.store item (count_lt_of_not_full hfull))

def pop (queue : BoundedQueue α capacity) : Option α × BoundedQueue α capacity :=
  if hcount : 0 < queue.count then (some (queue.buf queue.head), queue.popInternal hcount)
  else (none, queue)

/-! ### The content -/

/-- The content, oldest first. -/
def toList (queue : BoundedQueue α capacity) : List α :=
  (List.range queue.count).map fun offset ↦ queue.buf ((queue.head + offset) % capacity)

@[simp] theorem length_toList (queue : BoundedQueue α capacity) :
    queue.toList.length = queue.count := by
  simp [toList]

theorem toList_new [Inhabited α] (hcapacity : 0 < capacity) (policy : OverflowPolicy) :
    (new hcapacity policy : BoundedQueue α capacity).toList = [] := rfl

theorem toList_eq_nil_iff (queue : BoundedQueue α capacity) :
    queue.toList = [] ↔ queue.count = 0 := by
  rw [← List.length_eq_zero_iff, length_toList]

/-- Two places of the ring less than a capacity apart are different cells. -/
theorem cell_ne {head first second : ℕ} (hfirst : first < second)
    (hsecond : second < first + capacity) :
    (head + first) % capacity ≠ (head + second) % capacity := by
  intro heq
  have hdvd : capacity ∣ (head + second) - (head + first) :=
    (Nat.modEq_iff_dvd' (by omega)).mp heq
  have hle : capacity ≤ (head + second) - (head + first) := Nat.le_of_dvd (by omega) hdvd
  omega

theorem toList_store (queue : BoundedQueue α capacity) (item : α)
    (hroom : queue.count < capacity) :
    (queue.store item hroom).toList = queue.toList ++ [item] := by
  have htail : Function.update queue.buf queue.tail item ((queue.head + queue.count) % capacity) =
      item := by
    rw [← queue.tail_eq, Function.update_self]
  have hold : ∀ offset ∈ List.range queue.count,
      Function.update queue.buf queue.tail item ((queue.head + offset) % capacity) =
        queue.buf ((queue.head + offset) % capacity) := by
    intro offset hoffset
    have hlt : offset < queue.count := List.mem_range.mp hoffset
    rw [queue.tail_eq, Function.update_of_ne (cell_ne hlt (by omega))]
  simp only [toList, store, List.range_succ, List.map_append, List.map_cons, List.map_nil, htail]
  rw [List.map_congr_left hold]

theorem toList_popInternal (queue : BoundedQueue α capacity) (hcount : 0 < queue.count) :
    queue.toList = queue.buf queue.head :: (queue.popInternal hcount).toList := by
  obtain ⟨rest, hrest⟩ : ∃ rest, queue.count = rest + 1 := ⟨queue.count - 1, by omega⟩
  have hhead : (queue.head + 0) % capacity = queue.head := by
    rw [Nat.add_zero, Nat.mod_eq_of_lt queue.head_lt]
  simp only [toList, popInternal, hrest, List.range_succ_eq_map, List.map_cons, List.map_map,
    hhead, Nat.add_sub_cancel]
  congr 1
  refine List.map_congr_left fun offset _ ↦ ?_
  simp only [Function.comp_apply, next, Nat.mod_add_mod]
  congr 2
  omega

/-! ### The specification -/

/-- A push into a queue with room appends. -/
theorem toList_push_of_room {queue : BoundedQueue α capacity} (hroom : queue.count < capacity)
    (item : α) : (queue.push item).1 = true ∧
      (queue.push item).2.toList = queue.toList ++ [item] := by
  have hfull : ¬ queue.full = true := fun hfull ↦ hroom.ne (of_decide_eq_true hfull)
  rw [push, dif_neg hfull]
  exact ⟨rfl, toList_store queue item hroom⟩

/-- A push into a full queue that rejects changes nothing. -/
theorem push_of_full_reject {queue : BoundedQueue α capacity} (hfull : queue.count = capacity)
    (hpolicy : queue.policy = .rejectWhenFull) (item : α) : queue.push item = (false, queue) := by
  have hfull' : queue.full = true := decide_eq_true hfull
  rw [push, dif_pos hfull', if_pos hpolicy]

/-- A push into a full queue that drops its oldest item makes room and appends. -/
theorem toList_push_of_full_drop {queue : BoundedQueue α capacity} (hfull : queue.count = capacity)
    (hpolicy : queue.policy = .dropOldest) (item : α) : (queue.push item).1 = true ∧
      (queue.push item).2.toList = queue.toList.tail ++ [item] := by
  have hfull' : queue.full = true := decide_eq_true hfull
  have hcount := count_pos_of_full hfull'
  rw [push, dif_pos hfull', if_neg (by rw [hpolicy]; decide)]
  refine ⟨rfl, ?_⟩
  rw [toList_store, toList_popInternal queue hcount, List.tail_cons]

/-- A pop takes the oldest item, if there is one. -/
theorem toList_pop (queue : BoundedQueue α capacity) :
    queue.pop.1 = queue.toList.head? ∧ queue.pop.2.toList = queue.toList.tail := by
  unfold pop
  split_ifs with hcount
  · rw [toList_popInternal queue hcount]
    exact ⟨rfl, rfl⟩
  · have hnil : queue.toList = [] := (toList_eq_nil_iff queue).mpr (Nat.eq_zero_of_not_pos hcount)
    rw [hnil]
    exact ⟨rfl, rfl⟩

@[simp] theorem policy_push (queue : BoundedQueue α capacity) (item : α) :
    (queue.push item).2.policy = queue.policy := by
  unfold push
  split_ifs <;> rfl

@[simp] theorem policy_pop (queue : BoundedQueue α capacity) :
    queue.pop.2.policy = queue.policy := by
  unfold pop
  split_ifs <;> rfl

/-- The content never exceeds the capacity. -/
theorem length_toList_le (queue : BoundedQueue α capacity) : queue.toList.length ≤ capacity := by
  rw [length_toList]
  exact queue.count_le

end BoundedQueue

end LibreSwitch.Platform
