import LibreSwitch.Platform.SyncQueue

/-!
# A ring that is preempted without a lock

The publish queue of `net/mqtt_service.h` is a plain `BoundedQueue` with `DropOldest`. The control
task, of priority 5, pushes the announcements of a command into it, and the net task, of priority
2, pops them. Nothing guards it, so a push can run between any two loads or stores of a pop, as a
whole, because the task that pops cannot come back before the other one has finished.

A pop makes seven accesses: it loads the count, the head, the item and again the head, stores the
next head, loads the count and stores it decremented. `pop_preempted_harmless_iff` says at which of
the eight places around them a push leaves what one of the two orders would have left.

The place that is bad in a ring with room is between the last load and the last store: the count
that is stored is the one from before the push. From then on the ring lags, through every later run
(`lags_run`): as many announcements as were pushed there stay behind, and a queue that is drained
again and again still withholds the newest (`uncounted_pushes_stay_behind`).
-/

set_option autoImplicit false
set_option relaxedAutoImplicit false

namespace LibreSwitch.Platform

open LibreSwitch.Library

variable {α : Type} {capacity : ℕ}

namespace Cells

/-- What `popInternal` leaves of any cells. -/
def dropped (capacity : ℕ) (cells : Cells α) : Cells α :=
  { cells with head := BoundedQueue.next capacity cells.head, count := cells.count - 1 }

/-- What the end of `push` leaves of any cells. -/
def stored (capacity : ℕ) (item : α) (cells : Cells α) : Cells α :=
  { cells with
    buf := Function.update cells.buf cells.tail item
    tail := BoundedQueue.next capacity cells.tail
    count := cells.count + 1 }

/-- What a whole `push` leaves of any cells, under `DropOldest`. -/
def pushed (capacity : ℕ) (item : α) (cells : Cells α) : Cells α :=
  ((BoundedQueue.pushAccesses capacity .dropOldest item).runOn respond cells).2

theorem pushed_of_full (item : α) {cells : Cells α} (hfull : cells.count = capacity) :
    pushed capacity item cells = (cells.dropped capacity).stored capacity item := by
  rw [pushed, BoundedQueue.pushAccesses, BoundedQueue.runOn_loadCount, if_pos hfull]
  rfl

theorem pushed_of_room (item : α) {cells : Cells α} (hroom : cells.count ≠ capacity) :
    pushed capacity item cells = cells.stored capacity item := by
  rw [pushed, BoundedQueue.pushAccesses, BoundedQueue.runOn_loadCount, if_neg hroom]
  rfl

end Cells

namespace BoundedQueue

/-- A pop that a batch of pushes preempts behind a number of its accesses: its answer and the
cells. -/
def popPreemptedBy (queue : BoundedQueue α capacity) (batch : List α) (place : ℕ) :
    Option α × Cells α :=
  (popAccesses α capacity).runPreempted Cells.respond
    (fun cells ↦ batch.foldl (fun reached item ↦ Cells.pushed capacity item reached) cells)
    place queue.cells

/-- A pop that a single push preempts. -/
def popPreempted (queue : BoundedQueue α capacity) (item : α) (place : ℕ) : Option α × Cells α :=
  queue.popPreemptedBy [item] place

/-- The push first, then the pop. -/
def pushThenPop (queue : BoundedQueue α capacity) (item : α) : Option α × Cells α :=
  ((queue.push item).2.pop.1, (queue.push item).2.pop.2.cells)

/-- The pop first, then the push. -/
def popThenPush (queue : BoundedQueue α capacity) (item : α) : Option α × Cells α :=
  (queue.pop.1, (queue.pop.2.push item).2.cells)

/-- The preempted pop answers and leaves what it does in one of the two orders. -/
def Harmless (queue : BoundedQueue α capacity) (item : α) (place : ℕ) : Prop :=
  queue.popPreempted item place = queue.pushThenPop item ∨
    queue.popPreempted item place = queue.popThenPush item

variable {queue : BoundedQueue α capacity} {item : α}

theorem pushed_cells (hpolicy : queue.policy = .dropOldest) :
    Cells.pushed capacity item queue.cells = (queue.push item).2.cells := by
  rw [Cells.pushed, ← hpolicy, runOn_push]

/-- A pop that is preempted before its first access. -/
theorem popPreempted_zero (hpolicy : queue.policy = .dropOldest) :
    queue.popPreempted item 0 = queue.pushThenPop item := by
  have hrun : queue.popPreempted item 0 =
      (popAccesses α capacity).runOn Cells.respond (Cells.pushed capacity item queue.cells) := rfl
  rw [hrun, pushed_cells hpolicy, runOn_pop]
  rfl

/-- The accesses of a pop behind its first. -/
def popRest (α : Type) (capacity : ℕ) : CellProg α (Option α) := do
  let head ← CellProg.ask .loadHead
  let item ← CellProg.ask (.loadItem head)
  popInternalAccesses α capacity
  return some item

theorem popPreempted_succ (queue : BoundedQueue α capacity) (item : α) (place : ℕ) :
    queue.popPreempted item (place + 1) =
      Prog.runPreempted Cells.respond (Cells.pushed capacity item)
        (if queue.cells.count = 0 then Prog.ret none else popRest α capacity) place queue.cells :=
  rfl

/-- Only the first access is made of an empty queue. -/
theorem popPreempted_of_empty (hpolicy : queue.policy = .dropOldest) (hcount : queue.count = 0)
    (place : ℕ) : queue.popPreempted item (place + 1) = queue.popThenPush item := by
  have hcells : queue.cells.count = 0 := hcount
  have hpop : queue.pop = (none, queue) := by rw [pop, dif_neg (by omega)]
  rw [popPreempted_succ, if_pos hcells, popThenPush, hpop]
  cases place <;> exact congrArg (Prod.mk none) (pushed_cells hpolicy)

section Places

variable (hcount : 0 < queue.count)

include hcount

theorem popPreempted_rest (item : α) (place : ℕ) :
    queue.popPreempted item (place + 1) = Prog.runPreempted Cells.respond
      (Cells.pushed capacity item) (popRest α capacity) place queue.cells := by
  have hcells : ¬ queue.cells.count = 0 := hcount.ne'
  rw [popPreempted_succ, if_neg hcells]

theorem pop_of_count_pos : queue.pop = (some (queue.buf queue.head), queue.popInternal hcount) := by
  rw [pop, dif_pos hcount]

/-- Behind the last access the pop is over. -/
theorem popPreempted_end (hpolicy : queue.policy = .dropOldest) (item : α) {place : ℕ}
    (hplace : 7 ≤ place) : queue.popPreempted item place = queue.popThenPush item := by
  obtain ⟨further, rfl⟩ := Nat.exists_eq_add_of_le' hplace
  have hpolicy' : queue.pop.2.policy = .dropOldest := (policy_pop queue).trans hpolicy
  rw [popThenPush, ← pushed_cells hpolicy', pop_of_count_pos hcount, popPreempted_rest hcount]
  cases further <;> rfl

/-- The answer of a preempted pop and the cells it leaves, place by place. -/
theorem popPreempted_places (item : α) :
    let cells := queue.cells
    let pushed := Cells.pushed capacity item cells
    let moved := { cells with head := next capacity cells.head }
    let late := Cells.pushed capacity item moved
    queue.popPreempted item 1 = (some (pushed.buf pushed.head), pushed.dropped capacity) ∧
    queue.popPreempted item 2 = (some (pushed.buf cells.head), pushed.dropped capacity) ∧
    queue.popPreempted item 3 = (some (cells.buf cells.head), pushed.dropped capacity) ∧
    queue.popPreempted item 4 = (some (cells.buf cells.head),
      { pushed with head := next capacity cells.head, count := pushed.count - 1 }) ∧
    queue.popPreempted item 5 =
      (some (cells.buf cells.head), { late with count := late.count - 1 }) ∧
    queue.popPreempted item 6 =
      (some (cells.buf cells.head), { late with count := cells.count - 1 }) := by
  simp only [popPreempted_rest hcount]
  exact ⟨rfl, rfl, rfl, rfl, rfl, rfl⟩

theorem pushThenPop_eq_one (hpolicy : queue.policy = .dropOldest) (item : α) :
    queue.pushThenPop item = queue.popPreempted item 1 := by
  have hpushed : 0 < (queue.push item).2.count := by
    unfold push
    split_ifs
    · exact hcount
    · exact Nat.succ_pos _
    · exact Nat.succ_pos _
  rw [(popPreempted_places hcount item).1, pushThenPop, pop_of_count_pos hpushed,
    pushed_cells hpolicy]
  rfl

theorem popThenPush_eq (hpolicy : queue.policy = .dropOldest) (item : α) :
    queue.popThenPush item = (some (queue.cells.buf queue.cells.head),
      Cells.pushed capacity item (queue.cells.dropped capacity)) := by
  have hpolicy' : queue.pop.2.policy = .dropOldest := (policy_pop queue).trans hpolicy
  rw [popThenPush, ← pushed_cells hpolicy', pop_of_count_pos hcount]
  rfl

end Places

/-! ### A ring with room -/

section Room

theorem head_ne_tail (hcount : 0 < queue.count) (hroom : queue.count < capacity) :
    queue.cells.head ≠ queue.cells.tail := by
  have hne : (queue.head + 0) % capacity ≠ (queue.head + queue.count) % capacity :=
    cell_ne hcount (by omega)
  rwa [Nat.add_zero, Nat.mod_eq_of_lt queue.head_lt, ← queue.tail_eq] at hne

theorem dropped_stored (hcount : 0 < queue.count) (item : α) :
    (queue.cells.stored capacity item).dropped capacity =
      (queue.cells.dropped capacity).stored capacity item := by
  have hcount' : queue.count + 1 - 1 = queue.count - 1 + 1 := by omega
  simp only [Cells.dropped, Cells.stored, cells, hcount']

theorem popThenPush_of_room (hcount : 0 < queue.count) (hroom : queue.count < capacity)
    (hpolicy : queue.policy = .dropOldest) (item : α) :
    queue.popThenPush item = (some (queue.cells.buf queue.cells.head),
      (queue.cells.stored capacity item).dropped capacity) := by
  have hcells : (queue.cells.dropped capacity).count ≠ capacity := by
    have hlt : queue.count - 1 < capacity := by omega
    exact hlt.ne
  rw [popThenPush_eq hcount hpolicy, Cells.pushed_of_room _ hcells, dropped_stored hcount]

/-- In a ring with room a push disturbs a pop nowhere but between its last load and its last
store. -/
theorem popPreempted_of_room (hcount : 0 < queue.count) (hroom : queue.count < capacity)
    (hpolicy : queue.policy = .dropOldest) (item : α) {place : ℕ} (hpos : 0 < place)
    (hplace : place < 6) : queue.popPreempted item place = queue.popThenPush item := by
  have hcells : queue.cells.count ≠ capacity := hroom.ne
  have hpushed := Cells.pushed_of_room item hcells
  have hlate : Cells.pushed capacity item
      { queue.cells with head := next capacity queue.cells.head } = _ :=
    Cells.pushed_of_room item hcells
  have hbuf : (queue.cells.stored capacity item).buf queue.cells.head =
      queue.cells.buf queue.cells.head :=
    Function.update_of_ne (head_ne_tail hcount hroom) _ _
  obtain ⟨hone, htwo, hthree, hfour, hfive, -⟩ := popPreempted_places hcount item
  rw [popThenPush_of_room hcount hroom hpolicy]
  interval_cases place
  · rw [hone, hpushed, ← hbuf]
    rfl
  · rw [htwo, hpushed, hbuf]
  · rw [hthree, hpushed]
  · rw [hfour, hpushed]
    rfl
  · rw [hfive, hlate]
    rfl

/-- Between the last load and the last store the push is uncounted. -/
theorem popPreempted_six_of_room (hcount : 0 < queue.count) (hroom : queue.count < capacity)
    (item : α) : queue.popPreempted item 6 = (some (queue.cells.buf queue.cells.head),
      { (queue.cells.stored capacity item).dropped capacity with count := queue.count - 1 }) := by
  have hcells : queue.cells.count ≠ capacity := hroom.ne
  have hlate : Cells.pushed capacity item
      { queue.cells with head := next capacity queue.cells.head } = _ :=
    Cells.pushed_of_room item hcells
  rw [(popPreempted_places hcount item).2.2.2.2.2, hlate]
  rfl

theorem not_harmless_six (hcount : 0 < queue.count) (hroom : queue.count < capacity)
    (hpolicy : queue.policy = .dropOldest) : ¬ queue.Harmless item 6 := by
  have hfirst : queue.pushThenPop item = queue.popThenPush item := by
    rw [pushThenPop_eq_one hcount hpolicy,
      popPreempted_of_room hcount hroom hpolicy item Nat.one_pos (by omega)]
  have hne : queue.popPreempted item 6 ≠ queue.popThenPush item := by
    rw [popPreempted_six_of_room hcount hroom, popThenPush_of_room hcount hroom hpolicy]
    intro heq
    have hcells : queue.count - 1 = queue.count + 1 - 1 :=
      congrArg (fun result ↦ result.2.count) heq
    omega
  rintro (hpush | hpop)
  · exact hne (hpush.trans hfirst)
  · exact hne hpop

end Room

/-! ### A full ring -/

section Full

theorem popThenPush_of_full (hcapacity : 0 < capacity) (hfull : queue.count = capacity)
    (hpolicy : queue.policy = .dropOldest) (item : α) :
    queue.popThenPush item = (some (queue.cells.buf queue.cells.head),
      (queue.cells.dropped capacity).stored capacity item) := by
  have hcells : (queue.cells.dropped capacity).count ≠ capacity := by
    have hlt : queue.count - 1 < capacity := by omega
    exact hlt.ne
  rw [popThenPush_eq (by omega) hpolicy, Cells.pushed_of_room _ hcells]

/-- In a full ring the push takes the oldest item too, and the pop counts one item less. -/
theorem popPreempted_of_full (hcapacity : 0 < capacity) (hfull : queue.count = capacity)
    (hpolicy : queue.policy = .dropOldest) (item : α) :
    (queue.popPreempted item 2 = (some item, (queue.pushThenPop item).2)) ∧
    (queue.popPreempted item 3 = (queue.pop.1, (queue.pushThenPop item).2)) ∧
    (queue.popPreempted item 4 = (queue.pop.1, { (queue.pushThenPop item).2 with
      head := next capacity queue.head })) ∧
    (queue.popPreempted item 5 = (queue.pop.1, (queue.pushThenPop item).2)) ∧
    (queue.popPreempted item 6 = (queue.pop.1, (queue.pushThenPop item).2)) := by
  have hcount : 0 < queue.count := by omega
  have hpushed := @Cells.pushed_of_full _ _ item queue.cells hfull
  have hlate : Cells.pushed capacity item
      { queue.cells with head := next capacity queue.cells.head } = _ :=
    Cells.pushed_of_full item hfull
  obtain ⟨hone, htwo, hthree, hfour, hfive, hsix⟩ := popPreempted_places hcount item
  have hself : (queue.cells.dropped capacity).tail = queue.cells.head := by
    have hmod : queue.tail = (queue.head + queue.count) % capacity := queue.tail_eq
    rw [hfull, Nat.add_mod_right, Nat.mod_eq_of_lt queue.head_lt] at hmod
    exact hmod
  have hitem : ((queue.cells.dropped capacity).stored capacity item).buf queue.cells.head =
      item := by
    rw [← hself]
    exact Function.update_self _ _ _
  rw [pushThenPop_eq_one hcount hpolicy, pop_of_count_pos hcount, hone, hpushed]
  refine ⟨?_, ?_, ?_, ?_, ?_⟩
  · rw [htwo, hpushed, hitem]
  · rw [hthree, hpushed]
    rfl
  · rw [hfour, hpushed]
    rfl
  · rw [hfive, hlate]
    rfl
  · rw [hsix, hlate]
    rfl

/-- After both orders the full ring has one item less if the push came first. -/
theorem pushThenPop_count_of_full (hcapacity : 0 < capacity) (hfull : queue.count = capacity)
    (hpolicy : queue.policy = .dropOldest) (item : α) :
    (queue.pushThenPop item).2.count = capacity - 1 ∧
      (queue.pushThenPop item).2.head = next capacity (next capacity queue.head) ∧
      (queue.popThenPush item).2.count = capacity := by
  have hcount : 0 < queue.count := by omega
  rw [pushThenPop_eq_one hcount hpolicy, (popPreempted_places hcount item).1,
    Cells.pushed_of_full _ hfull, popThenPush_of_full hcapacity hfull hpolicy]
  have hfirst : queue.count - 1 + 1 - 1 = capacity - 1 := by omega
  have hlast : queue.count - 1 + 1 = capacity := by omega
  exact ⟨hfirst, rfl, hlast⟩

/-- A preempted pop of a full ring that leaves the cells of the push first is harmless when it
also gives that order's answer. -/
theorem harmless_iff_of_cells (hcapacity : 0 < capacity) (hfull : queue.count = capacity)
    (hpolicy : queue.policy = .dropOldest) {place : ℕ} {answer : Option α}
    (hplace : queue.popPreempted item place = (answer, (queue.pushThenPop item).2)) :
    queue.Harmless item place ↔ (queue.push item).2.pop.1 = answer := by
  obtain ⟨hcount, -, hother⟩ := pushThenPop_count_of_full hcapacity hfull hpolicy item
  constructor
  · rintro (hfirst | hlast)
    · rw [hplace] at hfirst
      exact (congrArg Prod.fst hfirst).symm
    · rw [hplace] at hlast
      have hcells : (queue.pushThenPop item).2.count = (queue.popThenPush item).2.count :=
        congrArg (fun result ↦ result.2.count) hlast
      omega
  · rintro rfl
    exact Or.inl hplace

/-- Between the load of the head and its store the push moves a head that the pop moves back. -/
theorem not_harmless_four (hcapacity : 1 < capacity) (hfull : queue.count = capacity)
    (hpolicy : queue.policy = .dropOldest) : ¬ queue.Harmless item 4 := by
  obtain ⟨hcount, hhead, hother⟩ := pushThenPop_count_of_full (by omega) hfull hpolicy item
  have hplace := (popPreempted_of_full (by omega) hfull hpolicy item).2.2.1
  have hmoved : next capacity queue.head ≠ next capacity (next capacity queue.head) := by
    have hne : (queue.head + 1) % capacity ≠ (queue.head + 2) % capacity :=
      cell_ne (by omega) (by omega)
    rwa [next, next, Nat.mod_add_mod]
  rintro (hfirst | hlast)
  · rw [hplace] at hfirst
    have hcells : next capacity queue.head = (queue.pushThenPop item).2.head :=
      congrArg (fun result ↦ result.2.head) hfirst
    exact hmoved (hcells.trans hhead)
  · rw [hplace] at hlast
    have hcells : (queue.pushThenPop item).2.count = (queue.popThenPush item).2.count :=
      congrArg (fun result ↦ result.2.count) hlast
    omega

end Full

/-- At which places a push that preempts a pop does no harm, exactly: before the first or between
the first two loads, behind the last store, in an empty ring, in a ring with room anywhere but
between the last load and the last store, and in a full ring by the accident that the two items
which it confuses are equal. -/
theorem pop_preempted_harmless_iff (hcapacity : 1 < capacity) (queue : BoundedQueue α capacity)
    (hpolicy : queue.policy = .dropOldest) (item : α) (place : ℕ) :
    queue.Harmless item place ↔
      place ≤ 1 ∨ 7 ≤ place ∨ queue.count = 0 ∨ (queue.count < capacity ∧ place ≠ 6) ∨
        (place = 2 ∧ (queue.push item).2.pop.1 = some item) ∨
        ((place = 3 ∨ place = 5 ∨ place = 6) ∧ queue.count = capacity ∧
          (queue.push item).2.pop.1 = queue.pop.1) := by
  rcases Nat.eq_zero_or_pos queue.count with hzero | hcount
  · refine iff_of_true ?_ (Or.inr (Or.inr (Or.inl hzero)))
    cases place with
    | zero => exact Or.inl (popPreempted_zero hpolicy)
    | succ place => exact Or.inr (popPreempted_of_empty hpolicy hzero place)
  rcases Nat.lt_or_ge place 2 with hearly | hlater
  · refine iff_of_true ?_ (Or.inl (by omega))
    interval_cases place
    · exact Or.inl (popPreempted_zero hpolicy)
    · exact Or.inl (pushThenPop_eq_one hcount hpolicy item).symm
  rcases Nat.lt_or_ge place 7 with hbefore | hend
  · rcases queue.count_le.lt_or_eq with hroom | hfull
    · rcases Nat.lt_or_ge place 6 with hplace | hplace
      · have hsame := popPreempted_of_room hcount hroom hpolicy item (by omega) hplace
        exact iff_of_true (Or.inr hsame) (by omega)
      · obtain rfl : place = 6 := by omega
        refine iff_of_false (not_harmless_six hcount hroom hpolicy) ?_
        rintro (h | h | h | ⟨-, h⟩ | ⟨h, -⟩ | ⟨-, h, -⟩) <;> omega
    · obtain ⟨htwo, hthree, -, hfive, hsix⟩ :=
        popPreempted_of_full (by omega) hfull hpolicy item
      have hpositive : capacity ≠ 0 := by omega
      have hiff {place : ℕ} {answer : Option α}
          (hplace : queue.popPreempted item place = (answer, (queue.pushThenPop item).2)) :=
        harmless_iff_of_cells (by omega) hfull hpolicy hplace
      interval_cases place
      · rw [hiff htwo]
        simp [hfull, hpositive]
      · rw [hiff hthree]
        simp [hfull, hpositive]
      · refine iff_of_false (not_harmless_four hcapacity hfull hpolicy) ?_
        simp [hfull, hpositive]
      · rw [hiff hfive]
        simp [hfull, hpositive]
      · rw [hiff hsix]
        simp [hfull, hpositive]
  · exact iff_of_true (Or.inr (popPreempted_end hcount hpolicy item hend)) (Or.inr (Or.inl hend))

/-- A push into a ring of one item, between the last load and the last store of the pop of that
item. -/
theorem pop_preempted_harmless_iff_single :
    ¬ ((new (by decide) .dropOldest : BoundedQueue ℕ 4).push 5).2.Harmless 7 6 :=
  (pop_preempted_harmless_iff (by decide) _ rfl 7 6).not.mpr (by decide)

/-! ### What an uncounted push does to every later run -/

/-- Cells that count fewer items than the ring they are the cells of. -/
def Lags (capacity behind : ℕ) (cells : Cells α) (items : List α) : Prop :=
  ∃ queue : BoundedQueue α capacity, queue.toList = items ∧ behind ≤ queue.count ∧
    cells = { queue.cells with count := queue.count - behind }

/-- The unguarded calls, each run to its end, on any cells. -/
def cellMachine (α : Type) (capacity : ℕ) : Machine (SyncCall α) (QueueAnswer α) (Cells α) where
  step cells call :=
    let (answer, cells') :=
      ((SyncQueue.monitor α capacity .dropOldest).body call).runOn Cells.respond cells
    (cells', answer)

/-- A list that withholds its newest items. -/
def withholding (α : Type) (behind : ℕ) : Machine (SyncCall α) (QueueAnswer α) (List α) where
  step items
    | .push item => (items ++ [item], .flag true)
    | .pop => if behind < items.length then (items.tail, .item items.head?) else (items, .item none)
    | .empty => (items, .flag (items.length ≤ behind))

/-- The push of a call, if it is one. -/
def pushedItem : SyncCall α → Option α
  | .push item => some item
  | _ => none

/-- The item of an answer, if it has one. -/
def handedItem : QueueAnswer α → Option α
  | .item answer => answer
  | _ => none

/-- Every push of a run finds room among the items that were not popped. -/
def RoomThroughout (capacity behind : ℕ) (start : List α) (calls : List (SyncCall α)) : Prop :=
  AtEvery (fun before call ↦ (pushedItem call).isSome →
    ((withholding α behind).final start before).length < capacity) calls

section Lag

variable {behind : ℕ} {cells : Cells α} {items : List α}

theorem step_cellMachine (cells : Cells α) (call : SyncCall α) :
    (cellMachine α capacity).step cells call =
      ((((SyncQueue.monitor α capacity .dropOldest).body call).runOn Cells.respond cells).2,
        (((SyncQueue.monitor α capacity .dropOldest).body call).runOn Cells.respond cells).1) := rfl

theorem lags_push (hlags : Lags capacity behind cells items) (hroom : items.length < capacity)
    (item : α) :
    ((cellMachine α capacity).step cells (.push item)).2 = .flag true ∧
      Lags capacity behind ((cellMachine α capacity).step cells (.push item)).1
        (items ++ [item]) := by
  obtain ⟨queue, rfl, hbehind, rfl⟩ := hlags
  have hcount : queue.count < capacity := by rwa [length_toList] at hroom
  have hcells : ¬ queue.count - behind = capacity := by omega
  have hstep : (cellMachine α capacity).step { queue.cells with count := queue.count - behind }
      (.push item) =
      (Cells.stored capacity item { queue.cells with count := queue.count - behind },
        .flag true) := by
    rw [step_cellMachine, SyncQueue.monitor, SyncQueue.runOn_map, pushAccesses, runOn_loadCount,
      if_neg hcells]
    rfl
  rw [hstep]
  refine ⟨rfl, queue.store item hcount, toList_store queue item hcount, ?_, ?_⟩
  · exact hbehind.trans (Nat.le_succ _)
  · have hlate : queue.count + 1 - behind = queue.count - behind + 1 := by omega
    simp only [Cells.stored, cells, store, hlate]

theorem lags_pop (hlags : Lags capacity behind cells items) :
    ((cellMachine α capacity).step cells .pop).2 = ((withholding α behind).step items .pop).2 ∧
      Lags capacity behind ((cellMachine α capacity).step cells .pop).1
        ((withholding α behind).step items .pop).1 := by
  obtain ⟨queue, rfl, hbehind, rfl⟩ := hlags
  have hlength := length_toList queue
  rw [step_cellMachine, SyncQueue.monitor, SyncQueue.runOn_map, popAccesses, runOn_loadCount,
    withholding]
  dsimp only
  rcases hbehind.lt_or_eq with hmore | hall
  · have hcount : 0 < queue.count := by omega
    have hcells : ¬ queue.count - behind = 0 := by omega
    rw [if_neg hcells, if_pos (by omega), toList_popInternal queue hcount]
    refine ⟨rfl, queue.popInternal hcount, rfl, Nat.le_sub_one_of_lt hmore, ?_⟩
    have hlate : queue.count - behind - 1 = queue.count - 1 - behind := by omega
    exact congrArg (fun count ↦ { queue.cells.dropped capacity with count := count }) hlate
  · have hcells : queue.count - behind = 0 := by omega
    rw [if_pos hcells, if_neg (by omega)]
    exact ⟨rfl, queue, rfl, hbehind, rfl⟩

theorem lags_empty (hlags : Lags capacity behind cells items) :
    ((cellMachine α capacity).step cells .empty).2 =
        ((withholding α behind).step items .empty).2 ∧
      ((cellMachine α capacity).step cells .empty).1 = cells := by
  obtain ⟨queue, rfl, hbehind, rfl⟩ := hlags
  refine ⟨congrArg QueueAnswer.flag (decide_eq_decide.mpr ?_), rfl⟩
  rw [length_toList]
  exact Nat.sub_eq_zero_iff_le

/-- Every call on cells that lag is answered by the list that withholds its newest items. -/
theorem lags_step (hlags : Lags capacity behind cells items) (call : SyncCall α)
    (hroom : (pushedItem call).isSome → items.length < capacity) :
    ((cellMachine α capacity).step cells call).2 = ((withholding α behind).step items call).2 ∧
      Lags capacity behind ((cellMachine α capacity).step cells call).1
        ((withholding α behind).step items call).1 := by
  cases call with
  | push item => exact lags_push hlags (hroom rfl) item
  | pop => exact lags_pop hlags
  | empty =>
    obtain ⟨hanswer, hcells⟩ := lags_empty hlags
    refine ⟨hanswer, ?_⟩
    rw [hcells]
    exact hlags

/-- So is every run that never overfills the ring. -/
theorem lags_run (hlags : Lags capacity behind cells items) (calls : List (SyncCall α))
    (hroom : RoomThroughout capacity behind items calls) :
    (cellMachine α capacity).reports cells calls = (withholding α behind).reports items calls ∧
      Lags capacity behind ((cellMachine α capacity).final cells calls)
        ((withholding α behind).final items calls) := by
  induction calls using List.reverseRecOn with
  | nil => exact ⟨rfl, hlags⟩
  | append_singleton before call ih =>
    obtain ⟨hbefore, hcall⟩ := atEvery_concat.mp hroom
    obtain ⟨hreports, hfinal⟩ := ih hbefore
    obtain ⟨hanswer, hnext⟩ := lags_step hfinal call hcall
    rw [Machine.reports_concat, Machine.reports_concat, Machine.final_concat,
      Machine.final_concat, hreports, hanswer]
    exact ⟨rfl, hnext⟩

end Lag

/-- What the withholding list was given and has handed out. -/
theorem withholding_conserves {behind : ℕ} {items : List α} (hbehind : behind ≤ items.length)
    (calls : List (SyncCall α)) :
    items ++ calls.filterMap pushedItem =
        ((withholding α behind).reports items calls).filterMap handedItem ++
          (withholding α behind).final items calls ∧
      behind ≤ ((withholding α behind).final items calls).length := by
  induction calls generalizing items with
  | nil => simpa using hbehind
  | cons call rest ih =>
    cases call with
    | push item =>
      have hlonger : behind ≤ (items ++ [item]).length := by
        rw [List.length_append]
        omega
      obtain ⟨hrest, hlength⟩ := ih hlonger
      refine ⟨?_, hlength⟩
      rw [List.append_assoc] at hrest
      exact hrest
    | empty => exact ih hbehind
    | pop =>
      by_cases hmore : behind < items.length
      · obtain ⟨first, later, rfl⟩ := List.exists_cons_of_length_pos (by omega : 0 < items.length)
        have hstep : (withholding α behind).step (first :: later) .pop =
            (later, .item (some first)) := if_pos hmore
        have hlater : behind ≤ later.length := Nat.le_of_lt_succ hmore
        obtain ⟨hrest, hlength⟩ := ih hlater
        rw [Machine.reports_cons, Machine.final_cons, hstep]
        exact ⟨congrArg (first :: ·) hrest, hlength⟩
      · have hstep : (withholding α behind).step items .pop = (items, .item none) := if_neg hmore
        rw [Machine.reports_cons, Machine.final_cons, hstep]
        exact ih hbehind

/-- Pushes into cells that count one item more than the ring they are the cells of. -/
theorem pushedAll_of_room (ring : BoundedQueue α capacity) (batch : List α)
    (hroom : ring.count + 1 + batch.length ≤ capacity) :
    ∃ later : BoundedQueue α capacity, later.toList = ring.toList ++ batch ∧
      later.count = ring.count + batch.length ∧
      batch.foldl (fun reached item ↦ Cells.pushed capacity item reached)
        { ring.cells with count := ring.count + 1 } =
          { later.cells with count := later.count + 1 } := by
  induction batch generalizing ring with
  | nil => exact ⟨ring, (List.append_nil _).symm, rfl, rfl⟩
  | cons item rest ih =>
    rw [List.length_cons] at hroom
    have hstore : ring.count < capacity := by omega
    have hcells : ring.count + 1 ≠ capacity := by omega
    obtain ⟨later, hlist, hcount, hcells'⟩ := ih (ring.store item hstore) (by
      change ring.count + 1 + 1 + rest.length ≤ capacity
      omega)
    refine ⟨later, ?_, ?_, ?_⟩
    · rw [hlist, toList_store, List.append_assoc, List.singleton_append]
    · rw [hcount, List.length_cons]
      change ring.count + 1 + rest.length = _
      omega
    · rw [List.foldl_cons, Cells.pushed_of_room _ hcells, ← hcells']
      rfl

/-- Pushes that run between the last load and the last store of a pop are not counted. -/
theorem lags_of_popPreempted {queue : BoundedQueue α capacity} (hcount : 0 < queue.count)
    {batch : List α} (hroom : queue.count + batch.length ≤ capacity) :
    (queue.popPreemptedBy batch 6).1 = queue.toList.head? ∧
      Lags capacity batch.length (queue.popPreemptedBy batch 6).2
        (queue.toList.tail ++ batch) := by
  have hcells : ¬ queue.cells.count = 0 := hcount.ne'
  have hpopped : (queue.popInternal hcount).count = queue.count - 1 := rfl
  obtain ⟨later, hlist, hlater, hpushed⟩ :=
    pushedAll_of_room (queue.popInternal hcount) batch (by omega)
  have hone : queue.count - 1 + 1 = queue.count := by omega
  have hmoved : ({ (queue.popInternal hcount).cells with
      count := (queue.popInternal hcount).count + 1 } : Cells α) =
      { queue.cells with head := next capacity queue.cells.head } := by
    rw [hpopped, hone]
    rfl
  have hrun : queue.popPreemptedBy batch 6 = Prog.runPreempted Cells.respond
      (fun cells ↦ batch.foldl (fun reached item ↦ Cells.pushed capacity item reached) cells)
      (if queue.cells.count = 0 then Prog.ret none else popRest α capacity) 5 queue.cells := rfl
  have hplace : queue.popPreemptedBy batch 6 = (some (queue.buf queue.head),
      { batch.foldl (fun reached item ↦ Cells.pushed capacity item reached)
          { queue.cells with head := next capacity queue.cells.head } with
        count := queue.count - 1 }) := by
    rw [hrun, if_neg hcells]
    rfl
  rw [hplace, ← hmoved, hpushed, toList_popInternal queue hcount]
  refine ⟨rfl, later, hlist, by omega, ?_⟩
  have hbehind : queue.count - 1 = later.count - batch.length := by omega
  rw [hbehind]

/-- Pushes that preempt a pop between its last load and its last store stay uncounted in every
later run that does not overfill the ring. What is popped from then on is what was pushed, in
order, but for as many of the newest items as were pushed there; and a pop finds the queue empty
exactly when these are what is left, so that draining it does not bring them out. -/
theorem uncounted_pushes_stay_behind (queue : BoundedQueue α capacity) (hcount : 0 < queue.count)
    (batch : List α) (hroom : queue.count + batch.length ≤ capacity) (calls : List (SyncCall α))
    (hcalls : RoomThroughout capacity batch.length (queue.toList.tail ++ batch) calls) :
    let popped := queue.popPreemptedBy batch 6
    let cells := (cellMachine α capacity).final popped.2 calls
    popped.1 = queue.toList.head? ∧
      ∃ kept, queue.toList.tail ++ batch ++ calls.filterMap pushedItem =
          ((cellMachine α capacity).reports popped.2 calls).filterMap handedItem ++ kept ∧
        batch.length ≤ kept.length ∧
        (((cellMachine α capacity).step cells .pop).2 = .item none ↔
          kept.length = batch.length) := by
  intro popped cells
  obtain ⟨hanswer, hlags⟩ := lags_of_popPreempted hcount hroom
  obtain ⟨hreports, hfinal⟩ := lags_run hlags calls hcalls
  obtain ⟨hconserves, hlength⟩ := withholding_conserves
    (by rw [List.length_append]; omega : batch.length ≤ (queue.toList.tail ++ batch).length) calls
  refine ⟨hanswer, _, hreports ▸ hconserves, hlength, ?_⟩
  have hpop : ((cellMachine α capacity).step cells .pop).2 =
      ((withholding α batch.length).step
        ((withholding α batch.length).final (queue.toList.tail ++ batch) calls) .pop).2 :=
    (lags_pop hfinal).1
  rw [hpop]
  generalize (withholding α batch.length).final (queue.toList.tail ++ batch) calls = kept at hlength
  rw [withholding]
  dsimp only
  rcases hlength.lt_or_eq with hmore | hall
  · obtain ⟨first, rest, rfl⟩ := List.exists_cons_of_length_pos (by omega : 0 < kept.length)
    rw [if_pos hmore]
    refine iff_of_false (fun heq ↦ ?_) hmore.ne'
    cases heq
  · rw [if_neg (by omega)]
    exact iff_of_true rfl hall.symm

/-- One uncounted push: the item is popped only when another has been pushed behind it. -/
theorem uncounted_pushes_stay_behind_single :
    let queue := ((new (by decide) .dropOldest : BoundedQueue ℕ 4).push 5).2
    let popped := queue.popPreemptedBy [7] 6
    (cellMachine ℕ 4).reports popped.2 [.pop, .push 8, .pop] =
        [.item none, .flag true, .item (some 7)] ∧
      popped.1 = queue.toList.head? := by
  refine ⟨by decide, (uncounted_pushes_stay_behind _ (by decide) [7] (by decide)
    ([] ++ [.pop] ++ [.push 8] ++ [.pop]) ?_).1⟩
  have hpop : AtEvery (fun before call ↦ (pushedItem call).isSome →
      ((withholding ℕ 1).final [7] before).length < 4) ([] ++ [.pop]) :=
    atEvery_concat.mpr ⟨atEvery_nil, by decide⟩
  exact atEvery_concat.mpr ⟨atEvery_concat.mpr ⟨hpop, by decide⟩, by decide⟩

end BoundedQueue

end LibreSwitch.Platform
