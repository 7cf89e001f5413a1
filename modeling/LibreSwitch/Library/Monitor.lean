import Mathlib.Logic.Function.Basic
import LibreSwitch.Library.Interaction
import LibreSwitch.Library.Machine

/-!
# Operations under a lock

An object in memory that several tasks share. Each operation is a program of single accesses to
the memory, run between taking and giving back one lock. The tasks are preempted anywhere: `Step`
lets any task make its next access at any time, so an interleaving of accesses is excluded by the
lock or not at all.

What is seen from outside are the calls and the returns. `Linearizes` says that a history of them
is one of an object whose operations take effect at once: between each call and its return a
moment of effect can be marked such that the effects, in the order of their marks, are answered by
a sequential machine. Operations that do not overlap keep their order, as their marks do.

`Monitor.linearizable` is the rule. Where each program, run alone, does what one step of the
machine does, every history of every number of tasks linearizes. `Monitor.exclusive` says that the
memory is only ever accessed by the task that holds the lock.
-/

set_option autoImplicit false
set_option relaxedAutoImplicit false

namespace LibreSwitch.Library

/-- What a task asks for that shares memory under a lock. -/
inductive Locked (Access : Type)
  | enter
  | exit
  | access (request : Access)

/-- The lock answers nothing, the memory answers an access. -/
@[reducible] def Locked.Ans {Access : Type} (Ans : Access → Type) : Locked Access → Type
  | .enter => Unit
  | .exit => Unit
  | .access request => Ans request

/-! ### Histories -/

/-- A call, the moment an operation takes effect, or a return. -/
inductive Mark (τ ι ο : Type)
  | called (task : τ) (operation : ι)
  | effect (task : τ) (operation : ι) (answer : ο)
  | returned (task : τ) (answer : ο)

namespace Mark

variable {τ ι ο : Type}

def task : Mark τ ι ο → τ
  | called task _ => task
  | effect task _ _ => task
  | returned task _ => task

/-- Effects are not seen from outside. -/
def visible : Mark τ ι ο → Bool
  | effect _ _ _ => false
  | _ => true

/-- The operation that takes effect at a mark, and its answer. -/
def effect? : Mark τ ι ο → Option (ι × ο)
  | effect _ operation answer => some (operation, answer)
  | _ => none

end Mark

/-- Where a task stands in a history: it has no operation, one that has not taken effect, or one
that has and has not returned. -/
inductive Standing (ι ο : Type)
  | resting
  | pending (operation : ι)
  | answered (answer : ο)

section Histories

variable {τ ι ο σ : Type}

/-- The marks of a task come in turn: a call, the effect of what was called, the return of what it
answered. -/
inductive Standing.Next : Standing ι ο → Mark τ ι ο → Standing ι ο → Prop
  | call {task : τ} {operation : ι} : Next .resting (.called task operation) (.pending operation)
  | effect {task : τ} {operation : ι} {answer : ο} :
      Next (.pending operation) (.effect task operation answer) (.answered answer)
  | done {task : τ} {answer : ο} : Next (.answered answer) (.returned task answer) .resting

/-- The marks of one task in a history are in turn, and leave it standing so. -/
inductive Follows (task : τ) : List (Mark τ ι ο) → Standing ι ο → Prop
  | nil : Follows task [] .resting
  | own {past : List (Mark τ ι ο)} {mark : Mark τ ι ο} {standing next : Standing ι ο}
      (hpast : Follows task past standing) (hown : mark.task = task)
      (hnext : standing.Next mark next) : Follows task (past ++ [mark]) next
  | other {past : List (Mark τ ι ο)} {mark : Mark τ ι ο} {standing : Standing ι ο}
      (hpast : Follows task past standing) (hother : mark.task ≠ task) :
      Follows task (past ++ [mark]) standing

/-- The operations of a history in the order in which they take effect. -/
def effects (marks : List (Mark τ ι ο)) : List (ι × ο) := marks.filterMap Mark.effect?

@[simp] theorem effects_concat_called (marks : List (Mark τ ι ο)) (task : τ) (operation : ι) :
    effects (marks ++ [.called task operation]) = effects marks := by
  simp [effects, Mark.effect?]

@[simp] theorem effects_concat_effect (marks : List (Mark τ ι ο)) (task : τ) (operation : ι)
    (answer : ο) :
    effects (marks ++ [.effect task operation answer]) =
      effects marks ++ [(operation, answer)] := by
  simp [effects, Mark.effect?]

@[simp] theorem effects_concat_returned (marks : List (Mark τ ι ο)) (task : τ) (answer : ο) :
    effects (marks ++ [.returned task answer]) = effects marks := by
  simp [effects, Mark.effect?]

/-- A history of calls and returns is one of operations that take effect at once, at the marks. -/
structure Linearizes (machine : Machine ι ο σ) (start : σ) (history marks : List (Mark τ ι ο)) :
    Prop where
  visible : marks.filter Mark.visible = history
  turns : ∀ task, ∃ standing, Follows task marks standing
  answers : machine.reports start ((effects marks).map Prod.fst) = (effects marks).map Prod.snd

/-- The state of the machine behind the effects of a history. -/
def stateAfter (machine : Machine ι ο σ) (start : σ) (marks : List (Mark τ ι ο)) : σ :=
  machine.final start ((effects marks).map Prod.fst)

end Histories

/-! ### Tasks that share an object -/

variable {Access : Type} {Ans : Access → Type} {τ ω ι ο σ : Type}

/-- The rest of an operation in the critical section, which ends by giving back the lock. -/
def leaving (rest : Prog Access Ans ο) : Prog (Locked Access) (Locked.Ans Ans) ο :=
  (rest.embed Locked.access fun _ ↦ Equiv.refl _ : Prog (Locked Access) (Locked.Ans Ans) ο) >>=
    fun answer ↦ Prog.ask .exit >>= fun _ ↦ .ret answer

/-- An operation that takes the lock first. -/
def guarded (body : Prog Access Ans ο) : Prog (Locked Access) (Locked.Ans Ans) ο :=
  .call .enter fun _ ↦ leaving body

@[simp] theorem leaving_ret (answer : ο) :
    (leaving (.ret answer : Prog Access Ans ο)) = .call .exit fun _ ↦ .ret answer := rfl

@[simp] theorem leaving_call (request : Access) (resume : Ans request → Prog Access Ans ο) :
    leaving (.call request resume) = .call (.access request) fun answer ↦ leaving (resume answer) :=
  rfl

/-- What a task is doing. -/
inductive Activity (Access : Type) (Ans : Access → Type) (ι ο : Type)
  | resting
  | running (operation : ι) (program : Prog (Locked Access) (Locked.Ans Ans) ο)

/-- Tasks, the memory they share and the holder of its lock. -/
structure Shared (Access : Type) (Ans : Access → Type) (τ ω ι ο : Type) where
  holder : Option τ
  memory : ω
  activity : τ → Activity Access Ans ι ο

/-- All tasks at rest and the lock free. -/
def Shared.quiet (memory : ω) : Shared Access Ans τ ω ι ο where
  holder := none
  memory := memory
  activity _ := .resting

/-- An object in shared memory: how the memory answers an access, and the accesses that each of
its operations makes. -/
structure Monitor (Access : Type) (Ans : Access → Type) (ω ι ο : Type) where
  respond : ω → (request : Access) → Ans request × ω
  body : ι → Prog Access Ans ο

namespace Monitor

/-- Each operation, run alone, does what one step of a machine does. -/
def Implements (monitor : Monitor Access Ans ω ι ο) (machine : Machine ι ο σ)
    (represents : ω → σ → Prop) : Prop :=
  ∀ operation memory state, represents memory state →
    ((monitor.body operation).runOn monitor.respond memory).1 = (machine.step state operation).2 ∧
      represents ((monitor.body operation).runOn monitor.respond memory).2
        (machine.step state operation).1

section Steps

variable [DecidableEq τ]

/-- Any task does the next thing of its program: it starts an operation, takes the lock if it is
free, makes one access, gives the lock back or returns. Only calls and returns are seen. -/
inductive Step (monitor : Monitor Access Ans ω ι ο) :
    Shared Access Ans τ ω ι ο → List (Mark τ ι ο) → Shared Access Ans τ ω ι ο → Prop
  | call {state : Shared Access Ans τ ω ι ο} {task : τ} (operation : ι)
      (hresting : state.activity task = .resting) :
      Step monitor state [.called task operation]
        { state with
          activity := Function.update state.activity task
            (.running operation (guarded (monitor.body operation))) }
  | enter {state : Shared Access Ans τ ω ι ο} {task : τ} {operation : ι}
      {resume : Unit → Prog (Locked Access) (Locked.Ans Ans) ο}
      (hrunning : state.activity task = .running operation (.call .enter resume))
      (hfree : state.holder = none) :
      Step monitor state []
        { state with
          holder := some task
          activity := Function.update state.activity task (.running operation (resume ())) }
  | access {state : Shared Access Ans τ ω ι ο} {task : τ} {operation : ι} {request : Access}
      {resume : Ans request → Prog (Locked Access) (Locked.Ans Ans) ο}
      (hrunning : state.activity task = .running operation (.call (.access request) resume)) :
      Step monitor state []
        { state with
          memory := (monitor.respond state.memory request).2
          activity := Function.update state.activity task
            (.running operation (resume (monitor.respond state.memory request).1)) }
  | exit {state : Shared Access Ans τ ω ι ο} {task : τ} {operation : ι}
      {resume : Unit → Prog (Locked Access) (Locked.Ans Ans) ο}
      (hrunning : state.activity task = .running operation (.call .exit resume)) :
      Step monitor state []
        { state with
          holder := none
          activity := Function.update state.activity task (.running operation (resume ())) }
  | done {state : Shared Access Ans τ ω ι ο} {task : τ} {operation : ι} {answer : ο}
      (hrunning : state.activity task = .running operation (.ret answer)) :
      Step monitor state [.returned task answer]
        { state with activity := Function.update state.activity task .resting }

/-- The histories of the tasks: every interleaving of their steps. -/
inductive Runs (monitor : Monitor Access Ans ω ι ο) (before : Shared Access Ans τ ω ι ο) :
    List (Mark τ ι ο) → Shared Access Ans τ ω ι ο → Prop
  | refl : Runs monitor before [] before
  | tail {history seen : List (Mark τ ι ο)} {middle after : Shared Access Ans τ ω ι ο}
      (hruns : Runs monitor before history middle) (hstep : monitor.Step middle seen after) :
      Runs monitor before (history ++ seen) after

end Steps

/-! ### The invariant -/

/-- A task outside the critical section does what it stands for: it rests, waits for the lock, or
is about to return its answer. -/
def Agrees (monitor : Monitor Access Ans ω ι ο) : Standing ι ο → Activity Access Ans ι ο → Prop
  | .resting, activity => activity = .resting
  | .pending operation, activity => activity = .running operation (guarded (monitor.body operation))
  | .answered answer, activity => ∃ operation, activity = .running operation (.ret answer)

/-- The marks of a run so far. The operation in the critical section is marked as having taken
effect, and the memory represents that only when the rest of it has been run. -/
structure Marked (monitor : Monitor Access Ans ω ι ο) (machine : Machine ι ο σ) (start : σ)
    (represents : ω → σ → Prop) (history marks : List (Mark τ ι ο))
    (state : Shared Access Ans τ ω ι ο) : Prop where
  linearizes : Linearizes machine start history marks
  outside : ∀ task, state.holder ≠ some task →
    ∃ standing, Follows task marks standing ∧ monitor.Agrees standing (state.activity task)
  inside : ∀ task, state.holder = some task → ∃ operation rest,
    state.activity task = .running operation (leaving rest) ∧
      Follows task marks (.answered (rest.runOn monitor.respond state.memory).1) ∧
      represents (rest.runOn monitor.respond state.memory).2 (stateAfter machine start marks)
  free : state.holder = none → represents state.memory (stateAfter machine start marks)

section Invariant

variable {monitor : Monitor Access Ans ω ι ο} {machine : Machine ι ο σ} {start : σ}
  {represents : ω → σ → Prop} {history marks : List (Mark τ ι ο)}
  {state : Shared Access Ans τ ω ι ο}

/-- A task that does not hold the lock is not in the middle of the critical section. -/
theorem holder_of_inside (hmarked : monitor.Marked machine start represents history marks state)
    {task : τ} {operation : ι} {request : Locked Access}
    {resume : Locked.Ans Ans request → Prog (Locked Access) (Locked.Ans Ans) ο}
    (hrunning : state.activity task = .running operation (.call request resume))
    (hrequest : request ≠ .enter) : state.holder = some task := by
  by_contra hholder
  obtain ⟨standing, -, hagrees⟩ := hmarked.outside task hholder
  cases standing with
  | resting =>
    rw [Agrees, hrunning] at hagrees
    cases hagrees
  | pending operation =>
    rw [Agrees, hrunning] at hagrees
    cases hagrees
    exact hrequest rfl
  | answered answer =>
    obtain ⟨_, hactivity⟩ := hagrees
    rw [hrunning] at hactivity
    cases hactivity

/-- A task that is not in the middle of the critical section does not hold the lock. -/
theorem holder_ne_of_outside
    (hmarked : monitor.Marked machine start represents history marks state) {task : τ}
    (houtside : ∀ operation rest, state.activity task ≠ .running operation (leaving rest)) :
    state.holder ≠ some task := by
  intro hholder
  obtain ⟨operation, rest, hactivity, -⟩ := hmarked.inside task hholder
  exact houtside operation rest hactivity

/-- One more mark adds its effect to the machine's answers. -/
theorem linearizes_concat_effect (hlinearizes : Linearizes machine start history marks) {task : τ}
    {operation : ι} (hfollows : Follows task marks (.pending operation)) :
    Linearizes machine start history (marks ++
      [.effect task operation (machine.step (stateAfter machine start marks) operation).2]) where
  visible := by
    rw [List.filter_append, hlinearizes.visible]
    exact List.append_nil history
  turns other := by
    obtain ⟨standing, hother⟩ := hlinearizes.turns other
    by_cases hne : task = other
    · subst hne
      exact ⟨_, .own hfollows rfl .effect⟩
    · exact ⟨standing, .other hother hne⟩
  answers := by
    rw [effects_concat_effect, List.map_append, List.map_append, List.map_singleton,
      List.map_singleton, Machine.reports_concat, hlinearizes.answers]
    rfl

/-- A call or a return changes nothing about the effects. -/
theorem linearizes_concat_visible (hlinearizes : Linearizes machine start history marks)
    {mark : Mark τ ι ο} (hvisible : mark.visible = true) {standing next : Standing ι ο}
    (hfollows : Follows mark.task marks standing) (hnext : standing.Next mark next) :
    Linearizes machine start (history ++ [mark]) (marks ++ [mark]) where
  visible := by
    rw [List.filter_append, hlinearizes.visible, List.filter_singleton, hvisible]
    rfl
  turns other := by
    obtain ⟨standing', hother⟩ := hlinearizes.turns other
    by_cases hne : mark.task = other
    · subst hne
      exact ⟨_, .own hfollows rfl hnext⟩
    · exact ⟨standing', .other hother hne⟩
  answers := by
    have heffects : effects (marks ++ [mark]) = effects marks := by
      cases mark with
      | called task operation => exact effects_concat_called marks task operation
      | effect task operation answer => cases hvisible
      | returned task answer => exact effects_concat_returned marks task answer
    rw [heffects, hlinearizes.answers]

theorem agrees_update_of_ne [DecidableEq τ] {task other : τ} (hne : other ≠ task)
    {standing : Standing ι ο} (hagrees : monitor.Agrees standing (state.activity other))
    (activity : Activity Access Ans ι ο) :
    monitor.Agrees standing (Function.update state.activity task activity other) := by
  rwa [Function.update_of_ne hne]

/-- The other tasks outside the critical section do not notice a mark of one task. -/
theorem outside_other [DecidableEq τ]
    (hmarked : monitor.Marked machine start represents history marks state) {task other : τ}
    (hne : other ≠ task) (hholder : state.holder ≠ some other) {mark : Mark τ ι ο}
    (hmark : mark.task = task) (activity : Activity Access Ans ι ο) :
    ∃ standing, Follows other (marks ++ [mark]) standing ∧
      monitor.Agrees standing (Function.update state.activity task activity other) := by
  obtain ⟨standing, hfollows, hagrees⟩ := hmarked.outside other hholder
  exact ⟨standing, .other hfollows (hmark ▸ hne.symm), agrees_update_of_ne hne hagrees activity⟩

end Invariant

section Runs

variable [DecidableEq τ] {monitor : Monitor Access Ans ω ι ο} {machine : Machine ι ο σ} {start : σ}
  {represents : ω → σ → Prop} {history marks : List (Mark τ ι ο)}
  {state : Shared Access Ans τ ω ι ο}

theorem marked_call (hmarked : monitor.Marked machine start represents history marks state)
    {task : τ} (operation : ι) (hresting : state.activity task = .resting) :
    monitor.Marked machine start represents (history ++ [.called task operation])
      (marks ++ [.called task operation])
      { state with
        activity := Function.update state.activity task
          (.running operation (guarded (monitor.body operation))) } := by
  have hholder : state.holder ≠ some task :=
    holder_ne_of_outside hmarked fun _ _ hrunning ↦ by rw [hresting] at hrunning; cases hrunning
  have hfollows : Follows task marks .resting := by
    obtain ⟨standing, hfollows, hagrees⟩ := hmarked.outside task hholder
    cases standing with
    | resting => exact hfollows
    | pending operation =>
      rw [Agrees, hresting] at hagrees
      cases hagrees
    | answered answer =>
      obtain ⟨_, hactivity⟩ := hagrees
      rw [hresting] at hactivity
      cases hactivity
  have hnext : Standing.Next .resting (.called task operation : Mark τ ι ο) (.pending operation) :=
    .call
  refine ⟨linearizes_concat_visible hmarked.linearizes rfl hfollows hnext, ?_, ?_, ?_⟩
  · intro other hother
    by_cases hne : other = task
    · subst hne
      exact ⟨_, .own hfollows rfl hnext, Function.update_self _ _ _⟩
    · exact outside_other hmarked hne hother rfl _
  · intro other hother
    have hne : other ≠ task := fun heq ↦ hholder (heq ▸ hother)
    obtain ⟨operation', rest, hactivity, hmarks, hrepresents⟩ := hmarked.inside other hother
    refine ⟨operation', rest, ?_, .other hmarks hne.symm, ?_⟩
    · exact (Function.update_of_ne hne _ _).trans hactivity
    · rwa [stateAfter, effects_concat_called]
  · intro hfree
    rw [stateAfter, effects_concat_called]
    exact hmarked.free hfree

/-- An operation takes effect when it takes the lock: nothing else touches the memory before it
gives the lock back. -/
theorem marked_enter (himplements : monitor.Implements machine represents)
    (hmarked : monitor.Marked machine start represents history marks state) {task : τ}
    {operation : ι} {resume : Unit → Prog (Locked Access) (Locked.Ans Ans) ο}
    (hrunning : state.activity task = .running operation (.call .enter resume))
    (hfree : state.holder = none) :
    monitor.Marked machine start represents history (marks ++
        [.effect task operation (machine.step (stateAfter machine start marks) operation).2])
      { state with
        holder := some task
        activity := Function.update state.activity task (.running operation (resume ())) } := by
  obtain ⟨hfollows, hresume⟩ :
      Follows task marks (.pending operation) ∧ resume () = leaving (monitor.body operation) := by
    obtain ⟨standing, hfollows, hagrees⟩ := hmarked.outside task (by rw [hfree]; simp)
    cases standing with
    | resting =>
      rw [Agrees, hrunning] at hagrees
      cases hagrees
    | pending operation =>
      rw [Agrees, hrunning] at hagrees
      cases hagrees
      exact ⟨hfollows, rfl⟩
    | answered answer =>
      obtain ⟨_, hactivity⟩ := hagrees
      rw [hrunning] at hactivity
      cases hactivity
  obtain ⟨hanswer, hstate⟩ := himplements operation _ _ (hmarked.free hfree)
  refine ⟨linearizes_concat_effect hmarked.linearizes hfollows, ?_, ?_, ?_⟩
  · intro other hother
    have hne : other ≠ task := fun heq ↦ hother (by rw [heq])
    exact outside_other hmarked hne (by rw [hfree]; simp) rfl _
  · intro other hother
    obtain rfl : task = other := Option.some.inj hother
    refine ⟨operation, monitor.body operation, ?_, ?_, ?_⟩
    · exact (Function.update_self _ _ _).trans (by rw [hresume])
    · rw [hanswer]
      exact .own hfollows rfl .effect
    · rw [stateAfter, effects_concat_effect, List.map_append, List.map_singleton,
        Machine.final_concat]
      exact hstate
  · intro hheld
    cases hheld

theorem marked_access (hmarked : monitor.Marked machine start represents history marks state)
    {task : τ} {operation : ι} {request : Access}
    {resume : Ans request → Prog (Locked Access) (Locked.Ans Ans) ο}
    (hrunning : state.activity task = .running operation (.call (.access request) resume)) :
    monitor.Marked machine start represents history marks
      { state with
        memory := (monitor.respond state.memory request).2
        activity := Function.update state.activity task
          (.running operation (resume (monitor.respond state.memory request).1)) } := by
  have hholder : state.holder = some task := holder_of_inside hmarked hrunning (by simp)
  refine ⟨hmarked.linearizes, ?_, ?_, ?_⟩
  · intro other hother
    have hne : other ≠ task := fun heq ↦ hother (by rw [heq]; exact hholder)
    obtain ⟨standing, hfollows, hagrees⟩ := hmarked.outside other hother
    exact ⟨standing, hfollows, agrees_update_of_ne hne hagrees _⟩
  · intro other hother
    obtain rfl : task = other := Option.some.inj (hholder.symm.trans hother)
    obtain ⟨operation', rest, hactivity, hmarks, hrepresents⟩ := hmarked.inside task hother
    rw [hrunning] at hactivity
    cases rest with
    | ret answer => cases hactivity
    | call request' resume' =>
      cases hactivity
      exact ⟨operation, resume' _, Function.update_self _ _ _, hmarks, hrepresents⟩
  · intro hfree
    rw [hholder] at hfree
    cases hfree

theorem marked_exit (hmarked : monitor.Marked machine start represents history marks state)
    {task : τ} {operation : ι} {resume : Unit → Prog (Locked Access) (Locked.Ans Ans) ο}
    (hrunning : state.activity task = .running operation (.call .exit resume)) :
    monitor.Marked machine start represents history marks
      { state with
        holder := none
        activity := Function.update state.activity task (.running operation (resume ())) } := by
  have hholder : state.holder = some task := holder_of_inside hmarked hrunning (by simp)
  obtain ⟨operation', rest, hactivity, hmarks, hrepresents⟩ := hmarked.inside task hholder
  rw [hrunning] at hactivity
  cases rest with
  | call request resume' => cases hactivity
  | ret answer =>
    cases hactivity
    refine ⟨hmarked.linearizes, ?_, fun _ hother ↦ (by cases hother), fun _ ↦ hrepresents⟩
    intro other _
    by_cases hne : other = task
    · subst hne
      exact ⟨.answered answer, hmarks, operation, Function.update_self _ _ _⟩
    · obtain ⟨standing, hfollows, hagrees⟩ := hmarked.outside other fun hother ↦
        hne (Option.some.inj (hother.symm.trans hholder))
      exact ⟨standing, hfollows, agrees_update_of_ne hne hagrees _⟩

theorem marked_done (hmarked : monitor.Marked machine start represents history marks state)
    {task : τ} {operation : ι} {answer : ο}
    (hrunning : state.activity task = .running operation (.ret answer)) :
    monitor.Marked machine start represents (history ++ [.returned task answer])
      (marks ++ [.returned task answer])
      { state with activity := Function.update state.activity task .resting } := by
  have hholder : state.holder ≠ some task := holder_ne_of_outside hmarked fun _ rest heq ↦ by
    rw [hrunning] at heq
    cases rest <;> cases heq
  have hfollows : Follows task marks (.answered answer) := by
    obtain ⟨standing, hfollows, hagrees⟩ := hmarked.outside task hholder
    cases standing with
    | resting =>
      rw [Agrees, hrunning] at hagrees
      cases hagrees
    | pending operation =>
      rw [Agrees, hrunning] at hagrees
      cases hagrees
    | answered answer =>
      obtain ⟨_, hactivity⟩ := hagrees
      rw [hrunning] at hactivity
      cases hactivity
      exact hfollows
  have hnext : Standing.Next (.answered answer) (.returned task answer : Mark τ ι ο) .resting :=
    .done
  refine ⟨linearizes_concat_visible hmarked.linearizes rfl hfollows hnext, ?_, ?_, ?_⟩
  · intro other hother
    by_cases hne : other = task
    · subst hne
      exact ⟨_, .own hfollows rfl hnext, Function.update_self _ _ _⟩
    · exact outside_other hmarked hne hother rfl _
  · intro other hother
    have hne : other ≠ task := fun heq ↦ hholder (heq ▸ hother)
    obtain ⟨operation', rest, hactivity, hmarks, hrepresents⟩ := hmarked.inside other hother
    refine ⟨operation', rest, ?_, .other hmarks hne.symm, ?_⟩
    · exact (Function.update_of_ne hne _ _).trans hactivity
    · rwa [stateAfter, effects_concat_returned]
  · intro hfree
    rw [stateAfter, effects_concat_returned]
    exact hmarked.free hfree

/-- One step of any task extends the marks. -/
theorem marked_step (himplements : monitor.Implements machine represents)
    {seen : List (Mark τ ι ο)} {after : Shared Access Ans τ ω ι ο}
    (hmarked : monitor.Marked machine start represents history marks state)
    (hstep : monitor.Step state seen after) :
    ∃ marks', monitor.Marked machine start represents (history ++ seen) marks' after := by
  cases hstep with
  | call operation hresting => exact ⟨_, marked_call hmarked operation hresting⟩
  | enter hrunning hfree =>
    rw [List.append_nil]
    exact ⟨_, marked_enter himplements hmarked hrunning hfree⟩
  | access hrunning =>
    rw [List.append_nil]
    exact ⟨marks, marked_access hmarked hrunning⟩
  | exit hrunning =>
    rw [List.append_nil]
    exact ⟨marks, marked_exit hmarked hrunning⟩
  | done hrunning => exact ⟨_, marked_done hmarked hrunning⟩

/-- Every interleaving has its marks. -/
theorem marked_of_runs (himplements : monitor.Implements machine represents) {memory : ω}
    (hstart : represents memory start) {after : Shared Access Ans τ ω ι ο}
    (hruns : monitor.Runs (Shared.quiet memory) history after) :
    ∃ marks, monitor.Marked machine start represents history marks after := by
  induction hruns with
  | refl =>
    exact ⟨[], ⟨rfl, fun _ ↦ ⟨.resting, .nil⟩, rfl⟩, fun _ _ ↦ ⟨.resting, .nil, rfl⟩,
      fun _ hholder ↦ (by cases hholder), fun _ ↦ hstart⟩
  | tail _ hstep ih =>
    obtain ⟨marks, hmarked⟩ := ih
    exact marked_step himplements hmarked hstep

/-- **Linearizability.** In every interleaving the calls and returns are those of operations that
take effect at once, and whenever the lock is free the memory represents what the effects so far
made of the start. -/
theorem linearizable (himplements : monitor.Implements machine represents) {memory : ω}
    (hstart : represents memory start) {after : Shared Access Ans τ ω ι ο}
    (hruns : monitor.Runs (Shared.quiet memory) history after) :
    ∃ marks, Linearizes machine start history marks ∧
      (after.holder = none → represents after.memory (stateAfter machine start marks)) := by
  obtain ⟨marks, hmarked⟩ := marked_of_runs himplements hstart hruns
  exact ⟨marks, hmarked.linearizes, hmarked.free⟩

/-- **Mutual exclusion.** A task about to access the memory holds the lock. -/
theorem exclusive (himplements : monitor.Implements machine represents) {memory : ω}
    (hstart : represents memory start) {after : Shared Access Ans τ ω ι ο}
    (hruns : monitor.Runs (Shared.quiet memory) history after) {task : τ} {operation : ι}
    {request : Access} {resume : Ans request → Prog (Locked Access) (Locked.Ans Ans) ο}
    (hrunning : after.activity task = .running operation (.call (.access request) resume)) :
    after.holder = some task := by
  obtain ⟨marks, hmarked⟩ := marked_of_runs himplements hstart hruns
  exact holder_of_inside hmarked hrunning (by simp)

/-- **No deadlock.** While a task has an operation, some task can go on with one. -/
theorem progress (himplements : monitor.Implements machine represents) {memory : ω}
    (hstart : represents memory start) {after : Shared Access Ans τ ω ι ο}
    (hruns : monitor.Runs (Shared.quiet memory) history after) {task : τ}
    (hbusy : after.activity task ≠ .resting) :
    ∃ worker seen next, after.activity worker ≠ .resting ∧ monitor.Step after seen next ∧
      ∀ other, other ≠ worker → next.activity other = after.activity other := by
  obtain ⟨marks, hmarked⟩ := marked_of_runs himplements hstart hruns
  have hothers (worker : τ) (activity : Activity Access Ans ι ο) (other : τ)
      (hne : other ≠ worker) :
      Function.update after.activity worker activity other = after.activity other :=
    Function.update_of_ne hne _ _
  cases hholder : after.holder with
  | some worker =>
    obtain ⟨operation, rest, hactivity, -⟩ := hmarked.inside worker hholder
    have hworker : after.activity worker ≠ .resting := by rw [hactivity]; simp
    cases rest with
    | ret answer => exact ⟨worker, _, _, hworker, .exit hactivity, hothers worker _⟩
    | call request resume => exact ⟨worker, _, _, hworker, .access hactivity, hothers worker _⟩
  | none =>
    obtain ⟨standing, -, hagrees⟩ := hmarked.outside task (by rw [hholder]; simp)
    cases standing with
    | resting => exact absurd hagrees hbusy
    | pending operation => exact ⟨task, _, _, hbusy, .enter hagrees hholder, hothers task _⟩
    | answered answer =>
      obtain ⟨operation, hactivity⟩ := hagrees
      exact ⟨task, _, _, hbusy, .done hactivity, hothers task _⟩

end Runs

end Monitor

/-! ### Without the lock -/

namespace Prog

variable {Call : Type} {α W : Type} {Ans : Call → Type}

/-- A program preempted once, behind a number of its requests: what preempts it runs to its end
before the program goes on. -/
def runPreempted (respond : W → (request : Call) → Ans request × W) (preempt : W → W) :
    Prog Call Ans α → ℕ → W → α × W
  | program, 0, world => program.runOn respond (preempt world)
  | ret value, _ + 1, world => (value, preempt world)
  | call request resume, place + 1, world =>
    (resume (respond world request).1).runPreempted respond preempt place (respond world request).2

end Prog

end LibreSwitch.Library
