import Mathlib.Algebra.GroupWithZero.Nat
import Mathlib.Data.Nat.Notation
import Mathlib.Logic.Equiv.Defs
import Mathlib.Logic.Relation

/-!
# Interactive programs and their weakest preconditions

A program that talks to collaborators it does not control (a radio, a flash store, a broker, a
queue shared with another task) is a tree: it has finished with a value, or it makes a request and
resumes with the answer. `Prog` is that tree. It says nothing about what the collaborators do, so
one program serves every environment.

Three readings of a program are used. `Runs` is its traces: a list of events, each a request with
an answer the collaborators were free to choose, and the value returned. `AsksOnly` bounds the
requests that any trace can have, and `Spends` what they cost together. `runOn` runs it against
collaborators given by a function. `Setting` is the general case: collaborators sharing a world
with other tasks. An answer moves the world, and between two requests the other tasks may move it
too. `Steps` is the small-step relation of a program in a setting, and `wp` the weakest
precondition for a guard on every request made and a postcondition on the value returned, stable
under interference. `wp_step` and `wp_guard` connect the two; `wp_bind`, `wp_mono`,
`wp_call_of_stable` and `wp_ret_of_stable` are the rules that proofs use, and `wp_embed` takes what
was shown of a part of an interface to the whole. A precondition whose requests can be answered is
not vacuous (`exists_of_wp`).

`Component` is an object whose operations are programs: it rests in a state, starts an operation,
runs it while the world is interfered with, and rests again. `Component.invariant_rule` is the
induction over all its runs: an invariant of the resting states that interference keeps and every
operation restores holds at rest in every run, and the guard holds at every request.
`Component.life_rule` is the rule for a component that may lose power at any moment: what the guard
says of the world at every request is then all that the next boot can rely on.
-/

set_option autoImplicit false
set_option relaxedAutoImplicit false

namespace LibreSwitch.Library

/-! ### Programs -/

/-- A program over the requests `Call`, where a request `c` is answered by an `Ans c`. -/
inductive Prog (Call : Type) (Ans : Call → Type) (α : Type) : Type
  | ret (value : α)
  | call (request : Call) (resume : Ans request → Prog Call Ans α)

namespace Prog

variable {Call : Type} {Ans : Call → Type} {α β : Type}

/-- Runs a program and continues with a program of its value. -/
def bind : Prog Call Ans α → (α → Prog Call Ans β) → Prog Call Ans β
  | ret value, next => next value
  | call request resume, next => call request fun answer ↦ (resume answer).bind next

/-- The program that makes one request and returns its answer. -/
def ask (request : Call) : Prog Call Ans (Ans request) :=
  call request ret

instance : Monad (Prog Call Ans) where
  pure := ret
  bind := bind

@[simp] theorem pure_eq (value : α) : (pure value : Prog Call Ans α) = ret value := rfl

@[simp] theorem ret_bind (value : α) (next : α → Prog Call Ans β) :
    (ret value >>= next) = next value := rfl

@[simp] theorem call_bind (request : Call) (resume : Ans request → Prog Call Ans α)
    (next : α → Prog Call Ans β) :
    (call request resume >>= next) = call request fun answer ↦ resume answer >>= next := rfl

@[simp] theorem ask_bind (request : Call) (next : Ans request → Prog Call Ans β) :
    (ask request >>= next) = call request next := rfl

/-- Nothing follows. -/
theorem bind_ret (program : Prog Call Ans α) : (program >>= ret) = program := by
  induction program with
  | ret value => rfl
  | call request resume ih => exact congrArg (call request) (funext ih)

/-- How a sequence of three is bracketed makes no difference. -/
theorem bind_assoc {γ : Type} (program : Prog Call Ans α) (next : α → Prog Call Ans β)
    (last : β → Prog Call Ans γ) :
    (program >>= next >>= last) = program >>= fun value ↦ next value >>= last := by
  induction program with
  | ret value => rfl
  | call request resume ih => exact congrArg (call request) (funext ih)

/-! ### Traces -/

/-- A request that was made and the answer it got. -/
structure Event (Call : Type) (Ans : Call → Type) where
  request : Call
  answer : Ans request

/-- The program can make the requests of the trace, get its answers, and return the value. -/
def Runs : Prog Call Ans α → List (Event Call Ans) → α → Prop
  | ret value, trace, result => trace = [] ∧ result = value
  | call request resume, trace, result =>
    ∃ answer rest, trace = ⟨request, answer⟩ :: rest ∧ (resume answer).Runs rest result

@[simp] theorem runs_ret {value result : α} {trace : List (Event Call Ans)} :
    (ret value : Prog Call Ans α).Runs trace result ↔ trace = [] ∧ result = value := Iff.rfl

@[simp] theorem runs_call {request : Call} {resume : Ans request → Prog Call Ans α}
    {trace : List (Event Call Ans)} {result : α} :
    (call request resume).Runs trace result ↔
      ∃ answer rest, trace = ⟨request, answer⟩ :: rest ∧ (resume answer).Runs rest result := Iff.rfl

/-- A run of a sequence is a run of its first part followed by a run of its second part. -/
theorem runs_bind {program : Prog Call Ans α} {next : α → Prog Call Ans β}
    {trace : List (Event Call Ans)} {result : β} :
    (program >>= next).Runs trace result ↔
      ∃ value first second, trace = first ++ second ∧ program.Runs first value ∧
        (next value).Runs second result := by
  induction program generalizing trace with
  | ret value =>
    constructor
    · intro hrun
      exact ⟨value, [], trace, rfl, ⟨rfl, rfl⟩, hrun⟩
    · rintro ⟨_, _, second, rfl, ⟨rfl, rfl⟩, hrun⟩
      exact hrun
  | call request resume ih =>
    simp only [call_bind, runs_call, ih]
    constructor
    · rintro ⟨answer, rest, rfl, value, first, second, rfl, hfirst, hsecond⟩
      exact ⟨value, ⟨request, answer⟩ :: first, second, rfl, ⟨answer, first, rfl, hfirst⟩, hsecond⟩
    · rintro ⟨value, _, second, rfl, ⟨answer, first, rfl, hfirst⟩, hsecond⟩
      exact ⟨answer, first ++ second, rfl, value, first, second, rfl, hfirst, hsecond⟩

/-! ### What a program can ask -/

/-- Every request the program can make satisfies the predicate. -/
def AsksOnly (allowed : Call → Prop) : Prog Call Ans α → Prop
  | ret _ => True
  | call request resume => allowed request ∧ ∀ answer, (resume answer).AsksOnly allowed

section AsksOnly

variable {allowed : Call → Prop}

@[simp] theorem asksOnly_ret (value : α) : (ret value : Prog Call Ans α).AsksOnly allowed := trivial

@[simp] theorem asksOnly_call {request : Call} {resume : Ans request → Prog Call Ans α} :
    (call request resume).AsksOnly allowed ↔
      allowed request ∧ ∀ answer, (resume answer).AsksOnly allowed := Iff.rfl

theorem asksOnly_ask_bind {request : Call} {next : Ans request → Prog Call Ans β} :
    (ask request >>= next).AsksOnly allowed ↔
      allowed request ∧ ∀ answer, (next answer).AsksOnly allowed := Iff.rfl

theorem asksOnly_bind {program : Prog Call Ans α} {next : α → Prog Call Ans β}
    (hprogram : program.AsksOnly allowed) (hnext : ∀ value, (next value).AsksOnly allowed) :
    (program >>= next).AsksOnly allowed := by
  induction program with
  | ret value => exact hnext value
  | call request resume ih => exact ⟨hprogram.1, fun answer ↦ ih answer (hprogram.2 answer)⟩

theorem AsksOnly.mono {allowed' : Call → Prop} {program : Prog Call Ans α}
    (hprogram : program.AsksOnly allowed) (hle : ∀ request, allowed request → allowed' request) :
    program.AsksOnly allowed' := by
  induction program with
  | ret value => trivial
  | call request resume ih =>
    exact ⟨hle request hprogram.1, fun answer ↦ ih answer (hprogram.2 answer)⟩

theorem asksOnly_of_forall (hall : ∀ request, allowed request) (program : Prog Call Ans α) :
    program.AsksOnly allowed := by
  induction program with
  | ret value => trivial
  | call request resume ih => exact ⟨hall request, ih⟩

/-- The requests of a run are among those the program can make. -/
theorem AsksOnly.of_runs {program : Prog Call Ans α} (hprogram : program.AsksOnly allowed)
    {trace : List (Event Call Ans)} {result : α} (hruns : program.Runs trace result) :
    ∀ event ∈ trace, allowed event.request := by
  induction program generalizing trace with
  | ret value =>
    obtain ⟨rfl, -⟩ := hruns
    intro event hevent
    exact absurd hevent List.not_mem_nil
  | call request resume ih =>
    obtain ⟨answer, rest, rfl, hrest⟩ := hruns
    intro event hevent
    rcases List.mem_cons.mp hevent with rfl | hlater
    · exact hprogram.1
    · exact ih answer (hprogram.2 answer) hrest event hlater

end AsksOnly

/-! ### What a program can spend -/

/-- However its requests are answered, and even if it does not come to its end, the program spends
no more than a budget. With a cost of 1 for each request that bounds its runs. -/
def Spends (cost : Call → ℕ) : Prog Call Ans α → ℕ → Prop
  | ret _, _ => True
  | call request resume, budget =>
    cost request ≤ budget ∧ ∀ answer, (resume answer).Spends cost (budget - cost request)

section Spends

variable {cost : Call → ℕ} {budget budget' : ℕ}

@[simp] theorem spends_ret (value : α) : (ret value : Prog Call Ans α).Spends cost budget := trivial

@[simp] theorem spends_call {request : Call} {resume : Ans request → Prog Call Ans α} :
    (call request resume).Spends cost budget ↔
      cost request ≤ budget ∧ ∀ answer, (resume answer).Spends cost (budget - cost request) :=
  Iff.rfl

theorem Spends.mono {program : Prog Call Ans α} (hspends : program.Spends cost budget)
    (hle : budget ≤ budget') : program.Spends cost budget' := by
  induction program generalizing budget budget' with
  | ret value => trivial
  | call request resume ih =>
    exact ⟨Nat.le_trans hspends.1 hle, fun answer ↦
      ih answer (hspends.2 answer) (Nat.sub_le_sub_right hle _)⟩

/-- A request and what follows it. -/
theorem spends_call_add {request : Call} {resume : Ans request → Prog Call Ans α} {rest : ℕ}
    (hrequest : cost request ≤ budget) (hresume : ∀ answer, (resume answer).Spends cost rest) :
    (call request resume).Spends cost (budget + rest) :=
  ⟨Nat.le_trans hrequest (Nat.le_add_right _ _), fun answer ↦ (hresume answer).mono (by omega)⟩

theorem spends_bind {program : Prog Call Ans α} {next : α → Prog Call Ans β}
    (hprogram : program.Spends cost budget) (hnext : ∀ value, (next value).Spends cost budget') :
    (program >>= next).Spends cost (budget + budget') := by
  induction program generalizing budget with
  | ret value => exact (hnext value).mono (Nat.le_add_left _ _)
  | call request resume ih =>
    obtain ⟨hcost, hresume⟩ := hprogram
    refine ⟨Nat.le_trans hcost (Nat.le_add_right _ _), fun answer ↦ ?_⟩
    exact (ih answer (hresume answer)).mono (by omega)

/-- A program that spends nothing asks only for what is free. -/
theorem Spends.asksOnly {program : Prog Call Ans α} (hspends : program.Spends cost 0) :
    program.AsksOnly fun request ↦ cost request = 0 := by
  induction program with
  | ret value => trivial
  | call request resume ih =>
    refine ⟨Nat.le_zero.mp hspends.1, fun answer ↦ ih answer ?_⟩
    exact (hspends.2 answer).mono (Nat.sub_le _ _)

/-- What a run has spent. -/
theorem Spends.of_runs {program : Prog Call Ans α} (hspends : program.Spends cost budget)
    {trace : List (Event Call Ans)} {result : α} (hruns : program.Runs trace result) :
    (trace.map fun event ↦ cost event.request).sum ≤ budget := by
  induction program generalizing trace budget with
  | ret value =>
    obtain ⟨rfl, -⟩ := hruns
    exact Nat.zero_le _
  | call request resume ih =>
    obtain ⟨answer, rest, rfl, hrest⟩ := hruns
    have hlater := ih answer (hspends.2 answer) hrest
    have hnow : cost request ≤ budget := hspends.1
    calc cost request + (rest.map fun event ↦ cost event.request).sum
        ≤ cost request + (budget - cost request) := Nat.add_le_add_left hlater _
      _ = budget := by omega

end Spends

/-! ### Running against given collaborators -/

/-- Runs a program against collaborators given by a function of their state. -/
def runOn {W : Type} (respond : W → (request : Call) → Ans request × W) :
    Prog Call Ans α → W → α × W
  | ret value, world => (value, world)
  | call request resume, world =>
    (resume (respond world request).1).runOn respond (respond world request).2

section RunOn

variable {W : Type} {respond : W → (request : Call) → Ans request × W}

@[simp] theorem runOn_ret (value : α) (world : W) :
    (ret value : Prog Call Ans α).runOn respond world = (value, world) := rfl

@[simp] theorem runOn_call (request : Call) (resume : Ans request → Prog Call Ans α) (world : W) :
    (call request resume).runOn respond world =
      (resume (respond world request).1).runOn respond (respond world request).2 := rfl

theorem runOn_bind (program : Prog Call Ans α) (next : α → Prog Call Ans β) (world : W) :
    (program >>= next).runOn respond world =
      (next (program.runOn respond world).1).runOn respond (program.runOn respond world).2 := by
  induction program generalizing world with
  | ret value => rfl
  | call request resume ih => exact ih _ _

/-- One request of a run: the world it was made in and the world the answer left. -/
structure Moment (Call W : Type) where
  before : W
  request : Call
  after : W

/-- The requests of a run against given collaborators, in order. -/
def history (respond : W → (request : Call) → Ans request × W) :
    Prog Call Ans α → W → List (Moment Call W)
  | ret _, _ => []
  | call request resume, world =>
    ⟨world, request, (respond world request).2⟩ ::
      (resume (respond world request).1).history respond (respond world request).2

@[simp] theorem history_ret (value : α) (world : W) :
    (ret value : Prog Call Ans α).history respond world = [] := rfl

@[simp] theorem history_call (request : Call) (resume : Ans request → Prog Call Ans α)
    (world : W) : (call request resume).history respond world =
      ⟨world, request, (respond world request).2⟩ ::
        (resume (respond world request).1).history respond (respond world request).2 := rfl

theorem history_bind (program : Prog Call Ans α) (next : α → Prog Call Ans β) (world : W) :
    (program >>= next).history respond world = program.history respond world ++
      (next (program.runOn respond world).1).history respond (program.runOn respond world).2 := by
  induction program generalizing world with
  | ret value => rfl
  | call request resume ih =>
    rw [call_bind, history_call, history_call, ih, List.cons_append]
    rfl

/-- What every answer preserves holds throughout a run and after it, and each moment of the run
is an answer in a world where it holds. -/
theorem history_induction {motive : W → Prop}
    (hstep : ∀ world request, motive world → motive (respond world request).2)
    (program : Prog Call Ans α) {world : W} (hworld : motive world) :
    motive (program.runOn respond world).2 ∧
      ∀ moment ∈ program.history respond world,
        motive moment.before ∧ moment.after = (respond moment.before moment.request).2 := by
  induction program generalizing world with
  | ret value => exact ⟨hworld, by simp⟩
  | call request resume ih =>
    obtain ⟨hlast, hrest⟩ := ih _ (hstep world request hworld)
    refine ⟨hlast, fun moment hmoment ↦ ?_⟩
    rcases List.mem_cons.mp hmoment with rfl | hlater
    · exact ⟨hworld, rfl⟩
    · exact hrest moment hlater

end RunOn

/-- Runs a program against collaborators that may give no answer: the trace and the value, if the
program came to its end. -/
def play {W : Type} (respond : W → (request : Call) → Option (Ans request × W)) :
    Prog Call Ans α → W → Option (List (Event Call Ans) × α)
  | ret value, _ => some ([], value)
  | call request resume, world =>
    match respond world request with
    | none => none
    | some (answer, world') =>
      ((resume answer).play respond world').map fun played ↦
        (⟨request, answer⟩ :: played.1, played.2)

theorem runs_of_play {W : Type} {respond : W → (request : Call) → Option (Ans request × W)}
    {program : Prog Call Ans α} {world : W} {trace : List (Event Call Ans)} {result : α}
    (hplay : program.play respond world = some (trace, result)) : program.Runs trace result := by
  induction program generalizing world trace with
  | ret value =>
    simp only [play, Option.some.injEq, Prod.mk.injEq] at hplay
    exact ⟨hplay.1.symm, hplay.2.symm⟩
  | call request resume ih =>
    unfold play at hplay
    cases hrespond : respond world request with
    | none =>
      rw [hrespond] at hplay
      cases hplay
    | some reply =>
      rw [hrespond] at hplay
      obtain ⟨played, hrest, heq⟩ := Option.map_eq_some_iff.mp hplay
      obtain ⟨rfl, rfl⟩ := Prod.mk.inj heq
      exact ⟨reply.1, played.1, rfl, ih reply.1 hrest⟩

/-- What a program did when it came to its end is one of its runs. -/
theorem runs_play {W : Type} {respond : W → (request : Call) → Option (Ans request × W)}
    {program : Prog Call Ans α} {world : W} (hends : (program.play respond world).isSome) :
    program.Runs ((program.play respond world).get hends).1
      ((program.play respond world).get hends).2 :=
  runs_of_play (Option.some_get hends).symm

/-- Runs a program against collaborators that may give no answer: the value and the last world, if
the program came to its end. -/
def tryRunOn {W : Type} (respond : W → (request : Call) → Option (Ans request × W)) :
    Prog Call Ans α → W → Option (α × W)
  | ret value, world => some (value, world)
  | call request resume, world =>
    match respond world request with
    | none => none
    | some (answer, world') => (resume answer).tryRunOn respond world'

/-- What is left of a program when a collaborator gives no answer, or when it is done. -/
def runUntil {W : Type} (respond : W → (request : Call) → Option (Ans request × W)) :
    Prog Call Ans α → W → Prog Call Ans α × W
  | ret value, world => (ret value, world)
  | call request resume, world =>
    match respond world request with
    | none => (call request resume, world)
    | some (answer, world') => (resume answer).runUntil respond world'

/-- The request that is pending. -/
def pending : Prog Call Ans α → Option Call
  | ret _ => none
  | call request _ => some request

theorem exists_of_pending {program : Prog Call Ans α} {request : Call}
    (hpending : program.pending = some request) : ∃ resume, program = call request resume := by
  cases program with
  | ret value => cases hpending
  | call asked resume =>
    obtain rfl := Option.some.inj hpending
    exact ⟨resume, rfl⟩

/-! ### Programs over a part of an interface -/

section Embed

variable {Call' : Type} {Ans' : Call' → Type}

/-- The program over a larger interface. -/
def embed (inj : Call → Call') (ans : ∀ request, Ans request ≃ Ans' (inj request)) :
    Prog Call Ans α → Prog Call' Ans' α
  | ret value => ret value
  | call request resume =>
    call (inj request) fun answer ↦ (resume ((ans request).symm answer)).embed inj ans

variable {inj : Call → Call'} {ans : ∀ request, Ans request ≃ Ans' (inj request)}

@[simp] theorem embed_ret (value : α) :
    (ret value : Prog Call Ans α).embed inj ans = ret value := rfl

@[simp] theorem embed_call (request : Call) (resume : Ans request → Prog Call Ans α) :
    (call request resume).embed inj ans =
      call (inj request) fun answer ↦ (resume ((ans request).symm answer)).embed inj ans := rfl

theorem embed_bind (program : Prog Call Ans α) (next : α → Prog Call Ans β) :
    (program >>= next).embed inj ans =
      program.embed inj ans >>= fun value ↦ (next value).embed inj ans := by
  induction program with
  | ret value => rfl
  | call request resume ih => exact congrArg (call (inj request)) (funext fun answer ↦ ih _)

/-- An event of a program, as an event over the larger interface. -/
def Event.embed (inj : Call → Call') (ans : ∀ request, Ans request ≃ Ans' (inj request))
    (event : Event Call Ans) : Event Call' Ans' :=
  ⟨inj event.request, ans event.request event.answer⟩

/-- The runs over the larger interface are the runs over the part. -/
theorem runs_embed {program : Prog Call Ans α} {trace : List (Event Call' Ans')} {result : α} :
    (program.embed inj ans).Runs trace result ↔
      ∃ inner, program.Runs inner result ∧ trace = inner.map (Event.embed inj ans) := by
  induction program generalizing trace with
  | ret value =>
    constructor
    · intro hrun
      obtain ⟨rfl, rfl⟩ := hrun
      exact ⟨[], ⟨rfl, rfl⟩, rfl⟩
    · intro hrun
      obtain ⟨inner, ⟨rfl, rfl⟩, rfl⟩ := hrun
      exact ⟨rfl, rfl⟩
  | call request resume ih =>
    rw [embed_call, runs_call]
    simp only [ih, runs_call]
    constructor
    · intro hrun
      obtain ⟨answer, rest, rfl, inner, hinner, rfl⟩ := hrun
      refine ⟨⟨request, (ans request).symm answer⟩ :: inner, ⟨_, inner, rfl, hinner⟩, ?_⟩
      rw [List.map_cons, Event.embed, Equiv.apply_symm_apply]
    · intro hrun
      obtain ⟨-, ⟨answer, inner, rfl, hinner⟩, rfl⟩ := hrun
      refine ⟨ans request answer, inner.map (Event.embed inj ans), rfl, inner, ?_, rfl⟩
      rwa [Equiv.symm_apply_apply]

/-- A projection that undoes the embedding takes the runs over the larger interface back to runs of
the part. -/
theorem runs_part {project : Event Call' Ans' → Option (Event Call Ans)}
    (hproject : ∀ event : Event Call Ans, project (event.embed inj ans) = some event)
    {program : Prog Call Ans α} {trace : List (Event Call' Ans')} {result : α}
    (hruns : (program.embed inj ans).Runs trace result) :
    program.Runs (trace.filterMap project) result := by
  obtain ⟨inner, hinner, rfl⟩ := runs_embed.mp hruns
  have hback : project ∘ Event.embed inj ans = some := funext hproject
  rw [List.filterMap_map, hback, List.filterMap_some]
  exact hinner

/-- A projection on the rest of the interface sees nothing of the part. -/
theorem filterMap_part {γ : Type} {project : Event Call' Ans' → Option γ}
    (hproject : ∀ event : Event Call Ans, project (event.embed inj ans) = none)
    {program : Prog Call Ans α} {trace : List (Event Call' Ans')} {result : α}
    (hruns : (program.embed inj ans).Runs trace result) : trace.filterMap project = [] := by
  obtain ⟨inner, -, rfl⟩ := runs_embed.mp hruns
  rw [List.filterMap_map, List.filterMap_eq_nil_iff]
  exact fun event _ ↦ hproject event

theorem asksOnly_embed {allowed : Call' → Prop} {program : Prog Call Ans α}
    (hprogram : program.AsksOnly fun request ↦ allowed (inj request)) :
    (program.embed inj ans).AsksOnly allowed := by
  induction program with
  | ret value => trivial
  | call request resume ih => exact ⟨hprogram.1, fun answer ↦ ih _ (hprogram.2 _)⟩

theorem spends_embed {cost : Call' → ℕ} {budget : ℕ} {program : Prog Call Ans α}
    (hprogram : program.Spends (fun request ↦ cost (inj request)) budget) :
    (program.embed inj ans).Spends cost budget := by
  induction program generalizing budget with
  | ret value => trivial
  | call request resume ih => exact ⟨hprogram.1, fun answer ↦ ih _ (hprogram.2 _)⟩

end Embed

/-! ### Handling the requests of one interface by programs over another -/

/-- Replaces every request of a program by a program over another interface, which may also read
and change a state of its own. -/
def translate {Call' : Type} {Ans' : Call' → Type} {σ : Type}
    (handle : σ → (request : Call) → Prog Call' Ans' (Ans request × σ)) :
    Prog Call Ans α → σ → Prog Call' Ans' (α × σ)
  | ret value, state => ret (value, state)
  | call request resume, state =>
    handle state request >>= fun reply ↦ (resume reply.1).translate handle reply.2

/-- A sequence is handled part by part, and the second part finds the state that the first left. -/
theorem translate_bind {Call' : Type} {Ans' : Call' → Type} {σ : Type}
    {handle : σ → (request : Call) → Prog Call' Ans' (Ans request × σ)} (program : Prog Call Ans α)
    (next : α → Prog Call Ans β) (state : σ) : (program >>= next).translate handle state =
      program.translate handle state >>= fun value ↦ (next value.1).translate handle value.2 := by
  induction program generalizing state with
  | ret value => rfl
  | call request resume ih =>
    refine Eq.trans ?_ (bind_assoc _ _ _).symm
    exact congrArg (handle state request >>= ·) (funext fun reply ↦ ih reply.1 reply.2)

/-- What every handler can ask bounds what the translated program can ask. -/
theorem asksOnly_translate {Call' : Type} {Ans' : Call' → Type} {σ : Type}
    {handle : σ → (request : Call) → Prog Call' Ans' (Ans request × σ)} {allowed : Call' → Prop}
    (hhandle : ∀ state request, (handle state request).AsksOnly allowed)
    (program : Prog Call Ans α) (state : σ) :
    (program.translate handle state).AsksOnly allowed := by
  induction program generalizing state with
  | ret value => trivial
  | call request resume ih =>
    exact asksOnly_bind (hhandle state request) fun reply ↦ ih reply.1 reply.2

/-- A trace handled by programs over another interface: the trace they make of it, and the state
they leave. -/
inductive Handled {Call' : Type} {Ans' : Call' → Type} {σ : Type}
    (handle : σ → (request : Call) → Prog Call' Ans' (Ans request × σ)) :
    σ → List (Event Call Ans) → List (Event Call' Ans') → σ → Prop
  | nil (state : σ) : Handled handle state [] [] state
  | cons {state state' last : σ} {request : Call} {answer : Ans request}
      {inner : List (Event Call Ans)} {first rest : List (Event Call' Ans')}
      (hfirst : (handle state request).Runs first (answer, state'))
      (hrest : Handled handle state' inner rest last) :
      Handled handle state (⟨request, answer⟩ :: inner) (first ++ rest) last

/-- A run of a translated program is a run of the program that was handled. -/
theorem handled_of_runs {Call' : Type} {Ans' : Call' → Type} {σ : Type}
    {handle : σ → (request : Call) → Prog Call' Ans' (Ans request × σ)}
    {program : Prog Call Ans α} {state last : σ} {trace : List (Event Call' Ans')} {result : α}
    (hruns : (program.translate handle state).Runs trace (result, last)) :
    ∃ inner, program.Runs inner result ∧ Handled handle state inner trace last := by
  induction program generalizing state trace with
  | ret value =>
    obtain ⟨rfl, heq⟩ := hruns
    obtain ⟨rfl, rfl⟩ := Prod.mk.inj heq
    exact ⟨[], ⟨rfl, rfl⟩, .nil last⟩
  | call request resume ih =>
    obtain ⟨reply, first, rest, rfl, hfirst, hrest⟩ := runs_bind.mp hruns
    obtain ⟨inner, hinner, hhandled⟩ := ih reply.1 hrest
    exact ⟨⟨request, reply.1⟩ :: inner, ⟨reply.1, inner, rfl, hinner⟩, .cons hfirst hhandled⟩

end Prog

/-! ### Settings, steps and weakest preconditions -/

/-- What surrounds a program: how its collaborators answer a request, moving the world, and how
other tasks may move the world in between. -/
structure Setting (Call : Type) (Ans : Call → Type) (W : Type) where
  answers : W → (request : Call) → Ans request → W → Prop
  interferes : W → W → Prop := fun _ _ ↦ False

namespace Setting

open Relation

variable {Call : Type} {Ans : Call → Type} {W α β : Type}

/-- One step: the pending request is answered, or another task moves the world. -/
inductive Step (S : Setting Call Ans W) : Prog Call Ans α × W → Prog Call Ans α × W → Prop
  | answer {request : Call} {resume : Ans request → Prog Call Ans α} {world world' : W}
      {reply : Ans request} (hanswer : S.answers world request reply world') :
      Step S (.call request resume, world) (resume reply, world')
  | interfere {program : Prog Call Ans α} {world world' : W}
      (hinterfere : S.interferes world world') : Step S (program, world) (program, world')

/-- The weakest precondition: whatever the other tasks did before, every request satisfies the
guard, and the value returned satisfies the postcondition. -/
def wp (S : Setting Call Ans W) (guard : W → Call → Prop) :
    Prog Call Ans α → (α → W → Prop) → W → Prop
  | .ret value, post, world => ∀ world', ReflTransGen S.interferes world world' → post value world'
  | .call request resume, post, world =>
    ∀ world', ReflTransGen S.interferes world world' →
      guard world' request ∧ ∀ reply world'', S.answers world' request reply world'' →
        wp S guard (resume reply) post world''

variable {S : Setting Call Ans W} {guard : W → Call → Prop}

/-- A weakest precondition survives interference. -/
theorem wp_of_interferes {program : Prog Call Ans α} {post : α → W → Prop} {world world' : W}
    (hinterfere : ReflTransGen S.interferes world world') (hwp : S.wp guard program post world) :
    S.wp guard program post world' := by
  cases program with
  | ret value => exact fun last hlast ↦ hwp last (hinterfere.trans hlast)
  | call request resume => exact fun last hlast ↦ hwp last (hinterfere.trans hlast)

theorem wp_mono {program : Prog Call Ans α} {post post' : α → W → Prop}
    (hpost : ∀ value world, post value world → post' value world) {world : W}
    (hwp : S.wp guard program post world) : S.wp guard program post' world := by
  induction program generalizing world with
  | ret value => exact fun last hlast ↦ hpost value last (hwp last hlast)
  | call request resume ih =>
    intro last hlast
    obtain ⟨hguard, hresume⟩ := hwp last hlast
    exact ⟨hguard, fun reply world'' hanswer ↦ ih reply (hresume reply world'' hanswer)⟩

theorem wp_bind {program : Prog Call Ans α} {next : α → Prog Call Ans β} {post : β → W → Prop}
    {world : W} (hwp : S.wp guard program (fun value ↦ S.wp guard (next value) post) world) :
    S.wp guard (program >>= next) post world := by
  induction program generalizing world with
  | ret value => exact hwp world .refl
  | call request resume ih =>
    intro last hlast
    obtain ⟨hguard, hresume⟩ := hwp last hlast
    exact ⟨hguard, fun reply world'' hanswer ↦ ih reply (hresume reply world'' hanswer)⟩

/-- The rule for a request in a world described by a predicate that interference keeps. -/
theorem wp_call_of_stable {holds : W → Prop}
    (hstable : ∀ world world', holds world → S.interferes world world' → holds world')
    {request : Call} {resume : Ans request → Prog Call Ans α} {post : α → W → Prop} {world : W}
    (hholds : holds world) (hguard : ∀ world, holds world → guard world request)
    (hresume : ∀ world reply world', holds world → S.answers world request reply world' →
      S.wp guard (resume reply) post world') :
    S.wp guard (.call request resume) post world := by
  intro last hlast
  have hreached : holds last := by
    induction hlast with
    | refl => exact hholds
    | tail _ hstep ih => exact hstable _ _ ih hstep
  exact ⟨hguard last hreached,
    fun reply world' hanswer ↦ hresume last reply world' hreached hanswer⟩

/-- The rule for a value in a world described by a predicate that interference keeps. -/
theorem wp_ret_of_stable {post : α → W → Prop} {value : α}
    (hstable : ∀ world world', post value world → S.interferes world world' → post value world')
    {world : W} (hpost : post value world) : S.wp guard (.ret value) post world := by
  intro last hlast
  induction hlast with
  | refl => exact hpost
  | tail _ hstep ih => exact hstable _ _ ih hstep

/-- The rule for a program whose requests all keep a predicate that interference keeps: the
predicate holds at its end, and the value is one it can return. -/
theorem wp_of_asksOnly {allowed : Call → Prop} {holds : W → Prop}
    (hstable : ∀ world world', holds world → S.interferes world world' → holds world')
    (hguard : ∀ world request, allowed request → holds world → guard world request)
    (hanswers : ∀ world request reply world', allowed request → holds world →
      S.answers world request reply world' → holds world')
    {program : Prog Call Ans α} (hasks : program.AsksOnly allowed) {world : W}
    (hworld : holds world) : S.wp guard program
      (fun value world' ↦ (∃ trace, program.Runs trace value) ∧ holds world') world := by
  induction program generalizing world with
  | ret value =>
    exact wp_ret_of_stable (fun _ _ hpost hinterfere ↦ ⟨hpost.1, hstable _ _ hpost.2 hinterfere⟩)
      ⟨⟨[], rfl, rfl⟩, hworld⟩
  | call request resume ih =>
    refine wp_call_of_stable hstable hworld (fun reached ↦ hguard reached request hasks.1) ?_
    intro reached reply world' hreached hanswer
    refine wp_mono (fun value last hlast ↦ ?_)
      (ih reply (hasks.2 reply) (hanswers _ _ _ _ hasks.1 hreached hanswer))
    obtain ⟨⟨trace, htrace⟩, hlast⟩ := hlast
    exact ⟨⟨⟨request, reply⟩ :: trace, reply, trace, rfl, htrace⟩, hlast⟩

/-- Two postconditions hold together. -/
theorem wp_and {program : Prog Call Ans α} {post post' : α → W → Prop} {world : W}
    (hwp : S.wp guard program post world) (hwp' : S.wp guard program post' world) :
    S.wp guard program (fun value last ↦ post value last ∧ post' value last) world := by
  induction program generalizing world with
  | ret value => exact fun last hlast ↦ ⟨hwp last hlast, hwp' last hlast⟩
  | call request resume ih =>
    intro last hlast
    obtain ⟨hguard, hresume⟩ := hwp last hlast
    refine ⟨hguard, fun reply world' hanswer ↦ ?_⟩
    exact ih reply (hresume reply world' hanswer) ((hwp' last hlast).2 reply world' hanswer)

/-- Where the collaborators can answer whatever the guard admits, a postcondition is met. -/
theorem exists_of_wp {holds : W → Prop}
    (hrespond : ∀ world request, holds world → guard world request →
      ∃ reply world', S.answers world request reply world' ∧ holds world')
    {program : Prog Call Ans α} {post : α → W → Prop} {world : W} (hworld : holds world)
    (hwp : S.wp guard program post world) : ∃ value last, post value last := by
  induction program generalizing world with
  | ret value => exact ⟨value, world, hwp world .refl⟩
  | call request resume ih =>
    obtain ⟨hguard, hresume⟩ := hwp world .refl
    obtain ⟨reply, world', hanswer, hworld'⟩ := hrespond world request hworld hguard
    exact ih reply hworld' (hresume reply world' hanswer)

/-- A part of an interface works on a part of the world, and leaves the rest as it is. -/
theorem wp_embed {Call' : Type} {Ans' : Call' → Type} {W' R : Type} {S' : Setting Call' Ans' W'}
    {guard' : W' → Call' → Prop} {inj : Call → Call'}
    {ans : ∀ request, Ans request ≃ Ans' (inj request)} {view : W' → W} {rest : W' → R}
    (hanswers : ∀ world request reply world',
      S'.answers world (inj request) (ans request reply) world' →
        S.answers (view world) request reply (view world') ∧ rest world' = rest world)
    (hinterferes : ∀ world world', S'.interferes world world' →
      S.interferes (view world) (view world') ∧ rest world' = rest world)
    (hguard : ∀ world request, guard (view world) request → guard' world (inj request))
    {program : Prog Call Ans α} {post : α → W → Prop} {world : W'}
    (hwp : S.wp guard program post (view world)) :
    S'.wp guard' (program.embed inj ans)
      (fun value last ↦ post value (view last) ∧ rest last = rest world) world := by
  have hlift {first last : W'} (hreach : ReflTransGen S'.interferes first last) :
      ReflTransGen S.interferes (view first) (view last) ∧ rest last = rest first := by
    induction hreach with
    | refl => exact ⟨.refl, rfl⟩
    | tail _ hstep ih =>
      obtain ⟨hview, hrest⟩ := hinterferes _ _ hstep
      exact ⟨ih.1.tail hview, hrest.trans ih.2⟩
  induction program generalizing world with
  | ret value =>
    intro last hlast
    exact ⟨hwp (view last) (hlift hlast).1, (hlift hlast).2⟩
  | call request resume ih =>
    intro last hlast
    obtain ⟨hhere, hresume⟩ := hwp (view last) (hlift hlast).1
    refine ⟨hguard last request hhere, fun reply world' hanswer ↦ ?_⟩
    rw [← (ans request).apply_symm_apply reply] at hanswer
    obtain ⟨hview, hrest⟩ := hanswers last request _ world' hanswer
    refine wp_mono (fun value final hpost ↦ ?_) (ih _ (hresume _ _ hview))
    exact ⟨hpost.1, hpost.2.trans (hrest.trans (hlift hlast).2)⟩

/-- A weaker guard is met where a stronger one is. -/
theorem wp_of_guard {guard' : W → Call → Prop}
    (hguard : ∀ world request, guard world request → guard' world request)
    {program : Prog Call Ans α} {post : α → W → Prop} {world : W}
    (hwp : S.wp guard program post world) : S.wp guard' program post world := by
  induction program generalizing world with
  | ret value => exact hwp
  | call request resume ih =>
    intro last hlast
    obtain ⟨hhere, hresume⟩ := hwp last hlast
    exact ⟨hguard last request hhere, fun reply world' hanswer ↦
      ih reply (hresume reply world' hanswer)⟩

/-- A program whose requests are handled by programs over another interface. Every handler gives an
answer that the handled request can get, and the other tasks do no more than they may. The rest of
the world, which the handlers may rely on, stays as it is. -/
theorem wp_translate {Call' : Type} {Ans' : Call' → Type} {W' R σ : Type}
    {S' : Setting Call' Ans' W'} {guard' : W' → Call' → Prop}
    {handle : σ → (request : Call) → Prog Call' Ans' (Ans request × σ)} {allowed : Call → Prop}
    {view : W' → W} {rest : W' → R} {kept : R}
    (hinterferes : ∀ world world', S'.interferes world world' →
      ReflTransGen S.interferes (view world) (view world') ∧ rest world' = rest world)
    (hhandle : ∀ state request world, allowed request → rest world = kept →
      S'.wp guard' (handle state request) (fun reply last ↦ rest last = kept ∧
        ∃ before after, ReflTransGen S.interferes (view world) before ∧
          S.answers before request reply.1 after ∧
          ReflTransGen S.interferes after (view last)) world)
    {program : Prog Call Ans α} (hprogram : program.AsksOnly allowed) {post : α → W → Prop}
    {state : σ} {world : W'} (hkept : rest world = kept)
    (hwp : S.wp guard program post (view world)) :
    S'.wp guard' (program.translate handle state)
      (fun value last ↦ post value.1 (view last) ∧ rest last = kept) world := by
  induction program generalizing state world with
  | ret value =>
    have hstable : S'.wp guard' (.ret (value, state))
        (fun value last ↦ S.wp guard (.ret value.1) post (view last) ∧ rest last = kept) world := by
      refine wp_ret_of_stable (fun reached last hreached hinterfere ↦ ?_) ⟨hwp, hkept⟩
      obtain ⟨hmoves, hrest⟩ := hinterferes reached last hinterfere
      exact ⟨wp_of_interferes hmoves hreached.1, hrest.trans hreached.2⟩
    exact wp_mono (fun _ last hlast ↦ ⟨hlast.1 _ .refl, hlast.2⟩) hstable
  | call request resume ih =>
    refine wp_bind (wp_mono (fun reply last hlast ↦ ?_)
      (hhandle state request world hprogram.1 hkept))
    obtain ⟨hrest, before, after, hbefore, hanswer, hafter⟩ := hlast
    have hresume := (hwp before hbefore).2 reply.1 after hanswer
    exact ih reply.1 (hprogram.2 reply.1) hrest (wp_of_interferes hafter hresume)

/-- A weakest precondition is kept by every step. -/
theorem wp_step {program program' : Prog Call Ans α} {world world' : W} {post : α → W → Prop}
    (hstep : S.Step (program, world) (program', world')) (hwp : S.wp guard program post world) :
    S.wp guard program' post world' := by
  cases hstep with
  | answer hanswer => exact (hwp _ .refl).2 _ _ hanswer
  | interfere hinterfere => exact wp_of_interferes (.single hinterfere) hwp

/-- Where a weakest precondition holds and a request is pending, the guard holds. -/
theorem wp_guard {request : Call} {resume : Ans request → Prog Call Ans α} {post : α → W → Prop}
    {world : W} (hwp : S.wp guard (.call request resume) post world) : guard world request :=
  (hwp world .refl).1

/-- The setting in which the collaborators give only the answers that are allowed. -/
def restrict (S : Setting Call Ans W) (allowed : W → (request : Call) → Ans request → Prop) :
    Setting Call Ans W where
  answers world request reply world' :=
    S.answers world request reply world' ∧ allowed world request reply
  interferes := S.interferes

section Quiet

/-- No other task touches the world. -/
def Quiet (S : Setting Call Ans W) : Prop := ∀ world world', ¬ S.interferes world world'

/-- A setting that names no other task is quiet. -/
theorem quiet_alone {answers : W → (request : Call) → Ans request → W → Prop} :
    (Setting.mk answers fun _ _ ↦ False).Quiet := fun _ _ hinterfere ↦ hinterfere

theorem Quiet.eq_of_reflTransGen (hquiet : S.Quiet) {world world' : W}
    (hinterfere : ReflTransGen S.interferes world world') : world' = world := by
  induction hinterfere with
  | refl => rfl
  | tail _ hlast => exact absurd hlast (hquiet _ _)

theorem Quiet.wp_ret_iff (hquiet : S.Quiet) {value : α} {post : α → W → Prop} {world : W} :
    S.wp guard (.ret value) post world ↔ post value world := by
  refine ⟨fun hwp ↦ hwp world .refl, fun hpost last hlast ↦ ?_⟩
  rw [hquiet.eq_of_reflTransGen hlast]
  exact hpost

theorem Quiet.wp_call_iff (hquiet : S.Quiet) {request : Call}
    {resume : Ans request → Prog Call Ans α} {post : α → W → Prop} {world : W} :
    S.wp guard (.call request resume) post world ↔
      guard world request ∧ ∀ reply world', S.answers world request reply world' →
        S.wp guard (resume reply) post world' := by
  refine ⟨fun hwp ↦ hwp world .refl, fun hwp last hlast ↦ ?_⟩
  rw [hquiet.eq_of_reflTransGen hlast]
  exact hwp

/-- The setting whose world is what was asked and answered so far, and where any answer may come. -/
def recording (Call : Type) (Ans : Call → Type) :
    Setting Call Ans (List (Prog.Event Call Ans)) where
  answers events request reply events' := events' = events ++ [⟨request, reply⟩]

/-- What is recorded of a program is one of its runs. -/
theorem wp_recording (program : Prog Call Ans α) (events : List (Prog.Event Call Ans)) :
    (recording Call Ans).wp (fun _ _ ↦ True) program
      (fun value last ↦ ∃ trace, program.Runs trace value ∧ last = events ++ trace) events := by
  induction program generalizing events with
  | ret value => exact quiet_alone.wp_ret_iff.mpr ⟨[], ⟨rfl, rfl⟩, (List.append_nil events).symm⟩
  | call request resume ih =>
    refine quiet_alone.wp_call_iff.mpr ⟨trivial, ?_⟩
    rintro reply _ rfl
    refine wp_mono (fun value last hlast ↦ ?_) (ih reply _)
    obtain ⟨trace, hruns, rfl⟩ := hlast
    exact ⟨⟨request, reply⟩ :: trace, ⟨reply, trace, rfl, hruns⟩, List.append_assoc _ _ _⟩

end Quiet

end Setting

/-! ### Components -/

/-- An object with state `σ` whose operations `Op` are programs. -/
structure Component (Call : Type) (Ans : Call → Type) (σ Op : Type) where
  handle : σ → Op → Prog Call Ans σ

namespace Component

open Relation

variable {Call : Type} {Ans : Call → Type} {σ Op W : Type}

/-- A component rests in a state, or is in the middle of an operation. -/
inductive Phase (Call : Type) (Ans : Call → Type) (σ Op : Type)
  | idle (state : σ)
  | busy (operation : Op) (program : Prog Call Ans σ)

/-- One step of a component in a setting. `starts` says which operations may start in a world and
how starting one moves it. -/
inductive Step (C : Component Call Ans σ Op) (S : Setting Call Ans W)
    (starts : W → Op → W → Prop) : Phase Call Ans σ Op × W → Phase Call Ans σ Op × W → Prop
  | start {state : σ} {operation : Op} {world world' : W}
      (hstart : starts world operation world') :
      Step C S starts (.idle state, world) (.busy operation (C.handle state operation), world')
  | answer {operation : Op} {request : Call} {resume : Ans request → Prog Call Ans σ}
      {world world' : W} {reply : Ans request} (hanswer : S.answers world request reply world') :
      Step C S starts (.busy operation (.call request resume), world)
        (.busy operation (resume reply), world')
  | interfere {phase : Phase Call Ans σ Op} {world world' : W}
      (hinterfere : S.interferes world world') : Step C S starts (phase, world) (phase, world')
  | finish {operation : Op} {state : σ} {world : W} :
      Step C S starts (.busy operation (.ret state), world) (.idle state, world)

/-- The configurations a component can reach. -/
abbrev Steps (C : Component Call Ans σ Op) (S : Setting Call Ans W)
    (starts : W → Op → W → Prop) :
    Phase Call Ans σ Op × W → Phase Call Ans σ Op × W → Prop :=
  ReflTransGen (C.Step S starts)

/-- What is reached with restricted answers is reached without the restriction. -/
theorem steps_of_restrict {C : Component Call Ans σ Op} {S : Setting Call Ans W}
    {starts : W → Op → W → Prop} {allowed : W → (request : Call) → Ans request → Prop}
    {before after : Phase Call Ans σ Op × W}
    (hsteps : C.Steps (S.restrict allowed) starts before after) :
    C.Steps S starts before after := by
  refine ReflTransGen.mono (fun _ _ hstep ↦ ?_) _ _ hsteps
  cases hstep with
  | start hstart => exact .start hstart
  | answer hanswer => exact .answer hanswer.1
  | interfere hinterfere => exact .interfere hinterfere
  | finish => exact .finish

/-- Collaborators given by a function run an operation to its end. -/
theorem steps_runOn {C : Component Call Ans σ Op} {S : Setting Call Ans W}
    {starts : W → Op → W → Prop} {respond : W → (request : Call) → Ans request × W}
    (hrespond : ∀ world request,
      S.answers world request (respond world request).1 (respond world request).2)
    (operation : Op) (program : Prog Call Ans σ) (world : W) :
    C.Steps S starts (.busy operation program, world)
      (.idle (program.runOn respond world).1, (program.runOn respond world).2) := by
  induction program generalizing world with
  | ret state => exact .single .finish
  | call request resume ih => exact .head (.answer (hrespond world request)) (ih _ _)

/-- They run the first part of an operation to its end. -/
theorem steps_runOn_bind {C : Component Call Ans σ Op} {S : Setting Call Ans W}
    {starts : W → Op → W → Prop} {respond : W → (request : Call) → Ans request × W}
    (hrespond : ∀ world request,
      S.answers world request (respond world request).1 (respond world request).2)
    (operation : Op) {α : Type} (program : Prog Call Ans α) (next : α → Prog Call Ans σ)
    (world : W) :
    C.Steps S starts (.busy operation (program >>= next), world)
      (.busy operation (next (program.runOn respond world).1),
        (program.runOn respond world).2) := by
  induction program generalizing world with
  | ret value => exact .refl
  | call request resume ih => exact .head (.answer (hrespond world request)) (ih _ _)

/-- Collaborators that may give no answer run an operation to its end, if it comes to one. -/
theorem steps_tryRunOn {C : Component Call Ans σ Op} {S : Setting Call Ans W}
    {starts : W → Op → W → Prop} {respond : W → (request : Call) → Option (Ans request × W)}
    (hrespond : ∀ world request reply, respond world request = some reply →
      S.answers world request reply.1 reply.2)
    (operation : Op) {program : Prog Call Ans σ} {world : W} {result : σ × W}
    (hresult : program.tryRunOn respond world = some result) :
    C.Steps S starts (.busy operation program, world) (.idle result.1, result.2) := by
  induction program generalizing world with
  | ret state =>
    obtain rfl := Option.some.inj hresult
    exact .single .finish
  | call request resume ih =>
    unfold Prog.tryRunOn at hresult
    cases hreply : respond world request with
    | none =>
      rw [hreply] at hresult
      cases hresult
    | some reply =>
      rw [hreply] at hresult
      exact .head (.answer (hrespond world request reply hreply)) (ih reply.1 hresult)

/-- They run the first part of an operation to its end, if it comes to one. -/
theorem steps_tryRunOn_bind {C : Component Call Ans σ Op} {S : Setting Call Ans W}
    {starts : W → Op → W → Prop} {respond : W → (request : Call) → Option (Ans request × W)}
    (hrespond : ∀ world request reply, respond world request = some reply →
      S.answers world request reply.1 reply.2)
    (operation : Op) {α : Type} {program : Prog Call Ans α} (next : α → Prog Call Ans σ) {world : W}
    {result : α × W} (hresult : program.tryRunOn respond world = some result) :
    C.Steps S starts (.busy operation (program >>= next), world)
      (.busy operation (next result.1), result.2) := by
  induction program generalizing world with
  | ret value =>
    obtain rfl := Option.some.inj hresult
    exact .refl
  | call request resume ih =>
    unfold Prog.tryRunOn at hresult
    cases hreply : respond world request with
    | none =>
      rw [hreply] at hresult
      cases hresult
    | some reply =>
      rw [hreply] at hresult
      exact .head (.answer (hrespond world request reply hreply)) (ih reply.1 hresult)

/-- They run an operation up to the first request that they do not answer. Their own state may hold
more than the world. -/
theorem steps_runUntil {C : Component Call Ans σ Op} {S : Setting Call Ans W}
    {starts : W → Op → W → Prop} {V : Type} {view : V → W}
    {respond : V → (request : Call) → Option (Ans request × V)}
    (hrespond : ∀ world request reply, respond world request = some reply →
      S.answers (view world) request reply.1 (view reply.2))
    (operation : Op) (program : Prog Call Ans σ) (world : V) :
    C.Steps S starts (.busy operation program, view world)
      (.busy operation (program.runUntil respond world).1,
        view (program.runUntil respond world).2) := by
  induction program generalizing world with
  | ret state => exact .refl
  | call request resume ih =>
    unfold Prog.runUntil
    cases hreply : respond world request with
    | none => exact .refl
    | some reply => exact .head (.answer (hrespond world request reply hreply)) (ih reply.1 reply.2)

/-- What an operation in progress can still ask. -/
def Phase.AsksOnly (allowed : Call → Prop) : Phase Call Ans σ Op → Prop
  | .idle _ => True
  | .busy _ program => program.AsksOnly allowed

/-- The invariant rule for what every start, all interference and the answers to the requests that
the component can make keep. -/
theorem request_rule {C : Component Call Ans σ Op} {S : Setting Call Ans W}
    {starts : W → Op → W → Prop} {allowed : Call → Prop} {holds : W → Prop}
    (hhandle : ∀ state operation, (C.handle state operation).AsksOnly allowed)
    (hanswers : ∀ world request reply world', allowed request → holds world →
      S.answers world request reply world' → holds world')
    (hstarts : ∀ world operation world', holds world → starts world operation world' →
      holds world')
    (hinterferes : ∀ world world', holds world → S.interferes world world' → holds world')
    {before after : Phase Call Ans σ Op × W} (hsteps : C.Steps S starts before after)
    (hphase : before.1.AsksOnly allowed) (hbefore : holds before.2) :
    after.1.AsksOnly allowed ∧ holds after.2 := by
  induction hsteps with
  | refl => exact ⟨hphase, hbefore⟩
  | tail _ hstep ih =>
    obtain ⟨hasks, hholds⟩ := ih
    cases hstep with
    | start hstart => exact ⟨hhandle _ _, hstarts _ _ _ hholds hstart⟩
    | answer hanswer => exact ⟨hasks.2 _, hanswers _ _ _ _ hasks.1 hholds hanswer⟩
    | interfere hinterfere => exact ⟨hasks, hinterferes _ _ hholds hinterfere⟩
    | finish => exact ⟨trivial, hholds⟩

/-- The invariant rule for what every answer, every start and all interference keeps, whatever the
component asks. -/
theorem world_rule {C : Component Call Ans σ Op} {S : Setting Call Ans W}
    {starts : W → Op → W → Prop} {holds : W → Prop}
    (hanswers : ∀ world request reply world', holds world → S.answers world request reply world' →
      holds world')
    (hstarts : ∀ world operation world', holds world → starts world operation world' →
      holds world')
    (hinterferes : ∀ world world', holds world → S.interferes world world' → holds world')
    {before after : Phase Call Ans σ Op × W} (hsteps : C.Steps S starts before after)
    (hbefore : holds before.2) : holds after.2 := by
  have hprogram (program : Prog Call Ans σ) : program.AsksOnly fun _ ↦ True :=
    Prog.asksOnly_of_forall (fun _ ↦ trivial) program
  have hphase : before.1.AsksOnly fun _ ↦ True := by
    cases before.1 with
    | idle state => trivial
    | busy operation program => exact hprogram program
  exact (request_rule (fun _ _ ↦ hprogram _) (fun world request reply world' _ ↦
    hanswers world request reply world') hstarts hinterferes hsteps hphase hbefore).2

/-- What holds of a phase when an invariant of the resting states is maintained: the invariant
itself at rest, and in the middle of an operation that the rest of the operation restores it. -/
def Maintains (S : Setting Call Ans W) (guard : W → Call → Prop) (invariant : σ → W → Prop) :
    Phase Call Ans σ Op × W → Prop
  | (.idle state, world) => invariant state world
  | (.busy _ program, world) => S.wp guard program invariant world

variable {C : Component Call Ans σ Op} {S : Setting Call Ans W} {starts : W → Op → W → Prop}
  {guard : W → Call → Prop} {invariant : σ → W → Prop}

/-- One step maintains an invariant that interference keeps and every operation restores. -/
theorem maintains_step
    (hinterferes : ∀ state world world', invariant state world → S.interferes world world' →
      invariant state world')
    (hhandle : ∀ state operation world world', invariant state world →
      starts world operation world' → S.wp guard (C.handle state operation) invariant world')
    {before after : Phase Call Ans σ Op × W} (hstep : C.Step S starts before after)
    (hbefore : Maintains S guard invariant before) : Maintains S guard invariant after := by
  cases hstep with
  | start hstart => exact hhandle _ _ _ _ hbefore hstart
  | answer hanswer => exact Setting.wp_step (.answer hanswer) hbefore
  | @interfere phase _ _ hinterfere =>
    cases phase with
    | idle state => exact hinterferes _ _ _ hbefore hinterfere
    | busy operation program => exact Setting.wp_step (.interfere hinterfere) hbefore
  | finish => exact hbefore _ .refl

/-- The invariant rule over all runs of a component. -/
theorem invariant_rule
    (hinterferes : ∀ state world world', invariant state world → S.interferes world world' →
      invariant state world')
    (hhandle : ∀ state operation world world', invariant state world →
      starts world operation world' → S.wp guard (C.handle state operation) invariant world')
    {before after : Phase Call Ans σ Op × W} (hsteps : C.Steps S starts before after)
    (hbefore : Maintains S guard invariant before) : Maintains S guard invariant after := by
  induction hsteps with
  | refl => exact hbefore
  | tail _ hstep ih => exact maintains_step hinterferes hhandle hstep ih

/-! ### Power cycles -/

/-- One step of a component that may lose power: a step of the component, or a power cycle, which
ends whatever it was doing. `boots` says how the world comes up again, and with which state. -/
inductive LifeStep (C : Component Call Ans σ Op) (S : Setting Call Ans W)
    (starts : W → Op → W → Prop) (boots : W → σ → W → Prop) :
    Phase Call Ans σ Op × W → Phase Call Ans σ Op × W → Prop
  | run {before after : Phase Call Ans σ Op × W} (hstep : C.Step S starts before after) :
      LifeStep C S starts boots before after
  | boot {phase : Phase Call Ans σ Op} {state : σ} {world world' : W}
      (hboot : boots world state world') :
      LifeStep C S starts boots (phase, world) (.idle state, world')

/-- The configurations a component can reach through any number of power cycles. -/
abbrev Lives (C : Component Call Ans σ Op) (S : Setting Call Ans W)
    (starts : W → Op → W → Prop) (boots : W → σ → W → Prop) :
    Phase Call Ans σ Op × W → Phase Call Ans σ Op × W → Prop :=
  ReflTransGen (C.LifeStep S starts boots)

/-- A run without a power cycle is a life. -/
theorem lives_of_steps {boots : W → σ → W → Prop} {before after : Phase Call Ans σ Op × W}
    (hsteps : C.Steps S starts before after) : C.Lives S starts boots before after :=
  ReflTransGen.mono (fun _ _ hstep ↦ .run hstep) _ _ hsteps

variable {survives : W → Prop}

/-- What the invariant and the guard say of the world holds at every moment. -/
theorem survives_of_maintains (hrest : ∀ state world, invariant state world → survives world)
    (hguard : ∀ world request, guard world request → survives world)
    {config : Phase Call Ans σ Op × W} (hconfig : Maintains S guard invariant config) :
    survives config.2 := by
  obtain ⟨phase, world⟩ := config
  cases phase with
  | idle state => exact hrest state world hconfig
  | busy operation program =>
    cases program with
    | ret state => exact hrest state world (hconfig world .refl)
    | call request resume => exact hguard world request (Setting.wp_guard hconfig)

/-- The invariant rule over all runs with power cycles. A boot finds a world in which no more is
known than what held at every moment. -/
theorem life_rule {boots : W → σ → W → Prop}
    (hinterferes : ∀ state world world', invariant state world → S.interferes world world' →
      invariant state world')
    (hhandle : ∀ state operation world world', invariant state world →
      starts world operation world' → S.wp guard (C.handle state operation) invariant world')
    (hrest : ∀ state world, invariant state world → survives world)
    (hguard : ∀ world request, guard world request → survives world)
    (hboots : ∀ world state world', survives world → boots world state world' →
      invariant state world')
    {before after : Phase Call Ans σ Op × W} (hlives : C.Lives S starts boots before after)
    (hbefore : Maintains S guard invariant before) :
    Maintains S guard invariant after ∧ survives after.2 := by
  have hafter : Maintains S guard invariant after := by
    induction hlives with
    | refl => exact hbefore
    | tail _ hstep ih =>
      cases hstep with
      | run hstep => exact maintains_step hinterferes hhandle hstep ih
      | boot hboot => exact hboots _ _ _ (survives_of_maintains hrest hguard ih) hboot
  exact ⟨hafter, survives_of_maintains hrest hguard hafter⟩

end Component

end LibreSwitch.Library
