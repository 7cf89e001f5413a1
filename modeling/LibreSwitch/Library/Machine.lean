import Mathlib.Data.List.DropRight

/-!
# Machines that report

A machine takes one input after the other, moves its state and reports something on each input: a
driver that is polled, a state machine that is fed events, a filter over a stream. `final` is the
state behind a list of inputs and `reports` what was reported, one report for each input.

The rules are those that proofs about such runs come back to. `history_rule` is the induction over
a run that is extended at its end, for invariants that speak of all inputs so far.
`reports_eq_of_simulates` compares the runs of two machines on two inputs, input by input, and
`final_of_simulates` the states behind them.
`final_part` and `reports_part` are for a machine of several parts of which each input concerns
one: the part runs as a machine of its own on the inputs that are its own.
-/

set_option autoImplicit false
set_option relaxedAutoImplicit false

namespace LibreSwitch.Library

/-! ### The end of a history -/

section History

variable {ι : Type*}

/-- Inputs that all satisfy a predicate belong to the run of such inputs at the end. -/
theorem rtakeWhile_append {p : ι → Bool} (past : List ι) {run : List ι}
    (hrun : ∀ input ∈ run, p input = true) :
    (past ++ run).rtakeWhile p = past.rtakeWhile p ++ run := by
  induction run using List.reverseRecOn with
  | nil => rw [List.append_nil, List.append_nil]
  | append_singleton run input ih =>
    rw [← List.append_assoc, List.rtakeWhile_concat_pos _ _ _ (hrun input (by simp)),
      ih fun other hother ↦ hrun other (List.mem_append_left _ hother), List.append_assoc]

/-- The run at the end of a history, with the history before it. -/
theorem exists_eq_append_rtakeWhile (p : ι → Bool) (past : List ι) :
    ∃ before, past = before ++ past.rtakeWhile p :=
  (List.rtakeWhile_suffix p past).imp fun _ heq ↦ heq.symm

/-- Something said of every place of a history, by what is before it. -/
def AtEvery (P : List ι → ι → Prop) (history : List ι) : Prop :=
  ∀ before input rest, history = before ++ input :: rest → P before input

/-- What holds at every place of a history holds at every place of its beginning. -/
theorem AtEvery.of_append {P : List ι → ι → Prop} {first second : List ι}
    (hevery : AtEvery P (first ++ second)) : AtEvery P first := by
  rintro before input rest rfl
  exact hevery before input (rest ++ second) (by rw [List.append_assoc, List.cons_append])

theorem atEvery_nil {P : List ι → ι → Prop} : AtEvery P [] :=
  fun _ _ _ hsplit ↦ absurd hsplit.symm (List.append_ne_nil_of_right_ne_nil _ (by simp))

/-- One more input, and what is said of it. -/
theorem atEvery_concat {P : List ι → ι → Prop} {past : List ι} {input : ι} :
    AtEvery P (past ++ [input]) ↔ AtEvery P past ∧ P past input := by
  constructor
  · intro hevery
    exact ⟨hevery.of_append, hevery past input [] rfl⟩
  · rintro ⟨hpast, hinput⟩ before other rest hsplit
    rcases List.eq_nil_or_concat' rest with rfl | ⟨front, last, rfl⟩
    · obtain ⟨rfl, heq⟩ := List.append_inj' hsplit rfl
      obtain rfl := List.head_eq_of_cons_eq heq
      exact hinput
    · rw [← List.cons_append, ← List.append_assoc] at hsplit
      obtain ⟨rfl, -⟩ := List.append_inj' hsplit rfl
      exact hpast before other front rfl

/-- Two properties hold at every place of the same histories when they agree wherever one of them
held at every place before. -/
theorem atEvery_congr {P Q : List ι → ι → Prop}
    (hagree : ∀ before input, AtEvery P before → (P before input ↔ Q before input))
    (history : List ι) : AtEvery P history ↔ AtEvery Q history := by
  induction history using List.reverseRecOn with
  | nil => exact iff_of_true atEvery_nil atEvery_nil
  | append_singleton before input ih =>
    rw [atEvery_concat, atEvery_concat, ← ih]
    exact and_congr_right (hagree before input)

end History

/-! ### Machines -/

/-- A machine with inputs `ι`, reports `ο` and states `σ`. -/
structure Machine (ι ο σ : Type*) where
  step : σ → ι → σ × ο

namespace Machine

variable {ι κ ο π σ τ : Type*} (machine : Machine ι ο σ)

/-- The state behind a list of inputs. -/
def final (state : σ) (inputs : List ι) : σ :=
  inputs.foldl (fun reached input ↦ (machine.step reached input).1) state

/-- The reports on a list of inputs. -/
def reports : σ → List ι → List ο
  | _, [] => []
  | state, input :: rest =>
    (machine.step state input).2 :: reports (machine.step state input).1 rest

@[simp] theorem final_nil (state : σ) : machine.final state [] = state := rfl

@[simp] theorem final_cons (state : σ) (input : ι) (rest : List ι) :
    machine.final state (input :: rest) = machine.final (machine.step state input).1 rest := rfl

@[simp] theorem reports_nil (state : σ) : machine.reports state [] = [] := rfl

@[simp] theorem reports_cons (state : σ) (input : ι) (rest : List ι) :
    machine.reports state (input :: rest) =
      (machine.step state input).2 :: machine.reports (machine.step state input).1 rest := rfl

theorem final_append (state : σ) (first second : List ι) :
    machine.final state (first ++ second) = machine.final (machine.final state first) second :=
  List.foldl_append

theorem reports_append (state : σ) (first second : List ι) :
    machine.reports state (first ++ second) =
      machine.reports state first ++ machine.reports (machine.final state first) second := by
  induction first generalizing state with
  | nil => rfl
  | cons input rest ih => rw [List.cons_append, reports_cons, ih, reports_cons, final_cons]; rfl

/-- One more input moves the state by one step. -/
theorem final_concat (state : σ) (past : List ι) (input : ι) :
    machine.final state (past ++ [input]) =
      (machine.step (machine.final state past) input).1 := by
  rw [final_append, final_cons, final_nil]

/-- One more input adds one report. -/
theorem reports_concat (state : σ) (past : List ι) (input : ι) :
    machine.reports state (past ++ [input]) =
      machine.reports state past ++ [(machine.step (machine.final state past) input).2] := by
  rw [reports_append, reports_cons, reports_nil]

@[simp] theorem length_reports (state : σ) (inputs : List ι) :
    (machine.reports state inputs).length = inputs.length := by
  induction inputs generalizing state with
  | nil => rfl
  | cons input rest ih => rw [reports_cons, List.length_cons, ih, List.length_cons]

/-! ### Invariants -/

/-- What every step keeps holds behind every list of inputs. -/
theorem invariant_rule (inv : σ → Prop)
    (hstep : ∀ state input, inv state → inv (machine.step state input).1) {state : σ}
    (hstart : inv state) (inputs : List ι) : inv (machine.final state inputs) := by
  induction inputs generalizing state with
  | nil => exact hstart
  | cons input rest ih => exact ih (hstep state input hstart)

/-- An invariant of the inputs so far and the state, for the runs whose inputs are admissible at
every moment. -/
theorem history_rule {start : σ} (admissible : List ι → Prop) (inv : List ι → σ → Prop)
    (hstarts : ∀ past input, admissible (past ++ [input]) → admissible past)
    (hstart : inv [] start)
    (hstep : ∀ past input, admissible (past ++ [input]) → inv past (machine.final start past) →
      inv (past ++ [input]) (machine.step (machine.final start past) input).1)
    (inputs : List ι) (hadmissible : admissible inputs) :
    inv inputs (machine.final start inputs) := by
  induction inputs using List.reverseRecOn with
  | nil => exact hstart
  | append_singleton past input ih =>
    rw [final_concat]
    exact hstep past input hadmissible (ih (hstarts past input hadmissible))

/-! ### Two runs side by side -/

/-- Two machines, fed inputs that correspond, report the same as long as a relation between their
states is kept. The relation may speak of the inputs still to come. -/
theorem reports_eq_of_simulates {machine : Machine ι ο σ} {other : Machine κ ο τ}
    (related : List ι → σ → τ → Prop) (corresponds : ι → κ)
    (hstep : ∀ input rest state state', related (input :: rest) state state' →
      (machine.step state input).2 = (other.step state' (corresponds input)).2 ∧
        related rest (machine.step state input).1 (other.step state' (corresponds input)).1)
    {inputs : List ι} {state : σ} {state' : τ} (hstart : related inputs state state') :
    machine.reports state inputs = other.reports state' (inputs.map corresponds) := by
  induction inputs generalizing state state' with
  | nil => rfl
  | cons input rest ih =>
    obtain ⟨hreport, hnext⟩ := hstep input rest state state' hstart
    rw [List.map_cons, reports_cons, reports_cons, hreport, ih hnext]

/-- A relation that every pair of corresponding steps keeps holds behind all of them. -/
theorem final_of_simulates {machine : Machine ι ο σ} {other : Machine κ π τ}
    (related : σ → τ → Prop) (corresponds : ι → κ)
    (hstep : ∀ input state state', related state state' →
      related (machine.step state input).1 (other.step state' (corresponds input)).1)
    {state : σ} {state' : τ} (hstart : related state state') (inputs : List ι) :
    related (machine.final state inputs) (other.final state' (inputs.map corresponds)) := by
  induction inputs generalizing state state' with
  | nil => exact hstart
  | cons input rest ih => exact ih (hstep input state state' hstart)

/-! ### Parts -/

section Parts

variable {machine} {part : Machine ι (List π) τ} {keep : ι → Bool}
  (inv : σ → Prop) (view : σ → τ)

/-- A part that only its own inputs move is moved by them as by its own machine. -/
theorem final_part
    (hinv : ∀ state input, inv state → inv (machine.step state input).1)
    (hkeep : ∀ state input, inv state → keep input = true →
      view (machine.step state input).1 = (part.step (view state) input).1)
    (hskip : ∀ state input, inv state → keep input = false →
      view (machine.step state input).1 = view state)
    {state : σ} (hstart : inv state) (inputs : List ι) :
    view (machine.final state inputs) = part.final (view state) (inputs.filter keep) := by
  induction inputs generalizing state with
  | nil => rfl
  | cons input rest ih =>
    rw [final_cons, ih (hinv state input hstart)]
    by_cases hown : keep input = true
    · rw [List.filter_cons_of_pos hown, final_cons, hkeep state input hstart hown]
    · rw [List.filter_cons_of_neg hown, hskip state input hstart (by simpa using hown)]

/-- What is shown of such a part is what its own machine reports on its own inputs. -/
theorem reports_part {shown : ο → List π}
    (hinv : ∀ state input, inv state → inv (machine.step state input).1)
    (hkeep : ∀ state input, inv state → keep input = true →
      view (machine.step state input).1 = (part.step (view state) input).1 ∧
        shown (machine.step state input).2 = (part.step (view state) input).2)
    (hskip : ∀ state input, inv state → keep input = false →
      view (machine.step state input).1 = view state ∧ shown (machine.step state input).2 = [])
    {state : σ} (hstart : inv state) (inputs : List ι) :
    (machine.reports state inputs).flatMap shown =
      (part.reports (view state) (inputs.filter keep)).flatten := by
  induction inputs generalizing state with
  | nil => rfl
  | cons input rest ih =>
    rw [reports_cons, List.flatMap_cons, ih (hinv state input hstart)]
    by_cases hown : keep input = true
    · obtain ⟨hview, hshown⟩ := hkeep state input hstart hown
      rw [List.filter_cons_of_pos hown, reports_cons, List.flatten_cons, hview, hshown]
    · obtain ⟨hview, hshown⟩ := hskip state input hstart (by simpa using hown)
      rw [List.filter_cons_of_neg hown, hview, hshown, List.nil_append]

end Parts

end Machine

end LibreSwitch.Library
