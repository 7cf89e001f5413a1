import Mathlib.Tactic

/-!
# Keyed updates

A state takes a list of entries, each a key and a value, one after the other. A part of the state
that one key owns (`Owns`) is changed by the entries of that key only. After a run it shows the
last of them (`Owns.run_last`), whatever stood before and between, and is as at the start if there
was none (`Owns.run_absent`). Where the part keeps a flag beside what it holds, the flag is up
after a run exactly when the last value was accepted (`Owns.flag_iff`).
-/

set_option autoImplicit false
set_option relaxedAutoImplicit false

namespace LibreSwitch.Library

variable {σ κ ν β : Type*}

/-- The last entry of a key. -/
def LastEntry (entries : List (κ × ν)) (key : κ) (value : ν) : Prop :=
  ∃ before after, entries = before ++ (key, value) :: after ∧ ∀ entry ∈ after, entry.1 ≠ key

theorem LastEntry.unique {entries : List (κ × ν)} {key : κ} {value value' : ν}
    (hlast : LastEntry entries key value) (hlast' : LastEntry entries key value') :
    value = value' := by
  obtain ⟨before, after, rfl, hafter⟩ := hlast
  obtain ⟨before', after', heq, hafter'⟩ := hlast'
  obtain ⟨more, hbefore, hmore⟩ | ⟨more, hbefore, hmore⟩ := List.append_eq_append_iff.mp heq
  · cases more with
    | nil => exact congrArg Prod.snd (List.cons_eq_cons.mp hmore).1
    | cons entry more =>
      obtain ⟨-, rfl⟩ := List.cons_eq_cons.mp hmore
      exact absurd rfl (hafter (key, value') (by simp))
  · cases more with
    | nil => exact (congrArg Prod.snd (List.cons_eq_cons.mp hmore).1).symm
    | cons entry more =>
      obtain ⟨-, rfl⟩ := List.cons_eq_cons.mp hmore
      exact absurd rfl (hafter' (key, value) (by simp))

/-- A key has a last entry, or none. -/
theorem exists_lastEntry_or_absent [DecidableEq κ] (entries : List (κ × ν)) (key : κ) :
    (∃ value, LastEntry entries key value) ∨ ∀ entry ∈ entries, entry.1 ≠ key := by
  induction entries with
  | nil => exact .inr (by simp)
  | cons entry rest ih =>
    obtain ⟨value, before, after, rfl, hafter⟩ | habsent := ih
    · exact .inl ⟨value, entry :: before, after, rfl, hafter⟩
    · by_cases hkey : entry.1 = key
      · exact .inl ⟨entry.2, [], rest, by rw [← hkey]; rfl, habsent⟩
      · refine .inr fun other hother ↦ ?_
        obtain rfl | hrest := List.mem_cons.mp hother
        · exact hkey
        · exact habsent other hrest

/-- The only value a key is given is its last one. -/
theorem lastEntry_of_only [DecidableEq κ] {entries : List (κ × ν)} {key : κ} {value : ν}
    (hmem : (key, value) ∈ entries) (honly : ∀ other, (key, other) ∈ entries → other = value) :
    LastEntry entries key value := by
  obtain ⟨last, hlast⟩ | habsent := exists_lastEntry_or_absent entries key
  · have hlastMem : (key, last) ∈ entries := by
      obtain ⟨before, after, rfl, -⟩ := hlast
      simp
    exact honly last hlastMem ▸ hlast
  · exact absurd rfl (habsent (key, value) hmem)

section Runs

variable (step : σ → κ → ν → σ)

/-- The run over a list of entries. -/
def runEntries (state : σ) (entries : List (κ × ν)) : σ :=
  entries.foldl (fun state entry ↦ step state entry.1 entry.2) state

/-- A part of the state that only the entries of one key change, and what they make of it. -/
structure Owns (get : σ → β) (key : κ) (effect : β → ν → β) : Prop where
  here (state : σ) (value : ν) : get (step state key value) = effect (get state) value
  elsewhere (state : σ) {other : κ} (value : ν) (hother : other ≠ key) :
    get (step state other value) = get state

namespace Owns

variable {step} {get : σ → β} {key : κ} {effect : β → ν → β}

theorem run_absent (howns : Owns step get key effect) {entries : List (κ × ν)}
    (habsent : ∀ entry ∈ entries, entry.1 ≠ key) (state : σ) :
    get (runEntries step state entries) = get state := by
  induction entries generalizing state with
  | nil => rfl
  | cons entry rest ih =>
    have hrest := ih (fun other hother ↦ habsent other (List.mem_cons_of_mem _ hother))
      (step state entry.1 entry.2)
    exact hrest.trans (howns.elsewhere state entry.2 (habsent entry (List.mem_cons_self ..)))

theorem run_last (howns : Owns step get key effect) {entries : List (κ × ν)} {value : ν}
    (hlast : LastEntry entries key value) (state : σ) :
    ∃ held, get (runEntries step state entries) = effect held value := by
  obtain ⟨before, after, rfl, hafter⟩ := hlast
  refine ⟨get (runEntries step state before), ?_⟩
  rw [runEntries, List.foldl_append, List.foldl_cons]
  exact (howns.run_absent hafter _).trans (howns.here _ _)

end Owns

/-- A flag beside what a part holds is up exactly when the last value was accepted. -/
theorem Owns.flag_iff {step : σ → κ → ν → σ} [DecidableEq κ] {get : σ → β × Bool} {key : κ}
    {effect : β × Bool → ν → β × Bool} {Accepted : ν → Prop} (howns : Owns step get key effect)
    (haccepted : ∀ held value, (effect held value).2 = true ↔ Accepted value)
    {state : σ} (hstate : (get state).2 = false) (entries : List (κ × ν)) :
    (get (runEntries step state entries)).2 = true ↔
      ∃ value, LastEntry entries key value ∧ Accepted value := by
  obtain ⟨value, hlast⟩ | habsent := exists_lastEntry_or_absent entries key
  · obtain ⟨held, hheld⟩ := howns.run_last hlast state
    rw [hheld, haccepted]
    constructor
    · exact fun hvalue ↦ ⟨value, hlast, hvalue⟩
    · rintro ⟨last, hlast', hvalue⟩
      exact hlast'.unique hlast ▸ hvalue
  · rw [howns.run_absent habsent, hstate]
    refine iff_of_false (by decide) ?_
    rintro ⟨value, ⟨before, after, rfl, -⟩, -⟩
    exact habsent (key, value) (by simp) rfl

end Runs

end LibreSwitch.Library
