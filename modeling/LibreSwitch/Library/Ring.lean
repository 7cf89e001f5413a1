import Mathlib.Logic.Function.Basic
import Mathlib.Tactic.Common

/-!
# Rings of slots

A ring keeps the most recent values of a log in a fixed number of slots: a new value goes into the
slot at the head, and the head moves on by one. `slotBefore` is the slot a number of places behind
the head, and `Keeps` says that the values of a log stand behind the head, the most recent first, to
a given depth.

The slot at the head is also the one a whole turn behind it. So a value that was written while the
head has not moved costs the last place of a full turn and no other (`Keeps.write`), and moving the
head over it makes the turn full again (`Keeps.advance`).
-/

set_option autoImplicit false
set_option relaxedAutoImplicit false

namespace LibreSwitch.Library.Ring

/-- The slot some places behind the head: 0 is the slot in front of which the head stands. -/
def slotBefore (size head place : ℕ) : ℕ := (head + size - 1 - place) % size

section Slots

variable {size head place : ℕ}

theorem slotBefore_lt (hhead : head < size) : slotBefore size head place < size :=
  Nat.mod_lt _ (by omega)

/-- Short of a whole turn, no place is at the head. -/
theorem slotBefore_ne_head (hhead : head < size) (hplace : place + 1 < size) :
    slotBefore size head place ≠ head := by
  unfold slotBefore
  by_cases hwrap : place < head
  · have hsplit : head + size - 1 - place = (head - 1 - place) + size := by omega
    rw [hsplit, Nat.add_mod_right, Nat.mod_eq_of_lt (by omega)]
    omega
  · rw [Nat.mod_eq_of_lt (by omega)]
    omega

theorem advance_eq (hhead : head < size) :
    (head + 1) % size = if head + 1 = size then 0 else head + 1 := by
  split_ifs with hlast
  · rw [hlast, Nat.mod_self]
  · exact Nat.mod_eq_of_lt (by omega)

/-- Where the head was is the first place behind it. -/
theorem slotBefore_advance_zero (hhead : head < size) :
    slotBefore size ((head + 1) % size) 0 = head := by
  unfold slotBefore
  rw [advance_eq hhead]
  split_ifs with hlast
  · rw [Nat.mod_eq_of_lt (by omega)]
    omega
  · have hsplit : head + 1 + size - 1 - 0 = head + size := by omega
    rw [hsplit, Nat.add_mod_right, Nat.mod_eq_of_lt hhead]

/-- What was some places behind the head is one place further behind it. -/
theorem slotBefore_advance_succ (hhead : head < size) (hplace : place + 1 < size) :
    slotBefore size ((head + 1) % size) (place + 1) = slotBefore size head place := by
  unfold slotBefore
  rw [advance_eq hhead]
  split_ifs with hlast
  · have hfirst : 0 + size - 1 - (place + 1) = head - 1 - place := by omega
    have hsecond : head + size - 1 - place = (head - 1 - place) + size := by omega
    rw [hfirst, hsecond, Nat.add_mod_right]
  · have hsame : head + 1 + size - 1 - (place + 1) = head + size - 1 - place := by omega
    rw [hsame]

end Slots

section Keeps

variable {α : Type} {size head depth : ℕ} {cells : ℕ → Option α} {log : List α}

/-- The most recent values of a log stand behind the head, to a given depth. -/
def Keeps (size head depth : ℕ) (cells : ℕ → Option α) (log : List α) : Prop :=
  ∀ place < depth, ∀ value, log[place]? = some value →
    cells (slotBefore size head place) = some value

theorem Keeps.mono {depth' : ℕ} (hkeeps : Keeps size head depth cells log) (hle : depth' ≤ depth) :
    Keeps size head depth' cells log :=
  fun place hplace ↦ hkeeps place (Nat.lt_of_lt_of_le hplace hle)

/-- The slots of a ring are all that it keeps its values in. -/
theorem Keeps.congr {cells' : ℕ → Option α} (hkeeps : Keeps size head depth cells log)
    (hhead : head < size) (hsame : ∀ slot < size, cells' slot = cells slot) :
    Keeps size head depth cells' log := by
  intro place hplace value hvalue
  rw [hsame _ (slotBefore_lt hhead)]
  exact hkeeps place hplace value hvalue

/-- A write at the head costs the last place of a full turn and no other. -/
theorem Keeps.write {cells' : ℕ → Option α} (hkeeps : Keeps size head (size - 1) cells log)
    (hhead : head < size) (hframe : ∀ slot < size, slot ≠ head → cells' slot = cells slot) :
    Keeps size head (size - 1) cells' log := by
  intro place hplace value hvalue
  rw [hframe _ (slotBefore_lt hhead) (slotBefore_ne_head hhead (by omega))]
  exact hkeeps place hplace value hvalue

/-- Moving the head over the value written there makes the turn full again. -/
theorem Keeps.advance {newest : α} (hkeeps : Keeps size head (size - 1) cells log)
    (hhead : head < size) (hnewest : cells head = some newest) :
    Keeps size ((head + 1) % size) size cells (newest :: log) := by
  intro place hplace value hvalue
  cases place with
  | zero =>
    rw [List.getElem?_cons_zero] at hvalue
    rw [slotBefore_advance_zero hhead, hnewest, hvalue]
  | succ place =>
    rw [List.getElem?_cons_succ] at hvalue
    rw [slotBefore_advance_succ hhead hplace]
    exact hkeeps place (by omega) value hvalue

/-- The values that are kept, read off the slots in order. -/
theorem Keeps.cells_eq (hkeeps : Keeps size head depth cells log) {place : ℕ}
    (hplace : place < min log.length depth) :
    cells (slotBefore size head place) = log[place]? := by
  obtain ⟨hlog, hdepth⟩ := Nat.lt_min.mp hplace
  rw [List.getElem?_eq_getElem hlog]
  exact hkeeps place hdepth _ (List.getElem?_eq_getElem hlog)

end Keeps

end LibreSwitch.Library.Ring
