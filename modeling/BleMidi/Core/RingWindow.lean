/- Module: BleMidi/Core/RingWindow
   digest: The slots in use of a ring as a list that grows at its end and shrinks at its head. -/

import Mathlib.Data.List.Range
import Mathlib.Data.Fin.Basic
import Mathlib.Data.Nat.ModEq
import Mathlib.Logic.Function.Basic

set_option autoImplicit false
set_option relaxedAutoImplicit false

namespace BleMidi.Core.RingWindow

variable {α : Type*} {size : Nat} [NeZero size]

/-- The slot `i` places behind the first one. -/
def slot (size : Nat) [NeZero size] (first i : Nat) : Fin size := Fin.ofNat size (first + i)

/-- The contents of `count` slots from the first one on. -/
def window (ring : Fin size → α) (first count : Nat) : List α :=
  (List.range count).map fun i => ring (slot size first i)

@[simp] theorem window_zero (ring : Fin size → α) (first : Nat) : window ring first 0 = [] := rfl

@[simp] theorem length_window (ring : Fin size → α) (first count : Nat) :
    (window ring first count).length = count := by
  simp [window]

theorem window_succ (ring : Fin size → α) (first count : Nat) :
    window ring first (count + 1) = window ring first count ++ [ring (slot size first count)] := by
  simp [window, List.range_succ]

theorem slot_val (first i : Nat) : (slot size first i).val = (first + i) % size := rfl

/-- Two slots less than a full turn apart are different. -/
theorem slot_ne {first i j : Nat} (hi : i < size) (hj : j < size) (hij : i ≠ j) :
    slot size first i ≠ slot size first j := by
  intro same
  have residues : (first + i) % size = (first + j) % size := congrArg Fin.val same
  have equal : i % size = j % size := Nat.ModEq.add_left_cancel' first residues
  rw [Nat.mod_eq_of_lt hi, Nat.mod_eq_of_lt hj] at equal
  exact hij equal

/-- A slot outside the window can change without the window changing. -/
theorem window_update {ring : Fin size → α} {first count i : Nat} (hcount : count ≤ i)
    (hi : i < size) (a : α) :
    window (Function.update ring (slot size first i) a) first count = window ring first count := by
  unfold window
  apply List.map_congr_left
  intro j hj
  have before : j < count := List.mem_range.mp hj
  exact Function.update_of_ne (slot_ne (by omega) hi (by omega)) _ _

theorem slot_succ (first i : Nat) :
    slot size ((first + 1) % size) i = slot size first (i + 1) := by
  apply Fin.ext
  rw [slot_val, slot_val, Nat.mod_add_mod]
  congr 1
  omega

/-- The window without its first entry starts one slot further on. -/
theorem window_pop (ring : Fin size → α) (first count : Nat) :
    window ring first (count + 1) =
      ring (slot size first 0) :: window ring ((first + 1) % size) count := by
  unfold window
  rw [List.range_succ_eq_map, List.map_cons, List.map_map]
  refine congrArg (ring (slot size first 0) :: ·) (List.map_congr_left fun i _ => ?_)
  exact congrArg ring (slot_succ first i).symm

/-- Clearing the slot that was popped leaves the rest of the window alone. -/
theorem window_pop_update {ring : Fin size → α} {first count : Nat} (hcount : count < size)
    (a : α) :
    window (Function.update ring (slot size first 0) a) ((first + 1) % size) count =
      window ring ((first + 1) % size) count := by
  unfold window
  apply List.map_congr_left
  intro i hi
  have inside : i < count := List.mem_range.mp hi
  rw [slot_succ]
  exact Function.update_of_ne (slot_ne (by omega) (by omega) (by omega)) _ _

/-- One turn further on is the same slot. -/
theorem slot_turn (first : Nat) : slot size first size = slot size first 0 := by
  apply Fin.ext
  rw [slot_val, slot_val, Nat.add_mod_right, Nat.add_zero]

theorem mem_window {ring : Fin size → α} {first count : Nat} {a : α}
    (h : a ∈ window ring first count) : ∃ i, a = ring i := by
  obtain ⟨i, -, rfl⟩ := List.mem_map.mp h
  exact ⟨slot size first i, rfl⟩

end BleMidi.Core.RingWindow
