/-
Bounded first-in first-out queues and the circular buffers that hold them.

The abstract queue is a list with a capacity; a history of operations runs from one
list to another.  A circular buffer is a function of cells with the position of its
first element and a count.
-/

import Mathlib.Data.List.Range
import Mathlib.Data.Nat.ModEq

set_option autoImplicit false

namespace CircularBuffer

variable {α : Type}

/-! ### The abstract queue -/

/-- One completed operation with the element it moved -/
inductive Operation (α : Type) where
  | enqueue (elem : α)
  | dequeue (elem : α)
deriving DecidableEq

/-- A history of operations leaves the elements that were enqueued and not dequeued. -/
inductive History (capacity : Nat) : List (Operation α) → List α → Prop where
  | start : History capacity [] []
  | enqueue {history : List (Operation α)} {elements : List α} {elem : α} :
      History capacity history elements → elements.length < capacity →
      History capacity (history ++ [.enqueue elem]) (elements ++ [elem])
  | dequeue {history : List (Operation α)} {elements : List α} {elem : α} :
      History capacity history (elem :: elements) →
      History capacity (history ++ [.dequeue elem]) elements

theorem History.length_le {capacity : Nat} {history : List (Operation α)} {elements : List α}
    (run : History capacity history elements) : elements.length ≤ capacity := by
  induction run with
  | start => exact Nat.zero_le _
  | enqueue _ room _ =>
      rw [List.length_append, List.length_singleton]
      exact room
  | dequeue _ inductionHypothesis =>
      rw [List.length_cons] at inductionHypothesis
      exact Nat.le_of_succ_le inductionHypothesis

/-- The elements of the buffer from its first one on -/
def contents (capacity : Nat) (cells : Nat → α) (head size : Nat) : List α :=
  (List.range size).map (fun index => cells ((head + index) % capacity))

variable {capacity head size : Nat} {cells : Nat → α}

@[simp] theorem contents_length : (contents capacity cells head size).length = size := by
  simp [contents]

/-- Two positions less than a capacity apart are different cells. -/
theorem cell_ne {index : Nat} (inside : index < size) (room : size < capacity) :
    (head + index) % capacity ≠ (head + size) % capacity := by
  intro same
  have congruent : index ≡ size [MOD capacity] := Nat.ModEq.add_left_cancel' head same
  have equal := Nat.ModEq.eq_of_lt_of_lt congruent (Nat.lt_trans inside room) room
  omega

/-- A store behind the last element is not an element yet. -/
theorem contents_update (room : size < capacity) (elem : α) :
    contents capacity (Function.update cells ((head + size) % capacity) elem) head size =
      contents capacity cells head size := by
  unfold contents
  apply List.map_congr_left
  intro index member
  exact Function.update_of_ne (cell_ne (List.mem_range.mp member) room) _ _

theorem contents_succ :
    contents capacity cells head (size + 1) =
      contents capacity cells head size ++ [cells ((head + size) % capacity)] := by
  simp [contents, List.range_succ]

/-- The first element and the buffer that starts behind it -/
theorem contents_cons (positive : 0 < size) :
    contents capacity cells head size =
      cells (head % capacity) :: contents capacity cells ((head + 1) % capacity) (size - 1) := by
  obtain ⟨rest, rfl⟩ : ∃ rest, size = rest + 1 := ⟨size - 1, by omega⟩
  unfold contents
  rw [List.range_succ_eq_map, List.map_cons, List.map_map, Nat.add_zero, Nat.add_sub_cancel]
  congr 1
  apply List.map_congr_left
  intro index _
  simp only [Function.comp_apply, Nat.mod_add_mod]
  congr 2
  omega

end CircularBuffer
