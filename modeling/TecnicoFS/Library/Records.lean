/-
Records of one width, stored one after the other.
-/

import Mathlib.Data.List.Basic

set_option autoImplicit false

namespace Records

variable {α : Type} {width : Nat} {records : List (List α)}

def Uniform (width : Nat) (records : List (List α)) : Prop :=
  ∀ record, record ∈ records → record.length = width

theorem Uniform.tail {record : List α} (uniform : Uniform width (record :: records)) :
    Uniform width records :=
  fun other member => uniform other (List.mem_cons_of_mem _ member)

theorem flatten_length (uniform : Uniform width records) :
    records.flatten.length = width * records.length := by
  induction records with
  | nil => rfl
  | cons record rest inductionHypothesis =>
      rw [List.flatten_cons, List.length_append, inductionHypothesis uniform.tail,
        uniform record List.mem_cons_self, List.length_cons, Nat.mul_succ, Nat.add_comm]

/-- The bytes at the place of a record are the record. -/
theorem flatten_read (uniform : Uniform width records) {record : List α} {index : Nat}
    (stored : records[index]? = some record) :
    (records.flatten.drop (width * index)).take width = record := by
  induction records generalizing index with
  | nil => cases stored
  | cons first rest inductionHypothesis =>
      have whole : first.length = width := uniform first List.mem_cons_self
      cases index with
      | zero =>
          rw [List.getElem?_cons_zero] at stored
          cases stored
          rw [Nat.mul_zero, List.drop_zero, List.flatten_cons, ← whole, List.take_left]
      | succ index =>
          rw [List.getElem?_cons_succ] at stored
          have place : width * (index + 1) = first.length + width * index := by
            rw [whole, Nat.mul_succ, Nat.add_comm]
          rw [List.flatten_cons, place, List.drop_append, List.drop_of_length_le (by omega),
            List.nil_append, Nat.add_sub_cancel_left]
          exact inductionHypothesis uniform.tail stored

end Records
