/-
Insertion into a sorted list from its right end.

The new element goes behind the last element that is not above it.
-/

import Mathlib.Data.List.DropRight

set_option autoImplicit false

namespace SortedInsertion

variable {α : Type} {above : α → α → Bool} {list : List α} {new : α}

/-- Nothing stands in front of an element it is above of. -/
def Sorted (above : α → α → Bool) (list : List α) : Prop :=
  list.Pairwise (fun left right => above left right = false)

def insertRight (above : α → α → Bool) (list : List α) (new : α) : List α :=
  list.rdropWhile (fun old => above old new) ++
    new :: list.rtakeWhile (fun old => above old new)

theorem insertRight_nil : insertRight above [] new = [new] := rfl

theorem insertRight_above {last : α} (passed : above last new = true) :
    insertRight above (list ++ [last]) new = insertRight above list new ++ [last] := by
  unfold insertRight
  rw [List.rdropWhile_concat_pos (fun old => above old new) _ _ passed,
    List.rtakeWhile_concat_pos (fun old => above old new) _ _ passed, List.append_assoc]
  rfl

theorem insertRight_below {last : α} (stops : above last new = false) :
    insertRight above (list ++ [last]) new = list ++ [last] ++ [new] := by
  have fails : ¬ above last new = true := by
    rw [stops]
    exact Bool.false_ne_true
  unfold insertRight
  rw [List.rdropWhile_concat_neg (fun old => above old new) _ _ fails,
    List.rtakeWhile_concat_neg (fun old => above old new) _ _ fails]

theorem insertRight_perm : (insertRight above list new).Perm (new :: list) := by
  have parts : list.rdropWhile (fun old => above old new) ++
      list.rtakeWhile (fun old => above old new) = list := List.rdropWhile_append_rtakeWhile
  unfold insertRight
  exact List.perm_middle.trans (List.Perm.cons new (List.Perm.of_eq parts))

theorem mem_insertRight {other : α} :
    other ∈ insertRight above list new ↔ other = new ∨ other ∈ list := by
  rw [insertRight_perm.mem_iff, List.mem_cons]

/-- An order that compares any two elements keeps a sorted list sorted. -/
theorem Sorted.insertRight (sorted : Sorted above list)
    (total : ∀ left right, above left right = true → above right left = false)
    (trans : ∀ left middle right, above left middle = false → above middle right = false →
      above left right = false) : Sorted above (insertRight above list new) := by
  induction list using List.reverseRecOn with
  | nil => exact List.pairwise_singleton _ _
  | append_singleton list last inductionHypothesis =>
      obtain ⟨front, _, before⟩ := List.pairwise_append.mp sorted
      have beforeLast (old : α) (member : old ∈ list) : above old last = false :=
        before old member last (List.mem_singleton_self last)
      cases passed : above last new with
      | true =>
          rw [insertRight_above passed]
          refine List.pairwise_append.mpr
            ⟨inductionHypothesis front, List.pairwise_singleton _ _, ?_⟩
          intro old member other same
          rw [List.mem_singleton] at same
          subst same
          rcases mem_insertRight.mp member with isNew | inside
          · rw [isNew]
            exact total _ _ passed
          · exact beforeLast old inside
      | false =>
          rw [insertRight_below passed]
          refine List.pairwise_append.mpr ⟨sorted, List.pairwise_singleton _ _, ?_⟩
          intro old member other same
          rw [List.mem_singleton] at same
          subst same
          rcases List.mem_append.mp member with inside | isLast
          · exact trans _ _ _ (beforeLast old inside) passed
          · rw [List.mem_singleton] at isLast
            rw [isLast]
            exact passed

/-! ### Insertion sort -/

theorem foldl_insertRight_perm (news : List α) :
    (news.foldl (insertRight above) list).Perm (list ++ news) := by
  induction news generalizing list with
  | nil => exact List.Perm.of_eq (List.append_nil list).symm
  | cons new news inductionHypothesis =>
      rw [List.foldl_cons]
      refine inductionHypothesis.trans ?_
      exact (insertRight_perm.append_right news).trans List.perm_middle.symm

theorem Sorted.foldl_insertRight (sorted : Sorted above list)
    (total : ∀ left right, above left right = true → above right left = false)
    (trans : ∀ left middle right, above left middle = false → above middle right = false →
      above left right = false) (news : List α) :
    Sorted above (news.foldl (SortedInsertion.insertRight above) list) := by
  induction news generalizing list with
  | nil => exact sorted
  | cons new news inductionHypothesis =>
      rw [List.foldl_cons]
      exact inductionHypothesis (sorted.insertRight total trans)

end SortedInsertion
