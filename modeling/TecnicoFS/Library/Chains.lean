/-
Chains of a relation whose steps carry finitely many labels.

A chain longer than the number of labels repeats one, and where the label of a step
determines its end the chain has entered a cycle.  Where every point has at most one
successor, a chain that reaches a cycle never ends.
-/

import Mathlib.Data.Fintype.Card
import Mathlib.Data.Fintype.Pigeonhole
import Mathlib.Logic.Relation

set_option autoImplicit false

namespace Chains

open Relation

variable {α : Type} {step : α → α → Prop}

/-- A chain of the given number of steps starts here. -/
def Chain (step : α → α → Prop) : Nat → α → Prop
  | 0, _ => True
  | length + 1, start => ∃ next, step start next ∧ Chain step length next

/-- A cycle can be reached from here. -/
def ReachesCycle (step : α → α → Prop) (start : α) : Prop :=
  ∃ point, ReflTransGen step start point ∧ TransGen step point point

theorem Chain.points {length : Nat} {start : α} (chain : Chain step length start) :
    ∃ points : Nat → α, points 0 = start ∧
      ∀ index, index < length → step (points index) (points (index + 1)) := by
  induction length generalizing start with
  | zero => exact ⟨fun _ => start, rfl, fun index impossible => by omega⟩
  | succ length inductionHypothesis =>
      obtain ⟨next, first, rest⟩ := chain
      obtain ⟨points, atZero, steps⟩ := inductionHypothesis rest
      refine ⟨fun index => if index = 0 then start else points (index - 1), rfl, ?_⟩
      intro index below
      cases index with
      | zero =>
          change step start (points 0)
          rw [atZero]
          exact first
      | succ index => exact steps index (by omega)

theorem reaches {points : Nat → α} {length : Nat}
    (steps : ∀ index, index < length → step (points index) (points (index + 1)))
    {first last : Nat} (ordered : first ≤ last) (inside : last ≤ length) :
    ReflTransGen step (points first) (points last) := by
  induction last, ordered using Nat.le_induction with
  | base => exact .refl
  | succ last _ inductionHypothesis =>
      exact (inductionHypothesis (by omega)).tail (steps last (by omega))

/-- A chain longer than the number of labels reaches a cycle. -/
theorem Chain.reachesCycle {labels : Nat} {labelled : Nat → α → Prop}
    (label : ∀ start next, step start next → ∃ index, index < labels ∧ labelled index next)
    (determined : ∀ index left right, labelled index left → labelled index right → left = right)
    {start : α} (chain : Chain step (labels + 1) start) : ReachesCycle step start := by
  obtain ⟨points, atZero, steps⟩ := chain.points
  have labelOf (index : Fin (labels + 1)) :
      ∃ name : Fin labels, labelled name (points (index + 1)) := by
    obtain ⟨name, inside, carries⟩ := label _ _ (steps index index.isLt)
    exact ⟨⟨name, inside⟩, carries⟩
  choose names carried using labelOf
  obtain ⟨left, right, different, same⟩ :=
    Fintype.exists_ne_map_eq_of_card_lt names (by rw [Fintype.card_fin, Fintype.card_fin]; omega)
  have ordered (first second : Fin (labels + 1)) (below : first < second)
      (repeated : names first = names second) : ReachesCycle step start := by
    have equal : points (first + 1) = points (second + 1) := by
      apply determined (names first)
      · exact carried first
      · rw [repeated]
        exact carried second
    have before : (first : Nat) < second := below
    have bound := second.isLt
    refine ⟨points (first + 1), ?_, ?_⟩
    · rw [← atZero]
      exact reaches steps (Nat.zero_le _) (by omega)
    · have back : ReflTransGen step (points (first + 1 + 1)) (points (second + 1)) :=
        reaches steps (by omega) (by omega)
      rw [← equal] at back
      exact TransGen.head' (steps (first + 1) (by omega)) back
  rcases lt_or_gt_of_ne different with below | above
  · exact ordered left right below same
  · exact ordered right left above same.symm

/-- A step added to a relation closes a cycle only when its end led back to its start. -/
theorem not_reachesCycle_of_added {step' : α → α → Prop} {first last : α}
    (added : ∀ left right, step' left right → step left right ∨ left = first ∧ right = last)
    (apart : ¬ ReflTransGen step last first) (acyclic : ∀ start, ¬ ReachesCycle step start)
    (start : α) : ¬ ReachesCycle step' start := by
  have split {left right : α} (path : TransGen step' left right) :
      TransGen step left right ∨ ReflTransGen step left first ∧ ReflTransGen step last right := by
    induction path with
    | single one =>
        rcases added _ _ one with old | ⟨rfl, rfl⟩
        · exact Or.inl (.single old)
        · exact Or.inr ⟨.refl, .refl⟩
    | tail _ one inductionHypothesis =>
        rcases inductionHypothesis with before | ⟨toFirst, fromLast⟩
        · rcases added _ _ one with old | ⟨rfl, rfl⟩
          · exact Or.inl (.tail before old)
          · exact Or.inr ⟨before.to_reflTransGen, .refl⟩
        · rcases added _ _ one with old | ⟨rfl, rfl⟩
          · exact Or.inr ⟨toFirst, .tail fromLast old⟩
          · exact (apart fromLast).elim
  rintro ⟨point, _, around⟩
  rcases split around with cycle | ⟨toFirst, fromLast⟩
  · exact acyclic point ⟨point, .refl, cycle⟩
  · exact apart (fromLast.trans toFirst)

/-- Where successors are unique, every point reached on the way into a cycle has one. -/
theorem ReachesCycle.continues (unique : Relator.RightUnique step) {start point : α}
    (cyclic : ReachesCycle step start) (reached : ReflTransGen step start point) :
    ∃ next, step point next := by
  obtain ⟨base, toBase, around⟩ := cyclic
  have returns {other : α} (later : ReflTransGen step base other) : TransGen step other base := by
    induction later with
    | refl => exact around
    | tail _ last inductionHypothesis =>
        obtain ⟨next, first, rest⟩ := TransGen.head'_iff.mp inductionHypothesis
        rw [unique last first]
        exact TransGen.trans_right rest around
  have onward : TransGen step point base := by
    rcases ReflTransGen.total_of_right_unique unique toBase reached with later | earlier
    · exact returns later
    · exact TransGen.trans_right earlier around
  obtain ⟨next, first, _⟩ := TransGen.head'_iff.mp onward
  exact ⟨next, first⟩

end Chains
