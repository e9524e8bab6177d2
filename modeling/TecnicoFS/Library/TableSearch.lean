/-
First-fit search and counting over the slots of a fixed table.

A table is a function on slot numbers with a separate size.  `firstSlot` is the
lowest slot that passes a test, and `Nat.count` is the number of slots that do.
-/

import Mathlib.Data.Nat.Count
import Mathlib.Logic.Function.Basic

set_option autoImplicit false

namespace TableSearch

/-- The lowest slot below `size` that passes the test. -/
def firstSlot (size : Nat) (test : Nat → Bool) : Option Nat :=
  (List.range size).find? test

theorem firstSlot_eq_some {size slot : Nat} {test : Nat → Bool} :
    firstSlot size test = some slot ↔
      test slot = true ∧ slot < size ∧ ∀ earlier, earlier < slot → test earlier = false := by
  rw [firstSlot, List.find?_range_eq_some, List.mem_range]
  constructor
  · rintro ⟨found, inside, before⟩
    exact ⟨found, inside, fun earlier lower => by simpa using before earlier lower⟩
  · rintro ⟨found, inside, before⟩
    exact ⟨found, inside, fun earlier lower => by simpa using before earlier lower⟩

theorem firstSlot_eq_none {size : Nat} {test : Nat → Bool} :
    firstSlot size test = none ↔ ∀ slot, slot < size → test slot = false := by
  rw [firstSlot, List.find?_range_eq_none]
  constructor
  · intro absent slot inside
    simpa using absent slot inside
  · intro absent slot inside
    simpa using absent slot inside

/-- What holds of the slot a search found, or of a search that found none -/
def Found (present : Nat → Prop) (absent : Prop) : Option Nat → Prop
  | some slot => present slot
  | none => absent

/-- A slot that passes and has no passing slot before it is the one found. -/
theorem firstSlot_of_unique {size slot : Nat} {test : Nat → Bool} (inside : slot < size)
    (passes : test slot = true)
    (only : ∀ other, other < size → test other = true → other = slot) :
    firstSlot size test = some slot := by
  rw [firstSlot_eq_some]
  refine ⟨passes, inside, ?_⟩
  intro earlier lower
  cases found : test earlier with
  | false => rfl
  | true =>
      have same := only earlier (by omega) found
      omega

/-- Every slot is in use, or there is a first one that is not. -/
theorem all_or_first {α : Type} (size : Nat) (table : Nat → α) (used : α) :
    (∀ slot, slot < size → table slot = used) ∨ ∃ slot, slot < size ∧ table slot ≠ used ∧
      ∀ earlier, earlier < slot → table earlier = used := by
  by_cases full : ∀ slot, slot < size → table slot = used
  · exact Or.inl full
  · push Not at full
    classical
    obtain ⟨slot, ⟨inside, unused⟩, least⟩ := Nat.findX full
    refine Or.inr ⟨slot, inside, unused, ?_⟩
    intro earlier lower
    by_contra other
    exact least earlier lower ⟨Nat.lt_trans lower inside, other⟩

theorem first_unique {α : Type} {table : Nat → α} {used : α} {left right : Nat}
    (leftUnused : table left ≠ used) (leftFirst : ∀ earlier, earlier < left → table earlier = used)
    (rightUnused : table right ≠ used)
    (rightFirst : ∀ earlier, earlier < right → table earlier = used) : left = right := by
  rcases Nat.lt_trichotomy left right with lower | same | upper
  · exact (leftUnused (rightFirst left lower)).elim
  · exact same
  · exact (rightUnused (leftFirst right upper)).elim

/-- The search depends on the tested slots only. -/
theorem firstSlot_congr {size : Nat} {left right : Nat → Bool}
    (same : ∀ slot, slot < size → left slot = right slot) :
    firstSlot size left = firstSlot size right := by
  cases found : firstSlot size right with
  | none =>
      rw [firstSlot_eq_none] at found ⊢
      intro slot inside
      rw [same slot inside, found slot inside]
  | some slot =>
      rw [firstSlot_eq_some] at found ⊢
      obtain ⟨passes, inside, before⟩ := found
      refine ⟨by rw [same slot inside, passes], inside, ?_⟩
      intro earlier lower
      rw [same earlier (by omega), before earlier lower]

/-! ### Counting -/

theorem count_congr {size : Nat} {left right : Nat → Prop} [DecidablePred left]
    [DecidablePred right] (same : ∀ slot, slot < size → (left slot ↔ right slot)) :
    Nat.count left size = Nat.count right size := by
  apply Nat.le_antisymm
  · exact Nat.count_mono_left (fun slot inside => (same slot inside).mp)
  · exact Nat.count_mono_left (fun slot inside => (same slot inside).mpr)

/-- Turning one slot from failing to passing raises the count by one. -/
theorem count_insert {size slot : Nat} {before after : Nat → Prop} [DecidablePred before]
    [DecidablePred after] (inside : slot < size) (absent : ¬ before slot) (present : after slot)
    (same : ∀ other, other < size → other ≠ slot → (after other ↔ before other)) :
    Nat.count after size = Nat.count before size + 1 := by
  induction size with
  | zero => cases inside
  | succ size ih =>
      rw [Nat.count_succ, Nat.count_succ]
      by_cases last : slot = size
      · subst slot
        have rest : Nat.count after size = Nat.count before size :=
          count_congr (fun other lower => same other (by omega) (by omega))
        rw [rest, if_pos present, if_neg absent]
      · have rest := ih (by omega) (fun other lower => same other (by omega))
        have atLast := same size (by omega) (fun equal => last equal.symm)
        rw [rest]
        by_cases passes : before size
        · rw [if_pos (atLast.mpr passes), if_pos passes]
        · rw [if_neg (fun holds => passes (atLast.mp holds)), if_neg passes]

theorem count_pos {size slot : Nat} {test : Nat → Prop} [DecidablePred test]
    (inside : slot < size) (passes : test slot) : 0 < Nat.count test size :=
  Nat.pos_of_ne_zero (Nat.count_ne_iff_exists.mpr ⟨slot, inside, passes⟩)

end TableSearch
