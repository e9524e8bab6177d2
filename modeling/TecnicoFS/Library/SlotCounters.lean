/-
64-bit counters of the threads that are registered at the slots of a table.

Each thread is registered at one slot at most.  A counter is exact when it is the number
of the threads registered at its slot; entering and leaving keep it exact, and it never
wraps around while there are fewer threads than counter values.
-/

import Mathlib.Algebra.Group.Nat.Defs
import Mathlib.Data.Fintype.Card
import Mathlib.Data.Finset.Card
import Mathlib.Logic.Function.Basic

set_option autoImplicit false

namespace SlotCounters

variable {Thread Slot : Type} [Fintype Thread] [DecidableEq Slot] {thread : Thread}

section Count

variable {slots : Thread → Option Slot} {slot : Slot}

/-- The number of threads registered at the slot -/
def countAt (slots : Thread → Option Slot) (slot : Slot) : Nat :=
  (Finset.univ.filter (fun thread => slots thread = some slot)).card

theorem countAt_le (slots : Thread → Option Slot) (slot : Slot) :
    countAt slots slot ≤ Fintype.card Thread := Finset.card_le_univ _

theorem countAt_pos (registered : slots thread = some slot) :
    0 < countAt slots slot := by
  apply Finset.card_pos.mpr
  exact ⟨thread, Finset.mem_filter.mpr ⟨Finset.mem_univ _, registered⟩⟩

theorem countAt_eq_zero (nobody : ∀ thread, slots thread ≠ some slot) :
    countAt slots slot = 0 := by
  apply Finset.card_eq_zero.mpr
  apply Finset.filter_eq_empty_iff.mpr
  intro thread _
  exact nobody thread

/-- At most one registered thread is the only one. -/
theorem countAt_unique {left right : Thread} (one : countAt slots slot ≤ 1)
    (leftAt : slots left = some slot) (rightAt : slots right = some slot) : left = right := by
  apply Finset.card_le_one.mp one
  · exact Finset.mem_filter.mpr ⟨Finset.mem_univ _, leftAt⟩
  · exact Finset.mem_filter.mpr ⟨Finset.mem_univ _, rightAt⟩

variable [DecidableEq Thread]

theorem countAt_enter (outside : slots thread = none) (other : Slot) :
    countAt (Function.update slots thread (some slot)) other =
      countAt slots other + if other = slot then 1 else 0 := by
  unfold countAt
  by_cases same : other = slot
  · subst other
    rw [if_pos rfl]
    have absent : thread ∉ Finset.univ.filter (fun thread => slots thread = some slot) := by
      intro member
      rw [Finset.mem_filter, outside] at member
      cases member.2
    rw [← Finset.card_insert_of_notMem absent]
    congr 1
    ext worker
    rw [Finset.mem_filter, Finset.mem_insert, Finset.mem_filter, Function.update_apply]
    by_cases moved : worker = thread <;> simp [moved]
  · rw [if_neg same, Nat.add_zero]
    congr 1
    ext worker
    rw [Finset.mem_filter, Finset.mem_filter, Function.update_apply]
    by_cases moved : worker = thread
    · subst worker
      simp [outside, Ne.symm same]
    · simp [moved]

theorem countAt_leave (inside : slots thread = some slot) (other : Slot) :
    countAt slots other =
      countAt (Function.update slots thread none) other + if other = slot then 1 else 0 := by
  have entered : countAt
      (Function.update (Function.update slots thread none) thread (some slot)) other = _ :=
    countAt_enter (Function.update_self _ _ _) other
  rw [Function.update_idem, ← inside, Function.update_eq_self] at entered
  exact entered

/-- What a thread that changes its slot does to the numbers -/
theorem countAt_update (thread : Thread) (next : Option Slot) (slot : Slot) :
    countAt (Function.update slots thread next) slot + (if slots thread = some slot then 1 else 0) =
      countAt slots slot + if next = some slot then 1 else 0 := by
  have removed : countAt slots slot = countAt (Function.update slots thread none) slot +
      if slots thread = some slot then 1 else 0 := by
    cases inside : slots thread with
    | none =>
        rw [← inside, Function.update_eq_self, inside]
        rfl
    | some place =>
        simp only [countAt_leave inside slot, Option.some.injEq, eq_comm]
  have added : countAt (Function.update slots thread next) slot =
      countAt (Function.update slots thread none) slot + if next = some slot then 1 else 0 := by
    cases next with
    | none => rfl
    | some place =>
        have entered : countAt (Function.update (Function.update slots thread none) thread
            (some place)) slot = _ := countAt_enter (Function.update_self thread none slots) slot
        rw [Function.update_idem] at entered
        simp only [entered, Option.some.injEq, eq_comm]
  omega

end Count

/-! ### Exact counters -/

variable {slots : Thread → Option Nat}

/-- What one thread does to the counters, with its slot before and after -/
inductive Step (counters counters' : Nat → UInt64) : Option Nat → Option Nat → Prop where
  | same {slot : Option Nat} : (∀ other, counters' other = counters other) →
      Step counters counters' slot slot
  | enters {slot : Nat} : counters' slot = counters slot + 1 →
      (∀ other, other ≠ slot → counters' other = counters other) →
      Step counters counters' none (some slot)
  | leaves {slot : Nat} : counters' slot = counters slot - 1 →
      (∀ other, other ≠ slot → counters' other = counters other) →
      Step counters counters' (some slot) none

/-- The counters of the slots in use are exact, and nobody is registered elsewhere. -/
structure Exact (counters : Nat → UInt64) (slots : Thread → Option Nat) (used : Nat → Prop) :
    Prop where
  exact : ∀ slot, used slot → (counters slot).toNat = countAt slots slot
  inside : ∀ thread slot, slots thread = some slot → used slot

variable {counters counters' : Nat → UInt64} {used used' : Nat → Prop}

/-- A slot that nobody used before starts with a zero counter. -/
theorem Exact.use (exact : Exact counters slots used) {slot : Nat} (zero : counters slot = 0)
    (same : ∀ other, other ≠ slot → (used' other ↔ used other)) (inUse : used' slot) :
    Exact counters slots used' := by
  constructor
  · intro other usedOther
    by_cases new : other = slot
    · subst other
      by_cases old : used slot
      · exact exact.exact slot old
      · rw [zero]
        refine (countAt_eq_zero ?_).symm
        intro thread registered
        exact old (exact.inside thread slot registered)
    · exact exact.exact other ((same other new).mp usedOther)
  · intro thread other registered
    by_cases new : other = slot
    · subst other
      exact inUse
    · exact (same other new).mpr (exact.inside thread other registered)

theorem Exact.zero (exact : Exact counters slots used) {slot : Nat} (inUse : used slot) :
    counters slot = 0 ↔ countAt slots slot = 0 := by
  rw [← exact.exact slot inUse]
  constructor
  · intro zero
    rw [zero]
    rfl
  · intro zero
    exact UInt64.toNat_inj.mp zero

/-- A counter that counts a registered thread is positive. -/
theorem Exact.pos (exact : Exact counters slots used) {slot : Nat}
    (registered : slots thread = some slot) : 0 < counters slot := by
  have counted := countAt_pos registered
  rw [← exact.exact slot (exact.inside thread slot registered)] at counted
  exact UInt64.lt_iff_toNat_lt.mpr counted

/-! ### Steps -/

variable [DecidableEq Thread]

theorem Exact.step (exact : Exact counters slots used) {slot slot' : Option Nat}
    (few : Fintype.card Thread < 2 ^ 63) (at_ : slots thread = slot)
    (step : Step counters counters' slot slot')
    (inside : ∀ place, slot' = some place → used place) :
    Exact counters' (Function.update slots thread slot') used := by
  have inside' (worker : Thread) (place : Nat)
      (registered : Function.update slots thread slot' worker = some place) : used place := by
    rw [Function.update_apply] at registered
    by_cases moved : worker = thread
    · rw [if_pos moved] at registered
      exact inside place registered
    · rw [if_neg moved] at registered
      exact exact.inside worker place registered
  refine ⟨?_, inside'⟩
  intro other usedOther
  have counted := exact.exact other usedOther
  have bounded := countAt_le slots other
  cases step with
  | same kept =>
      rw [kept, counted, ← at_, Function.update_eq_self]
  | @enters place raised kept =>
      rw [countAt_enter at_]
      by_cases same : other = place
      · subst other
        rw [if_pos rfl, raised, UInt64.toNat_add, counted]
        change (countAt slots place + 1) % 2 ^ 64 = _
        omega
      · rw [if_neg same, kept other same, counted]
        rfl
  | @leaves place lowered kept =>
      have left := countAt_leave at_ other
      by_cases same : other = place
      · subst other
        rw [if_pos rfl] at left
        have positive : (1 : UInt64) ≤ counters place := by
          rw [UInt64.le_iff_toNat_le, counted]
          change 1 ≤ _
          omega
        rw [lowered, UInt64.toNat_sub_of_le _ _ positive, counted]
        change countAt slots place - 1 = _
        omega
      · rw [if_neg same] at left
        rw [kept other same, counted, left]
        rfl

/-- Threads that only enter where the counter is zero stay alone. -/
theorem Exact.step_single (exact : Exact counters slots used) {slot slot' : Option Nat}
    (at_ : slots thread = slot) (step : Step counters counters' slot slot')
    (vacant : ∀ place, slot = none → slot' = some place → counters place = 0)
    (inside : ∀ place, slot' = some place → used place)
    (single : ∀ place, countAt slots place ≤ 1) (place : Nat) :
    countAt (Function.update slots thread slot') place ≤ 1 := by
  cases step with
  | same _ =>
      rw [← at_, Function.update_eq_self]
      exact single place
  | @enters entered _ _ =>
      rw [countAt_enter at_]
      by_cases same : place = entered
      · subst place
        rw [if_pos rfl, (exact.zero (inside _ rfl)).mp (vacant _ rfl rfl)]
      · rw [if_neg same]
        exact single place
  | leaves _ _ =>
      have left := countAt_leave at_ place
      have before := single place
      omega

end SlotCounters
