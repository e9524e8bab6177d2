/-
Locks that are taken in the order of their ranks.

A thread that holds locks waits only for one of a higher rank.  Then no set of threads
waits for locks that threads of the set hold: following the waits would climb the ranks
for ever.
-/

import Mathlib.Data.Set.Basic

set_option autoImplicit false

namespace LockOrder

variable {Thread Lock : Type} {rank : Lock → Nat} {holds waits : Thread → Lock → Prop}
  {threads : Set Thread}

/-- A thread waits only for locks above those it holds. -/
def Climbs (rank : Lock → Nat) (holds waits : Thread → Lock → Prop) : Prop :=
  ∀ thread held lock, holds thread held → waits thread lock → rank held < rank lock

/-- Every thread of the set waits for a lock that a thread of the set holds. -/
def Deadlocked (holds waits : Thread → Lock → Prop) (threads : Set Thread) : Prop :=
  ∀ thread ∈ threads, ∃ lock, waits thread lock ∧ ∃ holder ∈ threads, holds holder lock

/-- A deadlock holds locks of any rank. -/
theorem Deadlocked.climbs (deadlocked : Deadlocked holds waits threads)
    (ordered : Climbs rank holds waits) {thread : Thread} (member : thread ∈ threads)
    (height : Nat) : ∃ holder ∈ threads, ∃ lock, holds holder lock ∧ height ≤ rank lock := by
  induction height with
  | zero =>
      obtain ⟨lock, _, holder, inside, held⟩ := deadlocked thread member
      exact ⟨holder, inside, lock, held, Nat.zero_le _⟩
  | succ height inductionHypothesis =>
      obtain ⟨waiter, inside, low, held, high⟩ := inductionHypothesis
      obtain ⟨lock, waiting, holder, inside', held'⟩ := deadlocked waiter inside
      have above := ordered waiter low lock held waiting
      exact ⟨holder, inside', lock, held', by omega⟩

/-- Locks with bounded ranks that are taken in order leave nobody deadlocked. -/
theorem Deadlocked.empty (deadlocked : Deadlocked holds waits threads)
    (ordered : Climbs rank holds waits) {top : Nat} (bounded : ∀ lock, rank lock ≤ top) :
    threads = ∅ := by
  apply Set.eq_empty_of_forall_notMem
  intro thread member
  obtain ⟨_, _, lock, _, high⟩ := deadlocked.climbs ordered member (top + 1)
  have low := bounded lock
  omega

end LockOrder
