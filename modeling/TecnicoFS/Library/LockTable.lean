/-
Mutexes and read-write locks: which thread holds which lock, and how.

A mutex is a lock that is only taken exclusively.  A lock is available to everybody who
does not exclude a holder and whom no holder excludes.
-/

import Mathlib.Logic.Function.Basic

set_option autoImplicit false

inductive LockMode where
  | shared
  | exclusive
deriving DecidableEq

/-- How each thread holds each lock -/
def LockTable (Thread Lock : Type) : Type := Thread → Lock → Option LockMode

namespace LockTable

variable {Thread Lock : Type}

def empty : LockTable Thread Lock := fun _ _ => none

/-- The lock can be taken: nobody holds it, or everybody shares it. -/
def Available (table : LockTable Thread Lock) (lock : Lock) (mode : LockMode) : Prop :=
  ∀ thread held, table thread lock = some held → held = .shared ∧ mode = .shared

/-- Only holders that share the lock hold it together. -/
def Safe (table : LockTable Thread Lock) : Prop :=
  ∀ lock left right leftMode rightMode, table left lock = some leftMode →
    table right lock = some rightMode →
    left = right ∨ leftMode = .shared ∧ rightMode = .shared

variable {table : LockTable Thread Lock} {thread other : Thread} {lock : Lock}

/-- Whoever takes a lock excludes all who hold it another way. -/
theorem Safe.exclusive (safe : table.Safe) {held : LockMode}
    (holds : table thread lock = some .exclusive) (otherHolds : table other lock = some held) :
    other = thread := by
  rcases safe lock thread other .exclusive held holds otherHolds with same | ⟨impossible, _⟩
  · exact same.symm
  · cases impossible

/-- A lock that is not available has a holder. -/
theorem exists_holder {taken : LockMode} (unavailable : ¬ table.Available lock taken) :
    ∃ holder held, table holder lock = some held := by
  by_contra nobody
  apply unavailable
  intro holder held holds
  exact (nobody ⟨holder, held, holds⟩).elim

/-- The lists hold what the table says. -/
def Matches (table : LockTable Thread Lock) (held : Thread → List (Lock × LockMode)) : Prop :=
  ∀ thread lock mode, table thread lock = some mode ↔ (lock, mode) ∈ held thread

/-- What the lists hold, the table says; it may say more. -/
def Backs (table : LockTable Thread Lock) (held : Thread → List (Lock × LockMode)) : Prop :=
  ∀ thread lock mode, (lock, mode) ∈ held thread → table thread lock = some mode

theorem Backs.empty (held : Thread → List (Lock × LockMode)) (nothing : ∀ thread, held thread = []) :
    (empty : LockTable Thread Lock).Backs held := by
  intro thread lock mode impossible
  rw [nothing] at impossible
  cases impossible

/-- An exclusive lock is in one list. -/
theorem Backs.exclusive {held : Thread → List (Lock × LockMode)} {mode : LockMode}
    (backs : table.Backs held) (safe : table.Safe) (holds : (lock, .exclusive) ∈ held thread)
    (otherHolds : (lock, mode) ∈ held other) : other = thread :=
  safe.exclusive (backs thread lock _ holds) (backs other lock _ otherHolds)

theorem Matches.empty (held : Thread → List (Lock × LockMode)) (nothing : ∀ thread, held thread = []) :
    (empty : LockTable Thread Lock).Matches held := by
  intro thread lock mode
  rw [nothing]
  constructor
  · intro impossible
    cases impossible
  · intro impossible
    cases impossible

theorem empty_available (lock : Lock) (mode : LockMode) :
    (empty : LockTable Thread Lock).Available lock mode := by
  intro thread held impossible
  cases impossible

theorem Safe.empty : (empty : LockTable Thread Lock).Safe := by
  intro lock left right leftMode rightMode impossible
  cases impossible

variable [DecidableEq Thread] [DecidableEq Lock]

def set (table : LockTable Thread Lock) (thread : Thread) (lock : Lock)
    (mode : Option LockMode) : LockTable Thread Lock :=
  Function.update table thread (Function.update (table thread) lock mode)

def acquire (table : LockTable Thread Lock) (thread : Thread) (lock : Lock) (mode : LockMode) :
    LockTable Thread Lock := table.set thread lock (some mode)

def release (table : LockTable Thread Lock) (thread : Thread) (lock : Lock) :
    LockTable Thread Lock := table.set thread lock none

variable {mode : Option LockMode}

theorem set_self (table : LockTable Thread Lock) (thread : Thread) (lock : Lock)
    (mode : Option LockMode) :
    (table.set thread lock mode) thread = Function.update (table thread) lock mode :=
  Function.update_self _ _ _

theorem set_other (different : other ≠ thread) :
    (table.set thread lock mode) other = table other :=
  Function.update_of_ne different _ _

theorem acquire_lock_other {place : Lock} {taken : LockMode} (different : place ≠ lock) :
    (table.acquire thread lock taken) other place = table other place := by
  by_cases moved : other = thread
  · rw [moved, LockTable.acquire, set_self]
    exact Function.update_of_ne different _ _
  · rw [LockTable.acquire, set_other moved]

/-- Taking one lock leaves the others available. -/
theorem Available.acquire_other {place : Lock} {taken wanted : LockMode}
    (available : table.Available place wanted) (different : place ≠ lock) :
    (table.acquire thread lock taken).Available place wanted := by
  intro holder held holds
  rw [acquire_lock_other different] at holds
  exact available holder held holds

/-- Nothing remains of a lock that was taken and given back. -/
theorem acquire_release {taken : LockMode} (free : table thread lock = none) :
    (table.acquire thread lock taken).release thread lock = table := by
  funext other
  by_cases moved : other = thread
  · rw [moved, LockTable.release, LockTable.acquire, set_self, set_self, Function.update_idem, ← free,
      Function.update_eq_self]
  · rw [LockTable.release, LockTable.acquire, set_other moved, set_other moved]

theorem Safe.release (safe : table.Safe) : (table.release thread lock).Safe := by
  have before {worker : Thread} {place : Lock} {held : LockMode}
      (holds : (table.release thread lock) worker place = some held) :
      table worker place = some held := by
    by_cases moved : worker = thread
    · subst moved
      rw [LockTable.release, set_self, Function.update_apply] at holds
      by_cases same : place = lock
      · rw [if_pos same] at holds
        cases holds
      · rwa [if_neg same] at holds
    · rwa [LockTable.release, set_other moved] at holds
  intro place left right leftMode rightMode leftHolds rightHolds
  exact safe place left right leftMode rightMode (before leftHolds) (before rightHolds)

theorem Safe.acquire (safe : table.Safe) {taken : LockMode}
    (available : table.Available lock taken) : (table.acquire thread lock taken).Safe := by
  -- A holder held the lock before or has just taken it.
  have before {worker : Thread} {place : Lock} {held : LockMode}
      (holds : (table.acquire thread lock taken) worker place = some held) :
      table worker place = some held ∨ worker = thread ∧ place = lock ∧ held = taken := by
    by_cases moved : worker = thread
    · subst moved
      rw [LockTable.acquire, set_self, Function.update_apply] at holds
      by_cases same : place = lock
      · rw [if_pos same, Option.some.injEq] at holds
        exact Or.inr ⟨rfl, same, holds.symm⟩
      · rw [if_neg same] at holds
        exact Or.inl holds
    · rw [LockTable.acquire, set_other moved] at holds
      exact Or.inl holds
  intro place left right leftMode rightMode leftHolds rightHolds
  rcases before leftHolds with leftBefore | ⟨leftThread, leftLock, leftTaken⟩
  · rcases before rightHolds with rightBefore | ⟨_, rightLock, rightTaken⟩
    · exact safe place left right leftMode rightMode leftBefore rightBefore
    · rw [rightLock] at leftBefore
      obtain ⟨leftShared, takenShared⟩ := available left leftMode leftBefore
      exact Or.inr ⟨leftShared, rightTaken.trans takenShared⟩
  · rcases before rightHolds with rightBefore | ⟨rightThread, _, _⟩
    · rw [leftLock] at rightBefore
      obtain ⟨rightShared, takenShared⟩ := available right rightMode rightBefore
      exact Or.inr ⟨leftTaken.trans takenShared, rightShared⟩
    · exact Or.inl (leftThread.trans rightThread.symm)

/-! ### Steps of one thread -/

/-- What a step of a thread does to the locks and to its list of them -/
inductive Change (table : LockTable Thread Lock) (thread : Thread)
    (held : List (Lock × LockMode)) :
    LockTable Thread Lock → List (Lock × LockMode) → Prop where
  | same {held' : List (Lock × LockMode)} : (∀ entry, entry ∈ held' ↔ entry ∈ held) →
      Change table thread held table held'
  | acquire {lock : Lock} {mode : LockMode} {held' : List (Lock × LockMode)} :
      table.Available lock mode → (∀ entry, entry ∈ held' ↔ entry ∈ held ∨ entry = (lock, mode)) →
      Change table thread held (table.acquire thread lock mode) held'
  | release {lock : Lock} {held' : List (Lock × LockMode)} :
      (∀ entry, entry ∈ held' ↔ entry ∈ held ∧ entry.1 ≠ lock) →
      Change table thread held (table.release thread lock) held'

variable {table' : LockTable Thread Lock} {held held' : Thread → List (Lock × LockMode)}

theorem Safe.change {list list' : List (Lock × LockMode)} (safe : table.Safe)
    (changed : table.Change thread list table' list') : table'.Safe := by
  cases changed with
  | same _ => exact safe
  | acquire available _ => exact safe.acquire available
  | release _ => exact safe.release

theorem Backs.change (backs : table.Backs held)
    (changed : table.Change thread (held thread) table' (held' thread))
    (others : ∀ other, other ≠ thread → held' other = held other) : table'.Backs held' := by
  intro other place found inside
  by_cases moved : other = thread
  · subst moved
    generalize before : held other = list at changed
    generalize after : held' other = list' at changed
    rw [after] at inside
    cases changed with
    | same same =>
        rw [same, ← before] at inside
        exact backs other place found inside
    | @acquire lock mode _ available entries =>
        rw [LockTable.acquire, set_self, Function.update_apply]
        rcases (entries _).mp inside with earlier | new
        · rw [← before] at earlier
          have holds := backs other place found earlier
          by_cases same : place = lock
          · subst same
            obtain ⟨foundShared, modeShared⟩ := available other found holds
            rw [if_pos rfl, foundShared, modeShared]
          · rw [if_neg same]
            exact holds
        · rw [Prod.mk.injEq] at new
          rw [if_pos new.1, new.2]
    | @release lock _ entries =>
        obtain ⟨earlier, different⟩ := (entries _).mp inside
        rw [← before] at earlier
        rw [LockTable.release, set_self, Function.update_of_ne different]
        exact backs other place found earlier
  · rw [others other moved] at inside
    have holds := backs other place found inside
    cases changed with
    | same _ => exact holds
    | acquire _ _ => rwa [LockTable.acquire, set_other moved]
    | release _ => rwa [LockTable.release, set_other moved]

theorem Matches.change (holds : table.Matches held)
    (changed : table.Change thread (held thread) table' (held' thread))
    (others : ∀ other, other ≠ thread → held' other = held other) : table'.Matches held' := by
  have apart {mode : Option LockMode} {lock : Lock} {other : Thread} (different : other ≠ thread)
      (place : Lock) (found : LockMode) :
      (table.set thread lock mode) other place = some found ↔ (place, found) ∈ held' other := by
    rw [set_other different, others other different]
    exact holds other place found
  generalize before : held thread = list at changed
  generalize after : held' thread = list' at changed
  cases changed with
  | same same =>
      intro other place found
      by_cases moved : other = thread
      · rw [moved, after, same, ← before]
        exact holds thread place found
      · rw [others other moved]
        exact holds other place found
  | @acquire lock mode _ available entries =>
      intro other place found
      by_cases moved : other = thread
      · rw [moved, LockTable.acquire, set_self, Function.update_apply, after, entries, ← before]
        by_cases same : place = lock
        · subst same
          rw [if_pos rfl, Option.some.injEq]
          constructor
          · intro same
            rw [same]
            exact Or.inr rfl
          · rintro (earlier | same)
            · obtain ⟨foundShared, modeShared⟩ :=
                available thread found ((holds thread place found).mpr earlier)
              rw [foundShared, modeShared]
            · exact (congrArg Prod.snd same).symm
        · rw [if_neg same, holds thread place found, Prod.mk.injEq]
          constructor
          · exact Or.inl
          · rintro (earlier | ⟨impossible, _⟩)
            · exact earlier
            · exact (same impossible).elim
      · exact apart moved place found
  | @release lock _ entries =>
      intro other place found
      by_cases moved : other = thread
      · rw [moved, LockTable.release, set_self, Function.update_apply, after, entries, ← before]
        by_cases same : place = lock
        · rw [if_pos same]
          constructor
          · intro impossible
            cases impossible
          · rintro ⟨_, impossible⟩
            exact (impossible same).elim
        · rw [if_neg same, holds thread place found]
          constructor
          · intro earlier
            exact ⟨earlier, same⟩
          · exact And.left
      · exact apart moved place found

end LockTable
