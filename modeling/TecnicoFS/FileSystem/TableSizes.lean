/-
The arithmetic of the tables.

Every byte count is a `size_t` product, and every slot number is an `int`.  An accepted
`tfs_init` has checked neither: it accepts a product that wrapped around when malloc does,
and tables with more slots than an `int` can name.
-/

import TecnicoFS.FileSystem.Runs

set_option autoImplicit false

namespace TecnicoFS.FileSystem

open FaultAction TableSearch

variable {params : TfsParams} {succeeds : Nat → Bool} {garbage : Garbage} {state : State}

/-- Either no slot was FREE and nothing changed, or the returned number is the one of the
slot that was taken. -/
def SlotReturned (count : Nat) (before after : Nat → AllocationState) (result : Int) : Prop :=
  (result = -1 ∧ after = before) ∨ ∃ slot : Nat, slot < count ∧ before slot = .free ∧
    result = (slot : Int) ∧ after = Function.update before slot .taken

/-- Every slot has an `int` number and no product wraps around. -/
def TfsParams.Sound (params : TfsParams) : Prop :=
  params.maxInodeCount ≤ 2 ^ 31 ∧ params.maxBlockCount ≤ 2 ^ 31 ∧
    params.maxOpenFilesCount < 2 ^ 31 ∧ params.maxBlockCount * params.blockSize < 2 ^ 64

/-! ### Sound sizes -/

theorem SlotReturned.taken {count slot : Nat} {before : Nat → AllocationState}
    (inside : slot < count) (isFree : before slot = .free) :
    SlotReturned count before (Function.update before slot .taken) slot :=
  Or.inr ⟨slot, inside, isFree, rfl, rfl⟩

end TecnicoFS.FileSystem
