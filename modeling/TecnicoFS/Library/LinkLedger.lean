/-
Counted links between a directory and its nodes, kept by several threads.

A directory slot holds at most one node, and every allocated node counts its links.
An entry and the counter of its node change in two steps: a new node is counted before
it is entered, a further link is entered before it is counted, and a removed link is
cleared before it is discounted.  The role of a thread says which of these it is in the
middle of.  Once no thread has a role, every counter equals the number of slots that
hold the node.
-/

import TecnicoFS.Library.TableSearch
import Mathlib.Tactic.Common

set_option autoImplicit false

open TableSearch

/-- A directory with the link counters of its nodes; a node without a counter is not
allocated. -/
@[ext]
structure LinkLedger (Node : Type) where
  size : Nat
  holder : Nat → Option Node
  links : Node → Option Nat

namespace LinkLedger

/-- What a thread is in the middle of -/
inductive Role (Node : Type) where
  | none
  | made (node : Node)
  | targeted (node : Node)
  | pending (slot : Nat) (node : Node)
  | found (slot : Nat) (node : Node)
  | dropping (node : Node)

namespace Role

variable {Node : Type}

/-- The counter of the node includes a link of this thread that no slot holds. -/
def Owes (role : Role Node) (node : Node) : Prop := role = .made node ∨ role = .dropping node

/-- The slot is filled and the counter does not include it yet. -/
def Pends (role : Role Node) (slot : Nat) : Prop := ∃ node, role = .pending slot node

/-- The thread adds a link to the node and relies on the other ones. -/
def Shares (role : Role Node) (node : Node) : Prop :=
  role = .targeted node ∨ ∃ slot, role = .pending slot node

/-- The thread takes a link away. -/
def Removes (role : Role Node) : Prop :=
  (∃ slot node, role = .found slot node) ∨ ∃ node, role = .dropping node

/-- Two threads may have these roles at once. -/
structure Apart (left right : Role Node) : Prop where
  owes : ∀ node, left.Owes node → ¬ right.Owes node ∧ ¬ right.Shares node
  shares : ∀ node, left.Shares node → ¬ right.Owes node
  pends : ∀ slot, left.Pends slot → ¬ right.Pends slot
  removes : left.Removes → ¬ right.Removes ∧ ∀ node, ¬ right.Shares node
  removed : right.Removes → ¬ left.Removes ∧ ∀ node, ¬ left.Shares node

theorem Apart.symm {left right : Role Node} (apart : Apart left right) : Apart right left where
  owes node rightOwes :=
    ⟨fun leftOwes => (apart.owes node leftOwes).1 rightOwes,
      fun leftShares => apart.shares node leftShares rightOwes⟩
  shares node rightShares leftOwes := (apart.owes node leftOwes).2 rightShares
  pends slot rightPends leftPends := apart.pends slot leftPends rightPends
  removes := apart.removed
  removed := apart.removes

theorem unshared {role : Role Node} (alone : ∀ node, ¬ role.Shares node) :
    (∀ node, role ≠ .targeted node) ∧ ∀ slot node, role ≠ .pending slot node :=
  ⟨fun node same => alone node (Or.inl same), fun slot node same => alone node (Or.inr ⟨slot, same⟩)⟩

theorem Apart.none (role : Role Node) : Apart .none role := by
  constructor <;> grind [Owes, Pends, Shares, Removes]

end Role

variable {Node Thread : Type}

section

variable [DecidableEq Node] (ledger : LinkLedger Node) (slot other : Nat) (node target : Node)
  (count : Option Nat)

/-- The node fills the slot. -/
def bind : LinkLedger Node :=
  { ledger with holder := Function.update ledger.holder slot (some node) }

def unbind : LinkLedger Node :=
  { ledger with holder := Function.update ledger.holder slot none }

/-- A new counter of the node, or none when it is given back -/
def setLinks : LinkLedger Node :=
  { ledger with links := Function.update ledger.links node count }

/-- The slots that hold the node -/
def total : Nat := Nat.count (fun slot => ledger.holder slot = some node) ledger.size

omit [DecidableEq Node]

@[simp, grind =] theorem bind_size : (ledger.bind slot node).size = ledger.size := rfl

@[simp, grind =] theorem bind_links : (ledger.bind slot node).links target = ledger.links target :=
  rfl

@[grind =] theorem bind_holder : (ledger.bind slot node).holder other =
    if other = slot then some node else ledger.holder other := Function.update_apply _ _ _ _

@[simp, grind =] theorem unbind_size : (ledger.unbind slot).size = ledger.size := rfl

@[simp, grind =] theorem unbind_links : (ledger.unbind slot).links target = ledger.links target :=
  rfl

@[grind =] theorem unbind_holder : (ledger.unbind slot).holder other =
    if other = slot then none else ledger.holder other := Function.update_apply _ _ _ _

variable [DecidableEq Node]

@[simp, grind =] theorem setLinks_size : (ledger.setLinks node count).size = ledger.size := rfl

@[simp, grind =] theorem setLinks_holder :
    (ledger.setLinks node count).holder slot = ledger.holder slot := rfl

@[grind =] theorem setLinks_links : (ledger.setLinks node count).links target =
    if target = node then count else ledger.links target := Function.update_apply _ _ _ _

end

/-- The node has a counter, and it is not 0. -/
def Linked (ledger : LinkLedger Node) (node : Node) : Prop :=
  ∃ count, ledger.links node = some (count + 1)

/-- What a role says about the slots and the counters -/
def Admits (ledger : LinkLedger Node) : Role Node → Prop
  | .none => True
  | .made node => ledger.links node ≠ none ∧ ∀ slot, ledger.holder slot ≠ some node
  | .targeted node => ledger.Linked node
  | .pending slot node => ledger.holder slot = some node ∧ ledger.Linked node
  | .found slot node => ledger.holder slot = some node
  | .dropping node => ledger.links node ≠ none

/-- The slot holds the node and is counted. -/
def Settles (ledger : LinkLedger Node) (roles : Thread → Role Node) (node : Node)
    (slot : Nat) : Prop :=
  ledger.holder slot = some node ∧ ∀ thread, ¬ (roles thread).Pends slot

open Classical in
/-- The slots that hold the node and are counted -/
noncomputable def settled (ledger : LinkLedger Node) (roles : Thread → Role Node)
    (node : Node) : Nat :=
  Nat.count (ledger.Settles roles node) ledger.size

open Classical in
/-- One for the link a thread still accounts for -/
noncomputable def owed (roles : Thread → Role Node) (node : Node) : Nat :=
  if ∃ thread, (roles thread).Owes node then 1 else 0

/-- The counters agree with the slots, up to what the threads are in the middle of. -/
structure Consistent (ledger : LinkLedger Node) (roles : Thread → Role Node) : Prop where
  inside : ∀ slot node, ledger.holder slot = some node → slot < ledger.size
  allocated : ∀ slot node, ledger.holder slot = some node → ledger.links node ≠ none
  admits : ∀ thread, ledger.Admits (roles thread)
  apart : ∀ left right, left ≠ right → (roles left).Apart (roles right)
  counted : ∀ node count, ledger.links node = some count →
    count = ledger.settled roles node + owed roles node

/-! ### Counts -/

section

variable {ledger ledger' : LinkLedger Node} {roles roles' : Thread → Role Node} {slot : Nat}
  {node : Node}

theorem settled_congr (size : ledger'.size = ledger.size)
    (same : ∀ slot, ledger'.Settles roles' node slot ↔ ledger.Settles roles node slot) :
    ledger'.settled roles' node = ledger.settled roles node := by
  classical
  unfold settled
  rw [size]
  exact count_congr (fun slot _ => same slot)

/-- One slot more is counted. -/
theorem settled_insert (size : ledger'.size = ledger.size) (within : slot < ledger.size)
    (absent : ¬ ledger.Settles roles node slot) (present : ledger'.Settles roles' node slot)
    (same : ∀ other, other ≠ slot →
      (ledger'.Settles roles' node other ↔ ledger.Settles roles node other)) :
    ledger'.settled roles' node = ledger.settled roles node + 1 := by
  classical
  unfold settled
  rw [size]
  exact count_insert within absent present (fun other _ => same other)

theorem settled_of_not (unheld : ∀ slot, ledger.holder slot ≠ some node) :
    ledger.settled roles node = 0 := by
  classical
  unfold settled
  rw [Nat.count_iff_forall_not]
  rintro slot _ ⟨holds, _⟩
  exact unheld slot holds

theorem settled_pos (within : slot < ledger.size) (settles : ledger.Settles roles node slot) :
    0 < ledger.settled roles node := by
  classical
  unfold settled
  exact count_pos within settles

theorem owed_congr
    (same : (∃ thread, (roles' thread).Owes node) ↔ ∃ thread, (roles thread).Owes node) :
    owed roles' node = owed roles node := by
  classical
  unfold owed
  rw [if_congr same rfl rfl]

theorem owed_of_owes {thread : Thread} (owes : (roles thread).Owes node) : owed roles node = 1 :=
  if_pos ⟨thread, owes⟩

theorem owed_of_not (free : ∀ thread, ¬ (roles thread).Owes node) : owed roles node = 0 :=
  if_neg (fun ⟨thread, owes⟩ => free thread owes)

theorem balance_of_quiet [DecidableEq Node] (quiet : ∀ thread, roles thread = .none) :
    ledger.settled roles node + owed roles node = ledger.total node := by
  classical
  have unowed : owed roles node = 0 := by
    refine owed_of_not (fun thread => ?_)
    rw [quiet thread]
    rintro (impossible | impossible) <;> cases impossible
  have settled : ledger.settled roles node = ledger.total node := by
    unfold LinkLedger.settled total
    refine count_congr (fun slot _ => ⟨And.left, fun holds => ⟨holds, ?_⟩⟩)
    intro thread
    rw [quiet thread]
    rintro ⟨_, impossible⟩
    cases impossible
  rw [settled, unowed, Nat.add_zero]

variable [DecidableEq Thread] {thread : Thread} {role : Role Node}

theorem settles_split (thread : Thread) : ledger.Settles roles node slot ↔
    ledger.holder slot = some node ∧ ¬ (roles thread).Pends slot ∧
      ∀ other, other ≠ thread → ¬ (roles other).Pends slot := by
  constructor
  · rintro ⟨holds, none⟩
    exact ⟨holds, none thread, fun other _ => none other⟩
  · rintro ⟨holds, own, others⟩
    refine ⟨holds, ?_⟩
    intro other
    by_cases same : other = thread
    · rw [same]
      exact own
    · exact others other same

theorem settles_update : ledger.Settles (Function.update roles thread role) node slot ↔
    ledger.holder slot = some node ∧ ¬ role.Pends slot ∧
      ∀ other, other ≠ thread → ¬ (roles other).Pends slot := by
  rw [settles_split thread, Function.update_self]
  have others (other : Thread) (different : other ≠ thread) :
      Function.update roles thread role other = roles other := Function.update_of_ne different _ _
  grind

theorem owes_split (thread : Thread) : (∃ other, (roles other).Owes node) ↔
    (roles thread).Owes node ∨ ∃ other, other ≠ thread ∧ (roles other).Owes node := by
  constructor
  · rintro ⟨other, owes⟩
    by_cases same : other = thread
    · exact Or.inl (same ▸ owes)
    · exact Or.inr ⟨other, same, owes⟩
  · rintro (owes | ⟨other, _, owes⟩)
    · exact ⟨thread, owes⟩
    · exact ⟨other, owes⟩

theorem owes_update : (∃ other, (Function.update roles thread role other).Owes node) ↔
    role.Owes node ∨ ∃ other, other ≠ thread ∧ (roles other).Owes node := by
  rw [owes_split thread, Function.update_self]
  have others (other : Thread) (different : other ≠ thread) :
      Function.update roles thread role other = roles other := Function.update_of_ne different _ _
  grind

/-- The new role owes what the old one did. -/
theorem owed_update (same : role.Owes node ↔ (roles thread).Owes node) :
    owed (Function.update roles thread role) node = owed roles node :=
  owed_congr (owes_update.trans ((or_congr_left same).trans (owes_split thread).symm))

/-- No other thread owes the link that the thread owes. -/
theorem owed_update_of_sole (sole : ∀ other, other ≠ thread → ¬ (roles other).Owes node)
    (nothing : ¬ role.Owes node) : owed (Function.update roles thread role) node = 0 := by
  apply if_neg
  rw [owes_update]
  rintro (own | ⟨other, different, owes⟩)
  · exact nothing own
  · exact sole other different owes

/-- The filled slot is not pending. -/
theorem settled_update (same : ∀ slot, role.Pends slot ↔ (roles thread).Pends slot) :
    ledger.settled (Function.update roles thread role) node = ledger.settled roles node := by
  apply settled_congr rfl
  intro slot
  rw [settles_update, settles_split thread, same]

end

/-! ### Steps -/

namespace Consistent

variable {ledger ledger' : LinkLedger Node} {roles : Thread → Role Node}
  {thread : Thread} {role : Role Node} {slot : Nat} {node : Node}

theorem vacant_unpended (ok : Consistent ledger roles) (vacant : ledger.holder slot = none)
    (other : Thread) : ¬ (roles other).Pends slot := by
  rintro ⟨held, pends⟩
  have admitted := ok.admits other
  rw [pends] at admitted
  rw [admitted.1] at vacant
  cases vacant

/-- A slot under removal is not pending. -/
theorem found_unpended (ok : Consistent ledger roles) {held : Nat} {target : Node}
    (role : roles thread = .found held target) (other : Thread) : ¬ (roles other).Pends slot := by
  rintro ⟨node, pends⟩
  by_cases same : other = thread
  · rw [same, role] at pends
    cases pends
  · have apart := ok.apart thread other (Ne.symm same)
    exact (apart.removes (Or.inl ⟨held, target, role⟩)).2 node (Or.inr ⟨slot, pends⟩)

theorem count_le (ok : Consistent ledger roles) {count : Nat}
    (isCount : ledger.links node = some count) : count ≤ ledger.size + 1 := by
  classical
  have counted := ok.counted node count isCount
  have settled : ledger.settled roles node ≤ ledger.size := Nat.count_le _
  have owed : owed roles node ≤ 1 := by
    unfold owed
    split <;> decide
  omega

/-- A node in a slot has a link that is counted. -/
theorem linked (ok : Consistent ledger roles) (holds : ledger.holder slot = some node) :
    ledger.Linked node := by
  by_cases pends : ∃ thread, (roles thread).Pends slot
  · obtain ⟨thread, other, role⟩ := pends
    have admitted := ok.admits thread
    rw [role] at admitted
    obtain ⟨held, linked⟩ := admitted
    rw [held, Option.some.injEq] at holds
    exact holds ▸ linked
  · obtain ⟨count, isCount⟩ := Option.ne_none_iff_exists'.mp (ok.allocated slot node holds)
    have settles : ledger.Settles roles node slot :=
      ⟨holds, fun thread pended => pends ⟨thread, pended⟩⟩
    have positive := settled_pos (ok.inside slot node holds) settles
    have counted := ok.counted node count isCount
    exact ⟨count - 1, by rw [isCount]; congr 1; omega⟩

/-- Without roles, every counter is exact. -/
theorem exact_of_quiet [DecidableEq Node] (ok : Consistent ledger roles)
    (quiet : ∀ thread, roles thread = .none) {count : Nat}
    (isCount : ledger.links node = some count) : count = ledger.total node :=
  (ok.counted node count isCount).trans (balance_of_quiet quiet)

/-- Exact counters are consistent as long as no thread has a role. -/
theorem of_exact [DecidableEq Node]
    (inside : ∀ slot node, ledger.holder slot = some node → slot < ledger.size)
    (allocated : ∀ slot node, ledger.holder slot = some node → ledger.links node ≠ none)
    (counted : ∀ node count, ledger.links node = some count → count = ledger.total node) :
    Consistent ledger (fun _ : Thread => .none) where
  inside := inside
  allocated := allocated
  admits _ := trivial
  apart _ _ _ := .none _
  counted node count isCount :=
    (counted node count isCount).trans (balance_of_quiet (fun _ => rfl)).symm

variable [DecidableEq Thread]

theorem updateApart (ok : Consistent ledger roles)
    (apart : ∀ other, other ≠ thread → (roles thread).Apart (roles other) →
      role.Apart (roles other)) (left right : Thread) (different : left ≠ right) :
    (Function.update roles thread role left).Apart (Function.update roles thread role right) := by
  by_cases leftSame : left = thread
  · subst left
    rw [Function.update_self, Function.update_of_ne (Ne.symm different)]
    exact apart right (Ne.symm different) (ok.apart thread right different)
  · rw [Function.update_of_ne leftSame]
    by_cases rightSame : right = thread
    · subst right
      rw [Function.update_self]
      exact (apart left leftSame (ok.apart thread left (Ne.symm leftSame))).symm
    · rw [Function.update_of_ne rightSame]
      exact ok.apart left right different

theorem updateAdmits (ok : Consistent ledger roles) (own : ledger'.Admits role)
    (others : ∀ other, other ≠ thread → (roles thread).Apart (roles other) →
      ledger.Admits (roles other) → ledger'.Admits (roles other)) (other : Thread) :
    ledger'.Admits (Function.update roles thread role other) := by
  by_cases same : other = thread
  · rw [same, Function.update_self]
    exact own
  · rw [Function.update_of_ne same]
    exact others other same (ok.apart thread other (Ne.symm same)) (ok.admits other)

/-- A role without a link of its own is taken up or laid down. -/
theorem reassign (ok : Consistent ledger roles) (admitted : ledger.Admits role)
    (apart : ∀ other, other ≠ thread → role.Apart (roles other))
    (owesNothing : ∀ node, ¬ (roles thread).Owes node ∧ ¬ role.Owes node)
    (pendsNothing : ∀ slot, ¬ (roles thread).Pends slot ∧ ¬ role.Pends slot) :
    Consistent ledger (Function.update roles thread role) where
  inside := ok.inside
  allocated := ok.allocated
  admits := ok.updateAdmits admitted (fun _ _ _ kept => kept)
  apart := ok.updateApart (fun other different _ => apart other different)
  counted := by
    intro target count isCount
    rw [settled_update (fun slot => iff_of_false (pendsNothing slot).2 (pendsNothing slot).1),
      owed_update (iff_of_false (owesNothing target).2 (owesNothing target).1)]
    exact ok.counted target count isCount

theorem keep (ok : Consistent ledger roles) (same : roles thread = role) :
    Consistent ledger (Function.update roles thread role) := by
  rw [← same, Function.update_eq_self]
  exact ok

/-- The thread wants to add a link to a node that a slot holds. -/
theorem target (ok : Consistent ledger roles) (unused : roles thread = .none)
    (holds : ledger.holder slot = some node) (alone : ∀ other, ¬ (roles other).Removes) :
    Consistent ledger (Function.update roles thread (.targeted node)) := by
  apply ok.reassign
  · exact ok.linked holds
  · intro other _
    have unowed : ¬ (roles other).Owes node := by
      rintro (made | dropping)
      · have admitted := ok.admits other
        rw [made] at admitted
        exact admitted.2 slot holds
      · exact alone other (Or.inr ⟨node, dropping⟩)
    have others := alone other
    constructor <;> grind [Role.Owes, Role.Pends, Role.Removes, Role.Shares]
  · grind [Role.Owes]
  · grind [Role.Pends]

/-- The thread found no place for the link. -/
theorem untarget (ok : Consistent ledger roles) (role : roles thread = .targeted node) :
    Consistent ledger (Function.update roles thread .none) := by
  apply ok.reassign
  · trivial
  · exact fun _ _ => .none _
  · grind [Role.Owes]
  · grind [Role.Pends]

/-- The thread wants to remove the link in a slot. -/
theorem find (ok : Consistent ledger roles) (unused : roles thread = .none)
    (holds : ledger.holder slot = some node)
    (alone : ∀ other, ¬ (roles other).Removes ∧ ∀ node, ¬ (roles other).Shares node) :
    Consistent ledger (Function.update roles thread (.found slot node)) := by
  apply ok.reassign
  · exact holds
  · intro other _
    obtain ⟨unremoved, unshared⟩ := alone other
    constructor <;> grind [Role.Owes, Role.Pends, Role.Removes, Role.Shares]
  · grind [Role.Owes]
  · grind [Role.Pends]

variable [DecidableEq Node]

/-- A new node is counted before a slot holds it. -/
theorem make (ok : Consistent ledger roles) (unused : roles thread = .none)
    (free : ledger.links node = none) :
    Consistent (ledger.setLinks node (some 1)) (Function.update roles thread (.made node)) := by
  have unheld (slot : Nat) : ledger.holder slot ≠ some node :=
    fun holds => ok.allocated slot node holds free
  have unreferred (other : Thread) : ¬ (roles other).Owes node ∧ ¬ (roles other).Shares node := by
    have admitted := ok.admits other
    cases at_ : roles other <;> grind [Admits, Linked, Role.Owes, Role.Shares]
  constructor
  · exact ok.inside
  · have allocated := ok.allocated
    grind
  · apply ok.updateAdmits
    · grind [Admits]
    · intro other _ _ admitted
      cases at_ : roles other <;> grind [Admits, Linked]
  · apply ok.updateApart
    intro other _ _
    have others := unreferred other
    constructor <;> grind [Role.Owes, Role.Pends, Role.Removes, Role.Shares]
  · intro target count isCount
    rw [settled_update (by grind [Role.Pends])]
    change _ = ledger.settled roles target + _
    rw [setLinks_links] at isCount
    split at isCount
    · rename_i same
      subst target
      have owes : (Function.update roles thread (.made node) thread).Owes node := by
        rw [Function.update_self]
        exact Or.inl rfl
      rw [settled_of_not unheld, owed_of_owes owes]
      cases isCount
      rfl
    · rw [owed_update (by grind [Role.Owes])]
      exact ok.counted target count isCount

/-- A new node that could not be entered is given back. -/
theorem unmake (ok : Consistent ledger roles) (role : roles thread = .made node) :
    Consistent (ledger.setLinks node none) (Function.update roles thread .none) := by
  have made := ok.admits thread
  rw [role] at made
  constructor
  · exact ok.inside
  · have allocated := ok.allocated
    have unheld := made.2
    grind
  · apply ok.updateAdmits
    · trivial
    · intro other different apart admitted
      have sole := apart.owes node (Or.inl role)
      have unheld := made.2
      cases at_ : roles other <;> grind [Admits, Linked, Role.Owes, Role.Shares]
  · exact ok.updateApart (fun other _ _ => .none _)
  · intro target count isCount
    rw [settled_update (by grind [Role.Pends])]
    change _ = ledger.settled roles target + _
    rw [setLinks_links] at isCount
    split at isCount
    · cases isCount
    · rw [owed_update (by grind [Role.Owes])]
      exact ok.counted target count isCount

omit [DecidableEq Node]

/-- The new node of the thread is entered. -/
theorem bindMade (ok : Consistent ledger roles) (role : roles thread = .made node)
    (vacant : ledger.holder slot = none) (within : slot < ledger.size) :
    Consistent (ledger.bind slot node) (Function.update roles thread .none) := by
  have owes : (roles thread).Owes node := Or.inl role
  have unpended := ok.vacant_unpended vacant
  constructor
  · have inside := ok.inside
    grind
  · have allocated := ok.allocated
    have admitted := ok.admits thread
    grind [Admits]
  · apply ok.updateAdmits
    · trivial
    · intro other different apart admitted
      have sole := (apart.owes node owes).1
      cases at_ : roles other <;> grind [Admits, Role.Owes, Linked]
  · exact ok.updateApart (fun other _ _ => .none _)
  · intro target count isCount
    have before := ok.counted target count isCount
    by_cases same : target = node
    · subst target
      rw [owed_of_owes owes] at before
      have sole (other : Thread) (different : other ≠ thread) : ¬ (roles other).Owes node :=
        ((ok.apart thread other (Ne.symm different)).owes node owes).1
      have more : (ledger.bind slot node).settled (Function.update roles thread .none) node =
          ledger.settled roles node + 1 := by
        refine settled_insert rfl within ?_ ?_ ?_
        · grind [Settles]
        · rw [settles_update]
          grind [Role.Pends]
        · intro other different
          rw [settles_update, settles_split thread]
          grind [Role.Pends]
      rw [more, owed_update_of_sole sole (by grind [Role.Owes])]
      exact before
    · have same : (ledger.bind slot node).settled (Function.update roles thread .none) target =
          ledger.settled roles target := by
        refine settled_congr rfl ?_
        intro other
        rw [settles_update, settles_split thread]
        grind [Role.Pends]
      rw [same, owed_update (by grind [Role.Owes])]
      exact before

/-- A further link is entered and will be counted. -/
theorem bindTargeted (ok : Consistent ledger roles) (role : roles thread = .targeted node)
    (vacant : ledger.holder slot = none) (within : slot < ledger.size) :
    Consistent (ledger.bind slot node) (Function.update roles thread (.pending slot node)) := by
  have shares : (roles thread).Shares node := Or.inl role
  have unpended := ok.vacant_unpended vacant
  have linked := ok.admits thread
  rw [role] at linked
  constructor
  · have inside := ok.inside
    grind
  · have allocated := ok.allocated
    grind [Admits, Linked]
  · apply ok.updateAdmits
    · grind [Admits, Linked]
    · intro other different apart admitted
      have unowed := apart.shares node shares
      cases at_ : roles other <;> grind [Admits, Role.Owes, Linked]
  · apply ok.updateApart
    intro other different apart
    have others := unpended other
    obtain ⟨_, unowed, _, _, alone⟩ := apart
    constructor <;> grind [Role.Owes, Role.Pends, Role.Removes, Role.Shares]
  · intro target count isCount
    have same : (ledger.bind slot node).settled
        (Function.update roles thread (.pending slot node)) target =
          ledger.settled roles target := by
      refine settled_congr rfl ?_
      intro other
      rw [settles_update, settles_split thread]
      grind [Role.Pends]
    rw [same, owed_update (by grind [Role.Owes])]
    exact ok.counted target count isCount

/-- A further link is withdrawn before it was counted. -/
theorem unbindPending (ok : Consistent ledger roles) (role : roles thread = .pending slot node) :
    Consistent (ledger.unbind slot) (Function.update roles thread .none) := by
  have holds := ok.admits thread
  rw [role] at holds
  constructor
  · have inside := ok.inside
    grind
  · have allocated := ok.allocated
    grind
  · apply ok.updateAdmits
    · trivial
    · intro other different apart admitted
      have unpended := apart.pends slot ⟨node, role⟩
      have shares : (roles thread).Shares node := Or.inr ⟨slot, role⟩
      have removed := apart.removed
      cases at_ : roles other <;> grind [Admits, Role.Pends, Role.Removes, Linked]
  · exact ok.updateApart (fun other _ _ => .none _)
  · intro target count isCount
    have same : (ledger.unbind slot).settled (Function.update roles thread .none) target =
        ledger.settled roles target := by
      refine settled_congr rfl ?_
      intro other
      rw [settles_update, settles_split thread]
      grind [Role.Pends]
    rw [same, owed_update (by grind [Role.Owes])]
    exact ok.counted target count isCount

/-- A removed link is cleared and will be discounted. -/
theorem unbindFound (ok : Consistent ledger roles) (role : roles thread = .found slot node) :
    Consistent (ledger.unbind slot) (Function.update roles thread (.dropping node)) := by
  have holds : ledger.holder slot = some node := by
    have admitted := ok.admits thread
    rwa [role] at admitted
  have removes : (roles thread).Removes := Or.inl ⟨slot, node, role⟩
  have unowed (other : Thread) : ¬ (roles other).Owes node := by
    by_cases same : other = thread
    · grind [Role.Owes]
    · have admitted := ok.admits other
      have alone := (ok.apart thread other (Ne.symm same)).removes removes
      cases at_ : roles other <;> grind [Admits, Role.Owes, Role.Removes]
  have allocated := ok.allocated
  constructor
  · have inside := ok.inside
    grind
  · grind
  · apply ok.updateAdmits
    · grind [Admits]
    · intro other different apart admitted
      have alone := apart.removes removes
      have unshared := Role.unshared alone.2
      cases at_ : roles other <;> grind [Admits, Role.Removes, Linked]
  · apply ok.updateApart
    intro other different apart
    have others := unowed other
    have alone := apart.removes removes
    constructor <;> grind [Role.Owes, Role.Pends, Role.Removes, Role.Shares]
  · intro target count isCount
    have before := ok.counted target count isCount
    have unpended := @found_unpended _ _ _ _ _ slot ok _ _ role
    by_cases same : target = node
    · subst target
      have owes : (Function.update roles thread (.dropping node) thread).Owes node := by
        rw [Function.update_self]
        exact Or.inr rfl
      have fewer : ledger.settled roles node = (ledger.unbind slot).settled
          (Function.update roles thread (.dropping node)) node + 1 := by
        refine settled_insert rfl (ok.inside slot node holds) ?_ ⟨holds, unpended⟩ ?_
        · rw [settles_update]
          grind
        · intro other different
          rw [settles_update, settles_split thread]
          grind [Role.Pends]
      rw [owed_of_owes owes, before, owed_of_not unowed, fewer]
    · have same : (ledger.unbind slot).settled
          (Function.update roles thread (.dropping node)) target =
            ledger.settled roles target := by
        refine settled_congr rfl ?_
        intro other
        rw [settles_update, settles_split thread]
        grind [Role.Pends]
      rw [same, owed_update (by grind [Role.Owes])]
      exact before

variable [DecidableEq Node]

/-- The further link is counted. -/
theorem countPending (ok : Consistent ledger roles) (role : roles thread = .pending slot node)
    {count : Nat} (isCount : ledger.links node = some count) :
    Consistent (ledger.setLinks node (some (count + 1))) (Function.update roles thread .none) := by
  have holds : ledger.holder slot = some node := by
    have admitted := ok.admits thread
    rw [role] at admitted
    exact admitted.1
  constructor
  · exact ok.inside
  · have allocated := ok.allocated
    grind
  · apply ok.updateAdmits
    · trivial
    · intro other different apart admitted
      cases at_ : roles other <;> grind [Admits, Linked]
  · exact ok.updateApart (fun other _ _ => .none _)
  · intro target after isAfter
    rw [owed_update (by grind [Role.Owes])]
    have sole (other : Thread) (different : other ≠ thread) : ¬ (roles other).Pends slot :=
      (ok.apart thread other (Ne.symm different)).pends slot ⟨node, role⟩
    by_cases same : target = node
    · subst target
      have before := ok.counted node count isCount
      have more : (ledger.setLinks node (some (count + 1))).settled
          (Function.update roles thread .none) node = ledger.settled roles node + 1 := by
        refine settled_insert rfl (ok.inside slot node holds) ?_ ?_ ?_
        · rw [settles_split thread]
          grind [Role.Pends]
        · rw [settles_update]
          grind [Role.Pends]
        · intro other different
          rw [settles_update, settles_split thread]
          grind [Role.Pends]
      rw [setLinks_links, if_pos rfl, Option.some.injEq] at isAfter
      rw [more]
      omega
    · rw [setLinks_links, if_neg same] at isAfter
      have unchanged : (ledger.setLinks node (some (count + 1))).settled
          (Function.update roles thread .none) target = ledger.settled roles target := by
        refine settled_congr rfl ?_
        intro other
        rw [settles_update, settles_split thread]
        grind [Role.Pends]
      rw [unchanged]
      exact ok.counted target after isAfter

/-- The removed link is discounted. -/
theorem discount (ok : Consistent ledger roles) (role : roles thread = .dropping node)
    {count : Nat} (isCount : ledger.links node = some count) :
    Consistent (ledger.setLinks node (some (count - 1))) (Function.update roles thread .none) := by
  have owes : (roles thread).Owes node := Or.inr role
  have removes : (roles thread).Removes := Or.inr ⟨node, role⟩
  constructor
  · exact ok.inside
  · have allocated := ok.allocated
    grind
  · apply ok.updateAdmits
    · trivial
    · intro other different apart admitted
      have unshared := Role.unshared (apart.removes removes).2
      cases at_ : roles other <;> grind [Admits, Linked]
  · exact ok.updateApart (fun other _ _ => .none _)
  · intro target after isAfter
    rw [settled_update (by grind [Role.Pends])]
    change _ = ledger.settled roles target + _
    by_cases same : target = node
    · subst target
      have before := ok.counted node count isCount
      rw [owed_of_owes owes] at before
      have sole (other : Thread) (different : other ≠ thread) : ¬ (roles other).Owes node :=
        ((ok.apart thread other (Ne.symm different)).owes node owes).1
      rw [setLinks_links, if_pos rfl, Option.some.injEq] at isAfter
      rw [owed_update_of_sole sole (by grind [Role.Owes])]
      omega
    · rw [setLinks_links, if_neg same] at isAfter
      rw [owed_update (by grind [Role.Owes])]
      exact ok.counted target after isAfter

omit [DecidableEq Thread] in
/-- A node without links is given back. -/
theorem discard (ok : Consistent ledger roles) (unlinked : ledger.links node = some 0) :
    Consistent (ledger.setLinks node none) roles := by
  have counted := ok.counted node 0 unlinked
  have unowed (thread : Thread) : ¬ (roles thread).Owes node := by
    intro owes
    rw [owed_of_owes owes] at counted
    omega
  have unheld (slot : Nat) : ledger.holder slot ≠ some node := by
    intro holds
    by_cases pends : ∃ thread, (roles thread).Pends slot
    · obtain ⟨thread, other, role⟩ := pends
      have admitted := ok.admits thread
      rw [role] at admitted
      obtain ⟨held, count, isCount⟩ := admitted
      grind
    · have settles : ledger.Settles roles node slot := ⟨holds, by grind⟩
      have positive := settled_pos (ok.inside slot node holds) settles
      omega
  constructor
  · exact ok.inside
  · have allocated := ok.allocated
    grind
  · intro thread
    have admitted := ok.admits thread
    have others := unowed thread
    cases at_ : roles thread <;> grind [Admits, Linked, Role.Owes]
  · exact ok.apart
  · intro target count isCount
    rw [setLinks_links] at isCount
    split at isCount
    · cases isCount
    · exact ok.counted target count isCount

end Consistent

end LinkLedger
