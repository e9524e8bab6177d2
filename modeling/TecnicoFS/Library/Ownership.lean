/-
Keys that are in the hands of one holder each.

A key comes into being with a holder, passes from holder to holder and goes away with its
last one, so no key that is present is without a holder and none has two.
-/

set_option autoImplicit false

namespace Ownership

variable {Holder Key : Type} {holds holds' : Holder → Key → Prop} {present present' : Key → Prop}

/-- Every key that is present has exactly one holder. -/
structure Owned (holds : Holder → Key → Prop) (present : Key → Prop) : Prop where
  held : ∀ key, present key ↔ ∃ holder, holds holder key
  unique : ∀ key left right, holds left key → holds right key → left = right

/-- What one step may do to the keys and their holders -/
inductive Move (holds : Holder → Key → Prop) (present : Key → Prop)
    (holds' : Holder → Key → Prop) (present' : Key → Prop) : Prop where
  | same : (∀ holder key, holds' holder key ↔ holds holder key) →
      (∀ key, present' key ↔ present key) → Move holds present holds' present'
  | gain (maker : Holder) (made : Key) : ¬ present made →
      (∀ holder key, holds' holder key ↔ holds holder key ∨ holder = maker ∧ key = made) →
      (∀ key, present' key ↔ present key ∨ key = made) → Move holds present holds' present'
  | pass (giver taker : Holder) (passed : Key) : (∀ key, holds giver key ↔ key = passed) →
      (∀ holder key, holds' holder key ↔
        (holds holder key ∧ holder ≠ giver) ∨ holder = taker ∧ key = passed) →
      (∀ key, present' key ↔ present key) → Move holds present holds' present'
  | drop (last : Holder) (dropped : Key) : (∀ key, holds last key ↔ key = dropped) →
      (∀ holder key, holds' holder key ↔ holds holder key ∧ holder ≠ last) →
      (∀ key, present' key ↔ present key ∧ key ≠ dropped) → Move holds present holds' present'

namespace Owned

/-- The key of another holder is another key. -/
theorem differs (owned : Owned holds present) {holder other : Holder} {key held : Key}
    (holdsKey : holds holder key) (holdsHeld : holds other held) (different : holder ≠ other) :
    key ≠ held := by
  intro same
  subst same
  exact different (owned.unique key holder other holdsKey holdsHeld)

theorem gain (owned : Owned holds present) {maker : Holder} {made : Key}
    (absent : ¬ present made)
    (holders : ∀ holder key, holds' holder key ↔ holds holder key ∨ holder = maker ∧ key = made)
    (keys : ∀ key, present' key ↔ present key ∨ key = made) : Owned holds' present' := by
  have unheld (holder : Holder) : ¬ holds holder made :=
    fun holdsMade => absent ((owned.held made).mpr ⟨holder, holdsMade⟩)
  constructor
  · intro key
    rw [keys, owned.held]
    constructor
    · rintro (⟨holder, holdsKey⟩ | same)
      · exact ⟨holder, (holders holder key).mpr (Or.inl holdsKey)⟩
      · exact ⟨maker, (holders maker key).mpr (Or.inr ⟨rfl, same⟩)⟩
    · rintro ⟨holder, holdsKey⟩
      rcases (holders holder key).mp holdsKey with before | ⟨_, same⟩
      · exact Or.inl ⟨holder, before⟩
      · exact Or.inr same
  · intro key left right leftHolds rightHolds
    rcases (holders left key).mp leftHolds with leftBefore | ⟨leftMaker, same⟩
    · rcases (holders right key).mp rightHolds with rightBefore | ⟨_, same⟩
      · exact owned.unique key left right leftBefore rightBefore
      · rw [same] at leftBefore
        exact (unheld left leftBefore).elim
    · rcases (holders right key).mp rightHolds with rightBefore | ⟨rightMaker, _⟩
      · rw [same] at rightBefore
        exact (unheld right rightBefore).elim
      · rw [leftMaker, rightMaker]

theorem pass (owned : Owned holds present) {giver taker : Holder} {passed : Key}
    (gives : ∀ key, holds giver key ↔ key = passed)
    (holders : ∀ holder key, holds' holder key ↔
      (holds holder key ∧ holder ≠ giver) ∨ holder = taker ∧ key = passed)
    (keys : ∀ key, present' key ↔ present key) : Owned holds' present' := by
  have given : holds giver passed := (gives passed).mpr rfl
  constructor
  · intro key
    rw [keys, owned.held]
    constructor
    · rintro ⟨holder, holdsKey⟩
      by_cases same : holder = giver
      · rw [same, gives] at holdsKey
        exact ⟨taker, (holders taker key).mpr (Or.inr ⟨rfl, holdsKey⟩)⟩
      · exact ⟨holder, (holders holder key).mpr (Or.inl ⟨holdsKey, same⟩)⟩
    · rintro ⟨holder, holdsKey⟩
      rcases (holders holder key).mp holdsKey with ⟨before, _⟩ | ⟨_, same⟩
      · exact ⟨holder, before⟩
      · rw [same]
        exact ⟨giver, given⟩
  · intro key left right leftHolds rightHolds
    rcases (holders left key).mp leftHolds with ⟨leftBefore, leftOther⟩ | ⟨leftTaker, same⟩
    · rcases (holders right key).mp rightHolds with ⟨rightBefore, _⟩ | ⟨_, same⟩
      · exact owned.unique key left right leftBefore rightBefore
      · exact (owned.differs leftBefore given leftOther same).elim
    · rcases (holders right key).mp rightHolds with ⟨rightBefore, rightOther⟩ | ⟨rightTaker, _⟩
      · exact (owned.differs rightBefore given rightOther same).elim
      · rw [leftTaker, rightTaker]

theorem drop (owned : Owned holds present) {last : Holder} {dropped : Key}
    (gives : ∀ key, holds last key ↔ key = dropped)
    (holders : ∀ holder key, holds' holder key ↔ holds holder key ∧ holder ≠ last)
    (keys : ∀ key, present' key ↔ present key ∧ key ≠ dropped) : Owned holds' present' := by
  have given : holds last dropped := (gives dropped).mpr rfl
  constructor
  · intro key
    rw [keys, owned.held]
    constructor
    · rintro ⟨⟨holder, holdsKey⟩, different⟩
      refine ⟨holder, (holders holder key).mpr ⟨holdsKey, ?_⟩⟩
      intro same
      rw [same, gives] at holdsKey
      exact different holdsKey
    · rintro ⟨holder, holdsKey⟩
      obtain ⟨before, other⟩ := (holders holder key).mp holdsKey
      exact ⟨⟨holder, before⟩, owned.differs before given other⟩
  · intro key left right leftHolds rightHolds
    exact owned.unique key left right ((holders left key).mp leftHolds).1
      ((holders right key).mp rightHolds).1

theorem move (owned : Owned holds present) (moved : Move holds present holds' present') :
    Owned holds' present' := by
  cases moved with
  | same holders keys =>
      constructor
      · intro key
        rw [keys, owned.held]
        exact exists_congr (fun holder => (holders holder key).symm)
      · intro key left right leftHolds rightHolds
        exact owned.unique key left right ((holders left key).mp leftHolds)
          ((holders right key).mp rightHolds)
  | gain maker made absent holders keys => exact owned.gain absent holders keys
  | pass giver taker passed gives holders keys => exact owned.pass gives holders keys
  | drop last dropped gives holders keys => exact owned.drop gives holders keys

end Owned

end Ownership
