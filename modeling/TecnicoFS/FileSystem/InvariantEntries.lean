/-
What filling and clearing a directory slot and opening and closing a handle do to
the invariant.
-/

import TecnicoFS.FileSystem.InvariantSteps

set_option autoImplicit false

namespace TecnicoFS.FileSystem

open TableSearch

variable {state : State} {slack : Slack}

/-! ### Directory slots -/

theorem State.bindEntry_live {slot other inode : Nat} {name : CString}
    (short : validSubName name) (fits : inode < 2 ^ 31) (inside : slot < state.maxDirEntries) :
    (state.bindEntry slot name inode).EntryLive other ↔
      other = slot ∨ state.EntryLive other := by
  change (other < state.maxDirEntries ∧ _) ↔ _
  rw [State.bindEntry_entryInumber state slot other name inode short (by omega) (by omega)]
  by_cases same : other = slot
  · subst other
    simp only [if_pos, true_or, iff_true]
    exact ⟨inside, by omega⟩
  · rw [if_neg same]
    simp only [same, false_or]
    exact Iff.rfl

theorem State.scrubEntry_live {slot other : Nat} :
    (state.scrubEntry slot).EntryLive other ↔ other ≠ slot ∧ state.EntryLive other := by
  change (other < state.maxDirEntries ∧ _) ↔ _
  rw [State.scrubEntry_entryInumber]
  by_cases same : other = slot
  · subst other
    simp
  · rw [if_neg same]
    simp only [ne_eq, same, not_false_eq_true, true_and]
    exact Iff.rfl

theorem State.bindEntry_entryCount {slot inode : Nat} {name : CString} (other : Nat)
    (short : validSubName name) (fits : inode < 2 ^ 31) (inside : slot < state.maxDirEntries)
    (dead : state.entryInumber slot = -1) :
    (state.bindEntry slot name inode).entryCount other =
      state.entryCount other + if other = inode then 1 else 0 := by
  have inumber (query : Nat) := State.bindEntry_entryInumber state slot query name inode short
    (by omega) (by omega)
  unfold State.entryCount
  by_cases same : other = inode
  · subst other
    rw [if_pos rfl]
    apply count_insert inside
    · rw [dead]
      omega
    · rw [inumber slot, if_pos rfl]
    · intro query _ different
      rw [inumber query, if_neg different]
  · rw [if_neg same, Nat.add_zero]
    apply count_congr
    intro query _
    rw [inumber query]
    by_cases here : query = slot
    · subst query
      rw [if_pos rfl, dead]
      omega
    · rw [if_neg here]

theorem State.scrubEntry_entryCount {slot inode : Nat} (other : Nat)
    (inside : slot < state.maxDirEntries) (holds : state.entryInumber slot = (inode : Int)) :
    state.entryCount other =
      (state.scrubEntry slot).entryCount other + if other = inode then 1 else 0 := by
  have inumber (query : Nat) := State.scrubEntry_entryInumber state slot query
  unfold State.entryCount
  by_cases same : other = inode
  · subst other
    rw [if_pos rfl]
    apply count_insert inside
    · rw [inumber slot, if_pos rfl]
      omega
    · exact holds
    · intro query _ different
      rw [inumber query, if_neg different]
  · rw [if_neg same, Nat.add_zero]
    apply count_congr
    intro query _
    rw [inumber query]
    by_cases here : query = slot
    · subst query
      rw [if_pos rfl, holds]
      omega
    · rw [if_neg here]

theorem State.scrubEntry_entryCount_dead {slot : Nat} (other : Nat)
    (dead : state.entryInumber slot = -1) :
    (state.scrubEntry slot).entryCount other = state.entryCount other := by
  unfold State.entryCount
  apply count_congr
  intro query _
  rw [State.scrubEntry_entryInumber]
  by_cases here : query = slot
  · subst query
    rw [if_pos rfl, dead]
  · rw [if_neg here]

/-- Filling the first dead slot with a new name -/
theorem DirectoryOk.bindEntry {slot inode : Nat} {name : CString} (ok : DirectoryOk state)
    (short : validSubName name) (fits : inode < 2 ^ 31) (inside : slot < state.maxDirEntries)
    (first : ∀ earlier, earlier < slot → state.EntryLive earlier)
    (fresh : ∀ other, state.EntryLive other → ¬ state.EntryNamed other name) :
    DirectoryOk (state.bindEntry slot name inode) := by
  have live (other : Nat) : (state.bindEntry slot name inode).EntryLive other ↔
      other = slot ∨ state.EntryLive other := State.bindEntry_live short fits inside
  have named (query : Nat) (other : CString) (otherShort : validSubName other) :=
    State.bindEntry_entryNamed state slot query name other inode short otherShort
  refine ⟨?_, ?_, ?_⟩
  · intro query queryLive
    rcases (live query).mp queryLive with same | before
    · subst query
      exact ⟨name, short, by rw [named _ _ short, if_pos rfl]⟩
    · by_cases same : query = slot
      · subst query
        exact ⟨name, short, by rw [named _ _ short, if_pos rfl]⟩
      · obtain ⟨old, oldShort, oldNamed⟩ := ok.named query before
        exact ⟨old, oldShort, by rw [named _ _ oldShort, if_neg same]; exact oldNamed⟩
  · intro left right query leftLive rightLive queryShort leftNamed rightNamed
    rw [named _ _ queryShort] at leftNamed rightNamed
    by_cases leftSame : left = slot <;> by_cases rightSame : right = slot
    · rw [leftSame, rightSame]
    · rw [if_pos leftSame] at leftNamed
      rw [if_neg rightSame] at rightNamed
      subst query
      exact (fresh right (((live right).mp rightLive).resolve_left rightSame) rightNamed).elim
    · rw [if_neg leftSame] at leftNamed
      rw [if_pos rightSame] at rightNamed
      subst query
      exact (fresh left (((live left).mp leftLive).resolve_left leftSame) leftNamed).elim
    · rw [if_neg leftSame] at leftNamed
      rw [if_neg rightSame] at rightNamed
      exact ok.distinct left right query
        (((live left).mp leftLive).resolve_left leftSame)
        (((live right).mp rightLive).resolve_left rightSame) queryShort leftNamed rightNamed
  · intro deadSlot liveSlot query below isDead isLive queryShort queryNamed
    rw [live, not_or] at isDead
    rw [named _ _ queryShort, if_neg isDead.1] at queryNamed
    rcases (live liveSlot).mp isLive with same | before
    · subst liveSlot
      exact isDead.2 (first deadSlot below)
    · exact ok.scrubbed deadSlot liveSlot query below isDead.2 before queryShort queryNamed

/-- Filling the first dead slot with a new name settles the inode's waiting link. -/
theorem Invariant.bindEntry {slot inode : Nat} {name : CString}
    (inv : Invariant state (some (inode, 1))) (short : validSubName name)
    (inside : slot < state.maxDirEntries) (dead : state.entryInumber slot = -1)
    (first : ∀ earlier, earlier < slot → state.EntryLive earlier)
    (fresh : ∀ other, state.EntryLive other → ¬ state.EntryNamed other name) :
    Invariant (state.bindEntry slot name inode) none := by
  obtain ⟨inodeTaken, inodeNonzero⟩ := inv.counts.slackTaken inode rfl
  have fits := inv.inodes.fits inode inodeTaken
  have live (other : Nat) : (state.bindEntry slot name inode).EntryLive other ↔
      other = slot ∨ state.EntryLive other := State.bindEntry_live short fits inside
  have inumber (query : Nat) := State.bindEntry_entryInumber state slot query name inode short
    (by omega) (by omega)
  refine
    { geometry := { inv.geometry with }
      root := { inv.root with }
      directory := inv.directory.bindEntry short fits inside first fresh
      holders := { inv.holders with entryHolds := ?_ }
      counts := ⟨?_, ?_, ?_⟩
      inodes := { inv.inodes with }
      blocks := { inv.blocks with }
      handles := { inv.handles with } }
  · intro query queryLive
    rw [inumber query]
    by_cases same : query = slot
    · rw [if_pos same]
      exact ⟨inode, rfl, inodeNonzero, inodeTaken⟩
    · rw [if_neg same]
      exact inv.holders.entryHolds query (((live query).mp queryLive).resolve_left same)
  · intro other taken nonzero
    rw [State.bindEntry_entryCount other short fits inside dead]
    refine (inv.counts.linkCount other taken nonzero).trans ?_
    by_cases same : other = inode
    · subst other
      simp [Slack.extra]
    · simp [Slack.extra, same, Ne.symm same]
  · intro other taken nonzero _
    rw [State.bindEntry_entryCount other short fits inside dead]
    by_cases same : other = inode
    · rw [if_pos same]
      exact Or.inl (by omega)
    · rw [if_neg same, Nat.add_zero]
      exact inv.counts.used other taken nonzero (fun exempt => same exempt.symm)
  · intro other exempt
    cases exempt

theorem DirectoryOk.scrubEntry {slot : Nat} (ok : DirectoryOk state) :
    DirectoryOk (state.scrubEntry slot) where
  named := by
    intro query queryLive
    obtain ⟨different, before⟩ := State.scrubEntry_live.mp queryLive
    obtain ⟨name, short, named⟩ := ok.named query before
    exact ⟨name, short, (State.scrubEntry_entryNamed _ _ _ _ short).mpr ⟨different, named⟩⟩
  distinct := by
    intro left right name leftLive rightLive short leftNamed rightNamed
    exact ok.distinct left right name (State.scrubEntry_live.mp leftLive).2
      (State.scrubEntry_live.mp rightLive).2 short
      ((State.scrubEntry_entryNamed _ _ _ _ short).mp leftNamed).2
      ((State.scrubEntry_entryNamed _ _ _ _ short).mp rightNamed).2
  scrubbed := by
    intro dead live name below isDead isLive short named
    obtain ⟨different, named⟩ := (State.scrubEntry_entryNamed _ _ _ _ short).mp named
    exact ok.scrubbed dead live name below
      (fun before => isDead (State.scrubEntry_live.mpr ⟨different, before⟩))
      (State.scrubEntry_live.mp isLive).2 short named

/-- Clearing a live slot leaves its inode with one link that no entry accounts for. -/
theorem Invariant.scrubEntry {slot inode : Nat} (inv : Invariant state none)
    (live : state.EntryLive slot) (holds : state.entryInumber slot = (inode : Int)) :
    Invariant (state.scrubEntry slot) (some (inode, 1)) := by
  have taken : state.InodeTaken inode ∧ inode ≠ 0 := by
    obtain ⟨held, holds', nonzero, heldTaken⟩ := inv.holders.entryHolds slot live
    have same : held = inode := by
      rw [holds] at holds'
      omega
    exact same ▸ ⟨heldTaken, nonzero⟩
  have count (other : Nat) : state.entryCount other =
      (state.scrubEntry slot).entryCount other + if other = inode then 1 else 0 :=
    State.scrubEntry_entryCount other live.1 holds
  refine
    { geometry := { inv.geometry with }
      root := { inv.root with }
      directory := inv.directory.scrubEntry
      holders := { inv.holders with entryHolds := ?_ }
      counts := ⟨?_, ?_, ?_⟩
      inodes := { inv.inodes with }
      blocks := { inv.blocks with }
      handles := { inv.handles with } }
  · intro query queryLive
    obtain ⟨different, before⟩ := State.scrubEntry_live.mp queryLive
    rw [State.scrubEntry_entryInumber, if_neg different]
    exact inv.holders.entryHolds query before
  · intro other otherTaken nonzero
    refine (inv.counts.linkCount other otherTaken nonzero).trans ?_
    rw [count other]
    by_cases same : other = inode
    · subst other
      simp [Slack.extra]
    · simp [Slack.extra, same, Ne.symm same]
  · intro other otherTaken nonzero settled
    have before := inv.counts.used other otherTaken nonzero id
    rw [count other, if_neg (fun same => settled same.symm), Nat.add_zero] at before
    exact before
  · intro other exempt
    cases exempt
    exact taken

/-- Clearing the name of a dead slot changes nothing the invariant looks at. -/
theorem Invariant.scrubEntry_dead {slot : Nat} (inv : Invariant state slack)
    (dead : state.entryInumber slot = -1) : Invariant (state.scrubEntry slot) slack := by
  have count (other : Nat) := @State.scrubEntry_entryCount_dead state _ other dead
  refine
    { geometry := { inv.geometry with }
      root := { inv.root with }
      directory := inv.directory.scrubEntry
      holders := { inv.holders with entryHolds := ?_ }
      counts := { inv.counts with linkCount := ?_, used := ?_ }
      inodes := { inv.inodes with }
      blocks := { inv.blocks with }
      handles := { inv.handles with } }
  · intro query queryLive
    obtain ⟨different, before⟩ := State.scrubEntry_live.mp queryLive
    rw [State.scrubEntry_entryInumber, if_neg different]
    exact inv.holders.entryHolds query before
  · intro other otherTaken nonzero
    rw [count other]
    exact inv.counts.linkCount other otherTaken nonzero
  · intro other otherTaken nonzero settled
    rw [count other]
    exact inv.counts.used other otherTaken nonzero settled

/-- Filling a dead slot and clearing it again leaves the slots of a cleared slot. -/
theorem State.sameEntries_scrub_bind {slot inode : Nat} {name : CString}
    (short : validSubName name) (fits : inode < 2 ^ 31) :
    (state.scrubEntry slot).SameEntries ((state.bindEntry slot name inode).scrubEntry slot) := by
  intro query _
  constructor
  · rw [State.scrubEntry_entryInumber, State.scrubEntry_entryInumber,
      State.bindEntry_entryInumber state slot query name inode short (by omega) (by omega)]
    by_cases same : query = slot
    · rw [if_pos same, if_pos same]
    · rw [if_neg same, if_neg same, if_neg same]
  · intro other otherShort
    rw [State.scrubEntry_entryNamed _ _ _ _ otherShort,
      State.scrubEntry_entryNamed _ _ _ _ otherShort,
      State.bindEntry_entryNamed _ _ _ _ _ _ short otherShort]
    by_cases same : query = slot
    · simp [same]
    · rw [if_neg same]

theorem Invariant.scrub_bind {slot inode : Nat} {name : CString} (inv : Invariant state slack)
    (short : validSubName name) (fits : inode < 2 ^ 31) (dead : state.entryInumber slot = -1) :
    Invariant ((state.bindEntry slot name inode).scrubEntry slot) slack :=
  (inv.scrubEntry_dead dead).of_sameEntries (State.sameEntries_scrub_bind short fits)

/-! ### Handles -/

/-- The open file entry taken for an inode -/
def State.openHandle (state : State) (handle : Nat) (entry : OpenFileEntry) : State :=
  (state.setFreeOpenFile handle .taken).setOpenFile handle entry

def State.closeHandle (state : State) (handle : Nat) : State :=
  state.setFreeOpenFile handle .free

theorem State.openHandle_taken {handle other : Nat} {entry : OpenFileEntry}
    (inside : handle < state.maxOpenFiles) :
    (state.openHandle handle entry).HandleTaken other ↔
      other = handle ∨ state.HandleTaken other := by
  change (other < state.maxOpenFiles ∧
    Function.update state.freeOpenFileEntries handle .taken other = .taken) ↔ _
  rw [Function.update_apply]
  by_cases same : other = handle
  · subst other
    simp [inside]
  · simp only [same, false_or]
    exact Iff.rfl

theorem State.openHandle_apply (handle other : Nat) (entry : OpenFileEntry) :
    (state.openHandle handle entry).openFileTable other =
      if other = handle then entry else state.openFileTable other :=
  Function.update_apply _ _ _ _

theorem State.closeHandle_taken {handle other : Nat} :
    (state.closeHandle handle).HandleTaken other ↔ other ≠ handle ∧ state.HandleTaken other := by
  change (other < state.maxOpenFiles ∧
    Function.update state.freeOpenFileEntries handle .free other = .taken) ↔ _
  rw [Function.update_apply]
  by_cases same : other = handle
  · subst other
    simp
  · simp only [ne_eq, same, not_false_eq_true, true_and]
    exact Iff.rfl

theorem Invariant.openHandle {handle inode offset : Nat} (inv : Invariant state slack)
    (inside : handle < state.maxOpenFiles) (closed : ¬ state.HandleTaken handle)
    (fits : handle < 2 ^ 31) (nonzero : inode ≠ 0) (taken : state.InodeTaken inode)
    (isFile : (state.inodeTable inode).iNodeType = .tFile) (bounded : offset ≤ state.blockSize) :
    Invariant (state.openHandle handle { ofInumber := inode, ofOffset := offset }) slack := by
  have handles (other : Nat) :=
    @State.openHandle_taken state _ other { ofInumber := inode, ofOffset := offset } inside
  have entries (other : Nat) := @State.openHandle_apply state handle other
    { ofInumber := (inode : Int), ofOffset := offset }
  refine
    { geometry := { inv.geometry with }
      root := { inv.root with }
      directory := { inv.directory with }
      holders := { inv.holders with handleHolds := ?_ }
      counts := { inv.counts with used := ?_ }
      inodes := { inv.inodes with }
      blocks := { inv.blocks with }
      handles := ⟨?_, ?_⟩ }
  · intro other otherTaken
    rw [entries other]
    by_cases same : other = handle
    · rw [if_pos same]
      exact ⟨inode, rfl, nonzero, taken, isFile⟩
    · rw [if_neg same]
      exact inv.holders.handleHolds other (((handles other).mp otherTaken).resolve_left same)
  · intro other otherTaken otherNonzero settled
    rcases inv.counts.used other otherTaken otherNonzero settled with counted | opened
    · exact Or.inl counted
    · obtain ⟨holder, holderTaken, refers⟩ := opened
      have different : holder ≠ handle := fun same => closed (same ▸ holderTaken)
      right
      refine ⟨holder, (handles holder).mpr (Or.inr holderTaken), ?_⟩
      rw [entries holder, if_neg different]
      exact refers
  · intro other otherTaken
    rcases (handles other).mp otherTaken with same | before
    · exact same ▸ fits
    · exact inv.handles.fits other before
  · intro other otherTaken
    rw [entries other]
    by_cases same : other = handle
    · rw [if_pos same]
      exact bounded
    · rw [if_neg same]
      exact inv.handles.offset other (((handles other).mp otherTaken).resolve_left same)

/-- Closing a handle leaves its inode unsettled: it may have been the last use. -/
theorem Invariant.closeHandle {handle inode : Nat} (inv : Invariant state none)
    (opened : state.HandleTaken handle)
    (refers : (state.openFileTable handle).ofInumber = (inode : Int)) :
    Invariant (state.closeHandle handle) (some (inode, 0)) := by
  obtain ⟨held, refers', heldNonzero, heldTaken, _⟩ := inv.holders.handleHolds handle opened
  have sameHeld : held = inode := by
    rw [refers] at refers'
    omega
  subst held
  refine
    { geometry := { inv.geometry with }
      root := { inv.root with }
      directory := { inv.directory with }
      holders := { inv.holders with handleHolds := ?_ }
      counts := ⟨?_, ?_, ?_⟩
      inodes := { inv.inodes with }
      blocks := { inv.blocks with }
      handles := ⟨?_, ?_⟩ }
  · intro other otherTaken
    exact inv.holders.handleHolds other (State.closeHandle_taken.mp otherTaken).2
  · intro other taken nonzero
    refine (inv.counts.linkCount other taken nonzero).trans ?_
    simp only [Slack.extra, ite_self]
    rfl
  · intro other taken nonzero settled
    rcases inv.counts.used other taken nonzero id with counted | ⟨holder, holderTaken, holds⟩
    · exact Or.inl counted
    · have different : holder ≠ handle := by
        intro same
        subst holder
        rw [refers] at holds
        exact settled (show inode = other by omega)
      exact Or.inr ⟨holder, State.closeHandle_taken.mpr ⟨different, holderTaken⟩, holds⟩
  · intro other exempt
    cases exempt
    exact ⟨heldTaken, heldNonzero⟩
  · intro other otherTaken
    exact inv.handles.fits other (State.closeHandle_taken.mp otherTaken).2
  · intro other otherTaken
    exact inv.handles.offset other (State.closeHandle_taken.mp otherTaken).2

/-- The offset of an open file entry -/
def State.setOffset (state : State) (handle offset : Nat) : State :=
  state.setOpenFile handle { state.openFileTable handle with ofOffset := offset }

theorem State.setOffset_apply (handle offset other : Nat) :
    (state.setOffset handle offset).openFileTable other =
      if other = handle then { state.openFileTable handle with ofOffset := offset }
      else state.openFileTable other :=
  Function.update_apply _ _ _ _

theorem Invariant.setOffset {handle offset : Nat} (inv : Invariant state slack)
    (bounded : offset ≤ state.blockSize) : Invariant (state.setOffset handle offset) slack := by
  have refers (other : Nat) : ((state.setOffset handle offset).openFileTable other).ofInumber =
      (state.openFileTable other).ofInumber := by
    rw [State.setOffset_apply]
    split
    · rename_i same
      rw [same]
    · rfl
  refine
    { geometry := { inv.geometry with }
      root := { inv.root with }
      directory := { inv.directory with }
      holders := { inv.holders with handleHolds := ?_ }
      counts := { inv.counts with used := ?_ }
      inodes := { inv.inodes with }
      blocks := { inv.blocks with }
      handles := { inv.handles with offset := ?_ } }
  · intro other otherTaken
    rw [refers]
    exact inv.holders.handleHolds other otherTaken
  · intro other taken nonzero settled
    rcases inv.counts.used other taken nonzero settled with counted | ⟨holder, holderTaken, holds⟩
    · exact Or.inl counted
    · exact Or.inr ⟨holder, holderTaken, by rw [refers]; exact holds⟩
  · intro other otherTaken
    rw [State.setOffset_apply]
    by_cases same : other = handle
    · rw [if_pos same]
      exact bounded
    · rw [if_neg same]
      exact inv.handles.offset other otherTaken

end TecnicoFS.FileSystem
