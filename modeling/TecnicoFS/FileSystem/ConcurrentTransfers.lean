/-
What concurrent calls of `tfs_write` and `tfs_read` do.

The calls take effect one after another, each between its invocation and its return, no
statement of them is undefined or fails an assertion, and the file system that they leave is one
that the same calls leave when they are made one after another.
-/

import TecnicoFS.FileSystem.Refinement
import TecnicoFS.FileSystem.TransferRuns

set_option autoImplicit false

namespace TecnicoFS.FileSystem

open FaultAction

variable {Thread : Type} [DecidableEq Thread] {params : TfsParams} {start : State}
  {shared : SharedTransfers Thread}

/-! ### Linearizability -/

/-- The states of the object are those of calls made one after another. -/
theorem serial_reachable {object : AtomicObject Thread State Transfer ReadResult}
    (reached : Reachable params (AdmissibleIn params) start)
    (reachable : (AtomicObject.system Thread Transfer.Serial start).Reachable object) :
    Reachable params (AdmissibleIn params) object.state := by
  apply AtomicObject.preserves reachable reached
  rintro transfer state result state' before ⟨admissible, ran⟩
  have blockSize : state.blockSize = params.blockSize :=
    congrArg TfsParams.blockSize before.invariant.2
  rw [blockSize] at admissible
  exact .call before admissible ran

/-- Next to every reachable state stands the object, in a state of calls made one after
another. -/
theorem exists_mirrors (fits : params.Fits) (reached : Reachable params (AdmissibleIn params) start)
    (reachable : (transferSystem Thread start).Reachable shared) :
    ∃ object, (AtomicObject.system Thread Transfer.Serial start).Reachable object ∧
      Reachable params (AdmissibleIn params) object.state ∧ Mirrors shared object := by
  obtain ⟨inv, same⟩ := reached.invariant
  have fits' : start.Fits := by
    rw [State.fits_iff, same]
    exact fits
  obtain ⟨object, atomic, mirrors⟩ := (transfers_simulated inv fits').reachable reachable
  exact ⟨object, atomic, serial_reachable reached atomic, mirrors⟩

/-- Concurrent calls of `tfs_write` and `tfs_read` are linearizable: in every interleaving of
their statements the calls and returns are those of an object on which every call takes effect
at once, no statement stops, and at rest the file system is that of the object. -/
theorem transfers_linearizable (fits : params.Fits)
    (reached : Reachable params (AdmissibleIn params) start)
    (reachable : (transferSystem Thread start).Reachable shared) :
    (∃ object, (AtomicObject.system Thread Transfer.Serial start).Reachable object ∧
      object.events = shared.events ∧
      Reachable params (AdmissibleIn params) object.state ∧
      (shared.AtRest → object.state = shared.fs)) ∧
    ∀ thread action, (shared.points thread).code = some action →
      ∃ next fs, action shared.fs = .ok (next, fs) := by
  obtain ⟨object, atomic, serial, mirrors⟩ := exists_mirrors fits reached reachable
  refine ⟨⟨object, atomic, mirrors.events, serial, mirrors.state_eq⟩, ?_⟩
  intro thread action code
  obtain ⟨next, fs, _, _, ran, _⟩ := mirrors.runs code
  exact ⟨next, fs, ran⟩

/-- A file system with one file that is open -/
theorem exists_opened : ∃ start, afterCalls smallParams
    [.tfsOpen (some pathA) ⟨true, false, false⟩] = some start ∧ smallParams.Fits ∧
    Reachable smallParams (AdmissibleIn smallParams) start ∧ start.blockSize = 96 := by
  obtain ⟨start, returned, size⟩ := afterCalls_any smallParams
    [.tfsOpen (some pathA) ⟨true, false, false⟩] (fun state => state.blockSize = 96)
    (by decide +kernel)
  refine ⟨start, returned, ?_, ?_, of_decide_eq_true size⟩
  · unfold TfsParams.Fits
    decide
  · apply Reachable.afterCalls _ returned
    intro call member state
    rw [List.mem_singleton.mp member]
    trivial

/-- A writer and a reader of one handle -/
theorem transfers_linearizable_both : ∃ start, afterCalls smallParams
    [.tfsOpen (some pathA) ⟨true, false, false⟩] = some start ∧
    ∃ shared : SharedTransfers Bool,
      shared.points true = .enter (.write 0 (some [1, 2, 3]) 3) ∧
      shared.points false = .enter (.read 0 true 3) ∧
      ∃ object, (AtomicObject.system Bool Transfer.Serial start).Reachable object ∧
        object.events = shared.events := by
  obtain ⟨start, returned, fits, reached, blockSize⟩ := exists_opened
  have quiet : (transferSystem Bool start).Reachable
      ⟨start, LockTable.empty, fun _ => .idle, []⟩ := .initial rfl
  have writes := quiet.step (@TransferStep.calls _ _ true _ (.write 0 (some [1, 2, 3]) 3) rfl
    ⟨by decide, by rw [blockSize]; decide⟩)
  have reads := writes.step (@TransferStep.calls _ _ false _ (.read 0 true 3) rfl trivial)
  obtain ⟨⟨object, atomic, events, _⟩, _⟩ := transfers_linearizable fits reached reads
  exact ⟨start, returned, _, rfl, rfl, object, atomic, events⟩

end TecnicoFS.FileSystem
