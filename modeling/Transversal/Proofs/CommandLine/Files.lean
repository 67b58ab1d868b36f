/-
**What reading the two files of the command may come to.**

* `SolveCommand.IsNameless`: a name that no file can be looked up by.
* `SolveCommand.ends_readReport`, `SolveCommand.ends_readCoverage`: a fault gets past the messages
  exactly if the name is such a name.
* `Incidence.ends_load?`: two files whose sizes disagree are told of unless the number of paths is
  too long.
-/
import Transversal.CommandLine.Solve
import Transversal.Proofs.Incidence.Load
import Transversal.Proofs.Readers

namespace Transversal

open SolveCommand (isHandled)

/-! ### The two readers -/

/-- A fault of a report is told to the user. -/
theorem isHandled_of_isOfReport {fault : Fault} (ofReport : fault.isOfReport) :
    isHandled fault := by
  cases fault <;> first | rfl | cases ofReport

/-- A fault of a coverage file is told to the user. -/
theorem isHandled_of_isOfCoverage {fault : Fault} (ofCoverage : fault.isOfCoverage) :
    isHandled fault := by
  cases fault <;> first | rfl | cases ofCoverage

/-! ### Names -/

namespace SolveCommand

/-- **No file can be looked up** by the name: it is blank, or has a character that no name has. -/
def IsNameless : Given String → Prop
  | .blank => True
  | .value name => name.contains '\x00'

variable {folder : Folder} {name : Given String}

/-- A file is read, or a fault is told to the user unless its name is no name. -/
theorem ends_open {α : Type} {good : α → Prop} {read : String → Feed → Except Fault α}
    (ends : ∀ file feed, Except.Ends good (fun fault => isHandled fault) (read file feed)) :
    Except.Ends (fun value => good value ∧ ¬ IsNameless name)
      (fun fault => isHandled fault ↔ ¬ IsNameless name)
      (do
        let name ← name.require .path
        read name (.ofBytes (← folder.open? name))) := by
  cases name with
  | blank => exact iff_of_false Bool.false_ne_true (not_not_intro trivial)
  | value name =>
    show Except.Ends _ _ (folder.open? name >>= fun bytes => read name (.ofBytes bytes))
    unfold Folder.open?
    by_cases nameless : name.contains '\x00'
    · rw [if_pos nameless]
      exact iff_of_false Bool.false_ne_true (not_not_intro nameless)
    · rw [if_neg nameless]
      cases folder name with
      | error flaw => exact iff_of_true rfl nameless
      | ok bytes =>
        show Except.Ends _ _ (read name (.ofBytes bytes))
        have ended := ends name (.ofBytes bytes)
        generalize read name (.ofBytes bytes) = result at ended ⊢
        cases result with
        | error fault => exact iff_of_true ended nameless
        | ok value => exact ⟨ended, nameless⟩

theorem ends_readReport :
    Except.Ends (fun fractional => Report.IsReported fractional ∧ ¬ IsNameless name)
      (fun fault => isHandled fault ↔ ¬ IsNameless name) (readReport folder name) :=
  ends_open fun file feed => (Report.ends_read? file feed).mono_bad fun _ => isHandled_of_isOfReport

theorem ends_readCoverage :
    Except.Ends
      (fun sets => (∀ paths ∈ sets, ∀ path ∈ paths, isWritable path) ∧ ¬ IsNameless name)
      (fun fault => isHandled fault ↔ ¬ IsNameless name) (readCoverage folder name) :=
  ends_open fun file feed =>
    ((Coverage.ends_read? file feed).mono fun _ read =>
      Coverage.isWritable_of_ofLines? read.2).mono_bad fun _ => isHandled_of_isOfCoverage

end SolveCommand

/-! ### Both files -/

namespace Incidence

variable {fractional : Fractional}

/-- Sizes that disagree are told, unless the number of paths listed is too long. -/
theorem ends_load? {sets : List (List Int)}
    (listed : ∀ paths ∈ sets, ∀ path ∈ paths, isWritable path)
    (writable : isWritable fractional.pathCount) :
    Except.Ends (fun _ => True)
      (fun fault => isHandled fault ↔
        (sizeMismatch? sets fractional).isSome → isWritable (Coverage.derivedPathCount sets))
      (load? sets (some fractional)) := by
  cases compared : sizeMismatch? sets fractional with
  | some difference =>
    rw [load?_of_differ compared]
    show isHandled (mismatchFault sets fractional difference) ↔ _
    rw [mismatchFault_eq]
    split
    · rename_i told
      exact iff_of_true rfl fun _ => told.1
    · rename_i untold
      exact iff_of_false Bool.false_ne_true fun short => untold ⟨short rfl, writable⟩
  | none =>
    rw [load?_of_agree compared]
    cases built : ofSets? sets none with
    | ok incidence => trivial
    | error fault =>
      refine iff_of_true ?_ fun impossible => by cases impossible
      cases refusal_of_ofSets? built with
      | negative first =>
        obtain ⟨paths, stands, member, _⟩ := first.exists_mem
        have short := listed paths (List.mem_of_getElem? stands) _ member
        rw [Fault.quoting_of_told (by simpa using short)]
        rfl
      | tooLarge _ given => cases given
      | unhit => rfl

end Incidence

end Transversal
