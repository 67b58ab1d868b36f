/-
**What loading an incidence relation comes to, next to a solution that it must agree with.**

* `Incidence.ofSets?_derived`: the number of paths that a family speaks of may as well be stated.
* `Incidence.load?_of_agree`, `Incidence.load?_of_differ`: sizes that agree change nothing, and
  sizes that differ come before anything else.
* `Incidence.LoadedBeside`: both, with the events, and when the disagreement is told;
  `Incidence.loaded_beside`: it holds of all families and all solutions.
-/
import Transversal.Incidence.Load
import Transversal.Proofs.Fractional.Accepted
import Transversal.Proofs.Incidence.Built

namespace Transversal.Incidence

variable {sets : List (List Int)} {fractional : Fractional} {incidence : Incidence}

/-- The number of paths that a family speaks of may be stated. -/
theorem ofSets?_derived (sets : List (List Int)) :
    ofSets? sets (some (Coverage.derivedPathCount sets)) = ofSets? sets none := by
  unfold ofSets?
  dsimp only
  cases negative : firstNegative? (sets.map List.eraseDups) with
  | some found => rfl
  | none =>
    rw [Option.getD_some, Option.getD_none,
      ← derivedPathCount_eq (firstNegative?_eraseDups_eq_none_iff.mp negative)]

theorem sizeMismatch?_eq_none_iff : sizeMismatch? sets fractional = none ↔
    Coverage.derivedPathCount sets = fractional.pathCount ∧
      sets.length = fractional.setCount := by
  unfold sizeMismatch?
  dsimp only
  split
  · rename_i same
    exact iff_of_true rfl same
  · rename_i differ
    exact iff_of_false (Option.some_ne_none _) differ

/-- **Two files are loaded** as the relation of the path lists alone, if their sizes agree. -/
theorem load?_of_agree (agree : sizeMismatch? sets fractional = none) :
    load? sets (some fractional) = ofSets? sets none := by
  rw [load?, agree, ← (sizeMismatch?_eq_none_iff.mp agree).1, ofSets?_derived]

theorem load?_of_differ {difference : Mismatch}
    (differ : sizeMismatch? sets fractional = some difference) :
    load? sets (some fractional) = .error (mismatchFault sets fractional difference) := by
  rw [load?, differ]

theorem load?_eq_ok_iff : load? sets (some fractional) = .ok incidence ↔
    sizeMismatch? sets fractional = none ∧ ofSets? sets none = .ok incidence := by
  cases compared : sizeMismatch? sets fractional with
  | some difference =>
    rw [load?_of_differ compared]
    exact iff_of_false (by simp) fun ⟨impossible, _⟩ => by cases impossible
  | none =>
    rw [load?_of_agree compared]
    exact (and_iff_right rfl).symm

/-- A family alone is never refused for its sizes. -/
theorem ofSets?_ne_mismatch {difference : Mismatch} :
    ofSets? sets none ≠ .error (.mismatch difference) := by
  intro refused
  generalize same : Fault.mismatch difference = fault at refused
  cases refusal_of_ofSets? refused with
  | negative first =>
    rw [Fault.quoting] at same
    split at same <;> cases same
  | tooLarge _ given => cases given
  | unhit => cases same

/-- The relation of a family has the sizes of the family. -/
theorem agrees_iff_of_ofSets? (built : ofSets? sets none = .ok incidence) :
    fractional.agrees? incidence = .ok () ↔ sizeMismatch? sets fractional = none := by
  rw [Fractional.agrees?_eq_ok_iff, sizeMismatch?_eq_none_iff,
    (inverts_of_ofSets? built).pathCount, setCount_of_ofSets? built]
  rfl

/-! ### Beside a solution -/

/-- The number of paths listed and the number of sets are those of the solution. -/
def SameSizes (sets : List (List Int)) (fractional : Fractional) : Prop :=
  Coverage.derivedPathCount sets = fractional.pathCount ∧ sets.length = fractional.setCount

/-- A difference of sizes can be told: both numbers of paths are short enough to be written. -/
def CanTell (sets : List (List Int)) (fractional : Fractional) : Prop :=
  isWritable (Coverage.derivedPathCount sets) ∧ isWritable fractional.pathCount

instance : Decidable (CanTell sets fractional) := inferInstanceAs (Decidable (_ ∧ _))

/-- **What loading a family beside a solution comes to.**

* If the sizes are the same, it is what loading the family alone comes to, whatever that is, and
  the same is reported.
* If they are not, that is the fault, whatever else is wrong with the family, and nothing is
  reported; but it cannot be told if a number of paths is too long.
* There is a relation exactly if the family alone has it, and the solution belongs to it. -/
structure LoadedBeside (sets : List (List Int)) (fractional : Fractional) : Prop where
  same : SameSizes sets fractional → load? sets (some fractional) = load? sets none ∧
    loadEvents sets (some fractional) = loadEvents sets none
  differ : ¬ SameSizes sets fractional → loadEvents sets (some fractional) = [] ∧
    (CanTell sets fractional → load? sets (some fractional) =
      .error (.mismatch (.derivedCounts (Coverage.derivedPathCount sets) sets.length
        fractional.pathCount fractional.setCount))) ∧
    (¬ CanTell sets fractional → load? sets (some fractional) = .error (.value .tooManyDigits))
  mismatched : (∃ difference, load? sets (some fractional) = .error (.mismatch difference)) ↔
    ¬ SameSizes sets fractional ∧ CanTell sets fractional
  succeeds : ∀ incidence, load? sets (some fractional) = .ok incidence ↔
    load? sets none = .ok incidence ∧ fractional.agrees? incidence = .ok ()

/-- What is found if the sizes are not the same. -/
theorem sizeMismatch?_of_differ (differ : ¬ SameSizes sets fractional) :
    sizeMismatch? sets fractional = some (.derivedCounts (Coverage.derivedPathCount sets)
      sets.length fractional.pathCount fractional.setCount) :=
  if_neg differ

theorem mismatchFault_eq (sets : List (List Int)) (fractional : Fractional)
    (difference : Mismatch) :
    mismatchFault sets fractional difference =
      if CanTell sets fractional then .mismatch difference else .value .tooManyDigits := by
  rw [mismatchFault]
  split
  · rename_i told
    exact Fault.quoting_of_told (by simpa [CanTell] using told) _
  · rename_i untold
    exact Fault.quoting_of_untold (by simpa [CanTell] using untold) _

theorem loadEvents_of_same (same : SameSizes sets fractional) :
    loadEvents sets (some fractional) = loadEvents sets none := by
  have agree := sizeMismatch?_eq_none_iff.mpr same
  have loaded : load? sets (some fractional) = load? sets none := load?_of_agree agree
  unfold loadEvents
  rw [loaded, Option.bind_some, agree]
  rfl

/-- **Loading beside a solution**, for all families and all solutions. -/
theorem loaded_beside (sets : List (List Int)) (fractional : Fractional) :
    LoadedBeside sets fractional := by
  by_cases same : SameSizes sets fractional
  · have agree := sizeMismatch?_eq_none_iff.mpr same
    have loaded := load?_of_agree agree
    refine ⟨fun _ => ⟨loaded, loadEvents_of_same same⟩, fun differ => absurd same differ,
      iff_of_false ?_ fun told => told.1 same, fun incidence => ?_⟩
    · rintro ⟨difference, refused⟩
      exact ofSets?_ne_mismatch (loaded.symm.trans refused)
    · rw [loaded]
      refine ⟨fun built => ⟨built, ?_⟩, And.left⟩
      exact (agrees_iff_of_ofSets? built).mpr agree
  · have found := sizeMismatch?_of_differ same
    have refused := load?_of_differ found
    rw [mismatchFault_eq] at refused
    refine ⟨fun agree => absurd agree same, fun _ => ⟨?_, fun short => ?_, fun long => ?_⟩, ?_,
      fun incidence => ?_⟩
    · simp [loadEvents, found]
    · rw [refused, if_pos short]
    · rw [refused, if_neg long]
    · rw [refused]
      split <;> simp_all
    · refine iff_of_false (fun built => by cases refused.symm.trans built) ?_
      rintro ⟨built, agrees⟩
      cases found.symm.trans ((agrees_iff_of_ofSets? built).mp agrees)

/-- The family speaks of one path too many to be written, and the solution of a single one. -/
theorem untold_mismatch :
    ¬ SameSizes [[10 ^ 4300 - 1]] ⟨1, .ofInt 1, #[.ofInt 1]⟩ ∧
      load? [[10 ^ 4300 - 1]] (some ⟨1, .ofInt 1, #[.ofInt 1]⟩) =
        .error (.value .tooManyDigits) := by
  constructor
  · unfold SameSizes
    decide +kernel
  · decide +kernel

end Transversal.Incidence
