/-
**What a solution must be for both algorithms to succeed.**

* `Fractional.Serves`: it is accepted, belongs to the relation, and has an active set for every
  path.
* `Fractional.Serves.solve_ok`: both algorithms then return a sound cover, with any options that
  they can run with.
* `CoveringProgram.IsAnswered.serves`: the solution of a relaxation that is solved serves.
-/
import Transversal.Proofs.Solver.Guided
import Transversal.Proofs.Solver.Largest
import Transversal.Proofs.Solver.Relaxed

namespace Transversal

variable {incidence : Incidence} {fractional : Fractional} {options : Options}

/-- The numbers are positive, and a pool has a seed that streams can be made from. -/
structure Options.AreFit (options : Options) : Prop where
  positive : options.ArePositive
  seeded : options.workers ≠ none → 0 ≤ options.seed

/-- **A solution that both algorithms can use** on a relation. -/
structure Fractional.Serves (fractional : Fractional) (incidence : Incidence) : Prop where
  accepted : fractional.IsAccepted
  agrees : fractional.agrees? incidence = .ok ()
  supported : checkSupport incidence fractional.activities = .ok ()

/-- On one stream, it makes no difference which streams a pool would be given. -/
theorem GuidedEnding.of_single {σ : Type} [RandomStream σ] {desk : Desk σ}
    {streamAt : Nat → Except Fault σ} {given : Option Fractional} {result : Except Fault Outcome}
    (ending : GuidedEnding desk streamAt incidence given options result)
    (single : options.workers = none) (other : Nat → Except Fault σ) :
    GuidedEnding desk other incidence given options result := by
  cases ending with
  | refused failed => exact .refused failed
  | sequence checks => exact .sequence checks single
  | pool _ pooled =>
    rw [single] at pooled
    cases pooled

/-- A run with such options ends as one does that is given all its streams. -/
theorem Options.AreFit.exists_ending (fit : options.AreFit) (incidence : Incidence)
    (given : Option Fractional) : ∃ streamAt : Nat → Except Fault Twister,
      (∀ index, ∃ stream, streamAt index = .ok stream) ∧
        GuidedEnding ⟨.ofSeed options.seed, #[]⟩ streamAt incidence given options
          (solve .guided incidence given options).1 := by
  have ending := solve_guided_ending incidence given options
  by_cases single : options.workers = none
  · exact ⟨fun _ => .ok (.ofSeed options.seed), fun _ => ⟨_, rfl⟩, ending.of_single single _⟩
  · exact ⟨options.streamAt, fun index => ⟨_, streamAt_eq_ok (fit.seeded single) index⟩, ending⟩

namespace Fractional.Serves

variable (serves : fractional.Serves incidence) (agreement : incidence.Agreement)

include serves agreement

theorem solve_guided_ok (fit : options.AreFit) :
    ∃ outcome, (solve .guided incidence (some fractional) options).1 = .ok outcome ∧
      SoundCover incidence outcome.cover := by
  have allowed : ¬ Refused incidence options (some fractional) :=
    (checkGuided_eq_ok_iff agreement).mp ⟨fractional, checkGuided_some_eq_ok_iff.mpr
      ⟨fit.positive.1, fit.positive.2, serves.agrees, serves.supported, rfl⟩⟩
  have accepted : ∀ given ∈ some fractional, given.IsAccepted := by
    rintro given ⟨⟩
    exact serves.accepted
  obtain ⟨streamAt, streams, ending⟩ := fit.exists_ending incidence (some fractional)
  obtain ⟨outcome, returned⟩ := ending.exists_ok agreement accepted streams allowed
  exact ⟨outcome, returned, (ending.fromGuided agreement serves.accepted returned).sound⟩

/-- **Either algorithm returns a sound cover.** Only the guided one cares for its options. -/
theorem solve_ok {algorithm : Algorithm} (fit : algorithm = .guided → options.AreFit) :
    ∃ outcome, (solve algorithm incidence (some fractional) options).1 = .ok outcome ∧
      SoundCover incidence outcome.cover := by
  cases algorithm with
  | guided => exact serves.solve_guided_ok agreement (fit rfl)
  | largest =>
    have agrees : ∀ given ∈ some fractional, given.agrees? incidence = .ok () := by
      rintro given ⟨⟩
      exact serves.agrees
    obtain ⟨outcome, _, solved, _, _, sound⟩ := agreement.solveLargest_ok agrees
    exact ⟨outcome, by rw [solve_largest, solved], sound⟩

end Fractional.Serves

/-- **The solution of a relaxation that is solved** serves: the optimizer answers the program of the
relation as it should. -/
theorem CoveringProgram.IsAnswered.serves (agreement : incidence.Agreement) {optimizer : Optimizer}
    {program : CoveringProgram} (relaxed : ofIncidence? incidence = .ok program)
    {values : Nat → Option Binary64} {objective : Option Binary64}
    (told : optimizer program = .optimal values objective)
    (answered : program.IsAnswered values objective) :
    ∃ fractional, (relax optimizer incidence).1 = .ok fractional ∧ fractional.Serves incidence := by
  have made := answered.accepted incidence.pathCount
  have sets : program.variableCount = incidence.setCount := by
    rw [ofIncidence?_eq_ok agreement] at relaxed
    cases relaxed
    rfl
  refine ⟨.ofAnswer incidence.pathCount program.variableCount values objective, ?_,
    ⟨_, _, _, _, made⟩, ?_, answered.supported agreement relaxed⟩
  · rw [relax, relaxed]
    show ofVerdict? incidence (optimizer program) = _
    rw [told, ofVerdict?, ← sets]
    exact made
  · exact Fractional.agrees?_eq_ok_iff.mpr
      ⟨rfl, sets.symm.trans (Fractional.size_ofAnswer _ _ _ _).symm⟩

end Transversal
