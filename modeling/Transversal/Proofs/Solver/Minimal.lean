/-
**Every cover that is returned is minimal.**

A solver prunes each cover that it constructs, and returns one of the pruned covers. On a relation
that was built these are minimal, whatever the stream, the workers and the solution are.

* `Task.returns_round_isMinimal`: the pruned cover of a round.
* `GuidedEnding.isMinimal`, `solveLargest_isMinimal`: the covers of both algorithms.
* `PrunesToMinimal`: all of it, with the covers that are pruned again;
  `pruned_covers_minimal`: it holds of every relation that was built.
-/
import Transversal.Proofs.Cover.Minimal
import Transversal.Proofs.Solver.Returned

namespace Transversal

variable {incidence : Incidence}

/-! ### Rounds -/

/-- The pruned cover of a round is minimal. -/
theorem Task.returns_round_isMinimal {σ : Type} [RandomStream σ] {task : Task}
    (agreement : task.incidence.Agreement) :
    Run.Returns (task.round : Run σ Round) fun round =>
      task.incidence.IsMinimal round.pruned.members := by
  refine (returns_sampledCover _ _ _).bind fun constructed grown => ?_
  have left : Run.Returns (prunedAtRandom task.incidence constructed : Run σ Selection)
      fun pruned => task.incidence.IsMinimal pruned.members := fun desk _ ended =>
    (Pruning.atRandom desk).isMinimal agreement grown.1 grown.2 ended
  exact left.bind fun pruned minimal => Run.returns_pure minimal

/-- Where there is no path nothing is selected. -/
theorem Incidence.Agreement.isMinimal_nil (agreement : incidence.Agreement)
    (empty : incidence.pathCount = 0) : incidence.IsMinimal [] :=
  agreement.isMinimal (Incidence.isCover?_nil empty) fun _ member =>
    absurd member List.not_mem_nil

/-! ### Both algorithms -/

/-- **The cover of a guided run** is minimal, whatever the streams are and however the restarts
interleave. -/
theorem GuidedEnding.isMinimal {σ : Type} [RandomStream σ] {desk : Desk σ}
    {streamAt : Nat → Except Fault σ} {given : Option Fractional} {options : Options}
    {outcome : Outcome} (agreement : incidence.Agreement)
    (ending : GuidedEnding desk streamAt incidence given options (.ok outcome)) :
    incidence.IsMinimal outcome.cover :=
  ending.cover_induct incidence.IsMinimal (fun _ => Task.returns_round_isMinimal agreement)
    agreement.isMinimal_nil

/-- **The greedy cover, pruned**, is minimal. -/
theorem solveLargest_isMinimal {given : Option Fractional} {outcome : Outcome}
    (agreement : incidence.Agreement) (run : solveLargest incidence given = .ok outcome) :
    incidence.IsMinimal outcome.cover := by
  obtain ⟨constructed, pruned, grown, ran, _, same, _⟩ := exists_of_solveLargest run
  obtain ⟨tracked, complete⟩ := tracked_largestCover grown
  exact same ▸ Pruning.inOrder.isMinimal agreement tracked complete ran

/-- **Pruning leaves minimal covers.** A complete selection of given sets, or one that was grown,
can be pruned in every order of its members. What is left is minimal, and pruned again in any order
it keeps all members, in that order, and all counters. To prune in order or at random is to prune in
one of these orders, and the covers that the solvers return are minimal. -/
structure PrunesToMinimal (incidence : Incidence) : Prop where
  pruned : ∀ selection, Built incidence selection → selection.isComplete →
    ∀ order, order.Perm selection.members →
      ∃ pruned, prunedIn? incidence selection order = .ok pruned ∧
        incidence.IsMinimal pruned.members ∧
        ∀ again, again.Perm pruned.members →
          prunedIn? incidence pruned again = .ok { pruned with members := again }
  ways : ∀ selection order result, Pruning incidence selection order result →
    order.Perm selection.members ∧ result = prunedIn? incidence selection order
  guided : ∀ (σ : Type) [RandomStream σ] (desk : Desk σ) streamAt given options outcome,
    GuidedEnding desk streamAt incidence given options (.ok outcome) →
    incidence.IsMinimal outcome.cover
  solved : ∀ algorithm given options outcome,
    (solve algorithm incidence given options).1 = .ok outcome →
    incidence.IsMinimal outcome.cover

/-- **Pruned covers are minimal** and stable, on every relation that was built. -/
theorem pruned_covers_minimal {sets : List (List Int)} {pathCount : Option Int}
    (built : Incidence.ofSets? sets pathCount = .ok incidence) : PrunesToMinimal incidence := by
  have agreement := Incidence.agreement_of_ofSets? built
  refine ⟨fun selection made complete order same =>
      agreement.prunedIn?_minimal made.tracked complete same,
    fun selection order result pruning => pruning.eq,
    fun σ _ desk streamAt given options outcome ending => ending.isMinimal agreement, ?_⟩
  intro algorithm given options outcome run
  cases algorithm with
  | guided =>
    have ending := solve_guided_ending incidence given options
    change (solve .guided incidence given options).1 = .ok outcome at run
    rw [run] at ending
    exact ending.isMinimal agreement
  | largest => exact solveLargest_isMinimal agreement run

/-- The overlap: the set with both paths is left of all four sets, or two others, if it is examined
first. Either cover is minimal, and so is the one that is returned. -/
theorem pruned_covers_minimal_overlap :
    Selection.ofMembers overlap [0, 1, 2, 3] = .ok ⟨[0, 1, 2, 3], #[2, 2], 0⟩ ∧
      overlap.IsMinimal [2] ∧ overlap.IsMinimal [0, 3] ∧
      ∃ outcome, (solve .largest overlap none {}).1 = .ok outcome ∧
        overlap.IsMinimal outcome.cover := by
  have made : Selection.ofMembers overlap [0, 1, 2, 3] = .ok ⟨[0, 1, 2, 3], #[2, 2], 0⟩ := by
    decide +kernel
  have minimal := pruned_covers_minimal overlap_built
  have first : prunedIn? overlap ⟨[0, 1, 2, 3], #[2, 2], 0⟩ [0, 1, 2, 3] =
      .ok ⟨[2], #[1, 1], 0⟩ := by decide +kernel
  have second : prunedIn? overlap ⟨[0, 1, 2, 3], #[2, 2], 0⟩ [2, 0, 1, 3] =
      .ok ⟨[0, 3], #[1, 1], 0⟩ := by decide +kernel
  have solved : solveLargest overlap none =
      .ok ⟨.largest, [2], none, 1, [(1, 1)], .largest 1⟩ := by decide +kernel
  obtain ⟨_, ran, left, _⟩ := minimal.pruned _ (.members made) rfl _ (List.Perm.refl _)
  obtain ⟨_, ran', left', _⟩ := minimal.pruned _ (.members made) rfl [2, 0, 1, 3] (by decide)
  rw [first] at ran
  rw [second] at ran'
  cases ran
  cases ran'
  exact ⟨made, left, left', _, solved, minimal.solved .largest none {} _ solved⟩

end Transversal
