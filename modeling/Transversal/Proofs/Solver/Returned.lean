/-
**No wrong cover is returned, whatever the relation is.**

The directions of a bare relation may disagree, a set may list a path twice, and an index may count
from the end or denote nothing. Then a run may fail, but what it returns is right.

* `Built`: a selection of given sets, one grown at random, or one grown greedily.
* `ReturnsCovers`: each of these that is complete, whatever pruning leaves of it, and every cover
  that a solver returns hits every path; the counters can be recounted.
* `returned_whole`: it holds of every relation.
-/
import Transversal.Proofs.Solver.Bound

namespace Transversal

variable {incidence : Incidence}

/-- **What is built on a relation**: a selection of given sets, which need not be complete, or a
cover grown with any activities on any stream, or greedily. -/
inductive Built (incidence : Incidence) (selection : Selection) : Prop
  | members {members : List Int} : Selection.ofMembers incidence members = .ok selection →
      Built incidence selection
  | sampled {σ : Type} [RandomStream σ] {desk : Desk σ} {activities : Array Binary64}
      {maxDraws : Int} :
      ((sampledCover incidence activities maxDraws).run.run desk).1 = .ok selection →
      Built incidence selection
  | largest : largestCover incidence = .ok selection → Built incidence selection

/-- All of them can be recounted. -/
theorem Built.tracked {selection : Selection} (built : Built incidence selection) :
    Tracked incidence selection := by
  cases built with
  | members made => exact (Selection.tracked_ofMembers made).1
  | sampled ran => exact (returns_sampledCover _ _ _ _ _ ran).1
  | largest grown => exact (tracked_largestCover grown).1

/-- The pruned cover of a round hits every path. -/
theorem Task.returns_round_isCover {σ : Type} [RandomStream σ] (task : Task) :
    Run.Returns (task.round : Run σ Round) fun round =>
      task.incidence.isCover? round.pruned.members = .ok true := by
  refine (returns_sampledCover _ _ _).bind fun constructed grown => ?_
  refine grown.1.returns_prunedAtRandom.bind fun pruned left => ?_
  exact Run.returns_pure (left.1.isWhole left.2).covers

/-- Nothing needs to be selected where there is no path. -/
theorem Incidence.isCover?_nil (empty : incidence.pathCount = 0) :
    incidence.isCover? [] = .ok true :=
  (soundCover_nil empty).covers

/-- **Every ending of a guided run without a fault** has a cover. -/
theorem GuidedEnding.isCover {σ : Type} [RandomStream σ] {desk : Desk σ}
    {streamAt : Nat → Except Fault σ} {given : Option Fractional} {options : Options}
    {outcome : Outcome}
    (ending : GuidedEnding desk streamAt incidence given options (.ok outcome)) :
    incidence.isCover? outcome.cover = .ok true := by
  exact ending.cover_induct (fun cover => incidence.isCover? cover = .ok true)
    (fun checked => (guidedTask incidence checked options).returns_round_isCover)
    Incidence.isCover?_nil

/-- **No wrong cover is returned**: what is grown, what pruning leaves of a selection, and what the
solvers find hits every path, and the counters are those of the members. -/
structure ReturnsCovers (incidence : Incidence) : Prop where
  sampled : ∀ (σ : Type) [RandomStream σ] (desk : Desk σ) activities maxDraws selection,
    ((sampledCover incidence activities maxDraws).run.run desk).1 = .ok selection →
    selection.IsWhole incidence
  largest : ∀ selection, largestCover incidence = .ok selection → selection.IsWhole incidence
  pruned : ∀ selection, Built incidence selection → ∀ left,
    pruned? incidence selection = .ok left → left.IsWhole incidence
  prunedAtRandom : ∀ selection, Built incidence selection →
    ∀ (σ : Type) [RandomStream σ] (desk : Desk σ) left,
    ((prunedAtRandom incidence selection).run.run desk).1 = .ok left → left.IsWhole incidence
  guided : ∀ (σ : Type) [RandomStream σ] (desk : Desk σ) streamAt given options outcome,
    GuidedEnding desk streamAt incidence given options (.ok outcome) →
    incidence.isCover? outcome.cover = .ok true
  solved : ∀ algorithm given options outcome,
    (solve algorithm incidence given options).1 = .ok outcome →
    incidence.isCover? outcome.cover = .ok true

/-- **No relation makes a wrong cover escape.** -/
theorem returned_whole (incidence : Incidence) : ReturnsCovers incidence where
  sampled σ _ desk activities maxDraws selection ran := by
    obtain ⟨tracked, complete⟩ := returns_sampledCover incidence activities maxDraws desk _ ran
    exact tracked.isWhole complete
  largest selection grown := largestCover_isWhole grown
  pruned selection built left ran := by
    obtain ⟨tracked, complete⟩ := built.tracked.pruned? ran
    exact tracked.isWhole complete
  prunedAtRandom selection built σ _ desk left ran := by
    obtain ⟨tracked, complete⟩ := built.tracked.returns_prunedAtRandom desk left ran
    exact tracked.isWhole complete
  guided σ _ desk streamAt given options outcome ending := ending.isCover
  solved algorithm given options outcome run := by
    cases algorithm with
    | guided =>
      have ending := solve_guided_ending incidence given options
      change (solve .guided incidence given options).1 = .ok outcome at run
      rw [run] at ending
      exact ending.isCover
    | largest => exact (solveLargest_eq_ok run).1

/-- A relation whose directions disagree: the first set lists the first path twice, and the last one
by an index that counts from the end; the second set is named by a path that it does not list, and
lists one that there is not. -/
def crooked : Incidence := ⟨#[[0, 0, -1], [7]], #[[0], [0, 1]]⟩

/-- The greedy cover of the crooked relation is whole, with the first path counted twice. -/
theorem returned_whole_crooked : ¬ crooked.Agreement ∧
    ∃ selection left, largestCover crooked = .ok selection ∧ selection.hits = #[2, 1] ∧
      selection.IsWhole crooked ∧ pruned? crooked selection = .ok left ∧ left.IsWhole crooked := by
  have grown : largestCover crooked = .ok ⟨[0], #[2, 1], 0⟩ := by decide +kernel
  have left : pruned? crooked ⟨[0], #[2, 1], 0⟩ = .ok ⟨[0], #[2, 1], 0⟩ := by decide +kernel
  refine ⟨fun agreement => ?_, _, _, grown, rfl, (returned_whole crooked).largest _ grown, left,
    (returned_whole crooked).pruned _ (.largest grown) _ left⟩
  have distinct := agreement.distinct 0
  revert distinct
  decide +kernel

end Transversal
