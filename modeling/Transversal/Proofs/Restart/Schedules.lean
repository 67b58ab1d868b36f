/-
**How far the cover of a pool depends on its schedule.**

* `Interleaving.Valid.exists_kept`: it is that of a smallest round of the budget, or of a round that
  reaches the bound.
* `Interleaving.Agree`: all rounds that reach the bound have one size;
  `Interleaving.Agree.exists_smallest`: then the cover is that of a smallest round.
* `Interleaving.exists_ended_of_reaches`: any round that reaches the bound is the only one of some
  schedule.
-/
import Transversal.Proofs.Restart.Controller
import Transversal.Proofs.Restart.Pool

namespace Transversal.Interleaving

variable {lowerBound : Int} {outcome : Nat → Except Fault Round} {workers budget : Nat}
  {state : Interleaving} {log : List (Nat × Round)} {rounds : Nat → Round}

/-- All rounds of the budget that reach the bound have one size. -/
def Agree (lowerBound : Int) (budget : Nat) (sizes : Nat → Nat) : Prop :=
  ∀ first < budget, ∀ second < budget, (sizes first : Int) ≤ lowerBound →
    (sizes second : Int) ≤ lowerBound → sizes first = sizes second

/-- The round with an index is a smallest one of the budget. -/
def IsSmallest (budget : Nat) (sizes : Nat → Nat) (index : Nat) : Prop :=
  ∀ other < budget, sizes index ≤ sizes other

section Ended

variable (valid : Valid lowerBound outcome budget log state)
  (rounded : ∀ index < budget, outcome index = .ok (rounds index))
  (ended : state.HasEnded budget)

include valid rounded ended

/-- **The cover that is left** is that of a smallest round, or of one that reaches the bound. -/
theorem Valid.exists_kept (someBudget : 0 < budget) :
    ∃ index < budget, (rounds index).pruned.members = state.pool.progress.cover ∧
      (IsSmallest budget (prunedSize rounds) index ∨
        (prunedSize rounds index : Int) ≤ lowerBound) := by
  have settled := valid.settled rounded ended
  obtain ⟨index, member, taken⟩ := settled.taken (valid.ran_ne_nil rounded ended someBudget)
  have size : prunedSize rounds index = state.pool.progress.cover.length :=
    congrArg List.length taken
  refine ⟨index, List.mem_range.mp (List.mem_of_mem_filter member), taken, ?_⟩
  by_cases reached : state.pool.progress.hasReached lowerBound
  · obtain ⟨round, recorded, small⟩ := valid.records.hasReached_iff.mp reached
    have least := valid.records.smallest round recorded
    exact .inr (by omega)
  · -- no restart was skipped, so the round is compared with all of the budget
    have all_ran := valid.ran_eq_range_of_unreached (valid.not_failed rounded) reached
    refine .inl fun other below => ?_
    rw [size]
    exact settled.smallest other (all_ran ▸ List.mem_range.mpr below)

/-- Without a budget nothing is selected. -/
theorem Valid.cover_eq_nil (spent : budget = 0) : state.pool.progress.cover = [] := by
  have counted := valid.rounds_eq (valid.not_failed rounded) ended
  have none_ran : state.ran budget = [] := by
    rw [spent]
    rfl
  rw [valid.records.counted, none_ran, List.length_nil, List.length_eq_zero_iff] at counted
  rw [Progress.cover, valid.records.best_eq_none_iff.mpr counted]
  rfl

/-- **If the rounds that reach the bound agree**, the cover is that of a smallest round, whatever
the schedule. -/
theorem Agree.exists_smallest (agree : Agree lowerBound budget (prunedSize rounds))
    (someBudget : 0 < budget) :
    ∃ index < budget, (rounds index).pruned.members = state.pool.progress.cover ∧
      IsSmallest budget (prunedSize rounds) index := by
  obtain ⟨index, below, taken, smallest | small⟩ := valid.exists_kept rounded ended someBudget
  · exact ⟨index, below, taken, smallest⟩
  · refine ⟨index, below, taken, fun other inRange => ?_⟩
    by_cases reaches : (prunedSize rounds other : Int) ≤ lowerBound
    · exact le_of_eq (agree index below other inRange small reaches)
    · omega

end Ended

/-- **Any round that reaches the bound** is the only one of some schedule: its restart is the first
to look at the flag, and has raised it before the others do. -/
theorem exists_ended_of_reaches (someWorker : 1 ≤ workers) {index : Nat} (inRange : index < budget)
    {round : Round} (computed : outcome index = .ok round)
    (reaches : (round.pruned.size : Int) ≤ lowerBound) :
    ∃ final, Reached lowerBound outcome workers budget final ∧ final.HasEnded budget ∧
      final.pool.progress.cover = round.pruned.members := by
  have idle : start.Idle := fun _ => rfl
  have enter : Step lowerBound outcome workers budget start _ :=
    .enter inRange rfl (idle.free someWorker) rfl
  have compute : Step lowerBound outcome workers budget (start.move index .admitted) _ :=
    .compute (move_phase_self start index .admitted) computed
  rw [move_move] at compute
  have commit : Step lowerBound outcome workers budget (start.move index (.computed round)) _ :=
    .commit (move_phase_self start index (.computed round))
  have reached := ((Reached.start.step enter).step compute).step commit
  have raised : ((start.move index (.computed round)).commit lowerBound index
      round).pool.finished = true := decide_eq_true reaches
  have quiet : ((start.move index (.computed round)).commit lowerBound index round).Idle := by
    show ((start.move index (.computed round)).move index .committed).Idle
    rw [move_move]
    exact idle.move index rfl
  obtain ⟨final, further, ended, shared, _⟩ := quiet.skip_rest someWorker reached raised
  exact ⟨final, further, ended, by rw [shared]; rfl⟩

end Transversal.Interleaving
