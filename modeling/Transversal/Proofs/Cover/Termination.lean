/-
**The loop of a greedy cover ends**, over any relation: its directions may disagree, entries may be
repeated, and indices may count from the end or denote nothing.

* `Growth.Loops`: the loop without a bound on its steps: how often its body runs, and what it ends
  with. `Growth.Loops.unique`: there is one such end at most.
* `Growth.Loops.le_unhit`: the body runs at most as often as paths are unhit, since a body that
  does not fail leaves fewer of them.
* `growLargest_loops`: as many steps as paths are unhit are enough for the bounded loop.
* `GreedyFault`: what the loop can fail with; `greedyEnds_growLargest`: it fails with nothing else.
* `largestCover_terminates`: the whole cover.
-/
import Transversal.Proofs.Cover.Gains

namespace Transversal

variable {incidence : Incidence} {growth : Growth}

/-! ### The loop -/

/-- **The loop, without a bound on its steps**: how often its body runs, and what it ends with. A
body that fails has been run too. -/
inductive Growth.Loops (incidence : Incidence) : Growth → Nat → Except Fault Selection → Prop
  | done {growth : Growth} : growth.selection.unhit ≤ 0 →
      Loops incidence growth 0 (.ok growth.selection)
  | fails {growth : Growth} {fault : Fault} : ¬ growth.selection.unhit ≤ 0 →
      largestStep incidence growth = .error fault → Loops incidence growth 1 (.error fault)
  | step {growth after : Growth} {runs : Nat} {result : Except Fault Selection} :
      ¬ growth.selection.unhit ≤ 0 → largestStep incidence growth = .ok after →
      Loops incidence after runs result → Loops incidence growth (runs + 1) result

namespace Growth.Loops

variable {runs : Nat} {result : Except Fault Selection}

/-- The loop has one end at most. -/
theorem unique (loops : Loops incidence growth runs result) {runs' : Nat}
    {result' : Except Fault Selection} (loops' : Loops incidence growth runs' result') :
    runs' = runs ∧ result' = result := by
  induction loops generalizing runs' result' with
  | done few =>
    cases loops' with
    | done => exact ⟨rfl, rfl⟩
    | fails some_unhit => exact absurd few some_unhit
    | step some_unhit => exact absurd few some_unhit
  | fails some_unhit failed =>
    cases loops' with
    | done few => exact absurd few some_unhit
    | fails _ failed' =>
      cases failed.symm.trans failed'
      exact ⟨rfl, rfl⟩
    | step _ stepped => cases failed.symm.trans stepped
  | step some_unhit stepped _ ih =>
    cases loops' with
    | done few => exact absurd few some_unhit
    | fails _ failed => cases stepped.symm.trans failed
    | step _ stepped' rest =>
      cases stepped.symm.trans stepped'
      obtain ⟨rfl, rfl⟩ := ih rest
      exact ⟨rfl, rfl⟩

/-- **The body runs at most as often as paths are unhit.** -/
theorem le_unhit (loops : Loops incidence growth runs result)
    (tracked : Tracked incidence growth.selection) : runs ≤ growth.selection.unhit := by
  induction loops with
  | done => exact tracked.counts.unhit_eq ▸ Int.natCast_nonneg _
  | fails some_unhit => exact Int.not_le.mp some_unhit
  | step _ stepped _ ih =>
    have fewer := largestStep_unhit_lt tracked stepped
    have before := ih (tracked.largestStep stepped)
    push_cast
    omega

/-- Every run adds one member. -/
theorem size_eq {selection : Selection} (loops : Loops incidence growth runs (.ok selection))
    (tracked : Tracked incidence growth.selection) :
    selection.size = growth.selection.size + runs := by
  generalize ended : Except.ok selection = result at loops
  induction loops with
  | done =>
    cases ended
    rfl
  | fails => cases ended
  | @step growth after _ _ _ stepped _ ih =>
    obtain ⟨best, _, _, _, _, added, _⟩ := largestStep_eq_ok stepped
    have more : after.selection.size = growth.selection.size + 1 := by
      rw [Selection.size, tracked.members_add added, List.length_append, List.length_singleton]
      rfl
    rw [ih (tracked.largestStep stepped) ended, more]
    omega

end Growth.Loops

/-- **Enough steps for the bounded loop**: it ends as the loop without a bound. -/
theorem growLargest_loops {steps : Nat} (tracked : Tracked incidence growth.selection)
    (enough : growth.selection.unhit ≤ steps) :
    ∃ runs, growth.Loops incidence runs (growLargest incidence steps growth) := by
  induction steps generalizing growth with
  | zero => exact ⟨0, .done enough⟩
  | succ steps ih =>
    rw [growLargest]
    by_cases few : growth.selection.unhit ≤ 0
    · rw [if_pos few]
      exact ⟨0, .done few⟩
    · rw [if_neg few]
      cases stepped : largestStep incidence growth with
      | error fault => exact ⟨1, .fails few stepped⟩
      | ok after =>
        have fewer := largestStep_unhit_lt tracked stepped
        obtain ⟨runs, rest⟩ := ih (tracked.largestStep stepped) (by omega)
        exact ⟨runs + 1, .step few stepped rest⟩

theorem Growth.Reached.tracked (reached : growth.Reached incidence) :
    Tracked incidence growth.selection := by
  induction reached with
  | start => exact tracked_empty incidence
  | step _ _ stepped ih => exact ih.largestStep stepped

/-! ### Faults -/

/-- **What a greedy cover can fail with**: a set that hits nothing or still something, an index
that denotes no place, or no set to take. -/
inductive GreedyFault : Fault → Prop
  | noGain (unhit : Int) : GreedyFault (.violation (.noGain unhit))
  | gainLeft (set : Nat) (gain : Int) : GreedyFault (.violation (.gainLeft set gain))
  | index (place : BadIndex) : GreedyFault (.index place)
  | noSets : GreedyFault (.value .noSets)

/-- A computation that fails as a greedy cover does, if it fails. -/
abbrev GreedyEnds {α : Type} : Except Fault α → Prop := Except.Ends (fun _ => True) GreedyFault

theorem greedyEnds_pathsOf? (incidence : Incidence) (set : Int) :
    GreedyEnds (incidence.pathsOf? set) := by
  unfold Incidence.pathsOf?
  split
  · trivial
  · exact .index _

theorem greedyEnds_hitPath (incidence : Incidence) (selection : Selection) (gains : Array Int)
    (path : Int) : GreedyEnds (hitPath incidence selection gains path) := by
  unfold hitPath
  split
  · exact .index _
  · split
    · trivial
    · split
      · exact .index _
      · refine Except.ends_foldlM fun gains set => ?_
        unfold loseGain
        split
        · exact .index _
        · trivial

theorem greedyEnds_add? (incidence : Incidence) (selection : Selection) (set : Int) :
    GreedyEnds (selection.add? incidence set) := by
  refine Except.Ends.mapError ?_
  unfold Selection.add
  split
  · rename_i failed
    exact (greedyEnds_pathsOf? incidence set).of_error failed
  · refine Except.ends_foldlM fun selection path => ?_
    unfold Selection.countIn
    split
    · exact .index _
    · trivial

theorem greedyEnds_largestStep (growth : Growth) : GreedyEnds (largestStep incidence growth) := by
  unfold largestStep
  split
  · exact .noSets
  · refine Except.ends_check (.noGain _) ?_
    refine (greedyEnds_pathsOf? incidence _).bind fun paths _ => ?_
    refine (Except.ends_foldlM (greedyEnds_hitPath incidence _)).bind fun gains _ => ?_
    refine (greedyEnds_add? incidence _ _).bind fun selection _ => ?_
    exact Except.ends_check (.gainLeft _ _) trivial

theorem greedyEnds_growLargest (steps : Nat) (growth : Growth) :
    GreedyEnds (growLargest incidence steps growth) := by
  induction steps generalizing growth with
  | zero => trivial
  | succ steps ih =>
    rw [growLargest]
    split
    · trivial
    · exact (greedyEnds_largestStep growth).bind fun after _ => ih after

/-! ### The whole cover -/

/-- **The loop of a greedy cover ends.**

* Wherever it comes to, the number of unhit paths is not negative, and a body that does not fail
  makes it smaller.
* Its body runs at most as often as there are paths, and it ends with the cover that the bounded
  loop makes; there is no other end.
* That is a complete selection, made by as many runs as it has members, or one of the faults of a
  greedy cover. -/
structure GreedyTerminates (incidence : Incidence) : Prop where
  falls : ∀ growth : Growth, growth.Reached incidence → 0 ≤ growth.selection.unhit ∧
    ∀ after, largestStep incidence growth = .ok after →
      after.Reached incidence ∧ after.selection.unhit < growth.selection.unhit
  loops : ∃ runs ≤ incidence.pathCount,
    ∀ runs' result, Growth.Loops incidence (.start incidence) runs' result ↔
      runs' = runs ∧ result = largestCover incidence
  ends : Except.Ends
    (fun selection => selection.isComplete ∧
      Growth.Loops incidence (.start incidence) selection.size (.ok selection))
    GreedyFault (largestCover incidence)

theorem largestCover_terminates (incidence : Incidence) : GreedyTerminates incidence := by
  have start : Tracked incidence (Growth.start incidence).selection := tracked_empty incidence
  have faults : GreedyEnds (largestCover incidence) := greedyEnds_growLargest _ _
  obtain ⟨runs, loops⟩ :
      ∃ runs, Growth.Loops incidence (.start incidence) runs (largestCover incidence) :=
    growLargest_loops start (le_refl (incidence.pathCount : Int))
  have bounded : (runs : Int) ≤ incidence.pathCount := loops.le_unhit start
  refine ⟨fun growth reached => ⟨?_, fun after stepped => ?_⟩,
    ⟨runs, by exact_mod_cast bounded, fun runs' result => ⟨loops.unique, ?_⟩⟩, ?_⟩
  · exact reached.tracked.counts.unhit_eq ▸ Int.natCast_nonneg _
  · have fewer := largestStep_unhit_lt reached.tracked stepped
    have natural := (reached.tracked.largestStep stepped).counts.unhit_eq
    exact ⟨reached.step (by omega) stepped, fewer⟩
  · rintro ⟨rfl, rfl⟩
    exact loops
  · match ended : largestCover incidence with
    | .error fault => exact faults.of_error ended
    | .ok selection =>
      rw [ended] at loops
      have size : selection.size = 0 + runs := loops.size_eq start
      rw [Nat.zero_add] at size
      exact ⟨(tracked_largestCover ended).2, size ▸ loops⟩

/-- A path that is listed from either end makes one set do, and a path that knows nothing of its
set makes the loop fail. -/
example : largestCover ⟨#[[0, -1]], #[[0]]⟩ = .ok ⟨[0], #[2], 0⟩ ∧
    largestCover ⟨#[[0]], #[[]]⟩ = .error (.violation (.gainLeft 0 1)) := by
  decide +kernel

end Transversal
