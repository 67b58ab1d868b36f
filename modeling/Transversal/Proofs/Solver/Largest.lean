/-
**The greedy algorithm never fails** on a relation that was built.

* `Incidence.Agreement.solveLargest_ok`: without a solution, or with one that belongs to the
  relation, it returns a sound cover; its sets are among those of the plain greedy.
-/
import Transversal.Proofs.Cover.Gains
import Transversal.Proofs.Solver.Bound

namespace Transversal

variable {incidence : Incidence}

/-- A solution that belongs to the relation has a bound. -/
theorem boundOf?_eq_ok {given : Option Fractional}
    (agrees : ∀ fractional ∈ given, fractional.agrees? incidence = .ok ()) :
    boundOf? incidence given = .ok (given.map Fractional.lowerBound) := by
  cases given with
  | none => rfl
  | some fractional =>
    rw [boundOf?, agrees fractional rfl]
    rfl

/-- **The greedy algorithm returns a sound cover**, of sets that the plain greedy takes. -/
theorem Incidence.Agreement.solveLargest_ok (agreement : incidence.Agreement)
    {given : Option Fractional}
    (agrees : ∀ fractional ∈ given, fractional.agrees? incidence = .ok ()) :
    ∃ outcome taken, solveLargest incidence given = .ok outcome ∧ incidence.Greedy [] taken ∧
      outcome.cover.Sublist taken ∧ SoundCover incidence outcome.cover := by
  obtain ⟨selection, grown, greedy⟩ := agreement.largestCover_isGreedy
  obtain ⟨tracked, complete⟩ := tracked_largestCover grown
  obtain ⟨pruned, ran, part, counts, still⟩ := agreement.exists_pruneInOrder tracked.counts
    (fun set member => (tracked.readable set member).1) complete (List.Perm.refl _)
  have left : pruned? incidence selection = .ok pruned :=
    Except.bind_eq_ok_iff.mpr
      ⟨selection, (copyComplete?_eq_ok_iff tracked.counts).mpr ⟨complete, rfl⟩, ran⟩
  obtain ⟨outcome, solved, same⟩ : ∃ outcome, solveLargest incidence given = .ok outcome ∧
      outcome.cover = pruned.members := by
    rw [solveLargest, boundOf?_eq_ok agrees]
    exact ⟨_, Except.bind_eq_ok_iff.mpr ⟨_, rfl, Except.bind_eq_ok_iff.mpr
      ⟨selection, grown, Except.bind_eq_ok_iff.mpr ⟨pruned, left, rfl⟩⟩⟩, rfl⟩
  rw [← same] at part
  refine ⟨outcome, _, solved, (greedy.greedy _).mpr rfl, part, ?_⟩
  have few := le_trans part.length_le (le_trans greedy.sound.small (min_le_left _ _))
  rw [same] at part few ⊢
  exact soundCover_of_counts agreement counts still (part.nodup greedy.sound.distinct)
    (fun set member => greedy.sound.valid set (part.subset member)) few

/-- The history is of one round. -/
theorem history_of_solveLargest {given : Option Fractional} {outcome : Outcome}
    (run : solveLargest incidence given = .ok outcome) :
    outcome.history = [(1, outcome.size)] := by
  obtain ⟨_, pruned, _, _, _, same, history⟩ := exists_of_solveLargest run
  rw [history, Outcome.size, same, Selection.size]

/-- The events of a run do not concern it. -/
theorem solve_largest (incidence : Incidence) (given : Option Fractional) (options : Options) :
    solve .largest incidence given options = (solveLargest incidence given, #[]) := rfl

end Transversal
