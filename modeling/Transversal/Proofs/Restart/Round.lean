/-
**A round never fails, and both of its covers are sound.**

* `SoundCover`: distinct sets that hit every path, no more of them than paths, and no more than
  sets.
* `Task.Ready`: the directions of the relation agree, and every path can be sampled for.
* `Task.Ready.yields_round`: on every stream a ready task yields a `Round.Sound`.
* `Task.appends_round`: it does not depend on what was reported before, and reports no improvement.
-/
import Transversal.Proofs.Cover.Pruned
import Transversal.Proofs.Cover.Sampled
import Transversal.Restart.Progress

namespace Transversal

/-- **Distinct sets that hit every path**, no more of them than paths, and no more than sets. -/
structure SoundCover (incidence : Incidence) (cover : List Int) : Prop where
  distinct : cover.Nodup
  valid : ∀ set ∈ cover, ∃ place < incidence.setCount, set = (place : Nat)
  covers : incidence.isCover? cover = .ok true
  small : cover.length ≤ min incidence.pathCount incidence.setCount

/-- There are no more distinct sets than sets. -/
theorem length_le_setCount {incidence : Incidence} {cover : List Int} (distinct : cover.Nodup)
    (valid : ∀ set ∈ cover, ∃ place < incidence.setCount, set = (place : Nat)) :
    cover.length ≤ incidence.setCount := by
  have inside : cover ⊆ (List.range incidence.setCount).map fun place : Nat => (place : Int) := by
    intro set member
    obtain ⟨place, below, rfl⟩ := valid set member
    exact List.mem_map.mpr ⟨place, List.mem_range.mpr below, rfl⟩
  have bounded := (distinct.subperm inside).length_le
  rwa [List.length_map, List.length_range] at bounded

/-- Nothing needs to be selected where there is no path. -/
theorem soundCover_nil {incidence : Incidence} (none : incidence.pathCount = 0) :
    SoundCover incidence [] where
  distinct := List.nodup_nil
  valid _ member := absurd member List.not_mem_nil
  covers := Incidence.isCover?_eq_true_iff.mpr ⟨fun _ member => absurd member List.not_mem_nil,
    fun path within => absurd within (by omega)⟩
  small := Nat.zero_le _

/-- Both covers of a round are sound, and pruning only makes it smaller. -/
structure Round.Sound (incidence : Incidence) (round : Round) : Prop where
  constructed : SoundCover incidence round.constructed.members
  pruned : SoundCover incidence round.pruned.members
  smaller : round.pruned.size ≤ round.constructed.size

/-- A task whose rounds cannot fail. -/
structure Task.Ready (task : Task) : Prop where
  agreement : task.incidence.Agreement
  support : ∀ path < task.incidence.pathCount,
    Supported task.activities (task.incidence.hitting path)

variable {incidence : Incidence}

/-- A complete selection of distinct sets, at most one for every path, is a sound cover. -/
theorem soundCover_of_counts (agreement : incidence.Agreement) {selection : Selection}
    (counts : selection.Counts incidence selection.members) (complete : selection.isComplete)
    (distinct : selection.members.Nodup)
    (valid : ∀ set ∈ selection.members, ∃ place < incidence.setCount, set = (place : Nat))
    (few : selection.members.length ≤ incidence.pathCount) :
    SoundCover incidence selection.members where
  distinct := distinct
  valid := valid
  covers := by
    refine counts.isCover (fun set member => ?_) complete
    obtain ⟨place, below, rfl⟩ := valid set member
    exact agreement.readable_natCast below
  small := le_min few (length_le_setCount distinct valid)

/-- **A round never fails**, and both of its covers are sound. -/
theorem Task.Ready.yields_round {σ : Type} [RandomStream σ] {task : Task} (ready : task.Ready) :
    Run.Yields (task.round : Run σ Round) (Round.Sound task.incidence) := by
  refine (yields_sampledCover ready.agreement ready.support task.maxDraws).bind
    fun grown growing => ?_
  obtain ⟨growing, complete⟩ := growing
  have known : ∀ set ∈ grown.members, (entryAt? task.incidence.sets set).isSome := by
    intro set member
    obtain ⟨place, below, rfl⟩ := growing.valid set member
    exact (ready.agreement.readable_natCast below).1
  have few : grown.members.length ≤ task.incidence.pathCount :=
    le_trans (Nat.le_add_right _ _) growing.bounded
  refine (yields_prunedAtRandom ready.agreement growing.counts known complete).bind ?_
  rintro pruned ⟨⟨order, same, part⟩, counts, still⟩
  have fewer : pruned.members.length ≤ grown.members.length :=
    le_trans part.length_le (le_of_eq same.length_eq)
  refine Run.yields_pure ⟨?_, ?_, fewer⟩
  · exact soundCover_of_counts ready.agreement growing.counts complete growing.distinct
      growing.valid few
  · refine soundCover_of_counts ready.agreement counts still ?_ ?_ (le_trans fewer few)
    · exact part.nodup (same.nodup_iff.mpr growing.distinct)
    · intro set member
      exact growing.valid set (same.subset (part.subset member))

theorem Task.appends_round {σ : Type} [RandomStream σ] (task : Task) :
    (task.round : Run σ Round).Appends := by
  refine (appends_sampledCover _ _ _).bind fun constructed => ?_
  refine Run.Appends.bind ?_ fun pruned => Run.appends_pure _
  refine (Run.appends_lift _).bind fun copied => ?_
  exact (Run.appends_draw _).bind fun order => Run.appends_lift _

end Transversal
