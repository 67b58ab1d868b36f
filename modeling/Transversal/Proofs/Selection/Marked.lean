/-
**Counting and marking tell the same**, over any relation.

The counters of a selection are kept up to date set by set; the paths that a list of sets leaves
unhit are read from marks made in one sweep. Each reads the relation on its own, by indices that may
count from the end or denote nothing.

* `SameIndex`: two look-ups failed on one index.
* `together_ofMembers`: a selection is counted and its sets are marked side by side, and one of them
  stops where the other one does.
* `Selection.Tells`: a selection tells of a list of sets what the marks tell.
* `counters_match_marks`: both fail on one index, or both return and tell the same.
-/
import Transversal.Proofs.Selection.Tracked

namespace Transversal

variable {incidence : Incidence} {selection : Selection} {marks : Array Bool}

/-! ### Side by side -/

/-- **Two look-ups failed on one index**: of a set, which is looked up in the relation either way,
or of a path, which is looked up among the counters and among the marks. -/
inductive SameIndex : Fault → Fault → Prop
  | set (index : Int) :
      SameIndex (BadIndex.inRelation.fault index) (BadIndex.inRelation.fault index)
  | path (index : Int) : SameIndex (BadIndex.inList.fault index) (BadIndex.inMarks.fault index)

theorem together_countIn (size : selection.hits.size = marks.size) (path : Int) :
    Except.Together (fun after marked => after.hits.size = marked.size)
      (fun halted fault => SameIndex halted.fault fault) (selection.countIn path)
      (Incidence.markPath? marks path) := by
  unfold Selection.countIn
  split
  · rename_i missing
    rw [Incidence.markPath?, ← size, missing]
    exact .error (.path path)
  · rename_i place found
    rw [Incidence.markPath?_eq_ok_iff.mpr ⟨place, size ▸ found, rfl⟩]
    refine .ok ?_
    rw [Array.size_set, Array.size_setIfInBounds, size]

/-- One set is counted and marked. -/
theorem together_add? (size : selection.hits.size = marks.size) (set : Int) :
    Except.Together (fun after marked => after.hits.size = marked.size) SameIndex
      (selection.add? incidence set) (incidence.markSet? marks set) := by
  unfold Selection.add? Selection.add Incidence.markSet? Incidence.pathsOf?
  cases entryAt? incidence.sets set with
  | none => exact .error (.set set)
  | some paths =>
    show Except.Together _ _
      ((paths.foldlM Selection.countIn
        { selection with members := selection.members ++ [set] }).mapError Halted.fault)
      (paths.foldlM Incidence.markPath? marks)
    refine Except.Together.mapError ?_
    exact Except.Together.foldlM (fun _ _ path same => together_countIn same path) size

/-- **The sets of a list are counted and marked**, and either stops where the other one does. -/
theorem together_ofMembers (incidence : Incidence) (cover : List Int) :
    Except.Together (fun after marked => after.hits.size = marked.size) SameIndex
      (Selection.ofMembers incidence cover)
      (cover.foldlM incidence.markSet? (Array.replicate incidence.pathCount false)) := by
  refine Except.Together.foldlM (fun _ _ set same => together_add? same set) ?_
  rw [Selection.empty, Array.size_replicate, Array.size_replicate]

/-! ### What both tell -/

/-- **A selection tells of a list of sets what the marks tell.** The paths with the counter zero are
the ones left unhit, in the same order, and `unhit` is their number. It is complete if the sets are
a cover. Every counter is the number of entries of the sets that denote its path. -/
structure Selection.Tells (incidence : Incidence) (cover : List Int) (selection : Selection)
    (unhit : List Nat) : Prop where
  members : selection.members = cover
  zeros : ((List.range selection.hits.size).filter fun path => selection.hitsAt path = 0) = unhit
  unhit : selection.unhit = unhit.length
  complete : incidence.isCover? cover = .ok selection.isComplete
  size : selection.hits.size = incidence.pathCount
  hits : ∀ path < incidence.pathCount, selection.hitsAt path = incidence.tally cover path

/-- The counters that are zero are those of the paths left unhit. -/
theorem Selection.Counts.zeros_eq {cover : List Int} (counts : selection.Counts incidence cover) :
    ((List.range selection.hits.size).filter fun path => selection.hitsAt path = 0) =
      incidence.unhitBy cover := by
  rw [counts.size, Incidence.unhitBy]
  refine List.filter_congr fun path _ => ?_
  rw [counts.hits]
  exact_mod_cast rfl

theorem Tracked.tells (tracked : Tracked incidence selection) :
    selection.Tells incidence selection.members (incidence.unhitBy selection.members) where
  members := rfl
  zeros := tracked.counts.zeros_eq
  unhit := tracked.counts.unhit_eq
  complete := by
    have read : incidence.unhit? selection.members =
        .ok (incidence.unhitBy selection.members) :=
      Incidence.unhit?_eq_ok_iff.mpr ⟨tracked.readable, rfl⟩
    rw [Incidence.isCover?, read, Selection.isComplete, tracked.counts.unhit_eq]
    cases incidence.unhitBy selection.members <;> rfl
  size := tracked.counts.size
  hits path _ := tracked.counts.hits path

/-- **The counters match the marks.** Over any relation and for any list of sets, counting and
marking both fail, on one index, or both return and tell the same. -/
theorem counters_match_marks (incidence : Incidence) (cover : List Int) :
    Except.Together (Selection.Tells incidence cover) SameIndex
      (Selection.ofMembers incidence cover) (incidence.unhit? cover) := by
  have ended := together_ofMembers incidence cover
  rw [Incidence.unhit?]
  generalize marking : cover.foldlM incidence.markSet? _ = marked at ended ⊢
  generalize made : Selection.ofMembers incidence cover = counted at ended ⊢
  cases ended with
  | error failed => exact .error failed
  | @ok selection marks same =>
    obtain ⟨tracked, rfl⟩ := Selection.tracked_ofMembers made
    have read : incidence.unhit? selection.members =
        .ok (incidence.unhitBy selection.members) :=
      Incidence.unhit?_eq_ok_iff.mpr ⟨tracked.readable, rfl⟩
    rw [Incidence.unhit?, marking] at read
    rw [read]
    exact .ok tracked.tells

/-- One set, listed twice, once from the end; it lists the first path twice, and the last one from
the end. The path between them is left unhit. -/
example : Selection.ofMembers ⟨#[[0, 0, -1]], #[[], [], []]⟩ [0, -1] =
      .ok ⟨[0, -1], #[4, 0, 2], 1⟩ ∧
    Incidence.unhit? ⟨#[[0, 0, -1]], #[[], [], []]⟩ [0, -1] = .ok [1] := by
  decide +kernel

end Transversal
