/-
**A selection that can be recounted from its members.**

* `Tracked`: the counters are those of the members, and every member can be read. Kept by every
  set taken, whatever led to the choice.
* `Selection.ofMembers_eq_ok_iff`: such a selection is the one that is made of its members, and
  there is no other.
* `Selection.IsWhole`: it can be recounted, and its members are a cover;
  `Tracked.isWhole`: all of it if no path is said to be unhit.
-/
import Transversal.Proofs.Selection.Counters

namespace Transversal

variable {incidence : Incidence} {selection after : Selection}

/-- **The counters are those of the members**, and every member can be read. -/
structure Tracked (incidence : Incidence) (selection : Selection) : Prop where
  counts : selection.Counts incidence selection.members
  readable : ∀ set ∈ selection.members, incidence.Readable set

theorem tracked_empty (incidence : Incidence) :
    Tracked incidence (.empty incidence.pathCount) where
  counts := .empty incidence
  readable _ member := absurd member List.not_mem_nil

namespace Tracked

theorem members_add (tracked : Tracked incidence selection) {set : Int}
    (run : selection.add? incidence set = .ok after) :
    after.members = selection.members ++ [set] := (tracked.counts.add run).1

theorem add (tracked : Tracked incidence selection) {set : Int}
    (run : selection.add? incidence set = .ok after) : Tracked incidence after := by
  have readable := (Selection.add?_ok_iff tracked.counts.size).mp ⟨after, run⟩
  obtain ⟨members, counts⟩ := tracked.counts.add run
  refine ⟨members ▸ counts, ?_⟩
  rw [members, List.forall_mem_append, List.forall_mem_singleton]
  exact ⟨tracked.readable, readable⟩

/-- The members determine everything. -/
theorem eq_of_members {other : Selection} (tracked : Tracked incidence selection)
    (tracked' : Tracked incidence other) (same : selection.members = other.members) :
    selection = other := by
  have size : selection.hits.size = other.hits.size :=
    tracked.counts.size.trans tracked'.counts.size.symm
  have hits : selection.hits = other.hits := by
    refine Array.ext size fun path within within' => ?_
    rw [← Selection.hitsAt_eq_getElem within, ← Selection.hitsAt_eq_getElem within',
      tracked.counts.hits, tracked'.counts.hits, same]
  have unhit : selection.unhit = other.unhit := by
    rw [tracked.counts.unhit_eq, tracked'.counts.unhit_eq, same]
  cases selection
  cases other
  simp_all

end Tracked

namespace Selection

theorem tracked_ofMembers {members : List Int}
    (run : ofMembers incidence members = .ok selection) :
    Tracked incidence selection ∧ selection.members = members :=
  Except.foldlM_ok_induct (fun seen now => Tracked incidence now ∧ now.members = seen)
    (fun _ _ _ _ ⟨tracked, same⟩ stepped =>
      ⟨tracked.add stepped, by rw [tracked.members_add stepped, same]⟩)
    ⟨tracked_empty incidence, rfl⟩ run

/-- Readable sets make a selection. -/
theorem ofMembers_ok_iff {members : List Int} :
    (∃ selection, ofMembers incidence members = .ok selection) ↔
      ∀ set ∈ members, incidence.Readable set :=
  Except.foldlM_eq_ok_iff (Tracked incidence) incidence.Readable
    (fun _ _ tracked => add?_ok_iff tracked.counts.size)
    (fun _ _ _ tracked stepped => tracked.add stepped) (tracked_empty incidence)

/-- **The selection that is made of a list of sets** is the one with these members that is
tracked. -/
theorem ofMembers_eq_ok_iff {members : List Int} :
    ofMembers incidence members = .ok selection ↔
      Tracked incidence selection ∧ selection.members = members := by
  refine ⟨tracked_ofMembers, ?_⟩
  rintro ⟨tracked, rfl⟩
  obtain ⟨other, made⟩ := ofMembers_ok_iff.mpr tracked.readable
  obtain ⟨tracked', same⟩ := tracked_ofMembers made
  rwa [← tracked.eq_of_members tracked' same.symm] at made

/-- **A whole selection**: its members hit every path, and counting them again leads to the same
selection. -/
structure IsWhole (incidence : Incidence) (selection : Selection) : Prop where
  covers : incidence.isCover? selection.members = .ok true
  recounted : ofMembers incidence selection.members = .ok selection

end Selection

/-- **A tracked selection is whole** if no path is said to be unhit. -/
theorem Tracked.isWhole (tracked : Tracked incidence selection)
    (complete : selection.isComplete) : selection.IsWhole incidence where
  covers := tracked.counts.isCover tracked.readable complete
  recounted := Selection.ofMembers_eq_ok_iff.mpr ⟨tracked, rfl⟩

end Transversal
