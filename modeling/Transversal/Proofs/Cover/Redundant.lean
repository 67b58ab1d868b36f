/-
**A member is redundant if nothing more is left unhit without it.**

The counters answer for one occurrence of a set in a list of sets, which may leave paths unhit and
may hold the set more than once.

* `Incidence.unhitBy_eq_iff`: two lists of sets leave the same paths unhit.
* `Incidence.Agreement.tally_middle`: one occurrence hits each of its paths once.
* `Incidence.Agreement.redundant_iff`: without it the same paths are left unhit if the list hits
  every one of its paths twice.
* `Selection.ReleasedFrom`: what is left when the occurrence is released.
* `redundant_iff_unhit`: the question is always answered, by what the marks tell of both lists, and
  to release the set is to have selected the others only.
-/
import Transversal.Proofs.Cover.Pruned

namespace Transversal

variable {incidence : Incidence} {selection : Selection} {before after : List Int} {set : Int}

namespace Incidence

/-- **Two lists of sets leave the same paths unhit** if they hit the same ones. -/
theorem unhitBy_eq_iff {first second : List Int} :
    incidence.unhitBy first = incidence.unhitBy second ↔
      ∀ path < incidence.pathCount,
        (incidence.tally first path = 0 ↔ incidence.tally second path = 0) := by
  constructor
  · intro same path within
    have told : path ∈ incidence.unhitBy first ↔ path ∈ incidence.unhitBy second := by rw [same]
    simpa [unhitBy, within] using told
  · intro same
    refine List.filter_congr fun path member => ?_
    exact decide_eq_decide.mpr (same path (List.mem_range.mp member))

namespace Agreement

variable (agreement : incidence.Agreement)

include agreement

/-- One occurrence hits each of its paths once, and no other path. -/
theorem tally_middle (before after : List Int) (set : Int) (path : Nat) :
    incidence.tally (before ++ set :: after) path =
      (if (path : Int) ∈ incidence.listed set then 1 else 0) +
        incidence.tally (before ++ after) path := by
  rw [tally_perm List.perm_middle, tally_cons, agreement.visits_eq]

/-- **Without one occurrence the same paths are left unhit** if every path of the set is hit
twice. -/
theorem redundant_iff :
    (∀ path ∈ incidence.listed set, 2 ≤ incidence.tally (before ++ set :: after) path.toNat) ↔
      incidence.unhitBy (before ++ after) = incidence.unhitBy (before ++ set :: after) := by
  rw [unhitBy_eq_iff]
  constructor
  · intro twice path _
    have parts := agreement.tally_middle before after set path
    by_cases listed : (path : Int) ∈ incidence.listed set
    · have enough := twice path listed
      rw [Int.toNat_natCast] at enough
      rw [if_pos listed] at parts
      omega
    · rw [if_neg listed] at parts
      omega
  · intro same path listed
    obtain ⟨natural, below⟩ := agreement.inRange set path listed
    obtain ⟨place, rfl⟩ := Int.eq_ofNat_of_zero_le natural
    have parts := agreement.tally_middle before after set place
    rw [if_pos listed] at parts
    -- the list with the occurrence hits the path, so the list without it does
    have others := same place (by exact_mod_cast below)
    rw [Int.toNat_natCast]
    omega

end Agreement

end Incidence

/-- **What is left of a selection** when one occurrence of a set is released: the counters and the
number of unhit paths of the selection of the others. The members are not looked at. -/
structure Selection.ReleasedFrom (incidence : Incidence) (selection : Selection)
    (others : List Int) (released : Selection) : Prop where
  members : released.members = selection.members
  recounted : Selection.ofMembers incidence others =
    .ok ⟨others, released.hits, released.unhit⟩

/-- A set that is counted can be released, whether it is redundant or not. -/
theorem Tracked.exists_release (tracked : Tracked incidence selection)
    (same : selection.members = before ++ set :: after) :
    ∃ released, selection.release? incidence set = .ok released ∧
      selection.ReleasedFrom incidence (before ++ after) released := by
  have member : set ∈ selection.members := by simp [same]
  obtain ⟨released, ran⟩ :=
    (Selection.release?_ok_iff tracked.counts.size).mpr (tracked.readable set member)
  obtain ⟨members, fewer⟩ := tracked.counts.release member ran
  have counts : released.Counts incidence (before ++ after) :=
    fewer.perm (same ▸ erase_middle_perm before after set)
  refine ⟨released, ran, members, Selection.ofMembers_eq_ok_iff.mpr ⟨⟨?_, ?_⟩, rfl⟩⟩
  · exact counts.withMembers (before ++ after)
  · intro other kept
    refine tracked.readable other ?_
    rw [same]
    exact ((List.sublist_cons_self set after).append_left before).subset kept

/-- **A member is redundant if nothing more is left unhit without it.** Over a relation that was
built, sets can be selected in any number and order, covering or not. Whether one occurrence of a
set is redundant is always answered: it is if the others leave the same paths unhit. To release the
set leaves the counters and the number of unhit paths of the selection of the others. -/
theorem redundant_iff_unhit {sets : List (List Int)} {pathCount : Option Int}
    (built : Incidence.ofSets? sets pathCount = .ok incidence)
    (known : ∀ other ∈ before ++ set :: after, (entryAt? incidence.sets other).isSome) :
    ∃ selection redundant unhit released,
      Selection.ofMembers incidence (before ++ set :: after) = .ok selection ∧
      selection.isRedundant? incidence set = .ok redundant ∧
      incidence.unhit? (before ++ set :: after) = .ok unhit ∧
      (redundant = true ↔ incidence.unhit? (before ++ after) = .ok unhit) ∧
      selection.release? incidence set = .ok released ∧
      selection.ReleasedFrom incidence (before ++ after) released := by
  have agreement := Incidence.agreement_of_ofSets? built
  have readable : ∀ other ∈ before ++ set :: after, incidence.Readable other :=
    fun other member => agreement.readable_iff.mpr (known other member)
  have others : ∀ other ∈ before ++ after, incidence.Readable other := fun other member =>
    readable other (((List.sublist_cons_self set after).append_left before).subset member)
  have member : set ∈ before ++ set :: after := by simp
  obtain ⟨selection, made⟩ := Selection.ofMembers_ok_iff.mpr readable
  obtain ⟨tracked, same⟩ := Selection.tracked_ofMembers made
  obtain ⟨released, ran, left⟩ := tracked.exists_release same
  refine ⟨selection, _, _, released, made,
    agreement.isRedundant?_eq_ok (same ▸ tracked.counts) member (known set member),
    Incidence.unhit?_eq_ok_iff.mpr ⟨readable, rfl⟩, ?_, ran, left⟩
  rw [decide_eq_true_eq, agreement.redundant_iff, Incidence.unhit?_eq_ok_iff,
    and_iff_right others, eq_comm]

/-- Two sets with a path each. -/
def pair : Incidence := ⟨#[[0], [1]], #[[0], [1]]⟩

/-- The first set is selected twice, once by an index from the end, and leaves the second path
unhit. One of the two occurrences is redundant. -/
theorem redundant_iff_unhit_pair : ∃ selection released,
    Selection.ofMembers pair [0, -2] = .ok selection ∧
      selection.isRedundant? pair 0 = .ok true ∧
      pair.unhit? [-2] = .ok [1] ∧ selection.release? pair 0 = .ok released ∧
      selection.ReleasedFrom pair [-2] released := by
  have built : Incidence.ofSets? [[0], [1]] none = .ok pair := by decide +kernel
  have known : ∀ other ∈ [] ++ 0 :: [(-2 : Int)], (entryAt? pair.sets other).isSome := by decide
  obtain ⟨selection, redundant, unhit, released, made, asked, whole, same, ran, left⟩ :=
    redundant_iff_unhit built known
  have told : pair.unhit? [0, -2] = .ok [1] := by decide +kernel
  have told' : pair.unhit? [-2] = .ok [1] := by decide +kernel
  obtain rfl : [1] = unhit := Except.ok.inj (told.symm.trans whole)
  obtain rfl := same.mpr told'
  exact ⟨selection, released, made, asked, told', ran, left⟩

end Transversal
