/-
**The greedy algorithm does not see the numbers of paths.**

A greedy cover is that of the plain greedy, which only counts unhit paths, and pruning it is reverse
deletion, which only asks for covers. Both counts and covers are the same under other numbers, so
neither the order in which paths are visited nor the kept gains have to be followed here.

* `Incidence.Renumbered.greedy`: the plain greedy takes the same sets.
* `Incidence.Renumbered.deleted?_eq`: reverse deletion drops the same sets.
* `Incidence.Renumbered.sameGreedyRuns`: so the runs are the same, up to the places of counters.
* `renumbered_runs`: a family written with other numbers makes such a relation.
-/
import Transversal.Proofs.Cover.Deletion
import Transversal.Proofs.Incidence.Renumbered
import Transversal.Proofs.Solver.Largest

namespace Transversal

variable {incidence other : Incidence} {count : Nat} {numbering : Equiv.Perm (Fin count)}

namespace Incidence.Renumbered

variable (same : incidence.Renumbered numbering other)

include same

/-! ### The plain greedy -/

/-- A set hits as many of the unhit paths. -/
theorem hitsAmong_unhitBy (members : List Int) (set : Int) :
    other.hitsAmong (other.unhitBy members) set =
      incidence.hitsAmong (incidence.unhitBy members) set :=
  same.countP_unhitBy members _ _ fun path => decide_eq_decide.mpr (same.listed set path)

theorem isBest_iff (members : List Int) (best : Nat) :
    other.IsBest (other.unhitBy members) best ↔
      incidence.IsBest (incidence.unhitBy members) best := by
  constructor
  · rintro ⟨known, most, first⟩
    simp only [same.setCount, same.hitsAmong_unhitBy] at known most first
    exact ⟨known, most, first⟩
  · rintro ⟨known, most, first⟩
    refine ⟨?_, ?_, ?_⟩ <;> simp only [same.setCount, same.hitsAmong_unhitBy]
    exacts [known, most, first]

theorem unhit?_eq_ok {members : List Int} {unhit : List Nat}
    (left : incidence.unhit? members = .ok unhit) :
    unhit = incidence.unhitBy members ∧ other.unhit? members = .ok (other.unhitBy members) := by
  obtain ⟨readable, rfl⟩ := unhit?_eq_ok_iff.mp left
  exact ⟨rfl, unhit?_eq_ok_iff.mpr
    ⟨fun set member => (same.readable_iff set).mpr (readable set member), rfl⟩⟩

theorem unhitBy_eq_nil_iff (members : List Int) :
    other.unhitBy members = [] ↔ incidence.unhitBy members = [] := by
  rw [← List.length_eq_zero_iff, ← List.length_eq_zero_iff, same.length_unhitBy]

/-- **The plain greedy takes the same sets.** -/
theorem greedy {members final : List Int} (greedy : incidence.Greedy members final) :
    other.Greedy members final := by
  induction greedy with
  | done none_left =>
    obtain ⟨empty, left⟩ := same.unhit?_eq_ok none_left
    rw [(same.unhitBy_eq_nil_iff _).mpr empty.symm] at left
    exact .done left
  | take left some_left isBest _ ih =>
    obtain ⟨rfl, left'⟩ := same.unhit?_eq_ok left
    exact .take left' (mt (same.unhitBy_eq_nil_iff _).mp some_left)
      ((same.isBest_iff _ _).mpr isBest) ih

/-! ### Reverse deletion -/

/-- The same lists of sets are covers. -/
theorem isCover?_eq {cover : List Int} (readable : ∀ set ∈ cover, incidence.Readable set) :
    other.isCover? cover = incidence.isCover? cover := by
  rw [isCover?_eq_ok readable,
    isCover?_eq_ok fun set member => (same.readable_iff set).mpr (readable set member)]
  simp only [← Incidence.unhitBy_eq_nil_iff, same.unhitBy_eq_nil_iff]

/-- **Reverse deletion drops the same sets.** -/
theorem deleted?_eq {kept order : List Int}
    (readable : ∀ set ∈ kept ++ order, incidence.Readable set) :
    other.deleted? kept order = incidence.deleted? kept order := by
  induction order generalizing kept with
  | nil => rfl
  | cons set rest ih =>
    have others : ∀ member ∈ kept ++ rest, incidence.Readable member := fun member listed =>
      readable member (((List.sublist_cons_self set rest).append_left _).subset listed)
    have moved : ∀ member ∈ (kept ++ [set]) ++ rest, incidence.Readable member := by
      rwa [List.append_assoc, List.singleton_append]
    rw [deleted?, deleted?, same.isCover?_eq others, ih others, ih moved]

end Incidence.Renumbered

/-! ### Runs -/

/-- **Two selections that only differ by the numbers of paths**: the counter of a path stands at its
new number. -/
structure Selection.Renumbered (numbering : Equiv.Perm (Fin count))
    (selection other : Selection) : Prop where
  members : other.members = selection.members
  unhit : other.unhit = selection.unhit
  size : selection.hits.size = count
  size' : other.hits.size = count
  hits : ∀ path : Fin count, other.hits[(numbering path : Nat)]? = selection.hits[(path : Nat)]?

/-- **Two relations on which the greedy algorithm runs alike.** The whole outcome is the same: the
cover, its size, the size before pruning, and the refusal of a solution that does not belong to the
relation. The counters of the whole cover stand at the new numbers. -/
structure SameGreedyRuns (numbering : Equiv.Perm (Fin count)) (incidence other : Incidence) :
    Prop where
  grown : ∃ selection selection', largestCover incidence = .ok selection ∧
    largestCover other = .ok selection' ∧ selection.Renumbered numbering selection'
  solved : ∀ given, solveLargest other given = solveLargest incidence given
  returned : ∀ given : Option Fractional,
    (∀ fractional ∈ given, fractional.agrees? incidence = .ok ()) →
    ∃ outcome, solveLargest incidence given = .ok outcome

namespace Incidence.Renumbered

variable (same : incidence.Renumbered numbering other)

include same

/-- Counters of the same members only differ by the numbers of paths. -/
theorem selection {selection selection' : Selection} (tracked : Tracked incidence selection)
    (tracked' : Tracked other selection') (members : selection'.members = selection.members) :
    selection.Renumbered numbering selection' where
  members := members
  unhit := by
    rw [tracked.counts.unhit_eq, tracked'.counts.unhit_eq, members, same.length_unhitBy]
  size := tracked.counts.size.trans same.pathCount
  size' := tracked'.counts.size.trans same.pathCount'
  hits path := by
    have within : (path : Nat) < selection.hits.size := by
      rw [tracked.counts.size, same.pathCount]
      exact path.isLt
    have within' : (numbering path : Nat) < selection'.hits.size := by
      rw [tracked'.counts.size, same.pathCount']
      exact (numbering path).isLt
    rw [Array.getElem?_eq_getElem within, Array.getElem?_eq_getElem within',
      ← Selection.hitsAt_eq_getElem, ← Selection.hitsAt_eq_getElem, tracked.counts.hits,
      tracked'.counts.hits, members, same.tally_eq]

/-- **The same cover is grown.** -/
theorem exists_largestCover : ∃ selection selection', largestCover incidence = .ok selection ∧
    largestCover other = .ok selection' ∧ selection.Renumbered numbering selection' := by
  obtain ⟨selection, grown, isGreedy⟩ := same.agreement.largestCover_isGreedy
  obtain ⟨selection', grown', isGreedy'⟩ := same.agreement'.largestCover_isGreedy
  have members := (isGreedy'.greedy _).mp (same.greedy ((isGreedy.greedy _).mpr rfl))
  exact ⟨selection, selection', grown, grown', same.selection (tracked_largestCover grown).1
    (tracked_largestCover grown').1 members.symm⟩

/-- A whole cover is pruned in order to what reverse deletion leaves of it. -/
theorem exists_pruned? {selection selection' : Selection}
    (grown : largestCover incidence = .ok selection)
    (grown' : largestCover other = .ok selection')
    (members : selection'.members = selection.members) :
    ∃ pruned pruned', pruned? incidence selection = .ok pruned ∧
      pruned? other selection' = .ok pruned' ∧ pruned'.members = pruned.members := by
  obtain ⟨tracked, complete⟩ := tracked_largestCover grown
  obtain ⟨tracked', complete'⟩ := tracked_largestCover grown'
  obtain ⟨pruned, ran, left⟩ := same.agreement.prunedIn?_ok tracked complete (List.Perm.refl _)
  obtain ⟨pruned', ran', left'⟩ :=
    same.agreement'.prunedIn?_ok tracked' complete' (List.Perm.refl _)
  have kept := left'.kept
  rw [members, same.deleted?_eq (by simpa using tracked.readable), left.kept] at kept
  exact ⟨pruned, pruned', ran, ran', (Except.ok.inj kept).symm⟩

theorem agrees?_eq (fractional : Fractional) :
    fractional.agrees? other = fractional.agrees? incidence := by
  rw [Fractional.agrees?, Fractional.agrees?, same.pathCount, same.pathCount', same.setCount]

theorem solveLargest_eq (given : Option Fractional) :
    solveLargest other given = solveLargest incidence given := by
  have bound : boundOf? other given = boundOf? incidence given := by
    cases given with
    | none => rfl
    | some fractional => rw [boundOf?, boundOf?, same.agrees?_eq]
  obtain ⟨selection, selection', grown, grown', alike⟩ := same.exists_largestCover
  obtain ⟨pruned, pruned', ran, ran', kept⟩ := same.exists_pruned? grown grown' alike.members
  rw [solveLargest, solveLargest, bound]
  refine Except.bind_congr_ok fun lowerBound _ => ?_
  rw [grown, grown']
  show (pruned? other selection' >>= _) = pruned? incidence selection >>= _
  rw [ran, ran']
  show Except.ok _ = Except.ok _
  rw [kept, Selection.size, Selection.size, Selection.size, Selection.size, kept, alike.members]

/-- **The greedy algorithm runs alike** on relations that only differ by the numbers of paths. -/
theorem sameGreedyRuns : SameGreedyRuns numbering incidence other where
  grown := same.exists_largestCover
  solved := same.solveLargest_eq
  returned _ agrees := by
    obtain ⟨outcome, _, solved, _⟩ := same.agreement.solveLargest_ok agrees
    exact ⟨outcome, solved⟩

end Incidence.Renumbered

/-- **The greedy algorithm does not depend on the numbers of paths**: if every path listed is
written with its number under a permutation, a relation is made again, whether the number of paths
is stated or not, and the algorithm runs alike on it. The lists may be the relation's own, which
make it too (`Incidence.ofSets?_again`). -/
theorem renumbered_runs {sets : List (List Int)} {pathCount : Option Int}
    (built : Incidence.ofSets? sets pathCount = .ok incidence)
    (size : incidence.pathCount = count) (numbering : Equiv.Perm (Fin count)) :
    ∃ other, Incidence.ofSets? (renumbered numbering sets) none = .ok other ∧
      Incidence.ofSets? (renumbered numbering sets) (some count) = .ok other ∧
      SameGreedyRuns numbering incidence other := by
  obtain ⟨other, built', stated, same⟩ := Incidence.exists_renumbered built size numbering
  exact ⟨other, built', stated, same.sameGreedyRuns⟩

/-- The detour with its first and fourth path exchanged. -/
theorem renumbered_runs_detour :
    ∃ other, Incidence.ofSets? [[3, 1, 2], [0, 4, 5], [1, 2, 0, 4]] none = .ok other ∧
      other ≠ detour ∧ detour.pathCount = 6 ∧
      SameGreedyRuns (Equiv.swap (0 : Fin 6) 3) detour other := by
  obtain ⟨other, built, _, same⟩ :=
    renumbered_runs detour_built (show detour.pathCount = 6 from rfl) (Equiv.swap (0 : Fin 6) 3)
  have written : renumbered (Equiv.swap (0 : Fin 6) 3) [[0, 1, 2], [3, 4, 5], [1, 2, 3, 4]] =
      [[3, 1, 2], [0, 4, 5], [1, 2, 0, 4]] := by decide +kernel
  rw [written] at built
  refine ⟨other, built, ?_, rfl, same⟩
  rintro rfl
  exact absurd built (by decide +kernel)

end Transversal
