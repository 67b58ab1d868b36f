/-
**Pruning is reverse deletion.**

The counters of a selection answer in one look at each path of a member whether the other members
are still a cover. They are those of the members kept and of the members still to be examined,
while the list of members itself is brought up to date only at the end.

* `Incidence.deleted?`: the plain procedure, which asks every time whether the rest is a cover.
* `prunedIn?`: a selection pruned in a given order; `Pruning`: the ways to prune it, each of them
  with its order; `Pruning.eq`: they differ in the order only.
* `Incidence.Agreement.examine_deletes`: the examination keeps what the plain procedure keeps.
* `pruning_deletes`: a cover can be pruned in every order of its members, and what is left is what
  the plain procedure leaves.
-/
import Transversal.Proofs.Cover.Pruned

namespace Transversal

variable {incidence : Incidence} {selection pruned : Selection} {order : List Int}

/-! ### The plain procedure -/

/-- **Reverse deletion.** The entries of a list are examined one after the other; one is dropped if
those kept before it and those still to come are a cover without it. -/
def Incidence.deleted? (incidence : Incidence) : (kept order : List Int) → Except Fault (List Int)
  | kept, [] => .ok kept
  | kept, set :: rest => do
    if ← incidence.isCover? (kept ++ rest) then incidence.deleted? kept rest
    else incidence.deleted? (kept ++ [set]) rest

theorem Incidence.deleted?_cons {kept rest : List Int} {set : Int} {covers : Bool}
    (asked : incidence.isCover? (kept ++ rest) = .ok covers) :
    incidence.deleted? kept (set :: rest) =
      incidence.deleted? (if covers then kept else kept ++ [set]) rest := by
  rw [deleted?, asked]
  cases covers <;> rfl

/-- **The examination keeps what the plain procedure keeps.** The counters are those of the members
kept and of those still to come. -/
theorem Incidence.Agreement.examine_deletes (agreement : incidence.Agreement)
    {reversedKept : List Int}
    (counts : selection.Counts incidence (reversedKept.reverse ++ order))
    (readable : ∀ set ∈ reversedKept.reverse ++ order, incidence.Readable set)
    (complete : selection.isComplete) :
    incidence.deleted? reversedKept.reverse order =
      (examine incidence order reversedKept selection).map Selection.members := by
  induction order generalizing reversedKept selection with
  | nil => rfl
  | cons set rest ih =>
    have others : ∀ other ∈ reversedKept.reverse ++ rest, incidence.Readable other :=
      fun other member =>
        readable other (((List.sublist_cons_self set rest).append_left _).subset member)
    rcases agreement.examine_cons counts (readable set (by simp)).1 complete with
      ⟨after, same, fewer, still⟩ | ⟨same, counts, needed⟩
    · rw [same, deleted?_cons (fewer.isCover others still)]
      exact ih fewer others still
    · rw [same, deleted?_cons (needed.isCover?_eq_false agreement others),
        if_neg Bool.false_ne_true, ← List.reverse_cons]
      exact ih counts (append_reverse_cons _ _ _ ▸ readable) complete

/-! ### Orders -/

/-- A selection pruned in a given order. -/
def prunedIn? (incidence : Incidence) (selection : Selection) (order : List Int) :
    Except Fault Selection := do
  pruneInOrder incidence (← copyComplete? selection) order

/-- **The ways to prune a selection**, each with the order of the examination and with what comes
of it: in the order of the members, or in the order that a stream shuffles them into. -/
inductive Pruning (incidence : Incidence) (selection : Selection) :
    List Int → Except Fault Selection → Prop
  | inOrder : Pruning incidence selection selection.members (pruned? incidence selection)
  | atRandom {σ : Type} [RandomStream σ] (desk : Desk σ) :
      Pruning incidence selection (RandomStream.shuffle selection.members desk.stream).1
        ((prunedAtRandom incidence selection).run.run desk).1

/-- **The ways to prune differ in the order only.** -/
theorem Pruning.eq {result : Except Fault Selection}
    (pruning : Pruning incidence selection order result) :
    order.Perm selection.members ∧ result = prunedIn? incidence selection order := by
  cases pruning with
  | inOrder => exact ⟨List.Perm.refl _, rfl⟩
  | atRandom desk =>
    refine ⟨RandomStream.shuffle_perm _ _, ?_⟩
    rw [prunedAtRandom, prunedIn?]
    cases copyComplete? selection <;> rfl

/-- A cover is copied as it is. -/
theorem prunedIn?_eq_pruneInOrder (tracked : Tracked incidence selection)
    (complete : selection.isComplete) (order : List Int) :
    prunedIn? incidence selection order = pruneInOrder incidence selection order := by
  rw [prunedIn?, (copyComplete?_eq_ok_iff tracked.counts).mpr ⟨complete, rfl⟩]
  rfl

/-- A complete selection can be pruned in every order of its members. -/
theorem Incidence.Agreement.exists_prunedIn? (agreement : incidence.Agreement)
    (tracked : Tracked incidence selection) (complete : selection.isComplete)
    (same : order.Perm selection.members) :
    ∃ pruned, prunedIn? incidence selection order = .ok pruned ∧
      examine incidence order [] selection = .ok pruned ∧
      Tracked incidence pruned ∧ pruned.isComplete := by
  have known : ∀ set ∈ selection.members, (entryAt? incidence.sets set).isSome :=
    fun set member => (tracked.readable set member).1
  obtain ⟨pruned, ran, _⟩ := agreement.exists_pruneInOrder tracked.counts known complete same
  exact ⟨pruned, (prunedIn?_eq_pruneInOrder tracked complete order).trans ran,
    (pruneInOrder_eq_ok_iff.mp ran).1, tracked.pruneInOrder same ran⟩

/-- **What is left of a cover** that is pruned in some order of its members: what the plain
procedure keeps, counted as if nothing else had ever been selected, and no path is unhit. -/
structure Selection.IsPruned (incidence : Incidence) (order : List Int) (pruned : Selection) :
    Prop where
  kept : incidence.deleted? [] order = .ok pruned.members
  recounted : Selection.ofMembers incidence pruned.members = .ok pruned
  unhit : pruned.unhit = 0

/-- It is left in every order. -/
theorem Incidence.Agreement.prunedIn?_ok (agreement : incidence.Agreement)
    (tracked : Tracked incidence selection) (complete : selection.isComplete)
    (same : order.Perm selection.members) :
    ∃ pruned, prunedIn? incidence selection order = .ok pruned ∧
      pruned.IsPruned incidence order := by
  obtain ⟨pruned, ended, ran, left, still⟩ := agreement.exists_prunedIn? tracked complete same
  refine ⟨pruned, ended, ?_, (left.isWhole still).recounted, of_decide_eq_true still⟩
  have whole : selection.Counts incidence ([].reverse ++ order) := tracked.counts.perm same.symm
  have deletes := agreement.examine_deletes whole
    (fun set member => tracked.readable set (same.subset member)) complete
  rwa [ran] at deletes

/-- **Pruning deletes what reverse deletion deletes.** A list of sets that is a cover can be
selected and copied as it is. It can be pruned in every order of its entries, and what is left is
what the plain procedure leaves; to prune it in the order of its members, or at random, is to prune
it in one of these orders. -/
theorem pruning_deletes {sets : List (List Int)} {pathCount : Option Int}
    {incidence : Incidence} (built : Incidence.ofSets? sets pathCount = .ok incidence)
    {cover : List Int} (covers : incidence.isCover? cover = .ok true) :
    ∃ selection, Selection.ofMembers incidence cover = .ok selection ∧
      selection.members = cover ∧ copyComplete? selection = .ok selection ∧
      (∀ order, order.Perm cover → ∃ pruned, prunedIn? incidence selection order = .ok pruned ∧
        pruned.IsPruned incidence order) ∧
      ∀ order result, Pruning incidence selection order result →
        order.Perm cover ∧ result = prunedIn? incidence selection order := by
  have agreement := Incidence.agreement_of_ofSets? built
  obtain ⟨readable, hit⟩ := Incidence.isCover?_eq_true_iff.mp covers
  obtain ⟨selection, made⟩ := Selection.ofMembers_ok_iff.mpr readable
  obtain ⟨tracked, rfl⟩ := Selection.tracked_ofMembers made
  have complete : selection.isComplete := tracked.counts.isComplete_iff.mpr hit
  exact ⟨selection, made, rfl, (copyComplete?_eq_ok_iff tracked.counts).mpr ⟨complete, rfl⟩,
    fun order same => agreement.prunedIn?_ok tracked complete same,
    fun order result pruning => pruning.eq⟩

/-- Two paths, each with a set of its own, a set with both of them, and one with none. -/
def overlap : Incidence := ⟨#[[0], [], [0, 1], [1]], #[[0, 2], [2, 3]]⟩

theorem overlap_built : Incidence.ofSets? [[0], [], [0, 1], [1]] none = .ok overlap := by
  decide +kernel

/-- All sets of the overlap, the first one and the set with both paths twice, once by an index from
the end. Examined in this order, the set with both paths is left; if it is examined first, two
sets are. -/
theorem pruning_deletes_overlap : ∃ selection first second,
    Selection.ofMembers overlap [-4, 1, 2, -1, 0, 2] = .ok selection ∧
      prunedIn? overlap selection [-4, 1, 2, -1, 0, 2] = .ok first ∧ first.members = [2] ∧
      prunedIn? overlap selection [2, 2, 1, -4, 0, -1] = .ok second ∧
      second.members = [0, -1] := by
  have covers : overlap.isCover? [-4, 1, 2, -1, 0, 2] = .ok true := by decide +kernel
  obtain ⟨selection, made, _, _, orders, _⟩ := pruning_deletes overlap_built covers
  obtain ⟨first, ran, left⟩ := orders [-4, 1, 2, -1, 0, 2] (List.Perm.refl _)
  obtain ⟨second, ran', left'⟩ := orders [2, 2, 1, -4, 0, -1] (by decide +kernel)
  have kept : overlap.deleted? [] [-4, 1, 2, -1, 0, 2] = .ok [2] := by decide +kernel
  have kept' : overlap.deleted? [] [2, 2, 1, -4, 0, -1] = .ok [0, -1] := by decide +kernel
  exact ⟨selection, first, second, made, ran, Except.ok.inj (left.kept.symm.trans kept), ran',
    Except.ok.inj (left'.kept.symm.trans kept')⟩

end Transversal
