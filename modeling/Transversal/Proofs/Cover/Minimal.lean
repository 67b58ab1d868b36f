/-
**A pruned cover is minimal, and pruning leaves it as it is.**

A member is kept because it is needed when it is examined. Others are dropped after it, but that
only takes hits away: its path is still hit by nothing else.

* `Incidence.IsNeeded.of_fewer`: what is needed stays needed when another entry is dropped.
* `Incidence.Agreement.examine_needed`: so all that the examination keeps is needed in the end.
* `Incidence.Agreement.examine_of_needed`: where all is needed the examination keeps all of it.
* `Incidence.IsMinimal`: every entry of a cover has a path of its own (`Incidence.HasOwnPaths`);
  `Incidence.Agreement.isMinimal`: it has if all entries are needed.
* `Incidence.Agreement.prunedIn?_minimal`: what pruning leaves is minimal, and pruning it again in
  any order changes nothing; `Pruning.isMinimal`: in whichever way it was pruned.
-/
import Mathlib.Data.List.Nodup
import Transversal.Proofs.Cover.Deletion

namespace Transversal

variable {incidence : Incidence} {selection pruned : Selection} {cover order : List Int}

/-! ### Needed members -/

namespace Incidence

/-- A path that is hit once is listed by no other entry. -/
theorem Agreement.not_listed_of_once (agreement : incidence.Agreement) {before after : List Int}
    {set : Int} {path : Nat} (listed : (path : Int) ∈ incidence.listed set)
    (once : incidence.tally (before ++ set :: after) path = 1) :
    ∀ other ∈ before ++ after, (path : Int) ∉ incidence.listed other := by
  obtain ⟨_, unhit⟩ := agreement.alone_of_once listed once
  intro other member listed'
  exact Nat.ne_of_gt (agreement.tally_pos_iff_listed.mpr ⟨other, member, listed'⟩) unhit

theorem IsNeeded.perm {other : List Int} {set : Int} (needed : incidence.IsNeeded cover set)
    (same : cover.Perm other) : incidence.IsNeeded other set := by
  obtain ⟨path, listed, once⟩ := needed
  exact ⟨path, listed, by rw [← tally_perm same, once]⟩

/-- **What is needed stays needed** when another entry is dropped. -/
theorem IsNeeded.of_fewer (agreement : incidence.Agreement) {before after : List Int}
    {dropped set : Int} (needed : incidence.IsNeeded (before ++ dropped :: after) set)
    (member : set ∈ before ++ after) : incidence.IsNeeded (before ++ after) set := by
  obtain ⟨path, listed, once⟩ := needed
  have hit := agreement.tally_pos_iff_listed.mpr ⟨set, member, listed⟩
  rw [tally_perm List.perm_middle, tally_cons] at once
  exact ⟨path, listed, by omega⟩

/-! ### The examination -/

/-- **All that is kept is needed in the end.** -/
theorem Agreement.examine_needed (agreement : incidence.Agreement) {reversedKept : List Int}
    (counts : selection.Counts incidence (reversedKept.reverse ++ order))
    (known : ∀ set ∈ order, (entryAt? incidence.sets set).isSome)
    (complete : selection.isComplete)
    (needed : ∀ set ∈ reversedKept, incidence.IsNeeded (reversedKept.reverse ++ order) set)
    (run : examine incidence order reversedKept selection = .ok pruned) :
    ∀ set ∈ pruned.members, incidence.IsNeeded pruned.members set := by
  -- what was kept is needed among what was kept and what is still to come, in every state
  induction order generalizing reversedKept selection with
  | nil =>
    cases run
    rw [List.append_nil] at needed
    exact fun set member => needed set (List.mem_reverse.mp member)
  | cons set rest ih =>
    rw [List.forall_mem_cons] at known
    rcases agreement.examine_cons counts known.1 complete with
      ⟨after, same, fewer, still⟩ | ⟨same, counts, needs⟩
    · refine ih fewer known.2 still (fun other member => ?_) (same ▸ run)
      exact (needed other member).of_fewer agreement
        (List.mem_append_left rest (List.mem_reverse.mpr member))
    · refine ih counts known.2 complete ?_ (same ▸ run)
      rw [append_reverse_cons, List.forall_mem_cons]
      exact ⟨needs, needed⟩

/-- **Where all is needed all is kept**, and the counters stay as they are. -/
theorem Agreement.examine_of_needed (agreement : incidence.Agreement) {reversedKept : List Int}
    (counts : selection.Counts incidence (reversedKept.reverse ++ order))
    (known : ∀ set ∈ order, (entryAt? incidence.sets set).isSome)
    (complete : selection.isComplete)
    (needed : ∀ set ∈ order, incidence.IsNeeded (reversedKept.reverse ++ order) set) :
    examine incidence order reversedKept selection =
      .ok { selection with members := reversedKept.reverse ++ order } := by
  induction order generalizing reversedKept selection with
  | nil => rw [examine, List.append_nil]
  | cons set rest ih =>
    rw [List.forall_mem_cons] at known needed
    rcases agreement.examine_cons counts known.1 complete with
      ⟨after, _, fewer, still⟩ | ⟨same, counts, _⟩
    · -- the others are no cover without a member that is needed
      obtain ⟨path, listed, once⟩ := needed.1
      obtain ⟨within, unhit⟩ := agreement.alone_of_once listed once
      exact absurd unhit (Nat.ne_of_gt (fewer.isComplete_iff.mp still path within))
    · rw [same, ← append_reverse_cons]
      refine ih counts known.2 complete ?_
      rw [append_reverse_cons]
      exact needed.2

/-! ### Minimal covers -/

/-- Every entry of a list hits a path that no other entry hits. -/
def HasOwnPaths (incidence : Incidence) (cover : List Int) : Prop :=
  ∀ before set after, cover = before ++ set :: after →
    ∃ path < incidence.pathCount, ((path : Nat) : Int) ∈ incidence.listed set ∧
      ∀ other ∈ before ++ after, (path : Int) ∉ incidence.listed other

/-- **A minimal cover.** Every entry has a path of its own. So it is no cover without any one of its
entries, nor is any list of some of its sets only; its entries denote distinct sets, and there are
no more of them than paths. -/
structure IsMinimal (incidence : Incidence) (cover : List Int) : Prop where
  covers : incidence.isCover? cover = .ok true
  own : incidence.HasOwnPaths cover
  without : ∀ before set after, cover = before ++ set :: after →
    incidence.isCover? (before ++ after) = .ok false
  least : ∀ fewer, fewer ⊆ cover → incidence.isCover? fewer = .ok true → cover ⊆ fewer
  distinct : (cover.map (place? incidence.setCount)).Nodup
  few : cover.length ≤ incidence.pathCount

/-- An entry with a path of its own is in every cover of sets of the list. -/
theorem Agreement.mem_of_own (agreement : incidence.Agreement) {before after fewer : List Int}
    {set : Int} {path : Nat} (within : path < incidence.pathCount)
    (own : ∀ other ∈ before ++ after, (path : Int) ∉ incidence.listed other)
    (part : fewer ⊆ before ++ set :: after) (covers : incidence.isCover? fewer = .ok true) :
    set ∈ fewer := by
  obtain ⟨other, member, listed⟩ :=
    agreement.tally_pos_iff_listed.mp ((isCover?_eq_true_iff.mp covers).2 path within)
  have others : other ∉ before ++ after := fun inside => own other inside listed
  have present := part member
  simp only [List.mem_append, List.mem_cons, not_or] at present others
  obtain rfl : other = set := by tauto
  exact member

/-- Entries with paths of their own denote distinct sets. -/
theorem HasOwnPaths.nodup_places (own : incidence.HasOwnPaths cover) :
    (cover.map (place? incidence.setCount)).Nodup := by
  rw [List.Nodup, List.pairwise_map, List.pairwise_iff_forall_sublist]
  intro set other part same
  obtain ⟨front, back, rfl, first, second⟩ := List.cons_sublist_iff.mp part
  obtain ⟨before, middle, rfl⟩ := List.append_of_mem first
  obtain ⟨path, _, listed, alone⟩ := own before set (middle ++ back) (by simp)
  have later : other ∈ before ++ (middle ++ back) := by
    simp [List.singleton_sublist.mp second]
  refine alone other later ?_
  have alike : incidence.listed set = incidence.listed other := by
    unfold setCount at same
    rw [Incidence.listed, Incidence.listed, entryAt?, entryAt?, same]
  exact alike ▸ listed

/-- Needed entries are no more than paths. -/
theorem Agreement.length_le_pathCount (agreement : incidence.Agreement) (distinct : cover.Nodup)
    (needed : ∀ set ∈ cover, incidence.IsNeeded cover set) :
    cover.length ≤ incidence.pathCount := by
  choose! path listed once using needed
  have injective : ∀ set ∈ cover, ∀ other ∈ cover, path set = path other → set = other := by
    intro set member other member' same
    by_contra differ
    obtain ⟨before, after, rfl⟩ := List.append_of_mem member
    have inside : other ∈ before ++ after := by
      simp only [List.mem_append, List.mem_cons] at member' ⊢
      tauto
    refine agreement.not_listed_of_once (listed set member) (once set member) other inside ?_
    rw [same]
    exact listed other member'
  have inside : cover.map path ⊆ List.range incidence.pathCount := by
    intro place member
    obtain ⟨set, present, rfl⟩ := List.mem_map.mp member
    rw [List.mem_range]
    exact_mod_cast (agreement.inRange set _ (listed set present)).2
  have bounded := (List.subperm_of_subset (distinct.map_on injective) inside).length_le
  rwa [List.length_map, List.length_range] at bounded

/-- **A cover is minimal** if all its entries are needed. -/
theorem Agreement.isMinimal (agreement : incidence.Agreement)
    (covers : incidence.isCover? cover = .ok true)
    (needed : ∀ set ∈ cover, incidence.IsNeeded cover set) : incidence.IsMinimal cover := by
  have own : incidence.HasOwnPaths cover := by
    rintro before set after rfl
    obtain ⟨path, listed, once⟩ := needed set (by simp)
    exact ⟨path, (agreement.alone_of_once listed once).1, listed,
      agreement.not_listed_of_once listed once⟩
  have least : ∀ fewer, fewer ⊆ cover → incidence.isCover? fewer = .ok true → cover ⊆ fewer := by
    intro fewer part enough set member
    obtain ⟨before, after, rfl⟩ := List.append_of_mem member
    obtain ⟨path, within, _, alone⟩ := own before set after rfl
    exact agreement.mem_of_own within alone part enough
  have distinct := own.nodup_places
  refine ⟨covers, own, ?_, least, distinct,
    agreement.length_le_pathCount (List.Nodup.of_map _ distinct) needed⟩
  rintro before set after rfl
  refine (needed set (by simp)).isCover?_eq_false agreement fun other member => ?_
  refine (isCover?_eq_true_iff.mp covers).1 other ?_
  exact ((List.sublist_cons_self set after).append_left _).subset member

end Incidence

/-! ### Pruned covers -/

/-- **What pruning leaves is minimal**, and pruning it again, in any order, keeps every member and
changes no counter. -/
theorem Incidence.Agreement.prunedIn?_minimal (agreement : incidence.Agreement)
    (tracked : Tracked incidence selection) (complete : selection.isComplete)
    (same : order.Perm selection.members) :
    ∃ pruned, prunedIn? incidence selection order = .ok pruned ∧
      incidence.IsMinimal pruned.members ∧
      ∀ again, again.Perm pruned.members →
        prunedIn? incidence pruned again = .ok { pruned with members := again } := by
  obtain ⟨pruned, ended, ran, left, still⟩ := agreement.exists_prunedIn? tracked complete same
  have whole : selection.Counts incidence ([].reverse ++ order) := tracked.counts.perm same.symm
  have needed := agreement.examine_needed whole
    (fun set member => (tracked.readable set (same.subset member)).1) complete
    (fun _ absent => absurd absent List.not_mem_nil) ran
  refine ⟨pruned, ended, agreement.isMinimal (left.isWhole still).covers needed,
    fun again reordered => ?_⟩
  have counts : pruned.Counts incidence ([].reverse ++ again) := left.counts.perm reordered.symm
  rw [prunedIn?_eq_pruneInOrder left still, pruneInOrder_eq_ok_iff]
  refine ⟨agreement.examine_of_needed counts (fun set member => ?_) still
    (fun set member => ?_), still⟩
  · exact (left.readable set (reordered.subset member)).1
  · exact (needed set (reordered.subset member)).perm reordered.symm

/-- A complete selection pruned in order or at random is minimal. -/
theorem Pruning.isMinimal {result : Except Fault Selection}
    (pruning : Pruning incidence selection order result) (agreement : incidence.Agreement)
    (tracked : Tracked incidence selection) (complete : selection.isComplete)
    (ended : result = .ok pruned) : incidence.IsMinimal pruned.members := by
  obtain ⟨same, rfl⟩ := pruning.eq
  obtain ⟨left, ran, minimal, _⟩ := agreement.prunedIn?_minimal tracked complete same
  rw [ran] at ended
  cases ended
  exact minimal

end Transversal
