/-
**A cover without its redundant members is still a cover.**

* `isRedundant?_eq_ok`: where the directions of the relation agree, a member is redundant if every
  one of its paths is hit twice, and the question is never a violation.
* `examine_counts`: what the examination keeps is part of its order, and the counters are those of
  what is kept, over any relation.
* `examine_cons`: what one step of the examination does; the members that are kept are needed.
  `IsNeeded.isCover?_eq_false`: a cover is none without a member that is needed.
* `examine_ok`: a complete selection stays complete, and nothing fails.
* `Tracked.pruned?`, `Tracked.returns_prunedAtRandom`: whatever is left of a whole selection is one,
  over any relation.
* `yields_prunedAtRandom`: and nothing fails where the directions of the relation agree.
-/
import Transversal.Cover.Pruned
import Transversal.Proofs.Incidence.Agreement
import Transversal.Proofs.Run
import Transversal.Proofs.Selection.Tracked

namespace Transversal

variable {incidence : Incidence} {selection pruned : Selection} {cover : List Int}

/-! ### Redundant members -/

/-- If every path listed is hit, the question is whether every one of them is hit twice. -/
theorem Selection.hitsTwice?_eq_ok (counts : selection.Counts incidence cover) (set : Int)
    {paths : List Int} (inRange : ∀ path ∈ paths, 0 ≤ path ∧ path < incidence.pathCount)
    (hit : ∀ path ∈ paths, 0 < incidence.tally cover path.toNat) :
    selection.hitsTwice? set paths =
      .ok (decide (∀ path ∈ paths, 2 ≤ incidence.tally cover path.toNat)) := by
  induction paths with
  | nil => simp [hitsTwice?]
  | cons path rest ih =>
    rw [List.forall_mem_cons] at inRange hit
    obtain ⟨place, rfl⟩ := Int.eq_ofNat_of_zero_le inRange.1.1
    have within : place < selection.hits.size := by
      rw [counts.size]
      exact_mod_cast inRange.1.2
    have count : selection.hits[place] = incidence.tally cover place := by
      rw [← Selection.hitsAt_eq_getElem within, counts.hits]
    have positive : 0 < incidence.tally cover place := hit.1
    rw [hitsTwice?, entryAt?_natCast within, count]
    dsimp only
    rw [if_neg (by omega)]
    by_cases once : incidence.tally cover place = 1
    · rw [if_pos (by omega), decide_eq_false]
      rw [List.forall_mem_cons]
      rintro ⟨twice, _⟩
      rw [Int.toNat_natCast] at twice
      omega
    · rw [if_neg (by omega), ih inRange.2 hit.2]
      have twice : 2 ≤ incidence.tally cover (Int.toNat (place : Int)) := by
        rw [Int.toNat_natCast]
        omega
      simp only [List.forall_mem_cons, twice, true_and]

/-- **A member is redundant** if the other members hit all its paths. -/
theorem Incidence.Agreement.isRedundant?_eq_ok (agreement : incidence.Agreement)
    (counts : selection.Counts incidence cover) {set : Int} (member : set ∈ cover)
    (known : (entryAt? incidence.sets set).isSome) :
    selection.isRedundant? incidence set =
      .ok (decide (∀ path ∈ incidence.listed set, 2 ≤ incidence.tally cover path.toNat)) := by
  rw [Selection.isRedundant?, Incidence.pathsOf?_eq_ok known]
  refine Selection.hitsTwice?_eq_ok counts set (agreement.inRange set) fun path listed => ?_
  obtain ⟨natural, _⟩ := agreement.inRange set path listed
  refine agreement.tally_pos_iff_listed.mpr ⟨set, member, ?_⟩
  rwa [Int.toNat_of_nonneg natural]

/-- What is left of a list after one of its entries is taken out of the middle. -/
theorem erase_middle_perm (before after : List Int) (set : Int) :
    ((before ++ set :: after).erase set).Perm (before ++ after) := by
  have front : (before ++ set :: after).Perm (set :: (before ++ after)) := List.perm_middle
  have erased := front.erase set
  rwa [List.erase_cons_head] at erased

/-! ### The examination -/

/-- To keep the next entry of a list moves it to those kept. -/
theorem append_reverse_cons (reversedKept rest : List Int) (set : Int) :
    (set :: reversedKept).reverse ++ rest = reversedKept.reverse ++ set :: rest := by
  rw [List.reverse_cons, List.append_assoc, List.singleton_append]

/-- **What is kept** is part of the order, and the counters are those of what is kept. -/
theorem examine_counts {order reversedKept : List Int}
    (counts : selection.Counts incidence (reversedKept.reverse ++ order))
    (run : examine incidence order reversedKept selection = .ok pruned) :
    pruned.members.Sublist (reversedKept.reverse ++ order) ∧
      pruned.Counts incidence pruned.members := by
  induction order generalizing reversedKept selection with
  | nil =>
    cases run
    rw [List.append_nil] at counts ⊢
    exact ⟨List.Sublist.refl _, counts.withMembers _⟩
  | cons set rest ih =>
    rw [examine, Except.bind_eq_ok_iff] at run
    obtain ⟨redundant, asked, run⟩ := run
    cases redundant with
    | true =>
      rw [if_pos rfl, Except.bind_eq_ok_iff] at run
      obtain ⟨after, released, run⟩ := run
      obtain ⟨_, fewer⟩ := counts.release (by simp) released
      obtain ⟨part, final⟩ := ih (fewer.perm (erase_middle_perm _ _ _)) run
      refine ⟨part.trans ?_, final⟩
      exact (List.Sublist.refl _).append (List.sublist_cons_self set rest)
    | false =>
      rw [if_neg Bool.false_ne_true] at run
      rw [← append_reverse_cons] at counts ⊢
      exact ih counts run

/-- A redundant member can be released, and every path is still hit. -/
theorem Incidence.Agreement.release_complete (agreement : incidence.Agreement)
    (counts : selection.Counts incidence cover) (complete : selection.isComplete) {set : Int}
    (member : set ∈ cover) (known : (entryAt? incidence.sets set).isSome)
    (redundant : ∀ path ∈ incidence.listed set, 2 ≤ incidence.tally cover path.toNat) :
    ∃ after, selection.release? incidence set = .ok after ∧
      after.Counts incidence (cover.erase set) ∧ after.isComplete := by
  obtain ⟨after, released⟩ :=
    (Selection.release?_ok_iff counts.size).mpr (agreement.readable_iff.mpr known)
  obtain ⟨_, fewer⟩ := counts.release member released
  refine ⟨after, released, fewer, fewer.isComplete_iff.mpr fun path within => ?_⟩
  have before := counts.isComplete_iff.mp complete path within
  have parts : incidence.tally cover path =
      visits incidence.pathCount (incidence.listed set) path +
        incidence.tally (cover.erase set) path := Incidence.tally_erase member path
  rw [agreement.visits_eq] at parts
  by_cases listed : (path : Int) ∈ incidence.listed set
  · have twice := redundant path listed
    rw [Int.toNat_natCast] at twice
    rw [if_pos listed] at parts
    omega
  · rw [if_neg listed] at parts
    omega

/-- A set of a list hits a path that no other entry of the list hits. -/
def Incidence.IsNeeded (incidence : Incidence) (cover : List Int) (set : Int) : Prop :=
  ∃ path : Nat, (path : Int) ∈ incidence.listed set ∧ incidence.tally cover path = 1

/-- A path that is hit once is hit by no other entry. -/
theorem Incidence.Agreement.alone_of_once (agreement : incidence.Agreement)
    {before after : List Int} {set : Int} {path : Nat}
    (listed : (path : Int) ∈ incidence.listed set)
    (once : incidence.tally (before ++ set :: after) path = 1) :
    path < incidence.pathCount ∧ incidence.tally (before ++ after) path = 0 := by
  rw [tally_perm List.perm_middle, tally_cons, agreement.visits_eq, if_pos listed] at once
  exact ⟨by exact_mod_cast (agreement.inRange set path listed).2, by omega⟩

/-- **A cover is none without an entry that is needed.** -/
theorem Incidence.IsNeeded.isCover?_eq_false (agreement : incidence.Agreement)
    {before after : List Int} {set : Int}
    (needed : incidence.IsNeeded (before ++ set :: after) set)
    (readable : ∀ other ∈ before ++ after, incidence.Readable other) :
    incidence.isCover? (before ++ after) = .ok false := by
  obtain ⟨path, listed, once⟩ := needed
  obtain ⟨within, unhit⟩ := agreement.alone_of_once listed once
  rw [isCover?_eq_ok readable]
  exact congrArg Except.ok (decide_eq_false fun hit => Nat.ne_of_gt (hit path within) unhit)

/-- **One member examined.** Either it is released, and the others hit every path; or it is kept,
and it is needed. -/
theorem Incidence.Agreement.examine_cons (agreement : incidence.Agreement) {set : Int}
    {rest reversedKept : List Int}
    (counts : selection.Counts incidence (reversedKept.reverse ++ set :: rest))
    (known : (entryAt? incidence.sets set).isSome) (complete : selection.isComplete) :
    (∃ after, examine incidence (set :: rest) reversedKept selection =
          examine incidence rest reversedKept after ∧
        after.Counts incidence (reversedKept.reverse ++ rest) ∧ after.isComplete) ∨
      (examine incidence (set :: rest) reversedKept selection =
          examine incidence rest (set :: reversedKept) selection ∧
        selection.Counts incidence ((set :: reversedKept).reverse ++ rest) ∧
        incidence.IsNeeded (reversedKept.reverse ++ set :: rest) set) := by
  have member : set ∈ reversedKept.reverse ++ set :: rest := by simp
  rw [examine, agreement.isRedundant?_eq_ok counts member known]
  by_cases redundant : ∀ path ∈ incidence.listed set,
      2 ≤ incidence.tally (reversedKept.reverse ++ set :: rest) path.toNat
  · obtain ⟨after, released, fewer, still⟩ :=
      agreement.release_complete counts complete member known redundant
    refine .inl ⟨after, ?_, fewer.perm (erase_middle_perm _ _ _), still⟩
    rw [decide_eq_true redundant]
    show (selection.release? incidence set >>= _) = _
    rw [released]
    rfl
  · refine .inr ⟨?_, ?_, ?_⟩
    · rw [decide_eq_false redundant]
      rfl
    · rwa [append_reverse_cons]
    · push Not at redundant
      obtain ⟨path, listed, once⟩ := redundant
      obtain ⟨natural, _⟩ := agreement.inRange set path listed
      obtain ⟨place, rfl⟩ := Int.eq_ofNat_of_zero_le natural
      have hit := agreement.tally_pos_iff_listed.mpr ⟨set, member, listed⟩
      rw [Int.toNat_natCast] at once
      exact ⟨place, listed, by omega⟩

/-- **A complete selection stays complete**, and the examination does not fail. -/
theorem Incidence.Agreement.examine_ok (agreement : incidence.Agreement)
    {order reversedKept : List Int}
    (counts : selection.Counts incidence (reversedKept.reverse ++ order))
    (known : ∀ set ∈ order, (entryAt? incidence.sets set).isSome)
    (complete : selection.isComplete) :
    ∃ pruned, examine incidence order reversedKept selection = .ok pruned ∧
      pruned.isComplete := by
  induction order generalizing reversedKept selection with
  | nil => exact ⟨_, rfl, complete⟩
  | cons set rest ih =>
    rw [List.forall_mem_cons] at known
    rcases agreement.examine_cons counts known.1 complete with
      ⟨after, same, fewer, still⟩ | ⟨same, counts, _⟩
    · rw [same]
      exact ih fewer known.2 still
    · rw [same]
      exact ih counts known.2 complete

/-! ### Whole covers -/

/-- A selection pruned in a given order is what its examination leaves, and it is complete. -/
theorem pruneInOrder_eq_ok_iff {order : List Int} :
    pruneInOrder incidence selection order = .ok pruned ↔
      examine incidence order [] selection = .ok pruned ∧ pruned.isComplete := by
  rw [pruneInOrder, Except.bind_eq_ok_iff]
  constructor
  · rintro ⟨examined, ran, checked⟩
    by_cases complete : examined.isComplete
    · rw [if_pos complete] at checked
      cases checked
      exact ⟨ran, complete⟩
    · rw [if_neg complete] at checked
      cases checked
  · rintro ⟨ran, complete⟩
    exact ⟨pruned, ran, if_pos complete⟩

/-- A cover pruned in a given order: what is left are some of its members, and it is complete. -/
theorem pruneInOrder_eq_ok {order : List Int} (counts : selection.Counts incidence cover)
    (same : order.Perm cover) (run : pruneInOrder incidence selection order = .ok pruned) :
    pruned.members.Sublist order ∧ pruned.Counts incidence pruned.members ∧
      pruned.isComplete := by
  obtain ⟨ran, complete⟩ := pruneInOrder_eq_ok_iff.mp run
  have whole : selection.Counts incidence ([].reverse ++ order) := counts.perm same.symm
  obtain ⟨part, kept⟩ := examine_counts whole ran
  exact ⟨part, kept, complete⟩

theorem copyComplete?_eq_ok_iff (counts : selection.Counts incidence cover) {copied : Selection} :
    copyComplete? selection = .ok copied ↔ selection.isComplete ∧ copied = selection := by
  rw [copyComplete?, counts.copy?]
  by_cases complete : selection.isComplete
  · simp [complete, eq_comm]
  · simp [complete]

/-- A tracked selection that is pruned stays tracked. -/
theorem Tracked.pruneInOrder (tracked : Tracked incidence selection) {order : List Int}
    (same : order.Perm selection.members)
    (run : pruneInOrder incidence selection order = .ok pruned) :
    Tracked incidence pruned ∧ pruned.isComplete := by
  obtain ⟨part, kept, complete⟩ := pruneInOrder_eq_ok tracked.counts same run
  exact ⟨⟨kept, fun set member => tracked.readable set (same.subset (part.subset member))⟩,
    complete⟩

/-- **A cover pruned in the order of its members** is a cover, over any relation. -/
theorem Tracked.pruned? (tracked : Tracked incidence selection)
    (run : pruned? incidence selection = .ok pruned) :
    Tracked incidence pruned ∧ pruned.isComplete := by
  rw [Transversal.pruned?, Except.bind_eq_ok_iff] at run
  obtain ⟨copied, copying, run⟩ := run
  obtain ⟨_, rfl⟩ := (copyComplete?_eq_ok_iff tracked.counts).mp copying
  exact tracked.pruneInOrder (List.Perm.refl _) run

/-- **A cover pruned in random order** is a cover, over any relation. -/
theorem Tracked.returns_prunedAtRandom {σ : Type} [RandomStream σ]
    (tracked : Tracked incidence selection) :
    Run.Returns (prunedAtRandom incidence selection : Run σ Selection) fun pruned =>
      Tracked incidence pruned ∧ pruned.isComplete := by
  have copying : Run.Returns (Run.lift (copyComplete? selection) : Run σ Selection)
      (· = selection) := Run.returns_lift fun _ copied =>
    ((copyComplete?_eq_ok_iff tracked.counts).mp copied).2
  refine copying.bind ?_
  rintro _ rfl
  refine (Run.returns_shuffle _).bind fun order same => ?_
  exact Run.returns_lift fun pruned run => tracked.pruneInOrder same run

/-- A complete selection can be pruned in any order: what is left are some of its members, and it is
complete. -/
theorem Incidence.Agreement.exists_pruneInOrder (agreement : incidence.Agreement)
    (counts : selection.Counts incidence selection.members)
    (known : ∀ set ∈ selection.members, (entryAt? incidence.sets set).isSome)
    (complete : selection.isComplete) {order : List Int} (same : order.Perm selection.members) :
    ∃ pruned, Transversal.pruneInOrder incidence selection order = .ok pruned ∧
      pruned.members.Sublist order ∧ pruned.Counts incidence pruned.members ∧
      pruned.isComplete := by
  have whole : selection.Counts incidence ([].reverse ++ order) := counts.perm same.symm
  obtain ⟨pruned, ran, still⟩ := agreement.examine_ok whole
    (fun set member => known set (same.subset member)) complete
  have ended := pruneInOrder_eq_ok_iff.mpr ⟨ran, still⟩
  exact ⟨pruned, ended, pruneInOrder_eq_ok counts same ended⟩

/-- **A cover pruned in random order**: what is left are some of its members in some order, and it
is complete. Nothing fails where the directions of the relation agree. -/
theorem yields_prunedAtRandom {σ : Type} [RandomStream σ] (agreement : incidence.Agreement)
    (counts : selection.Counts incidence selection.members)
    (known : ∀ set ∈ selection.members, (entryAt? incidence.sets set).isSome)
    (complete : selection.isComplete) :
    Run.Yields (prunedAtRandom incidence selection : Run σ Selection) fun pruned =>
      (∃ order, order.Perm selection.members ∧ pruned.members.Sublist order) ∧
        pruned.Counts incidence pruned.members ∧ pruned.isComplete := by
  refine (Run.yields_lift ((copyComplete?_eq_ok_iff counts).mpr ⟨complete, rfl⟩) rfl).bind ?_
  rintro _ rfl
  refine (Run.yields_shuffle selection.members).bind fun order same => ?_
  obtain ⟨pruned, ended, part, kept⟩ :=
    agreement.exists_pruneInOrder counts known complete same
  exact Run.yields_lift ended ⟨⟨order, same, part⟩, kept⟩

end Transversal
