/-
**Pruning trusts the counters of a selection.**

A selection can be made of any members and any counters, as long as the number of unhit paths is
that of the zero counters. Pruning looks at nothing but the counters.

* `Selection.excess`: how far the counter of a path is above the number of members that hit it.
* `Selection.Answers`: the question whether a set is redundant, over counters of any kind.
* `Incidence.Agreement.exists_release_twice`: a set whose paths are all counted twice is released,
  and no counter that was positive becomes zero. So the number of unhit paths never changes.
* `Incidence.Agreement.examined`: what every member examined keeps, and what a whole examination
  keeps of it: the excess of every path, and the counters that are not positive.
* `Selection.PruningEnds`: all that pruning can end with; what it returns passes the last check.
* `Selection.HitsOnTrust`: which paths are still hit by what is returned.
* `pruning_trusts_counters`: all of it, for every order of the members.
* `overcounted_pruned`: a cover of one set, of which nothing is left; `undercounted_untold`: one
  whose counter is too low to be told.
-/
import Transversal.Proofs.Cover.Deletion

namespace Transversal

variable {incidence : Incidence} {selection pruned : Selection} {set : Int}

namespace Selection

/-- **How far the counter of a path is above** the number of entries of a list that hit it. -/
def excess (incidence : Incidence) (selection : Selection) (cover : List Int) (path : Nat) : Int :=
  selection.hitsAt path - incidence.tally cover path

/-! ### Redundant members -/

/-- The fault of a counter that is not positive, unless it is too long to be told. -/
def countFault (selection : Selection) (set : Int) (path : Nat) : Fault :=
  .quoting [selection.hitsAt path] (.violation (.hitCount path set (selection.hitsAt path)))

/-- **The answers to the question whether a set is redundant**, over counters of any kind. The first
path that is not counted twice decides. -/
inductive Answers (selection : Selection) (set : Int) (paths : List Int) :
    Except Fault Bool → Prop
  | redundant : (∀ path ∈ paths, 2 ≤ selection.hitsAt path.toNat) →
      Answers selection set paths (.ok true)
  | needed {path : Nat} : (path : Int) ∈ paths → selection.hitsAt path = 1 →
      Answers selection set paths (.ok false)
  | caught {path : Nat} : (path : Int) ∈ paths → selection.hitsAt path ≤ 0 →
      Answers selection set paths (.error (selection.countFault set path))

/-- A path that is counted twice leaves the answer to those behind it. -/
theorem Answers.cons {path : Nat} {rest : List Int} {answer : Except Fault Bool}
    (twice : 2 ≤ selection.hitsAt path) (answers : Answers selection set rest answer) :
    Answers selection set (path :: rest) answer := by
  cases answers with
  | redundant all => exact .redundant (List.forall_mem_cons.mpr ⟨twice, all⟩)
  | needed listed once => exact .needed (List.mem_cons_of_mem _ listed) once
  | caught listed idle => exact .caught (List.mem_cons_of_mem _ listed) idle

theorem answers_hitsTwice? (set : Int) {paths : List Int}
    (inRange : ∀ path ∈ paths, 0 ≤ path ∧ path < selection.hits.size) :
    Answers selection set paths (selection.hitsTwice? set paths) := by
  induction paths with
  | nil => exact .redundant fun path impossible => absurd impossible List.not_mem_nil
  | cons path rest ih =>
    rw [List.forall_mem_cons] at inRange
    obtain ⟨place, rfl⟩ := Int.eq_ofNat_of_zero_le inRange.1.1
    have within : place < selection.hits.size := by exact_mod_cast inRange.1.2
    rw [hitsTwice?, entryAt?_natCast within, ← hitsAt_eq_getElem within]
    dsimp only
    split
    · exact .caught List.mem_cons_self ‹_›
    · split
      · exact .needed List.mem_cons_self ‹_›
      · exact (ih inRange.2).cons (by omega)

end Selection

namespace Incidence.Agreement

variable (agreement : incidence.Agreement)

include agreement

theorem answers_isRedundant? (size : selection.hits.size = incidence.pathCount)
    (known : (entryAt? incidence.sets set).isSome) :
    selection.Answers set (incidence.listed set) (selection.isRedundant? incidence set) := by
  rw [Selection.isRedundant?, Incidence.pathsOf?_eq_ok known]
  exact Selection.answers_hitsTwice? set (size ▸ agreement.inRange set)

/-- **A set whose paths are all counted twice is released.** No counter that was positive becomes
zero, so the number of unhit paths stays as it is. -/
theorem exists_release_twice (size : selection.hits.size = incidence.pathCount)
    (known : (entryAt? incidence.sets set).isSome)
    (twice : ∀ path ∈ incidence.listed set, 2 ≤ selection.hitsAt path.toNat) :
    ∃ after, selection.release? incidence set = .ok after ∧
      after.hits.size = incidence.pathCount ∧ after.unhit = selection.unhit ∧
      ∀ path : Nat, after.hitsAt path =
        selection.hitsAt path - if (path : Int) ∈ incidence.listed set then 1 else 0 := by
  obtain ⟨after, ran⟩ :=
    (Selection.release?_ok_iff size).mpr (agreement.readable_iff.mpr known)
  have moved := Selection.moved_release ran
  have hits : ∀ path : Nat, after.hitsAt path =
      selection.hitsAt path - if (path : Int) ∈ incidence.listed set then 1 else 0 := by
    intro path
    rw [moved.hits, size, agreement.visits_eq]
    split <;> rfl
  have idle : after.idle = selection.idle := Selection.idle_eq_of_same moved.size fun path => by
    rw [hits]
    split
    · have enough := twice path ‹_›
      rw [Int.toNat_natCast] at enough
      omega
    · rw [Int.sub_zero]
  have follows := moved.unhit
  exact ⟨after, ran, moved.size.trans size, by omega, hits⟩

end Incidence.Agreement

/-! ### The examination -/

/-- **What an examination keeps** of counters of any kind: how far each of them is above the number
of entries that hit its path, those that are not positive, and the number of unhit paths. A member
that is kept lists a path that is not counted too often. -/
structure Selection.KeptFrom (incidence : Incidence) (before : Selection) (cover : List Int)
    (pruned : Selection) : Prop where
  part : pruned.members.Sublist cover
  unhit : pruned.unhit = before.unhit
  excess : ∀ path, pruned.excess incidence pruned.members path = before.excess incidence cover path
  positive : ∀ path, 0 < before.hitsAt path → 0 < pruned.hitsAt path
  idle : ∀ path, before.hitsAt path ≤ 0 → pruned.hitsAt path = before.hitsAt path
  owed : ∀ set ∈ pruned.members, ∃ path : Nat, (path : Int) ∈ incidence.listed set ∧
    before.excess incidence cover path ≤ 0

/-- **What an examination can end with**: a counter of a path of a member is not positive, or some
members are kept. -/
inductive Selection.Examined (incidence : Incidence) (before : Selection) (cover : List Int) :
    Except Fault Selection → Prop
  | caught {set : Int} {path : Nat} : set ∈ cover → (path : Int) ∈ incidence.listed set →
      before.hitsAt path ≤ 0 →
      Examined incidence before cover (.error (before.countFault set path))
  | kept {pruned : Selection} : before.KeptFrom incidence cover pruned →
      Examined incidence before cover (.ok pruned)

section Step

variable {after : Selection} {cover fewer : List Int} {result : Except Fault Selection}

/-- **A member released**: what is kept of the rest is kept of the whole. -/
theorem Selection.Examined.of_released (part : fewer.Sublist cover)
    (unhit : after.unhit = selection.unhit)
    (twice : ∀ path ∈ incidence.listed set, 2 ≤ selection.hitsAt path.toNat)
    (hits : ∀ path : Nat, after.hitsAt path =
      selection.hitsAt path - if (path : Int) ∈ incidence.listed set then 1 else 0)
    (excess : ∀ path, after.excess incidence fewer path = selection.excess incidence cover path)
    (examined : Examined incidence after fewer result) :
    Examined incidence selection cover result := by
  have idle : ∀ path, after.hitsAt path ≤ 0 → after.hitsAt path = selection.hitsAt path := by
    intro path low
    by_cases listed : (path : Int) ∈ incidence.listed set
    · have enough := twice path listed
      rw [Int.toNat_natCast] at enough
      rw [hits, if_pos listed] at low
      omega
    · rw [hits, if_neg listed, Int.sub_zero]
  have below : ∀ path, after.hitsAt path ≤ selection.hitsAt path := by
    intro path
    rw [hits]
    split <;> omega
  cases examined with
  | @caught other path member listed low =>
    have same := idle path low
    rw [Selection.countFault, same]
    rw [same] at low
    exact .caught (part.subset member) listed low
  | kept kept =>
    refine .kept ⟨kept.part.trans part, kept.unhit.trans unhit,
      fun path => (kept.excess path).trans (excess path), fun path positive => ?_,
      fun path low => ?_, fun other member => ?_⟩
    · by_cases still : 0 < after.hitsAt path
      · exact kept.positive path still
      · have same := idle path (by omega)
        omega
    · have low' := (below path).trans low
      rw [kept.idle path low', idle path low']
    · obtain ⟨path, listed, owed⟩ := kept.owed other member
      exact ⟨path, listed, excess path ▸ owed⟩

end Step

/-- **The examination over counters of any kind.** The excess is that over the members kept and the
members still to come. -/
theorem Incidence.Agreement.examined (agreement : incidence.Agreement)
    (size : selection.hits.size = incidence.pathCount) {order reversedKept : List Int}
    (known : ∀ set ∈ order, (entryAt? incidence.sets set).isSome)
    (owed : ∀ set ∈ reversedKept, ∃ path : Nat, (path : Int) ∈ incidence.listed set ∧
      selection.excess incidence (reversedKept.reverse ++ order) path ≤ 0) :
    selection.Examined incidence (reversedKept.reverse ++ order)
      (examine incidence order reversedKept selection) := by
  induction order generalizing reversedKept selection with
  | nil =>
    rw [List.append_nil] at owed ⊢
    exact .kept ⟨List.Sublist.refl _, rfl, fun _ => rfl, fun _ positive => positive,
      fun _ _ => rfl, fun set member => owed set (List.mem_reverse.mp member)⟩
  | cons set rest ih =>
    rw [List.forall_mem_cons] at known
    have answer := agreement.answers_isRedundant? size known.1
    rw [examine]
    generalize selection.isRedundant? incidence set = asked at answer
    cases answer with
    | caught listed low => exact .caught (by simp) listed low
    | @needed path listed once =>
      -- a path of the set that is counted once is not counted too often, for the set hits it
      have member : set ∈ reversedKept.reverse ++ set :: rest := by simp
      have hit := agreement.tally_pos_iff_listed.mpr ⟨set, member, listed⟩
      have owed' : selection.excess incidence (reversedKept.reverse ++ set :: rest) path ≤ 0 := by
        rw [Selection.excess]
        omega
      show selection.Examined incidence _ (examine incidence rest (set :: reversedKept) selection)
      rw [← append_reverse_cons] at owed owed' ⊢
      exact ih size known.2 (List.forall_mem_cons.mpr ⟨⟨path, listed, owed'⟩, owed⟩)
    | redundant twice =>
      obtain ⟨after, ran, size', unhit, hits⟩ := agreement.exists_release_twice size known.1 twice
      have excess : ∀ path, after.excess incidence (reversedKept.reverse ++ rest) path =
          selection.excess incidence (reversedKept.reverse ++ set :: rest) path := by
        intro path
        rw [Selection.excess, Selection.excess, hits, Incidence.tally_perm List.perm_middle,
          Incidence.tally_cons, agreement.visits_eq]
        split <;> push_cast <;> omega
      show selection.Examined incidence _
        (selection.release? incidence set >>= examine incidence rest reversedKept)
      rw [ran]
      refine .of_released ((List.sublist_cons_self set rest).append_left _) unhit twice hits excess
        (ih size' known.2 fun kept member => ?_)
      obtain ⟨path, listed, owed⟩ := owed kept member
      exact ⟨path, listed, (excess path).symm ▸ owed⟩

/-! ### Pruning -/

/-- **All that pruning can end with**, over counters of any kind: the selection is said to be
incomplete, or a path of a member is counted less than not at all, or some members are kept. A
counter that is too long to be written cannot be told, and that is no violation. -/
inductive Selection.PruningEnds (incidence : Incidence) (selection : Selection)
    (order : List Int) : Except Fault Selection → Prop
  | incomplete : selection.unhit ≠ 0 →
      PruningEnds incidence selection order
        (.error (.violation (.pruningIncomplete selection.unhit)))
  | caught {set : Int} {path : Nat} : set ∈ selection.members →
      (path : Int) ∈ incidence.listed set → selection.hitsAt path < 0 →
      isWritable (selection.hitsAt path) →
      PruningEnds incidence selection order
        (.error (.violation (.hitCount path set (selection.hitsAt path))))
  | untold {set : Int} {path : Nat} : set ∈ selection.members →
      (path : Int) ∈ incidence.listed set → selection.hitsAt path < 0 →
      ¬ isWritable (selection.hitsAt path) →
      PruningEnds incidence selection order (.error (.value .tooManyDigits))
  | kept {pruned : Selection} : selection.unhit = 0 → selection.KeptFrom incidence order pruned →
      PruningEnds incidence selection order (.ok pruned)

/-- A counter that is not positive ends the pruning, in one of two ways. -/
theorem Selection.PruningEnds.of_negative {set : Int} {path : Nat} {order : List Int}
    (member : set ∈ selection.members) (listed : (path : Int) ∈ incidence.listed set)
    (negative : selection.hitsAt path < 0) :
    selection.PruningEnds incidence order (.error (selection.countFault set path)) := by
  rw [countFault]
  by_cases short : isWritable (selection.hitsAt path)
  · rw [Fault.quoting_of_told (by simpa using short)]
    exact .caught member listed negative short
  · rw [Fault.quoting_of_untold (by simpa using short)]
    exact .untold member listed negative short

/-- What the constructor accepts passes the check of a copy. -/
theorem Selection.copy?_of_make? {members : List Int} {hits : Array Int} {unhit : Int}
    (made : make? members hits unhit = .ok selection) :
    selection.members = members ∧ selection.hits = hits ∧ selection.copy? = .ok selection := by
  have accepted := made
  rw [make?] at made
  split at made
  · cases made
    exact ⟨rfl, rfl, accepted⟩
  · cases made

/-- A complete selection that passes its own check has no counter that is zero. -/
theorem Selection.hitsAt_ne_zero (checked : selection.copy? = .ok selection)
    (complete : selection.unhit = 0) {path : Nat} (within : path < selection.hits.size) :
    selection.hitsAt path ≠ 0 := by
  intro zero
  have none_zero : (zeros selection.hits : Int) = selection.unhit := by
    by_contra differs
    rw [copy?, make?, if_neg differs] at checked
    cases checked
  rw [complete, zeros, Int.natCast_eq_zero, List.count_eq_zero] at none_zero
  rw [hitsAt_eq_getElem within] at zero
  exact none_zero (zero ▸ Array.getElem_mem_toList within)

/-- **A selection pruned in some order of its members.** -/
theorem Incidence.Agreement.prunedIn?_ends (agreement : incidence.Agreement)
    (checked : selection.copy? = .ok selection)
    (size : selection.hits.size = incidence.pathCount)
    (known : ∀ set ∈ selection.members, (entryAt? incidence.sets set).isSome) {order : List Int}
    (same : order.Perm selection.members) :
    selection.PruningEnds incidence order (prunedIn? incidence selection order) := by
  rw [prunedIn?, copyComplete?]
  by_cases complete : selection.unhit = 0
  · rw [if_pos (by simpa [Selection.isComplete] using complete), checked]
    have ended : selection.Examined incidence ([].reverse ++ order)
        (examine incidence order [] selection) :=
      agreement.examined size (fun set member => known set (same.subset member))
        fun set impossible => absurd impossible List.not_mem_nil
    rw [List.reverse_nil, List.nil_append] at ended
    show selection.PruningEnds incidence order (pruneInOrder incidence selection order)
    rw [pruneInOrder]
    generalize examine incidence order [] selection = result at ended
    cases ended with
    | @caught set path member listed low =>
      obtain ⟨_, below⟩ := agreement.inRange set path listed
      have within : path < selection.hits.size := size ▸ by exact_mod_cast below
      exact .of_negative (same.subset member) listed
        (lt_of_le_of_ne low (Selection.hitsAt_ne_zero checked complete within))
    | @kept pruned kept =>
      have passes : pruned.isComplete := decide_eq_true (kept.unhit.trans complete)
      show selection.PruningEnds incidence order (if pruned.isComplete then .ok pruned else _)
      rw [if_pos passes]
      exact .kept complete kept
  · rw [if_neg (by simpa [Selection.isComplete] using complete)]
    exact .incomplete complete

/-! ### What is still hit -/

/-- **Which paths are still hit by what is returned.** It is a cover exactly if every path is
counted more often than too often. A path that is not counted too often is hit if the members hit
it; a path is lost if all paths of the members that list it are counted too often. -/
structure Selection.HitsOnTrust (incidence : Incidence) (selection pruned : Selection) :
    Prop where
  isCover : incidence.isCover? pruned.members = .ok (decide
    (∀ path < incidence.pathCount,
      selection.excess incidence selection.members path < pruned.hitsAt path))
  kept : ∀ path, selection.excess incidence selection.members path ≤ 0 →
    (0 < incidence.tally pruned.members path ↔ 0 < incidence.tally selection.members path)
  lost : ∀ path : Nat,
    (∀ set ∈ selection.members, (path : Int) ∈ incidence.listed set →
      ∀ other : Nat, (other : Int) ∈ incidence.listed set →
        0 < selection.excess incidence selection.members other) →
    incidence.tally pruned.members path = 0

theorem Selection.KeptFrom.hitsOnTrust (agreement : incidence.Agreement)
    (known : ∀ set ∈ selection.members, (entryAt? incidence.sets set).isSome) {order : List Int}
    (same : order.Perm selection.members) (kept : selection.KeptFrom incidence order pruned) :
    selection.HitsOnTrust incidence pruned := by
  have reorder : ∀ path, selection.excess incidence order path =
      selection.excess incidence selection.members path := fun path => by
    rw [Selection.excess, Selection.excess, Incidence.tally_perm same]
  have left : ∀ path, pruned.hitsAt path - incidence.tally pruned.members path =
      selection.excess incidence selection.members path :=
    fun path => (kept.excess path).trans (reorder path)
  have member : ∀ set ∈ pruned.members, set ∈ selection.members :=
    fun set held => same.subset (kept.part.subset held)
  refine ⟨?_, fun path exact_or_low => ?_, fun path too_high => ?_⟩
  · rw [Incidence.isCover?_eq_ok fun set held =>
      agreement.readable_iff.mpr (known set (member set held))]
    refine congrArg Except.ok (decide_eq_decide.mpr ?_)
    refine forall₂_congr fun path _ => ?_
    have parts := left path
    omega
  · have parts := left path
    rcases le_or_gt (selection.hitsAt path) 0 with low | positive
    · rw [kept.idle path low] at parts
      rw [Selection.excess] at parts
      omega
    · have still := kept.positive path positive
      rw [Selection.excess] at parts exact_or_low
      omega
  · by_contra hit
    obtain ⟨set, held, listed⟩ :=
      agreement.tally_pos_iff_listed.mp (Nat.pos_of_ne_zero hit)
    obtain ⟨other, listed', owed⟩ := kept.owed set held
    have above := too_high set (member set held) listed other listed'
    rw [reorder] at owed
    omega

/-- **Pruning trusts the counters.** Over a relation that was built, take any selection that its
constructor accepts, of sets that there are and with a counter for every path, and prune it in any
way. It ends with a violation, which may take a number that is too long to be told, or it returns
what the counters tell it to keep. -/
theorem pruning_trusts_counters {sets : List (List Int)} {pathCount : Option Int}
    (built : Incidence.ofSets? sets pathCount = .ok incidence) {members : List Int}
    {hits : Array Int} {unhit : Int} (made : Selection.make? members hits unhit = .ok selection)
    (known : ∀ set ∈ members, (entryAt? incidence.sets set).isSome)
    (size : hits.size = incidence.pathCount) {order : List Int}
    {result : Except Fault Selection} (pruning : Pruning incidence selection order result) :
    selection.PruningEnds incidence order result ∧
      ∀ pruned, result = .ok pruned → selection.HitsOnTrust incidence pruned := by
  have agreement := Incidence.agreement_of_ofSets? built
  obtain ⟨rfl, rfl, checked⟩ := Selection.copy?_of_make? made
  obtain ⟨same, rfl⟩ := pruning.eq
  have ended := agreement.prunedIn?_ends checked size known same
  refine ⟨ended, fun pruned returned => ?_⟩
  rw [returned] at ended
  cases ended with
  | kept _ kept => exact kept.hitsOnTrust agreement known same

/-- The sets with one path each, and the counter of the first path one too high: the first set is
dropped, and its path is lost. -/
theorem pruning_trusts_counters_overlap : ∃ selection pruned,
    Selection.make? [0, 3] #[2, 1] 0 = .ok selection ∧ pruned? overlap selection = .ok pruned ∧
      selection.HitsOnTrust overlap pruned ∧ overlap.isCover? pruned.members = .ok false := by
  have made : Selection.make? [0, 3] #[2, 1] 0 = .ok ⟨[0, 3], #[2, 1], 0⟩ := by decide +kernel
  have known : ∀ set ∈ [0, 3], (entryAt? overlap.sets set).isSome := by decide
  have ran : pruned? overlap ⟨[0, 3], #[2, 1], 0⟩ = .ok ⟨[3], #[1, 1], 0⟩ := by decide +kernel
  obtain ⟨_, hits⟩ := pruning_trusts_counters overlap_built made known rfl .inOrder
  exact ⟨_, _, made, ran, hits _ ran, by decide +kernel⟩

/-- **A cover of one set, pruned to nothing.** Its path is counted twice, which the constructor
accepts; no violation is found, and what is returned is no cover. -/
theorem overcounted_pruned :
    Incidence.ofSets? [[0]] none = .ok ⟨#[[0]], #[[0]]⟩ ∧
      Incidence.isCover? ⟨#[[0]], #[[0]]⟩ [0] = .ok true ∧
      Selection.make? [0] #[2] 0 = .ok ⟨[0], #[2], 0⟩ ∧
      pruned? ⟨#[[0]], #[[0]]⟩ ⟨[0], #[2], 0⟩ = .ok ⟨[], #[1], 0⟩ ∧
      Incidence.isCover? ⟨#[[0]], #[[0]]⟩ [] = .ok false := by
  decide +kernel

/-- **A counter too low to be told.** The constructor accepts it, and no violation is found. -/
theorem undercounted_untold :
    Selection.make? [0] #[-(10 ^ 4300)] 0 = .ok ⟨[0], #[-(10 ^ 4300)], 0⟩ ∧
      pruned? ⟨#[[0]], #[[0]]⟩ ⟨[0], #[-(10 ^ 4300)], 0⟩ = .error (.value .tooManyDigits) := by
  decide +kernel

end Transversal
