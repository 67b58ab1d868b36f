/-
**Covers do not depend on the order in which sets list their paths.**

Two relations that only differ by that order are told apart by no step of any algorithm: counters go
up and down by the same amounts, a member is redundant by both or by neither, gains are lost one by
one, and random numbers are drawn from the same lists.

* `Incidence.Relisted.add?_eq`, `Incidence.Relisted.release?_eq`: a set is counted in and out alike.
* `Incidence.Relisted.examine_eq`: the same members are kept. That a path early in a list decides
  is not seen, as the question is never a violation.
* `Incidence.Relisted.largestCover_eq`: the same sets are taken, as lost gains commute.
* `Incidence.Relisted.sampledCover_eq`: the same sets are sampled.
-/
import Transversal.Proofs.Cover.Largest
import Transversal.Proofs.Cover.Pruned
import Transversal.Proofs.Cover.Sampled
import Transversal.Proofs.Incidence.Relisted

namespace Transversal

variable {incidence other : Incidence} {selection : Selection} {cover : List Int}

namespace Incidence.Relisted

/-! ### Selections -/

section Selections

variable (same : incidence.Relisted other)

include same

theorem readable_iff (set : Int) : other.Readable set ↔ incidence.Readable set := by
  rw [same.agreement.readable_iff, same.agreement'.readable_iff, same.isSome_iff]

/-- A set is selected alike. -/
theorem add?_eq (size : selection.hits.size = incidence.pathCount) (set : Int) :
    selection.add? other set = selection.add? incidence set := by
  by_cases known : (entryAt? incidence.sets set).isSome
  · have readable := same.agreement.readable_iff.mpr known
    have size' := size.trans same.pathCount_eq.symm
    obtain ⟨after, run⟩ := (Selection.add?_ok_iff size).mpr readable
    obtain ⟨after', run'⟩ :=
      (Selection.add?_ok_iff size').mpr ((same.readable_iff set).mpr readable)
    have shift := Selection.foldlM_countIn (Selection.add?_eq_ok_iff.mp run).2
    have shift' := Selection.foldlM_countIn (Selection.add?_eq_ok_iff.mp run').2
    have equal := (shift'.congr fun path => by rw [same.visits_eq]).eq shift
    rw [run, run', equal]
  · rw [Selection.add?, Selection.add?, Selection.add, Selection.add, same.pathsOf?_missing known]

/-- A set is released alike. -/
theorem release?_eq (size : selection.hits.size = incidence.pathCount) (set : Int) :
    selection.release? other set = selection.release? incidence set := by
  by_cases known : (entryAt? incidence.sets set).isSome
  · have readable := same.agreement.readable_iff.mpr known
    have size' := size.trans same.pathCount_eq.symm
    obtain ⟨after, run⟩ := (Selection.release?_ok_iff size).mpr readable
    obtain ⟨after', run'⟩ :=
      (Selection.release?_ok_iff size').mpr ((same.readable_iff set).mpr readable)
    have shift := Selection.foldlM_countOut (Selection.release?_eq_ok_iff.mp run).2
    have shift' := Selection.foldlM_countOut (Selection.release?_eq_ok_iff.mp run').2
    have equal := (shift'.congr fun path => by rw [same.visits_eq]).eq shift
    rw [run, run', equal]
  · rw [Selection.release?, Selection.release?, Selection.release, Selection.release,
      same.pathsOf?_missing known]

/-- A list of sets makes the same selection. -/
theorem ofMembers_eq (members : List Int) :
    Selection.ofMembers other members = Selection.ofMembers incidence members := by
  rw [Selection.ofMembers, Selection.ofMembers, same.pathCount_eq]
  refine Except.foldlM_congr (fun now => now.hits.size = incidence.pathCount) ?_ ?_
    Array.size_replicate
  · intro before set after size stepped
    rw [same.add?_eq size] at stepped
    exact (Selection.moved_add stepped).size.trans size
  · intro before set size
    exact same.add?_eq size set

end Selections

/-! ### Redundant members -/

section Pruning

variable (same : incidence.Relisted other)

include same

theorem counts_iff : selection.Counts other cover ↔ selection.Counts incidence cover := by
  constructor
  · intro counts
    exact ⟨counts.size.trans same.pathCount_eq, fun path => by rw [counts.hits, same.tally_eq],
      counts.unhit⟩
  · intro counts
    exact ⟨counts.size.trans same.pathCount_eq.symm,
      fun path => by rw [counts.hits, same.tally_eq], counts.unhit⟩

/-- A member is redundant by both relations or by neither. -/
theorem isRedundant?_eq (counts : selection.Counts incidence cover) {set : Int}
    (member : set ∈ cover) :
    selection.isRedundant? other set = selection.isRedundant? incidence set := by
  by_cases known : (entryAt? incidence.sets set).isSome
  · rw [same.agreement.isRedundant?_eq_ok counts member known,
      same.agreement'.isRedundant?_eq_ok (same.counts_iff.mpr counts) member
        ((same.isSome_iff set).mpr known)]
    simp only [(same.listed set).mem_iff, same.tally_eq]
  · rw [Selection.isRedundant?, Selection.isRedundant?, same.pathsOf?_missing known]

/-- **The same members are kept.** -/
theorem examine_eq {order reversedKept : List Int}
    (counts : selection.Counts incidence (reversedKept.reverse ++ order)) :
    examine other order reversedKept selection =
      examine incidence order reversedKept selection := by
  induction order generalizing reversedKept selection with
  | nil => rfl
  | cons set rest ih =>
    rw [examine, examine, same.isRedundant?_eq counts (by simp)]
    refine Except.bind_congr_ok fun redundant _ => ?_
    cases redundant with
    | true =>
      rw [if_pos rfl, if_pos rfl, same.release?_eq counts.size]
      refine Except.bind_congr_ok fun after released => ?_
      exact ih ((counts.release (by simp) released).2.perm (erase_middle_perm _ _ _))
    | false =>
      rw [if_neg Bool.false_ne_true, if_neg Bool.false_ne_true]
      refine ih ?_
      rwa [List.reverse_cons, List.append_assoc, List.singleton_append]

theorem pruneInOrder_eq (counts : selection.Counts incidence cover) {order : List Int}
    (reordered : order.Perm cover) :
    pruneInOrder other selection order = pruneInOrder incidence selection order := by
  have whole : selection.Counts incidence ([].reverse ++ order) := counts.perm reordered.symm
  rw [pruneInOrder, pruneInOrder, same.examine_eq whole]

/-- A cover is pruned alike in the order of its members. -/
theorem pruned?_eq (tracked : Tracked incidence selection) :
    pruned? other selection = pruned? incidence selection := by
  refine Except.bind_congr_ok fun copied copying => ?_
  obtain ⟨_, rfl⟩ := (copyComplete?_eq_ok_iff tracked.counts).mp copying
  exact same.pruneInOrder_eq tracked.counts (List.Perm.refl _)

/-- A cover is pruned alike in random order. -/
theorem prunedAtRandom_eq {σ : Type} [RandomStream σ] (tracked : Tracked incidence selection) :
    (prunedAtRandom other selection : Run σ Selection) = prunedAtRandom incidence selection := by
  have copying : Run.Returns (Run.lift (copyComplete? selection) : Run σ Selection)
      (· = selection) := Run.returns_lift fun _ copied =>
    ((copyComplete?_eq_ok_iff tracked.counts).mp copied).2
  refine copying.bind_congr ?_
  rintro _ rfl
  refine (Run.returns_shuffle _).bind_congr fun order reordered => ?_
  rw [same.pruneInOrder_eq tracked.counts reordered]

end Pruning

end Incidence.Relisted

/-! ### Gains -/

theorem size_loseGain {gains after : Array Int} {set : Int}
    (run : loseGain gains set = .ok after) : after.size = gains.size := by
  unfold loseGain at run
  split at run
  · cases run
  · cases run
    exact Array.size_modify

/-- Gains are lost in any order. -/
theorem loseGain_comm {gains : Array Int} {first second : Int}
    (known : (place? gains.size first).isSome) (known' : (place? gains.size second).isSome) :
    (loseGain gains first >>= (loseGain · second)) =
      (loseGain gains second >>= (loseGain · first)) := by
  obtain ⟨place, denotes⟩ := Option.isSome_iff_exists.mp known
  obtain ⟨place', denotes'⟩ := Option.isSome_iff_exists.mp known'
  have lost : ∀ {gains : Array Int} {set place}, place? gains.size set = some place →
      loseGain gains set = .ok (gains.modify place (· - 1)) := by
    intro gains set place denotes
    rw [loseGain, denotes]
  rw [lost denotes, lost denotes']
  show loseGain _ second = loseGain _ first
  rw [lost (by rwa [Array.size_modify]), lost (by rwa [Array.size_modify])]
  congr 1
  refine Array.ext (by simp) fun other within within' => ?_
  simp only [Array.getElem_modify]
  split_ifs <;> rfl

theorem foldlM_loseGain_perm {gains : Array Int} {hitting reordered : List Int}
    (same : hitting.Perm reordered) (known : ∀ set ∈ hitting, (place? gains.size set).isSome) :
    hitting.foldlM loseGain gains = reordered.foldlM loseGain gains := by
  refine Except.foldlM_perm (fun now => now.size = gains.size)
    (fun set => (place? gains.size set).isSome) ?_ ?_ same known rfl
  · intro before set after size run
    exact (size_loseGain run).trans size
  · intro before first second size known known'
    rw [← size] at known known'
    exact loseGain_comm known known'

/-- Once a path is hit, gains are lost to a list of sets, all of which are there. -/
theorem Incidence.Agreement.hitPath_eq (agreement : incidence.Agreement)
    (size : selection.hits.size = incidence.pathCount) {path : Int}
    (inRange : 0 ≤ path ∧ path < incidence.pathCount) :
    ∃ losing : List Int, (∀ set ∈ losing, (place? incidence.setCount set).isSome) ∧
      ∀ gains, hitPath incidence selection gains path = losing.foldlM loseGain gains := by
  obtain ⟨place, rfl⟩ := Int.eq_ofNat_of_zero_le inRange.1
  have within : place < incidence.pathCount := by exact_mod_cast inRange.2
  have known : ∀ set ∈ incidence.paths[place], (place? incidence.setCount set).isSome := by
    intro set member
    have hitting : set ∈ incidence.hitting place := by
      rwa [Incidence.hitting, Array.getD_eq_getD_getElem?, Array.getElem?_eq_getElem within]
    obtain ⟨other, below, rfl, _⟩ := (agreement.mem_hitting_iff within).mp hitting
    rw [place?_natCast below, Option.isSome_some]
  have found : entryAt? selection.hits place = some (selection.hitsAt place) := by
    rw [entryAt?_natCast (size ▸ within), Selection.hitsAt_eq_getElem (size ▸ within)]
  by_cases idle : selection.hitsAt place = 0
  · refine ⟨incidence.paths[place], known, fun gains => ?_⟩
    rw [hitPath, found]
    dsimp only
    rw [if_neg (not_not.mpr idle), entryAt?_natCast within]
  · refine ⟨[], by simp, fun gains => ?_⟩
    rw [hitPath, found]
    exact if_pos idle

theorem size_hitPath {gains after : Array Int} {path : Int}
    (run : hitPath incidence selection gains path = .ok after) : after.size = gains.size := by
  unfold hitPath at run
  split at run
  · cases run
  · split at run
    · cases run
      rfl
    · split at run
      · cases run
      · refine Except.foldlM_ok_induct (fun _ (now : Array Int) => now.size = gains.size) ?_ rfl run
        intro _ before set now size stepped
        exact (size_loseGain stepped).trans size

/-- Paths are hit in any order. -/
theorem Incidence.Agreement.foldlM_hitPath_perm (agreement : incidence.Agreement)
    (size : selection.hits.size = incidence.pathCount) {gains : Array Int}
    (gainsSize : gains.size = incidence.setCount) {paths reordered : List Int}
    (same : paths.Perm reordered)
    (inRange : ∀ path ∈ paths, 0 ≤ path ∧ path < incidence.pathCount) :
    paths.foldlM (hitPath incidence selection) gains =
      reordered.foldlM (hitPath incidence selection) gains := by
  refine Except.foldlM_perm (fun now : Array Int => now.size = incidence.setCount)
    (fun path : Int => 0 ≤ path ∧ path < incidence.pathCount) ?_ ?_ same inRange gainsSize
  · intro before path after sized run
    exact (size_hitPath run).trans sized
  · intro before first second sized within within'
    obtain ⟨losing, known, lost⟩ := agreement.hitPath_eq size within
    obtain ⟨losing', known', lost'⟩ := agreement.hitPath_eq size within'
    simp only [lost, lost', ← List.foldlM_append]
    refine foldlM_loseGain_perm List.perm_append_comm fun set member => ?_
    rw [sized]
    exact (List.mem_append.mp member).elim (known set) (known' set)

namespace Incidence.Relisted

/-! ### Greedy covers -/

section Greedy

variable (same : incidence.Relisted other)

include same

/-- The same set is taken, and leaves the same gains. -/
theorem largestStep_eq {growth : Growth}
    (size : growth.selection.hits.size = incidence.pathCount)
    (gainsSize : growth.gains.size = incidence.setCount) :
    largestStep other growth = largestStep incidence growth := by
  unfold largestStep
  cases found : firstLargest? growth.gains.toList with
  | none => rfl
  | some best =>
    obtain ⟨best, gain⟩ := best
    have stands := firstLargest?_eq_some found
    rw [Array.getElem?_toList] at stands
    -- There are as many gains as sets, so the best set is there and its paths can be read.
    have within : best < incidence.setCount := by
      rw [← gainsSize]
      exact (Array.getElem?_eq_some_iff.mp stands).1
    have known := (same.agreement.readable_natCast within).1
    have lost : (other.listed best).foldlM (hitPath other growth.selection) growth.gains =
        (incidence.listed best).foldlM (hitPath incidence growth.selection) growth.gains := by
      have alike : hitPath other growth.selection = hitPath incidence growth.selection := by
        funext gains path
        rw [hitPath, hitPath, same.paths]
      rw [alike]
      refine same.agreement.foldlM_hitPath_perm size gainsSize (same.listed best) ?_
      intro path member
      exact same.agreement.inRange best path ((same.listed best).mem_iff.mp member)
    dsimp only
    by_cases few : gain ≤ 0
    · rw [if_pos few, if_pos few]
      rfl
    · rw [if_neg few, if_neg few, pathsOf?_eq_ok known,
        pathsOf?_eq_ok ((same.isSome_iff _).mpr known), same.add?_eq size]
      show ((other.listed best).foldlM (hitPath other growth.selection) growth.gains >>= _) = _
      rw [lost]
      rfl

/-- **The same sets are taken.** -/
theorem growLargest_eq {steps : Nat} {growth : Growth}
    (size : growth.selection.hits.size = incidence.pathCount)
    (gainsSize : growth.gains.size = incidence.setCount) :
    growLargest other steps growth = growLargest incidence steps growth := by
  induction steps generalizing growth with
  | zero => rfl
  | succ steps ih =>
    rw [growLargest, growLargest, same.largestStep_eq size gainsSize]
    refine if_congr Iff.rfl rfl (Except.bind_congr_ok fun after stepped => ?_)
    obtain ⟨best, _, _, _, lost, added, _⟩ := largestStep_eq_ok stepped
    refine ih ((Selection.moved_add added).size.trans size) ?_
    refine Except.foldlM_ok_induct (fun _ (now : Array Int) => now.size = incidence.setCount) ?_
      gainsSize lost
    intro _ before path now sized run
    exact (size_hitPath run).trans sized

/-- Every set would hit as many paths. -/
theorem start_eq : Growth.start other = Growth.start incidence := by
  rw [Growth.start, Growth.start, same.pathCount_eq]
  congr 1
  refine Array.ext ?_ fun set within within' => ?_
  · rw [Array.size_map, Array.size_map]
    exact same.setCount
  have lengths := (same.listed set).length_eq
  rw [listed_natCast, listed_natCast] at lengths
  rw [Array.size_map] at within within'
  simpa [Array.getD_eq_getD_getElem?, within, within'] using lengths

theorem largestCover_eq : largestCover other = largestCover incidence := by
  rw [largestCover, largestCover, same.start_eq, same.pathCount_eq]
  exact same.growLargest_eq Array.size_replicate Array.size_map

end Greedy

/-! ### Sampled covers -/

section Sampled

variable {σ : Type} [RandomStream σ] (same : incidence.Relisted other)

include same

/-- The same sets are sampled, from the same draws. -/
theorem coverInOrder_eq {activities : Array Binary64} {maxDraws : Int} {order : List Nat}
    (size : selection.hits.size = incidence.pathCount) :
    (coverInOrder other activities maxDraws order selection : Run σ Selection) =
      coverInOrder incidence activities maxDraws order selection := by
  induction order generalizing selection with
  | nil => rfl
  | cons path rest ih =>
    rw [coverInOrder, coverInOrder, same.paths]
    refine if_congr Iff.rfl (ih size) ?_
    refine (Run.returns_true _).bind_congr fun set _ => ?_
    rw [same.add?_eq size]
    have sized : Run.Returns (Run.lift (selection.add? incidence set) : Run σ Selection)
        (fun after => after.hits.size = incidence.pathCount) := Run.returns_lift fun after added =>
      (Selection.moved_add added).size.trans size
    exact sized.bind_congr fun after size => if_congr Iff.rfl rfl (ih size)

theorem sampledCover_eq (activities : Array Binary64) (maxDraws : Int) :
    (sampledCover other activities maxDraws : Run σ Selection) =
      sampledCover incidence activities maxDraws := by
  rw [sampledCover, sampledCover, same.pathCount_eq]
  refine (Run.returns_true _).bind_congr fun order _ => ?_
  rw [same.coverInOrder_eq Array.size_replicate]

end Sampled

end Incidence.Relisted

end Transversal
