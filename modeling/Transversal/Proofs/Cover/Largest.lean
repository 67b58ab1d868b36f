/-
**A cover grown greedily is whole**, over any relation.

* `firstLargest?_eq_some`: what is found stands at its place.
* `largestStep_unhit_lt`: a set that is taken hits a path that was unhit. The gains are computed
  from one direction of the relation and the counters from the other; the gain left over has to be
  zero, so one of the paths was unhit.
* `largestCover_isWhole`: so the steps suffice, and the whole cover is a whole selection.
-/
import Transversal.Cover.Largest
import Transversal.Proofs.Selection.Tracked

namespace Transversal

variable {incidence : Incidence}

/-! ### The best set -/

/-- What is found stands at its place. -/
theorem firstLargest?_eq_some {entries : List Int} {place : Nat} {value : Int}
    (found : firstLargest? entries = some (place, value)) : entries[place]? = some value := by
  have stands : ∀ entry ∈ firstLargest? entries, entries[entry.1]? = some entry.2 := by
    refine List.foldlRecOn (motive := fun best : Option (Nat × Int) =>
      ∀ entry ∈ best, entries[entry.1]? = some entry.2) entries.zipIdx _
      (fun _ absent => by cases absent) ?_
    rintro best held ⟨entry, index⟩ member
    have listed := List.mem_zipIdx_iff_getElem?.mp member
    rcases best with _ | ⟨known, largest⟩
    · rintro _ ⟨⟩
      exact listed
    · dsimp only
      split
      · rintro _ ⟨⟩
        exact listed
      · exact held
  exact stands (place, value) found

/-- The gains stay as they are if every path listed is hit already. -/
theorem foldlM_hitPath_of_hit {selection : Selection} {paths : List Int} {gains after : Array Int}
    (hit : ∀ path ∈ paths, ∀ count, entryAt? selection.hits path = some count → count ≠ 0)
    (run : paths.foldlM (hitPath incidence selection) gains = .ok after) : after = gains := by
  induction paths generalizing gains with
  | nil =>
    cases run
    rfl
  | cons path rest ih =>
    rw [List.forall_mem_cons] at hit
    rw [List.foldlM_cons, Except.bind_eq_ok_iff] at run
    obtain ⟨middle, stepped, run⟩ := run
    rw [ih hit.2 run]
    unfold hitPath at stepped
    split at stepped
    · cases stepped
    · rename_i count found
      rw [if_pos (hit.1 count found)] at stepped
      cases stepped
      rfl

/-! ### One step -/

/-- **One step takes one set.** Its gain was positive, and it is zero once its paths are hit. -/
theorem largestStep_eq_ok {growth after : Growth}
    (run : largestStep incidence growth = .ok after) :
    ∃ best : Nat, ∃ gain : Int, growth.gains[best]? = some gain ∧ 0 < gain ∧
      (incidence.listed best).foldlM (hitPath incidence growth.selection) growth.gains =
        .ok after.gains ∧
      growth.selection.add? incidence best = .ok after.selection ∧
      after.gains.getD best 0 = 0 := by
  unfold largestStep at run
  split at run
  · cases run
  · rename_i best gain found
    obtain ⟨positive, run⟩ := Except.check_eq_ok_iff.mp run
    obtain ⟨paths, read, run⟩ := Except.bind_eq_ok_iff.mp run
    obtain ⟨gains, lost, run⟩ := Except.bind_eq_ok_iff.mp run
    obtain ⟨selection, added, run⟩ := Except.bind_eq_ok_iff.mp run
    obtain ⟨left, run⟩ := Except.check_eq_ok_iff.mp run
    cases run
    have stands := firstLargest?_eq_some found
    rw [Array.getElem?_toList] at stands
    have listed : incidence.listed best = paths := by
      rw [Incidence.listed, Incidence.pathsOf?_eq_ok_iff.mp read, Option.getD_some]
    exact ⟨best, gain, stands, not_le.mp positive, listed ▸ lost, added, not_not.mp left⟩

theorem Tracked.largestStep {growth after : Growth} (tracked : Tracked incidence growth.selection)
    (run : largestStep incidence growth = .ok after) : Tracked incidence after.selection := by
  obtain ⟨best, _, _, _, _, added, _⟩ := largestStep_eq_ok run
  exact tracked.add added

/-- One of the paths of a set that is taken was unhit. -/
theorem exists_unhit_of_largestStep {growth after : Growth}
    (tracked : Tracked incidence growth.selection)
    (run : largestStep incidence growth = .ok after) :
    ∃ (set : Int) (path : Nat), growth.selection.add? incidence set = .ok after.selection ∧
      path < incidence.pathCount ∧ incidence.tally growth.selection.members path = 0 ∧
      0 < visits incidence.pathCount (incidence.listed set) path := by
  obtain ⟨best, gain, stands, positive, lost, added, left⟩ := largestStep_eq_ok run
  by_contra hit
  push Not at hit
  have unchanged : after.gains = growth.gains := by
    refine foldlM_hitPath_of_hit (fun path listed count found => ?_) lost
    obtain ⟨place, denotes, found⟩ := Option.bind_eq_some_iff.mp found
    obtain ⟨within, rfl⟩ := Array.getElem?_eq_some_iff.mp found
    have inRange : place < incidence.pathCount := tracked.counts.size ▸ within
    rw [← Selection.hitsAt_eq_getElem within, tracked.counts.hits]
    intro none_hits
    refine absurd (hit best place added inRange (by exact_mod_cast none_hits)) (Nat.not_le.mpr ?_)
    exact visits_pos_iff.mpr ⟨path, listed, tracked.counts.size ▸ denotes⟩
  rw [unchanged, Array.getD_eq_getD_getElem?, stands, Option.getD_some] at left
  omega

/-- **Every step leaves fewer paths unhit.** -/
theorem largestStep_unhit_lt {growth after : Growth} (tracked : Tracked incidence growth.selection)
    (run : largestStep incidence growth = .ok after) :
    after.selection.unhit < growth.selection.unhit := by
  obtain ⟨set, path, added, within, unhit, hits⟩ := exists_unhit_of_largestStep tracked run
  have fewer := Incidence.length_unhitBy_append_lt within unhit hits
  rw [tracked.counts.unhit_eq, (tracked.add added).counts.unhit_eq, tracked.members_add added]
  exact_mod_cast fewer

/-! ### The whole cover -/

/-- As many steps as paths are unhit suffice. -/
theorem growLargest_complete {steps : Nat} {growth : Growth} {grown : Selection}
    (tracked : Tracked incidence growth.selection) (enough : growth.selection.unhit ≤ steps)
    (run : growLargest incidence steps growth = .ok grown) :
    Tracked incidence grown ∧ grown.isComplete := by
  have complete : ∀ {selection : Selection}, Tracked incidence selection →
      selection.unhit ≤ 0 → selection.isComplete := by
    intro selection tracked few
    have natural := tracked.counts.unhit_eq
    rw [Selection.isComplete, decide_eq_true_eq]
    omega
  induction steps generalizing growth with
  | zero =>
    cases run
    exact ⟨tracked, complete tracked enough⟩
  | succ steps ih =>
    rw [growLargest] at run
    by_cases few : growth.selection.unhit ≤ 0
    · rw [if_pos few] at run
      cases run
      exact ⟨tracked, complete tracked few⟩
    · rw [if_neg few, Except.bind_eq_ok_iff] at run
      obtain ⟨after, stepped, run⟩ := run
      have fewer := largestStep_unhit_lt tracked stepped
      exact ih (tracked.largestStep stepped) (by omega) run

theorem tracked_largestCover {grown : Selection} (run : largestCover incidence = .ok grown) :
    Tracked incidence grown ∧ grown.isComplete :=
  growLargest_complete (tracked_empty incidence) (le_refl _) run

/-- **The whole cover is a whole selection**, whenever there is one. -/
theorem largestCover_isWhole {grown : Selection} (run : largestCover incidence = .ok grown) :
    grown.IsWhole incidence :=
  (tracked_largestCover run).1.isWhole (tracked_largestCover run).2

end Transversal
