/-
**The gains that a greedy cover keeps are those that counting again would give.**

* `firstLargest?_spec`: what is found is the first of the largest entries.
* `Incidence.Agreement.foldlM_hitPath_lost`: the gains that are lost once all paths of a list are
  hit.
* `Growth.Recounted`: the gains are what counting again would give.
  `Growth.Recounted.largestStep`: as long as a path is unhit, a step succeeds, takes the best set,
  and keeps the gains so.
* `Growth.Reached`: what the loop comes to.
* `gains_recounted`: the whole cover is that of the plain greedy.
-/
import Transversal.Proofs.Cover.Greedy
import Transversal.Proofs.Cover.Relisted

namespace Transversal

/-! ### The first of the largest -/

/-- **The first of the largest entries**: none is larger, and all before it are smaller. -/
structure IsFirstLargest (entries : List Int) (place : Nat) (value : Int) : Prop where
  stands : entries[place]? = some value
  largest : ∀ entry ∈ entries, entry ≤ value
  first : ∀ entry ∈ entries.take place, entry < value

theorem firstLargest?_concat (entries : List Int) (entry : Int) :
    firstLargest? (entries ++ [entry]) =
      match firstLargest? entries with
      | none => some (entries.length, entry)
      | some (place, value) =>
        if value < entry then some (entries.length, entry) else some (place, value) := by
  unfold firstLargest?
  rw [List.zipIdx_append, List.foldl_append]
  simp only [Nat.zero_add, List.zipIdx_singleton, List.foldl_cons, List.foldl_nil]
  split <;> simp_all

/-- **What is found is the first of the largest entries**, and there is none of no entries only. -/
theorem firstLargest?_spec (entries : List Int) :
    (firstLargest? entries = none ∧ entries = []) ∨
      ∃ place value, firstLargest? entries = some (place, value) ∧
        IsFirstLargest entries place value := by
  induction entries using List.reverseRecOn with
  | nil => exact .inl ⟨rfl, rfl⟩
  | append_singleton entries entry ih =>
    refine .inr ?_
    rw [firstLargest?_concat]
    rcases ih with ⟨none_found, rfl⟩ | ⟨place, value, found, best⟩
    · rw [none_found]
      exact ⟨0, entry, rfl, rfl, by simp, by simp⟩
    · rw [found]
      dsimp only
      have within : place < entries.length := (List.getElem?_eq_some_iff.mp best.stands).1
      by_cases larger : value < entry
      · rw [if_pos larger]
        refine ⟨_, _, rfl, by simp, fun other member => ?_, fun other member => ?_⟩
        · rcases List.mem_append.mp member with before | last
          · exact le_trans (best.largest other before) larger.le
          · exact (List.mem_singleton.mp last).le
        · rw [List.take_left] at member
          exact lt_of_le_of_lt (best.largest other member) larger
      · rw [if_neg larger]
        refine ⟨_, _, rfl, ?_, fun other member => ?_, fun other member => ?_⟩
        · rw [List.getElem?_append_left within, best.stands]
        · rcases List.mem_append.mp member with before | last
          · exact best.largest other before
          · exact List.mem_singleton.mp last ▸ not_lt.mp larger
        · rw [List.take_append_of_le_length within.le] at member
          exact best.first other member

/-! ### Lost gains -/

variable {incidence : Incidence} {selection : Selection}

theorem getD_modify {gains : Array Int} {place : Nat} (within : place < gains.size) (set : Nat) :
    (gains.modify place (· - 1)).getD set 0 =
      gains.getD set 0 - if place = set then 1 else 0 := by
  rw [Array.getD_eq_getD_getElem?, Array.getD_eq_getD_getElem?, Array.getElem?_modify]
  by_cases same : place = set
  · subst same
    simp [within]
  · simp [same]

/-- Every set of a list loses as many gains as it stands there. -/
theorem foldlM_loseGain {hitting : List Int} {gains : Array Int}
    (known : ∀ set ∈ hitting, (place? gains.size set).isSome) :
    ∃ after, hitting.foldlM loseGain gains = .ok after ∧ after.size = gains.size ∧
      ∀ set, after.getD set 0 = gains.getD set 0 - visits gains.size hitting set := by
  induction hitting generalizing gains with
  | nil => exact ⟨gains, rfl, rfl, fun set => by simp⟩
  | cons first rest ih =>
    rw [List.forall_mem_cons] at known
    obtain ⟨place, denotes⟩ := Option.isSome_iff_exists.mp known.1
    have size : (gains.modify place (· - 1)).size = gains.size := Array.size_modify
    have known' : ∀ set ∈ rest, (place? (gains.modify place (· - 1)).size set).isSome := by
      rw [size]
      exact known.2
    obtain ⟨after, run, kept, lost⟩ := ih known'
    have stepped : loseGain gains first = .ok (gains.modify place (· - 1)) := by
      rw [loseGain, denotes]
    refine ⟨after, ?_, kept.trans size, fun set => ?_⟩
    · rw [List.foldlM_cons, stepped]
      exact run
    · rw [lost, size, getD_modify (place?_lt denotes), visits_cons, denotes]
      simp only [Option.some.injEq]
      split_ifs <;> omega

namespace Incidence.Agreement

variable (agreement : incidence.Agreement)

include agreement

/-- A set stands among the sets of a path once, if it lists the path. -/
theorem visits_hitting {path : Nat} (within : path < incidence.pathCount) (set : Nat) :
    visits incidence.setCount (incidence.hitting path) set =
      if (path : Int) ∈ incidence.listed set then 1 else 0 := by
  have distinct : (incidence.hitting path).Nodup := by
    rw [agreement.agree path within]
    exact (List.nodup_range.filter _).map fun _ _ same => Int.ofNat.inj same
  have counted : visits incidence.setCount (incidence.hitting path) set =
      (incidence.hitting path).count (set : Int) := by
    refine List.countP_congr fun other member => ?_
    obtain ⟨place, below, rfl, _⟩ := (agreement.mem_hitting_iff within).mp member
    rw [place?_natCast below]
    simp
  rw [counted, distinct.count]
  refine if_congr ?_ rfl rfl
  rw [agreement.mem_hitting_iff within]
  constructor
  · rintro ⟨place, _, same, listed⟩
    rwa [same]
  · intro listed
    refine ⟨set, ?_, rfl, listed⟩
    by_contra past
    rw [listed_natCast, Array.getD_eq_getD_getElem?,
      Array.getElem?_eq_none (Nat.not_lt.mp past)] at listed
    cases listed

/-- A path that is hit takes one gain from each of its sets, if it was unhit. -/
theorem hitPath_lost (counts : selection.Counts incidence selection.members) {gains : Array Int}
    (size : gains.size = incidence.setCount) {path : Nat} (within : path < incidence.pathCount) :
    ∃ after, hitPath incidence selection gains path = .ok after ∧
      after.size = incidence.setCount ∧
      ∀ set : Nat, after.getD set 0 = gains.getD set 0 -
        if incidence.tally selection.members path = 0 ∧ (path : Int) ∈ incidence.listed set then 1
        else 0 := by
  have inside : path < selection.hits.size := counts.size ▸ within
  have found : entryAt? selection.hits path =
      some (incidence.tally selection.members path : Int) := by
    rw [entryAt?_natCast inside, ← Selection.hitsAt_eq_getElem inside, counts.hits]
  rw [hitPath, found]
  dsimp only
  by_cases unhit : incidence.tally selection.members path = 0
  · have known : ∀ set ∈ incidence.hitting path, (place? gains.size set).isSome := by
      intro set member
      obtain ⟨place, below, rfl, _⟩ := (agreement.mem_hitting_iff within).mp member
      rw [size, place?_natCast below, Option.isSome_some]
    obtain ⟨after, run, kept, lost⟩ := foldlM_loseGain known
    have read : entryAt? incidence.paths path = some (incidence.hitting path) := by
      rw [entryAt?_natCast within, hitting, Array.getD_eq_getD_getElem?,
        Array.getElem?_eq_getElem within, Option.getD_some]
    rw [if_neg (by simp [unhit]), read]
    refine ⟨after, run, kept.trans size, fun set => ?_⟩
    rw [lost, size, agreement.visits_hitting within]
    simp [unhit]
  · rw [if_pos (by exact_mod_cast unhit)]
    refine ⟨gains, rfl, size, fun set => ?_⟩
    simp [unhit]

/-- All paths of a list hit. -/
theorem foldlM_hitPath_lost (counts : selection.Counts incidence selection.members)
    {paths : List Int} {gains : Array Int} (size : gains.size = incidence.setCount)
    (inRange : ∀ path ∈ paths, 0 ≤ path ∧ path < incidence.pathCount) :
    ∃ after, paths.foldlM (hitPath incidence selection) gains = .ok after ∧
      after.size = incidence.setCount ∧
      ∀ set : Nat, after.getD set 0 = gains.getD set 0 - paths.countP fun path =>
        incidence.tally selection.members path.toNat = 0 ∧ path ∈ incidence.listed set := by
  induction paths generalizing gains with
  | nil => exact ⟨gains, rfl, size, fun set => by simp⟩
  | cons first rest ih =>
    rw [List.forall_mem_cons] at inRange
    obtain ⟨place, rfl⟩ := Int.eq_ofNat_of_zero_le inRange.1.1
    have within : place < incidence.pathCount := by exact_mod_cast inRange.1.2
    obtain ⟨middle, stepped, kept, lost⟩ := agreement.hitPath_lost counts size within
    obtain ⟨after, run, kept', lost'⟩ := ih kept inRange.2
    refine ⟨after, ?_, kept', fun set => ?_⟩
    · rw [List.foldlM_cons]
      exact Except.bind_eq_ok_iff.mpr ⟨middle, stepped, run⟩
    · rw [lost', lost, List.countP_cons, Int.toNat_natCast]
      simp only [decide_eq_true_eq]
      split_ifs <;> omega

end Incidence.Agreement

/-! ### One step -/

/-- **The gains are what counting again would give.** -/
structure Growth.Recounted (incidence : Incidence) (growth : Growth) : Prop where
  tracked : Tracked incidence growth.selection
  size : growth.gains.size = incidence.setCount
  gains : ∀ set : Nat, growth.gains.getD set 0 =
    incidence.hitsAmong (incidence.unhitBy growth.selection.members) set

namespace Growth

variable {growth after : Growth}

theorem recounted_start (agreement : incidence.Agreement) :
    (Growth.start incidence).Recounted incidence where
  tracked := tracked_empty incidence
  size := Array.size_map
  gains set := by
    show _ = (incidence.hitsAmong (incidence.unhitBy []) set : Int)
    rw [incidence.hitsAmong_unhitBy_nil agreement, Incidence.listed_natCast]
    by_cases within : set < incidence.sets.size
    · simp [Growth.start, Array.getD_eq_getD_getElem?, within]
    · simp [Growth.start, Array.getD_eq_getD_getElem?, within]

namespace Recounted

variable (recounted : growth.Recounted incidence)

include recounted

theorem gains_eq_some {set : Nat} (within : set < incidence.setCount) :
    growth.gains[set]? =
      some (incidence.hitsAmong (incidence.unhitBy growth.selection.members) set : Int) := by
  have inside : set < growth.gains.size := recounted.size ▸ within
  rw [← recounted.gains, Array.getD_eq_getD_getElem?, Array.getElem?_eq_getElem inside,
    Option.getD_some]

theorem unhit?_eq_ok : incidence.unhit? growth.selection.members =
    .ok (incidence.unhitBy growth.selection.members) :=
  Incidence.unhit?_eq_ok_iff.mpr ⟨recounted.tracked.readable, rfl⟩

/-- If no path is unhit, the plain greedy is done too. -/
theorem done (few : growth.selection.unhit ≤ 0) :
    incidence.Greedy growth.selection.members growth.selection.members := by
  rw [recounted.tracked.counts.unhit_eq, Int.natCast_nonpos_iff, List.length_eq_zero_iff] at few
  exact .done (few ▸ recounted.unhit?_eq_ok)

theorem unhitBy_ne_nil (some_unhit : ¬ growth.selection.unhit ≤ 0) :
    incidence.unhitBy growth.selection.members ≠ [] := by
  intro none_left
  rw [recounted.tracked.counts.unhit_eq, none_left] at some_unhit
  exact some_unhit (le_refl _)

/-- The set with the first of the largest gains is the best one. -/
theorem isBest {best : Nat} {gain : Int} (first : IsFirstLargest growth.gains.toList best gain) :
    incidence.IsBest (incidence.unhitBy growth.selection.members) best ∧
      gain = incidence.hitsAmong (incidence.unhitBy growth.selection.members) best := by
  have within : best < growth.gains.size := by
    rw [← Array.length_toList]
    exact (List.getElem?_eq_some_iff.mp first.stands).1
  have known : best < incidence.setCount := recounted.size ▸ within
  have listed : ∀ set, (found : set < incidence.setCount) →
      growth.gains.toList[set]? =
        some (incidence.hitsAmong (incidence.unhitBy growth.selection.members) set : Int) := by
    intro set found
    rw [Array.getElem?_toList, recounted.gains_eq_some found]
  have value := first.stands.symm.trans (listed best known)
  obtain rfl := Option.some.inj value
  refine ⟨⟨known, fun set found => ?_, fun set before => ?_⟩, rfl⟩
  · exact_mod_cast first.largest _ (List.mem_of_getElem? (listed set found))
  · refine Int.ofNat_lt.mp (first.first _ (List.mem_of_getElem? (i := set) ?_))
    rw [List.getElem?_take_of_lt before, listed set (lt_trans before known)]

/-- **As long as a path is unhit, a step succeeds**: it takes the best set, and the gains are still
what counting again would give. -/
theorem largestStep (agreement : incidence.Agreement) (some_unhit : ¬ growth.selection.unhit ≤ 0) :
    ∃ after best, Transversal.largestStep incidence growth = .ok after ∧
      incidence.IsBest (incidence.unhitBy growth.selection.members) best ∧
      after.selection.members = growth.selection.members ++ [(best : Int)] ∧
      after.Recounted incidence := by
  have some_left := recounted.unhitBy_ne_nil some_unhit
  rcases firstLargest?_spec growth.gains.toList with ⟨_, none_known⟩ | ⟨best, gain, found, first⟩
  · obtain ⟨set, known, _⟩ := Incidence.exists_hitsAmong_pos agreement some_left
    rw [← recounted.size, ← Array.length_toList, none_known] at known
    cases known
  obtain ⟨isBest, rfl⟩ := recounted.isBest first
  have positive := isBest.pos agreement some_left
  have readable := agreement.readable_natCast isBest.known
  obtain ⟨gains, lostAll, size, lost⟩ := agreement.foldlM_hitPath_lost recounted.tracked.counts
    recounted.size (agreement.inRange best)
  obtain ⟨selection, added⟩ :=
    (Selection.add?_ok_iff recounted.tracked.counts.size).mpr readable
  have members := recounted.tracked.members_add added
  -- the counters still stand before the new member, so that a path is lost only if it was unhit
  have counted : ∀ set : Nat, gains.getD set 0 =
      incidence.hitsAmong (incidence.unhitBy selection.members) set := by
    intro set
    have shared := incidence.hitsAmong_unhitBy_append agreement growth.selection.members best set
    rw [lost, recounted.gains, members]
    omega
  -- the last check never fails: the set that is taken has nothing left
  have left : gains.getD best 0 = 0 := by
    rw [counted, members, incidence.hitsAmong_unhitBy_of_mem agreement (by simp)]
    rfl
  refine ⟨⟨selection, gains⟩, best, ?_, isBest, members,
    ⟨recounted.tracked.add added, size, counted⟩⟩
  unfold Transversal.largestStep
  rw [found]
  dsimp only
  rw [if_neg (by omega), Incidence.pathsOf?_eq_ok readable.1]
  refine Except.bind_eq_ok_iff.mpr ⟨_, rfl, Except.bind_eq_ok_iff.mpr ⟨gains, lostAll, ?_⟩⟩
  refine Except.bind_eq_ok_iff.mpr ⟨selection, added, ?_⟩
  rw [if_neg (not_not.mpr left)]
  rfl

end Recounted

end Growth

/-! ### The whole cover -/

/-- **What the loop comes to**: step after step, as long as a path is unhit. -/
inductive Growth.Reached (incidence : Incidence) : Growth → Prop
  | start : Reached incidence (.start incidence)
  | step {growth after : Growth} : Reached incidence growth → ¬ growth.selection.unhit ≤ 0 →
      largestStep incidence growth = .ok after → Reached incidence after

namespace Growth.Reached

variable {growth : Growth}

theorem recounted (agreement : incidence.Agreement) (reached : Reached incidence growth) :
    growth.Recounted incidence := by
  induction reached with
  | start => exact recounted_start agreement
  | step _ some_unhit stepped ih =>
    obtain ⟨after, _, run, _, _, still⟩ := ih.largestStep agreement some_unhit
    obtain rfl := Except.ok.inj (run.symm.trans stepped)
    exact still

/-- What the plain greedy makes of the members is what it makes of none. -/
theorem greedy (agreement : incidence.Agreement) (reached : Reached incidence growth)
    {final : List Int} (rest : incidence.Greedy growth.selection.members final) :
    incidence.Greedy [] final := by
  induction reached with
  | start => exact rest
  | @step growth after reached some_unhit stepped ih =>
    have recounted := reached.recounted agreement
    obtain ⟨_, best, run, isBest, members, _⟩ := recounted.largestStep agreement some_unhit
    obtain rfl := Except.ok.inj (run.symm.trans stepped)
    rw [members] at rest
    exact ih (.take recounted.unhit?_eq_ok (recounted.unhitBy_ne_nil some_unhit) isBest rest)

end Growth.Reached

/-- From wherever the loop has come to, as many steps as paths are unhit lead to what the plain
greedy makes of the members. -/
theorem growLargest_eq_ok (agreement : incidence.Agreement) {steps : Nat} {growth : Growth}
    (reached : growth.Reached incidence) (enough : growth.selection.unhit ≤ steps) :
    ∃ last : Growth, growLargest incidence steps growth = .ok last.selection ∧
      last.Reached incidence ∧
      incidence.Greedy growth.selection.members last.selection.members := by
  have recounted := reached.recounted agreement
  induction steps generalizing growth with
  | zero => exact ⟨growth, rfl, reached, recounted.done enough⟩
  | succ steps ih =>
    rw [growLargest]
    by_cases few : growth.selection.unhit ≤ 0
    · rw [if_pos few]
      exact ⟨growth, rfl, reached, recounted.done few⟩
    · rw [if_neg few]
      obtain ⟨after, best, run, isBest, members, still⟩ := recounted.largestStep agreement few
      have fewer := largestStep_unhit_lt recounted.tracked run
      obtain ⟨last, grown, reached', rest⟩ := ih (reached.step few run) (by omega) still
      rw [members] at rest
      exact ⟨last, Except.bind_eq_ok_iff.mpr ⟨after, run, grown⟩, reached',
        .take recounted.unhit?_eq_ok (recounted.unhitBy_ne_nil few) isBest rest⟩

/-- **A cover that is grown by its gains.**

* Its members are those of the plain greedy, which has no other result.
* Wherever the loop comes to, it has the first of these members, and its gains are what counting
  again would give; at the end it has all of them.
* The members are distinct, each hits a path that was unhit, and never more of them than the one
  before. -/
structure Selection.IsGreedy (incidence : Incidence) (selection : Selection) : Prop where
  greedy : ∀ members, incidence.Greedy [] members ↔ members = selection.members
  along : ∀ growth : Growth, growth.Reached incidence →
    growth.selection.members <+: selection.members
  gains : ∀ growth : Growth, growth.Reached incidence →
    growth.gains.size = incidence.setCount ∧
      ∃ unhit, incidence.unhit? growth.selection.members = .ok unhit ∧
        ∀ set < incidence.setCount, growth.gains[set]? = some (incidence.hitsAmong unhit set : Int)
  ends : selection.isComplete ∧
    ∃ growth : Growth, growth.Reached incidence ∧ growth.selection = selection
  sound : SoundCover incidence selection.members
  choices : incidence.Added [] selection.members

/-- **The whole cover is that of the plain greedy**, over every relation whose directions agree. -/
theorem Incidence.Agreement.largestCover_isGreedy (agreement : incidence.Agreement) :
    ∃ selection, largestCover incidence = .ok selection ∧ selection.IsGreedy incidence := by
  obtain ⟨last, run, reached, greedy⟩ := growLargest_eq_ok agreement .start
    (le_refl (incidence.pathCount : Int))
  change incidence.Greedy [] _ at greedy
  have recounted := reached.recounted agreement
  obtain ⟨_, rfl, choices⟩ := greedy.added agreement
  refine ⟨last.selection, run, ⟨fun members => ?_, fun growth reached => ?_,
    fun growth reached => ?_, ⟨?_, last, reached, rfl⟩, greedy.sound agreement, choices⟩⟩
  · exact ⟨fun greedy' => greedy'.unique greedy, fun same => same ▸ greedy⟩
  · obtain ⟨further, _, _, rest⟩ := growLargest_eq_ok agreement reached (Int.self_le_toNat _)
    obtain ⟨added, same, _⟩ := rest.added agreement
    rw [(reached.greedy agreement rest).unique greedy] at same
    exact ⟨added, same.symm⟩
  · have recounted := reached.recounted agreement
    exact ⟨recounted.size, _, recounted.unhit?_eq_ok, fun set => recounted.gains_eq_some⟩
  · have none_left := (Incidence.unhit?_eq_ok_iff.mp greedy.unhit_nil).2
    rw [Selection.isComplete, decide_eq_true_eq, recounted.tracked.counts.unhit_eq, ← none_left]
    rfl

/-- **The gains are what counting again would give**, and the whole cover is that of the plain
greedy, over every relation that was built. -/
theorem gains_recounted {sets : List (List Int)} {pathCount : Option Int}
    (built : Incidence.ofSets? sets pathCount = .ok incidence) :
    ∃ selection, largestCover incidence = .ok selection ∧ selection.IsGreedy incidence :=
  (Incidence.agreement_of_ofSets? built).largestCover_isGreedy

/-- The set that hits most paths hits both of the sets that would have sufficed. -/
def detour : Incidence :=
  ⟨#[[0, 1, 2], [3, 4, 5], [1, 2, 3, 4]], #[[0], [0, 2], [0, 2], [1, 2], [1, 2], [1]]⟩

theorem detour_built :
    Incidence.ofSets? [[0, 1, 2], [3, 4, 5], [1, 2, 3, 4]] none = .ok detour := by
  decide +kernel

/-- All three sets are taken, the largest first. -/
theorem gains_recounted_detour :
    Incidence.ofSets? [[0, 1, 2], [3, 4, 5], [1, 2, 3, 4]] none = .ok detour ∧
      ∃ selection, largestCover detour = .ok selection ∧ selection.members = [2, 0, 1] ∧
        detour.freshHits [] selection.members = [4, 1, 1] ∧ selection.IsGreedy detour := by
  refine ⟨detour_built, ?_⟩
  obtain ⟨selection, grown, greedy⟩ := gains_recounted detour_built
  have taken : (largestCover detour).map Selection.members = .ok [2, 0, 1] := by decide +kernel
  rw [grown] at taken
  have members : selection.members = [2, 0, 1] := Except.ok.inj taken
  refine ⟨selection, grown, members, ?_, greedy⟩
  rw [members]
  decide +kernel

end Transversal
