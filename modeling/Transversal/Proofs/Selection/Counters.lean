/-
**The counters of a selection.**

* `Selection.Shift`: what any number of look-ups of paths does to a selection: every counter is
  moved by a stated amount, and the number of unhit paths follows the number of idle ones, the
  paths whose counter is not positive. `Selection.Moved` says nothing of the members.
* `Selection.Moved.eq`: the amounts determine the counters and the number of unhit paths.
* `Selection.foldlM_countIn`, `Selection.foldlM_countOut`: a list of paths moves the counters by
  how often it visits each of them, up or down.
* `Selection.copy?_eq`: a selection whose unhit paths are the idle ones can be copied unless some
  counter is negative.
* `Selection.Counts`: the counters are those of a list of sets, over any relation. Kept by `add?`
  and `release?`, which fail on unreadable sets only.
* `Selection.Counts.isComplete_iff`: a selection is complete when no tally is zero.
-/
import Transversal.Proofs.Incidence.Tally
import Transversal.Selection

namespace Transversal.Selection

/-- The counter of a path. -/
def hitsAt (selection : Selection) (path : Nat) : Int := selection.hits.getD path 0

/-- The number of paths whose counter is not positive. -/
def idle (selection : Selection) : Nat := selection.hits.countP (· ≤ 0)

theorem hitsAt_eq_getElem {selection : Selection} {path : Nat}
    (inRange : path < selection.hits.size) : selection.hitsAt path = selection.hits[path] := by
  rw [hitsAt, Array.getD_eq_getD_getElem?, Array.getElem?_eq_getElem inRange, Option.getD_some]

theorem hitsAt_eq_zero_of_le {selection : Selection} {path : Nat}
    (past : selection.hits.size ≤ path) : selection.hitsAt path = 0 := by
  rw [hitsAt, Array.getD_eq_getD_getElem?, Array.getElem?_eq_none past, Option.getD_none]

theorem toList_hits (selection : Selection) :
    selection.hits.toList = (List.range selection.hits.size).map selection.hitsAt := by
  refine List.ext_getElem (by simp) fun path within _ => ?_
  rw [Array.length_toList] at within
  rw [Array.getElem_toList, ← hitsAt_eq_getElem within, List.getElem_map, List.getElem_range]

/-- As many paths are idle if the same counters are not positive. -/
theorem idle_eq_of_same {before after : Selection} (size : after.hits.size = before.hits.size)
    (same : ∀ path, after.hitsAt path ≤ 0 ↔ before.hitsAt path ≤ 0) : after.idle = before.idle := by
  rw [idle, idle, ← Array.countP_toList, ← Array.countP_toList, toList_hits, toList_hits, size,
    List.countP_map, List.countP_map]
  exact List.countP_congr fun path _ => by simpa using same path

/-! ### Counters moved up or down -/

/-- The members stay, every counter is moved, and the number of unhit paths follows the idle
ones. -/
structure Shift (before after : Selection) (moved : Nat → Int) : Prop where
  members : after.members = before.members
  size : after.hits.size = before.hits.size
  hits : ∀ path, after.hitsAt path = before.hitsAt path + moved path
  unhit : after.unhit - after.idle = before.unhit - before.idle

namespace Shift

theorem refl (selection : Selection) : Shift selection selection fun _ => 0 :=
  ⟨rfl, rfl, fun _ => (Int.add_zero _).symm, rfl⟩

theorem trans {first second third : Selection} {moved further : Nat → Int}
    (left : Shift first second moved) (right : Shift second third further) :
    Shift first third fun path => moved path + further path :=
  ⟨right.members.trans left.members, right.size.trans left.size,
    fun path => by rw [right.hits, left.hits, Int.add_assoc], right.unhit.trans left.unhit⟩

theorem congr {before after : Selection} {moved same : Nat → Int}
    (shift : Shift before after moved) (equal : ∀ path, moved path = same path) :
    Shift before after same :=
  ⟨shift.members, shift.size, fun path => by rw [shift.hits, equal], shift.unhit⟩

end Shift

/-- Every counter is moved, and the number of unhit paths follows the idle ones. Nothing is said of
the members. -/
structure Moved (before after : Selection) (amount : Nat → Int) : Prop where
  size : after.hits.size = before.hits.size
  hits : ∀ path, after.hitsAt path = before.hitsAt path + amount path
  unhit : after.unhit - after.idle = before.unhit - before.idle

namespace Moved

variable {before after : Selection} {amount further : Nat → Int}

theorem refl (selection : Selection) : Moved selection selection fun _ => 0 :=
  ⟨rfl, fun _ => (Int.add_zero _).symm, rfl⟩

theorem trans {middle : Selection} (first : Moved before middle amount)
    (second : Moved middle after further) :
    Moved before after fun path => amount path + further path :=
  ⟨second.size.trans first.size, fun path => by rw [second.hits, first.hits, Int.add_assoc],
    second.unhit.trans first.unhit⟩

theorem congr (moved : Moved before after amount) (same : ∀ path, amount path = further path) :
    Moved before after further :=
  ⟨moved.size, fun path => by rw [moved.hits, same], moved.unhit⟩

/-- **The amounts determine the counters** and the number of unhit paths. -/
theorem eq {other : Selection} (moved : Moved before after amount)
    (moved' : Moved before other amount) : after.hits = other.hits ∧ after.unhit = other.unhit := by
  have hits : after.hits = other.hits := by
    refine Array.ext (moved.size.trans moved'.size.symm) fun path within within' => ?_
    rw [← hitsAt_eq_getElem within, ← hitsAt_eq_getElem within', moved.hits, moved'.hits]
  have idle : after.idle = other.idle := by rw [Selection.idle, Selection.idle, hits]
  have kept := moved.unhit
  have kept' := moved'.unhit
  exact ⟨hits, by omega⟩

end Moved

/-- Nothing else of a selection is changed, so the moved counters determine all of it. -/
theorem Shift.eq {before after other : Selection} {moved : Nat → Int}
    (shift : Shift before after moved) (shift' : Shift before other moved) : after = other := by
  have same : Moved before after moved := ⟨shift.size, shift.hits, shift.unhit⟩
  obtain ⟨hits, unhit⟩ := same.eq ⟨shift'.size, shift'.hits, shift'.unhit⟩
  have members := shift.members.trans shift'.members.symm
  cases after
  cases other
  simp_all

/-- One counter replaced by the next one up or down. -/
theorem shift_set {selection : Selection} {place : Nat} (inRange : place < selection.hits.size)
    (moved unhit : Int)
    (follows : unhit + (if selection.hits[place] ≤ 0 then 1 else 0) =
      selection.unhit + if selection.hits[place] + moved ≤ 0 then 1 else 0) :
    Shift selection
      { selection with hits := selection.hits.set place (selection.hits[place] + moved), unhit }
      fun path => if path = place then moved else 0 := by
  refine ⟨rfl, Array.size_set inRange, fun path => ?_, ?_⟩
  · by_cases within : path < selection.hits.size
    · have still : path < (selection.hits.set place (selection.hits[place] + moved)).size := by
        rwa [Array.size_set]
      rw [hitsAt_eq_getElem within, hitsAt_eq_getElem still, Array.getElem_set]
      by_cases same : place = path
      · subst same
        simp
      · simp [same, Ne.symm same]
    · rw [hitsAt_eq_zero_of_le (Nat.not_lt.mp within),
        hitsAt_eq_zero_of_le (by simpa using Nat.not_lt.mp within), if_neg (by omega)]
      rfl
  · have counted := Array.boole_getElem_le_countP (p := (· ≤ (0 : Int))) inRange
    simp only [idle, Array.countP_set inRange, decide_eq_true_eq] at counted ⊢
    split_ifs at counted follows ⊢ <;> omega

theorem countIn_eq_ok {selection after : Selection} {path : Int}
    (run : selection.countIn path = .ok after) :
    ∃ place, place? selection.hits.size path = some place ∧
      Shift selection after fun other => if other = place then 1 else 0 := by
  unfold countIn at run
  split at run
  · cases run
  · rename_i place found
    cases run
    refine ⟨place, found, shift_set (place?_lt found) 1 _ ?_⟩
    split_ifs <;> omega

theorem countOut_eq_ok {selection after : Selection} {path : Int}
    (run : selection.countOut path = .ok after) :
    ∃ place, place? selection.hits.size path = some place ∧
      Shift selection after fun other => if other = place then -1 else 0 := by
  unfold countOut at run
  split at run
  · cases run
  · rename_i place found
    cases run
    refine ⟨place, found, shift_set (place?_lt found) (-1) _ ?_⟩
    split_ifs <;> omega

theorem countIn_ok_iff {selection : Selection} {path : Int} :
    (∃ after, selection.countIn path = .ok after) ↔
      (place? selection.hits.size path).isSome := by
  unfold countIn
  split
  · rename_i missing
    simp [missing]
  · rename_i place found
    simp [found]

theorem countOut_ok_iff {selection : Selection} {path : Int} :
    (∃ after, selection.countOut path = .ok after) ↔
      (place? selection.hits.size path).isSome := by
  unfold countOut
  split
  · rename_i missing
    simp [missing]
  · rename_i place found
    simp [found]

/-- A list of steps, each of which moves the counter of the place that its path denotes. -/
theorem foldlM_shift {step : Selection → Int → Except Halted Selection} {unit : Int}
    (each : ∀ before path after, step before path = .ok after →
      ∃ place, place? before.hits.size path = some place ∧
        Shift before after fun other => if other = place then unit else 0)
    {paths : List Int} {before after : Selection} (run : paths.foldlM step before = .ok after) :
    Shift before after fun place => unit * visits before.hits.size paths place := by
  refine Except.foldlM_ok_induct
    (fun seen now => Shift before now fun place => unit * visits before.hits.size seen place)
    (by
      intro seen now path next shift stepped
      obtain ⟨place, denotes, moved⟩ := each now path next stepped
      rw [shift.size] at denotes
      refine (shift.trans moved).congr fun other => ?_
      rw [visits_append, visits_cons, visits_nil, denotes]
      by_cases same : other = place
      · subst same
        simp [Int.mul_add]
      · simp [same, Ne.symm same])
    ((Shift.refl before).congr fun _ => (Int.mul_zero unit).symm) run

/-- Paths counted in, each as often as the list visits it. -/
theorem foldlM_countIn {paths : List Int} {before after : Selection}
    (run : paths.foldlM countIn before = .ok after) :
    Shift before after fun place => visits before.hits.size paths place :=
  (foldlM_shift (fun _ _ _ => countIn_eq_ok) run).congr fun _ => Int.one_mul _

/-- Paths counted out, each as often as the list visits it. -/
theorem foldlM_countOut {paths : List Int} {before after : Selection}
    (run : paths.foldlM countOut before = .ok after) :
    Shift before after fun place => -visits before.hits.size paths place :=
  (foldlM_shift (fun _ _ _ => countOut_eq_ok) run).congr fun _ => Int.neg_one_mul _

theorem foldlM_countIn_ok_iff {paths : List Int} {before : Selection} :
    (∃ after, paths.foldlM countIn before = .ok after) ↔
      ∀ path ∈ paths, (place? before.hits.size path).isSome := by
  refine Except.foldlM_eq_ok_iff (fun now => now.hits.size = before.hits.size)
    (fun path => (place? before.hits.size path).isSome) ?_ ?_ rfl
  · intro now path same
    rw [countIn_ok_iff, same]
  · intro now path after same stepped
    obtain ⟨_, _, shift⟩ := countIn_eq_ok stepped
    exact shift.size.trans same

theorem foldlM_countOut_ok_iff {paths : List Int} {before : Selection} :
    (∃ after, paths.foldlM countOut before = .ok after) ↔
      ∀ path ∈ paths, (place? before.hits.size path).isSome := by
  refine Except.foldlM_eq_ok_iff (fun now => now.hits.size = before.hits.size)
    (fun path => (place? before.hits.size path).isSome) ?_ ?_ rfl
  · intro now path same
    rw [countOut_ok_iff, same]
  · intro now path after same stepped
    obtain ⟨_, _, shift⟩ := countOut_eq_ok stepped
    exact shift.size.trans same

/-! ### Sets counted in and out -/

variable {incidence : Incidence}

theorem add?_eq_ok_iff {selection after : Selection} {set : Int} :
    selection.add? incidence set = .ok after ↔
      (entryAt? incidence.sets set).isSome ∧
        (incidence.listed set).foldlM countIn
          { selection with members := selection.members ++ [set] } = .ok after := by
  rw [add?, Except.mapError_eq_ok_iff, add]
  rcases Incidence.pathsOf?_cases incidence set with ⟨fault, failed, missing⟩ | ⟨read, found⟩
  · simp [failed, missing]
  · simp [read, found]

theorem release?_eq_ok_iff {selection after : Selection} {set : Int} :
    selection.release? incidence set = .ok after ↔
      (entryAt? incidence.sets set).isSome ∧
        (incidence.listed set).foldlM countOut selection = .ok after := by
  rw [release?, Except.mapError_eq_ok_iff, release]
  rcases Incidence.pathsOf?_cases incidence set with ⟨fault, failed, missing⟩ | ⟨read, found⟩
  · simp [failed, missing]
  · simp [read, found]

/-- A set can be selected exactly when it is readable. -/
theorem add?_ok_iff {selection : Selection} (size : selection.hits.size = incidence.pathCount)
    {set : Int} :
    (∃ after, selection.add? incidence set = .ok after) ↔ incidence.Readable set := by
  simp only [add?_eq_ok_iff, exists_and_left, foldlM_countIn_ok_iff, Incidence.Readable, size]

theorem release?_ok_iff {selection : Selection} (size : selection.hits.size = incidence.pathCount)
    {set : Int} :
    (∃ after, selection.release? incidence set = .ok after) ↔ incidence.Readable set := by
  simp only [release?_eq_ok_iff, exists_and_left, foldlM_countOut_ok_iff, Incidence.Readable, size]

theorem moved_add {before after : Selection} {set : Int}
    (run : before.add? incidence set = .ok after) :
    Moved before after fun path => visits before.hits.size (incidence.listed set) path :=
  have shift := foldlM_countIn (add?_eq_ok_iff.mp run).2
  ⟨shift.size, shift.hits, shift.unhit⟩

theorem moved_release {before after : Selection} {set : Int}
    (run : before.release? incidence set = .ok after) :
    Moved before after fun path => -visits before.hits.size (incidence.listed set) path :=
  have shift := foldlM_countOut (release?_eq_ok_iff.mp run).2
  ⟨shift.size, shift.hits, shift.unhit⟩

/-! ### Copies -/

/-- A counter that is not positive is zero unless it is negative. -/
theorem count_zero_eq_iff {counts : List Int} :
    counts.count 0 = counts.countP (· ≤ 0) ↔ ∀ count ∈ counts, 0 ≤ count := by
  induction counts with
  | nil => simp
  | cons count rest ih =>
    have fewer : rest.count 0 ≤ rest.countP (· ≤ 0) :=
      List.countP_mono_left fun count _ zero => by simp_all
    rw [List.forall_mem_cons, ← ih, List.count_cons, List.countP_cons]
    simp only [beq_iff_eq, decide_eq_true_eq]
    split_ifs <;> omega

theorem zeros_eq_idle_iff {selection : Selection} :
    zeros selection.hits = selection.idle ↔
      ∀ path < selection.hits.size, 0 ≤ selection.hitsAt path := by
  rw [zeros, idle, ← Array.countP_toList, count_zero_eq_iff]
  constructor
  · intro natural path within
    rw [hitsAt_eq_getElem within]
    exact natural _ (Array.getElem_mem_toList within)
  · intro natural count member
    obtain ⟨path, within, rfl⟩ := List.mem_iff_getElem.mp member
    rw [Array.length_toList] at within
    rw [Array.getElem_toList, ← hitsAt_eq_getElem within]
    exact natural path within

/-- **A selection whose unhit paths are the idle ones can be copied** unless some counter is
negative; a copy that is refused tells the two numbers that should have been equal. -/
theorem copy?_eq {selection : Selection} (idle : selection.unhit = selection.idle) :
    selection.copy? =
      if ∀ path < selection.hits.size, 0 ≤ selection.hitsAt path then .ok selection
      else .error (.value (.unhitCount selection.unhit (zeros selection.hits))) := by
  unfold copy? make?
  refine if_congr ?_ rfl rfl
  rw [← zeros_eq_idle_iff, idle]
  exact Int.natCast_inj

/-! ### The counters of a list of sets -/

theorem unhit_empty (pathCount : Nat) :
    (empty pathCount).unhit = (empty pathCount).idle := by
  simp [empty, idle, Array.countP_replicate]

/-- **The counters are those of a list of sets.** -/
structure Counts (incidence : Incidence) (selection : Selection) (cover : List Int) : Prop where
  size : selection.hits.size = incidence.pathCount
  hits : ∀ path, selection.hitsAt path = incidence.tally cover path
  unhit : selection.unhit = selection.idle

namespace Counts

theorem empty (incidence : Incidence) : Counts incidence (empty incidence.pathCount) [] where
  size := Array.size_replicate
  hits path := by
    by_cases within : path < incidence.pathCount
    · rw [hitsAt_eq_getElem (by simpa [Selection.empty] using within)]
      simp [Selection.empty]
    · rw [hitsAt_eq_zero_of_le (by simpa [Selection.empty] using within)]
      rfl
  unhit := unhit_empty _

variable {selection after : Selection} {cover : List Int} {set : Int}

/-- The order of the sets does not matter. -/
theorem perm {other : List Int} (counts : Counts incidence selection cover)
    (same : cover.Perm other) : Counts incidence selection other :=
  ⟨counts.size, fun path => by rw [counts.hits, Incidence.tally_perm same], counts.unhit⟩

theorem withMembers (counts : Counts incidence selection cover) (members : List Int) :
    Counts incidence { selection with members } cover :=
  ⟨counts.size, counts.hits, counts.unhit⟩

/-- A set selected is a member, and its paths are counted. -/
theorem add (counts : Counts incidence selection cover)
    (run : selection.add? incidence set = .ok after) :
    after.members = selection.members ++ [set] ∧ Counts incidence after (cover ++ [set]) := by
  have shift := foldlM_countIn (add?_eq_ok_iff.mp run).2
  refine ⟨shift.members, shift.size.trans counts.size, fun path => ?_, ?_⟩
  · have before := (counts.withMembers (selection.members ++ [set])).hits path
    rw [shift.hits, before, counts.size, Incidence.tally_append, Incidence.tally_cons,
      Incidence.tally_nil, Nat.add_zero, Int.natCast_add]
  · have follows := shift.unhit
    have before := (counts.withMembers (selection.members ++ [set])).unhit
    omega

/-- A member released is counted no longer; the members stay as they are. -/
theorem release (counts : Counts incidence selection cover) (member : set ∈ cover)
    (run : selection.release? incidence set = .ok after) :
    after.members = selection.members ∧ Counts incidence after (cover.erase set) := by
  have shift := foldlM_countOut (release?_eq_ok_iff.mp run).2
  refine ⟨shift.members, shift.size.trans counts.size, fun path => ?_, ?_⟩
  · rw [shift.hits, counts.hits, counts.size, Incidence.tally_erase member, Int.natCast_add]
    omega
  · have follows := shift.unhit
    have before := counts.unhit
    omega

/-- The unhit paths are those with the tally zero. -/
theorem unhit_eq (counts : Counts incidence selection cover) :
    selection.unhit = (incidence.unhitBy cover).length := by
  rw [counts.unhit, idle, ← Array.countP_toList, toList_hits, counts.size, List.countP_map,
    Incidence.unhitBy, ← List.countP_eq_length_filter]
  congr 1
  refine List.countP_congr fun path _ => ?_
  simp [counts.hits path]

/-- **A selection is complete** when its sets hit every path. -/
theorem isComplete_iff (counts : Counts incidence selection cover) :
    selection.isComplete ↔ ∀ path < incidence.pathCount, 0 < incidence.tally cover path := by
  rw [isComplete, decide_eq_true_eq, counts.unhit_eq, ← Incidence.unhitBy_eq_nil_iff]
  simp

/-- A complete selection of readable sets is a cover. -/
theorem isCover (counts : Counts incidence selection cover)
    (readable : ∀ set ∈ cover, incidence.Readable set) (complete : selection.isComplete) :
    incidence.isCover? cover = .ok true :=
  Incidence.isCover?_eq_true_iff.mpr ⟨readable, counts.isComplete_iff.mp complete⟩

/-- Counters are never negative, so a copy passes its own check. -/
theorem copy? (counts : Counts incidence selection cover) : selection.copy? = .ok selection := by
  rw [copy?_eq counts.unhit, if_pos]
  intro path _
  rw [counts.hits]
  exact Int.natCast_nonneg _

end Counts

end Transversal.Selection
