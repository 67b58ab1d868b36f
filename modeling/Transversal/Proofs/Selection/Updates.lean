/-
**What any sequence of updates does to a selection**, over any relation.

Sets may be released that were never selected, so counters can become negative. The number of unhit
paths then is no longer the number of zero counters; what is conserved is its distance from the
number of idle paths, those whose counter is not positive.

* `Update`: a set selected, or released; `Update.run?`: updates made one after the other.
* `Update.run?_ok_iff`: which updates can be made does not depend on the counters.
* `Update.moved_run`: a run moves every counter by the entries of the sets selected, less those of
  the sets released.
* `updates_balance`: so the order of the updates does not matter, and each kind undoes the other.
-/
import Transversal.Proofs.Selection.Counters

namespace Transversal

variable {incidence : Incidence} {before after : Selection}

/-! ### Updates -/

/-- A set selected, or released. -/
inductive Update
  | select (set : Int)
  | release (set : Int)

namespace Update

/-- The set that an update is about. -/
def target : Update → Int
  | .select set | .release set => set

/-- The set, if it is selected. -/
def selected? : Update → Option Int
  | .select set => some set
  | .release _ => none

/-- The set, if it is released. -/
def released? : Update → Option Int
  | .select _ => none
  | .release set => some set

/-- One update. -/
def perform? (incidence : Incidence) (selection : Selection) : Update → Except Fault Selection
  | .select set => selection.add? incidence set
  | .release set => selection.release? incidence set

/-- Updates made one after the other. -/
def run? (incidence : Incidence) (start : Selection) (updates : List Update) :
    Except Fault Selection := updates.foldlM (perform? incidence) start

/-- How many entries of the given sets denote a path, among so many. -/
def entries (incidence : Incidence) (size : Nat) (sets : List Int) (path : Nat) : Nat :=
  visits size (sets.flatMap incidence.listed) path

/-- By how much updates move the counter of a path: the entries of the sets selected, less those of
the sets released. -/
def balance (incidence : Incidence) (size : Nat) (updates : List Update) (path : Nat) : Int :=
  entries incidence size (updates.filterMap selected?) path -
    entries incidence size (updates.filterMap released?) path

variable {updates reordered : List Update} {update : Update} {start : Selection}

theorem balance_append (size : Nat) (first second : List Update) (path : Nat) :
    balance incidence size (first ++ second) path =
      balance incidence size first path + balance incidence size second path := by
  simp only [balance, entries, List.filterMap_append, List.flatMap_append, visits_append]
  omega

/-- The order of the updates does not matter. -/
theorem balance_perm (size : Nat) (same : updates.Perm reordered) (path : Nat) :
    balance incidence size updates path = balance incidence size reordered path := by
  have counted : ∀ kind : Update → Option Int,
      entries incidence size (updates.filterMap kind) path =
        entries incidence size (reordered.filterMap kind) path := fun kind =>
    ((same.filterMap kind).flatMap_right incidence.listed).countP_eq _
  rw [balance, balance, counted, counted]

theorem balance_select (size : Nat) (set : Int) (path : Nat) :
    balance incidence size [.select set] path = visits size (incidence.listed set) path := by
  simp [balance, entries, List.filterMap_cons, selected?, released?]

theorem balance_release (size : Nat) (set : Int) (path : Nat) :
    balance incidence size [.release set] path = -visits size (incidence.listed set) path := by
  simp [balance, entries, List.filterMap_cons, selected?, released?]

/-- **One update** moves the counters by its own balance. -/
theorem moved_perform (run : perform? incidence before update = .ok after) :
    before.Moved after (balance incidence before.hits.size [update]) := by
  cases update with
  | select set =>
    exact (Selection.moved_add run).congr fun path => (balance_select _ set path).symm
  | release set =>
    exact (Selection.moved_release run).congr fun path => (balance_release _ set path).symm

/-- **A run** moves the counters by the balance of its updates. -/
theorem moved_run (run : run? incidence start updates = .ok after) :
    start.Moved after (balance incidence start.hits.size updates) := by
  refine Except.foldlM_ok_induct
    (fun seen now => start.Moved now (balance incidence start.hits.size seen)) ?_
    (Selection.Moved.refl start) run
  intro seen now update next moved stepped
  have further := moved_perform stepped
  rw [moved.size] at further
  exact (moved.trans further).congr fun path => (balance_append _ seen [update] path).symm

/-- An update can be made if its set is there and all paths that it lists have counters. -/
def IsKnown (incidence : Incidence) (size : Nat) (update : Update) : Prop :=
  (entryAt? incidence.sets update.target).isSome ∧
    ∀ path ∈ incidence.listed update.target, (place? size path).isSome

theorem perform?_ok_iff :
    (∃ after, perform? incidence before update = .ok after) ↔
      update.IsKnown incidence before.hits.size := by
  cases update with
  | select set =>
    simp only [perform?, Selection.add?_eq_ok_iff, exists_and_left, Selection.foldlM_countIn_ok_iff]
    rfl
  | release set =>
    simp only [perform?, Selection.release?_eq_ok_iff, exists_and_left,
      Selection.foldlM_countOut_ok_iff]
    rfl

/-- **Which updates can be made** does not depend on the counters. -/
theorem run?_ok_iff :
    (∃ after, run? incidence start updates = .ok after) ↔
      ∀ update ∈ updates, update.IsKnown incidence start.hits.size := by
  refine Except.foldlM_eq_ok_iff (fun now => now.hits.size = start.hits.size)
    (IsKnown incidence start.hits.size) ?_ ?_ rfl
  · intro now update same
    rw [perform?_ok_iff, same]
  · intro now update next same stepped
    exact (moved_perform stepped).size.trans same

/-- Updates in another order can be made as well, and lead to the same counters. -/
theorem run?_perm (same : updates.Perm reordered) (run : run? incidence start updates = .ok after) :
    ∃ other, run? incidence start reordered = .ok other ∧ other.hits = after.hits ∧
      other.unhit = after.unhit := by
  have known := run?_ok_iff.mp ⟨after, run⟩
  obtain ⟨other, again⟩ :=
    run?_ok_iff.mpr fun update member => known update (same.mem_iff.mpr member)
  have moved := (moved_run run).congr fun path => balance_perm _ same path
  exact ⟨other, again, (moved_run again).eq moved⟩

/-- **An update is undone** by one of the other kind on the same set. -/
theorem perform?_undone (first second : Update) (same : first.target = second.target)
    (cancels : ∀ size path, balance incidence size [first] path +
      balance incidence size [second] path = 0) {middle : Selection}
    (run : perform? incidence before first = .ok middle) :
    ∃ after, perform? incidence middle second = .ok after ∧ after.hits = before.hits ∧
      after.unhit = before.unhit := by
  have moved := moved_perform run
  have known := perform?_ok_iff.mp ⟨middle, run⟩
  rw [IsKnown, same, ← moved.size] at known
  obtain ⟨after, again⟩ := perform?_ok_iff.mpr known
  have further := moved_perform again
  rw [moved.size] at further
  exact ⟨after, again,
    ((moved.trans further).congr fun path => cancels _ path).eq (Selection.Moved.refl before)⟩

end Update

/-! ### Balance -/

/-- **What a run of updates is accountable for**, from a selection on.

* Every counter is the one at the start, plus the entries of the sets selected that denote its path,
  less those of the sets released.
* The number of unhit paths keeps its distance from the number of idle ones.
* Updates in another order can be made as well, and lead to the same counters.
* A release undoes a selection, and a selection undoes a release.
* If nothing was selected at the start, the unhit paths are the idle ones, and the selection can be
  copied unless some counter is negative. -/
structure Balanced (incidence : Incidence) (start : Selection) : Prop where
  counters : ∀ updates after, Update.run? incidence start updates = .ok after →
    after.hits.size = start.hits.size ∧ ∀ path < start.hits.size,
      after.hitsAt path = start.hitsAt path +
        Update.entries incidence start.hits.size (updates.filterMap Update.selected?) path -
        Update.entries incidence start.hits.size (updates.filterMap Update.released?) path
  distance : ∀ updates after, Update.run? incidence start updates = .ok after →
    after.unhit - after.idle = start.unhit - start.idle
  reordered : ∀ updates reordered after, updates.Perm reordered →
    Update.run? incidence start updates = .ok after →
    ∃ other, Update.run? incidence start reordered = .ok other ∧ other.hits = after.hits ∧
      other.unhit = after.unhit
  released : ∀ set middle, start.add? incidence set = .ok middle →
    ∃ after, middle.release? incidence set = .ok after ∧ after.hits = start.hits ∧
      after.unhit = start.unhit
  selected : ∀ set middle, start.release? incidence set = .ok middle →
    ∃ after, middle.add? incidence set = .ok after ∧ after.hits = start.hits ∧
      after.unhit = start.unhit
  fresh : ∀ pathCount, start = .empty pathCount → ∀ updates after,
    Update.run? incidence start updates = .ok after →
    after.unhit = after.idle ∧
      after.copy? = if ∃ path < after.hits.size, after.hitsAt path < 0 then
        .error (.value (.unhitCount after.unhit (Selection.zeros after.hits))) else .ok after

/-- **The updates of every selection balance**, over any relation. -/
theorem updates_balance (incidence : Incidence) (start : Selection) :
    Balanced incidence start where
  counters updates after run := by
    have moved := Update.moved_run run
    refine ⟨moved.size, fun path _ => ?_⟩
    rw [moved.hits, Update.balance, Int.add_sub_assoc]
  distance updates after run := (Update.moved_run run).unhit
  reordered updates reordered after same run := Update.run?_perm same run
  released set middle run := by
    refine Update.perform?_undone (.select set) (.release set) rfl ?_ run
    intro size path
    rw [Update.balance_select, Update.balance_release, Int.add_right_neg]
  selected set middle run := by
    refine Update.perform?_undone (.release set) (.select set) rfl ?_ run
    intro size path
    rw [Update.balance_select, Update.balance_release, Int.add_left_neg]
  fresh pathCount empty updates after run := by
    have distance := (Update.moved_run run).unhit
    have none_selected := Selection.unhit_empty pathCount
    rw [← empty] at none_selected
    have idle : after.unhit = after.idle := by omega
    refine ⟨idle, ?_⟩
    rw [Selection.copy?_eq idle, ← ite_not]
    push Not
    rfl

/-- A set released that was never selected, with two entries for the first path, one of them from
the end: both paths are unhit, but only one counter is zero, so there is no copy. -/
theorem updates_balance_unpaired :
    Update.run? ⟨#[[0, -2]], #[]⟩ (.empty 2) [.release 0] = .ok ⟨[], #[-2, 0], 2⟩ ∧
      Selection.copy? ⟨[], #[-2, 0], 2⟩ = .error (.value (.unhitCount 2 1)) := by
  have run : Update.run? ⟨#[[0, -2]], #[]⟩ (.empty 2) [.release 0] = .ok ⟨[], #[-2, 0], 2⟩ := by
    decide +kernel
  have copied := ((updates_balance ⟨#[[0, -2]], #[]⟩ (.empty 2)).fresh 2 rfl _ _ run).2
  exact ⟨run, copied.trans (if_pos ⟨0, by decide, by decide⟩)⟩

end Transversal
