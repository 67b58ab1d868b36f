/-
**No basis is met twice**, as the first column that is worth raising enters, and of the rows that
are exhausted first the one with the least basic column leaves.

* `Tableau.IsWalk`: exchanges one after the other.
* `Tableau.basics`: the columns in the basis; `Tableau.Sound.cost_width_eq`: they determine the
  value of the tableau.
* `Tableau.IsWalk.idle_place`: on a walk back to a basis nothing is gained, so that every row that
  is exchanged has the right-hand side zero.
* `Tableau.IsWalk.not_returns`: there is no such walk; `Tableau.IsWalk.lt_two_pow`: so no walk has
  as many exchanges as the columns have subsets.
-/
import Mathlib.Algebra.Order.BigOperators.Group.Finset
import Mathlib.Data.Finset.Max
import Mathlib.Data.Finset.Powerset
import Mathlib.Tactic.Linarith
import Transversal.Proofs.Relaxation.Exchange

namespace Transversal.Tableau

open Finset (range)

variable {program : CoveringProgram} {tableau other : Tableau} {column place : Nat}

/-! ### Bases -/

/-- The columns in the basis. -/
def basics (program : CoveringProgram) (tableau : Tableau) : Finset Nat :=
  (range program.variableCount).image tableau.basic

theorem mem_basics_iff {index : Nat} : index ∈ basics program tableau ↔
    ∃ place < program.variableCount, tableau.basic place = index := by
  simp [basics]

/-- The point of a basis: nothing is raised. -/
def vertex (program : CoveringProgram) (tableau : Tableau) : Nat → Rat :=
  raised program tableau 0 0

theorem vertex_eq (index : Nat) : vertex program tableau index =
    ∑ place ∈ range program.variableCount,
      if index = tableau.basic place then tableau.entry place program.width else 0 := by
  simp [vertex, raised]

theorem vertex_of_not_mem {index : Nat} (outside : index ∉ basics program tableau) :
    vertex program tableau index = 0 := by
  rw [vertex_eq]
  refine Finset.sum_eq_zero fun place within => if_neg fun same => outside ?_
  exact mem_basics_iff.mpr ⟨place, Finset.mem_range.mp within, same.symm⟩

namespace Sound

variable (sound : Sound program tableau)

include sound

theorem vertex_basic (inRange : place < program.variableCount) :
    vertex program tableau (tableau.basic place) = tableau.entry place program.width := by
  rw [vertex_eq, Finset.sum_eq_single place, if_pos rfl]
  · intro another within apart
    exact if_neg fun same =>
      apart (sound.basic_injective (Finset.mem_range.mp within) inRange same.symm)
  · intro outside
    exact absurd (Finset.mem_range.mpr inRange) outside

theorem cost_of_mem {index : Nat} (inside : index ∈ basics program tableau) :
    tableau.cost index = 0 := by
  obtain ⟨place, within, rfl⟩ := mem_basics_iff.mp inside
  exact sound.free place within

theorem basics_subset : basics program tableau ⊆ range program.width := by
  intro index inside
  obtain ⟨place, within, rfl⟩ := mem_basics_iff.mp inside
  exact Finset.mem_range.mpr (sound.basic_lt place within)

/-- The value of a tableau is what the point of its basis weighs, but for the sign. -/
theorem weight_vertex_self :
    program.weight (vertex program tableau) = -tableau.cost program.width := by
  rw [vertex, sound.weight_raised (.inr rfl), mul_zero, zero_sub]

/-- What the costs of another tableau say of the point of a basis. -/
theorem weight_vertex (another : Sound program other) : program.weight (vertex program tableau) =
    ∑ place ∈ range program.variableCount,
      other.cost (tableau.basic place) * tableau.entry place program.width -
        other.cost program.width := by
  rw [vertex, ← another.costs _ (sound.balances_raised (.inr rfl)), residual,
    sound.sum_raised (.inr rfl)]
  simp

/-- **The basis determines the value of a tableau.** -/
theorem cost_width_eq (another : Sound program other)
    (same : basics program other = basics program tableau) :
    other.cost program.width = tableau.cost program.width := by
  have free : ∀ place ∈ range program.variableCount,
      other.cost (tableau.basic place) * tableau.entry place program.width = 0 := by
    intro place within
    have inside : tableau.basic place ∈ basics program tableau :=
      mem_basics_iff.mpr ⟨place, Finset.mem_range.mp within, rfl⟩
    rw [another.cost_of_mem (same ▸ inside), zero_mul]
  have told := sound.weight_vertex another
  rw [sound.weight_vertex_self, Finset.sum_eq_zero free] at told
  linarith

/-- A column enters that is not in the basis. -/
theorem not_mem_of_worth {index : Nat} (worth : 0 < tableau.cost index) :
    index ∉ basics program tableau :=
  fun inside => worth.ne' (sound.cost_of_mem inside)

/-- An exchange puts one column into the basis, and takes another one out of it. -/
theorem mem_basics_exchange_iff
    (pivot : tableau.IsPivot program.variableCount program.width column place) {index : Nat} :
    index ∈ basics program (tableau.exchange column place) ↔
      index = column ∨ index ∈ basics program tableau ∧ index ≠ tableau.basic place := by
  have written : ∀ other, (tableau.exchange column place).basic other =
      if other = place then column else tableau.basic other :=
    basic_exchange sound.shape pivot.place_lt
  simp only [mem_basics_iff, written]
  constructor
  · rintro ⟨other, within, rfl⟩
    split
    · exact .inl rfl
    · rename_i kept
      exact .inr ⟨⟨other, within, rfl⟩, fun same =>
        kept (sound.basic_injective within pivot.place_lt same)⟩
  · rintro (rfl | ⟨⟨other, within, rfl⟩, kept⟩)
    · exact ⟨place, pivot.place_lt, if_pos rfl⟩
    · exact ⟨other, within, if_neg fun same => kept (congrArg tableau.basic same)⟩

/-- **An exchange gains nothing** only if the row that is exchanged has the right-hand side zero. -/
theorem cost_width_exchange_le
    (pivot : tableau.IsPivot program.variableCount program.width column place) :
    (tableau.exchange column place).cost program.width ≤ tableau.cost program.width ∧
      (tableau.cost program.width ≤ (tableau.exchange column place).cost program.width →
        tableau.entry place program.width = 0) := by
  have written := cost_exchange sound.shape pivot.place_lt pivot.column_lt.le program.width
  have raised := div_nonneg (sound.nonneg place pivot.place_lt) pivot.positive.le
  have gained := mul_nonneg pivot.worth.le raised
  refine ⟨by linarith, fun nothing => ?_⟩
  have none_gained : tableau.cost column *
      (tableau.entry place program.width / tableau.entry place column) = 0 := by linarith
  rcases mul_eq_zero.mp none_gained with free | idle
  · exact absurd free pivot.worth.ne'
  · exact (div_eq_zero_iff.mp idle).resolve_right pivot.positive.ne'

/-- **Such an exchange leaves the point of the basis where it is.** -/
theorem vertex_exchange
    (pivot : tableau.IsPivot program.variableCount program.width column place)
    (idle : tableau.entry place program.width = 0) :
    vertex program (tableau.exchange column place) = vertex program tableau := by
  funext index
  rw [vertex_eq, vertex_eq]
  refine Finset.sum_congr rfl fun other within => ?_
  rw [entry_exchange sound.shape pivot.place_lt pivot.column_lt.le (Finset.mem_range.mp within),
    basic_exchange sound.shape pivot.place_lt, idle, zero_div, mul_zero, sub_zero]
  by_cases same : other = place
  · rw [if_pos same, if_pos same, ite_self, same, idle, ite_self]
  · rw [if_neg same, if_neg same]

end Sound

/-! ### Walks -/

/-- **Exchanges one after the other**, each of them the one that a step makes. -/
structure IsWalk (program : CoveringProgram) (count : Nat) (path : Nat → Tableau)
    (columns places : Nat → Nat) : Prop where
  start : Sound program (path 0)
  pivot : ∀ time < count,
    (path time).IsPivot program.variableCount program.width (columns time) (places time)
  next : ∀ time < count, path (time + 1) = (path time).exchange (columns time) (places time)

/-- What every step keeps, and the return to the start, holds all the way around. -/
theorem holds_around {count : Nat} {holds : Nat → Prop}
    (keeps : ∀ time < count, holds time → holds (time + 1)) (closes : holds count → holds 0)
    {time later : Nat} (within : time ≤ count) (within' : later ≤ count) (now : holds time) :
    holds later := by
  have onwards {first last : Nat} (order : first ≤ last) (bound : last ≤ count)
      (begins : holds first) : holds last := by
    induction last, order using Nat.le_induction with
    | base => exact begins
    | succ middle _ ih => exact keeps middle (by omega) (ih (by omega))
  exact onwards (Nat.zero_le later) within' (closes (onwards within le_rfl now))

namespace IsWalk

variable {count : Nat} {path : Nat → Tableau} {columns places : Nat → Nat}
  (walk : IsWalk program count path columns places)

include walk

theorem sound {time : Nat} (within : time ≤ count) : Sound program (path time) := by
  induction time with
  | zero => exact walk.start
  | succ time ih =>
    rw [walk.next time within]
    exact (ih (by omega)).exchange (walk.pivot time within)

/-- A part of a walk. -/
theorem part {first second : Nat} (order : first ≤ second) (bound : second ≤ count) :
    IsWalk program (second - first) (fun time => path (first + time))
      (fun time => columns (first + time)) (fun time => places (first + time)) where
  start := walk.sound (order.trans bound)
  pivot time _ := walk.pivot (first + time) (by omega)
  next time _ := walk.next (first + time) (by omega)

theorem mem_basics_succ_iff {time index : Nat} (within : time < count) :
    index ∈ basics program (path (time + 1)) ↔ index = columns time ∨
      index ∈ basics program (path time) ∧ index ≠ (path time).basic (places time) := by
  rw [walk.next time within,
    (walk.sound within.le).mem_basics_exchange_iff (walk.pivot time within)]

variable (returns : basics program (path count) = basics program (path 0))

include returns

/-- **Nothing is gained on a walk back to a basis.** -/
theorem idle_place {time : Nat} (within : time < count) :
    (path time).entry (places time) program.width = 0 := by
  have falls := fun time (within : time < count) =>
    (walk.sound within.le).cost_width_exchange_le (walk.pivot time within)
  have same := walk.start.cost_width_eq (walk.sound le_rfl) returns
  refine (falls time within).2 ?_
  rw [← walk.next time within]
  -- the value just after the exchange bounds that of every time that comes later
  have keeps : ∀ later < count,
      (path later).cost program.width ≤ (path (time + 1)).cost program.width →
        (path (later + 1)).cost program.width ≤ (path (time + 1)).cost program.width := by
    intro later bound low
    rw [walk.next later bound]
    exact (falls later bound).1.trans low
  exact holds_around keeps (fun low => same ▸ low) (Nat.succ_le_of_lt within) within.le le_rfl

/-- The points of all bases on the way are the same. -/
theorem vertex_eq_start {time : Nat} (within : time ≤ count) :
    vertex program (path time) = vertex program (path 0) := by
  induction time with
  | zero => rfl
  | succ time ih =>
    rw [walk.next time within, (walk.sound (by omega)).vertex_exchange (walk.pivot time within)
      (walk.idle_place returns within), ih (by omega)]

/-- A column that is in the basis at one time and out of it at another enters at some time. -/
theorem exists_enters {time later index : Nat} (within : time ≤ count) (within' : later ≤ count)
    (inside : index ∈ basics program (path time))
    (outside : index ∉ basics program (path later)) : ∃ moment < count, columns moment = index := by
  by_contra none_enters
  push Not at none_enters
  have keeps : ∀ moment < count, index ∉ basics program (path moment) →
      index ∉ basics program (path (moment + 1)) := by
    intro moment bound absent
    rw [walk.mem_basics_succ_iff bound]
    rintro (same | ⟨present, -⟩)
    · exact none_enters moment bound same.symm
    · exact absent present
  exact holds_around keeps (fun absent => returns ▸ absent) within' within outside inside

/-- What enters the basis leaves it at some time. -/
theorem exists_leaves {time : Nat} (within : time < count) :
    ∃ moment < count, (path moment).basic (places moment) = columns time := by
  by_contra none_leaves
  push Not at none_leaves
  have keeps : ∀ moment < count, columns time ∈ basics program (path moment) →
      columns time ∈ basics program (path (moment + 1)) := by
    intro moment bound present
    rw [walk.mem_basics_succ_iff bound]
    exact .inr ⟨present, (none_leaves moment bound).symm⟩
  have entered : columns time ∈ basics program (path (time + 1)) :=
    (walk.mem_basics_succ_iff within).mpr (.inl rfl)
  exact (walk.sound within.le).not_mem_of_worth (walk.pivot time within).worth
    (holds_around keeps (fun present => returns ▸ present) (Nat.succ_le_of_lt within) within.le
      entered)

/-- The values of all tableaus on the way are the same. -/
theorem cost_width_eq_start {time : Nat} (within : time ≤ count) :
    (path time).cost program.width = (path 0).cost program.width := by
  have here := (walk.sound within).weight_vertex_self
  have there := walk.start.weight_vertex_self
  rw [walk.vertex_eq_start returns within] at here
  linarith

/-- A column of the basis that some other basis of the walk does not have is idle, and enters at
some time. -/
theorem entry_eq_zero_of_cost_ne {time later place : Nat} (within : time ≤ count)
    (within' : later ≤ count) (inRange : place < program.variableCount)
    (costly : (path later).cost ((path time).basic place) ≠ 0) :
    (path time).entry place program.width = 0 ∧
      ∃ moment < count, columns moment = (path time).basic place := by
  have outside : (path time).basic place ∉ basics program (path later) :=
    fun inside => costly ((walk.sound within').cost_of_mem inside)
  refine ⟨?_, walk.exists_enters returns within within'
    (mem_basics_iff.mpr ⟨place, inRange, rfl⟩) outside⟩
  rw [← (walk.sound within).vertex_basic inRange, walk.vertex_eq_start returns within,
    ← walk.vertex_eq_start returns within', vertex_of_not_mem outside]

/-- Of all columns that enter, let the last one enter at one time and leave at another. The costs at
the first of them and the entries at the second, where another column enters, agree in sign at
every basic column: a column before the last one is not worth raising, and could not leave. -/
theorem cost_mul_nonpos {enters leaves : Nat} (within : enters < count) (within' : leaves < count)
    (greatest : ∀ moment < count, columns moment ≤ columns enters)
    (same : (path leaves).basic (places leaves) = columns enters) {place : Nat}
    (inRange : place < program.variableCount) :
    (path enters).cost ((path leaves).basic place) *
      ((path leaves).entry place program.width -
        (path leaves).entry place (columns leaves)) ≤ 0 := by
  have entering := walk.pivot enters within
  have leaving := walk.pivot leaves within'
  have idle := walk.idle_place returns within'
  rcases eq_or_ne ((path enters).cost ((path leaves).basic place)) 0 with free | costly
  · rw [free, zero_mul]
  obtain ⟨exhausted, moment, bound, moved⟩ :=
    walk.entry_eq_zero_of_cost_ne returns within'.le within.le inRange costly
  rw [exhausted, zero_sub]
  rcases (moved ▸ greatest moment bound : _ ≤ columns enters).lt_or_eq with before | equal
  · refine mul_nonpos_of_nonpos_of_nonneg (entering.first _ before) (neg_nonneg.mpr ?_)
    by_contra positive
    have least := leaving.least place inRange (not_le.mp positive)
      (by rw [exhausted, idle, zero_div, zero_div])
    omega
  · have chosen : place = places leaves :=
      (walk.sound within'.le).basic_injective inRange leaving.place_lt (equal.trans same.symm)
    rw [equal, chosen]
    exact mul_nonpos_of_nonneg_of_nonpos entering.worth.le
      (neg_nonpos.mpr leaving.positive.le)

/-- **No walk comes back to the basis it started from.** Of all columns that enter, the last one
enters at one time and leaves at another. The costs at both times say the same of the point where
the column that enters at the second time is raised by one; at the second time it is worth
raising, and at the first it is not. -/
theorem not_returns (moves : 0 < count) : False := by
  obtain ⟨enters, bound, last⟩ := (range count).exists_max_image columns
    ⟨0, Finset.mem_range.mpr moves⟩
  have within := Finset.mem_range.mp bound
  have greatest : ∀ moment < count, columns moment ≤ columns enters :=
    fun moment less => last moment (Finset.mem_range.mpr less)
  obtain ⟨leaves, within', same⟩ := walk.exists_leaves returns within
  have leaving := walk.pivot leaves within'
  have sound := walk.sound within'.le
  have less : columns leaves < columns enters := by
    refine (greatest leaves within').lt_of_ne fun equal => ?_
    refine sound.not_mem_of_worth leaving.worth ?_
    rw [equal, ← same]
    exact mem_basics_iff.mpr ⟨_, leaving.place_lt, rfl⟩
  have low := (walk.pivot enters within).first (columns leaves) less
  have worth := leaving.worth
  have known : columns leaves < program.width ∨ (1 : Rat) = 0 := .inl leaving.column_lt
  have told := (walk.sound within.le).costs _ (sound.balances_raised known)
  rw [sound.weight_raised known, residual, sound.sum_raised known,
    walk.cost_width_eq_start returns within.le,
    walk.cost_width_eq_start returns within'.le] at told
  simp only [mul_one, one_mul] at told
  have total := Finset.sum_nonpos fun place member =>
    walk.cost_mul_nonpos returns within within' greatest same (Finset.mem_range.mp member)
  linarith

end IsWalk

/-- **A walk has less exchanges than the columns have subsets.** -/
theorem IsWalk.lt_two_pow {count : Nat} {path : Nat → Tableau} {columns places : Nat → Nat}
    (walk : IsWalk program count path columns places) : count < 2 ^ program.width := by
  by_contra long
  have fewer : (range program.width).powerset.card < (range (count + 1)).card := by
    rw [Finset.card_powerset, Finset.card_range, Finset.card_range]
    omega
  have maps : ∀ time ∈ range (count + 1),
      basics program (path time) ∈ (range program.width).powerset := by
    intro time within
    rw [Finset.mem_powerset]
    exact (walk.sound (Nat.lt_succ_iff.mp (Finset.mem_range.mp within))).basics_subset
  obtain ⟨first, bound, second, bound', apart, same⟩ :=
    Finset.exists_ne_map_eq_of_card_lt_of_maps_to fewer maps
  rw [Finset.mem_range, Nat.lt_succ_iff] at bound bound'
  have returns {first second : Nat} (less : first < second) (bound : second ≤ count) :
      basics program (path second) ≠ basics program (path first) := by
    intro same
    refine (walk.part less.le bound).not_returns ?_ (by omega)
    rw [Nat.add_sub_cancel' less.le]
    exact same
  rcases apart.lt_or_gt with less | less
  · exact returns less bound' same.symm
  · exact returns less bound same

end Transversal.Tableau
