/-
**What one step of the simplex method does to the numbers of a tableau.**

* `Tableau.entry`, `Tableau.cost`, `Tableau.basic`: what is written in a tableau of some height and
  width, `Tableau.HasShape`.
* `Tableau.entry_exchange`, `Tableau.cost_exchange`, `Tableau.basic_exchange`: what an exchange
  writes.
* `Tableau.IsPivot`: which exchange is made; `Tableau.step_cases`: the three outcomes of a step.
-/
import Mathlib.Algebra.Order.Field.Rat
import Mathlib.Tactic.Ring
import Transversal.Relaxation.Simplex

namespace Transversal

namespace Tableau

variable {tableau : Tableau} {height width column place : Nat}

/-! ### What is written in a tableau -/

/-- The entry of a row at a column. The right-hand side stands behind the last column. -/
def entry (tableau : Tableau) (place column : Nat) : Rat :=
  (tableau.rows.getD place #[]).getD column 0

/-- The reduced cost at a column. -/
def cost (tableau : Tableau) (column : Nat) : Rat := tableau.costs.getD column 0

/-- The basic column of a row. -/
def basic (tableau : Tableau) (place : Nat) : Nat := tableau.basis.getD place 0

/-- So many rows, of so many columns and a right-hand side. -/
structure HasShape (tableau : Tableau) (height width : Nat) : Prop where
  rows : tableau.rows.size = height
  basis : tableau.basis.size = height
  row : ∀ place < height, (tableau.rows.getD place #[]).size = width + 1
  costs : tableau.costs.size = width + 1

/-- The right-hand side stands behind the last column. -/
theorem rightSide_eq {row : Array Rat} (size : row.size = width + 1) :
    rightSide row = row.getD width 0 := by
  rw [rightSide, Array.back?_eq_getElem?, size, Nat.add_sub_cancel, Array.getD_eq_getD_getElem?]

/-! ### What an exchange writes -/

theorem size_eliminate {pivot row : Array Rat} (same : row.size = pivot.size) :
    (eliminate column pivot row).size = row.size := by
  simp only [eliminate]
  split
  · rfl
  · rw [Array.size_zipWith, same, Nat.min_self]

theorem getD_eliminate {pivot row : Array Rat} (same : row.size = pivot.size) (other : Nat) :
    (eliminate column pivot row).getD other 0 =
      row.getD other 0 - row.getD column 0 * pivot.getD other 0 := by
  simp only [eliminate]
  split
  · rename_i zero
    rw [zero, zero_mul, sub_zero]
  · simp only [Array.getD_eq_getD_getElem?, Array.getElem?_zipWith]
    by_cases within : other < row.size
    · rw [Array.getElem?_eq_getElem within, Array.getElem?_eq_getElem (same ▸ within)]
      rfl
    · have past := Nat.not_lt.mp within
      rw [Array.getElem?_eq_none past, Array.getElem?_eq_none (same ▸ past)]
      simp

theorem getD_map_div (row : Array Rat) (scale : Rat) (other : Nat) :
    (row.map (· / scale)).getD other 0 = row.getD other 0 / scale := by
  rw [Array.getD_eq_getD_getElem?, Array.getD_eq_getD_getElem?, Array.getElem?_map]
  cases row[other]? with
  | none => exact (zero_div scale).symm
  | some value => rfl

/-- The row that is exchanged, divided by its entry at the column that enters. -/
def pivotRow (tableau : Tableau) (column place : Nat) : Array Rat :=
  (tableau.rows.getD place #[]).map (· / (tableau.rows.getD place #[]).getD column 1)

section Exchange

variable (shape : tableau.HasShape height width) (inRange : place < height)
  (known : column ≤ width)

include shape

theorem rows_exchange {other : Nat} (within : other < height) :
    (tableau.exchange column place).rows.getD other #[] =
      if other = place then tableau.pivotRow column place
      else eliminate column (tableau.pivotRow column place) (tableau.rows.getD other #[]) := by
  have stands : other < tableau.rows.size := shape.rows ▸ within
  show (tableau.rows.mapIdx fun index row => if index = place then tableau.pivotRow column place
    else eliminate column (tableau.pivotRow column place) row).getD other #[] = _
  rw [Array.getD_eq_getD_getElem?, Array.getD_eq_getD_getElem?, Array.getElem?_mapIdx,
    Array.getElem?_eq_getElem stands]
  rfl

include inRange

theorem size_pivotRow : (tableau.pivotRow column place).size = width + 1 := by
  rw [pivotRow, Array.size_map, shape.row place inRange]

include known

theorem getD_pivotRow (other : Nat) : (tableau.pivotRow column place).getD other 0 =
    tableau.entry place other / tableau.entry place column := by
  have within : column < (tableau.rows.getD place #[]).size := by
    rw [shape.row place inRange]
    omega
  rw [pivotRow, getD_map_div, entry, entry]
  generalize tableau.rows.getD place #[] = row at within ⊢
  have scale : row.getD column 1 = row.getD column 0 := by
    simp [Array.getD_eq_getD_getElem?, within]
  rw [scale]

theorem entry_exchange {other : Nat} (within : other < height) (index : Nat) :
    (tableau.exchange column place).entry other index =
      if other = place then tableau.entry place index / tableau.entry place column
      else tableau.entry other index -
        tableau.entry other column * (tableau.entry place index / tableau.entry place column) := by
  rw [entry, rows_exchange shape within]
  split
  · exact getD_pivotRow shape inRange known index
  · have same : (tableau.rows.getD other #[]).size = (tableau.pivotRow column place).size := by
      rw [shape.row other within, size_pivotRow shape inRange]
    rw [getD_eliminate same, getD_pivotRow shape inRange known]
    rfl

theorem cost_exchange (index : Nat) : (tableau.exchange column place).cost index =
    tableau.cost index -
      tableau.cost column * (tableau.entry place index / tableau.entry place column) := by
  have same : tableau.costs.size = (tableau.pivotRow column place).size := by
    rw [shape.costs, size_pivotRow shape inRange]
  show (eliminate column (tableau.pivotRow column place) tableau.costs).getD index 0 = _
  rw [getD_eliminate same, getD_pivotRow shape inRange known]
  rfl

omit known in
theorem basic_exchange (other : Nat) : (tableau.exchange column place).basic other =
    if other = place then column else tableau.basic other := by
  have stands : place < tableau.basis.size := shape.basis ▸ inRange
  show (tableau.basis.setIfInBounds place column).getD other 0 = _
  rw [Array.getD_eq_getD_getElem?, Array.getElem?_setIfInBounds]
  by_cases same : place = other
  · rw [if_pos same, if_pos stands, if_pos same.symm, Option.getD_some]
  · rw [if_neg same, if_neg (Ne.symm same), basic, Array.getD_eq_getD_getElem?]

omit known in
theorem HasShape.exchange : (tableau.exchange column place).HasShape height width where
  rows := by
    show (tableau.rows.mapIdx _).size = height
    rw [Array.size_mapIdx, shape.rows]
  basis := by
    show (tableau.basis.setIfInBounds place column).size = height
    rw [Array.size_setIfInBounds, shape.basis]
  row other within := by
    have long : (tableau.pivotRow column place).size = width + 1 := size_pivotRow shape inRange
    rw [rows_exchange shape within]
    split
    · exact long
    · rw [size_eliminate (by rw [long, shape.row other within]), shape.row other within]
  costs := by
    show (eliminate column (tableau.pivotRow column place) tableau.costs).size = width + 1
    rw [size_eliminate (by rw [shape.costs, size_pivotRow shape inRange]), shape.costs]

end Exchange

/-! ### Which exchange is made -/

/-- **What a step knows of the exchange it makes**: the column is the first one worth raising, and
the row is one that is exhausted first; of several such rows it has the least basic column. -/
structure IsPivot (tableau : Tableau) (height width column place : Nat) : Prop where
  column_lt : column < width
  worth : 0 < tableau.cost column
  first : ∀ earlier < column, tableau.cost earlier ≤ 0
  place_lt : place < height
  positive : 0 < tableau.entry place column
  tight : ∀ other < height, 0 < tableau.entry other column →
    tableau.entry place width / tableau.entry place column ≤
      tableau.entry other width / tableau.entry other column
  least : ∀ other < height, 0 < tableau.entry other column →
    tableau.entry other width / tableau.entry other column =
      tableau.entry place width / tableau.entry place column →
    tableau.basic place ≤ tableau.basic other

namespace Leaving

/-- The order in which rows are preferred: by how far the column may be raised, and then by the
basic column. -/
def NotAfter (first second : Leaving) : Prop :=
  first.limit < second.limit ∨ first.limit = second.limit ∧ first.basic ≤ second.basic

theorem NotAfter.trans {first second third : Leaving} (before : first.NotAfter second)
    (after : second.NotAfter third) : first.NotAfter third := by
  unfold NotAfter at *
  grind

theorem tighter_notAfter (first second : Leaving) :
    (first.tighter second).NotAfter first ∧ (first.tighter second).NotAfter second := by
  unfold tighter NotAfter
  grind

theorem tighter_cases (first second : Leaving) :
    first.tighter second = first ∨ first.tighter second = second := by
  rw [tighter]
  split
  · exact .inr rfl
  · exact .inl rfl

/-- The row that is chosen comes before all others. -/
theorem foldl_tighter (first : Leaving) (rest : List Leaving) :
    rest.foldl tighter first ∈ first :: rest ∧
      ∀ other ∈ first :: rest, (rest.foldl tighter first).NotAfter other := by
  induction rest generalizing first with
  | nil => simp [NotAfter]
  | cons second rest ih =>
    obtain ⟨member, before⟩ := ih (first.tighter second)
    rw [List.foldl_cons]
    rw [List.forall_mem_cons] at before
    obtain ⟨left, right⟩ := tighter_notAfter first second
    refine ⟨?_, List.forall_mem_cons.mpr ⟨before.1.trans left,
      List.forall_mem_cons.mpr ⟨before.1.trans right, before.2⟩⟩⟩
    rcases List.mem_cons.mp member with chosen | later
    · rw [chosen]
      rcases tighter_cases first second with same | same
      · rw [same]
        exact List.mem_cons_self
      · rw [same]
        exact List.mem_cons_of_mem _ List.mem_cons_self
    · exact List.mem_cons_of_mem _ (List.mem_cons_of_mem _ later)

end Leaving

/-- The rows that may leave the basis for a column. -/
def candidates (tableau : Tableau) (column : Nat) : List Leaving :=
  (tableau.rows.toList.zip tableau.basis.toList).zipIdx.filterMap fun ((row, basic), place) =>
    if 0 < row.getD column 0 then some ⟨place, basic, rightSide row / row.getD column 0⟩ else none

theorem leaving?_eq (tableau : Tableau) (column : Nat) :
    tableau.leaving? column = match tableau.candidates column with
      | [] => none
      | first :: rest => some (rest.foldl Leaving.tighter first) := rfl

theorem leaving?_eq_some {leaving : Leaving} (chosen : tableau.leaving? column = some leaving) :
    leaving ∈ tableau.candidates column ∧
      ∀ other ∈ tableau.candidates column, leaving.NotAfter other := by
  rw [leaving?_eq] at chosen
  cases listed : tableau.candidates column with
  | nil =>
    rw [listed] at chosen
    cases chosen
  | cons first rest =>
    rw [listed] at chosen
    cases chosen
    exact Leaving.foldl_tighter first rest

section Choice

variable (shape : tableau.HasShape height width)

include shape

theorem costs_pop (index : Nat) :
    tableau.costs.pop[index]? = if index < width then some (tableau.cost index) else none := by
  rw [Array.getElem?_pop, shape.costs, Nat.add_sub_cancel]
  split
  · rename_i within
    have stands : index < tableau.costs.size := by
      rw [shape.costs]
      omega
    rw [cost, Array.getD_eq_getD_getElem?, Array.getElem?_eq_getElem stands, Option.getD_some]
  · rfl

theorem cost_nonpos_of_entering? (done : tableau.entering? = none) :
    ∀ index < width, tableau.cost index ≤ 0 := by
  intro index within
  have stands := costs_pop shape index
  rw [if_pos within] at stands
  have found := Array.findIdx?_eq_none_iff.mp done _ (Array.mem_of_getElem? stands)
  simpa using found

theorem entering?_eq_some (found : tableau.entering? = some column) :
    column < width ∧ 0 < tableau.cost column ∧ ∀ earlier < column, tableau.cost earlier ≤ 0 := by
  obtain ⟨within, worth, before⟩ := Array.findIdx?_eq_some_iff_getElem.mp found
  have size : tableau.costs.pop.size = width := by
    rw [Array.size_pop, shape.costs, Nat.add_sub_cancel]
  have costs {index : Nat} (stands : index < tableau.costs.pop.size) :
      tableau.costs.pop[index] = tableau.cost index := by
    have same := costs_pop shape index
    rw [if_pos (size ▸ stands), Array.getElem?_eq_getElem stands] at same
    exact Option.some.inj same
  rw [costs within] at worth
  refine ⟨size ▸ within, of_decide_eq_true worth, fun earlier less => ?_⟩
  have low := before earlier less
  rw [costs] at low
  simpa using low

theorem mem_candidates_iff {leaving : Leaving} : leaving ∈ tableau.candidates column ↔
    ∃ place < height, 0 < tableau.entry place column ∧
      leaving = ⟨place, tableau.basic place,
        tableau.entry place width / tableau.entry place column⟩ := by
  have stands {place : Nat} {row : Array Rat} {basic : Nat} :
      ((row, basic), place) ∈ (tableau.rows.toList.zip tableau.basis.toList).zipIdx ↔
        place < height ∧ row = tableau.rows.getD place #[] ∧ basic = tableau.basic place := by
    rw [List.mem_zipIdx_iff_getElem?, List.getElem?_zip_eq_some, Array.getElem?_toList,
      Array.getElem?_toList, Tableau.basic, Array.getD_eq_getD_getElem?,
      Array.getD_eq_getD_getElem?]
    by_cases within : place < height
    · rw [Array.getElem?_eq_getElem (shape.rows ▸ within),
        Array.getElem?_eq_getElem (shape.basis ▸ within)]
      simp [within, eq_comm]
    · rw [Array.getElem?_eq_none (shape.rows ▸ Nat.not_lt.mp within)]
      simp [within]
  have right {place : Nat} (within : place < height) :
      rightSide (tableau.rows.getD place #[]) = tableau.entry place width :=
    rightSide_eq (shape.row place within)
  simp only [candidates, List.mem_filterMap, Prod.exists, stands]
  constructor
  · rintro ⟨_, _, place, ⟨within, rfl, rfl⟩, found⟩
    split at found
    · rename_i positive
      cases found
      exact ⟨place, within, positive, by rw [right within]; rfl⟩
    · cases found
  · rintro ⟨place, within, positive, rfl⟩
    refine ⟨_, _, place, ⟨within, rfl, rfl⟩, ?_⟩
    rw [← right within]
    exact if_pos positive

theorem entry_nonpos_of_leaving? (none_leaves : tableau.leaving? column = none) :
    ∀ place < height, tableau.entry place column ≤ 0 := by
  intro place within
  by_contra positive
  have member := (mem_candidates_iff shape).mpr ⟨place, within, not_le.mp positive, rfl⟩
  rw [leaving?_eq] at none_leaves
  cases listed : tableau.candidates column with
  | nil =>
    rw [listed] at member
    cases member
  | cons first rest =>
    rw [listed] at none_leaves
    cases none_leaves

end Choice

/-- **The three outcomes of a step**: no column is worth raising, or one can be raised without end,
or an exchange is made. -/
theorem step_cases (shape : tableau.HasShape height width) :
    (tableau.step = .optimal ∧ ∀ column < width, tableau.cost column ≤ 0) ∨
      (tableau.step = .unbounded ∧ ∃ column < width, 0 < tableau.cost column ∧
        ∀ place < height, tableau.entry place column ≤ 0) ∨
      ∃ column place, tableau.IsPivot height width column place ∧
        tableau.step = .exchanged (tableau.exchange column place) := by
  rw [step]
  cases entering : tableau.entering? with
  | none => exact .inl ⟨rfl, cost_nonpos_of_entering? shape entering⟩
  | some column =>
    obtain ⟨within, worth, first⟩ := entering?_eq_some shape entering
    dsimp only
    cases chosen : tableau.leaving? column with
    | none =>
      exact .inr (.inl ⟨rfl, column, within, worth, entry_nonpos_of_leaving? shape chosen⟩)
    | some leaving =>
      obtain ⟨member, before⟩ := leaving?_eq_some chosen
      obtain ⟨place, inRange, positive, rfl⟩ := (mem_candidates_iff shape).mp member
      have after {other : Nat} (known : other < height)
          (able : 0 < tableau.entry other column) :=
        before _ ((mem_candidates_iff shape).mpr ⟨other, known, able, rfl⟩)
      refine .inr (.inr ⟨column, place, ⟨within, worth, first, inRange, positive,
        fun other known able => ?_, fun other known able same => ?_⟩, rfl⟩)
      · rcases after known able with less | ⟨same, _⟩
        · exact less.le
        · exact same.le
      · rcases after known able with less | ⟨_, least⟩
        · exact absurd same less.ne'
        · exact least
end Tableau

end Transversal
