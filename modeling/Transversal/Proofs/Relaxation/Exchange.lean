/-
**An exchange keeps what a tableau says of its program.**

* `CoveringProgram.Balances`: weights of the rows, with the slack that they leave at every variable.
* `Tableau.solves_exchange_iff`: an exchange changes none of the solutions of the rows.
* `Tableau.Sound`: the rows have the solutions of the program, the costs tell the sum of the
  weights, and the basic columns are unit columns with nothing negative at their right-hand sides.
* `Tableau.sound_start`, `Tableau.Sound.exchange`: so it is at the start, and after every exchange.
* `Tableau.raised`: a column raised by some amount; `Tableau.Sound.balances_raised`,
  `Tableau.Sound.weight_raised`: that is a point of the program, and what it weighs.
-/
import Mathlib.Algebra.BigOperators.Field
import Mathlib.Algebra.BigOperators.Group.Finset.Piecewise
import Mathlib.Algebra.BigOperators.Group.Finset.Sigma
import Mathlib.Algebra.BigOperators.Ring.Finset
import Transversal.Proofs.Relaxation.Tableau

namespace Transversal

open Finset (range)

/-! ### The program -/

namespace CoveringProgram

variable (program : CoveringProgram)

/-- The number of columns: one for the weight of every row, and one for the slack of every
variable. -/
def width : Nat := program.rows.length + program.variableCount

/-- How often a row names a variable. -/
def coefficientAt (place index : Nat) : Rat := coefficient (program.rows.getD place []) index

/-- **Weights of the rows**, with the slack that they leave at every variable. -/
def Balances (point : Nat → Rat) : Prop :=
  ∀ index < program.variableCount,
    ∑ place ∈ range program.rows.length, program.coefficientAt place index * point place +
      point (program.rows.length + index) = 1

/-- The sum of the weights. -/
def weight (point : Nat → Rat) : Rat := ∑ place ∈ range program.rows.length, point place

end CoveringProgram

namespace Tableau

variable {tableau : Tableau} {height width column place : Nat}

/-! ### Equations -/

/-- How far a point is above the right-hand side of a row of so many columns. -/
def residual (width : Nat) (row point : Nat → Rat) : Rat :=
  ∑ index ∈ range width, row index * point index - row width

theorem residual_div (width : Nat) (row point : Nat → Rat) (scale : Rat) :
    residual width (fun index => row index / scale) point = residual width row point / scale := by
  rw [residual, residual, sub_div, Finset.sum_div]
  simp only [div_mul_eq_mul_div]

theorem residual_sub_mul (width : Nat) (row pivot point : Nat → Rat) (factor : Rat) :
    residual width (fun index => row index - factor * pivot index) point =
      residual width row point - factor * residual width pivot point := by
  simp only [residual, sub_mul, Finset.sum_sub_distrib, mul_sub, Finset.mul_sum, mul_assoc]
  ring

/-- A point that all rows are true of. -/
def Solves (tableau : Tableau) (height width : Nat) (point : Nat → Rat) : Prop :=
  ∀ place < height, residual width (tableau.entry place) point = 0

section Exchange

variable (shape : tableau.HasShape height width) (inRange : place < height)
  (known : column ≤ width)

include shape inRange known

theorem residual_exchange {other : Nat} (within : other < height) (point : Nat → Rat) :
    residual width ((tableau.exchange column place).entry other) point =
      if other = place then
        residual width (tableau.entry place) point / tableau.entry place column
      else residual width (tableau.entry other) point - tableau.entry other column *
        (residual width (tableau.entry place) point / tableau.entry place column) := by
  have written := funext (entry_exchange shape inRange known within)
  rw [written, ← residual_div]
  split
  · rfl
  · rw [← residual_sub_mul]

theorem residual_cost_exchange (point : Nat → Rat) :
    residual width (tableau.exchange column place).cost point =
      residual width tableau.cost point - tableau.cost column *
        (residual width (tableau.entry place) point / tableau.entry place column) := by
  rw [funext (cost_exchange shape inRange known), ← residual_div, ← residual_sub_mul]

/-- **An exchange at an entry that is not zero** changes none of the solutions. -/
theorem solves_exchange_iff (pivot : tableau.entry place column ≠ 0) {point : Nat → Rat} :
    (tableau.exchange column place).Solves height width point ↔
      tableau.Solves height width point := by
  have changed {other : Nat} (within : other < height) :=
    residual_exchange shape inRange known within point
  constructor
  · intro solves
    have chosen := solves place inRange
    rw [changed inRange, if_pos rfl, div_eq_zero_iff, or_iff_left pivot] at chosen
    intro other within
    have holds := solves other within
    rw [changed within] at holds
    split at holds
    · rename_i same
      rwa [same]
    · rwa [chosen, zero_div, mul_zero, sub_zero] at holds
  · intro solves other within
    rw [changed within, solves place inRange, solves other within]
    simp

end Exchange

/-! ### Tableaus of a program -/

variable {program : CoveringProgram}

open CoveringProgram (coefficientAt)

/-- **What a tableau of a program says.** Its rows have the solutions of the program, its costs tell
the sum of the weights, and the basic columns are unit columns of no cost, with nothing negative at
their right-hand sides. -/
structure Sound (program : CoveringProgram) (tableau : Tableau) : Prop where
  shape : tableau.HasShape program.variableCount program.width
  solutions : ∀ point, tableau.Solves program.variableCount program.width point ↔
    program.Balances point
  costs : ∀ point, program.Balances point →
    residual program.width tableau.cost point = program.weight point
  basic_lt : ∀ place < program.variableCount, tableau.basic place < program.width
  unit : ∀ place < program.variableCount, ∀ other < program.variableCount,
    tableau.entry place (tableau.basic other) = if place = other then 1 else 0
  free : ∀ place < program.variableCount, tableau.cost (tableau.basic place) = 0
  nonneg : ∀ place < program.variableCount, 0 ≤ tableau.entry place program.width

/-! ### The start -/

/-- A row of the start. -/
theorem rows_start {index : Nat} (known : index < program.variableCount) :
    (start program).rows.getD index #[] =
      (program.rows.map fun row => (CoveringProgram.coefficient row index : Rat)).toArray ++
        (Array.range program.variableCount).map (fun slack => if slack = index then 1 else 0) ++
          #[1] := by
  simp [start, Array.getD_eq_getD_getElem?, known]

theorem entry_start_weight {index : Nat} (known : index < program.variableCount)
    (within : place < program.rows.length) :
    (start program).entry index place = program.coefficientAt place index := by
  rw [entry, rows_start known, Array.getD_eq_getD_getElem?, Array.append_assoc,
    Array.getElem?_append_left (by simpa using within)]
  simp [coefficientAt, within]

theorem entry_start_slack {index slack : Nat} (known : index < program.variableCount)
    (within : slack < program.variableCount) :
    (start program).entry index (program.rows.length + slack) =
      if slack = index then 1 else 0 := by
  rw [entry, rows_start known, Array.getD_eq_getD_getElem?, Array.append_assoc,
    Array.getElem?_append_right (by simp), Array.getElem?_append_left (by simpa using within)]
  simp [within]

theorem entry_start_right {index : Nat} (known : index < program.variableCount) :
    (start program).entry index program.width = 1 := by
  rw [entry, rows_start known, Array.getD_eq_getD_getElem?,
    Array.getElem?_append_right (by simp [CoveringProgram.width])]
  simp [CoveringProgram.width]

theorem cost_start (index : Nat) :
    (start program).cost index = if index < program.rows.length then 1 else 0 := by
  rw [cost, start, Array.getD_eq_getD_getElem?, Array.getElem?_append]
  simp only [Array.size_replicate, Array.getElem?_replicate]
  split
  · rfl
  · split <;> rfl

theorem basic_start {index : Nat} (known : index < program.variableCount) :
    (start program).basic index = program.rows.length + index := by
  simp [basic, start, Array.getD_eq_getD_getElem?, known]

theorem hasShape_start : (start program).HasShape program.variableCount program.width where
  rows := by simp [start]
  basis := by simp [start]
  row index known := by
    rw [rows_start known]
    simp [CoveringProgram.width, Nat.add_assoc]
  costs := by
    rw [start, Array.size_append, Array.size_replicate, Array.size_replicate,
      CoveringProgram.width, Nat.add_assoc]

theorem residual_start {index : Nat} (known : index < program.variableCount)
    (point : Nat → Rat) :
    residual program.width ((start program).entry index) point =
      ∑ place ∈ range program.rows.length, program.coefficientAt place index * point place +
        point (program.rows.length + index) - 1 := by
  have weights : ∀ place ∈ range program.rows.length,
      (start program).entry index place * point place =
        program.coefficientAt place index * point place := by
    intro place within
    rw [entry_start_weight known (Finset.mem_range.mp within)]
  have slacks : ∀ slack ∈ range program.variableCount,
      (start program).entry index (program.rows.length + slack) *
          point (program.rows.length + slack) =
        if slack = index then point (program.rows.length + slack) else 0 := by
    intro slack within
    rw [entry_start_slack known (Finset.mem_range.mp within), ite_mul, one_mul, zero_mul]
  rw [residual, entry_start_right known, CoveringProgram.width, Finset.sum_range_add,
    Finset.sum_congr rfl weights, Finset.sum_congr rfl slacks, Finset.sum_ite_eq',
    if_pos (Finset.mem_range.mpr known)]

theorem residual_cost_start (point : Nat → Rat) :
    residual program.width (start program).cost point = program.weight point := by
  have past : (start program).cost program.width = 0 := by
    rw [cost_start, if_neg (by simp [CoveringProgram.width])]
  have weights : ∀ place ∈ range program.rows.length,
      (start program).cost place * point place = point place := by
    intro place within
    rw [cost_start, if_pos (Finset.mem_range.mp within), one_mul]
  have slacks : ∀ slack ∈ range program.variableCount,
      (start program).cost (program.rows.length + slack) *
        point (program.rows.length + slack) = 0 := by
    intro slack _
    rw [cost_start, if_neg (by simp), zero_mul]
  rw [residual, past, sub_zero, CoveringProgram.width, Finset.sum_range_add,
    Finset.sum_congr rfl weights, Finset.sum_eq_zero slacks, add_zero]
  rfl

/-- **The tableau at the start is sound**: with no weight at all, the slacks are one. -/
theorem sound_start (program : CoveringProgram) : Sound program (start program) where
  shape := hasShape_start
  solutions point := by
    refine forall₂_congr fun index known => ?_
    rw [residual_start known, sub_eq_zero]
  costs point _ := residual_cost_start point
  basic_lt index known := by
    rw [basic_start known, CoveringProgram.width]
    omega
  unit index known other known' := by
    rw [basic_start known', entry_start_slack known known']
    exact if_congr eq_comm rfl rfl
  free index known := by
    rw [basic_start known, cost_start, if_neg (by simp)]
  nonneg index known := by
    rw [entry_start_right known]
    exact zero_le_one

/-! ### An exchange -/

namespace Sound

variable (sound : Sound program tableau)

include sound

/-- **An exchange keeps a tableau sound.** -/
theorem exchange (pivot : tableau.IsPivot program.variableCount program.width column place) :
    Sound program (tableau.exchange column place) := by
  have shape := sound.shape
  have inRange := pivot.place_lt
  have known := pivot.column_lt.le
  have nonzero := pivot.positive.ne'
  have entries {other : Nat} (within : other < program.variableCount) :=
    entry_exchange shape inRange known within
  have basics : ∀ other, (tableau.exchange column place).basic other =
      if other = place then column else tableau.basic other := basic_exchange shape inRange
  refine ⟨shape.exchange inRange, fun point => ?_, fun point balances => ?_,
    fun other within => ?_, fun other within another within' => ?_, fun other within => ?_,
    fun other within => ?_⟩
  · rw [solves_exchange_iff shape inRange known nonzero, sound.solutions]
  · have solves := (sound.solutions point).mpr balances
    rw [residual_cost_exchange shape inRange known, solves place inRange, zero_div, mul_zero,
      sub_zero, sound.costs point balances]
  · rw [basics]
    split
    · exact pivot.column_lt
    · exact sound.basic_lt other within
  · rw [entries within, basics]
    by_cases entered : another = place
    · rw [if_pos entered, div_self nonzero, mul_one, sub_self, entered]
    · rw [if_neg entered, sound.unit place inRange another within', if_neg (Ne.symm entered),
        zero_div, mul_zero, sub_zero]
      split
      · rename_i same
        exact (if_neg fun equal => entered (equal.symm.trans same)).symm
      · exact sound.unit other within another within'
  · rw [basics, cost_exchange shape inRange known]
    split
    · rw [div_self nonzero, mul_one, sub_self]
    · rename_i kept
      rw [sound.unit place inRange other within, if_neg (Ne.symm kept), zero_div, mul_zero,
        sub_zero, sound.free other within]
  · have exhausted := div_nonneg (sound.nonneg place inRange) pivot.positive.le
    rw [entries within]
    split
    · exact exhausted
    · rw [sub_nonneg]
      rcases le_or_gt (tableau.entry other column) 0 with low | positive
      · exact (mul_nonpos_of_nonpos_of_nonneg low exhausted).trans (sound.nonneg other within)
      · have tight := pivot.tight other within positive
        rwa [le_div_iff₀ positive, mul_comm] at tight

/-- No two rows have the same basic column. -/
theorem basic_injective {other : Nat} (within : place < program.variableCount)
    (within' : other < program.variableCount) (same : tableau.basic place = tableau.basic other) :
    place = other := by
  by_contra apart
  have one := sound.unit place within place within
  rw [same, sound.unit place within other within', if_neg apart, if_pos rfl] at one
  exact zero_ne_one one

end Sound

/-! ### A column raised -/

/-- The point where a column is raised by some amount: the basic columns make up for it, and all
others are zero. -/
def raised (program : CoveringProgram) (tableau : Tableau) (column : Nat) (amount : Rat)
    (index : Nat) : Rat :=
  (if index = column then amount else 0) + ∑ place ∈ range program.variableCount,
    if index = tableau.basic place then
      tableau.entry place program.width - amount * tableau.entry place column else 0

namespace Sound

variable (sound : Sound program tableau)

include sound

theorem sum_raised {amount : Rat} (known : column < program.width ∨ amount = 0)
    (row : Nat → Rat) :
    ∑ index ∈ range program.width, row index * raised program tableau column amount index =
      row column * amount + ∑ place ∈ range program.variableCount, row (tableau.basic place) *
        (tableau.entry place program.width - amount * tableau.entry place column) := by
  simp only [raised, mul_add, Finset.sum_add_distrib, Finset.mul_sum, mul_ite, mul_zero]
  congr 1
  · rw [Finset.sum_ite_eq']
    split
    · rfl
    · rename_i outside
      rw [known.resolve_left (mt Finset.mem_range.mpr outside), mul_zero]
  · rw [Finset.sum_comm]
    refine Finset.sum_congr rfl fun place within => ?_
    rw [Finset.sum_ite_eq', if_pos]
    exact Finset.mem_range.mpr (sound.basic_lt place (Finset.mem_range.mp within))

/-- **A raised column makes a point of the program.** -/
theorem balances_raised {amount : Rat} (known : column < program.width ∨ amount = 0) :
    program.Balances (raised program tableau column amount) := by
  refine (sound.solutions _).mp fun place within => ?_
  have units : ∀ other ∈ range program.variableCount, tableau.entry place (tableau.basic other) *
      (tableau.entry other program.width - amount * tableau.entry other column) =
        if other = place then
          tableau.entry other program.width - amount * tableau.entry other column else 0 := by
    intro other within'
    rw [sound.unit place within other (Finset.mem_range.mp within'), ite_mul, one_mul, zero_mul]
    exact if_congr eq_comm rfl rfl
  rw [residual, sound.sum_raised known, Finset.sum_congr rfl units, Finset.sum_ite_eq',
    if_pos (Finset.mem_range.mpr within)]
  ring

/-- What a row of costs says of a raised column. -/
theorem weight_raised {amount : Rat} (known : column < program.width ∨ amount = 0) :
    program.weight (raised program tableau column amount) =
      tableau.cost column * amount - tableau.cost program.width := by
  have nothing : ∀ place ∈ range program.variableCount, tableau.cost (tableau.basic place) *
      (tableau.entry place program.width - amount * tableau.entry place column) = 0 := by
    intro place within
    rw [sound.free place (Finset.mem_range.mp within), zero_mul]
  rw [← sound.costs _ (sound.balances_raised known), residual, sound.sum_raised known,
    Finset.sum_eq_zero nothing, add_zero]

end Sound

end Tableau

end Transversal
