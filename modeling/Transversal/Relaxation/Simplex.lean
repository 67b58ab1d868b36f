/-
An exact optimum of a covering program.

The dual program packs: it maximises the sum of a weight for every row, such that at every
variable the weights of its rows sum to at most one. Nothing packed is a solution of it, from
which the simplex method starts; Bland's rule keeps it from going round in circles. The reduced
costs at the end are an optimal covering.

* `Tableau.start`, `Tableau.step`: the tableau of the dual program, and one exchange in it.
* `exactOptimum?`: the values of the variables, and their sum; nothing if no covering exists.
-/
import Transversal.Relaxation.Program

namespace Transversal

/-- The rows of a tableau with their basic columns, and the row of reduced costs. The last entry
of a row is its right-hand side. -/
structure Tableau where
  rows : Array (Array Rat)
  basis : Array Nat
  costs : Array Rat

namespace Tableau

/-- The dual of a covering program: a column for every weight, then one for every slack. -/
def start (program : CoveringProgram) : Tableau :=
  let weights := program.rows.length
  let slacks := program.variableCount
  let row (index : Nat) : Array Rat :=
    (program.rows.map fun row => (CoveringProgram.coefficient row index : Rat)).toArray ++
      (Array.range slacks).map (fun slack => if slack = index then 1 else 0) ++ #[1]
  ⟨(Array.range slacks).map row, (Array.range slacks).map (weights + ·),
    Array.replicate weights 1 ++ Array.replicate (slacks + 1) 0⟩

/-- The right-hand side of a row. -/
def rightSide (row : Array Rat) : Rat := row.back?.getD 0

/-- The first column whose weight is worth raising. -/
def entering? (tableau : Tableau) : Option Nat :=
  tableau.costs.pop.findIdx? (0 < ·)

/-- A row that may leave the basis: its place, its basic column, and how far the entering column
may be raised before the row is exhausted. -/
structure Leaving where
  place : Nat
  basic : Nat
  limit : Rat

/-- The tighter of two rows; of two equally tight ones that with the smaller basic column. -/
def Leaving.tighter (first second : Leaving) : Leaving :=
  if second.limit < first.limit ∨ (second.limit = first.limit ∧ second.basic < first.basic) then
    second
  else first

/-- The row that is exhausted first. -/
def leaving? (tableau : Tableau) (column : Nat) : Option Leaving :=
  let candidates := (tableau.rows.toList.zip tableau.basis.toList).zipIdx.filterMap
    fun ((row, basic), place) =>
      let entry := row.getD column 0
      if 0 < entry then some (Leaving.mk place basic (rightSide row / entry)) else none
  match candidates with
  | [] => none
  | first :: rest => some (rest.foldl Leaving.tighter first)

/-- A row with a multiple of another one taken off. -/
def eliminate (column : Nat) (pivot row : Array Rat) : Array Rat :=
  let factor := row.getD column 0
  if factor = 0 then row else Array.zipWith (fun entry other => entry - factor * other) row pivot

/-- A column brought into the basis in place of that of a row. -/
def exchange (tableau : Tableau) (column place : Nat) : Tableau :=
  let chosen := tableau.rows.getD place #[]
  let scale := chosen.getD column 1
  let pivot := chosen.map (· / scale)
  ⟨tableau.rows.mapIdx fun index row =>
      if index = place then pivot else eliminate column pivot row,
    tableau.basis.setIfInBounds place column, eliminate column pivot tableau.costs⟩

/-- What one step of the method finds. -/
inductive Step
  | optimal
  | unbounded
  | exchanged (next : Tableau)

/-- One step: the first column worth raising enters. -/
def step (tableau : Tableau) : Step :=
  match tableau.entering? with
  | none => .optimal
  | some column =>
    match tableau.leaving? column with
    | none => .unbounded
    | some leaving => .exchanged (tableau.exchange column leaving.place)

/-- At most `steps` exchanges. Nothing is returned if the packing can be raised without end. -/
def run? : (steps : Nat) → Tableau → Option Tableau
  | 0, tableau => some tableau
  | steps + 1, tableau =>
    match tableau.step with
    | .optimal => some tableau
    | .unbounded => none
    | .exchanged next => run? steps next

end Tableau

/-- The values of the variables in an optimal covering, and their sum. -/
structure ExactSolution where
  values : List Rat
  optimum : Rat
deriving DecidableEq

/-- An optimal covering; nothing if there is no covering. No basis is met twice, and there are no
more of them than subsets of the columns. -/
def exactOptimum? (program : CoveringProgram) : Option ExactSolution := do
  let weights := program.rows.length
  let tableau ← (Tableau.start program).run? (Nat.pow 2 (weights + program.variableCount))
  let values := (List.range program.variableCount).map fun index =>
    -(tableau.costs.getD (weights + index) 0)
  some ⟨values, -(Tableau.rightSide tableau.costs)⟩

end Transversal
