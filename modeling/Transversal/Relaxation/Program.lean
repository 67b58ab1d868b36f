/-
The covering program of an incidence relation.

* `CoveringProgram.ofIncidence?`: a variable for every set and a row for every path, which asks
  the variables of the sets that hit it to sum to at least one.
* `CoveringProgram.IsFeasible`, `CoveringProgram.IsOptimum`: what a solution is, and the least
  total of one.
* `CoveringProgram.IsBounded`, `CoveringProgram.IsBoundedOptimum`: the same with every variable in
  the unit interval, as an optimizer is asked for it.
-/
import Transversal.Incidence

namespace Transversal

/-- Minimise the sum of the variables, none of them negative, such that in every row the variables
named sum to at least one. A variable named twice counts twice. -/
structure CoveringProgram where
  variableCount : Nat
  rows : List (List Nat)
deriving DecidableEq

namespace CoveringProgram

/-- The variable of a set. -/
def variableOf? (count : Nat) (set : Int) : Except Fault Nat :=
  match place? count set with
  | some index => .ok index
  | none => .error (BadIndex.inList.fault set)

/-- The program of a relation. -/
def ofIncidence? (incidence : Incidence) : Except Fault CoveringProgram := do
  let rows ← incidence.paths.toList.mapM fun hitting =>
    hitting.mapM (variableOf? incidence.setCount)
  pure ⟨incidence.setCount, rows⟩

/-- The sum of the variables that a row names. -/
def rowSum (values : Nat → Rat) (row : List Nat) : Rat :=
  row.foldr (fun index sum => values index + sum) 0

/-- The sum of all variables. -/
def total (program : CoveringProgram) (values : Nat → Rat) : Rat :=
  rowSum values (List.range program.variableCount)

/-- No variable is negative, and every row sums to at least one. -/
def IsFeasible (program : CoveringProgram) (values : Nat → Rat) : Prop :=
  (∀ index, 0 ≤ values index) ∧ ∀ row ∈ program.rows, 1 ≤ rowSum values row

/-- The least total of a feasible solution. -/
def IsOptimum (program : CoveringProgram) (optimum : Rat) : Prop :=
  (∃ values, program.IsFeasible values ∧ program.total values = optimum) ∧
    ∀ values, program.IsFeasible values → optimum ≤ program.total values

/-- A solution with no variable above one. -/
def IsBounded (program : CoveringProgram) (values : Nat → Rat) : Prop :=
  program.IsFeasible values ∧ ∀ index, values index ≤ 1

/-- The least total of such a solution. -/
def IsBoundedOptimum (program : CoveringProgram) (optimum : Rat) : Prop :=
  (∃ values, program.IsBounded values ∧ program.total values = optimum) ∧
    ∀ values, program.IsBounded values → optimum ≤ program.total values

/-- How often a row names a variable. -/
def coefficient (row : List Nat) (index : Nat) : Nat := row.count index

end CoveringProgram

end Transversal
