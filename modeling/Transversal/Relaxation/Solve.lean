/-
The fractional solution of the relaxation of an incidence relation.

* `Optimizer`: anything that answers a covering program.
* `exactOptimizer`: the one in use, which rounds an exact optimum to doubles.
* `activitiesOf`: the activities that the values of the variables make.
* `relax`: the fractional solution that an optimizer's answer makes.
-/
import Transversal.Fractional
import Transversal.Relaxation.Simplex

namespace Transversal

/-- The answer to a covering program: the values of its variables and their total, as far as they
are told, or why there are none. -/
inductive Verdict
  | optimal (values : Nat → Option Binary64) (objective : Option Binary64)
  | failed (status : String)

/-- Anything that answers covering programs. -/
abbrev Optimizer := CoveringProgram → Verdict

/-- The double nearest to a fraction. -/
def Binary64.ofRat (value : Rat) : Binary64 :=
  .nearest (value.num < 0) (value.num.natAbs * Magnitude.one) value.den

/-- An exact optimum, rounded. -/
def exactOptimizer : Optimizer := fun program =>
  match exactOptimum? program with
  | some solution =>
    .optimal (fun index => solution.values[index]?.map .ofRat) (some (.ofRat solution.optimum))
  | none => .failed "Infeasible"

/-- A value that is told, except that a zero of either sign counts as the positive one, and so does
a value that is not told. -/
def Binary64.orZero : Option Binary64 → Binary64
  | none => .zero
  | some value => if value.units? = some 0 then .zero else value

/-- The activities of so many sets. -/
def activitiesOf (setCount : Nat) (values : Nat → Option Binary64) : List Binary64 :=
  (List.range setCount).map fun set => Binary64.orZero (values set)

/-- What solving a relaxation reports. -/
def relaxEvents (incidence : Incidence) : Verdict → List Event
  | .optimal _ objective =>
    [.relaxed incidence.setCount incidence.pathCount (Binary64.orZero objective)]
  | .failed _ => []

/-- The fractional solution that an answer makes. -/
def ofVerdict? (incidence : Incidence) : Verdict → Except Fault Fractional
  | .optimal values objective =>
    Fractional.ofActivities? (activitiesOf incidence.setCount values) incidence.pathCount
      (some (Binary64.orZero objective))
  | .failed status => .error (.relaxation status)

/-- The fractional solution of the relaxation of a relation, and what solving it reports. -/
def relax (optimizer : Optimizer) (incidence : Incidence) :
    Except Fault Fractional × List Event :=
  match CoveringProgram.ofIncidence? incidence with
  | .error fault => (.error fault, [])
  | .ok program =>
    let verdict := optimizer program
    (ofVerdict? incidence verdict, relaxEvents incidence verdict)

/-- How far the activities of a path may fall short of one. -/
def feasibilitySlack : Binary64 := .ofDecimal false ⟨1, -6⟩

/-- Whether the activities of the sets of a path sum to one, up to the slack. -/
def hitsFractionally (fractional : Fractional) (hitting : List Int) : Bool :=
  let shares := hitting.map fun set => (entryAt? fractional.activities set).getD .zero
  (Binary64.ofInt 1 - feasibilitySlack).le (Binary64.addAll .zero shares)

/-- Whether a fractional solution hits every path. -/
def Fractional.isFeasible (fractional : Fractional) (incidence : Incidence) : Bool :=
  incidence.paths.all (hitsFractionally fractional)

end Transversal
