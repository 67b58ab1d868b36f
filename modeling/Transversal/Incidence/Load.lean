/-
Loading an incidence relation, with a fractional solution it must agree with.

* `Incidence.load?`: the relation of a family of path lists; sizes that differ from those of the
  solution are found before anything else.
* `Incidence.loadEvents`: what loading reports.
-/
import Transversal.Fractional
import Transversal.Incidence.Coverage

namespace Transversal.Incidence

/-- How the sizes of a family of path lists and of a solution disagree. -/
def sizeMismatch? (sets : List (List Int)) (fractional : Fractional) : Option Mismatch :=
  let paths := Coverage.derivedPathCount sets
  if paths = fractional.pathCount ∧ sets.length = fractional.setCount then none
  else some (.derivedCounts paths sets.length fractional.pathCount fractional.setCount)

/-- The fault of a disagreement, unless a number of paths is too long to be told. -/
def mismatchFault (sets : List (List Int)) (fractional : Fractional) (difference : Mismatch) :
    Fault :=
  .quoting [Coverage.derivedPathCount sets, fractional.pathCount] (.mismatch difference)

/-- The relation of a family of path lists. -/
def load? (sets : List (List Int)) (fractional : Option Fractional) : Except Fault Incidence :=
  match fractional with
  | none => ofSets? sets none
  | some fractional =>
    match sizeMismatch? sets fractional with
    | some difference => .error (mismatchFault sets fractional difference)
    | none => ofSets? sets (some fractional.pathCount)

/-- What loading reports: the repeats it drops, and the sizes at the end. -/
def loadEvents (sets : List (List Int)) (fractional : Option Fractional) : List Event :=
  if (fractional.bind (sizeMismatch? sets)).isSome then []
  else
    duplicateEvents sets ++
      match load? sets fractional with
      | .ok incidence => [.loaded incidence.setCount incidence.pathCount]
      | .error _ => []

end Transversal.Incidence
