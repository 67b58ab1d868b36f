/-
Fractional solutions of the covering relaxation.

* `Fractional.make?`: a solution whose activities lie in the unit interval and add up to its
  objective value, both up to a tolerance.
* `Fractional.lowerBound`: the sum of the activities rounded up, which no cover can be smaller
  than if the solution is optimal.
* `Fractional.agrees?`: whether it belongs to an incidence relation.
-/
import Transversal.Incidence
import Transversal.Number.PairwiseSum

namespace Transversal

/-- The double nearest to one thousandth: how far an activity may lie outside the unit interval,
and how far the sum may be from the objective value. -/
def activityTolerance : Binary64 := .ofDecimal false ⟨1, -3⟩

/-- What is taken off the sum of the activities before it is rounded up. -/
def roundingSlack : Binary64 := .ofDecimal false ⟨1, -9⟩

/-- A fractional solution: an activity for every set. -/
structure Fractional where
  pathCount : Int
  objective : Binary64
  activities : Array Binary64
deriving DecidableEq

namespace Fractional

/-- Finite, and in the unit interval up to the tolerance. -/
def isActivity (activity : Binary64) : Bool :=
  activity.isFinite && !activity.lt (-activityTolerance) &&
    !(Binary64.ofInt 1 + activityTolerance).lt activity

/-- The first entry that is no activity, with its set. -/
def firstBad? (activities : List Binary64) : Option (Nat × Binary64) :=
  activities.zipIdx.findSome? fun (activity, set) =>
    if isActivity activity then none else some (set, activity)

/-- A solution from its parts. The checks are made in this order: the number of activities, their
range, the objective value, and the sum. -/
def make? (pathCount setCount : Int) (objective : Binary64) (activities : List Binary64) :
    Except Fault Fractional := do
  if setCount ≠ activities.length then
    throw (.quoting [setCount] (.report (.activityCount setCount activities.length)))
  if let some (set, activity) := firstBad? activities then
    throw (.report (.activityRange set activity))
  if !objective.isFinite then
    throw (.report (.objectiveNotFinite objective))
  let sum := Binary64.sum activities
  if activityTolerance.le (discrepancy sum objective) then
    throw (.inconsistent sum objective)
  pure ⟨pathCount, objective, activities.toArray⟩

/-- A solution from its activities; the objective value is their sum, unless it is given. -/
def ofActivities? (activities : List Binary64) (pathCount : Int) (objective : Option Binary64) :
    Except Fault Fractional :=
  make? pathCount activities.length (objective.getD (Binary64.sum activities)) activities

/-- The number of sets. -/
def setCount (fractional : Fractional) : Nat := fractional.activities.size

/-- The sum of the activities. -/
def sum (fractional : Fractional) : Binary64 := Binary64.sum fractional.activities.toList

/-- The sum of the activities, less the slack, rounded up. -/
def lowerBound (fractional : Fractional) : Int :=
  ((fractional.sum - roundingSlack).ceil?).getD 0

/-- The number of sets with a positive activity. -/
def activeCount (fractional : Fractional) : Nat :=
  fractional.activities.toList.countP Binary64.isPositive

/-- The solution and the relation have as many paths and sets. -/
def agrees? (fractional : Fractional) (incidence : Incidence) : Except Fault Unit :=
  if (incidence.pathCount : Int) ≠ fractional.pathCount then
    .error (.quoting [fractional.pathCount]
      (.mismatch (.pathCounts incidence.pathCount fractional.pathCount)))
  else if incidence.setCount ≠ fractional.setCount then
    .error (.mismatch (.setCounts incidence.setCount fractional.setCount))
  else .ok ()

/-- What reading a report tells of the solution. -/
def readEvent (fractional : Fractional) : Event :=
  .reportRead fractional.pathCount fractional.setCount fractional.activeCount
    fractional.objective fractional.lowerBound

end Fractional

end Transversal
