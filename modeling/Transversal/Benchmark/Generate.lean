/-
Random incidence relations in which every path is hit.

* `drawSet`: the paths of a set, each with the same chance.
* `repair`: a path that no set hits is given to one set.
* `generate`: the relation of the repaired sets.
-/
import Transversal.Cover.Sampled

namespace Transversal.Benchmark

variable {σ : Type} [RandomStream σ]

/-- The paths from zero up, as many as stated; none for a negative number. -/
def pathsUpTo (count : Int) : List Int := (List.range count.toNat).map Int.ofNat

/-- The paths of one set: each is hit if a random fraction is below the density. -/
def drawSet (pathCount : Int) (density : Binary64) : Run σ (List Int) :=
  (pathsUpTo pathCount).filterM fun _ => do pure ((← drawFraction).lt density)

/-- The paths of so many sets. -/
def drawSets (pathCount : Int) (density : Binary64) : (setCount : Nat) → Run σ (List (List Int))
  | 0 => pure []
  | setCount + 1 => do
    let first ← drawSet pathCount density
    pure (first :: (← drawSets pathCount density setCount))

/-- A path given to a random set, if no set hits it. -/
def repairPath (sets : List (List Int)) (path : Int) : Run σ (List (List Int)) := do
  if sets.any (·.contains path) then pure sets
  else pure (sets.modify (← Run.drawPlace sets.length) (· ++ [path]))

/-- Every path that no set hits given to a random set, one after the other. -/
def repair (pathCount : Int) (sets : List (List Int)) : Run σ (List (List Int)) :=
  (pathsUpTo pathCount).foldlM repairPath sets

/-- A random relation. -/
def generate (pathCount setCount : Int) (density : Binary64) : Run σ Incidence := do
  let drawn ← drawSets pathCount density setCount.toNat
  let repaired ← repair pathCount drawn
  Run.lift (Incidence.ofSets? (repaired.map (·.mergeSort fun first second => first ≤ second)) none)

end Transversal.Benchmark
