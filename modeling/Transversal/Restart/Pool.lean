/-
Restarts with a random stream each, for a pool of workers.

* `Pool.commit`: the update that a finished restart makes, under the lock of the pool.
* `Task.restartIndex`: a restart: it is skipped once the pool has reached the lower bound, and
  otherwise computes its round from its own stream and commits it.
* `Task.restartPool`: the restarts in the order of their indices, as a pool of one worker runs
  them.
-/
import Transversal.Restart.Progress

namespace Transversal

/-- What the restarts of a pool share: the progress, the sizes of the rounds by the index of the
restart, and whether the lower bound has been reached. -/
structure Pool where
  progress : Progress
  sizes : List (Nat × RoundSizes)
  finished : Bool
deriving DecidableEq

namespace Pool

/-- Before the first restart. -/
def start : Pool := ⟨.start, [], false⟩

/-- The update of the restart with a given index. -/
def commit (lowerBound : Int) (index : Nat) (round : Round) (pool : Pool) : Pool :=
  let progress := pool.progress.record round
  ⟨progress, pool.sizes ++ [(index, round.sizes)],
    pool.finished || progress.hasReached lowerBound⟩

/-- The sizes of the rounds in the order of the indices of their restarts. -/
def orderedSizes (pool : Pool) : List RoundSizes :=
  (pool.sizes.mergeSort fun first second => first.1 ≤ second.1).map (·.2)

/-- What the pool leaves behind. -/
def result (pool : Pool) : RestartResult := ⟨pool.progress, pool.orderedSizes⟩

end Pool

namespace Task

variable {σ : Type} [RandomStream σ]

/-- One restart. `streamAt` gives every restart its stream. -/
def restartIndex (task : Task) (streamAt : Nat → Except Fault σ) (index : Nat) (pool : Pool) :
    Run σ Pool := do
  if pool.finished then pure pool
  else
    Run.restartWith (← Run.lift (streamAt index))
    let round ← task.round
    (pool.progress.recordEvents task.lowerBound round).forM Run.report
    pure (pool.commit task.lowerBound index round)

/-- The restarts from an index on. -/
def restartIndices (task : Task) (streamAt : Nat → Except Fault σ) :
    (count index : Nat) → Pool → Run σ Pool
  | 0, _, pool => pure pool
  | count + 1, index, pool => do
    restartIndices task streamAt count (index + 1) (← task.restartIndex streamAt index pool)

/-- A run of `budget` restarts. -/
def restartPool (task : Task) (streamAt : Nat → Except Fault σ) (budget : Nat) :
    Run σ RestartResult := do
  pure (← task.restartIndices streamAt budget 0 .start).result

end Task

end Transversal
