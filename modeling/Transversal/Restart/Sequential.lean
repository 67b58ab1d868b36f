/-
Restarts one after the other, on one random stream.

* `Task.restartOnce`: one round, recorded.
* `Task.restart`: rounds until the lower bound is reached or the budget is spent.
-/
import Transversal.Restart.Progress

namespace Transversal.Task

variable {σ : Type} [RandomStream σ]

/-- One round, recorded. -/
def restartOnce (task : Task) (result : RestartResult) : Run σ RestartResult := do
  let round ← task.round
  (result.progress.recordEvents task.lowerBound round).forM Run.report
  pure ⟨result.progress.record round, result.sizes ++ [round.sizes]⟩

/-- At most `budget` more rounds; none after one that reached the lower bound. -/
def restartFrom (task : Task) : (budget : Nat) → RestartResult → Run σ RestartResult
  | 0, result => pure result
  | budget + 1, result => do
    if result.progress.hasReached task.lowerBound then pure result
    else restartFrom task budget (← task.restartOnce result)

/-- A run of at most `budget` rounds. -/
def restart (task : Task) (budget : Nat) : Run σ RestartResult :=
  task.restartFrom budget ⟨.start, []⟩

end Transversal.Task
