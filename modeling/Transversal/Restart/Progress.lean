/-
What a run of restarts has achieved so far.

* `Round`: a cover grown at random, and what is left of it after pruning.
* `Progress.record`: one more round counted; its cover is kept if it is smaller than all before.
* `Progress.hasReached`: a cover as small as the lower bound was found.
-/
import Transversal.Cover.Pruned
import Transversal.Cover.Sampled

namespace Transversal

/-- The cover grown in a round, and the pruned one. -/
structure Round where
  constructed : Selection
  pruned : Selection

/-- The sizes of the two covers of a round. -/
structure RoundSizes where
  constructed : Nat
  pruned : Nat
deriving DecidableEq

def Round.sizes (round : Round) : RoundSizes := ⟨round.constructed.size, round.pruned.size⟩

/-- What every round of a run shares. -/
structure Task where
  incidence : Incidence
  activities : Array Binary64
  lowerBound : Int
  maxDraws : Int

/-- One round. -/
def Task.round {σ : Type} [RandomStream σ] (task : Task) : Run σ Round := do
  let constructed ← sampledCover task.incidence task.activities task.maxDraws
  let pruned ← prunedAtRandom task.incidence constructed
  pure ⟨constructed, pruned⟩

/-- The smallest cover so far, the number of rounds, and the rounds that made it smaller. -/
structure Progress where
  best : Option (List Int)
  rounds : Nat
  history : List (Nat × Nat)
deriving DecidableEq

namespace Progress

/-- Before the first round. -/
def start : Progress := ⟨none, 0, []⟩

/-- A cover of a given size would be smaller than the smallest so far. -/
def isImprovedBy (progress : Progress) (size : Nat) : Bool :=
  match progress.best with
  | none => true
  | some best => size < best.length

/-- One more round. -/
def record (progress : Progress) (round : Round) : Progress :=
  let rounds := progress.rounds + 1
  if progress.isImprovedBy round.pruned.size then
    ⟨some round.pruned.members, rounds, progress.history ++ [(rounds, round.pruned.size)]⟩
  else { progress with rounds := rounds }

/-- What one more round reports: whether it is an improvement. -/
def recordEvents (progress : Progress) (lowerBound : Int) (round : Round) : List Event :=
  if progress.isImprovedBy round.pruned.size then
    [.improved (progress.rounds + 1) round.pruned.size lowerBound]
  else []

/-- A cover has been found that is as small as the bound. -/
def hasReached (progress : Progress) (lowerBound : Int) : Bool :=
  match progress.best with
  | none => false
  | some best => best.length ≤ lowerBound

/-- The smallest cover so far, and none at all before the first round. -/
def cover (progress : Progress) : List Int := progress.best.getD []

end Progress

/-- What a run of restarts leaves behind: its progress, and the sizes of its rounds in order. -/
structure RestartResult where
  progress : Progress
  sizes : List RoundSizes
deriving DecidableEq

end Transversal
