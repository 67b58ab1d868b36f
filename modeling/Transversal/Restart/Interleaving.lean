/-
Restarts of a pool with any number of workers, interleaved in any order.

* `Task.roundAt`: the round of the restart with a given index, on its own stream.
* `Phase`: how far a restart has come; `Interleaving`: the phases of all restarts, and what they
  share.
* `Interleaving.Step`: a restart looks at the flag, computes its round, or commits it under the
  lock, and the pool gives up after a fault.
* `Interleaving.Reached`: what the steps lead to from the beginning; `Interleaving.Queued`: the same
  for a single worker that takes the restarts in the order of their indices.
* `Interleaving.Ending`: what the pool leaves behind once every restart has ended.
-/
import Transversal.Restart.Pool

namespace Transversal

/-- The round of one restart. It depends on nothing but the task and the stream. -/
def Task.roundAt {σ : Type} [RandomStream σ] (task : Task) (streamAt : Nat → Except Fault σ)
    (index : Nat) : Except Fault Round := do
  (task.round.run.run ⟨← streamAt index, #[]⟩).1

/-- How far a restart has come. -/
inductive Phase
  /-- It has not looked at the flag. -/
  | waiting
  /-- It has seen that the bound was not reached. -/
  | admitted
  /-- Its round is done and not yet counted. -/
  | computed (round : Round)
  /-- Its round is counted. -/
  | committed
  /-- It has seen that the bound was reached. -/
  | skipped
  /-- It has met a fault. -/
  | failed (fault : Fault)

namespace Phase

/-- A worker is busy with the restart. -/
def isActive : Phase → Bool
  | .admitted | .computed _ => true
  | _ => false

/-- Nothing is left to do for the restart. -/
def hasEnded : Phase → Bool
  | .committed | .skipped | .failed _ => true
  | _ => false

end Phase

/-- Where the restarts of a pool stand, what they share, and the improvements reported so far. -/
structure Interleaving where
  phase : Nat → Phase
  pool : Pool
  reports : List Event

namespace Interleaving

/-- Before the first step. -/
def start : Interleaving := ⟨fun _ => .waiting, .start, []⟩

/-- One restart in another phase. -/
def move (index : Nat) (phase : Phase) (state : Interleaving) : Interleaving :=
  { state with phase := fun other => if other = index then phase else state.phase other }

/-- The locked update of a restart: its round is committed, and an improvement reported. -/
def commit (lowerBound : Int) (index : Nat) (round : Round) (state : Interleaving) :
    Interleaving :=
  { state.move index .committed with
    pool := state.pool.commit lowerBound index round
    reports := state.reports ++ state.pool.progress.recordEvents lowerBound round }

/-- The flag raised after a fault, so that no more restarts begin. -/
def giveUp (state : Interleaving) : Interleaving :=
  { state with pool := { state.pool with finished := true } }

/-- The number of workers that are busy. -/
def activeCount (budget : Nat) (state : Interleaving) : Nat :=
  (List.range budget).countP fun index => (state.phase index).isActive

/-- Every restart has ended. -/
def HasEnded (budget : Nat) (state : Interleaving) : Prop :=
  ∀ index < budget, (state.phase index).hasEnded

variable (lowerBound : Int) (outcome : Nat → Except Fault Round) (workers budget : Nat)

/-- One step of one restart. Any restart that waits may begin as long as a worker is free. -/
inductive Step : Interleaving → Interleaving → Prop
  | enter {state index} : index < budget → state.phase index = .waiting →
      state.activeCount budget < workers → state.pool.finished = false →
      Step state (state.move index .admitted)
  | skip {state index} : index < budget → state.phase index = .waiting →
      state.activeCount budget < workers → state.pool.finished = true →
      Step state (state.move index .skipped)
  | compute {state index round} : state.phase index = .admitted → outcome index = .ok round →
      Step state (state.move index (.computed round))
  | fail {state index fault} : state.phase index = .admitted → outcome index = .error fault →
      Step state (state.move index (.failed fault))
  | commit {state index round} : state.phase index = .computed round →
      Step state (state.commit lowerBound index round)
  | giveUp {state index fault} : state.phase index = .failed fault →
      state.pool.finished = false → Step state state.giveUp

/-- What a run of the pool leads to. -/
inductive Reached : Interleaving → Prop
  | start : Reached start
  | step {state next} : Reached state → Step lowerBound outcome workers budget state next →
      Reached next

/-- No restart has begun before one with a smaller index. -/
def BeginsInOrder (state : Interleaving) : Prop :=
  ∀ earlier later, earlier < later → state.phase earlier = .waiting → state.phase later = .waiting

/-- What a run of the pool leads to if a single worker takes the restarts in the order of their
indices. -/
inductive Queued : Interleaving → Prop
  | start : Queued start
  | step {state next} : Queued state → Step lowerBound outcome 1 budget state next →
      next.BeginsInOrder → Queued next

/-- What the pool leaves behind: the fault of a restart, or its result if none met a fault. -/
inductive Ending (state : Interleaving) : Except Fault RestartResult → Prop
  | finished : state.HasEnded budget →
      (∀ index < budget, ∀ fault, state.phase index ≠ .failed fault) →
      Ending state (.ok state.pool.result)
  | failed {index fault} : state.HasEnded budget → index < budget →
      state.phase index = .failed fault → Ending state (.error fault)

end Interleaving

end Transversal
