/-
Solving an instance, with the algorithm of choice.

* `Outcome`: a cover, and how it was found; it is known to be optimal if it is as small as the
  lower bound.
* `solveGuided`: restarts guided by a fractional solution; `solveGuidedOn`: the same on random
  streams of any kind.
* `GuidedEnding`: what such a run may end with, however the restarts of a pool interleave.
* `solveLargest`: one greedy cover, pruned.
* `solve`: the algorithm with a given name.
-/
import Transversal.Cover.Largest
import Transversal.Fractional
import Transversal.Restart.Interleaving
import Transversal.Restart.Sequential
import Transversal.Stream.Seed

namespace Transversal

/-- The ways to find a cover. -/
inductive Algorithm
  | guided
  | largest
deriving DecidableEq

namespace Algorithm

/-- The name that an algorithm is asked for by. -/
def name : Algorithm → String
  | .guided => "lp-greedy"
  | .largest => "max-coverage"

/-- The name that a result bears. -/
def resultName : Algorithm → String
  | .guided => "lp_greedy"
  | .largest => "max_coverage"

instance : ToString Algorithm := ⟨name⟩

/-- All algorithms, the usual one first. -/
def all : List Algorithm := [.guided, .largest]

/-- The algorithm with a given name. -/
def ofName? (name : String) : Except Fault Algorithm :=
  match all.find? (·.name = name) with
  | some algorithm => .ok algorithm
  | none => .error (.value (.unknownAlgorithm name))

end Algorithm

/-- How many draws may be refused before a set is drawn in proportion to the activities. -/
def defaultMaxDraws : Int := 10000

/-- The options of the guided algorithm. Without a number of workers the restarts share one
stream; without a number of rounds there are as many as paths. -/
structure Options where
  seed : Int := 0
  maxRounds : Option Int := none
  workers : Option Int := none
  maxDraws : Int := defaultMaxDraws

/-- What is told of a run besides its cover. -/
inductive Details
  | guided (seed : Int) (workers : Option Int) (maxRounds : Int) (objective : Binary64)
      (activeCount : Nat) (sizes : List RoundSizes)
  | largest (constructedSize : Nat)
deriving DecidableEq

/-- A cover, and how it was found. -/
structure Outcome where
  algorithm : Algorithm
  cover : List Int
  lowerBound : Option Int
  rounds : Nat
  history : List (Nat × Nat)
  details : Details
deriving DecidableEq

namespace Outcome

/-- The number of sets in the cover. -/
def size (outcome : Outcome) : Nat := outcome.cover.length

/-- The cover is as small as the lower bound. -/
def isOptimal (outcome : Outcome) : Bool := outcome.lowerBound = some (outcome.size : Int)

end Outcome

/-- The fractional solution that guides a run, once all that the run needs has been checked. -/
def checkGuided (incidence : Incidence) (fractional : Option Fractional) (options : Options) :
    Except Fault Fractional := do
  let some fractional := fractional | throw (.value .noFractional)
  if let some workers := options.workers then
    if workers < 1 then throw (.value (.workers workers))
  if let some rounds := options.maxRounds then
    if rounds < 1 then throw (.value (.rounds rounds))
  fractional.agrees? incidence
  checkSupport incidence fractional.activities
  pure fractional

/-- The number of rounds that a run may take. -/
def Options.budget (options : Options) (incidence : Incidence) : Int :=
  options.maxRounds.getD incidence.pathCount

/-- What the rounds of a guided run share. -/
def guidedTask (incidence : Incidence) (fractional : Fractional) (options : Options) : Task :=
  ⟨incidence, fractional.activities, fractional.lowerBound, options.maxDraws⟩

/-- The outcome of a guided run that its restarts leave behind. -/
def guidedOutcome (incidence : Incidence) (fractional : Fractional) (options : Options)
    (result : RestartResult) : Outcome where
  algorithm := .guided
  cover := result.progress.cover
  lowerBound := some fractional.lowerBound
  rounds := result.progress.rounds
  history := result.progress.history
  details := .guided options.seed options.workers (options.budget incidence) fractional.objective
    fractional.activeCount result.sizes

/-- Restarts guided by a fractional solution, on random streams of any kind: on the stream at
hand, or for a pool of workers each on its own one. -/
def solveGuidedOn {σ : Type} [RandomStream σ] (streamAt : Nat → Except Fault σ)
    (incidence : Incidence) (fractional : Option Fractional) (options : Options) :
    Run σ Outcome := do
  let fractional ← Run.lift (checkGuided incidence fractional options)
  let task := guidedTask incidence fractional options
  let budget := (options.budget incidence).toNat
  let result ← match options.workers with
    | none => task.restart budget
    | some _ => task.restartPool streamAt budget
  pure (guidedOutcome incidence fractional options result)

/-- The streams that the restarts of a pool are given. -/
def Options.streamAt (options : Options) (index : Nat) : Except Fault Twister :=
  streamOf? options.seed index

/-- Restarts guided by a fractional solution. -/
def solveGuided (incidence : Incidence) (fractional : Option Fractional) (options : Options) :
    Run Twister Outcome :=
  solveGuidedOn options.streamAt incidence fractional options

/-- What a guided run may end with. On one stream there is no choice; the restarts of a pool may
interleave in any way. -/
inductive GuidedEnding {σ : Type} [RandomStream σ] (desk : Desk σ)
    (streamAt : Nat → Except Fault σ) (incidence : Incidence) (fractional : Option Fractional)
    (options : Options) : Except Fault Outcome → Prop
  | refused {fault} : checkGuided incidence fractional options = .error fault →
      GuidedEnding desk streamAt incidence fractional options (.error fault)
  | sequence {checked} : checkGuided incidence fractional options = .ok checked →
      options.workers = none →
      GuidedEnding desk streamAt incidence fractional options
        ((((guidedTask incidence checked options).restart
          (options.budget incidence).toNat).run.run desk).1.map
            (guidedOutcome incidence checked options))
  | pool {checked workers state result} : checkGuided incidence fractional options = .ok checked →
      options.workers = some workers →
      Interleaving.Reached checked.lowerBound
        ((guidedTask incidence checked options).roundAt streamAt) workers.toNat
        (options.budget incidence).toNat state →
      Interleaving.Ending (options.budget incidence).toNat state result →
      GuidedEnding desk streamAt incidence fractional options
        (result.map (guidedOutcome incidence checked options))

/-- The lower bound of a fractional solution that belongs to the relation, if there is one. -/
def boundOf? (incidence : Incidence) (fractional : Option Fractional) :
    Except Fault (Option Int) :=
  match fractional with
  | none => .ok none
  | some fractional => (fractional.agrees? incidence).map fun _ => some fractional.lowerBound

/-- The cover of sets that hit the most unhit paths, pruned in order. -/
def solveLargest (incidence : Incidence) (fractional : Option Fractional) :
    Except Fault Outcome := do
  let lowerBound ← boundOf? incidence fractional
  let constructed ← largestCover incidence
  let pruned ← pruned? incidence constructed
  pure {
    algorithm := .largest
    cover := pruned.members
    lowerBound
    rounds := 1
    history := [(1, pruned.size)]
    details := .largest constructed.size }

/-- A run of one of the algorithms. -/
def solveWith (algorithm : Algorithm) (incidence : Incidence) (fractional : Option Fractional)
    (options : Options) : Run Twister Outcome :=
  match algorithm with
  | .guided => solveGuided incidence fractional options
  | .largest => Run.lift (solveLargest incidence fractional)

/-- The outcome of a run from the beginning, and the events it reported. -/
def solve (algorithm : Algorithm) (incidence : Incidence) (fractional : Option Fractional)
    (options : Options) : Except Fault Outcome × Array Event :=
  let run := solveWith algorithm incidence fractional options
  let (outcome, desk) := run.run.run ⟨.ofSeed options.seed, #[]⟩
  (outcome, desk.events)

end Transversal
