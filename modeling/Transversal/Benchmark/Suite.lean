/-
A suite of benchmark runs over random instances.

* `Plan`: the sizes, densities and algorithms to be tried, and how often.
* `Record`: what one run gave.
* `runSuite`: all runs of a plan, with the lines they print.
-/
import Transversal.Benchmark.Generate
import Transversal.Given
import Transversal.Relaxation.Solve
import Transversal.Solver

namespace Transversal.Benchmark

/-- What is run. -/
structure Plan where
  pathCounts : List Int
  setCounts : List Int
  densities : List Binary64
  algorithms : List String
  trials : Given Int
  workers : Option (Given Int)
  seed : Int

/-- What a run is judged by. -/
structure Result where
  algorithm : String
  runtime : Binary64
  size : Int
  lowerBound : Int
  optimal : Bool
  valid : Bool
  trial : Int
  config : String
deriving DecidableEq

/-- The difference between the size of a cover and the lower bound. -/
def Result.gap (result : Result) : Int := result.size - result.lowerBound

/-- What one run gave, and the instance it was made on. -/
structure Record extends Result where
  rounds : Nat
  pathCount : Int
  setCount : Int
  density : Binary64
deriving DecidableEq

/-- One size and density. -/
structure Configuration where
  pathCount : Int
  setCount : Int
  density : Binary64
deriving DecidableEq

/-- The name of a configuration. -/
def Configuration.name (config : Configuration) : String :=
  s!"{config.pathCount}x{config.setCount}_d{config.density.toFixed 2}"

/-- All configurations of a plan, the densities varying fastest. -/
def Plan.configurations (plan : Plan) : List Configuration :=
  plan.pathCounts.flatMap fun pathCount =>
    plan.setCounts.flatMap fun setCount =>
      plan.densities.map fun density => ⟨pathCount, setCount, density⟩

/-- A line that a suite prints. -/
inductive Line
  | heading (configurations algorithms : Nat) (trials : Given Int)
  | configuration (number total : Nat) (config : Configuration)
  | result (record : Record)
  | blank

/-- A line as text. `showTime` writes a run time. -/
def Line.text (showTime : Binary64 → String) : Line → String
  | .heading configurations algorithms trials =>
    s!"Running benchmark suite: {configurations} configurations × " ++
      s!"{algorithms} algorithms × {trials.text} trials"
  | .configuration number total config =>
    s!"[{number}/{total}] {config.pathCount} paths × {config.setCount} sets, " ++
      s!"density={config.density.toFixed 2}"
  | .result record =>
    s!"  {record.algorithm}: {showTime record.runtime}s " ++
      s!"(size={record.size}, bound={record.lowerBound})"
  | .blank => ""

/-- What a suite consists of besides its plan: how relaxations are solved, and how long each run
takes. -/
structure Setting where
  relax : Incidence → Except Fault Fractional × List Event
  runtime : Nat → Binary64

/-- The setting with exact relaxations. -/
def Setting.exact (runtime : Nat → Binary64) : Setting :=
  ⟨Transversal.relax exactOptimizer, runtime⟩

/-- The setting in which every set has the same activity. -/
def Setting.uniform (activity : Binary64) (runtime : Nat → Binary64) : Setting :=
  ⟨fun incidence =>
    (Fractional.ofActivities? (List.replicate incidence.setCount activity) incidence.pathCount
      none, []), runtime⟩

/-- Where a suite stands: its random stream, and what it has reported, printed and recorded. -/
structure State where
  desk : Desk Twister
  lines : Array Line
  records : Array Record

/-- A part of a suite. -/
abbrev Suite := ExceptT Fault (StateM State)

/-- A line printed. -/
def print (line : Line) : Suite Unit :=
  modify fun state => { state with lines := state.lines.push line }

/-- Events reported by a part that keeps no stream. -/
def reportAll (events : List Event) : Suite Unit :=
  modify fun state =>
    { state with desk := { state.desk with events := state.desk.events ++ events } }

/-- A result that may be a fault. -/
def lift {α : Type} (result : Except Fault α) : Suite α := ExceptT.mk (pure result)

/-- A computation on the stream of the suite. -/
def onStream {α : Type} (run : Run Twister α) : Suite α := do
  let state ← get
  let (outcome, desk) := run.run.run state.desk
  set { state with desk }
  lift outcome

/-- The options of a run: only the guided algorithm takes the number of workers, which must then
not be blank. -/
def Plan.options? (plan : Plan) (algorithm : Algorithm) (trial : Nat) : Except Fault Options :=
  let plain : Options := { seed := plan.seed + trial }
  match algorithm, plan.workers with
  | .guided, some workers => do pure { plain with workers := some (← workers.require .count) }
  | _, _ => .ok plain

/-- One algorithm on one instance. -/
def runAlgorithm (plan : Plan) (setting : Setting) (config : Configuration) (trial : Nat)
    (incidence : Incidence) (fractional : Fractional) (name : String) : Suite Unit := do
  let algorithm ← lift (Algorithm.ofName? name)
  let options ← lift (plan.options? algorithm trial)
  let (outcome, events) := solve algorithm incidence (some fractional) options
  reportAll events.toList
  let outcome ← lift outcome
  let valid ← lift (incidence.isCover? outcome.cover)
  let record : Record := {
    algorithm := name
    runtime := setting.runtime (← get).records.size
    size := outcome.size
    lowerBound := fractional.lowerBound
    optimal := outcome.isOptimal
    valid
    trial
    config := config.name
    rounds := outcome.rounds
    pathCount := config.pathCount
    setCount := config.setCount
    density := config.density }
  modify fun state => { state with records := state.records.push record }
  print (.result record)

/-- All algorithms on one random instance. -/
def runTrial (plan : Plan) (setting : Setting) (config : Configuration) (trial : Nat) :
    Suite Unit := do
  let incidence ← onStream (generate config.pathCount config.setCount config.density)
  let (fractional, events) := setting.relax incidence
  reportAll events
  let fractional ← lift fractional
  plan.algorithms.forM (runAlgorithm plan setting config trial incidence fractional)

/-- All trials of one configuration. -/
def runConfiguration (plan : Plan) (setting : Setting) (total : Nat) (config : Configuration)
    (number : Nat) : Suite Unit := do
  print (.configuration number total config)
  let trials ← lift (plan.trials.require .trials)
  (List.range trials.toNat).forM (runTrial plan setting config)
  print .blank

/-- All configurations of a plan. -/
def runPlan (plan : Plan) (setting : Setting) : Suite Unit := do
  let total := plan.configurations.length
  print (.heading total plan.algorithms.length plan.trials)
  print .blank
  (plan.configurations.zipIdx 1).forM fun (config, number) =>
    runConfiguration plan setting total config number

/-- Where a suite ends, and why if it could not be completed. -/
def runSuite (plan : Plan) (setting : Setting) : Except Fault Unit × State :=
  (runPlan plan setting).run.run ⟨⟨.ofSeed plan.seed, #[]⟩, #[], #[]⟩

end Transversal.Benchmark
