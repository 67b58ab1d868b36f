/-
The solver as a command.

* `SolveCommand.parse`: the settings that the arguments ask for.
* `SolveCommand.attempt`: the solver at work on two files; `SolveCommand.Attempt.report`: what the
  command makes of it.
* `SolveCommand.run`: what the command prints, and how it ends.
-/
import Transversal.CommandLine.Arguments
import Transversal.Folder
import Transversal.Fractional.Report
import Transversal.Incidence.Load
import Transversal.Solver

namespace Transversal

/-- The fractional solution reported in a file. -/
def readReport (folder : Folder) (name : Given String) : Except Fault Fractional := do
  let name ← name.require .path
  Report.read? name (.ofBytes (← folder.open? name))

/-- The path lists in a file. -/
def readCoverage (folder : Folder) (name : Given String) : Except Fault (List (List Int)) := do
  let name ← name.require .path
  Coverage.read? name (.ofBytes (← folder.open? name))

namespace SolveCommand

open CommandLine

/-- The name of the command. -/
def name : String := "hitset-solver"

def usage : String :=
  "usage: hitset-solver [-h] [--workers WORKERS] [--max-rounds MAX_ROUNDS]\n" ++
  "                     [--algorithm \x7blp-greedy,max-coverage\x7d] [-v]\n" ++
  "                     sets lp_solution [seed]\n"

def help : String := usage ++
  "\nLP-guided randomized greedy solver for hitting set instances\n" ++
  "\npositional arguments:\n" ++
  "  sets                  Coverage file, one line of path indices per set\n" ++
  "  lp_solution           LP relaxation report of the instance\n" ++
  "  seed                  Random seed for a reproducible run\n" ++
  "\noptions:\n" ++
  "  -h, --help            show this help message and exit\n" ++
  "  --workers WORKERS     Run restarts on this many threads\n" ++
  "  --max-rounds MAX_ROUNDS\n" ++
  "                        Restart budget (default: number of paths)\n" ++
  "  --algorithm \x7blp-greedy,max-coverage\x7d\n" ++
  "                        Algorithm to use\n" ++
  "  -v, --verbose         Log progress details\n"

/-- The options of the command. -/
inductive Setting
  | help | workers | maxRounds | algorithm | verbose
deriving DecidableEq

def Setting.flag : Setting → Flag
  | .help => ⟨["-h", "--help"], .none⟩
  | .workers => ⟨["--workers"], .one⟩
  | .maxRounds => ⟨["--max-rounds"], .one⟩
  | .algorithm => ⟨["--algorithm"], .one⟩
  | .verbose => ⟨["-v", "--verbose"], .none⟩

def Setting.all : List Setting := [.help, .workers, .maxRounds, .algorithm, .verbose]

def coverageArgument : Positional := ⟨"sets", true⟩
def reportArgument : Positional := ⟨"lp_solution", true⟩
def seedArgument : Positional := ⟨"seed", false⟩

def grammar : Grammar :=
  ⟨Setting.all.map Setting.flag, [coverageArgument, reportArgument, seedArgument]⟩

/-- The settings of the command. -/
structure Settings where
  coverage : Given String := .blank
  report : Given String := .blank
  seed : Option Int := none
  workers : Option (Given Int) := none
  maxRounds : Option (Given Int) := none
  algorithm : Given Algorithm := .value .guided
  verbose : Bool := false
deriving DecidableEq

/-- A whole number that is not below a bound. -/
def readBounded (title kind domain : String) (bound : Int) (text : String) : Except Stop Int :=
  match readInteger? text.toList with
  | none => .error (.problem (.badValue title kind text))
  | some value =>
    if value < bound then .error (.problem (.badDomain title domain text)) else .ok value

def readPositive (title text : String) : Except Stop Int :=
  readBounded title "_positive_int" "a positive integer" 1 text

def readSeed (title text : String) : Except Stop Int :=
  readBounded title "_non_negative_int" "a non-negative integer" 0 text

/-- An algorithm by its name. -/
def readAlgorithm (title text : String) : Except Stop Algorithm :=
  match Algorithm.ofName? text with
  | .ok algorithm => .ok algorithm
  | .error _ => .error (.problem (.badChoice title text (Algorithm.all.map Algorithm.name)))

/-- A setting with its value. -/
def applyFlag (settings : Settings) (setting : Setting) (values : List String) :
    Except Stop Settings := do
  let title := setting.flag.title
  match setting with
  | .help => throw .help
  | .workers => pure { settings with workers := some (← givenOf values (readPositive title)) }
  | .maxRounds => pure { settings with maxRounds := some (← givenOf values (readPositive title)) }
  | .algorithm => pure { settings with algorithm := ← givenOf values (readAlgorithm title) }
  | .verbose => pure { settings with verbose := true }

/-- An option or a positional argument met. -/
def applyUse (settings : Settings) : Use → Except Stop Settings
  | .option flag values =>
    match Setting.all.find? (·.flag = flag) with
    | some setting => applyFlag settings setting values
    | none => .ok settings
  | .positional positional values => do
    if positional = coverageArgument then
      pure { settings with coverage := ← givenOf values .ok }
    else if positional = reportArgument then
      pure { settings with report := ← givenOf values .ok }
    else match ← givenOf values (readSeed seedArgument.name) with
      | .blank => pure settings
      | .value seed => pure { settings with seed := some seed }

/-- The settings that the arguments ask for. -/
def parse (arguments : List String) : Except Stop Settings :=
  (grammar.read arguments).settle applyUse {}

/-- How the command ends: with a status, or with a fault that it does not handle. -/
inductive Ending
  | status (code : Nat)
  | fault (fault : Fault)
deriving DecidableEq

/-- What the command does: the lines it prints, the events it logs, what it writes to the error
stream, and how it ends. -/
structure Report where
  output : String
  events : List Event
  errors : String
  ending : Ending

/-- Faults that are shown to the user. All others end the command at once. -/
def isHandled : Fault → Bool
  | .value _ | .blank _ | .overflow _ | .outOfMemory | .index _ | .noRecords => false
  | _ => true

/-- A run up to its end. -/
structure Attempt where
  outcome : Except Fault Outcome
  events : List Event

/-- The algorithm and the options that the settings ask for. Only the guided algorithm takes
numbers of workers and rounds, which must then not be blank. -/
def Settings.order? (settings : Settings) : Except Fault (Algorithm × Options) :=
  let plain : Options := { seed := settings.seed.getD 0 }
  match settings.algorithm with
  | .blank => .error (.value (.unknownAlgorithm settings.algorithm.text))
  | .value .largest => .ok (.largest, plain)
  | .value .guided => do
    let workers ← settings.workers.mapM (Given.require .count)
    let maxRounds ← settings.maxRounds.mapM (Given.require .count)
    pure (.guided, { plain with workers, maxRounds })

/-- The solver at work on two files. The report is read before the coverage file. -/
def attempt (folder : Folder) (settings : Settings) : Attempt :=
  match readReport folder settings.report with
  | .error fault => ⟨.error fault, []⟩
  | .ok fractional =>
    let read := [fractional.readEvent]
    match readCoverage folder settings.coverage with
    | .error fault => ⟨.error fault, read⟩
    | .ok sets =>
      let loaded := read ++ Incidence.loadEvents sets (some fractional)
      match Incidence.load? sets (some fractional) with
      | .error fault => ⟨.error fault, loaded⟩
      | .ok incidence =>
        match settings.order? with
        | .error fault => ⟨.error fault, loaded⟩
        | .ok (algorithm, options) =>
          let (outcome, events) := solve algorithm incidence (some fractional) options
          ⟨outcome, loaded ++ events.toList⟩

/-- The line for an improvement: its round, its size and the lower bound. -/
def improvementLine : Nat × Nat × Int → String
  | (round, size, lowerBound) =>
    s!"best solution after {round} rounds: {size} (lower bound is {lowerBound})"

/-- The lines for a cover. -/
def coverLines (outcome : Outcome) : List String :=
  let bound := match outcome.lowerBound with
    | some bound => toString bound
    | none => "None"
  [ s!"Best solution after {outcome.rounds} rounds: {outcome.size}",
    s!"Lower bound: {bound}",
    "cover:" ++ String.join (outcome.cover.map fun set => s!" {set}") ]

/-- The line for a fault. -/
def faultLine (fault : Fault) : String := s!"Error: {fault.message}"

/-- The line for a seed, if one is given. -/
def Settings.seedLines (settings : Settings) : List String :=
  match settings.seed with
  | some seed => [s!"Using seed {seed}"]
  | none => []

/-- Lines as text, each with its line end. -/
def textOf (lines : List String) : String := String.join (lines.map (· ++ "\n"))

/-- What the command makes of an attempt. -/
def Attempt.report (settings : Settings) (attempt : Attempt) : Report :=
  let lines := settings.seedLines ++
    (attempt.events.filterMap Event.improvement?).map improvementLine
  let events := attempt.events.filter (Event.isShown settings.verbose)
  match attempt.outcome with
  | .ok outcome => ⟨textOf (lines ++ coverLines outcome), events, "", .status 0⟩
  | .error fault =>
    if isHandled fault then ⟨textOf (lines ++ [faultLine fault]), events, "", .status 1⟩
    else ⟨textOf lines, events, "", .fault fault⟩

/-- The command with its settings. -/
def work (folder : Folder) (settings : Settings) : Report :=
  (attempt folder settings).report settings

/-- What is written about a problem with the arguments. -/
def problemText (usage name : String) (problem : Problem) : String :=
  usage ++ s!"{name}: error: {problem.message}\n"

/-- The command with its arguments. -/
def run (folder : Folder) (arguments : List String) : Report :=
  match parse arguments with
  | .ok settings => work folder settings
  | .error .help => ⟨help, [], "", .status 0⟩
  | .error (.problem problem) => ⟨"", [], problemText usage name problem, .status 2⟩

end SolveCommand

end Transversal
