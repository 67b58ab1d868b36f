/-
The benchmark as a command.

* `BenchCommand.parse`: the plan that the arguments ask for, and where its records go.
* `BenchCommand.run`: what the command prints and saves, and how it ends.
-/
import Transversal.Benchmark.Csv
import Transversal.CommandLine.Solve

namespace Transversal.BenchCommand

open CommandLine Benchmark

/-- The name of the command. -/
def name : String := "benchmark_hitset.py"

def usage : String :=
  "usage: benchmark_hitset.py [-h] [--paths PATHS [PATHS ...]]\n" ++
  "                           [--sets SETS [SETS ...]]\n" ++
  "                           [--density DENSITY [DENSITY ...]]\n" ++
  "                           [--algorithms \x7blp-greedy,max-coverage\x7d " ++
    "[\x7blp-greedy,max-coverage\x7d ...]]\n" ++
  "                           [--trials TRIALS] [--workers WORKERS] [--seed SEED]\n" ++
  "                           [--save SAVE]\n"

def help : String := usage ++
  "\nBenchmark hitset algorithms\n" ++
  "\noptions:\n" ++
  "  -h, --help            show this help message and exit\n" ++
  "  --paths PATHS [PATHS ...]\n" ++
  "                        List of path counts to test\n" ++
  "  --sets SETS [SETS ...]\n" ++
  "                        List of set counts to test\n" ++
  "  --density DENSITY [DENSITY ...]\n" ++
  "                        List of densities (0.0-1.0)\n" ++
  "  --algorithms \x7blp-greedy,max-coverage\x7d [\x7blp-greedy,max-coverage\x7d ...]\n" ++
  "                        Algorithms to benchmark\n" ++
  "  --trials TRIALS       Number of trials per configuration\n" ++
  "  --workers WORKERS     Thread pool size for lp-greedy restarts\n" ++
  "  --seed SEED           Random seed\n" ++
  "  --save SAVE           Save detailed results to CSV file\n"

/-- The options of the command. -/
inductive Setting
  | help | paths | sets | density | algorithms | trials | workers | seed | save
deriving DecidableEq

def Setting.flag : Setting → Flag
  | .help => ⟨["-h", "--help"], .none⟩
  | .paths => ⟨["--paths"], .several⟩
  | .sets => ⟨["--sets"], .several⟩
  | .density => ⟨["--density"], .several⟩
  | .algorithms => ⟨["--algorithms"], .several⟩
  | .trials => ⟨["--trials"], .one⟩
  | .workers => ⟨["--workers"], .one⟩
  | .seed => ⟨["--seed"], .one⟩
  | .save => ⟨["--save"], .one⟩

def Setting.all : List Setting :=
  [.help, .paths, .sets, .density, .algorithms, .trials, .workers, .seed, .save]

def grammar : Grammar := ⟨Setting.all.map Setting.flag, []⟩

/-- The settings of the command. -/
structure Settings where
  plan : Plan
  seed : Given Int
  save : Option String

/-- What is run if nothing else is asked for. -/
def usual : Settings := {
  plan := {
    pathCounts := [50, 200]
    setCounts := [20, 60]
    densities := [.ofDecimal false ⟨5, -2⟩, .ofDecimal false ⟨15, -2⟩]
    algorithms := Algorithm.all.map Algorithm.name
    trials := .value 3
    workers := none
    seed := 0 }
  seed := .value 0
  save := none }

def readWhole (title text : String) : Except Stop Int :=
  match readInteger? text.toList with
  | some value => .ok value
  | none => .error (.problem (.badValue title "int" text))

def readNumber (title text : String) : Except Stop Binary64 :=
  match readBinary64? text.toList with
  | some value => .ok value
  | none => .error (.problem (.badValue title "float" text))

/-- The name of an algorithm. -/
def readName (title text : String) : Except Stop String :=
  (SolveCommand.readAlgorithm title text).map Algorithm.name

/-- A setting with its values. -/
def applyFlag (settings : Settings) (setting : Setting) (values : List String) :
    Except Stop Settings := do
  let title := setting.flag.title
  let plan := settings.plan
  match setting with
  | .help => throw .help
  | .paths =>
    pure { settings with plan := { plan with pathCounts := ← values.mapM (readWhole title) } }
  | .sets =>
    pure { settings with plan := { plan with setCounts := ← values.mapM (readWhole title) } }
  | .density =>
    pure { settings with plan := { plan with densities := ← values.mapM (readNumber title) } }
  | .algorithms =>
    pure { settings with plan := { plan with algorithms := ← values.mapM (readName title) } }
  | .trials =>
    pure { settings with plan := { plan with trials := ← givenOf values (readWhole title) } }
  | .workers =>
    let workers ← givenOf values (readWhole title)
    pure { settings with plan := { plan with workers := some workers } }
  | .seed => pure { settings with seed := ← givenOf values (readWhole title) }
  | .save => pure { settings with save := values.head? }

/-- An option met. -/
def applyUse (settings : Settings) : Use → Except Stop Settings
  | .option flag values =>
    match Setting.all.find? (·.flag = flag) with
    | some setting => applyFlag settings setting values
    | none => .ok settings
  | .positional _ _ => .ok settings

/-- The settings that the arguments ask for. -/
def parse (arguments : List String) : Except Stop Settings :=
  (grammar.read arguments).settle applyUse usual

/-- A file with the records of a suite. -/
structure Saved where
  name : String
  target : Target
  records : List Record

/-- What the command does: what it prints before the suite, the lines of the suite, its summary,
the file it saves, what it writes to the error stream, and how it ends. -/
structure Report where
  output : String
  lines : List Line
  summary : Option Summary
  saved : Option Saved
  errors : String
  ending : SolveCommand.Ending

/-- The file that the records are saved to. An empty name means none. -/
def save? (settings : Settings) (records : List Record) : Except Fault (Option Saved) :=
  match settings.save with
  | none => .ok none
  | some name =>
    if name.isEmpty then .ok none
    else (Target.ofName? name).map fun target => some ⟨name, target, records⟩

/-- The line about the file that was saved. -/
def Saved.line (saved : Saved) : String := s!"Detailed results saved to {saved.name}"

/-- The command with a plan to run. -/
def work (setting : Benchmark.Setting) (settings : Settings) (plan : Plan) : Report :=
  let (outcome, state) := runSuite plan setting
  let records := state.records.toList
  let ended (summary : Option Summary) (saved : Option Saved) (ending : SolveCommand.Ending) :
      Report := ⟨"", state.lines.toList, summary, saved, "", ending⟩
  match outcome with
  | .error fault => ended none none (.fault fault)
  | .ok _ =>
    match summarize? (records.map (·.toResult)) with
    | .error fault => ended none none (.fault fault)
    | .ok summary =>
      match save? settings records with
      | .error fault => ended (some summary) none (.fault fault)
      | .ok saved => ended (some summary) saved (.status 0)

/-- The command with its arguments. -/
def run (setting : Benchmark.Setting) (arguments : List String) : Report :=
  match parse arguments with
  | .ok settings =>
    match settings.seed.require .seed with
    | .ok seed => work setting settings { settings.plan with seed }
    | .error fault => ⟨"", [], none, none, "", .fault fault⟩
  | .error .help => ⟨help, [], none, none, "", .status 0⟩
  | .error (.problem problem) =>
    ⟨"", [], none, none, SolveCommand.problemText usage name problem, .status 2⟩

end Transversal.BenchCommand
