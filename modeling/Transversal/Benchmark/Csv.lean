/-
The records of a suite as comma-separated values.

* `Column`: the columns, with their names and cells.
* `csvLines`: the header and a line for every record.
-/
import Transversal.Benchmark.Summary

namespace Transversal.Benchmark

/-- A column of the table of records. -/
inductive Column
  | algorithm | runtime | size | lowerBound | optimal | rounds | valid
  | pathCount | setCount | density | trial | config | gap
deriving DecidableEq

namespace Column

/-- All columns, in order. -/
def all : List Column :=
  [.algorithm, .runtime, .size, .lowerBound, .optimal, .rounds, .valid, .pathCount, .setCount,
    .density, .trial, .config, .gap]

def name : Column → String
  | .algorithm => "algorithm"
  | .runtime => "runtime"
  | .size => "solution_size"
  | .lowerBound => "lower_bound"
  | .optimal => "optimal"
  | .rounds => "rounds"
  | .valid => "valid"
  | .pathCount => "n_paths"
  | .setCount => "n_sets"
  | .density => "density"
  | .trial => "trial"
  | .config => "config_id"
  | .gap => "gap"

/-- A truth value in a cell. -/
def truth (value : Bool) : String := if value then "True" else "False"

/-- A number in a cell; the cell of a NaN stays empty. -/
def number (value : Binary64) : String := if value = .nan then "" else value.toText

def cell (record : Record) : Column → String
  | .algorithm => record.algorithm
  | .runtime => number record.runtime
  | .size => toString record.size
  | .lowerBound => toString record.lowerBound
  | .optimal => truth record.optimal
  | .rounds => toString record.rounds
  | .valid => truth record.valid
  | .pathCount => toString record.pathCount
  | .setCount => toString record.setCount
  | .density => number record.density
  | .trial => toString record.trial
  | .config => record.config
  | .gap => toString record.gap

end Column

/-- The lines of a table with the given columns; a line end follows the last one too. -/
def csvLines (columns : List Column) (records : List Record) : List String :=
  ",".intercalate (columns.map Column.name) ::
    records.map (fun record => ",".intercalate (columns.map (Column.cell record)))

end Transversal.Benchmark
