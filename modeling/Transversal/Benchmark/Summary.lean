/-
The summary of a suite.

* `qualityOf`: means and extremes of the runs of one algorithm, rounded to three places.
* `Quality.shown`: what is read back from a table of them.
* `winners`: how often each algorithm gave the first of the smallest covers of a trial.
* `summarize?`: all of it; there must be something to summarize.
-/
import Transversal.Benchmark.Suite
import Transversal.Table.Column
import Transversal.Table.Shown

namespace Transversal.Benchmark

/-- The mean of a list: the first number is added to the sum of the others. There is none of an
empty list. -/
def mean : List Binary64 → Binary64
  | [] => .nan
  | first :: rest => (first + Binary64.pairwiseSum rest) / .ofInt (rest.length + 1)

/-- The least of a list; NaN if it is empty. -/
def least (terms : List Binary64) : Binary64 :=
  match terms with
  | [] => .nan
  | first :: rest => rest.foldl (fun best term => if term.lt best then term else best) first

/-- The greatest of a list; NaN if it is empty. -/
def greatest (terms : List Binary64) : Binary64 :=
  match terms with
  | [] => .nan
  | first :: rest => rest.foldl (fun best term => if best.lt term then term else best) first

/-- A double rounded to three places. -/
def roundToThousandths (value : Binary64) : Binary64 :=
  (value * .ofInt 1000).roundToWhole / .ofInt 1000

/-- Means and extremes of the runs of an algorithm. -/
structure Quality where
  sizeMean : Binary64
  sizeMin : Binary64
  sizeMax : Binary64
  gapMean : Binary64
  gapMax : Binary64
  optimalMean : Binary64
  runtimeMean : Binary64
  runtimeMax : Binary64

/-- The cells of a row of the table of qualities. -/
def Quality.cells (quality : Quality) : List Binary64 :=
  [quality.sizeMean, quality.sizeMin, quality.sizeMax, quality.gapMean, quality.gapMax,
    quality.optimalMean, quality.runtimeMean, quality.runtimeMax]

/-- The quality of some runs, given with their gaps. A run time that is no number is left out. -/
def qualityOf (results : List (Result × Int)) : Quality :=
  let sizes := results.map fun (result, _) => Binary64.ofInt result.size
  let gaps := results.map fun (_, gap) => Binary64.ofInt gap
  let optimal := results.map fun (result, _) => Binary64.ofInt (if result.optimal then 1 else 0)
  let runtimes := (results.map (·.1.runtime)).filter (· ≠ .nan)
  { sizeMean := roundToThousandths (mean sizes)
    sizeMin := least sizes
    sizeMax := greatest sizes
    gapMean := roundToThousandths (mean gaps)
    gapMax := greatest gaps
    optimalMean := roundToThousandths (mean optimal)
    runtimeMean := roundToThousandths (mean runtimes)
    runtimeMax := roundToThousandths (greatest runtimes) }

/-- What is read back from a row of a table of qualities. Least and greatest sizes and gaps are
whole numbers and shown as such, unless the gaps are doubles. -/
def Quality.shown (table : List Quality) (gaps : Storage) (quality : Quality) : Quality :=
  let cell (field : Quality → Binary64) : Binary64 := shownIn (table.map field) (field quality)
  { quality with
    sizeMean := cell (·.sizeMean)
    gapMean := cell (·.gapMean)
    gapMax := if gaps = .double then cell (·.gapMax) else quality.gapMax
    optimalMean := cell (·.optimalMean)
    runtimeMean := cell (·.runtimeMean)
    runtimeMax := cell (·.runtimeMax) }

/-- How far the size of each result is from its lower bound. -/
def gapColumn? (results : List Result) : Except Fault Column := do
  let sizes ← Column.of? (results.map (·.size))
  let bounds ← Column.of? (results.map (·.lowerBound))
  pure (sizes.minus bounds)

/-- The qualities of all algorithms, as they are shown. -/
def qualities (results : List Result) (gaps : Column) : List (String × Quality) :=
  let judged := results.zip gaps.entries
  let table := (results.map (·.algorithm)).eraseDups.map fun name =>
    (name, qualityOf (judged.filter (·.1.algorithm = name)))
  table.map fun (name, quality) => (name, quality.shown (table.map (·.2)) gaps.storage)

/-- The first of the smallest results. -/
def smallest? : List Result → Option Result
  | [] => none
  | first :: rest =>
    some (rest.foldl (fun best result => if result.size < best.size then result else best) first)

/-- What a result competes in: its configuration and its trial. -/
def Result.contest (result : Result) : String × Int := (result.config, result.trial)

/-- The first of the smallest results of every contest. -/
def winners (results : List Result) : List Result :=
  (results.map Result.contest).eraseDups.filterMap fun contest =>
    smallest? (results.filter (·.contest = contest))

/-- How often each name occurs. -/
def tally (names : List String) : List (String × Nat) :=
  names.eraseDups.map fun name => (name, names.count name)

/-- The summary of a suite. -/
structure Summary where
  gaps : List Int
  qualities : List (String × Quality)
  infeasible : Nat
  wins : List (String × Nat)

/-- The warning about covers that leave a path unhit, if there are any. -/
def Summary.warnings (summary : Summary) : List String :=
  if summary.infeasible = 0 then []
  else [s!"WARNING: {summary.infeasible} runs returned an infeasible cover"]

/-- The summary of some results, of which there must be at least one. -/
def summarize? (results : List Result) : Except Fault Summary :=
  if results.isEmpty then .error .noRecords
  else do
    let gaps ← gapColumn? results
    pure {
      gaps := gaps.entries
      qualities := qualities results gaps
      infeasible := results.countP (!·.valid)
      wins := tally ((winners results).map (·.algorithm)) }

end Transversal.Benchmark
