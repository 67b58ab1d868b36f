import Transversal.Benchmark.Csv
import Transversal.Benchmark.Generate
import Transversal.Benchmark.Suite
import Transversal.Benchmark.Summary
import Transversal.CommandLine.Arguments
import Transversal.CommandLine.Bench
import Transversal.CommandLine.Solve
import Transversal.Cover.Largest
import Transversal.Cover.Pruned
import Transversal.Cover.Sampled
import Transversal.Event
import Transversal.Fault
import Transversal.Folder
import Transversal.Fractional
import Transversal.Fractional.Nested
import Transversal.Fractional.Report
import Transversal.Given
import Transversal.Incidence
import Transversal.Incidence.Coverage
import Transversal.Incidence.Load
import Transversal.Main
import Transversal.Number.Binary64
import Transversal.Number.Decimal
import Transversal.Number.Numeral
import Transversal.Number.PairwiseSum
import Transversal.Number.Word
import Transversal.Position
import Transversal.Relaxation.Program
import Transversal.Relaxation.Simplex
import Transversal.Relaxation.Solve
import Transversal.Restart.Interleaving
import Transversal.Restart.Pool
import Transversal.Restart.Progress
import Transversal.Restart.Sequential
import Transversal.Run
import Transversal.Selection
import Transversal.Solver
import Transversal.Stream.Basic
import Transversal.Stream.Draw
import Transversal.Stream.Seed
import Transversal.Stream.Twister
import Transversal.Table.Column
import Transversal.Table.History
import Transversal.Table.Shown
import Transversal.Text.Blank
import Transversal.Text.Digit
import Transversal.Text.Lines
import Transversal.Text.Printable
import Transversal.Text.Quoted
import Transversal.Text.Utf8
import Transversal.Proofs.Fallible
import Transversal.Proofs.Incidence.Tally
import Transversal.Proofs.Selection.Counters
import Transversal.Proofs.Cover.Weights
import Transversal.Proofs.Fractional.Accepted
import Transversal.Proofs.Incidence.Agreement
import Transversal.Proofs.Run
import Transversal.Proofs.Cover.Largest
import Transversal.Proofs.Cover.Pruned
import Transversal.Proofs.Cover.Sampled
import Transversal.Proofs.Restart.Progress
import Transversal.Proofs.Restart.Interleaving
import Transversal.Proofs.Restart.Pool
import Transversal.Proofs.Solver.Guided
import Transversal.Proofs.Solver.Interleaved
import Transversal.Proofs.Relaxation.Covering
import Transversal.Proofs.Solver.Bound
import Transversal.Proofs.Solver.Returned
import Transversal.Proofs.Restart.Controller
import Transversal.Proofs.Restart.Schedules
import Transversal.Proofs.Restart.SingleWorker
import Transversal.Proofs.Stream.Packed
import Transversal.Proofs.Solver.Schedules
import Transversal.Proofs.Restart.Budget
import Transversal.Proofs.Solver.Sequential
import Transversal.Proofs.Solver.SingleWorker
import Transversal.Proofs.Solver.Budget
import Transversal.Proofs.Incidence.Built
import Transversal.Proofs.Selection.Updates
import Transversal.Proofs.Incidence.Relisted
import Transversal.Proofs.Cover.Relisted
import Transversal.Proofs.Solver.Relisted
import Transversal.Proofs.Fractional.Report
import Transversal.Proofs.Cover.Greedy
import Transversal.Proofs.Cover.Gains
import Transversal.Proofs.Cover.Termination
import Transversal.Proofs.Solver.Largest
import Transversal.Proofs.Solver.Approximation
import Transversal.Proofs.Relaxation.Bounded
import Transversal.Proofs.Relaxation.Tableau
import Transversal.Proofs.Relaxation.Exchange
import Transversal.Proofs.Relaxation.Bland
import Transversal.Proofs.Relaxation.Simplex
import Transversal.Proofs.Solver.Relaxed
import Transversal.Proofs.Selection.Marked
import Transversal.Proofs.Cover.Deletion
import Transversal.Proofs.Cover.Minimal
import Transversal.Proofs.Cover.Fresh
import Transversal.Proofs.Number.Fraction
import Transversal.Proofs.Cover.Drawn
import Transversal.Proofs.Solver.Minimal
import Transversal.Proofs.Solver.Told
import Transversal.Proofs.Number.Numeral
import Transversal.Proofs.Incidence.Load
import Transversal.Proofs.CommandLine.Files
import Transversal.Proofs.CommandLine.Settings
import Transversal.Proofs.CommandLine.Solve
import Transversal.Proofs.Cover.Active
import Transversal.Proofs.Incidence.Renumbered
import Transversal.Proofs.Solver.Renumbered
import Transversal.Proofs.Text.Utf8
import Transversal.Proofs.Benchmark.Draws
import Transversal.Proofs.Benchmark.Generate
import Transversal.Proofs.Cover.Miscounted
import Transversal.Proofs.Cover.Redundant
import Transversal.Proofs.Number.Whole
import Transversal.Proofs.Solver.Served
import Transversal.Proofs.Benchmark.Suite
import Transversal.Proofs.Benchmark.Contests
import Transversal.Proofs.Benchmark.Summary
