/-
The solver as a program: it reads the files it is asked to, and writes what the command says.

* `fileOnDisk`: what can be read under a name.
* `main`: the command at work on the disk.
-/
import Transversal.CommandLine.Solve
import Std.Time.Format

namespace Transversal

/-- The flaw of a name that could not be opened, by the number of the error. -/
def flawOfCode (code : UInt32) : NameFlaw :=
  if code = 20 then .notDirectory else if code = 36 then .nameTooLong else .isDirectory

/-- The flaw of a name that could not be opened. -/
def flawOfError : IO.Error → NameFlaw
  | .noFileOrDirectory .. => .missing
  | .inappropriateType _ code _ => flawOfCode code
  | .invalidArgument _ code _ => flawOfCode code
  | _ => .isDirectory

/-- What can be read under a name. -/
def fileOnDisk (name : String) : IO (Except NameFlaw (List UInt8)) := do
  try
    pure (.ok (← IO.FS.readBinFile name).toList)
  catch error =>
    pure (.error (flawOfError error))

/-- The part of the disk that is named by the arguments. -/
def folderOnDisk (arguments : List String) : IO Folder := do
  let files ← arguments.mapM fun name => do pure (name, ← fileOnDisk name)
  pure fun name => (files.lookup name).getD (.error .missing)

/-- The time as it stands in a log. -/
def stamp : IO String := do
  pure ((← Std.Time.DateTime.now).format "uuuu-MM-dd HH:mm:ss,SSS")

end Transversal

open Transversal in
/-- The command with its arguments. A fault that it does not handle ends it with status one. -/
def main (arguments : List String) : IO UInt32 := do
  let report := SolveCommand.run (← folderOnDisk arguments) arguments
  let time ← stamp
  report.events.forM fun event => IO.eprintln (event.stampedLine time)
  IO.eprint report.errors
  IO.print report.output
  match report.ending with
  | .status code => pure code.toUInt32
  | .fault fault => do
    IO.eprintln fault.message
    pure 1
