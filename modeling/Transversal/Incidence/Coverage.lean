/-
Coverage files: one line for each set, the paths it hits separated by blanks.

* `Coverage.ofLines?`: the path lists of the lines; a set is known by the place of its line.
* `Coverage.read?`: the same of a file, which may stop being text on the way.
* `Coverage.derivedPathCount`: the number of paths that a family of path lists speaks of.
-/
import Transversal.Incidence
import Transversal.Number.Numeral
import Transversal.Text.Lines

namespace Transversal.Coverage

/-- The paths of one line, given the number of the line. -/
def ofLine? (number : Nat) (line : List Char) : Except Fault (List Int) :=
  match (words line).mapM readInteger? with
  | some paths => .ok paths
  | none => .error (.coverage (.notIntegers number (trim line)))

/-- The path lists of all lines, which are numbered from one. -/
def ofLines? (lines : List (List Char)) : Except Fault (List (List Int)) :=
  (lines.zipIdx 1).mapM fun (line, number) => ofLine? number line

/-- The path lists of a file. A bad line before the first unreadable byte is found first. -/
def read? (file : String) (feed : Feed) : Except Fault (List (List Int)) := do
  let sets ← ofLines? feed.lines
  match feed.flaw with
  | none => pure sets
  | some flaw => throw (.coverage (.notText file flaw))

/-- One more than the largest path listed, and zero if none is. -/
def derivedPathCount (sets : List (List Int)) : Int := sets.flatten.max?.getD (-1) + 1

end Transversal.Coverage
