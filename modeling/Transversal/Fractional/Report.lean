/-
Relaxation reports: a header of nine lines, the constraints, and a record for every set.

* `Report.parse`: the counts, the objective value and the activities, at their places among the
  words of the lines; nothing else in the report matters, and nothing after the last record is
  read.
* `Report.read?`: the solution that a file reports.
-/
import Transversal.Fractional
import Transversal.Number.Numeral
import Transversal.Text.Lines

namespace Transversal.Report

/-- Where reading a report stands: the number of the next line, and the lines still to come. -/
structure Remaining where
  number : Nat
  lines : List (List Char)

/-- A step of reading a report. -/
abbrev Reading := StateT Remaining (Except Fault)

/-- The lines of the header; the counts of paths and sets and the objective value are in the
second, third and sixth. -/
def headerLines : Nat := 9

/-- The lines around the constraints. -/
def extraLines : Nat := 3

/-- A line with its number. -/
structure Numbered where
  number : Nat
  text : List Char

/-- The next line; `atEnd` tells what it means that there is none. -/
def nextLine (atEnd : Fault) : Reading Numbered := do
  match (← get).lines with
  | [] => throw atEnd
  | line :: rest =>
    let number := (← get).number
    set (Remaining.mk (number + 1) rest)
    pure ⟨number, line⟩

/-- So many lines left out. -/
def skipLines (atEnd : Fault) (count : Nat) : Reading Unit := do
  let remaining ← get
  if remaining.lines.length < count then throw atEnd
  else set (Remaining.mk (remaining.number + count) (remaining.lines.drop count))

/-- The word at a place, counted from zero. -/
def wordAt (line : Numbered) (place : Nat) : Except Fault (List Char) :=
  let found := words line.text
  match found[place]? with
  | some word => .ok word
  | none => .error (.report (.fewWords line.number (place + 1) found.length))

/-- The second word, a count. -/
def countOf (line : Numbered) : Except Fault Nat := do
  let word ← wordAt line 1
  match readInteger? word with
  | none => throw (.report (.notInteger line.number word))
  | some value =>
    if value < 0 then throw (.report (.negativeCount line.number value)) else pure value.toNat

/-- The fourth word, a finite number. -/
def numberOf (line : Numbered) : Except Fault Binary64 := do
  let word ← wordAt line 3
  match readBinary64? word with
  | none => throw (.report (.notNumber line.number word))
  | some value =>
    if value.isFinite then pure value else throw (.report (.notFinite line.number word))

/-- The activities of `count` sets from `set` on, added to those already read. -/
def records (atEnd : ReportPart → Fault) :
    (count set : Nat) → (reversed : List Binary64) → Reading (List Binary64)
  | 0, _, reversed => pure reversed.reverse
  | count + 1, set, reversed => do
    let line ← nextLine (atEnd (.record set))
    let activity ← numberOf line
    records atEnd count (set + 1) (activity :: reversed)

/-- A whole report. -/
def parse (atEnd : ReportPart → Fault) : Reading Fractional := do
  let header := atEnd .header
  let _ ← nextLine header
  let pathCount ← countOf (← nextLine header)
  let setCount ← countOf (← nextLine header)
  let _ ← nextLine header
  let _ ← nextLine header
  let objective ← numberOf (← nextLine header)
  skipLines header (headerLines - 6)
  skipLines (atEnd .constraints) (pathCount + extraLines)
  let activities ← records atEnd setCount 0 []
  Fractional.make? pathCount setCount objective activities

/-- The solution that lines report; the lines are numbered from one. -/
def ofLines? (lines : List (List Char)) : Except Fault Fractional :=
  (parse fun part => .report (.endsEarly part)).run' ⟨1, lines⟩

/-- The solution that a file reports. Where the file stops being text, it cannot be read on. -/
def read? (file : String) (feed : Feed) : Except Fault Fractional :=
  let atEnd (part : ReportPart) : Fault := match feed.flaw with
    | none => .report (.endsEarly part)
    | some flaw => .report (.notText file flaw)
  (parse atEnd).run' ⟨1, feed.lines⟩

end Transversal.Report
