/-
What a run reports on the way.

* `Event`: the things worth reporting.
* `Event.improvements`: the improvements among them, which a caller is told of.
* `Event.line`: the line written for one, with its severity and its channel.
-/
import Transversal.Number.Decimal

namespace Transversal

/-- Something that happened in a run. -/
inductive Event
  /-- A set lists paths more than once. -/
  | duplicates (set count : Nat)
  /-- A report was read. -/
  | reportRead (paths : Int) (sets active : Nat) (objective : Binary64) (lowerBound : Int)
  /-- An incidence relation was loaded. -/
  | loaded (sets paths : Nat)
  /-- A relaxation was solved. -/
  | relaxed (sets paths : Nat) (objective : Binary64)
  /-- No set was accepted in as many draws as are allowed. -/
  | noneAccepted (draws : Int)
  /-- A restart found a smaller cover than all before it. -/
  | improved (round size : Nat) (lowerBound : Int)
deriving DecidableEq

/-- How important an event is, in rising order. -/
inductive Severity
  | debug
  | info
  | warning
deriving DecidableEq

/-- The name of a severity. -/
def Severity.text : Severity → String
  | .debug => "DEBUG"
  | .info => "INFO"
  | .warning => "WARNING"

namespace Event

/-- The improvement that an event tells of: the round, the size and the lower bound. -/
def improvement? : Event → Option (Nat × Nat × Int)
  | .improved round size lowerBound => some (round, size, lowerBound)
  | _ => none

/-- The improvements that were reported, in order. They are what a caller is told of a run. -/
def improvements (events : Array Event) : List (Nat × Nat × Int) :=
  events.toList.filterMap improvement?

def severity : Event → Severity
  | .duplicates .. => .warning
  | .improved .. => .info
  | _ => .debug

/-- The channel that all others belong to. -/
def rootChannel : String := "hitset"

/-- The channel with a given name: the common one if none is given, and the one above it for an
empty name. -/
def channelNamed : Option String → String
  | none => rootChannel
  | some name => if name.isEmpty then "root" else name

def channel : Event → String
  | .duplicates .. | .loaded .. => "hitset.instance"
  | .reportRead .. => "hitset.lp_report"
  | .relaxed .. => "hitset.relaxation"
  | .noneAccepted .. => "hitset.greedy"
  | .improved .. => "hitset.solver"

def text : Event → String
  | .duplicates set count => s!"Set {set} lists {count} duplicate path indices; ignoring them"
  | .reportRead paths sets active objective lowerBound =>
    s!"Parsed LP report: {paths} paths, {sets} sets ({active} active), " ++
      s!"objective {objective.toGeneral 6}, lower bound {lowerBound}"
  | .loaded sets paths => s!"Loaded instance with {sets} sets and {paths} paths"
  | .relaxed sets paths objective =>
    s!"LP relaxation of {sets} sets and {paths} paths has objective {objective.toGeneral 6}"
  | .noneAccepted draws => s!"No set accepted after {draws} draws; sampling proportionally"
  | .improved round size lowerBound =>
    s!"Best solution after {round} rounds: {size} (lower bound is {lowerBound})"

/-- An event as a line of a log without times. -/
def line (event : Event) : String :=
  s!"{event.severity.text} {event.channel}: {event.text}"

/-- An event as a line of a log with the time it happened. -/
def stampedLine (time : String) (event : Event) : String :=
  s!"{time} - {event.channel} - {event.severity.text} - {event.text}"

/-- Whether an event is written, in a detailed log or in one of warnings only. -/
def isShown (detailed : Bool) (event : Event) : Bool :=
  match event.severity with
  | .debug => false
  | .info => detailed
  | .warning => true

end Event

end Transversal
