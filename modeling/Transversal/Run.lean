/-
Computations that draw random numbers, report events and may fail.

* `Run`: what was drawn and reported before a failure stays drawn and reported.
* `Run.draw`, `Run.report`, `Run.lift`: its three effects.
* `Run.drawPlace`: a random place among so many entries.
-/
import Transversal.Event
import Transversal.Fault
import Transversal.Stream.Basic

namespace Transversal

/-- Where a computation stands: its random stream, and the events so far. -/
structure Desk (σ : Type) where
  stream : σ
  events : Array Event

/-- A computation with a random stream of type `σ`. -/
abbrev Run (σ : Type) := ExceptT Fault (StateM (Desk σ))

namespace Run

variable {σ α : Type}

/-- Something drawn from the stream. -/
def draw (drawn : σ → α × σ) : Run σ α :=
  modifyGet fun desk => ((drawn desk.stream).1, { desk with stream := (drawn desk.stream).2 })

/-- An event. -/
def report (event : Event) : Run σ Unit :=
  modify fun desk => { desk with events := desk.events.push event }

/-- A random place among so many entries, of which there must be at least one. -/
def drawPlace [RandomStream σ] : (count : Nat) → Run σ Nat
  | 0 => throw (.index .inEmptyChoice)
  | last + 1 => do pure (← draw (RandomStream.upTo last)).val

/-- A result or a fault, without any effect. -/
def lift (result : Except Fault α) : Run σ α := ExceptT.mk (pure result)

/-- The stream exchanged for another one. -/
def restartWith (stream : σ) : Run σ Unit := modify fun desk => { desk with stream := stream }

end Run

end Transversal
