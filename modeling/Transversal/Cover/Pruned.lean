/-
Covers without redundant members.

* `examine`: the members in some order, each released if the others hit all its paths.
* `pruned?`: the examination in the order of the members.
* `prunedAtRandom`: the examination in random order.
-/
import Transversal.Run
import Transversal.Selection

namespace Transversal

/-- The members still to be examined, one after the other: a redundant one is released, any other
one is kept. -/
def examine (incidence : Incidence) :
    (order : List Int) → (reversedKept : List Int) → Selection → Except Fault Selection
  | [], reversedKept, selection => .ok { selection with members := reversedKept.reverse }
  | set :: rest, reversedKept, selection => do
    if ← selection.isRedundant? incidence set then
      examine incidence rest reversedKept (← selection.release? incidence set)
    else examine incidence rest (set :: reversedKept) selection

/-- A complete selection, copied. -/
def copyComplete? (selection : Selection) : Except Fault Selection :=
  if selection.isComplete then selection.copy?
  else .error (.violation (.pruningIncomplete selection.unhit))

/-- A copied selection pruned in a given order. It must still be complete. -/
def pruneInOrder (incidence : Incidence) (copied : Selection) (order : List Int) :
    Except Fault Selection := do
  let pruned ← examine incidence order [] copied
  if pruned.isComplete then pure pruned
  else throw (.violation (.pruningLeft pruned.unhit))

/-- A cover pruned in the order of its members. -/
def pruned? (incidence : Incidence) (selection : Selection) : Except Fault Selection := do
  pruneInOrder incidence (← copyComplete? selection) selection.members

/-- A cover pruned in random order. -/
def prunedAtRandom {σ : Type} [RandomStream σ] (incidence : Incidence) (selection : Selection) :
    Run σ Selection := do
  let copied ← Run.lift (copyComplete? selection)
  let order ← Run.draw (RandomStream.shuffle selection.members)
  Run.lift (pruneInOrder incidence copied order)

end Transversal
