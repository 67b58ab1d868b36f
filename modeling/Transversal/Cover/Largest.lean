/-
Covers grown by taking, every time, a set that hits the most unhit paths.

* `firstLargest?`: the first of the largest entries of a list.
* `largestStep`: one set taken, and the gains of the others brought up to date.
* `largestCover`: the whole cover. Every step hits a path that was unhit, so there are at most as
  many steps as paths.
-/
import Transversal.Selection

namespace Transversal

/-- The first of the largest entries, with its place. -/
def firstLargest? (entries : List Int) : Option (Nat × Int) :=
  entries.zipIdx.foldl
    (fun best (entry, place) => match best with
      | none => some (place, entry)
      | some (_, largest) => if largest < entry then some (place, entry) else best)
    none

/-- A set would hit one path fewer. -/
def loseGain (gains : Array Int) (set : Int) : Except Fault (Array Int) :=
  match place? gains.size set with
  | none => .error (BadIndex.inList.fault set)
  | some place => .ok (gains.modify place (· - 1))

/-- The gains once a path is hit: if it was unhit, every set of the path loses one. -/
def hitPath (incidence : Incidence) (selection : Selection) (gains : Array Int) (path : Int) :
    Except Fault (Array Int) :=
  match entryAt? selection.hits path with
  | none => .error (BadIndex.inList.fault path)
  | some count =>
    if count ≠ 0 then .ok gains
    else match entryAt? incidence.paths path with
      | none => .error (BadIndex.inRelation.fault path)
      | some hitting => hitting.foldlM loseGain gains

/-- A selection, and the number of unhit paths that each set would hit. -/
structure Growth where
  selection : Selection
  gains : Array Int

/-- The best set taken. It must hit something, and nothing more once it is taken. -/
def largestStep (incidence : Incidence) (growth : Growth) : Except Fault Growth := do
  match firstLargest? growth.gains.toList with
  | none => throw (.value .noSets)
  | some (best, gain) =>
    if gain ≤ 0 then throw (.violation (.noGain growth.selection.unhit))
    let paths ← incidence.pathsOf? best
    let gains ← paths.foldlM (hitPath incidence growth.selection) growth.gains
    let selection ← growth.selection.add? incidence best
    let left := gains.getD best 0
    if left ≠ 0 then throw (.violation (.gainLeft best left))
    pure ⟨selection, gains⟩

/-- Sets taken as long as a path is unhit, but no more of them than `steps`. -/
def growLargest (incidence : Incidence) : (steps : Nat) → Growth → Except Fault Selection
  | 0, growth => .ok growth.selection
  | steps + 1, growth =>
    if growth.selection.unhit ≤ 0 then .ok growth.selection
    else do growLargest incidence steps (← largestStep incidence growth)

/-- Nothing taken yet: every set would hit as many paths as it lists. -/
def Growth.start (incidence : Incidence) : Growth :=
  ⟨.empty incidence.pathCount, incidence.sets.map fun paths => (paths.length : Int)⟩

/-- The whole cover. -/
def largestCover (incidence : Incidence) : Except Fault Selection :=
  growLargest incidence incidence.pathCount (.start incidence)

end Transversal
