/-
Which sets hit which paths, in both directions.

* `Incidence.ofSets?`: the relation of a family of path lists, with repeats dropped; every path
  must be hit.
* `Incidence.unhit?`, `Incidence.isCover?`: the paths that a list of sets leaves unhit.
* `Incidence.duplicateEvents`: the repeats that were dropped.
-/
import Transversal.Event
import Transversal.Fault
import Transversal.Position

namespace Transversal

/-- The paths of every set, and the sets of every path. A relation built by `ofSets?` holds the
same pairs in both; a bare one may not. -/
structure Incidence where
  sets : Array (List Int)
  paths : Array (List Int)
deriving DecidableEq

namespace Incidence

/-- The number of sets. -/
def setCount (incidence : Incidence) : Nat := incidence.sets.size

/-- The number of paths. -/
def pathCount (incidence : Incidence) : Nat := incidence.paths.size

/-- The first negative path in a family of path lists, with the set that lists it. -/
def firstNegative? (sets : List (List Int)) : Option (Nat × Int) :=
  sets.zipIdx.findSome? fun (paths, set) => (paths.find? (· < 0)).map (set, ·)

/-- The largest of the paths listed, and -1 if none is. -/
def largestPath (sets : List (List Int)) : Int := sets.flatten.foldl max (-1)

/-- One more set in front of the sets of each path that it hits. -/
def enter (set : Nat) (paths : List Int) (table : Array (List Int)) : Array (List Int) :=
  paths.foldl (fun table path => table.modify path.toNat ((set : Int) :: ·)) table

/-- The sets of every path, in rising order. -/
def transpose (sets : List (List Int)) (pathCount : Nat) : Array (List Int) :=
  sets.zipIdx.foldr (fun (paths, set) table => enter set paths table)
    (Array.replicate pathCount [])

/-- The relation of a family of path lists. The number of paths is one more than the largest path
listed, unless it is given. -/
def ofSets? (sets : List (List Int)) (pathCount : Option Int) : Except Fault Incidence := do
  let distinct := sets.map List.eraseDups
  if let some (set, path) := firstNegative? distinct then
    throw (.quoting [path] (.coverage (.negativePath set path)))
  let largest := largestPath distinct
  let count := pathCount.getD (largest + 1)
  if count ≤ largest then
    throw (.quoting [largest, count] (.mismatch (.pathOutOfRange largest count)))
  let table := transpose distinct count.toNat
  match table.findIdx? List.isEmpty with
  | some path => throw (.uncoverable path)
  | none => pure ⟨distinct.toArray, table⟩

/-- The repeats dropped from a family of path lists, up to the first set with a negative path. -/
def duplicateEvents (sets : List (List Int)) : List Event :=
  let distinct := sets.map List.eraseDups
  let examined := match firstNegative? distinct with
    | some (set, _) => set + 1
    | none => sets.length
  ((sets.zip distinct).zipIdx.take examined).filterMap fun ((listed, kept), set) =>
    if kept.length = listed.length then none
    else some (.duplicates set (listed.length - kept.length))

/-- The paths of a set; its index may count from the last set. -/
def pathsOf? (incidence : Incidence) (set : Int) : Except Fault (List Int) :=
  match entryAt? incidence.sets set with
  | some paths => .ok paths
  | none => .error (BadIndex.inRelation.fault set)

/-- A path marked as hit. -/
def markPath? (marks : Array Bool) (path : Int) : Except Fault (Array Bool) :=
  match place? marks.size path with
  | some place => .ok (marks.setIfInBounds place true)
  | none => .error (BadIndex.inMarks.fault path)

/-- The paths of a set marked as hit. -/
def markSet? (incidence : Incidence) (marks : Array Bool) (set : Int) :
    Except Fault (Array Bool) := do
  (← incidence.pathsOf? set).foldlM markPath? marks

/-- The paths that none of the given sets hits, in rising order. -/
def unhit? (incidence : Incidence) (cover : List Int) : Except Fault (List Nat) := do
  let marks ← cover.foldlM incidence.markSet? (Array.replicate incidence.pathCount false)
  pure ((List.range incidence.pathCount).filter fun path => marks[path]? = some false)

/-- Whether the given sets hit every path. -/
def isCover? (incidence : Incidence) (cover : List Int) : Except Fault Bool :=
  (incidence.unhit? cover).map List.isEmpty

end Incidence

end Transversal
