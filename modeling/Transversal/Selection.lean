/-
Selected sets, and how often they hit every path.

* `Selection.add`, `Selection.release`: a set counted in, or out again; the number of unhit paths
  is kept up to date with the counters.
* `Selection.ofMembers`: the selection of a list of sets.
* `Selection.isRedundant?`: whether the other members hit every path of a set.
-/
import Transversal.Incidence

namespace Transversal

/-- The sets selected, in the order they were added, the number of them that hit each path, and
the number of paths that none of them hits. -/
structure Selection where
  members : List Int
  hits : Array Int
  unhit : Int
deriving DecidableEq

/-- A change that could not be completed: how far it got, and why it stopped. -/
structure Halted where
  reached : Selection
  fault : Fault

namespace Selection

/-- The number of paths with the counter zero. -/
def zeros (hits : Array Int) : Nat := hits.toList.count 0

/-- A selection from its parts, if the number of unhit paths is that of the zero counters. -/
def make? (members : List Int) (hits : Array Int) (unhit : Int) : Except Fault Selection :=
  if (zeros hits : Int) = unhit then .ok ⟨members, hits, unhit⟩
  else .error (.value (.unhitCount unhit (zeros hits)))

/-- Nothing selected. -/
def empty (pathCount : Nat) : Selection := ⟨[], Array.replicate pathCount 0, pathCount⟩

/-- The most counters that there is room for. -/
def maxCounters : Int := 0x1000000000

/-- Nothing selected, for a stated number of paths; a negative one is refused. -/
def empty? (pathCount : Int) : Except Fault Selection :=
  if !fitsSigned pathCount then .error (.overflow .repeats)
  else if maxCounters < pathCount then .error .outOfMemory
  else make? [] (Array.replicate pathCount.toNat 0) pathCount

/-- The number of sets selected. -/
def size (selection : Selection) : Nat := selection.members.length

/-- Every path is hit. -/
def isComplete (selection : Selection) : Bool := selection.unhit = 0

/-- A copy, checked as every selection from its parts. -/
def copy? (selection : Selection) : Except Fault Selection :=
  make? selection.members selection.hits selection.unhit

/-- One more set hits a path. -/
def countIn (selection : Selection) (path : Int) : Except Halted Selection :=
  match found : place? selection.hits.size path with
  | none => .error ⟨selection, BadIndex.inList.fault path⟩
  | some place =>
    have inRange := place?_lt found
    let count := selection.hits[place]
    .ok { selection with
      hits := selection.hits.set place (count + 1)
      unhit := if count = 0 then selection.unhit - 1 else selection.unhit }

/-- One set fewer hits a path. -/
def countOut (selection : Selection) (path : Int) : Except Halted Selection :=
  match found : place? selection.hits.size path with
  | none => .error ⟨selection, BadIndex.inList.fault path⟩
  | some place =>
    have inRange := place?_lt found
    let count := selection.hits[place] - 1
    .ok { selection with
      hits := selection.hits.set place count
      unhit := if count = 0 then selection.unhit + 1 else selection.unhit }

/-- A set selected. It becomes a member before its paths are looked up. -/
def add (incidence : Incidence) (set : Int) (selection : Selection) : Except Halted Selection :=
  let named := { selection with members := selection.members ++ [set] }
  match incidence.pathsOf? set with
  | .error fault => .error ⟨named, fault⟩
  | .ok paths => paths.foldlM countIn named

/-- The paths of a set counted out; the members stay as they are. -/
def release (incidence : Incidence) (set : Int) (selection : Selection) :
    Except Halted Selection :=
  match incidence.pathsOf? set with
  | .error fault => .error ⟨selection, fault⟩
  | .ok paths => paths.foldlM countOut selection

/-- A set selected, or the fault. -/
def add? (incidence : Incidence) (set : Int) (selection : Selection) : Except Fault Selection :=
  (selection.add incidence set).mapError Halted.fault

/-- The paths of a set counted out, or the fault. -/
def release? (incidence : Incidence) (set : Int) (selection : Selection) :
    Except Fault Selection :=
  (selection.release incidence set).mapError Halted.fault

/-- The selection of a list of sets. -/
def ofMembers (incidence : Incidence) (members : List Int) : Except Fault Selection :=
  members.foldlM (fun selection set => selection.add? incidence set) (empty incidence.pathCount)

/-- Whether every one of the paths of a selected set is hit at least twice. The first that is not
decides; one that is not hit at all shows that the counters are wrong. -/
def hitsTwice? (selection : Selection) (set : Int) : List Int → Except Fault Bool
  | [] => .ok true
  | path :: rest =>
    match entryAt? selection.hits path with
    | none => .error (BadIndex.inList.fault path)
    | some count =>
      if count ≤ 0 then .error (.quoting [count] (.violation (.hitCount path set count)))
      else if count = 1 then .ok false
      else hitsTwice? selection set rest

/-- Whether every path of a set is hit by another member too. -/
def isRedundant? (incidence : Incidence) (set : Int) (selection : Selection) :
    Except Fault Bool := do
  selection.hitsTwice? set (← incidence.pathsOf? set)

end Selection

end Transversal
