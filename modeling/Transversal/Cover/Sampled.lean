/-
Covers grown at random, guided by activities.

* `checkSupport`: every path has a set with a positive activity.
* `sampleHitting`: one of the sets that hit a path, drawn until one is accepted with its activity
  as the chance; after too many draws, drawn in proportion to the activities.
* `sampledCover`: the paths in random order, and a set sampled for each that is still unhit.
-/
import Transversal.Run
import Transversal.Selection

namespace Transversal

/-- The activity of a set; its index may count from the last set. -/
def activityOf? (activities : Array Binary64) (set : Int) : Except Fault Binary64 :=
  match entryAt? activities set with
  | some activity => .ok activity
  | none => .error (BadIndex.inList.fault set)

/-- Whether one of the sets has a positive activity; the first that has decides. -/
def anyActive? (activities : Array Binary64) : List Int → Except Fault Bool
  | [] => .ok false
  | set :: rest => do
    if (← activityOf? activities set).isPositive then pure true else anyActive? activities rest

/-- Every path has a set with a positive activity. The first path that has none is reported. -/
def checkSupport (incidence : Incidence) (activities : Array Binary64) : Except Fault Unit :=
  incidence.paths.toList.zipIdx.forM fun (hitting, path) => do
    if !(← anyActive? activities hitting) then throw (.inactive path)

/-- The sums of the first one, two, three and more terms, after a sum so far. -/
def sumsFrom (total : Binary64) : List Binary64 → List Binary64
  | [] => [total]
  | term :: rest => total :: sumsFrom (total + term) rest

/-- The sums of the first one, two, three and more terms. -/
def runningSums : List Binary64 → List Binary64
  | [] => []
  | first :: rest => sumsFrom first rest

/-- The total of weights to draw by, which must be positive and finite. -/
def weightTotal? (sums : List Binary64) : Except Fault Binary64 :=
  match sums.getLast? with
  | none => .error (.index .inList)
  | some last =>
    let total := last + .zero
    if total.le .zero then .error (.value .weightsNotPositive)
    else if !total.isFinite then .error (.value .weightsNotFinite)
    else .ok total

/-- The first place whose running sum is above a point, and the last place if none before it is. -/
def placeAbove (sums : List Binary64) (point : Binary64) : Nat :=
  (sums.dropLast.takeWhile fun sum => !point.lt sum).length

/-- The weight of an activity: no set has a negative one. -/
def weightOf (activity : Binary64) : Binary64 :=
  if activity.lt .zero then .zero else activity

variable {σ : Type} [RandomStream σ]

/-- One entry of a list, which must not be empty. -/
def pick {α : Type} (entries : List α) : Run σ α := do
  match ← Run.draw (RandomStream.pick? entries) with
  | some entry => pure entry
  | none => throw (.index .inEmptyChoice)

/-- A random fraction below one. -/
def drawFraction : Run σ Binary64 := do
  pure (.ofFraction (← Run.draw RandomStream.fraction))

/-- Sets drawn evenly, each accepted with its activity as the chance; the first accepted one, if
the draws suffice. -/
def acceptHitting? (hitting : List Int) (activities : Array Binary64) :
    (draws : Nat) → Run σ (Option Int)
  | 0 => pure none
  | draws + 1 => do
    let candidate ← pick hitting
    let fraction ← drawFraction
    if fraction.lt (← Run.lift (activityOf? activities candidate)) then pure (some candidate)
    else acceptHitting? hitting activities draws

/-- A set drawn in proportion to the activities. -/
def weighHitting (hitting : List Int) (activities : Array Binary64) : Run σ Int := do
  let weights ← Run.lift (hitting.mapM fun set => (activityOf? activities set).map weightOf)
  let sums := runningSums weights
  let total ← Run.lift (weightTotal? sums)
  let fraction ← drawFraction
  match hitting[placeAbove sums (fraction * total)]? with
  | some set => pure set
  | none => throw (.index .inList)

/-- One of the sets that hit a path. -/
def sampleHitting (hitting : List Int) (activities : Array Binary64) (maxDraws : Int) :
    Run σ Int := do
  match ← acceptHitting? hitting activities maxDraws.toNat with
  | some set => pure set
  | none =>
    Run.report (.noneAccepted maxDraws)
    weighHitting hitting activities

/-- A set sampled for each of the paths that is still unhit when it comes to it, until every path
is hit. -/
def coverInOrder (incidence : Incidence) (activities : Array Binary64) (maxDraws : Int) :
    (order : List Nat) → Selection → Run σ Selection
  | [], selection => pure selection
  | path :: rest, selection => do
    if 0 < selection.hits.getD path 0 then
      coverInOrder incidence activities maxDraws rest selection
    else
      let set ← sampleHitting (incidence.paths.getD path []) activities maxDraws
      let selection ← Run.lift (selection.add? incidence set)
      if selection.unhit = 0 then pure selection
      else coverInOrder incidence activities maxDraws rest selection

/-- A cover grown at random. -/
def sampledCover (incidence : Incidence) (activities : Array Binary64) (maxDraws : Int) :
    Run σ Selection := do
  let order ← Run.draw (RandomStream.shuffle (List.range incidence.pathCount))
  let selection ← coverInOrder incidence activities maxDraws order (.empty incidence.pathCount)
  if selection.isComplete then pure selection
  else throw (.violation (.constructionLeft selection.unhit))

end Transversal
