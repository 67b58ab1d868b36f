/-
The improvements of a run as a table.

* `historyTable?`: the rounds and sizes; with a lower bound, also how far each size is from it.
-/
import Transversal.Table.Column

namespace Transversal

/-- A table with named columns. -/
structure Table where
  columns : List String
  rows : List (List Int)
deriving DecidableEq

/-- The improvements as a table. The lower bound is a column of its own. -/
def historyTable? (history : List (Int × Int)) (lowerBound : Option Int) : Except Fault Table := do
  let rounds ← Column.of? (history.map (·.1))
  let sizes ← Column.of? (history.map (·.2))
  let plain := List.zipWith (fun round size => [round, size]) rounds.entries sizes.entries
  match lowerBound with
  | none => pure ⟨["round", "size"], plain⟩
  | some bound =>
    let bounds ← Column.constant? history.length bound
    let gaps ← sizes.less? bound
    let judged := List.zipWith (fun bound gap => [bound, gap]) bounds.entries gaps.entries
    pure ⟨["round", "size", "lower_bound", "gap"], List.zipWith (· ++ ·) plain judged⟩

end Transversal
