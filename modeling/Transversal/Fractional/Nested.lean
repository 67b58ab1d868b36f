/-
Activities given as lists that may be nested.

* `Nested.shape`: the lengths of the lists, level by level, as long as they agree.
* `Nested.flat?`: the activities, if they stand in one flat list; a nested one is refused by its
  number of values, and one whose levels do not agree by its shape.
-/
import Transversal.Fault

namespace Transversal

/-- A number, or a list of such things. -/
inductive Nested
  | number (value : Binary64)
  | list (items : List Nested)

namespace Nested

mutual

/-- How many numbers there are. -/
def count : Nested → Nat
  | .number _ => 1
  | .list items => countAll items

/-- How many numbers there are in a list. -/
def countAll : List Nested → Nat
  | [] => 0
  | item :: rest => item.count + countAll rest

end

mutual

/-- How deep lists are nested. -/
def depth : Nested → Nat
  | .number _ => 0
  | .list items => depthAll items + 1

/-- How deep the items of a list are nested. -/
def depthAll : List Nested → Nat
  | [] => 0
  | item :: rest => max item.depth (depthAll rest)

end

/-- The number itself. -/
def number? : Nested → Option Binary64
  | .number value => some value
  | .list _ => none

/-- The items of a list. -/
def items? : Nested → Option (List Nested)
  | .number _ => none
  | .list items => some items

/-- The common length of some lists; there is none of no lists. -/
def commonLength? : List (List Nested) → Option Nat
  | [] => none
  | first :: rest => if rest.all (·.length = first.length) then some first.length else none

/-- The lengths of the levels from here down, and what stands on the level where they end. -/
def levels : (depth : Nat) → List Nested → List Nat × List Nested
  | 0, level => ([], level)
  | depth + 1, level =>
    match level.mapM items? with
    | none => ([], level)
    | some lists =>
      match commonLength? lists with
      | none => ([], level)
      | some length =>
        let (lengths, last) := levels depth lists.flatten
        (length :: lengths, last)

/-- The lengths of all levels of a list that agree, and whether all of them do. -/
def shape (items : List Nested) : List Nat × Bool :=
  let (lengths, last) := levels (depthAll items) items
  (items.length :: lengths, last.all fun item => item.items?.isNone)

/-- The numbers of a flat list, of which so many are expected. -/
def flat? (expected : Int) (items : List Nested) : Except Fault (List Binary64) :=
  match items.mapM number? with
  | some values => .ok values
  | none =>
    match shape items with
    | (_, true) =>
      .error (.quoting [expected] (.report (.activityCount expected (countAll items))))
    | (lengths, false) => .error (.value (.raggedActivities lengths))

end Nested

end Transversal
