/-
Columns of whole numbers, stored in machine words as long as they fit.

* `Storage.of?`: how a list of numbers is stored: in signed words of 64 bits, or else in unsigned
  ones, or else without any bound.
* `Column.less?`: every entry less a number. Words wrap around.
* `Column.minus`: the differences of two columns; doubles if one is signed and the other not.
-/
import Transversal.Fault
import Transversal.Number.Word

namespace Transversal

/-- How the numbers of a column are stored. -/
inductive Storage
  | signed
  | unsigned
  | unbounded
  | double
deriving DecidableEq

namespace Storage

/-- How numbers are stored, given whether a negative number, and one that only an unsigned word
holds, were met before them. What comes after the first number that settles it is not looked at;
what comes before it must not be too large for a double. -/
def scan? (negative large : Bool) : List Int → Except Fault Storage
  | [] => .ok (if large then .unsigned else .signed)
  | value :: rest => do
    let _ ← Binary64.ofInt? value
    let negative := negative || value < 0
    let large := large || !fitsSigned value
    if negative && large || !(fitsSigned value || fitsUnsigned value) then pure .unbounded
    else scan? negative large rest

/-- How numbers are stored. -/
def of? (values : List Int) : Except Fault Storage := scan? false false values

/-- A number as it is left by an operation on stored ones. -/
def wrap : Storage → Int → Int
  | .signed, value => value.bmod wordValueCount.toNat
  | .unsigned, value => value % wordValueCount
  | .unbounded, value => value
  | .double, value => value

end Storage

/-- A column of whole numbers. -/
structure Column where
  storage : Storage
  entries : List Int
deriving DecidableEq

namespace Column

/-- The column of some numbers. -/
def of? (values : List Int) : Except Fault Column :=
  (Storage.of? values).map (⟨·, values⟩)

/-- A column of as many equal numbers, which must fit a signed word. -/
def constant? (length : Nat) (value : Int) : Except Fault Column :=
  if length ≠ 0 && !fitsSigned value then .error (.overflow .signedWord)
  else .ok ⟨.signed, List.replicate length value⟩

/-- Every entry less a number. No negative number can be taken from unsigned words. -/
def less? (column : Column) (number : Int) : Except Fault Column :=
  if column.storage = .unsigned && number < 0 then .error (.overflow (.unsignedWord number))
  else .ok ⟨column.storage, column.entries.map fun entry => column.storage.wrap (entry - number)⟩

/-- The difference of two numbers in doubles. -/
def doubleDifference (first second : Int) : Int :=
  ((Binary64.ofInt first - Binary64.ofInt second).ceil?).getD 0

/-- The storage of differences. -/
def differenceStorage (first second : Storage) : Storage :=
  if first = .unbounded ∨ second = .unbounded then .unbounded
  else if first = second then first
  else .double

/-- The differences of two columns. -/
def minus (first second : Column) : Column :=
  let storage := differenceStorage first.storage second.storage
  let difference (entry other : Int) : Int :=
    if storage = .double then doubleDifference entry other else storage.wrap (entry - other)
  ⟨storage, List.zipWith difference first.entries second.entries⟩

end Column

end Transversal
