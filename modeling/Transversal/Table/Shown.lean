/-
How a column of doubles is shown, and what is read back from it.

* `isScientific`: whether a column is shown with exponents: it holds a number above a million and
  does not fit its width otherwise.
* `shownIn`: the number that is read back from an entry of a column.
-/
import Transversal.Number.Decimal

namespace Transversal

open Binary64

/-- The places after the point that a number is written with at first. -/
def shownPlaces : Nat := 6

/-- The widest that an entry may be, with its sign or a blank in front. -/
def maxShownWidth : Nat := 12

/-- A number of this size and more may need an exponent. -/
def million : Binary64 := .ofInt 1000000

/-- How many of the places of a number are zeros at the end. -/
def spareZeros (value : Binary64) : Nat :=
  ((value.toFixed shownPlaces).toList.reverse.takeWhile (· = '0')).length

/-- How many places all numbers of a column can do without. -/
def sharedZeros (column : List Binary64) : Nat :=
  ((column.filter isFinite).map spareZeros).foldl min shownPlaces

/-- The width of a number with all but so many of its places; one place is always left. -/
def shownWidth (zeros : Nat) (value : Binary64) : Nat :=
  let whole := ((value.abs.toFixed shownPlaces).toList.takeWhile (· ≠ '.')).length
  1 + whole + 1 + max 1 (shownPlaces - zeros)

/-- Whether a column is shown with exponents. -/
def isScientific (column : List Binary64) : Bool :=
  column.any (fun value => million.lt value.abs) &&
    (column.filter isFinite).any fun value =>
      maxShownWidth < shownWidth (sharedZeros column) value

/-- What is read back from an entry of a column. With an exponent it has seven digits; without one
a number with three places is shown in full. -/
def shownIn (column : List Binary64) (value : Binary64) : Binary64 :=
  if isScientific column then value.toDigits (shownPlaces + 1) else value

end Transversal
