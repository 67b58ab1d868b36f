/-
Sums of many doubles, with the additions grouped so that rounding errors stay small.

* `shortSum`: up to 128 terms, in eight lanes that are joined at the end.
* `pairwiseSum`: longer lists are cut in two, near the middle.
* `sum`: the sum on top of zero, so that it is never a negative zero.
-/
import Transversal.Number.Binary64

namespace Transversal.Binary64

/-- Terms added one after the other. -/
def addAll (start : Binary64) (terms : List Binary64) : Binary64 := terms.foldl (· + ·) start

/-- Groups of eight terms added to eight lanes; the terms left over are returned with them. -/
def addToLanes (lanes terms : List Binary64) : List Binary64 × List Binary64 :=
  if terms.length < 8 then (lanes, terms)
  else addToLanes (List.zipWith (· + ·) lanes (terms.take 8)) (terms.drop 8)
termination_by terms.length
decreasing_by simp only [List.length_drop]; omega

/-- The sum of no terms: added to any number, a negative zero leaves it as it is. -/
def neutral : Binary64 := .finite true .zero

/-- Lanes joined in pairs, the pairs in pairs. -/
def joinLanes : List Binary64 → Binary64
  | [a, b, c, d, e, f, g, h] => ((a + b) + (c + d)) + ((e + f) + (g + h))
  | lanes => addAll neutral lanes

/-- Fewer than eight terms from left to right, more of them in eight lanes and then the rest. -/
def shortSum (terms : List Binary64) : Binary64 :=
  if terms.length < 8 then addAll neutral terms
  else
    let (lanes, rest) := addToLanes (terms.take 8) (terms.drop 8)
    addAll (joinLanes lanes) rest

/-- Where a long list is cut: at half its length, rounded down to a multiple of eight. -/
def cut (length : Nat) : Nat := length / 2 / 8 * 8

/-- The sum of any number of terms. -/
def pairwiseSum (terms : List Binary64) : Binary64 :=
  if terms.length ≤ 128 then shortSum terms
  else pairwiseSum (terms.take (cut terms.length)) + pairwiseSum (terms.drop (cut terms.length))
termination_by terms.length
decreasing_by
  all_goals simp only [List.length_take, List.length_drop, cut]; omega

/-- The total of a list, computed in doubles. -/
def sum (terms : List Binary64) : Binary64 := zero + pairwiseSum terms

end Transversal.Binary64
