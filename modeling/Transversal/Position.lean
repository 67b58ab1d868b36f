/-
Places in a sequence, counted from either end.

* `place?`: the place that an index denotes; a negative one counts from the end.
* `entryAt?`: the entry at such an index.
-/

namespace Transversal

/-- The place that an index denotes among `size` entries: counted from the start, or from the end
if it is negative. -/
def place? (size : Nat) (index : Int) : Option Nat :=
  if 0 ≤ index then
    if index < size then some index.toNat else none
  else if 0 ≤ index + size then some (index + size).toNat else none

theorem place?_lt {size : Nat} {index : Int} {place : Nat}
    (found : place? size index = some place) : place < size := by
  unfold place? at found
  split at found <;> split at found <;> simp at found <;> omega

theorem place?_natCast {size place : Nat} (inRange : place < size) :
    place? size place = some place := by
  simp [place?, inRange]

/-- The entry at an index that may count from the end. -/
def entryAt? {α : Type} (entries : Array α) (index : Int) : Option α :=
  (place? entries.size index).bind (entries[·]?)

theorem entryAt?_natCast {α : Type} {entries : Array α} {place : Nat}
    (inRange : place < entries.size) : entryAt? entries place = some entries[place] := by
  simp [entryAt?, place?_natCast inRange, inRange]

end Transversal
