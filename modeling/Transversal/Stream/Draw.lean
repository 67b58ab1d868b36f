/-
Draws whose size is any whole number.

* `drawBits`: so many random bits.
* `drawBelow`: a number from zero up to a bound, without the bound.
* `drawOrder`: all of these numbers in a random order.
-/
import Transversal.Number.Word
import Transversal.Run
import Transversal.Stream.Twister

namespace Transversal

/-- The most bits that are drawn at once. -/
def maxDrawnBits : Int := 0x7FFFFFFF

/-- So many random bits, as a number. -/
def drawBits (count : Int) : Run Twister Nat :=
  if maxDrawnBits < count ∨ count < -maxDrawnBits - 1 then throw (.overflow .smallWord)
  else if count < 0 then throw (.value .negativeBits)
  else Run.draw (Twister.bits count.toNat)

/-- How many numbers there are from zero up to a bound. -/
def rangeLength? (bound : Int) : Except Fault Nat :=
  if 0 < bound && !fitsSigned bound then .error (.overflow .length) else .ok bound.toNat

/-- A number below a bound. There must be one. -/
def drawBelow {σ : Type} [RandomStream σ] (bound : Int) : Run σ Nat := do
  Run.drawPlace (← Run.lift (rangeLength? bound))

/-- All numbers below a bound in a random order. -/
def drawOrder {σ : Type} [RandomStream σ] (bound : Int) : Run σ (List Nat) := do
  let length ← Run.lift (rangeLength? bound)
  Run.draw (RandomStream.shuffle (List.range length))

end Transversal
