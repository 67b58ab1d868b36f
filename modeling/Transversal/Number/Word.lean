/-
The ranges of whole numbers: machine words of 64 bits, and numbers that can be written.

* `fitsSigned`, `fitsUnsigned`: whether a whole number is in the range of a word.
* `isWritable`: whether a whole number has at most 4300 digits.
-/

namespace Transversal

/-- How many values a word has. -/
def wordValueCount : Int := 0x10000000000000000

/-- A number that a signed word holds. -/
def fitsSigned (value : Int) : Bool :=
  -0x8000000000000000 ≤ value && value < 0x8000000000000000

/-- A number that an unsigned word holds. -/
def fitsUnsigned (value : Int) : Bool := 0 ≤ value && value < wordValueCount

/-- The most digits that a whole number may have, read or written. -/
def maxIntegerDigits : Nat := 4300

/-- Whether a whole number has few enough digits to be written. -/
def isWritable (value : Int) : Bool := value.natAbs < Nat.pow 10 maxIntegerDigits

end Transversal
