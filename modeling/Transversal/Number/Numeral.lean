/-
Numbers as they are written in files and on command lines.

* `digitGroup?`: decimal digits of any script, with single underscores between them.
* `readInteger?`: a whole number with an optional sign, of at most 4300 digits.
* `readBinary64?`: a decimal fraction with an optional exponent, an infinity or a NaN.
-/
import Transversal.Number.Decimal
import Transversal.Number.Word
import Transversal.Text.Blank
import Transversal.Text.Digit

namespace Transversal

/-- The digits of a group read from its end, and whether the text read so far starts with one. -/
structure DigitScan where
  digits : List Nat
  startsWithDigit : Bool

/-- One more character in front: a digit, or an underscore before a digit. -/
def DigitScan.prepend (c : Char) (scan : Option DigitScan) : Option DigitScan := do
  let scan ← scan
  if c = '_' then
    if scan.startsWithDigit then some ⟨scan.digits, false⟩ else none
  else
    let digit ← digitValue? c
    some ⟨digit :: scan.digits, true⟩

/-- The digits of a group; nothing if it is empty, holds anything but digits and underscores, or
has an underscore that does not stand between two digits. -/
def digitGroup? (text : List Char) : Option (List Nat) := do
  let scan ← text.foldr DigitScan.prepend (some ⟨[], false⟩)
  if scan.startsWithDigit then some scan.digits else none

/-- A digit group that may be missing altogether. -/
def optionalDigitGroup? (text : List Char) : Option (List Nat) :=
  if text.isEmpty then some [] else digitGroup? text

/-- The number that decimal digits denote, the leading one first. -/
def ofDigits (digits : List Nat) : Nat := digits.foldl (fun value digit => 10 * value + digit) 0

/-- A sign in front of a numeral, and the rest. -/
def splitSign : List Char → Bool × List Char
  | '-' :: rest => (true, rest)
  | '+' :: rest => (false, rest)
  | text => (false, text)

/-- The blanks that a numeral may stand between: all but the information separators. -/
def isNumeralBlank (c : Char) : Bool := isBlank c && !(0x1C ≤ c.toNat && c.toNat ≤ 0x1F)

/-- A numeral without the blanks around it. -/
def trimNumeral (text : List Char) : List Char :=
  ((text.dropWhile isNumeralBlank).reverse.dropWhile isNumeralBlank).reverse

/-- A whole number. -/
def readInteger? (text : List Char) : Option Int := do
  let (negative, body) := splitSign (trimNumeral text)
  let digits ← digitGroup? body
  if digits.length ≤ maxIntegerDigits then
    let size : Int := ofDigits digits
    some (if negative then -size else size)
  else none

/-- An infinity or a NaN by name, in any case. -/
def namedBinary64? (negative : Bool) (text : List Char) : Option Binary64 :=
  let name := String.ofList (text.map Char.toLower)
  if name = "inf" || name = "infinity" then some (.infinite negative)
  else if name = "nan" then some .nan
  else none

/-- The exponent after its mark; no mark means zero. -/
def readExponent? : List Char → Option Int
  | [] => some 0
  | _ :: text => do
    let (negative, body) := splitSign text
    let digits ← digitGroup? body
    let size : Int := ofDigits digits
    some (if negative then -size else size)

/-- A fraction: digits on at least one side of an optional point, and an optional exponent. -/
def readFraction? (negative : Bool) (text : List Char) : Option Binary64 := do
  let isMark (c : Char) : Bool := c = 'e' || c = 'E'
  let significand := text.takeWhile (!isMark ·)
  let exponent ← readExponent? (text.dropWhile (!isMark ·))
  let whole ← optionalDigitGroup? (significand.takeWhile (· ≠ '.'))
  let places ← optionalDigitGroup? ((significand.dropWhile (· ≠ '.')).drop 1)
  if whole.isEmpty && places.isEmpty then none
  else some (.ofDecimal negative ⟨ofDigits (whole ++ places), exponent - places.length⟩)

/-- A double, by name or as a fraction. -/
def readBinary64? (text : List Char) : Option Binary64 :=
  let (negative, body) := splitSign (trimNumeral text)
  (namedBinary64? negative body).or (readFraction? negative body)

end Transversal
