/-
Decimals and doubles, both ways.

* `Binary64.ofDecimal`: the double nearest to `digits * 10 ^ exponent`.
* `Magnitude.shortest`: the decimal with the fewest digits that reads back as the same double, the
  nearest one of those.
* `Binary64.toText`: that decimal as text.
* `Binary64.toGeneral`, `Binary64.toFixed`: a given number of digits, or of places.
* `Binary64.toDigits`: the double that is read back from so many digits.
-/
import Transversal.Number.Binary64

namespace Transversal

/-- The number `digits * 10 ^ exponent`. -/
structure Decimal where
  digits : Nat
  exponent : Int
deriving DecidableEq

/-- The double nearest to `± digits * 10 ^ exponent`. Below `10 ^ -330` that is zero and from
`10 ^ 310` on it is infinite, whatever the digits; in between the quotient is formed exactly. -/
def Binary64.ofDecimal (negative : Bool) (number : Decimal) : Binary64 :=
  let places : Int := number.digits.log2 / 3 + 1
  if number.digits = 0 ∨ number.exponent + places < -330 then .finite negative .zero
  else if 310 < number.exponent then .infinite negative
  else if 0 ≤ number.exponent then
    nearest negative (number.digits * Nat.pow 10 number.exponent.toNat * Magnitude.one) 1
  else nearest negative (number.digits * Magnitude.one) (Nat.pow 10 (-number.exponent).toNat)

namespace Magnitude

/-- The magnitude divided by `10 ^ exponent`, as a numerator and a denominator. -/
def scaled (size : Magnitude) (exponent : Int) : Nat × Nat :=
  (size.units * Nat.pow 10 (-exponent).toNat, one * Nat.pow 10 exponent.toNat)

/-- The exponent of the leading decimal digit of a magnitude that is not zero. The bit length
gives it up to one, since `log₁₀ 2` is close to `0.30103`. -/
def leadingExponent (size : Magnitude) : Int :=
  let guess : Int := ((size.units.log2 : Int) - 1074) * 30103 / 100000
  let (num, den) := size.scaled guess
  if 10 * den ≤ num then guess + 1 else if num < den then guess - 1 else guess

/-- The multiple of `10 ^ exponent` that reads back as this magnitude: of the two neighbours the
nearer, if both do; an exact tie goes to the even one. -/
def readsBackOn? (size : Magnitude) (exponent : Int) : Option Decimal :=
  let (num, den) := size.scaled exponent
  let below : Decimal := ⟨num / den, exponent⟩
  let above : Decimal := ⟨num / den + 1, exponent⟩
  let nearer : Decimal := ⟨roundHalfEven num den, exponent⟩
  let readsBack (number : Decimal) : Bool :=
    Binary64.ofDecimal false number = .finite false size
  if readsBack below && readsBack above then some nearer
  else if readsBack below then some below
  else if readsBack above then some above
  else none

/-- The decimal with the fewest digits that reads back, and of those the nearest one. Seventeen
digits always do. -/
def shortest (size : Magnitude) : Decimal :=
  if size.units = 0 then ⟨0, 0⟩
  else
    let top := size.leadingExponent
    let grids := (List.range 17).map fun (digits : Nat) => top - digits
    match grids.findSome? size.readsBackOn? with
    | some number => number
    | none => ⟨(size.scaled (top - 16)).1 / (size.scaled (top - 16)).2, top - 16⟩

end Magnitude

/-- The decimal of `digits` significant digits that is nearest to a magnitude other than zero, a tie
going to the even last digit. -/
def Magnitude.toDigits (digits : Nat) (size : Magnitude) : Decimal :=
  let exponent := size.leadingExponent - (digits - 1 : Int)
  let (num, den) := size.scaled exponent
  ⟨roundHalfEven num den, exponent⟩

/-- Where a numeral is written positionally, and whether a whole number keeps its point. -/
structure NumeralStyle where
  positionalFrom : Int
  positionalBelow : Int
  pointAlways : Bool

namespace NumeralStyle

/-- Numbers that are read again: positional from `10 ^ -4` up to `10 ^ 16`, always with a point. -/
def exact : NumeralStyle := ⟨-4, 16, true⟩

/-- Numbers of `digits` significant digits, without trailing zeros. -/
def general (digits : Nat) : NumeralStyle := ⟨-4, digits, false⟩

end NumeralStyle

/-- An exponent with its sign and at least two digits. -/
def exponentText (exponent : Int) : String :=
  let digits := toString exponent.natAbs
  (if exponent < 0 then "e-" else "e+") ++ (if digits.length < 2 then "0" ++ digits else digits)

/-- The digits with the point after the first `point` of them, zeros filled in on either side. -/
def placePoint (digits : String) (point : Int) : String × String :=
  let zeros (count : Int) : String := String.ofList (List.replicate count.toNat '0')
  if point ≤ 0 then ("0", zeros (-point) ++ digits)
  else
    let all := digits.toList
    (String.ofList (all.take point.toNat) ++ zeros (point - all.length),
      String.ofList (all.drop point.toNat))

/-- Trailing zeros of a fraction removed. -/
def dropTrailingZeros (digits : String) : String :=
  String.ofList ((digits.toList.reverse.dropWhile (· = '0')).reverse)

/-- A decimal as text in a style; trailing zeros of its digits are not written. -/
def Decimal.toText (style : NumeralStyle) (number : Decimal) : String :=
  let written := toString number.digits
  let leading : Int := if number.digits = 0 then 0 else number.exponent + written.length - 1
  let digits := if number.digits = 0 then "0" else dropTrailingZeros written
  if style.positionalFrom ≤ leading ∧ leading < style.positionalBelow then
    let (whole, fraction) := placePoint digits (leading + 1)
    if fraction.isEmpty then
      if style.pointAlways then whole ++ ".0" else whole
    else whole ++ "." ++ fraction
  else
    let (first, rest) := placePoint digits 1
    (if rest.isEmpty then first else first ++ "." ++ rest) ++ exponentText leading

namespace Binary64

/-- The text of a double, given that of a magnitude. -/
def signedText (magnitudeText : Magnitude → String) : Binary64 → String
  | .nan => "nan"
  | .infinite negative => if negative then "-inf" else "inf"
  | .finite negative size => (if negative then "-" else "") ++ magnitudeText size

/-- The fewest digits that read back. -/
def toText : Binary64 → String := signedText fun size => size.shortest.toText .exact

instance : ToString Binary64 := ⟨toText⟩

/-- At most `digits` significant digits, a tie going to the even last digit. -/
def toGeneral (digits : Nat) : Binary64 → String := signedText fun size =>
  if size.units = 0 then "0" else (size.toDigits digits).toText (.general digits)

/-- The double nearest to the decimal of `digits` significant digits that is nearest to a double. -/
def toDigits (digits : Nat) : Binary64 → Binary64
  | .finite negative size =>
    if size.units = 0 then .finite negative size
    else .ofDecimal negative (size.toDigits digits)
  | other => other

/-- Exactly `places` digits after the point, a tie going to the even last digit. -/
def toFixed (places : Nat) : Binary64 → String := signedText fun size =>
  let (num, den) := size.scaled (-places)
  let rounded := roundHalfEven num den
  let fraction := toString (rounded % Nat.pow 10 places)
  let zeros := String.ofList (List.replicate (places - fraction.length) '0')
  toString (rounded / Nat.pow 10 places) ++ (if places = 0 then "" else "." ++ zeros ++ fraction)

end Binary64

end Transversal
