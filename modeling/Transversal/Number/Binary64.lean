/-
Double-precision numbers as exact data.

A finite double is a sign and a whole number of the smallest positive double, `2 ^ -1074`; every
operation is the exact result rounded to the nearest double, a tie going to the even neighbour.

* `Magnitude.nearest?`: the nearest double to a quotient, or nothing past the largest one.
* `Binary64.add`, `mul`, `div`, `lt`, `le`: the operations, with the rules of signed zeros,
  infinities and NaN.
* `Magnitude.nearest?_units`: a number that is a double already is its own nearest double.
-/

namespace Transversal

/-- The quotient `num / den` rounded to a whole number, a tie going to the even neighbour. -/
def roundHalfEven (num den : Nat) : Nat :=
  let quotient := num / den
  let twice := 2 * (num % den)
  if den < twice ∨ (twice = den ∧ quotient % 2 = 1) then quotient + 1 else quotient

/-- How many units of `2 ^ -1074` make `2 ^ 1024`, which is past the largest double. -/
def unitLimit : Nat := Nat.pow 2 2098

/-- The whole numbers of units that are doubles: below `2 ^ 1024`, and with at most 53 bits
between the first and the last one. -/
def OnGrid (units : Nat) : Prop :=
  units < unitLimit ∧ Nat.pow 2 (units.log2 - 52) ∣ units

instance (units : Nat) : Decidable (OnGrid units) := inferInstanceAs (Decidable (_ ∧ _))

/-- The absolute value of a finite double, counted in units of `2 ^ -1074`. -/
structure Magnitude where
  units : Nat
  onGrid : OnGrid units
deriving DecidableEq

namespace Magnitude

/-- How many units make the number one. -/
def one : Nat := Nat.pow 2 1074

theorem roundHalfEven_le (num den : Nat) : roundHalfEven num den ≤ num / den + 1 := by
  unfold roundHalfEven
  dsimp only
  split <;> omega

theorem le_roundHalfEven (num den : Nat) : num / den ≤ roundHalfEven num den := by
  unfold roundHalfEven
  dsimp only
  split <;> omega

/-- An exact quotient needs no rounding. -/
theorem roundHalfEven_mul {den : Nat} (positive : 0 < den) (quotient : Nat) :
    roundHalfEven (den * quotient) den = quotient := by
  simp only [roundHalfEven, Nat.mul_div_cancel_left _ positive, Nat.mul_mod_right]
  split <;> omega

/-- A quotient of at most 53 bits, shifted, keeps its last bit on the grid. -/
theorem two_pow_log2_dvd {kept drop : Nat} (bounds : kept ≤ Nat.pow 2 53) :
    Nat.pow 2 ((kept * Nat.pow 2 drop).log2 - 52) ∣ kept * Nat.pow 2 drop := by
  simp only [Nat.pow_eq] at bounds ⊢
  by_cases zero : kept = 0
  · simp [zero]
  by_cases full : kept = 2 ^ 53
  · rw [full, ← Nat.pow_add, Nat.log2_two_pow]
    exact Nat.pow_dvd_pow 2 (by omega)
  · have below : kept < 2 ^ 53 := by omega
    have small : (kept * 2 ^ drop).log2 < 53 + drop := by
      rw [Nat.log2_lt (Nat.mul_ne_zero zero (Nat.ne_of_gt (Nat.two_pow_pos drop))), Nat.pow_add]
      exact Nat.mul_lt_mul_of_pos_right below (Nat.two_pow_pos drop)
    exact Nat.dvd_trans (Nat.pow_dvd_pow 2 (by omega)) (Nat.dvd_mul_left _ _)

/-- The bits of the quotient `num / den` that a double has no room for. -/
def droppedBits (num den : Nat) : Nat := (num / den).log2 - 52

/-- The quotient `num / den` of units rounded to the nearest number of 53 bits. -/
def nearestUnits (num den : Nat) : Nat :=
  roundHalfEven num (den * Nat.pow 2 (droppedBits num den)) * Nat.pow 2 (droppedBits num den)

theorem nearestUnits_dvd (num den : Nat) :
    Nat.pow 2 ((nearestUnits num den).log2 - 52) ∣ nearestUnits num den := by
  apply two_pow_log2_dvd
  simp only [Nat.pow_eq]
  have kept := roundHalfEven_le num (den * 2 ^ droppedBits num den)
  have small : num / (den * 2 ^ droppedBits num den) < 2 ^ 53 := by
    rw [← Nat.div_div_eq_div_mul, Nat.div_lt_iff_lt_mul (Nat.two_pow_pos _), ← Nat.pow_add]
    refine Nat.lt_of_lt_of_le Nat.lt_log2_self (Nat.pow_le_pow_right (by decide) ?_)
    unfold droppedBits
    omega
  omega

/-- The double nearest to `num / den` units; nothing when that is `2 ^ 1024` or more. -/
def nearest? (num den : Nat) : Option Magnitude :=
  if bounded : nearestUnits num den < unitLimit then
    some ⟨nearestUnits num den, bounded, nearestUnits_dvd num den⟩
  else none

def zero : Magnitude := ⟨0, by decide +kernel⟩

/-- A number that is a double already is its own nearest double. -/
theorem nearestUnits_units (size : Magnitude) : nearestUnits size.units 1 = size.units := by
  obtain ⟨units, _, divides⟩ := size
  simp only [nearestUnits, droppedBits, Nat.div_one, Nat.one_mul]
  obtain ⟨kept, same⟩ := divides
  generalize units.log2 - 52 = drop at same ⊢
  subst same
  have positive : 0 < Nat.pow 2 drop := Nat.two_pow_pos drop
  rw [roundHalfEven_mul positive, Nat.mul_comm]

theorem nearest?_units (size : Magnitude) : nearest? size.units 1 = some size := by
  simp only [nearest?, nearestUnits_units]
  exact dif_pos size.onGrid.1

end Magnitude

/-- A double-precision number. All NaNs are one value; zero keeps its sign. -/
inductive Binary64
  | nan
  | infinite (negative : Bool)
  | finite (negative : Bool) (size : Magnitude)
deriving DecidableEq

namespace Binary64

instance : Inhabited Binary64 := ⟨.finite false .zero⟩

/-- The number of units of a finite double, with its sign. -/
def signed (negative : Bool) (units : Nat) : Int := if negative then -units else units

/-- The double nearest to `± num / den` units, infinite past the largest one. -/
def nearest (negative : Bool) (num den : Nat) : Binary64 :=
  match Magnitude.nearest? num den with
  | some size => .finite negative size
  | none => .infinite negative

/-- The double nearest to a whole number. -/
def ofInt (value : Int) : Binary64 := nearest (value < 0) (value.natAbs * Magnitude.one) 1

def zero : Binary64 := .finite false .zero

def isFinite : Binary64 → Bool
  | .finite _ _ => true
  | _ => false

/-- The value in units of `2 ^ -1074`, for a finite double. -/
def units? : Binary64 → Option Int
  | .finite negative size => some (signed negative size.units)
  | _ => none

def neg : Binary64 → Binary64
  | .nan => .nan
  | .infinite negative => .infinite !negative
  | .finite negative size => .finite (!negative) size

def abs : Binary64 → Binary64
  | .nan => .nan
  | .infinite _ => .infinite false
  | .finite _ size => .finite false size

/-- The sum. An exact zero is negative only if both terms are negative zeros. -/
def add : Binary64 → Binary64 → Binary64
  | .nan, _ | _, .nan => .nan
  | .infinite a, .infinite b => if a = b then .infinite a else .nan
  | .infinite a, .finite _ _ => .infinite a
  | .finite _ _, .infinite b => .infinite b
  | .finite a x, .finite b y =>
    let total := signed a x.units + signed b y.units
    if total = 0 then .finite (a && b) .zero
    else nearest (total < 0) total.natAbs 1

def sub (x y : Binary64) : Binary64 := add x (neg y)

def mul : Binary64 → Binary64 → Binary64
  | .nan, _ | _, .nan => .nan
  | .infinite a, .infinite b => .infinite (a != b)
  | .infinite a, .finite b y => if y.units = 0 then .nan else .infinite (a != b)
  | .finite a x, .infinite b => if x.units = 0 then .nan else .infinite (a != b)
  | .finite a x, .finite b y => nearest (a != b) (x.units * y.units) Magnitude.one

def div : Binary64 → Binary64 → Binary64
  | .nan, _ | _, .nan => .nan
  | .infinite _, .infinite _ => .nan
  | .infinite a, .finite b _ => .infinite (a != b)
  | .finite a _, .infinite b => .finite (a != b) .zero
  | .finite a x, .finite b y =>
    if y.units = 0 then
      if x.units = 0 then .nan else .infinite (a != b)
    else nearest (a != b) (x.units * Magnitude.one) y.units

/-- Strictly below; never with a NaN. -/
def lt : Binary64 → Binary64 → Bool
  | .nan, _ | _, .nan => false
  | .infinite a, .infinite b => a && !b
  | .infinite a, .finite _ _ => a
  | .finite _ _, .infinite b => !b
  | .finite a x, .finite b y => signed a x.units < signed b y.units

/-- Below or equal; never with a NaN. -/
def le : Binary64 → Binary64 → Bool
  | .nan, _ | _, .nan => false
  | .infinite a, .infinite b => a || !b
  | .infinite a, .finite _ _ => a
  | .finite _ _, .infinite b => !b
  | .finite a x, .finite b y => signed a x.units ≤ signed b y.units

/-- Above zero. -/
def isPositive (x : Binary64) : Bool := lt zero x

/-- The least whole number that is not below a finite double. -/
def ceil? (x : Binary64) : Option Int :=
  x.units?.map fun units => -(-units / (Magnitude.one : Int))

/-- The nearest whole number, a tie going to the even one, as a double of the same sign. -/
def roundToWhole : Binary64 → Binary64
  | .finite negative size =>
    nearest negative (roundHalfEven size.units Magnitude.one * Magnitude.one) 1
  | x => x

/-- The fraction `numerator / 2 ^ 53`, below one; it needs no rounding. -/
def ofFraction (numerator : Fin (Nat.pow 2 53)) : Binary64 :=
  nearest false (numerator.val * Magnitude.one) (Nat.pow 2 53)

instance : Add Binary64 := ⟨add⟩
instance : Sub Binary64 := ⟨sub⟩
instance : Mul Binary64 := ⟨mul⟩
instance : Div Binary64 := ⟨div⟩
instance : Neg Binary64 := ⟨neg⟩

end Binary64

end Transversal
