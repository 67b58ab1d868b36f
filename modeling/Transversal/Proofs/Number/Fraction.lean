/-
**A random fraction of a double is below it, unless the double is one of the smallest.**

A fraction has 53 bits. Up to `2 ^ 52` units doubles are as close as units, so that the largest
fraction of one is less than a unit below it and is rounded up again; above, the neighbour below is
nearer.

* `Magnitude.nearestUnits_mul_left`: a quotient may be extended.
* `Magnitude.nearestUnits_mul_two_pow`: from `2 ^ 52` on, doubling commutes with rounding.
* `Magnitude.portion`: what a fraction of a double is rounded to; `Magnitude.portion_largest`,
  `Magnitude.portion_lt`: how large it is.
* `Binary64.units?_fraction_mul`: this is the product of the fraction and the double.
-/
import Transversal.Proofs.Number.Rounding

namespace Transversal

namespace Magnitude

/-! ### Quotients -/

theorem roundHalfEven_mul_left {factor : Nat} (positive : 0 < factor) (num den : Nat) :
    roundHalfEven (factor * num) (factor * den) = roundHalfEven num den := by
  have above : factor * den < 2 * (factor * (num % den)) ↔ den < 2 * (num % den) := by
    rw [Nat.mul_left_comm, Nat.mul_lt_mul_left positive]
  have tie : 2 * (factor * (num % den)) = factor * den ↔ 2 * (num % den) = den := by
    rw [Nat.mul_left_comm, Nat.mul_right_inj (Nat.ne_of_gt positive)]
  simp only [roundHalfEven, Nat.mul_div_mul_left _ _ positive, Nat.mul_mod_mul_left, above, tie]

/-- A quotient may be extended. -/
theorem nearestUnits_mul_left {factor : Nat} (positive : 0 < factor) (num den : Nat) :
    nearestUnits (factor * num) (factor * den) = nearestUnits num den := by
  unfold nearestUnits droppedBits
  rw [Nat.mul_div_mul_left _ _ positive, Nat.mul_assoc, roundHalfEven_mul_left positive]

/-- A quotient that is whole is shortened. -/
theorem nearestUnits_shortened {factor : Nat} (positive : 0 < factor) (first second : Nat) :
    nearestUnits (first * (second * factor)) factor = nearestUnits (second * first) 1 := by
  have extended := nearestUnits_mul_left positive (second * first) 1
  rw [Nat.mul_one] at extended
  rw [← extended]
  congr 1
  ring

/-- **From `2 ^ 52` on, doubling commutes with rounding.** -/
theorem nearestUnits_mul_two_pow {num den : Nat} (large : 2 ^ 52 ≤ num / den) (shift : Nat) :
    nearestUnits (num * 2 ^ shift) den = nearestUnits num den * 2 ^ shift := by
  have positive : 0 < den := by
    rcases Nat.eq_zero_or_pos den with rfl | positive
    · rw [Nat.div_zero] at large
      omega
    · exact positive
  have nonzero : num / den ≠ 0 := by omega
  have low : 2 ^ ((num / den).log2 + shift) ≤ num * 2 ^ shift / den := by
    rw [Nat.le_div_iff_mul_le positive, Nat.pow_add, Nat.mul_right_comm]
    refine Nat.mul_le_mul_right _ (le_trans ?_ (Nat.div_mul_le_self num den))
    exact Nat.mul_le_mul_right _ (Nat.log2_self_le nonzero)
  have high : num * 2 ^ shift / den < 2 ^ ((num / den).log2 + shift + 1) := by
    rw [Nat.div_lt_iff_lt_mul positive, Nat.add_right_comm, Nat.pow_add, Nat.mul_right_comm]
    refine Nat.mul_lt_mul_of_pos_right ?_ (Nat.two_pow_pos shift)
    exact (Nat.div_lt_iff_lt_mul positive).mp Nat.lt_log2_self
  have shifted : (num * 2 ^ shift / den).log2 = (num / den).log2 + shift :=
    (Nat.log2_eq_iff (Nat.ne_of_gt (lt_of_lt_of_le (Nat.two_pow_pos _) low))).mpr ⟨low, high⟩
  have log : 52 ≤ (num / den).log2 := (Nat.le_log2 nonzero).mpr large
  have dropped : droppedBits (num * 2 ^ shift) den = shift + droppedBits num den := by
    unfold droppedBits
    omega
  unfold nearestUnits
  rw [dropped, Nat.pow_eq, Nat.pow_eq, Nat.pow_add, Nat.mul_left_comm den, Nat.mul_comm num,
    roundHalfEven_mul_left (Nat.two_pow_pos shift)]
  ring

/-! ### Portions -/

/-- What a number of units is rounded to, times a fraction of `2 ^ 53`. -/
def portion (numerator units : Nat) : Nat := nearestUnits (numerator * units) (2 ^ 53)

theorem portion_mono {numerator other : Nat} (le : numerator ≤ other) (units : Nat) :
    portion numerator units ≤ portion other units :=
  nearestUnits_mono _ (Nat.mul_le_mul_right units le)

/-- The whole of a double is the double. -/
theorem portion_full (size : Magnitude) : portion (2 ^ 53) size.units = size.units := by
  have extended := nearestUnits_mul_left (Nat.two_pow_pos 53) size.units 1
  rw [Nat.mul_one] at extended
  rw [portion, extended, nearestUnits_units]

/-- The quotient and the remainder of the largest portion. -/
theorem largest_div_mod {units : Nat} (positive : 0 < units) (bounded : units ≤ 2 ^ 53) :
    (2 ^ 53 - 1) * units / 2 ^ 53 = units - 1 ∧
      (2 ^ 53 - 1) * units % 2 ^ 53 = 2 ^ 53 - units := by
  omega

/-- **The largest portion**, as long as doubles are as close as units: all of up to `2 ^ 52` units,
and one unit less than more of them. -/
theorem portion_largest {units : Nat} (positive : 0 < units) (bounded : units ≤ 2 ^ 53) :
    portion (2 ^ 53 - 1) units = if units ≤ 2 ^ 52 then units else units - 1 := by
  obtain ⟨quotient, remainder⟩ := largest_div_mod positive bounded
  have whole : droppedBits ((2 ^ 53 - 1) * units) (2 ^ 53) = 0 := by
    unfold droppedBits
    rw [quotient]
    by_cases single : units - 1 = 0
    · rw [single, Nat.log2_zero]
    · have log : (units - 1).log2 < 53 := (Nat.log2_lt single).mpr (by omega)
      omega
  unfold portion nearestUnits
  rw [whole, Nat.pow_eq, Nat.pow_zero, Nat.mul_one, Nat.mul_one]
  -- at `2 ^ 52` units there is a tie, and the quotient is odd
  simp only [roundHalfEven, quotient, remainder]
  split_ifs <;> omega

/-- Past `2 ^ 52` units a double is a number of more than 52 bits, doubled some times. -/
theorem exists_mul_two_pow {units : Nat} (grid : OnGrid units) (large : 2 ^ 52 < units) :
    ∃ kept shift, units = kept * 2 ^ shift ∧ 2 ^ 52 < kept ∧ kept ≤ 2 ^ 53 := by
  have nonzero : units ≠ 0 := by omega
  have log : 52 ≤ units.log2 := (Nat.le_log2 nonzero).mpr large.le
  obtain ⟨kept, same⟩ := grid.2
  obtain ⟨shift, split⟩ : ∃ shift, units.log2 = 52 + shift := ⟨_, (Nat.add_sub_cancel' log).symm⟩
  rw [split, Nat.add_sub_cancel_left, Nat.pow_eq] at same
  have above := Nat.log2_self_le nonzero
  have below : units < 2 ^ (units.log2 + 1) := Nat.lt_log2_self
  rw [split, Nat.pow_add] at above
  rw [split, Nat.add_right_comm, Nat.pow_add] at below
  rw [same, Nat.mul_comm (2 ^ shift)] at above below
  have least : 2 ^ 52 ≤ kept := Nat.le_of_mul_le_mul_right above (Nat.two_pow_pos shift)
  have most : kept < 2 ^ 53 := Nat.lt_of_mul_lt_mul_right below
  rcases Nat.lt_or_eq_of_le least with more | rfl
  · exact ⟨kept, shift, by rw [same, Nat.mul_comm], more, most.le⟩
  · -- a power of two is taken one place further to the left
    cases shift with
    | zero =>
      rw [same] at large
      omega
    | succ shift =>
      refine ⟨2 ^ 53, shift, ?_, by decide, le_refl _⟩
      rw [same]
      ring

/-- **Every portion of more than `2 ^ 52` units** is smaller. -/
theorem portion_lt {numerator units : Nat} (grid : OnGrid units) (large : 2 ^ 52 < units)
    (proper : numerator < 2 ^ 53) : portion numerator units < units := by
  obtain ⟨kept, shift, rfl, least, most⟩ := exists_mul_two_pow grid large
  have next := portion_largest (by omega) most
  rw [if_neg (Nat.not_le.mpr least)] at next
  have quotient := (largest_div_mod (by omega) most).1
  calc portion numerator (kept * 2 ^ shift)
      ≤ portion (2 ^ 53 - 1) (kept * 2 ^ shift) := portion_mono (by omega) _
    _ = portion (2 ^ 53 - 1) kept * 2 ^ shift := by
        unfold portion
        rw [← Nat.mul_assoc]
        exact nearestUnits_mul_two_pow (by omega) shift
    _ < kept * 2 ^ shift := by
        rw [next]
        exact Nat.mul_lt_mul_of_pos_right (by omega) (Nat.two_pow_pos shift)

end Magnitude

/-! ### Products -/

namespace Binary64

open Magnitude

/-- How many units make `2 ^ -53`, the step from one fraction to the next. -/
@[irreducible]
def fractionStep : Nat := Nat.pow 2 1021

theorem fractionStep_pos : 0 < fractionStep := by decide +kernel

theorem one_eq : one = fractionStep * Nat.pow 2 53 := by decide +kernel

theorem onGrid_fraction {numerator : Nat} (proper : numerator < 2 ^ 53) :
    OnGrid (fractionStep * numerator) := by
  have limit : fractionStep * 2 ^ 53 ≤ unitLimit := by decide +kernel
  have small : fractionStep * numerator < unitLimit :=
    lt_of_lt_of_le (Nat.mul_lt_mul_of_pos_left proper fractionStep_pos) limit
  obtain ⟨drop, power⟩ : ∃ drop, fractionStep = Nat.pow 2 drop := ⟨1021, by decide +kernel⟩
  refine ⟨small, ?_⟩
  rw [Nat.mul_comm, power]
  exact two_pow_log2_dvd proper.le

theorem nearest?_congr {num den other base : Nat}
    (same : nearestUnits num den = nearestUnits other base) :
    nearest? num den = nearest? other base := by
  unfold nearest?
  simp only [same]

theorem nearest_of_nearest? {negative : Bool} {num den : Nat} {size : Magnitude}
    (rounded : nearest? num den = some size) :
    nearest negative num den = .finite negative size := by
  unfold nearest
  rw [rounded]

/-- A fraction needs no rounding. -/
theorem ofFraction_eq (fraction : Fin (Nat.pow 2 53)) :
    ofFraction fraction =
      .finite false ⟨fractionStep * fraction.val, onGrid_fraction fraction.isLt⟩ := by
  have extended : nearestUnits (fraction.val * one) (Nat.pow 2 53) =
      nearestUnits (fractionStep * fraction.val) 1 := by
    rw [one_eq]
    exact nearestUnits_shortened (Nat.two_pow_pos 53) _ _
  have rounded := (nearest?_congr extended).trans
    (nearest?_units ⟨_, onGrid_fraction fraction.isLt⟩)
  exact nearest_of_nearest? rounded

theorem mul_finite (first second : Bool) (x y : Magnitude) :
    Binary64.finite first x * .finite second y =
      nearest (first != second) (x.units * y.units) one := by
  show mul (.finite first x) (.finite second y) = _
  rw [mul]

/-- **The product of a fraction and a positive double.** -/
theorem units?_fraction_mul (fraction : Fin (Nat.pow 2 53)) {x : Binary64} {units : Nat}
    (value : x.units? = some (units : Int)) (positive : 0 < units) :
    OnGrid units ∧
      (ofFraction fraction * x).units? = some (portion fraction.val units : Int) := by
  cases x with
  | nan => cases value
  | infinite negative => cases value
  | finite negative size =>
    cases negative with
    | true =>
      have same : -(size.units : Int) = units := Option.some_inj.mp value
      omega
    | false =>
      have same : (size.units : Int) = units := Option.some_inj.mp value
      obtain rfl : size.units = units := by exact_mod_cast same
      refine ⟨size.onGrid, ?_⟩
      have product : nearestUnits (fractionStep * fraction.val * size.units) one =
          portion fraction.val size.units := by
        rw [one_eq, Nat.mul_assoc, nearestUnits_mul_left fractionStep_pos]
        rfl
      have bounded : portion fraction.val size.units < unitLimit :=
        lt_of_le_of_lt (portion_mono fraction.isLt.le _)
          ((portion_full size).trans_lt size.onGrid.1)
      rw [ofFraction_eq, mul_finite, units?_nearest, product]
      exact ⟨bounded, rfl⟩

/-- **Every fraction of a double of more than `2 ^ 52` units** is below it. -/
theorem fraction_mul_lt (fraction : Fin (Nat.pow 2 53)) {x : Binary64} {units : Nat}
    (value : x.units? = some (units : Int)) (large : 2 ^ 52 < units) :
    (ofFraction fraction * x).lt x := by
  obtain ⟨grid, product⟩ := units?_fraction_mul fraction value (by omega)
  rw [lt_iff_units product value]
  exact_mod_cast portion_lt grid large fraction.isLt

/-- The largest fraction. -/
def largestFraction : Fin (Nat.pow 2 53) := ⟨2 ^ 53 - 1, by decide⟩

/-- **The largest fraction of up to `2 ^ 52` units** is all of them. -/
theorem units?_largestFraction_mul {x : Binary64} {units : Nat}
    (value : x.units? = some (units : Int)) (positive : 0 < units) (small : units ≤ 2 ^ 52) :
    (ofFraction largestFraction * x).units? = some (units : Int) := by
  have product := (units?_fraction_mul largestFraction value positive).2
  rwa [show portion largestFraction.val units = units from
    (portion_largest positive (by omega)).trans (if_pos small)] at product

end Binary64

end Transversal
