/-
**Whole numbers that doubles can hold.**

* `Binary64.isFinite_ofInt_iff`: a whole number has a double unless it is rounded past the largest
  one; `Binary64.isFinite_ofInt_of_le`: so has every number nearer to zero.
* `Binary64.one_dvd_units`: from `2 ^ 1127` units on, which is `2 ^ 53`, every double is a whole
  number.
* `Binary64.isFinite_ofInt_ceil`: a double rounded up is a number that a double can hold.
-/
import Transversal.Proofs.Number.Sums

namespace Transversal.Binary64

theorem isFinite_ofInt_iff {value : Int} :
    (ofInt value).isFinite ↔
      Magnitude.nearestUnits (value.natAbs * Magnitude.one) 1 < unitLimit := by
  rw [isFinite_iff, ofInt]
  simp only [units?_nearest, exists_and_left, exists_eq', and_true]

/-- **A whole number nearer to zero** than one that a double can hold is another. -/
theorem isFinite_ofInt_of_le {value other : Int} (le : value.natAbs ≤ other.natAbs)
    (finite : (ofInt other).isFinite) : (ofInt value).isFinite := by
  rw [isFinite_ofInt_iff] at finite ⊢
  exact lt_of_le_of_lt (Magnitude.nearestUnits_mono 1 (Nat.mul_le_mul_right _ le)) finite

/-- Numbers up to a power of two are not rounded past it. -/
theorem nearestUnits_lt_unitLimit {units exponent : Nat} (le : units ≤ 2 ^ exponent)
    (small : exponent < 2098) : Magnitude.nearestUnits units 1 < unitLimit :=
  calc Magnitude.nearestUnits units 1
      ≤ Magnitude.nearestUnits (2 ^ exponent) 1 := Magnitude.nearestUnits_mono 1 le
    _ = 2 ^ exponent := nearestUnits_two_pow small
    _ < unitLimit := two_pow_lt_unitLimit small

/-- A large double is a whole number. -/
theorem one_dvd_units {size : Magnitude} (large : 1126 ≤ size.units.log2) :
    Magnitude.one ∣ size.units := by
  have grid := size.onGrid.2
  obtain ⟨exponent, stated⟩ : ∃ exponent, exponent = 1074 := ⟨_, rfl⟩
  have unit : Magnitude.one = 2 ^ exponent := by
    rw [stated]
    decide +kernel
  rw [Nat.pow_eq] at grid
  rw [unit]
  exact (Nat.pow_dvd_pow 2 (by omega)).trans grid

/-- A number rounded up to a multiple of another one is changed by less than that one. -/
theorem natAbs_ceil_mul_le {one : Nat} (positive : 0 < one) (units : Int) :
    (-(-units / (one : Int))).natAbs * one ≤ units.natAbs + one := by
  have parts := Int.mul_ediv_add_emod (-units) one
  have above := Int.emod_nonneg (-units) (Int.natCast_ne_zero.mpr positive.ne')
  have below := Int.emod_lt_of_pos (-units) (Int.natCast_pos.mpr positive)
  have product : (-(-units / (one : Int))).natAbs * one =
      (one * (-units / (one : Int))).natAbs := by
    rw [Int.natAbs_neg, Int.natAbs_mul, Int.natAbs_natCast, Nat.mul_comm]
  rw [product]
  omega

/-- **A double rounded up** is a number that a double can hold. -/
theorem isFinite_ofInt_ceil {x : Binary64} {value : Int} (rounded : x.ceil? = some value) :
    (ofInt value).isFinite := by
  rw [ceil?, Option.map_eq_some_iff] at rounded
  obtain ⟨units, told, rfl⟩ := rounded
  cases x with
  | nan => cases told
  | infinite negative => cases told
  | finite negative size =>
    have same : units.natAbs = size.units := by
      cases told
      cases negative <;> simp [signed]
    rw [isFinite_ofInt_iff]
    by_cases large : 1126 ≤ size.units.log2
    · have whole : (Magnitude.one : Int) ∣ -units := by
        rw [Int.dvd_neg, Int.natCast_dvd, same]
        exact one_dvd_units large
      have back : (-(-units / (Magnitude.one : Int))).natAbs * Magnitude.one = size.units := by
        rw [← same, Int.natAbs_neg, ← Int.natAbs_neg units, ← Int.ediv_mul_cancel whole,
          Int.natAbs_mul, Int.ediv_mul_cancel whole, Int.natAbs_natCast]
      rw [back, Magnitude.nearestUnits_units]
      exact size.onGrid.1
    · obtain ⟨exponent, stated⟩ : ∃ exponent, exponent = 1126 := ⟨_, rfl⟩
      have below : size.units < 2 ^ exponent := by
        refine lt_of_lt_of_le Nat.lt_log2_self (Nat.pow_le_pow_right Nat.two_pos ?_)
        omega
      have unit : Magnitude.one ≤ 2 ^ exponent := by
        rw [stated]
        decide +kernel
      have near := natAbs_ceil_mul_le (by exact_mod_cast one_pos) units
      have small : (-(-units / (Magnitude.one : Int))).natAbs * Magnitude.one ≤
          2 ^ (exponent + 1) := by
        rw [Nat.pow_succ]
        omega
      exact nearestUnits_lt_unitLimit small (by omega)

end Transversal.Binary64
