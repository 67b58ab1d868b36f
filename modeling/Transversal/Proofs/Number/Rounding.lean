/-
**Rounding to doubles keeps the order, and leaves every double as it is.**

* `Magnitude.nearestUnits_mono`: of two quotients with one denominator, the larger is not rounded
  below the smaller.
* `Binary64.roundUnits`: a whole number of units rounded, with its sign; `roundUnits_mono`, and
  `roundUnits_of_units?` for doubles.
* `Binary64.units?_add`, `Binary64.units?_sub`: a finite sum or difference is the exact one rounded.
* `Binary64.lt_iff_units`, `Binary64.le_iff_units`: finite doubles compare as their units do.
* `Binary64.toRat?`: the value of a finite double; `Binary64.ceil?_eq` is the ceiling of the value.
-/
import Mathlib.Algebra.Order.Ring.Rat
import Mathlib.Data.Nat.Log
import Mathlib.Data.Rat.Floor
import Mathlib.Tactic.Linarith
import Mathlib.Tactic.Positivity
import Transversal.Number.Binary64

namespace Transversal

namespace Magnitude

/-! ### Magnitudes -/

theorem roundHalfEven_mono {first second den : Nat} (le : first ≤ second) :
    roundHalfEven first den ≤ roundHalfEven second den := by
  have quotients : first / den ≤ second / den := Nat.div_le_div_right le
  rcases Nat.lt_or_eq_of_le quotients with less | same
  · exact le_trans (roundHalfEven_le first den) (le_trans less (le_roundHalfEven second den))
  · have remainders : first % den ≤ second % den := by
      have splitFirst := Nat.div_add_mod first den
      have splitSecond := Nat.div_add_mod second den
      rw [same] at splitFirst
      omega
    unfold roundHalfEven
    dsimp only
    rw [same]
    split_ifs <;> omega

theorem nearestUnits_le_two_pow (num den : Nat) :
    nearestUnits num den ≤ 2 ^ ((num / den).log2 + 1) := by
  simp only [nearestUnits, droppedBits, Nat.pow_eq]
  generalize quotient : num / den = whole
  have below : whole < 2 ^ (whole.log2 + 1) := Nat.lt_log2_self
  have rounded := roundHalfEven_le num (den * 2 ^ (whole.log2 - 52))
  rw [← Nat.div_div_eq_div_mul, quotient] at rounded
  have kept : whole / 2 ^ (whole.log2 - 52) < 2 ^ (whole.log2 + 1 - (whole.log2 - 52)) := by
    rw [Nat.div_lt_iff_lt_mul (Nat.two_pow_pos _), ← Nat.pow_add,
      Nat.sub_add_cancel (by omega)]
    exact below
  calc roundHalfEven num (den * 2 ^ (whole.log2 - 52)) * 2 ^ (whole.log2 - 52)
      ≤ 2 ^ (whole.log2 + 1 - (whole.log2 - 52)) * 2 ^ (whole.log2 - 52) :=
        Nat.mul_le_mul_right _ (le_trans rounded kept)
    _ = 2 ^ (whole.log2 + 1) := by rw [← Nat.pow_add, Nat.sub_add_cancel (by omega)]

theorem two_pow_le_nearestUnits {num den : Nat} (nonzero : num / den ≠ 0) :
    2 ^ (num / den).log2 ≤ nearestUnits num den := by
  simp only [nearestUnits, droppedBits, Nat.pow_eq]
  have rounded := le_roundHalfEven num (den * 2 ^ ((num / den).log2 - 52))
  rw [← Nat.div_div_eq_div_mul] at rounded
  generalize num / den = whole at nonzero rounded ⊢
  have above : 2 ^ whole.log2 ≤ whole := Nat.log2_self_le nonzero
  have kept : 2 ^ (whole.log2 - (whole.log2 - 52)) ≤ whole / 2 ^ (whole.log2 - 52) := by
    rw [Nat.le_div_iff_mul_le (Nat.two_pow_pos _), ← Nat.pow_add, Nat.sub_add_cancel (by omega)]
    exact above
  calc 2 ^ whole.log2
      = 2 ^ (whole.log2 - (whole.log2 - 52)) * 2 ^ (whole.log2 - 52) := by
        rw [← Nat.pow_add, Nat.sub_add_cancel (by omega)]
    _ ≤ roundHalfEven num (den * 2 ^ (whole.log2 - 52)) * 2 ^ (whole.log2 - 52) :=
        Nat.mul_le_mul_right _ (le_trans kept rounded)

/-- **Rounding keeps the order.** Where two numbers drop different amounts of bits, a power of two
lies between them and is kept. -/
theorem nearestUnits_mono {first second : Nat} (den : Nat) (le : first ≤ second) :
    nearestUnits first den ≤ nearestUnits second den := by
  have quotients : first / den ≤ second / den := Nat.div_le_div_right le
  have logs : (first / den).log2 ≤ (second / den).log2 := by
    rw [Nat.log2_eq_log_two, Nat.log2_eq_log_two]
    exact Nat.log_mono_right quotients
  by_cases same : droppedBits first den = droppedBits second den
  · unfold nearestUnits
    rw [same]
    exact Nat.mul_le_mul_right _ (roundHalfEven_mono le)
  · have longer : (first / den).log2 + 1 ≤ (second / den).log2 := by
      unfold droppedBits at same
      omega
    have nonzero : second / den ≠ 0 := by
      intro zero
      rw [zero, Nat.log2_zero] at longer
      omega
    calc nearestUnits first den
        ≤ 2 ^ ((first / den).log2 + 1) := nearestUnits_le_two_pow first den
      _ ≤ 2 ^ (second / den).log2 := Nat.pow_le_pow_right (by decide) longer
      _ ≤ nearestUnits second den := two_pow_le_nearestUnits nonzero

theorem nearestUnits_zero : nearestUnits 0 1 = 0 := nearestUnits_units zero

end Magnitude

namespace Binary64

/-! ### Whole numbers of units -/

theorem unitLimit_pos : 0 < unitLimit := by decide +kernel

/-- A whole number of units, rounded. -/
def roundUnits (units : Int) : Int :=
  signed (units < 0) (Magnitude.nearestUnits units.natAbs 1)

@[simp] theorem roundUnits_zero : roundUnits 0 = 0 := by
  rw [roundUnits, Int.natAbs_zero, Magnitude.nearestUnits_zero]
  rfl

theorem roundUnits_natCast (units : Nat) :
    roundUnits units = Magnitude.nearestUnits units 1 := by
  have natural : decide ((units : Int) < 0) = false := by simp
  rw [roundUnits, natural, Int.natAbs_natCast]
  rfl

theorem roundUnits_neg (units : Int) : roundUnits (-units) = -roundUnits units := by
  rcases lt_trichotomy units 0 with negative | rfl | positive
  · have natural : decide (-units < 0) = false := by simp [negative.le]
    have strict : decide (units < 0) = true := by simp [negative]
    rw [roundUnits, roundUnits, natural, strict, Int.natAbs_neg]
    simp [signed]
  · simp
  · have natural : decide (units < 0) = false := by simp [positive.le]
    have strict : decide (-units < 0) = true := by simp [positive]
    rw [roundUnits, roundUnits, natural, strict, Int.natAbs_neg]
    simp [signed]

theorem roundUnits_nonneg {units : Int} (natural : 0 ≤ units) : 0 ≤ roundUnits units := by
  obtain ⟨size, rfl⟩ := Int.eq_ofNat_of_zero_le natural
  rw [roundUnits_natCast]
  exact Int.natCast_nonneg _

/-- **Rounding keeps the order**, also of numbers with signs. -/
theorem roundUnits_mono {first second : Int} (le : first ≤ second) :
    roundUnits first ≤ roundUnits second := by
  have natural : ∀ {low high : Int}, 0 ≤ low → low ≤ high → roundUnits low ≤ roundUnits high := by
    intro low high positive below
    obtain ⟨lowSize, rfl⟩ := Int.eq_ofNat_of_zero_le positive
    obtain ⟨highSize, rfl⟩ := Int.eq_ofNat_of_zero_le (le_trans positive below)
    rw [roundUnits_natCast, roundUnits_natCast]
    exact_mod_cast Magnitude.nearestUnits_mono 1 (by exact_mod_cast below)
  rcases le_total 0 first with positive | negative
  · exact natural positive le
  · rcases le_total 0 second with positive | negative'
    · have below := roundUnits_nonneg (Int.neg_nonneg_of_nonpos negative)
      rw [roundUnits_neg] at below
      have above := roundUnits_nonneg positive
      omega
    · have reflected := natural (Int.neg_nonneg_of_nonpos negative') (Int.neg_le_neg le)
      rw [roundUnits_neg, roundUnits_neg] at reflected
      omega

theorem natAbs_roundUnits (units : Int) :
    (roundUnits units).natAbs = Magnitude.nearestUnits units.natAbs 1 := by
  rw [roundUnits, signed]
  split <;> simp

/-- **A double is left as it is.** -/
theorem roundUnits_of_units? {x : Binary64} {units : Int} (value : x.units? = some units) :
    roundUnits units = units := by
  cases x with
  | nan => cases value
  | infinite negative => cases value
  | finite negative size =>
    cases value
    cases negative with
    | true =>
      show roundUnits (-size.units) = -size.units
      rw [roundUnits_neg, roundUnits_natCast, Magnitude.nearestUnits_units]
    | false =>
      show roundUnits size.units = size.units
      rw [roundUnits_natCast, Magnitude.nearestUnits_units]

theorem isFinite_iff {x : Binary64} : x.isFinite ↔ ∃ units, x.units? = some units := by
  cases x <;> simp [isFinite, units?]

theorem units?_nearest {negative : Bool} {num den : Nat} {units : Int} :
    (nearest negative num den).units? = some units ↔
      Magnitude.nearestUnits num den < unitLimit ∧
        signed negative (Magnitude.nearestUnits num den) = units := by
  unfold nearest Magnitude.nearest?
  by_cases bounded : Magnitude.nearestUnits num den < unitLimit
  · simp [bounded, units?]
  · simp [bounded, units?]

/-- **A sum of two doubles is the exact one rounded**, unless that is too large. -/
theorem units?_add {x y : Binary64} {a b : Int} (left : x.units? = some a)
    (right : y.units? = some b) {units : Int} :
    (x + y).units? = some units ↔
      (roundUnits (a + b)).natAbs < unitLimit ∧ roundUnits (a + b) = units := by
  cases x with
  | nan => cases left
  | infinite negative => cases left
  | finite negative size =>
    cases y with
    | nan => cases right
    | infinite negative' => cases right
    | finite negative' size' =>
      cases left
      cases right
      show (add (.finite negative size) (.finite negative' size')).units? = some units ↔ _
      simp only [add]
      generalize signed negative size.units + signed negative' size'.units = total
      rw [natAbs_roundUnits]
      by_cases zero : total = 0
      · subst zero
        rw [if_pos rfl, roundUnits_zero, Int.natAbs_zero, Magnitude.nearestUnits_zero]
        cases negative <;> cases negative' <;>
          simp [units?, signed, Magnitude.zero, unitLimit_pos]
      · rw [if_neg zero, units?_nearest, roundUnits]

theorem units?_neg {x : Binary64} {a : Int} (value : x.units? = some a) :
    (neg x).units? = some (-a) := by
  cases x with
  | nan => cases value
  | infinite negative => cases value
  | finite negative size =>
    cases value
    cases negative <;> simp [neg, units?, signed]

/-- A difference of two doubles is the exact one rounded, unless that is too large. -/
theorem units?_sub {x y : Binary64} {a b : Int} (left : x.units? = some a)
    (right : y.units? = some b) {units : Int} :
    (x - y).units? = some units ↔
      (roundUnits (a - b)).natAbs < unitLimit ∧ roundUnits (a - b) = units :=
  units?_add left (units?_neg right)

/-- A difference that is finite starts from a finite double. -/
theorem units?_of_sub {x y : Binary64} {units : Int} (value : (x - y).units? = some units) :
    ∃ a, x.units? = some a := by
  change (add x (neg y)).units? = some units at value
  cases x with
  | nan => cases value
  | finite negative size => exact ⟨_, rfl⟩
  | infinite negative =>
    cases y with
    | nan => cases value
    | finite other size => cases value
    | infinite other =>
      rw [neg, add] at value
      split at value
      · cases value
      · cases value

/-- A difference of finite doubles that has no value is too large. -/
theorem sub_eq_infinite {x y : Binary64} {a b : Int} (left : x.units? = some a)
    (right : y.units? = some b) (overflow : (x - y).units? = none) :
    ∃ negative, x - y = .infinite negative := by
  change (add x (neg y)).units? = none at overflow
  show ∃ negative, add x (neg y) = .infinite negative
  cases x with
  | nan => cases left
  | infinite negative => cases left
  | finite negative size =>
    cases y with
    | nan => cases right
    | infinite other => cases right
    | finite other subtracted =>
      rw [neg, add] at overflow ⊢
      split at overflow
      · cases overflow
      · rename_i nonzero
        rw [if_neg nonzero]
        unfold nearest at overflow ⊢
        split at overflow
        · cases overflow
        · exact ⟨_, rfl⟩

theorem units?_abs {x : Binary64} {a : Int} (value : x.units? = some a) :
    x.abs.units? = some |a| := by
  cases x with
  | nan => cases value
  | infinite negative => cases value
  | finite negative size =>
    cases value
    cases negative <;> simp [abs, units?, signed]

theorem lt_iff_units {x y : Binary64} {a b : Int} (left : x.units? = some a)
    (right : y.units? = some b) : x.lt y ↔ a < b := by
  cases x with
  | nan => cases left
  | infinite negative => cases left
  | finite negative size =>
    cases y with
    | nan => cases right
    | infinite negative' => cases right
    | finite negative' size' =>
      cases left
      cases right
      simp [lt]

theorem le_iff_units {x y : Binary64} {a b : Int} (left : x.units? = some a)
    (right : y.units? = some b) : x.le y ↔ a ≤ b := by
  cases x with
  | nan => cases left
  | infinite negative => cases left
  | finite negative size =>
    cases y with
    | nan => cases right
    | infinite negative' => cases right
    | finite negative' size' =>
      cases left
      cases right
      simp [le]

theorem units?_zero : zero.units? = some 0 := rfl

/-! ### Values -/

/-- The value of a finite double. -/
def toRat? (x : Binary64) : Option Rat :=
  x.units?.map fun units : Int => (units : Rat) / (Magnitude.one : Nat)

theorem one_pos : (0 : Rat) < (Magnitude.one : Nat) :=
  Nat.cast_pos.mpr (by decide +kernel)

theorem toRat?_eq_some_iff {x : Binary64} {value : Rat} :
    x.toRat? = some value ↔
      ∃ units, x.units? = some units ∧ value * (Magnitude.one : Nat) = units := by
  rw [toRat?, Option.map_eq_some_iff]
  refine exists_congr fun units => and_congr_right fun _ => ?_
  rw [div_eq_iff one_pos.ne', eq_comm]

/-- The ceiling of a double is that of its value. -/
theorem ceil?_eq {x : Binary64} {value : Rat} (finite : x.toRat? = some value) :
    x.ceil? = some ⌈value⌉ := by
  rw [toRat?, Option.map_eq_some_iff] at finite
  obtain ⟨units, found, rfl⟩ := finite
  rw [ceil?, found, Option.map_some, Rat.ceil_intCast_div_natCast]

end Binary64

end Transversal
