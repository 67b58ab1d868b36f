/-
**Sums of many doubles are finite.**

Powers of two are doubles and rounding keeps the order, so a sum of two doubles exceeds a power of
two that both stay within by one more power at most. A list is added up along a tree of additions;
the depth of the tree bounds the sum.

* `Binary64.Within`: a finite double within a power of two; `Binary64.Within.add`: one addition.
* `Binary64.within_pairwiseSum`: a list that is cut in two so many times.
* `Binary64.isFinite_sum`: so the sum of a list of numbers that are at most two is finite.
* `Binary64.lt_eq_not_le`: the two comparisons exclude each other, but for a NaN.
-/
import Mathlib.Data.List.Zip
import Transversal.Fault
import Transversal.Number.PairwiseSum
import Transversal.Proofs.Number.Rounding

namespace Transversal.Binary64

/-! ### Powers of two -/

theorem two_pow_lt_unitLimit {exponent : Nat} (small : exponent < 2098) :
    2 ^ exponent < unitLimit := by
  have limit : 2 ^ 2097 < unitLimit := by decide +kernel
  have grows : ∀ larger, exponent ≤ larger → 2 ^ exponent ≤ 2 ^ larger :=
    fun _ => Nat.pow_le_pow_right Nat.two_pos
  exact lt_of_le_of_lt (grows 2097 (by omega)) limit

/-- A power of two is a double, so it is not rounded. -/
theorem nearestUnits_two_pow {exponent : Nat} (small : exponent < 2098) :
    Magnitude.nearestUnits (2 ^ exponent) 1 = 2 ^ exponent := by
  refine Magnitude.nearestUnits_units ⟨2 ^ exponent, two_pow_lt_unitLimit small, ?_⟩
  rw [Nat.pow_eq, Nat.log2_two_pow]
  exact Nat.pow_dvd_pow 2 (Nat.sub_le _ _)

/-- A finite double, at most so many powers of two away from zero. -/
def Within (exponent : Nat) (x : Binary64) : Prop :=
  ∃ units, x.units? = some units ∧ units.natAbs ≤ 2 ^ (1074 + exponent)

namespace Within

variable {x y : Binary64} {exponent larger : Nat}

theorem mono (within : Within exponent x) (le : exponent ≤ larger) : Within larger x := by
  obtain ⟨units, value, bounded⟩ := within
  exact ⟨units, value, bounded.trans (Nat.pow_le_pow_right Nat.two_pos (by omega))⟩

/-- **One addition** is one power of two more. -/
theorem add (left : Within exponent x) (right : Within exponent y) (small : exponent < 1000) :
    Within (exponent + 1) (x + y) := by
  obtain ⟨a, leftValue, leftBounded⟩ := left
  obtain ⟨b, rightValue, rightBounded⟩ := right
  have exact_sum : (a + b).natAbs ≤ 2 ^ (1074 + (exponent + 1)) := by
    rw [← Nat.add_assoc, Nat.pow_succ]
    omega
  have rounded : (roundUnits (a + b)).natAbs ≤ 2 ^ (1074 + (exponent + 1)) := by
    rw [natAbs_roundUnits,
      ← nearestUnits_two_pow (show 1074 + (exponent + 1) < 2098 by omega)]
    exact Magnitude.nearestUnits_mono 1 exact_sum
  refine ⟨roundUnits (a + b), (units?_add leftValue rightValue).mpr ⟨?_, rfl⟩, rounded⟩
  exact lt_of_le_of_lt rounded (two_pow_lt_unitLimit (by omega))

end Within

theorem within_zero (exponent : Nat) : Within exponent zero :=
  ⟨0, rfl, Nat.zero_le _⟩

theorem within_neutral (exponent : Nat) : Within exponent neutral :=
  ⟨0, rfl, Nat.zero_le _⟩

/-! ### Short lists -/

variable {terms lanes : List Binary64} {exponent : Nat}

theorem within_addAll {start : Binary64} (first : Within exponent start)
    (bounded : ∀ term ∈ terms, Within exponent term) (small : exponent + terms.length ≤ 1000) :
    Within (exponent + terms.length) (addAll start terms) := by
  induction terms generalizing start exponent with
  | nil => exact first
  | cons term rest ih =>
    rw [List.forall_mem_cons] at bounded
    rw [List.length_cons] at small ⊢
    have next := first.add bounded.1 (by omega)
    have later := ih next (fun other member => (bounded.2 other member).mono (by omega)) (by omega)
    exact later.mono (by omega)

/-- Every lane takes one term in eight. -/
theorem within_addToLanes (lanesBounded : ∀ lane ∈ lanes, Within exponent lane)
    (bounded : ∀ term ∈ terms, Within exponent term) (small : exponent + terms.length ≤ 1000) :
    (∀ lane ∈ (addToLanes lanes terms).1, Within (exponent + terms.length) lane) ∧
      (addToLanes lanes terms).1.length ≤ lanes.length ∧
      (∀ term ∈ (addToLanes lanes terms).2, term ∈ terms) ∧
      (addToLanes lanes terms).2.length < 8 := by
  induction lanes, terms using addToLanes.induct generalizing exponent with
  | case1 lanes terms few =>
    rw [addToLanes, if_pos few]
    exact ⟨fun lane member => (lanesBounded lane member).mono (by omega), le_rfl,
      fun _ member => member, few⟩
  | case2 lanes terms many ih =>
    rw [addToLanes, if_neg many]
    have added : ∀ lane ∈ List.zipWith (· + ·) lanes (terms.take 8),
        Within (exponent + 1) lane := by
      intro lane member
      rw [← List.map_uncurry_zip_eq_zipWith, List.mem_map] at member
      obtain ⟨⟨lane, term⟩, paired, rfl⟩ := member
      obtain ⟨isLane, isTerm⟩ := List.of_mem_zip paired
      exact (lanesBounded lane isLane).add (bounded term (List.mem_of_mem_take isTerm)) (by omega)
    have rest : ∀ term ∈ terms.drop 8, Within (exponent + 1) term := fun term member =>
      (bounded term (List.mem_of_mem_drop member)).mono (by omega)
    have length := List.length_drop (i := 8) (l := terms)
    obtain ⟨within, lanesLength, left, few⟩ := ih added rest (by omega)
    refine ⟨fun lane member => (within lane member).mono (by omega), ?_,
      fun term member => List.mem_of_mem_drop (left term member), few⟩
    rw [List.length_zipWith] at lanesLength
    exact lanesLength.trans (Nat.min_le_left _ _)

theorem within_joinLanes (bounded : ∀ lane ∈ lanes, Within exponent lane)
    (few : lanes.length ≤ 8) (small : exponent + 8 ≤ 1000) :
    Within (exponent + 8) (joinLanes lanes) := by
  unfold joinLanes
  split
  · simp only [List.forall_mem_cons] at bounded
    obtain ⟨a, b, c, d, e, f, g, h, _⟩ := bounded
    have left := (a.add b (by omega)).add (c.add d (by omega)) (by omega)
    have right := (e.add f (by omega)).add (g.add h (by omega)) (by omega)
    exact (left.add right (by omega)).mono (by omega)
  · exact (within_addAll (within_neutral _) bounded (by omega)).mono (by omega)

theorem within_shortSum (bounded : ∀ term ∈ terms, Within exponent term)
    (short : terms.length ≤ 128) (small : exponent + 144 ≤ 1000) :
    Within (exponent + 144) (shortSum terms) := by
  unfold shortSum
  split
  · exact (within_addAll (within_neutral _) bounded (by omega)).mono (by omega)
  · have lanesBounded : ∀ lane ∈ terms.take 8, Within exponent lane :=
      fun lane member => bounded lane (List.mem_of_mem_take member)
    have restBounded : ∀ term ∈ terms.drop 8, Within exponent term :=
      fun term member => bounded term (List.mem_of_mem_drop member)
    have length := List.length_drop (i := 8) (l := terms)
    have added := within_addToLanes lanesBounded restBounded (by omega)
    generalize addToLanes (terms.take 8) (terms.drop 8) = ran at added
    obtain ⟨joined, lanesLength, left, few⟩ := added
    have joined := within_joinLanes joined (lanesLength.trans (List.length_take_le 8 terms))
      (by omega)
    refine (within_addAll joined (fun term member => ?_) (by omega)).mono (by omega)
    exact (restBounded term (left term member)).mono (by omega)

/-! ### Long lists -/

/-- **A list that is cut in two so many times** before it is short. -/
theorem within_pairwiseSum {levels : Nat} (bounded : ∀ term ∈ terms, Within exponent term)
    (few : terms.length ≤ 112 * 2 ^ levels + 16) (small : exponent + 144 + levels ≤ 1000) :
    Within (exponent + 144 + levels) (pairwiseSum terms) := by
  induction levels generalizing terms with
  | zero =>
    rw [pairwiseSum, if_pos (by omega)]
    exact within_shortSum bounded (by omega) small
  | succ levels ih =>
    rw [pairwiseSum]
    split
    · exact (within_shortSum bounded ‹_› (by omega)).mono (by omega)
    · -- Half of the terms, and what is left over by rounding the cut down to a multiple of eight.
      rw [Nat.pow_succ] at few
      have front :
          Within (exponent + 144 + levels) (pairwiseSum (terms.take (cut terms.length))) := by
        refine ih (fun term member => bounded term (List.mem_of_mem_take member)) ?_ (by omega)
        rw [List.length_take, cut]
        omega
      have back :
          Within (exponent + 144 + levels) (pairwiseSum (terms.drop (cut terms.length))) := by
        refine ih (fun term member => bounded term (List.mem_of_mem_drop member)) ?_ (by omega)
        rw [List.length_drop, cut]
        omega
      exact front.add back (by omega)

/-- **The sum of a list** of numbers that are at most two is finite. -/
theorem isFinite_sum (bounded : ∀ term ∈ terms, Within 1 term) (few : terms.length ≤ 2 ^ 64) :
    (sum terms).isFinite := by
  have cuts : terms.length ≤ 112 * 2 ^ 64 + 16 := by omega
  have added := within_pairwiseSum bounded cuts (by omega)
  obtain ⟨units, value, _⟩ := (within_zero _).add added (by omega)
  exact isFinite_iff.mpr ⟨units, value⟩

/-! ### Comparisons -/

/-- One of two doubles is below the other, or at most as large, unless one is a NaN. -/
theorem lt_eq_not_le {x y : Binary64} (left : x ≠ nan) (right : y ≠ nan) :
    x.lt y = !y.le x := by
  cases x with
  | nan => exact absurd rfl left
  | infinite a =>
    cases y with
    | nan => exact absurd rfl right
    | infinite b => cases a <;> cases b <;> rfl
    | finite b size => cases a <;> rfl
  | finite a size =>
    cases y with
    | nan => exact absurd rfl right
    | infinite b => cases b <;> rfl
    | finite b other =>
      simp only [lt, le, ← decide_not, not_le]

theorem ne_nan_of_isFinite {x : Binary64} (finite : x.isFinite) : x ≠ nan := by
  rintro rfl
  cases finite

/-- The distance of two finite doubles may be infinite, but is no NaN. -/
theorem discrepancy_ne_nan {x y : Binary64} (left : x.isFinite) (right : y.isFinite) :
    discrepancy x y ≠ nan := by
  obtain ⟨a, leftValue⟩ := isFinite_iff.mp left
  obtain ⟨b, rightValue⟩ := isFinite_iff.mp right
  rw [discrepancy]
  cases rounded : (x - y).units? with
  | none =>
    obtain ⟨negative, infinite⟩ := sub_eq_infinite leftValue rightValue rounded
    rw [infinite]
    exact fun impossible => by cases impossible
  | some units => exact ne_nan_of_isFinite (isFinite_iff.mpr ⟨_, units?_abs rounded⟩)

end Transversal.Binary64
