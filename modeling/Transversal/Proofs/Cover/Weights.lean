/-
**Drawing in proportion to the activities never fails.**

The weights are doubles, and their running sums are rounded. Sums of activities that were accepted
grow with every term, and they stop growing long before the largest double: past `2 ^ 56` a further
term of at most two is rounded away.

* `runningSums_getLast?`: the last running sum is finite, and at least every weight.
* `weightTotal?_eq_ok`: if one weight is positive, there is a total to draw by.
* `placeAbove_lt`: the place drawn is one of the list.
-/
import Transversal.Cover.Sampled
import Transversal.Proofs.Number.Rounding

namespace Transversal

/-- What running sums of activities never pass, in units. -/
def sumLimit : Nat := Nat.pow 2 1130

/-- A further term of at most two does not carry a sum past the limit. -/
theorem roundUnits_le_sumLimit {sum term : Int} (bounded : sum ≤ sumLimit)
    (small : term ≤ 2 * (Magnitude.one : Int)) :
    Binary64.roundUnits (sum + term) ≤ sumLimit := by
  have absorbed : Magnitude.nearestUnits (sumLimit + 2 * Magnitude.one) 1 = sumLimit := by
    decide +kernel
  have farthest : Binary64.roundUnits ((sumLimit + 2 * Magnitude.one : Nat) : Int) = sumLimit := by
    rw [Binary64.roundUnits_natCast, absorbed]
  calc Binary64.roundUnits (sum + term)
      ≤ Binary64.roundUnits ((sumLimit + 2 * Magnitude.one : Nat) : Int) := by
        apply Binary64.roundUnits_mono
        push_cast
        exact add_le_add bounded small
    _ = sumLimit := farthest

theorem natAbs_lt_unitLimit {units : Int} (natural : 0 ≤ units) (bounded : units ≤ sumLimit) :
    units.natAbs < unitLimit := by
  have below : sumLimit < unitLimit := by decide +kernel
  omega

/-- A weight: not negative, and at most two. -/
def IsWeight (weight : Binary64) : Prop :=
  ∃ units, weight.units? = some units ∧ 0 ≤ units ∧ units ≤ 2 * (Magnitude.one : Int)

theorem two_le_sumLimit : 2 * (Magnitude.one : Int) ≤ sumLimit := by decide +kernel

/-- One more weight added to a sum: the sum does not shrink, and is at least the weight. -/
theorem units?_add_weight {sum weight : Binary64} {a b : Int} (sumValue : sum.units? = some a)
    (weightValue : weight.units? = some b) (sumNatural : 0 ≤ a) (sumBounded : a ≤ sumLimit)
    (weightNatural : 0 ≤ b) (weightSmall : b ≤ 2 * (Magnitude.one : Int)) :
    ∃ next, (sum + weight).units? = some next ∧ a ≤ next ∧ b ≤ next ∧ next ≤ sumLimit := by
  have bounded := roundUnits_le_sumLimit sumBounded weightSmall
  have keepsSum : a ≤ Binary64.roundUnits (a + b) := by
    rw [← Binary64.roundUnits_of_units? sumValue]
    apply Binary64.roundUnits_mono
    rw [Binary64.roundUnits_of_units? sumValue]
    omega
  have keepsWeight : b ≤ Binary64.roundUnits (a + b) := by
    rw [← Binary64.roundUnits_of_units? weightValue]
    apply Binary64.roundUnits_mono
    rw [Binary64.roundUnits_of_units? weightValue]
    omega
  refine ⟨Binary64.roundUnits (a + b), ?_, keepsSum, keepsWeight, bounded⟩
  rw [Binary64.units?_add sumValue weightValue]
  exact ⟨natAbs_lt_unitLimit (le_trans sumNatural keepsSum) bounded, rfl⟩

theorem length_sumsFrom (total : Binary64) (terms : List Binary64) :
    (sumsFrom total terms).length = terms.length + 1 := by
  induction terms generalizing total with
  | nil => rfl
  | cons term rest ih => rw [sumsFrom, List.length_cons, ih, List.length_cons]

theorem length_runningSums (weights : List Binary64) :
    (runningSums weights).length = weights.length := by
  cases weights with
  | nil => rfl
  | cons first rest => exact length_sumsFrom first rest

theorem sumsFrom_getLast? {weights : List Binary64} (good : ∀ weight ∈ weights, IsWeight weight)
    {total : Binary64} {a : Int} (value : total.units? = some a) (natural : 0 ≤ a)
    (bounded : a ≤ sumLimit) :
    ∃ last units, (sumsFrom total weights).getLast? = some last ∧ last.units? = some units ∧
      a ≤ units ∧ units ≤ sumLimit ∧
      ∀ weight ∈ weights, ∀ b, weight.units? = some b → b ≤ units := by
  induction weights generalizing total a with
  | nil => exact ⟨total, a, rfl, value, le_rfl, bounded, by simp⟩
  | cons weight rest ih =>
    rw [List.forall_mem_cons] at good
    obtain ⟨b, weightValue, weightNatural, weightSmall⟩ := good.1
    obtain ⟨next, nextValue, keepsSum, keepsWeight, nextBounded⟩ :=
      units?_add_weight value weightValue natural bounded weightNatural weightSmall
    obtain ⟨last, units, found, lastValue, above, lastBounded, others⟩ :=
      ih good.2 nextValue (le_trans natural keepsSum) nextBounded
    refine ⟨last, units, ?_, lastValue, le_trans keepsSum above, lastBounded, ?_⟩
    · rw [sumsFrom, List.getLast?_cons, found, Option.getD_some]
    · intro other member c otherValue
      rcases List.mem_cons.mp member with rfl | member
      · rw [weightValue] at otherValue
        cases otherValue
        exact le_trans keepsWeight above
      · exact others other member c otherValue

/-- **The last running sum** is finite, and at least every weight. -/
theorem runningSums_getLast? {weights : List Binary64} (nonempty : weights ≠ [])
    (good : ∀ weight ∈ weights, IsWeight weight) :
    ∃ last units, (runningSums weights).getLast? = some last ∧ last.units? = some units ∧
      0 ≤ units ∧ units ≤ sumLimit ∧
      ∀ weight ∈ weights, ∀ b, weight.units? = some b → b ≤ units := by
  cases weights with
  | nil => exact absurd rfl nonempty
  | cons first rest =>
    rw [List.forall_mem_cons] at good
    obtain ⟨a, value, natural, small⟩ := good.1
    obtain ⟨last, units, found, lastValue, above, bounded, others⟩ :=
      sumsFrom_getLast? good.2 value natural (le_trans small two_le_sumLimit)
    refine ⟨last, units, found, lastValue, le_trans natural above, bounded, ?_⟩
    intro other member c otherValue
    rcases List.mem_cons.mp member with rfl | member
    · rw [value] at otherValue
      cases otherValue
      exact above
    · exact others other member c otherValue

/-- Zero changes no finite double. -/
theorem units?_add_zero {x : Binary64} {units : Int} (value : x.units? = some units) :
    (x + .zero).units? = some units := by
  have small : units.natAbs < unitLimit := by
    cases x with
    | nan => cases value
    | infinite negative => cases value
    | finite negative size =>
      cases value
      have below := size.onGrid.1
      unfold Binary64.signed
      split <;> omega
  rw [Binary64.units?_add value Binary64.units?_zero, Int.add_zero,
    Binary64.roundUnits_of_units? value]
  exact ⟨small, rfl⟩

/-- **There is a total to draw by** if one weight is positive. -/
theorem weightTotal?_eq_ok {weights : List Binary64} (good : ∀ weight ∈ weights, IsWeight weight)
    {weight : Binary64} (member : weight ∈ weights) (positive : weight.isPositive) :
    ∃ total, weightTotal? (runningSums weights) = .ok total := by
  obtain ⟨last, units, found, value, _, _, above⟩ :=
    runningSums_getLast? (List.ne_nil_of_mem member) good
  obtain ⟨b, weightValue, _, _⟩ := good weight member
  rw [Binary64.isPositive, Binary64.lt_iff_units Binary64.units?_zero weightValue] at positive
  have unitsPositive : 0 < units := lt_of_lt_of_le positive (above weight member b weightValue)
  have totalValue := units?_add_zero value
  have notLow : (last + Binary64.zero).le .zero = false := by
    rw [Bool.eq_false_iff]
    intro low
    rw [Binary64.le_iff_units totalValue Binary64.units?_zero] at low
    omega
  have finite : (last + Binary64.zero).isFinite = true := Binary64.isFinite_iff.mpr ⟨_, totalValue⟩
  exact ⟨last + .zero, by simp [weightTotal?, found, notLow, finite]⟩

/-- **The place drawn is one of the list.** -/
theorem placeAbove_lt {sums : List Binary64} (nonempty : sums ≠ []) (point : Binary64) :
    placeAbove sums point < sums.length := by
  have shorter : (sums.dropLast.takeWhile fun sum => !point.lt sum).length ≤ sums.dropLast.length :=
    (List.takeWhile_prefix _).length_le
  have positive := List.length_pos_of_ne_nil nonempty
  rw [List.length_dropLast] at shorter
  unfold placeAbove
  omega

theorem isWeight_weightOf {activity : Binary64} {units : Int} (value : activity.units? = some units)
    (small : units ≤ 2 * (Magnitude.one : Int)) : IsWeight (weightOf activity) := by
  unfold weightOf
  by_cases negative : activity.lt .zero
  · rw [if_pos negative]
    exact ⟨0, rfl, le_rfl, by omega⟩
  · rw [if_neg negative]
    rw [Binary64.lt_iff_units value Binary64.units?_zero] at negative
    exact ⟨units, value, not_lt.mp negative, small⟩

theorem weightOf_of_isPositive {activity : Binary64} (positive : activity.isPositive) :
    weightOf activity = activity := by
  unfold weightOf
  cases activity with
  | nan => cases positive
  | infinite negative =>
    cases negative <;> simp_all [Binary64.isPositive, Binary64.lt, Binary64.zero]
  | finite negative size =>
    rw [if_neg]
    rw [Binary64.isPositive, Binary64.lt_iff_units Binary64.units?_zero rfl] at positive
    rw [Binary64.lt_iff_units rfl Binary64.units?_zero]
    omega

end Transversal
