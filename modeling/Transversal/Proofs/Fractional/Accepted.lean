/-
**What is known of a fractional solution that was accepted.**

* `Fractional.IsAccepted`: it was made by `Fractional.make?`.
* `Fractional.IsAccepted.activity_units`: every activity is finite and at most two.
* `Fractional.IsAccepted.lt_add_tolerance`: what is rounded up for the lower bound exceeds the
  objective value by less than the tolerance. The check is made in doubles, and exact all the same.
* `Fractional.lowerBound_le_iff`: the lower bound is at most a number if what is rounded up is.
* `Fractional.agrees?_eq_ok_iff`: what it is to belong to a relation.
-/
import Transversal.Fractional
import Transversal.Proofs.Fallible
import Transversal.Proofs.Number.Rounding

namespace Transversal.Fractional

/-- The solution has passed all checks. -/
def IsAccepted (fractional : Fractional) : Prop :=
  ∃ pathCount setCount objective activities,
    make? pathCount setCount objective activities = .ok fractional

theorem firstBad?_eq_none_iff {activities : List Binary64} :
    firstBad? activities = none ↔ ∀ activity ∈ activities, isActivity activity := by
  rw [firstBad?, List.findSome?_eq_none_iff]
  constructor
  · intro none_bad activity member
    obtain ⟨set, found⟩ := List.mem_iff_getElem?.mp member
    have good := none_bad (activity, set) (List.mem_zipIdx_iff_getElem?.mpr found)
    by_contra bad
    simp [bad] at good
  · rintro good ⟨activity, set⟩ member
    simp [good activity (List.fst_mem_of_mem_zipIdx member)]

/-- The checks that `make?` makes. -/
theorem make?_eq_ok_iff {pathCount setCount : Int} {objective : Binary64}
    {activities : List Binary64} {fractional : Fractional} :
    make? pathCount setCount objective activities = .ok fractional ↔
      setCount = activities.length ∧ (∀ activity ∈ activities, isActivity activity) ∧
        objective.isFinite ∧
        activityTolerance.le (discrepancy (Binary64.sum activities) objective) = false ∧
        fractional = ⟨pathCount, objective, activities.toArray⟩ := by
  rw [← firstBad?_eq_none_iff, make?, Except.check_eq_ok_iff, not_not]
  refine and_congr_right fun _ => ?_
  cases bad : firstBad? activities with
  | some found =>
    simp only [reduceCtorEq, false_and, iff_false]
    intro run
    cases run
  | none =>
    simp only [true_and]
    rw [Except.check_eq_ok_iff, Except.check_eq_ok_iff]
    simp only [Bool.not_eq_true', Bool.not_eq_false, Bool.not_eq_true]
    refine and_congr_right fun _ => and_congr_right fun _ => ?_
    exact ⟨fun run => (Except.ok.inj run).symm, fun same => same ▸ rfl⟩

theorem isAccepted_iff {fractional : Fractional} :
    fractional.IsAccepted ↔
      (∀ activity ∈ fractional.activities, isActivity activity) ∧
        fractional.objective.isFinite ∧
        activityTolerance.le (discrepancy fractional.sum fractional.objective) = false := by
  constructor
  · rintro ⟨pathCount, setCount, objective, activities, made⟩
    obtain ⟨_, good, finite, close, rfl⟩ := make?_eq_ok_iff.mp made
    exact ⟨by simpa using good, finite, close⟩
  · rintro ⟨good, finite, close⟩
    exact ⟨fractional.pathCount, _, fractional.objective, fractional.activities.toList,
      make?_eq_ok_iff.mpr ⟨rfl, by simpa using good, finite, close, rfl⟩⟩

/-- The largest activity that is accepted is at most two. -/
theorem activityLimit_le : ((Binary64.ofInt 1 + activityTolerance).units?.all
    (· ≤ 2 * (Magnitude.one : Int))) = true ∧
    (Binary64.ofInt 1 + activityTolerance).isFinite = true := by
  decide +kernel

theorem units_le_of_isActivity {activity : Binary64} (good : isActivity activity) :
    ∃ units, activity.units? = some units ∧ units ≤ 2 * (Magnitude.one : Int) := by
  rw [isActivity, Bool.and_eq_true, Bool.and_eq_true, Bool.not_eq_true', Bool.not_eq_true'] at good
  obtain ⟨⟨finite, _⟩, notAbove⟩ := good
  obtain ⟨units, value⟩ := Binary64.isFinite_iff.mp finite
  obtain ⟨limit, limitValue⟩ := Binary64.isFinite_iff.mp activityLimit_le.2
  have bounded := activityLimit_le.1
  rw [limitValue, Option.all_some, decide_eq_true_eq] at bounded
  have below : ¬ limit < units := by
    rw [← Binary64.lt_iff_units limitValue value, notAbove]
    simp
  exact ⟨units, value, le_trans (not_lt.mp below) bounded⟩

/-- **Every activity that was accepted is finite**, and at most two. -/
theorem IsAccepted.activity_units {fractional : Fractional} (accepted : fractional.IsAccepted)
    {activity : Binary64} (member : activity ∈ fractional.activities) :
    ∃ units, activity.units? = some units ∧ units ≤ 2 * (Magnitude.one : Int) :=
  units_le_of_isActivity ((isAccepted_iff.mp accepted).1 activity member)

/-! ### The sum and the objective value -/

/-- The tolerance and the slack are positive doubles, and the tolerance is below one. -/
theorem tolerance_slack_units : ∃ tolerance slack : Int,
    activityTolerance.units? = some tolerance ∧ roundingSlack.units? = some slack ∧
      0 < slack ∧ tolerance < (Magnitude.one : Int) := by
  have known : (activityTolerance.units?.all (· < (Magnitude.one : Int))) = true ∧
      (roundingSlack.units?.all ((0 : Int) < ·)) = true ∧ activityTolerance.isFinite = true ∧
      roundingSlack.isFinite = true := by
    decide +kernel
  obtain ⟨tolerance, first⟩ := Binary64.isFinite_iff.mp known.2.2.1
  obtain ⟨slack, second⟩ := Binary64.isFinite_iff.mp known.2.2.2
  have below := known.1
  have positive := known.2.1
  rw [first, Option.all_some, decide_eq_true_eq] at below
  rw [second, Option.all_some, decide_eq_true_eq] at positive
  exact ⟨tolerance, slack, first, second, positive, below⟩

/-- A difference that is as large as a double is not below it after rounding either. -/
theorem le_discrepancy {sum objective limit : Binary64} {s o t : Int}
    (first : sum.units? = some s) (second : objective.units? = some o)
    (third : limit.units? = some t) (large : t ≤ s - o) : limit.le (discrepancy sum objective) := by
  rw [discrepancy]
  cases rounded : (sum - objective).units? with
  | none =>
    obtain ⟨negative, infinite⟩ := Binary64.sub_eq_infinite first second rounded
    rw [infinite]
    cases limit with
    | nan => cases third
    | infinite other => cases third
    | finite other size => rfl
  | some units =>
    obtain ⟨_, rfl⟩ := (Binary64.units?_sub first second).mp rounded
    rw [Binary64.le_iff_units third (Binary64.units?_abs rounded)]
    have kept := Binary64.roundUnits_mono large
    rw [Binary64.roundUnits_of_units? third] at kept
    exact le_trans kept (le_abs_self _)

/-- **The check of the sum is exact**: what is rounded up exceeds the objective value by less than
the tolerance. -/
theorem IsAccepted.lt_add_tolerance {fractional : Fractional} (accepted : fractional.IsAccepted)
    {value objective tolerance : Rat}
    (rounded : (fractional.sum - roundingSlack).toRat? = some value)
    (reported : fractional.objective.toRat? = some objective)
    (tolerated : activityTolerance.toRat? = some tolerance) : value < objective + tolerance := by
  obtain ⟨units, found, valueEq⟩ := Binary64.toRat?_eq_some_iff.mp rounded
  obtain ⟨o, second, objectiveEq⟩ := Binary64.toRat?_eq_some_iff.mp reported
  obtain ⟨t, third, toleranceEq⟩ := Binary64.toRat?_eq_some_iff.mp tolerated
  obtain ⟨s, first⟩ := Binary64.units?_of_sub found
  obtain ⟨_, slack, _, slackEq, positive, _⟩ := tolerance_slack_units
  have close : s - o < t := by
    by_contra large
    have refused := le_discrepancy first second third (not_lt.mp large)
    rw [(isAccepted_iff.mp accepted).2.2] at refused
    cases refused
  have below : units ≤ s := by
    obtain ⟨_, rfl⟩ := (Binary64.units?_sub first slackEq).mp found
    have kept := Binary64.roundUnits_mono (show s - slack ≤ s by omega)
    rwa [Binary64.roundUnits_of_units? first] at kept
  have exact_units : units < o + t := by omega
  have scaled : value * (Magnitude.one : Nat) <
      (objective + tolerance) * (Magnitude.one : Nat) := by
    rw [add_mul, valueEq, objectiveEq, toleranceEq]
    exact_mod_cast exact_units
  exact lt_of_mul_lt_mul_right scaled Binary64.one_pos.le

/-- The tolerance is below one, so what is rounded up exceeds the objective value by less. -/
theorem IsAccepted.lt_add_one {fractional : Fractional} (accepted : fractional.IsAccepted)
    {value objective : Rat} (rounded : (fractional.sum - roundingSlack).toRat? = some value)
    (reported : fractional.objective.toRat? = some objective) : value < objective + 1 := by
  obtain ⟨t, _, third, _, _, below⟩ := tolerance_slack_units
  have tolerated : activityTolerance.toRat? = some ((t : Rat) / (Magnitude.one : Nat)) := by
    rw [Binary64.toRat?, third, Option.map_some]
  have small : (t : Rat) / (Magnitude.one : Nat) < 1 := by
    rw [div_lt_one Binary64.one_pos]
    exact_mod_cast below
  have close := accepted.lt_add_tolerance rounded reported tolerated
  linarith

/-- **The lower bound is at most a natural number** if what is rounded up is. -/
theorem lowerBound_le_iff (fractional : Fractional) (size : Nat) :
    fractional.lowerBound ≤ size ↔
      ∀ value, (fractional.sum - roundingSlack).toRat? = some value → value ≤ size := by
  rw [lowerBound]
  cases rounded : (fractional.sum - roundingSlack).toRat? with
  | none =>
    rw [Binary64.toRat?, Option.map_eq_none_iff] at rounded
    rw [Binary64.ceil?, rounded, Option.map_none, Option.getD_none]
    constructor
    · intro _ value impossible
      cases impossible
    · exact fun _ => Int.natCast_nonneg size
  | some value =>
    rw [Binary64.ceil?_eq rounded, Option.getD_some, Int.ceil_le]
    simp

/-- A solution belongs to a relation with as many paths and sets. -/
theorem agrees?_eq_ok_iff {fractional : Fractional} {incidence : Incidence} :
    fractional.agrees? incidence = .ok () ↔
      (incidence.pathCount : Int) = fractional.pathCount ∧
        incidence.setCount = fractional.setCount := by
  unfold agrees?
  by_cases paths : (incidence.pathCount : Int) = fractional.pathCount
  · by_cases sets : incidence.setCount = fractional.setCount
    · simp [paths, sets]
    · simp [paths, sets]
  · simp [paths]

end Transversal.Fractional
