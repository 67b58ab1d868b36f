/-
**A relaxation that is answered as it should be guides every run to a certified cover.**

* `CoveringProgram.IsAnswered`: every variable has a value in the unit interval, every row sums to
  one up to a slack, and the sum of the values is close to the objective value and not above the
  optimum once it is rounded.
* `CoveringProgram.IsAnswered.accepted`: such an answer passes the checks of a solution.
* `CoveringProgram.IsAnswered.supported`: no row is that far from one, so every path has an active
  set.
* `CoveringProgram.IsAnswered.bounds`: the lower bound is one.
* `Fractional.Guides`: what follows for every run; `relaxation_guides`: all of it, for every
  relation that was built and every optimizer that answers its program so.
-/
import Transversal.Proofs.Relaxation.Bounded
import Transversal.Proofs.Solver.Bound
import Transversal.Relaxation.Solve

namespace Transversal

variable {incidence : Incidence} {program : CoveringProgram} {values : Nat → Option Binary64}
  {objective : Option Binary64} {options : Options}

/-! ### Values -/

namespace Binary64

theorem le_eq_false_of_lt {x y : Binary64} (below : x.lt y) : y.le x = false := by
  cases x <;> cases y <;> simp_all [lt, le]

/-- A difference is finite only if what is taken off is. -/
theorem isFinite_of_sub {x y : Binary64} (finite : (x - y).isFinite) : y.isFinite := by
  change (add x (neg y)).isFinite = true at finite
  cases y with
  | nan => cases x <;> cases finite
  | infinite negative =>
    cases x with
    | nan => cases finite
    | infinite other =>
      rw [neg, add] at finite
      split at finite <;> cases finite
    | finite other size => cases finite
  | finite negative size => rfl

theorem isFinite_of_abs_lt {x limit : Binary64} (below : x.abs.lt limit) : x.isFinite := by
  cases x with
  | nan => cases below
  | infinite negative => cases limit <;> cases below
  | finite negative size => rfl

/-- Zeros have no other value than the positive one. -/
theorem toRat?_orZero {value : Binary64} {x : Rat} (told : value.toRat? = some x) :
    (orZero (some value)).toRat? = some x := by
  rw [orZero]
  split
  · rename_i zero_units
    rw [toRat?, zero_units] at told
    exact told
  · exact told

end Binary64

/-- The unit interval lies between the bounds that are checked. -/
theorem unitInterval_limits : (-activityTolerance).isFinite = true ∧
    (Binary64.ofInt 1 + activityTolerance).isFinite = true ∧
    ((-activityTolerance).units?.all (· ≤ 0)) = true ∧
    ((Binary64.ofInt 1 + activityTolerance).units?.all ((Magnitude.one : Int) ≤ ·)) = true := by
  decide +kernel

/-- A double in the unit interval is an activity. -/
theorem isActivity_of_toRat? {activity : Binary64} {x : Rat} (told : activity.toRat? = some x)
    (natural : 0 ≤ x) (small : x ≤ 1) : Fractional.isActivity activity := by
  obtain ⟨units, value, scaled⟩ := Binary64.toRat?_eq_some_iff.mp told
  have positive := Binary64.one_pos
  have above : 0 ≤ units := by
    have scaled_natural : (0 : Rat) ≤ units := scaled ▸ mul_nonneg natural positive.le
    exact_mod_cast scaled_natural
  have below : units ≤ (Magnitude.one : Int) := by
    have scaled_small : (units : Rat) ≤ (Magnitude.one : Nat) :=
      scaled ▸ mul_le_of_le_one_left positive.le small
    exact_mod_cast scaled_small
  obtain ⟨lowFinite, highFinite, lowest, highest⟩ := unitInterval_limits
  obtain ⟨low, lowValue⟩ := Binary64.isFinite_iff.mp lowFinite
  obtain ⟨high, highValue⟩ := Binary64.isFinite_iff.mp highFinite
  rw [lowValue, Option.all_some, decide_eq_true_eq] at lowest
  rw [highValue, Option.all_some, decide_eq_true_eq] at highest
  have notBelow : activity.lt (-activityTolerance) = false := by
    rw [Bool.eq_false_iff, ne_eq, Binary64.lt_iff_units value lowValue]
    omega
  have notAbove : (Binary64.ofInt 1 + activityTolerance).lt activity = false := by
    rw [Bool.eq_false_iff, ne_eq, Binary64.lt_iff_units highValue value]
    omega
  rw [Fractional.isActivity, Binary64.isFinite_iff.mpr ⟨units, value⟩, notBelow, notAbove]
  rfl

/-! ### Answers -/

/-- The exact value of a variable, and zero if it is not told. -/
def valueOf (values : Nat → Option Binary64) (index : Nat) : Rat :=
  ((values index).bind Binary64.toRat?).getD 0

/-- How far the variables of a row may fall short of one. -/
def rowSlack : Rat := 1 / 10 ^ 6

/-- **An answer as it should be**: every variable has a finite value in the unit interval, every row
sums to one up to the slack, and the sum of the values, as it is computed, is within the tolerance
of the objective value and at most the total of every solution when the rounding slack is taken
off. -/
structure CoveringProgram.IsAnswered (program : CoveringProgram) (values : Nat → Option Binary64)
    (objective : Option Binary64) : Prop where
  bounded : ∀ index < program.variableCount, ∃ value x, values index = some value ∧
    value.toRat? = some x ∧ 0 ≤ x ∧ x ≤ 1
  rows : ∀ row ∈ program.rows, 1 - rowSlack ≤ rowSum (valueOf values) row
  least : ∀ x, (Binary64.sum (activitiesOf program.variableCount values) - roundingSlack).toRat? =
    some x → ∀ others, program.IsBounded others → x ≤ program.total others
  close : (discrepancy (Binary64.sum (activitiesOf program.variableCount values))
    (Binary64.orZero objective)).lt activityTolerance

/-- The solution that an answer makes. -/
def Fractional.ofAnswer (pathCount : Int) (setCount : Nat) (values : Nat → Option Binary64)
    (objective : Option Binary64) : Fractional :=
  ⟨pathCount, Binary64.orZero objective, (activitiesOf setCount values).toArray⟩

theorem Fractional.size_ofAnswer (pathCount : Int) (setCount : Nat)
    (values : Nat → Option Binary64) (objective : Option Binary64) :
    (ofAnswer pathCount setCount values objective).activities.size = setCount := by
  rw [ofAnswer, List.size_toArray, activitiesOf, List.length_map, List.length_range]

namespace CoveringProgram.IsAnswered

section Activities

variable (answered : program.IsAnswered values objective)

include answered

/-- The activity of a set is the value of its variable. -/
theorem activity {set : Nat} (known : set < program.variableCount) :
    ∃ value x, (activitiesOf program.variableCount values)[set]? = some value ∧
      value.toRat? = some x ∧ valueOf values set = x ∧ 0 ≤ x ∧ x ≤ 1 := by
  obtain ⟨value, x, told, exactly, natural, small⟩ := answered.bounded set known
  refine ⟨Binary64.orZero (some value), x, ?_, Binary64.toRat?_orZero exactly, ?_, natural, small⟩
  · simp [activitiesOf, known, told]
  · rw [valueOf, told, Option.bind_some, exactly, Option.getD_some]

/-- **The answer makes a solution** that passes its own checks. -/
theorem accepted (pathCount : Int) :
    Fractional.ofActivities? (activitiesOf program.variableCount values) pathCount
        (some (Binary64.orZero objective)) =
      .ok (.ofAnswer pathCount program.variableCount values objective) := by
  rw [Fractional.ofActivities?, Option.getD_some]
  refine Fractional.make?_eq_ok_iff.mpr ⟨rfl, fun activity member => ?_, ?_, ?_, rfl⟩
  · obtain ⟨set, found⟩ := List.mem_iff_getElem?.mp member
    have known : set < program.variableCount := by
      have within := (List.getElem?_eq_some_iff.mp found).1
      rwa [activitiesOf, List.length_map, List.length_range] at within
    obtain ⟨value, x, found', exactly, _, natural, small⟩ := answered.activity known
    obtain rfl := Option.some.inj (found.symm.trans found')
    exact isActivity_of_toRat? exactly natural small
  · exact Binary64.isFinite_of_sub (Binary64.isFinite_of_abs_lt answered.close)
  · exact Binary64.le_eq_false_of_lt answered.close

/-- In every row a variable has a positive value. -/
theorem exists_pos {row : List Nat} (member : row ∈ program.rows) :
    ∃ set ∈ row, 0 < valueOf values set := by
  by_contra none_positive
  push Not at none_positive
  -- a row without a positive value would sum to zero at most
  have short := answered.rows row member
  have small : (row.map (valueOf values)).sum ≤ row.length • (0 : Rat) := by
    rw [← List.length_map (valueOf values)]
    refine List.sum_le_card_nsmul _ 0 ?_
    simpa only [List.forall_mem_map] using none_positive
  have slack : rowSlack < 1 := by norm_num [rowSlack]
  rw [CoveringProgram.rowSum_eq_sum] at short
  rw [nsmul_zero] at small
  linarith

end Activities

section Relation

variable (agreement : incidence.Agreement)
  (relaxed : CoveringProgram.ofIncidence? incidence = .ok program)
  (answered : program.IsAnswered values objective)

include agreement relaxed answered

/-- **Every path has an active set.** -/
theorem supported : checkSupport incidence (Fractional.ofAnswer incidence.pathCount
    program.variableCount values objective).activities = .ok () := by
  rw [CoveringProgram.ofIncidence?_eq_ok agreement] at relaxed
  cases relaxed
  refine (checkSupport_eq_ok_iff agreement (Fractional.size_ofAnswer _ _ _ _).ge).mpr ?_
  intro path within
  obtain ⟨set, named, positive⟩ :=
    answered.exists_pos (List.mem_map.mpr ⟨path, List.mem_range.mpr within, rfl⟩)
  rw [Incidence.rowOf, List.mem_filter, List.mem_range] at named
  obtain ⟨value, x, found, exactly, same, _⟩ := answered.activity named.1
  refine ⟨set, named.1, of_decide_eq_true named.2, ?_⟩
  obtain ⟨units, told, scaled⟩ := Binary64.toRat?_eq_some_iff.mp exactly
  have above : (0 : Int) < units := by
    have scaled_positive : (0 : Rat) < units :=
      scaled ▸ mul_pos (same ▸ positive) Binary64.one_pos
    exact_mod_cast scaled_positive
  have active : activityAt (Fractional.ofAnswer incidence.pathCount incidence.setCount values
      objective).activities set = value := by
    have size := Fractional.size_ofAnswer incidence.pathCount incidence.setCount values objective
    have inside := named.1
    rw [← size] at inside
    rw [activityAt, entryAt?_natCast inside, Option.getD_some]
    simpa [Fractional.ofAnswer] using (List.getElem?_eq_some_iff.mp found).2
  rw [active, Binary64.isPositive, Binary64.lt_iff_units Binary64.units?_zero told]
  exact above

/-- **The lower bound is one**: what is rounded up for it is at most the total of every solution,
and covers are solutions. -/
theorem bounds : Fractional.Bounds
    (.ofAnswer incidence.pathCount program.variableCount values objective) incidence := by
  have accepted : Fractional.IsAccepted _ := ⟨_, _, _, _, answered.accepted incidence.pathCount⟩
  rw [Fractional.bounds_iff_forall_le agreement accepted]
  intro cover covers x rounded
  have least := CoveringProgram.le_total_iff.mp (answered.least x rounded)
  rw [CoveringProgram.ofIncidence?_eq_ok agreement] at relaxed
  cases relaxed
  exact (least _ (CoveringProgram.isFeasible_coverValues agreement covers)).trans
    (CoveringProgram.total_coverValues_le _ _ cover)

end Relation

end CoveringProgram.IsAnswered

/-! ### Runs -/

/-- **What a solution is good for** that guides runs on a relation: it is accepted, belongs to the
relation, and has an active set for every path. No cover is below its bound; no run fails, on the
streams of its seed or on others, however the restarts of a pool interleave; the covers found are
sound, and certified by the bound. -/
structure Fractional.Guides (fractional : Fractional) (incidence : Incidence) : Prop where
  accepted : fractional.IsAccepted
  agrees : fractional.agrees? incidence = .ok ()
  supported : checkSupport incidence fractional.activities = .ok ()
  below : ∀ cover, incidence.isCover? cover = .ok true → fractional.lowerBound ≤ cover.length
  solves : ∀ options : Options, options.ArePositive → 0 ≤ options.seed →
    ∃ outcome, (solve .guided incidence (some fractional) options).1 = .ok outcome ∧
      SoundCover incidence outcome.cover ∧ outcome.Certified incidence fractional.lowerBound
  scheduled : ∀ options : Options, options.ArePositive →
    ∀ (σ : Type) [RandomStream σ] (desk : Desk σ) (streamAt : Nat → Except Fault σ),
      (∀ index, ∃ stream, streamAt index = .ok stream) →
      ∀ result, GuidedEnding desk streamAt incidence (some fractional) options result →
        ∃ outcome, result = .ok outcome ∧ SoundCover incidence outcome.cover ∧
          outcome.Certified incidence fractional.lowerBound

/-- A solution with the first of these properties and a true bound has the others. -/
theorem Fractional.Bounds.guides {fractional : Fractional} (agreement : incidence.Agreement)
    (bounds : fractional.Bounds incidence) (accepted : fractional.IsAccepted)
    (agrees : fractional.agrees? incidence = .ok ())
    (supported : checkSupport incidence fractional.activities = .ok ()) :
    fractional.Guides incidence := by
  have scheduled : ∀ options : Options, options.ArePositive →
      ∀ (σ : Type) [RandomStream σ] (desk : Desk σ) (streamAt : Nat → Except Fault σ),
        (∀ index, ∃ stream, streamAt index = .ok stream) →
        ∀ result, GuidedEnding desk streamAt incidence (some fractional) options result →
          ∃ outcome, result = .ok outcome ∧ SoundCover incidence outcome.cover ∧
            outcome.Certified incidence fractional.lowerBound := by
    intro options positive σ _ desk streamAt streams result ending
    have allowed : ¬ Refused incidence options (some fractional) :=
      (checkGuided_eq_ok_iff agreement).mp ⟨fractional, checkGuided_some_eq_ok_iff.mpr
        ⟨positive.1, positive.2, agrees, supported, rfl⟩⟩
    have known : ∀ given ∈ some fractional, given.IsAccepted := by
      rintro given ⟨⟩
      exact accepted
    obtain ⟨outcome, rfl⟩ := ending.exists_ok agreement known streams allowed
    exact ⟨outcome, rfl, (ending.fromGuided agreement accepted rfl).sound,
      bounds.scheduled σ desk streamAt options outcome ending⟩
  refine ⟨accepted, agrees, supported, bounds.below, fun options positive natural => ?_, scheduled⟩
  exact scheduled options positive Twister _ options.streamAt
    (fun index => ⟨_, streamAt_eq_ok natural index⟩) _
    (solve_guided_ending incidence (some fractional) options)

/-- **A relaxation that is answered as it should be guides every run**, over every relation that was
built: the program that is answered has the optimum of the covering problem, and the solution that
the answer makes guides all runs to certified covers. -/
theorem relaxation_guides {sets : List (List Int)} {pathCount : Option Int}
    (built : Incidence.ofSets? sets pathCount = .ok incidence) {optimizer : Optimizer}
    (answered : ∀ program, CoveringProgram.ofIncidence? incidence = .ok program →
      ∃ values objective, optimizer program = .optimal values objective ∧
        program.IsAnswered values objective) :
    ∃ program fractional, CoveringProgram.ofIncidence? incidence = .ok program ∧
      (∀ optimum, program.IsBoundedOptimum optimum ↔ incidence.IsCoveringOptimum optimum) ∧
      (relax optimizer incidence).1 = .ok fractional ∧ fractional.Guides incidence := by
  have agreement := Incidence.agreement_of_ofSets? built
  have relaxed := CoveringProgram.ofIncidence?_eq_ok agreement
  obtain ⟨values, objective, told, good⟩ := answered _ relaxed
  have made := good.accepted incidence.pathCount
  have accepted : Fractional.IsAccepted _ := ⟨_, _, _, _, made⟩
  refine ⟨_, .ofAnswer incidence.pathCount incidence.setCount values objective, relaxed,
    fun optimum => CoveringProgram.isBoundedOptimum_iff_covering agreement relaxed, ?_, ?_⟩
  · rw [relax, relaxed]
    show ofVerdict? incidence (optimizer _) = _
    rw [told]
    exact made
  · refine (good.bounds agreement relaxed).guides agreement accepted ?_
      (good.supported agreement relaxed)
    exact Fractional.agrees?_eq_ok_iff.mpr ⟨rfl, (Fractional.size_ofAnswer _ _ _ _).symm⟩

/-- The corners of a triangle as sets, and its sides as paths. -/
def triangle : Incidence := ⟨#[[0, 1], [0, 2], [1, 2]], #[[0, 1], [0, 2], [1, 2]]⟩

theorem triangle_built :
    Incidence.ofSets? [[0, 1], [0, 2], [1, 2]] none = .ok triangle := by
  decide +kernel

/-- The covering program of the triangle. -/
def triangleProgram : CoveringProgram := ⟨3, [[0, 1], [0, 2], [1, 2]]⟩

theorem triangle_relaxed : CoveringProgram.ofIncidence? triangle = .ok triangleProgram := by
  decide +kernel

theorem triangle_optimum :
    exactOptimum? triangleProgram = some ⟨[1 / 2, 1 / 2, 1 / 2], 3 / 2⟩ := by
  decide +kernel

/-- Half of every corner, which is what is found. -/
def triangleHalves (index : Nat) : Option Binary64 :=
  [(1 / 2 : Rat), 1 / 2, 1 / 2][index]?.map .ofRat

theorem half_toRat? : (Binary64.ofRat (1 / 2)).toRat? = some (1 / 2) := by decide +kernel

theorem triangleHalves_told {index : Nat} (known : index < 3) :
    triangleHalves index = some (.ofRat (1 / 2)) := by
  rcases index with _ | _ | _ | index
  · rfl
  · rfl
  · rfl
  · omega

/-- Every side asks for one, so the corners sum to one and a half at least. -/
theorem triangle_total_ge {values : Nat → Rat} (feasible : triangleProgram.IsFeasible values) :
    3 / 2 ≤ triangleProgram.total values := by
  have first := feasible.2 [0, 1] (by simp [triangleProgram])
  have second := feasible.2 [0, 2] (by simp [triangleProgram])
  have third := feasible.2 [1, 2] (by simp [triangleProgram])
  have whole : triangleProgram.total values = values 0 + (values 1 + (values 2 + 0)) := rfl
  simp only [CoveringProgram.rowSum, List.foldr_cons, List.foldr_nil] at first second third
  linarith

theorem triangle_answered :
    triangleProgram.IsAnswered triangleHalves (some (.ofRat (3 / 2))) where
  bounded index known :=
    ⟨_, _, triangleHalves_told known, half_toRat?, by norm_num, by norm_num⟩
  rows row member := by
    have half : ∀ index < 3, valueOf triangleHalves index = 1 / 2 := fun index known => by
      rw [valueOf, triangleHalves_told known, Option.bind_some, half_toRat?, Option.getD_some]
    have pair : ∀ first < 3, ∀ second < 3,
        1 - rowSlack ≤ CoveringProgram.rowSum (valueOf triangleHalves) [first, second] := by
      intro first known second known'
      rw [CoveringProgram.rowSum, List.foldr_cons, List.foldr_cons, List.foldr_nil,
        half first known, half second known']
      norm_num [rowSlack]
    simp only [triangleProgram, List.mem_cons, List.not_mem_nil, or_false] at member
    rcases member with rfl | rfl | rfl
    · exact pair 0 (by decide) 1 (by decide)
    · exact pair 0 (by decide) 2 (by decide)
    · exact pair 1 (by decide) 2 (by decide)
  least x rounded others bounded := by
    refine le_trans ?_ (triangle_total_ge bounded.1)
    have small : ((Binary64.sum (activitiesOf 3 triangleHalves) - roundingSlack).toRat?.all
        (· ≤ 3 / 2)) = true := by decide +kernel
    change (Binary64.sum (activitiesOf 3 triangleHalves) - roundingSlack).toRat? = some x at rounded
    rwa [rounded, Option.all_some, decide_eq_true_eq] at small
  close := by
    show (discrepancy (Binary64.sum (activitiesOf 3 triangleHalves)) _).lt _ = true
    decide +kernel

/-- The triangle is answered by three halves, so that the bound is two. -/
theorem relaxation_guides_triangle :
    (∀ program, CoveringProgram.ofIncidence? triangle = .ok program →
      ∃ values objective, exactOptimizer program = .optimal values objective ∧
        program.IsAnswered values objective) ∧
      ∃ fractional, (relax exactOptimizer triangle).1 = .ok fractional ∧
        fractional.Guides triangle ∧ fractional.lowerBound = 2 := by
  have answered : ∀ program, CoveringProgram.ofIncidence? triangle = .ok program →
      ∃ values objective, exactOptimizer program = .optimal values objective ∧
        program.IsAnswered values objective := by
    intro program relaxed
    rw [triangle_relaxed] at relaxed
    cases relaxed
    refine ⟨triangleHalves, some (.ofRat (3 / 2)), ?_, triangle_answered⟩
    rw [exactOptimizer, triangle_optimum]
    rfl
  obtain ⟨_, fractional, _, _, made, guides⟩ := relaxation_guides triangle_built answered
  refine ⟨answered, fractional, made, guides, ?_⟩
  have bound : (relax exactOptimizer triangle).1.map Fractional.lowerBound = .ok 2 := by
    decide +kernel
  rw [made] at bound
  exact Except.ok.inj bound

end Transversal
