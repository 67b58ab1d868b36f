/-
**The program that an optimizer is given has the optimum of the covering problem.**

The program is built from the sets of every path, and asks for variables in the unit interval. The
covering problem is stated by the paths of every set, and only asks that no weight is negative.

* `CoveringProgram.isBoundedOptimum_iff`: no variable need be above one, as it can be lowered to
  one.
* `Incidence.IsFractionalCover`, `Incidence.IsCoveringOptimum`: the covering problem.
* `CoveringProgram.isFeasible_iff`: its solutions are those of the program of the relation.
* `CoveringProgram.isBoundedOptimum_iff_covering`: so both have the same optimum.
-/
import Mathlib.Algebra.BigOperators.Group.Finset.Basic
import Transversal.Proofs.Relaxation.Covering

namespace Transversal

namespace CoveringProgram

variable {program : CoveringProgram} {values : Nat → Rat} {optimum : Rat}

/-! ### Variables in the unit interval -/

/-- The values with all that is above one lowered to it. -/
def capped (values : Nat → Rat) (index : Nat) : Rat := min 1 (values index)

theorem IsFeasible.capped (feasible : program.IsFeasible values) :
    program.IsBounded (capped values) := by
  have natural : ∀ index, 0 ≤ CoveringProgram.capped values index := fun index =>
    le_min zero_le_one (feasible.1 index)
  refine ⟨⟨natural, fun row member => ?_⟩, fun index => min_le_left _ _⟩
  rw [rowSum_eq_sum]
  by_cases large : ∃ index ∈ row, 1 ≤ values index
  · -- One variable of the row is lowered to one, which is enough for the row.
    obtain ⟨index, named, large⟩ := large
    have one : CoveringProgram.capped values index = 1 := min_eq_left large
    rw [← one]
    refine List.single_le_sum (fun value member => ?_) _ (List.mem_map_of_mem named)
    obtain ⟨other, _, rfl⟩ := List.mem_map.mp member
    exact natural other
  · push Not at large
    have same : row.map (CoveringProgram.capped values) = row.map values :=
      List.map_congr_left fun index named => min_eq_right (large index named).le
    rw [same, ← rowSum_eq_sum]
    exact feasible.2 row member

theorem total_capped_le (program : CoveringProgram) (values : Nat → Rat) :
    program.total (capped values) ≤ program.total values := by
  rw [total, total, rowSum_eq_sum, rowSum_eq_sum]
  exact List.sum_le_sum fun index _ => min_le_right _ _

/-- What is below the total of every solution in the unit interval is below that of any other. -/
theorem le_total_iff {bound : Rat} :
    (∀ values, program.IsBounded values → bound ≤ program.total values) ↔
      ∀ values, program.IsFeasible values → bound ≤ program.total values :=
  ⟨fun below values feasible =>
    (below _ feasible.capped).trans (program.total_capped_le values),
    fun below values bounded => below values bounded.1⟩

/-- **The optimum is the same without the upper bounds.** -/
theorem isBoundedOptimum_iff : program.IsBoundedOptimum optimum ↔ program.IsOptimum optimum := by
  rw [IsBoundedOptimum, IsOptimum, le_total_iff]
  refine and_congr_left fun below => ⟨?_, ?_⟩
  · rintro ⟨values, bounded, reached⟩
    exact ⟨values, bounded.1, reached⟩
  · rintro ⟨values, feasible, reached⟩
    refine ⟨capped values, feasible.capped, le_antisymm ?_ (below _ feasible.capped.1)⟩
    exact reached ▸ program.total_capped_le values

end CoveringProgram

/-! ### The covering problem -/

/-- **A fractional cover**: no set has a negative weight, and the sets that list a path have a total
weight of at least one. -/
structure Incidence.IsFractionalCover (incidence : Incidence) (weights : Nat → Rat) : Prop where
  natural : ∀ set, 0 ≤ weights set
  hit : ∀ path < incidence.pathCount,
    1 ≤ ∑ set ∈ Finset.range incidence.setCount with (path : Int) ∈ incidence.listed (set : Nat),
      weights set

/-- The least total weight of a fractional cover. -/
def Incidence.IsCoveringOptimum (incidence : Incidence) (optimum : Rat) : Prop :=
  IsLeast {total | ∃ weights, incidence.IsFractionalCover weights ∧
    total = ∑ set ∈ Finset.range incidence.setCount, weights set} optimum

namespace CoveringProgram

variable {incidence : Incidence} {program : CoveringProgram} {values : Nat → Rat} {optimum : Rat}

theorem toFinset_range (count : Nat) : (List.range count).toFinset = Finset.range count := by
  ext index
  rw [List.mem_toFinset, List.mem_range, Finset.mem_range]

theorem sum_map_rowOf (incidence : Incidence) (path : Nat) (values : Nat → Rat) :
    ((incidence.rowOf path).map values).sum =
      ∑ set ∈ Finset.range incidence.setCount with (path : Int) ∈ incidence.listed (set : Nat),
        values set := by
  rw [Incidence.rowOf, ← List.sum_toFinset _ (List.nodup_range.filter _), List.toFinset_filter,
    toFinset_range]
  simp only [decide_eq_true_eq]

/-- **The solutions of the program are the fractional covers.** -/
theorem isFeasible_iff (agreement : incidence.Agreement)
    (relaxed : ofIncidence? incidence = .ok program) (values : Nat → Rat) :
    (program.IsFeasible values ↔ incidence.IsFractionalCover values) ∧
      program.total values = ∑ set ∈ Finset.range incidence.setCount, values set := by
  rw [ofIncidence?_eq_ok agreement] at relaxed
  cases relaxed
  constructor
  · simp only [IsFeasible, List.forall_mem_map, List.mem_range, rowSum_eq_sum, sum_map_rowOf]
    exact ⟨fun ⟨natural, hit⟩ => ⟨natural, hit⟩, fun ⟨natural, hit⟩ => ⟨natural, hit⟩⟩
  · rw [total, rowSum_eq_sum, ← List.sum_toFinset _ List.nodup_range, toFinset_range]

/-- **The optimum of the program is that of the covering problem.** -/
theorem isBoundedOptimum_iff_covering (agreement : incidence.Agreement)
    (relaxed : ofIncidence? incidence = .ok program) :
    program.IsBoundedOptimum optimum ↔ incidence.IsCoveringOptimum optimum := by
  have solutions := isFeasible_iff agreement relaxed
  rw [isBoundedOptimum_iff, IsOptimum, Incidence.IsCoveringOptimum, IsLeast]
  refine and_congr ?_ ?_
  · refine exists_congr fun values => ?_
    rw [(solutions values).1, (solutions values).2, eq_comm]
  · rw [mem_lowerBounds]
    constructor
    · rintro below _ ⟨values, cover, rfl⟩
      rw [← (solutions values).2]
      exact below values ((solutions values).1.mpr cover)
    · intro below values feasible
      rw [(solutions values).2]
      exact below _ ⟨values, (solutions values).1.mp feasible, rfl⟩

end CoveringProgram

end Transversal
