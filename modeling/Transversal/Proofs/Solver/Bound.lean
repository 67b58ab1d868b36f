/-
**What the lower bound of a fractional solution certifies.**

* `Outcome.Certified`: the bound is at most the size of the cover, and a cover as small as the bound
  is a smallest one.
* `Fractional.Bounds`: no cover is below the bound, every result is certified, and no run stops
  early at a cover that is not a smallest one.
* `bounds_of_le_optimum`: it holds if what is rounded up for the bound is at most the optimum of the
  covering program.
* `bounds_iff_of_objective`: if only the reported objective value is the optimum, the bound is at
  most one too large, and it is too large exactly if some cover is as small as the optimum allows
  and what is rounded up is above that.
* `hexagon_bound_too_large`: an accepted solution for which this happens.
-/
import Transversal.Proofs.Cover.Largest
import Transversal.Proofs.Relaxation.Covering
import Transversal.Proofs.Solver.Guided

namespace Transversal

variable {incidence : Incidence} {fractional : Fractional}

/-! ### Results of both algorithms -/

/-- **What a bound certifies of a result.** -/
structure Outcome.Certified (incidence : Incidence) (bound : Int) (outcome : Outcome) : Prop where
  reported : outcome.lowerBound = some bound
  bounded : bound ≤ outcome.size
  optimal : outcome.isOptimal → ∀ cover, incidence.isCover? cover = .ok true →
    outcome.size ≤ cover.length

/-- A cover with a bound that no cover is below. -/
theorem Outcome.certified_of_le {bound : Int} {outcome : Outcome}
    (covers : incidence.isCover? outcome.cover = .ok true)
    (reported : outcome.lowerBound = some bound)
    (below : ∀ cover, incidence.isCover? cover = .ok true → bound ≤ cover.length) :
    outcome.Certified incidence bound where
  reported := reported
  bounded := below outcome.cover covers
  optimal same cover other := by
    rw [isOptimal, reported, decide_eq_true_eq, Option.some.injEq] at same
    have least := below cover other
    omega

/-- What the greedy algorithm returns is its cover, pruned, with the bound of its solution. -/
theorem exists_of_solveLargest {given : Option Fractional} {outcome : Outcome}
    (run : solveLargest incidence given = .ok outcome) :
    ∃ constructed pruned, largestCover incidence = .ok constructed ∧
      pruned? incidence constructed = .ok pruned ∧
      boundOf? incidence given = .ok outcome.lowerBound ∧
      outcome.cover = pruned.members ∧ outcome.history = [(1, pruned.size)] := by
  obtain ⟨bound, reported, run⟩ := Except.bind_eq_ok_iff.mp run
  obtain ⟨constructed, grown, run⟩ := Except.bind_eq_ok_iff.mp run
  obtain ⟨pruned, ran, run⟩ := Except.bind_eq_ok_iff.mp run
  cases run
  exact ⟨constructed, pruned, grown, ran, reported, rfl, rfl⟩

/-- The greedy algorithm returns a cover. -/
theorem solveLargest_eq_ok {given : Option Fractional} {outcome : Outcome}
    (run : solveLargest incidence given = .ok outcome) :
    incidence.isCover? outcome.cover = .ok true ∧
      outcome.lowerBound = given.map Fractional.lowerBound := by
  obtain ⟨constructed, pruned, grown, ran, reported, same, _⟩ := exists_of_solveLargest run
  obtain ⟨tracked, complete⟩ := (tracked_largestCover grown).1.pruned? ran
  refine ⟨same ▸ (tracked.isWhole complete).covers, ?_⟩
  cases given with
  | none => exact (Except.ok.inj reported).symm
  | some fractional =>
    obtain ⟨_, _, bound⟩ := Except.map_eq_ok_iff.mp reported
    exact bound.symm

/-- **The lower bound of a solution is one**: no cover is below it, every result is certified by it,
and no run stops early at a cover that is not a smallest one, however its restarts interleave. -/
structure Fractional.Bounds (fractional : Fractional) (incidence : Incidence) : Prop where
  below : ∀ cover, incidence.isCover? cover = .ok true → fractional.lowerBound ≤ cover.length
  certified : ∀ algorithm options outcome,
    (solve algorithm incidence (some fractional) options).1 = .ok outcome →
    outcome.Certified incidence fractional.lowerBound
  scheduled : ∀ (σ : Type) [RandomStream σ] (desk : Desk σ) (streamAt : Nat → Except Fault σ)
    options outcome,
    GuidedEnding desk streamAt incidence (some fractional) options (.ok outcome) →
    outcome.Certified incidence fractional.lowerBound
  stops : ∀ (σ : Type) [RandomStream σ] (desk : Desk σ) (streamAt : Nat → Except Fault σ)
    options outcome,
    GuidedEnding desk streamAt incidence (some fractional) options (.ok outcome) →
    (outcome.rounds : Int) < options.budget incidence →
    ∀ cover, incidence.isCover? cover = .ok true → outcome.size ≤ cover.length

/-- All of it follows if no cover is below the bound. -/
theorem Fractional.bounds_iff (agreement : incidence.Agreement)
    (accepted : fractional.IsAccepted) :
    fractional.Bounds incidence ↔
      ∀ cover, incidence.isCover? cover = .ok true → fractional.lowerBound ≤ cover.length := by
  refine ⟨Bounds.below, fun below => ⟨below, fun algorithm options outcome solved => ?_,
    fun σ _ desk streamAt options outcome ending => ?_,
    fun σ _ desk streamAt options outcome ending early cover covers => ?_⟩⟩
  · cases algorithm with
    | guided =>
      have found := (solve_guided_ending incidence _ options).fromGuided agreement accepted solved
      exact Outcome.certified_of_le found.sound.covers found.bound below
    | largest =>
      obtain ⟨covers, bound⟩ := solveLargest_eq_ok solved
      exact Outcome.certified_of_le covers bound below
  · have found := ending.fromGuided agreement accepted rfl
    exact Outcome.certified_of_le found.sound.covers found.bound below
  · have reached := (ending.fromGuided agreement accepted rfl).stops early
    have least := below cover covers
    omega

/-- What is rounded up decides. -/
theorem Fractional.bounds_iff_forall_le (agreement : incidence.Agreement)
    (accepted : fractional.IsAccepted) :
    fractional.Bounds incidence ↔ ∀ cover, incidence.isCover? cover = .ok true →
      ∀ value, (fractional.sum - roundingSlack).toRat? = some value → value ≤ cover.length := by
  rw [bounds_iff agreement accepted]
  exact forall₂_congr fun cover _ => fractional.lowerBound_le_iff cover.length

/-! ### The corners of a hexagon -/

/-- The covering program of the hexagon. -/
def hexagonProgram : CoveringProgram :=
  ⟨6, [[0, 5], [0, 2], [2, 4], [1, 4], [1, 3], [3, 5]]⟩

theorem hexagon_relaxed : CoveringProgram.ofIncidence? hexagon = .ok hexagonProgram := by
  decide +kernel

/-- Three corners suffice. -/
theorem hexagon_covered : hexagon.isCover? [0, 4, 3] = .ok true := by decide +kernel

theorem hexagon_rows : ∀ row ∈ hexagonProgram.rows, row.length = 2 ∧ ∀ set ∈ row, set < 6 := by
  decide

/-- Half of every corner is optimal: three sides of the hexagon share no corner. -/
theorem hexagon_optimum : hexagonProgram.IsOptimum 3 := by
  refine ⟨⟨fun _ => 1 / 2, ⟨fun _ => by norm_num, fun row member => ?_⟩, ?_⟩, ?_⟩
  · rw [CoveringProgram.rowSum_eq_sum, List.map_const', List.sum_replicate,
      (hexagon_rows row member).1]
    norm_num
  · rw [CoveringProgram.total, CoveringProgram.rowSum_eq_sum, List.map_const', List.sum_replicate,
      List.length_range]
    norm_num [hexagonProgram]
  · rintro values ⟨_, rows⟩
    have first := rows [0, 5] (by simp [hexagonProgram])
    have second := rows [2, 4] (by simp [hexagonProgram])
    have third := rows [1, 3] (by simp [hexagonProgram])
    have whole : hexagonProgram.total values = values 0 + (values 1 + (values 2 + (values 3 +
        (values 4 + (values 5 + 0))))) := rfl
    simp only [CoveringProgram.rowSum, List.foldr_cons, List.foldr_nil] at first second third
    linarith

/-- Slightly more than half of every corner, within the tolerance. -/
def nearHalves : Fractional := ⟨6, .ofInt 3, Array.replicate 6 (.ofDecimal false ⟨5001, -4⟩)⟩

theorem nearHalves_accepted : nearHalves.IsAccepted := by
  rw [Fractional.isAccepted_iff]
  decide +kernel

theorem nearHalves_units : ∃ units, (nearHalves.sum - roundingSlack).units? = some units ∧
    3 * (Magnitude.one : Int) < units := by
  have finite : (nearHalves.sum - roundingSlack).isFinite = true := by decide +kernel
  have large : ((nearHalves.sum - roundingSlack).units?.all
      (3 * (Magnitude.one : Int) < ·)) = true := by decide +kernel
  obtain ⟨units, found⟩ := Binary64.isFinite_iff.mp finite
  rw [found, Option.all_some, decide_eq_true_eq] at large
  exact ⟨units, found, large⟩

theorem nearHalves_reported : nearHalves.objective.toRat? = some 3 := by
  rw [Binary64.toRat?_eq_some_iff]
  have units : nearHalves.objective.units? = some (3 * (Magnitude.one : Int)) := by decide +kernel
  refine ⟨_, units, ?_⟩
  push_cast
  rfl

/-- The value of an activity, and zero if there is none. -/
def Fractional.valueAt (fractional : Fractional) (set : Nat) : Rat :=
  (fractional.activities[set]?.bind Binary64.toRat?).getD 0

theorem half_le_nearHalves {set : Nat} (known : set < 6) : 1 / 2 ≤ nearHalves.valueAt set := by
  have listed : nearHalves.activities[set]? = some (.ofDecimal false ⟨5001, -4⟩) := by
    rw [nearHalves, Array.getElem?_replicate, if_pos known]
  have finite : (Binary64.ofDecimal false ⟨5001, -4⟩).isFinite = true := by decide +kernel
  have large : ((Binary64.ofDecimal false ⟨5001, -4⟩).units?.all
      fun units => (Magnitude.one : Int) ≤ 2 * units) = true := by decide +kernel
  obtain ⟨units, found⟩ := Binary64.isFinite_iff.mp finite
  rw [found, Option.all_some, decide_eq_true_eq] at large
  rw [Fractional.valueAt, listed, Option.bind_some, Binary64.toRat?, found, Option.map_some,
    Option.getD_some, le_div_iff₀ Binary64.one_pos]
  have scaled : ((Magnitude.one : Nat) : Rat) ≤ 2 * units := by exact_mod_cast large
  linarith

/-! ### The bound and the optimum -/

section Optimum

variable {sets : List (List Int)} {pathCount : Option Int} {program : CoveringProgram}
  {optimum : Rat}

/-- **The lower bound is one** if what is rounded up for it is at most the optimum of the covering
program. -/
theorem bounds_of_le_optimum (built : Incidence.ofSets? sets pathCount = .ok incidence)
    (accepted : fractional.IsAccepted)
    (relaxed : CoveringProgram.ofIncidence? incidence = .ok program)
    (optimal : program.IsOptimum optimum)
    (below : ∀ value, (fractional.sum - roundingSlack).toRat? = some value → value ≤ optimum) :
    fractional.Bounds incidence := by
  have agreement := Incidence.agreement_of_ofSets? built
  rw [Fractional.bounds_iff_forall_le agreement accepted]
  intro cover covers value rounded
  exact le_trans (below value rounded) (optimal.le_length agreement relaxed covers)

/-- The bound of the hexagon is three. -/
theorem bounds_halves : halves.Bounds hexagon := by
  refine bounds_of_le_optimum hexagon_built halves_accepted hexagon_relaxed hexagon_optimum ?_
  intro value rounded
  obtain ⟨units, found, same⟩ := Binary64.toRat?_eq_some_iff.mp rounded
  have small : ((halves.sum - roundingSlack).units?.all
      (· ≤ 3 * (Magnitude.one : Int))) = true := by decide +kernel
  rw [found, Option.all_some, decide_eq_true_eq] at small
  have scaled : value * (Magnitude.one : Nat) ≤ 3 * (Magnitude.one : Nat) := by
    rw [same]
    exact_mod_cast small
  exact le_of_mul_le_mul_right scaled Binary64.one_pos

/-- **What the checks of a solution protect** whose objective value is the optimum of the covering
program. The bound is at most one too large. It is a bound if the optimum is not within the
tolerance below a whole number. And it fails exactly if some cover is as small as the optimum allows
and what is rounded up is above that. -/
theorem bounds_iff_of_objective (built : Incidence.ofSets? sets pathCount = .ok incidence)
    (accepted : fractional.IsAccepted)
    (relaxed : CoveringProgram.ofIncidence? incidence = .ok program)
    (optimal : program.IsOptimum optimum)
    (reported : fractional.objective.toRat? = some optimum) :
    (∀ cover, incidence.isCover? cover = .ok true →
        fractional.lowerBound ≤ (cover.length + 1 : Nat)) ∧
      (∀ tolerance, activityTolerance.toRat? = some tolerance →
        optimum + tolerance ≤ ⌈optimum⌉ → fractional.Bounds incidence) ∧
      (fractional.Bounds incidence ↔
        (∀ cover, incidence.isCover? cover = .ok true → (cover.length : Int) ≠ ⌈optimum⌉) ∨
          ∀ value, (fractional.sum - roundingSlack).toRat? = some value → value ≤ ⌈optimum⌉) := by
  have agreement := Incidence.agreement_of_ofSets? built
  have least : ∀ cover, incidence.isCover? cover = .ok true →
      (⌈optimum⌉ : Rat) ≤ cover.length := by
    intro cover covers
    exact_mod_cast optimal.ceil_le_length agreement relaxed covers
  have near : ∀ value, (fractional.sum - roundingSlack).toRat? = some value →
      value < ⌈optimum⌉ + 1 := by
    intro value rounded
    have close := accepted.lt_add_one rounded reported
    have ceiling := Int.le_ceil optimum
    linarith
  refine ⟨fun cover covers => ?_, fun tolerance tolerated apart => ?_, ?_⟩
  · rw [Fractional.lowerBound_le_iff]
    intro value rounded
    have close := near value rounded
    have size := least cover covers
    push_cast
    linarith
  · rw [Fractional.bounds_iff_forall_le agreement accepted]
    intro cover covers value rounded
    have close := accepted.lt_add_tolerance rounded reported tolerated
    have size := least cover covers
    linarith
  · rw [Fractional.bounds_iff_forall_le agreement accepted]
    constructor
    · intro below
      by_contra fails
      push Not at fails
      obtain ⟨⟨cover, covers, tight⟩, value, rounded, larger⟩ := fails
      have bounded := below cover covers value rounded
      have same : (cover.length : Rat) = ⌈optimum⌉ := by exact_mod_cast tight
      linarith
    · intro holds cover covers value rounded
      have size := least cover covers
      rcases holds with loose | below
      · -- a cover that is not as small as the optimum allows has room for the one that is too much
        have longer : ⌈optimum⌉ + 1 ≤ (cover.length : Int) :=
          lt_of_le_of_ne (by exact_mod_cast size) (loose cover covers).symm
        have room : (⌈optimum⌉ : Rat) + 1 ≤ cover.length := by exact_mod_cast longer
        have close := near value rounded
        linarith
      · exact le_trans (below value rounded) size

end Optimum

/-- The bound of slightly more than halves is one too large. -/
theorem not_bounds_nearHalves :
    (∀ cover, hexagon.isCover? cover = .ok true →
      nearHalves.lowerBound ≤ (cover.length + 1 : Nat)) ∧ ¬ nearHalves.Bounds hexagon := by
  obtain ⟨close, _, exactly⟩ := bounds_iff_of_objective hexagon_built nearHalves_accepted
    hexagon_relaxed hexagon_optimum nearHalves_reported
  refine ⟨close, fun bounds => ?_⟩
  have whole : ⌈(3 : Rat)⌉ = 3 := Int.ceil_ofNat 3
  rw [whole] at exactly
  rcases exactly.mp bounds with longer | below
  · exact longer [0, 4, 3] hexagon_covered rfl
  · obtain ⟨units, found, large⟩ := nearHalves_units
    have value : (nearHalves.sum - roundingSlack).toRat? =
        some ((units : Rat) / (Magnitude.one : Nat)) := by
      rw [Binary64.toRat?, found, Option.map_some]
    have small := below _ value
    rw [div_le_iff₀ Binary64.one_pos] at small
    have bounded : units ≤ 3 * (Magnitude.one : Int) := by exact_mod_cast small
    omega

/-- **An accepted solution whose bound is too large**: its activities are feasible, its objective
value is the optimum, and a cover of four corners is said to be optimal, although three suffice. -/
theorem hexagon_bound_too_large :
    Incidence.ofSets? [[0, 1], [3, 4], [1, 2], [4, 5], [2, 3], [5, 0]] none = .ok hexagon ∧
      nearHalves.IsAccepted ∧ nearHalves.agrees? hexagon = .ok () ∧
      CoveringProgram.ofIncidence? hexagon = .ok hexagonProgram ∧
      (∀ row ∈ hexagonProgram.rows, 1 ≤ CoveringProgram.rowSum nearHalves.valueAt row) ∧
      hexagonProgram.IsOptimum 3 ∧ nearHalves.objective.toRat? = some 3 ∧
      hexagon.isCover? [0, 4, 3] = .ok true ∧ nearHalves.lowerBound = 4 ∧
      ∃ outcome, (solve .largest hexagon (some nearHalves) {}).1 = .ok outcome ∧
        outcome.isOptimal ∧ outcome.size = 4 := by
  have agrees : nearHalves.agrees? hexagon = .ok () := by decide +kernel
  refine ⟨hexagon_built, nearHalves_accepted, agrees, hexagon_relaxed, fun row member => ?_,
    hexagon_optimum, nearHalves_reported, hexagon_covered, by decide +kernel, ?_⟩
  · obtain ⟨pair, known⟩ := hexagon_rows row member
    have halved : ∀ value ∈ row.map nearHalves.valueAt, 1 / 2 ≤ value := by
      intro value found
      obtain ⟨set, listed, rfl⟩ := List.mem_map.mp found
      exact half_le_nearHalves (known set listed)
    have total := List.card_nsmul_le_sum _ _ halved
    rw [List.length_map, pair] at total
    rw [CoveringProgram.rowSum_eq_sum]
    exact le_trans (by norm_num) total
  · have solved : solveLargest hexagon (some nearHalves) =
        .ok ⟨.largest, [0, 1, 2, 3], some 4, 1, [(1, 4)], .largest 4⟩ := by
      decide +kernel
    exact ⟨_, solved, rfl, rfl⟩

end Transversal
