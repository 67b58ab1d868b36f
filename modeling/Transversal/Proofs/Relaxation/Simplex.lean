/-
**What the simplex method finds is the optimum.**

* `CoveringProgram.weight_le_total`: no packing weighs more than a covering.
* `Tableau.Sound.neg_cost_width_le`: the value of a tableau is a lower bound of all coverings;
  `Tableau.Sound.isFeasible_prices`, `Tableau.Sound.total_prices`: once no column is worth raising,
  the reduced costs of the slacks are a covering of that value.
* `Tableau.Sound.not_isFeasible_of_unbounded`: where a column can be raised without end, there is no
  covering.
* `Tableau.run?_cases`: the run comes to one of both, or makes all exchanges it was granted, which
  are too many for it.
* `exactOptimum?_decided`: so an optimal covering is found wherever there is a covering, which a
  relation that was built has (`exactOptimum?_of_ofSets?`).
-/
import Mathlib.Algebra.Order.BigOperators.Ring.Finset
import Mathlib.Data.List.GetD
import Transversal.Proofs.Relaxation.Bland
import Transversal.Proofs.Relaxation.Bounded

namespace Transversal

open Finset (range)

variable {program : CoveringProgram} {values point : Nat → Rat}

/-! ### Packings and coverings -/

namespace CoveringProgram

/-- The rows name variables of the program only. -/
def NamesVariables (program : CoveringProgram) : Prop :=
  ∀ row ∈ program.rows, ∀ index ∈ row, index < program.variableCount

theorem total_eq_sum (program : CoveringProgram) (values : Nat → Rat) :
    program.total values = ∑ index ∈ range program.variableCount, values index := by
  rw [total, rowSum_eq_sum, ← List.sum_toFinset _ List.nodup_range, toFinset_range]

/-- The sum of a row, by the variables. -/
theorem rowSum_eq_sum_coefficientAt (named : program.NamesVariables) {place : Nat}
    (within : place < program.rows.length) (values : Nat → Rat) :
    rowSum values (program.rows.getD place []) =
      ∑ index ∈ range program.variableCount, program.coefficientAt place index * values index := by
  have known : ∀ index ∈ program.rows.getD place [], index < program.variableCount := by
    rw [List.getD_eq_getElem _ _ within]
    exact named _ (List.getElem_mem within)
  simp only [coefficientAt, coefficient]
  generalize program.rows.getD place [] = row at known ⊢
  induction row with
  | nil => simp [rowSum]
  | cons first rest ih =>
    rw [List.forall_mem_cons] at known
    have parts : rowSum values (first :: rest) = values first + rowSum values rest := rfl
    have counts (index : Nat) : ((List.count index (first :: rest) : Nat) : Rat) * values index =
        (if index = first then values index else 0) +
          (List.count index rest : Nat) * values index := by
      rw [List.count_cons]
      by_cases same : index = first
      · simp [same]
        ring
      · simp [same, Ne.symm same]
    rw [parts, ih known.2, Finset.sum_congr rfl fun index _ => counts index,
      Finset.sum_add_distrib, Finset.sum_ite_eq', if_pos (Finset.mem_range.mpr known.1)]

/-- **Weak duality**, with what is between both sums: the weights of the rows that are more than
covered, and the variables whose slack is not used up. -/
theorem total_sub_weight (named : program.NamesVariables) (balances : program.Balances point)
    (values : Nat → Rat) : program.total values - program.weight point =
      ∑ place ∈ range program.rows.length,
        point place * (rowSum values (program.rows.getD place []) - 1) +
      ∑ index ∈ range program.variableCount,
        point (program.rows.length + index) * values index := by
  have rows : ∑ place ∈ range program.rows.length,
      point place * (rowSum values (program.rows.getD place []) - 1) =
        ∑ index ∈ range program.variableCount, (∑ place ∈ range program.rows.length,
          program.coefficientAt place index * point place) * values index -
            program.weight point := by
    simp only [Finset.sum_mul]
    rw [Finset.sum_comm, weight, ← Finset.sum_sub_distrib]
    refine Finset.sum_congr rfl fun place within => ?_
    rw [rowSum_eq_sum_coefficientAt named (Finset.mem_range.mp within), mul_sub, mul_one,
      Finset.mul_sum]
    congr 1
    exact Finset.sum_congr rfl fun index _ => by ring
  rw [rows, sub_add_eq_add_sub, ← Finset.sum_add_distrib, total_eq_sum]
  congr 1
  refine Finset.sum_congr rfl fun index known => ?_
  rw [← add_mul, balances index (Finset.mem_range.mp known), one_mul]

/-- **No packing weighs more than a covering.** -/
theorem weight_le_total (named : program.NamesVariables) (balances : program.Balances point)
    (packs : ∀ index < program.width, 0 ≤ point index) (feasible : program.IsFeasible values) :
    program.weight point ≤ program.total values := by
  rw [← sub_nonneg, total_sub_weight named balances]
  refine add_nonneg (Finset.sum_nonneg fun place within => ?_)
    (Finset.sum_nonneg fun index known => ?_)
  · rw [Finset.mem_range] at within
    refine mul_nonneg (packs place (Nat.lt_add_right _ within)) (sub_nonneg.mpr ?_)
    rw [List.getD_eq_getElem _ _ within]
    exact feasible.2 _ (List.getElem_mem within)
  · rw [Finset.mem_range] at known
    exact mul_nonneg (packs _ (Nat.add_lt_add_left known _)) (feasible.1 index)

/-- Weights of the rows, and the slack that they leave. -/
def withSlack (program : CoveringProgram) (weights : Nat → Rat) (index : Nat) : Rat :=
  if index < program.rows.length then weights index
  else 1 - ∑ place ∈ range program.rows.length,
    program.coefficientAt place (index - program.rows.length) * weights place

theorem withSlack_of_lt (weights : Nat → Rat) {place : Nat}
    (within : place < program.rows.length) :
    program.withSlack weights place = weights place := if_pos within

theorem withSlack_add (weights : Nat → Rat) (index : Nat) :
    program.withSlack weights (program.rows.length + index) =
      1 - ∑ place ∈ range program.rows.length,
        program.coefficientAt place index * weights place := by
  rw [withSlack, if_neg (Nat.not_lt.mpr (Nat.le_add_right _ _)), Nat.add_sub_cancel_left]

theorem weight_withSlack (program : CoveringProgram) (weights : Nat → Rat) :
    program.weight (program.withSlack weights) = program.weight weights :=
  Finset.sum_congr rfl fun _ within => withSlack_of_lt weights (Finset.mem_range.mp within)

theorem balances_withSlack (program : CoveringProgram) (weights : Nat → Rat) :
    program.Balances (program.withSlack weights) := by
  intro index _
  rw [withSlack_add, Finset.sum_congr rfl fun place within => by
    rw [withSlack_of_lt weights (Finset.mem_range.mp within)], add_sub_cancel]

end CoveringProgram

/-! ### What a tableau tells of the coverings -/

namespace Tableau

variable {tableau : Tableau} {column : Nat}

/-- The reduced costs of the slacks, but for the sign: what the variables are worth. -/
def prices (program : CoveringProgram) (tableau : Tableau) (index : Nat) : Rat :=
  if index < program.variableCount then -tableau.cost (program.rows.length + index) else 0

namespace Sound

variable (sound : Sound program tableau)

include sound

omit sound in
/-- A column that is raised by no more than the rows allow makes a packing. -/
theorem raised_nonneg {amount : Rat} (positive : 0 ≤ amount)
    (allowed : ∀ place < program.variableCount,
      amount * tableau.entry place column ≤ tableau.entry place program.width) (index : Nat) :
    0 ≤ raised program tableau column amount index := by
  refine add_nonneg ?_ (Finset.sum_nonneg fun place within => ?_)
  · split
    · exact positive
    · exact le_rfl
  · split
    · exact sub_nonneg.mpr (allowed place (Finset.mem_range.mp within))
    · exact le_rfl

/-- **The value of a tableau** is below the total of every covering. -/
theorem neg_cost_width_le (named : program.NamesVariables) (feasible : program.IsFeasible values) :
    -tableau.cost program.width ≤ program.total values := by
  rw [← sound.weight_vertex_self]
  refine CoveringProgram.weight_le_total named (sound.balances_raised (.inr rfl))
    (fun index _ => raised_nonneg le_rfl (fun place within => ?_) index) feasible
  rw [zero_mul]
  exact sound.nonneg place within

/-- **A column that can be raised without end** leaves no covering. -/
theorem not_isFeasible_of_unbounded (named : program.NamesVariables)
    (known : column < program.width) (worth : 0 < tableau.cost column)
    (unbounded : ∀ place < program.variableCount, tableau.entry place column ≤ 0) :
    ¬program.IsFeasible values := by
  intro feasible
  -- raised so far, the column weighs more than the covering
  have far : 0 ≤ (|program.total values + tableau.cost program.width| + 1) / tableau.cost column :=
    div_nonneg (by positivity) worth.le
  have bounded := CoveringProgram.weight_le_total named (sound.balances_raised (.inl known))
    (fun index _ => raised_nonneg far (fun place within => ?_) index) feasible
  · rw [sound.weight_raised (.inl known), mul_div_cancel₀ _ worth.ne'] at bounded
    have reached := le_abs_self (program.total values + tableau.cost program.width)
    linarith
  · exact (mul_nonpos_of_nonneg_of_nonpos far (unbounded place within)).trans
      (sound.nonneg place within)

/-- What the costs say of weights of the rows. -/
theorem sum_cost_withSlack (weights : Nat → Rat) :
    ∑ place ∈ range program.rows.length, tableau.cost place * weights place +
      ∑ index ∈ range program.variableCount, tableau.cost (program.rows.length + index) *
        (1 - ∑ place ∈ range program.rows.length,
          program.coefficientAt place index * weights place) - tableau.cost program.width =
      program.weight weights := by
  have told := sound.costs _ (program.balances_withSlack weights)
  rw [residual, CoveringProgram.weight_withSlack] at told
  have weighed : ∀ place ∈ range program.rows.length,
      tableau.cost place * program.withSlack weights place =
        tableau.cost place * weights place := by
    intro place within
    rw [CoveringProgram.withSlack_of_lt weights (Finset.mem_range.mp within)]
  rw [← told, CoveringProgram.width, Finset.sum_range_add, Finset.sum_congr rfl weighed]
  simp only [CoveringProgram.withSlack_add]

/-- **The prices add up** to the value of the tableau. -/
theorem total_prices : program.total (prices program tableau) = -tableau.cost program.width := by
  have told := sound.sum_cost_withSlack fun _ => 0
  simp only [mul_zero, Finset.sum_const_zero, zero_add, sub_zero, mul_one,
    CoveringProgram.weight] at told
  rw [CoveringProgram.total_eq_sum, ← sub_eq_zero.mp told, ← Finset.sum_neg_distrib]
  refine Finset.sum_congr rfl fun index known => ?_
  rw [prices, if_pos (Finset.mem_range.mp known)]

/-- The prices of the variables that a row names sum to one, less the reduced cost of its weight. -/
theorem rowSum_prices (named : program.NamesVariables) {place : Nat}
    (within : place < program.rows.length) :
    CoveringProgram.rowSum (prices program tableau) (program.rows.getD place []) =
      1 - tableau.cost place := by
  have nothing := sound.sum_cost_withSlack fun _ => 0
  have single := sound.sum_cost_withSlack fun other => if other = place then 1 else 0
  simp only [mul_zero, Finset.sum_const_zero, zero_add, sub_zero, mul_one,
    CoveringProgram.weight] at nothing
  simp only [mul_ite, mul_one, mul_zero, Finset.sum_ite_eq', Finset.mem_range, within, if_true,
    CoveringProgram.weight, mul_sub, Finset.sum_sub_distrib] at single
  rw [CoveringProgram.rowSum_eq_sum_coefficientAt named within]
  have costs : ∑ index ∈ range program.variableCount,
      program.coefficientAt place index * prices program tableau index =
        -∑ index ∈ range program.variableCount,
          tableau.cost (program.rows.length + index) * program.coefficientAt place index := by
    rw [← Finset.sum_neg_distrib]
    refine Finset.sum_congr rfl fun index known => ?_
    rw [prices, if_pos (Finset.mem_range.mp known), mul_neg, mul_comm]
  linarith

/-- **Once no column is worth raising**, the prices are an optimal covering. -/
theorem isFeasible_prices (named : program.NamesVariables)
    (done : ∀ column < program.width, tableau.cost column ≤ 0) :
    program.IsFeasible (prices program tableau) := by
  refine ⟨fun index => ?_, fun row member => ?_⟩
  · rw [prices]
    split
    · rename_i known
      exact neg_nonneg.mpr (done _ (Nat.add_lt_add_left known _))
    · exact le_rfl
  · obtain ⟨place, within, rfl⟩ := List.getElem_of_mem member
    have sum := sound.rowSum_prices named within
    rw [List.getD_eq_getElem _ _ within] at sum
    have low := done place (Nat.lt_add_right _ within)
    linarith

end Sound

/-! ### Runs -/

/-- A tableau in front of others. -/
def followedBy (first : Tableau) (path : Nat → Tableau) : Nat → Tableau
  | 0 => first
  | time + 1 => path time

/-- **The three ways in which a run ends**: no column is worth raising, or one can be raised without
end, or it has made all exchanges that were granted. -/
theorem run?_cases (sound : Sound program tableau) (steps : Nat) :
    (∃ last, tableau.run? steps = some last ∧ Sound program last ∧
        ∀ column < program.width, last.cost column ≤ 0) ∨
      (tableau.run? steps = none ∧ ∃ last, Sound program last ∧
        ∃ column < program.width, 0 < last.cost column ∧
          ∀ place < program.variableCount, last.entry place column ≤ 0) ∨
      ∃ path columns places, path 0 = tableau ∧ IsWalk program steps path columns places := by
  induction steps generalizing tableau with
  | zero =>
    exact .inr (.inr ⟨fun _ => tableau, id, id, rfl, sound, fun _ less => absurd less (by omega),
      fun _ less => absurd less (by omega)⟩)
  | succ steps ih =>
    rw [run?]
    obtain ⟨stops, done⟩ | ⟨stops, column, known, worth, unbounded⟩ |
      ⟨column, place, pivot, moves⟩ := step_cases sound.shape
    · rw [stops]
      exact .inl ⟨tableau, rfl, sound, done⟩
    · rw [stops]
      exact .inr (.inl ⟨rfl, tableau, sound, column, known, worth, unbounded⟩)
    · rw [moves]
      obtain found | none_found | ⟨path, columns, places, begins, walk⟩ :=
        ih (sound.exchange pivot)
      · exact .inl found
      · exact .inr (.inl none_found)
      · refine .inr (.inr ⟨followedBy tableau path, fun time => time.casesOn column columns,
          fun time => time.casesOn place places, rfl, sound, fun time less => ?_,
          fun time less => ?_⟩)
        · cases time with
          | zero => exact pivot
          | succ time => exact walk.pivot time (by omega)
        · cases time with
          | zero => exact begins
          | succ time => exact walk.next time (by omega)

end Tableau

/-! ### The optimum -/

section Optimum

open Tableau (prices Sound)

/-- **What the run leads to**: the prices of a tableau where no column is worth raising, or nothing
where one can be raised without end. -/
theorem exactOptimum?_cases (program : CoveringProgram) :
    (∃ last, Sound program last ∧ (∀ column < program.width, last.cost column ≤ 0) ∧
      exactOptimum? program = some ⟨(List.range program.variableCount).map (prices program last),
        -last.cost program.width⟩) ∨
      (exactOptimum? program = none ∧ ∃ last, Sound program last ∧
        ∃ column < program.width, 0 < last.cost column ∧
          ∀ place < program.variableCount, last.entry place column ≤ 0) := by
  have bound : Nat.pow 2 (program.rows.length + program.variableCount) = 2 ^ program.width := rfl
  rw [exactOptimum?, bound]
  obtain ⟨last, ends, sound, done⟩ | ⟨ends, unbounded⟩ | ⟨path, columns, places, _, walk⟩ :=
    Tableau.run?_cases (Tableau.sound_start program) (2 ^ program.width)
  · refine .inl ⟨last, sound, done, ?_⟩
    have values : ∀ index ∈ List.range program.variableCount,
        -(last.costs.getD (program.rows.length + index) 0) = prices program last index := by
      intro index known
      rw [prices, if_pos (List.mem_range.mp known), Tableau.cost]
    rw [ends, Option.bind_eq_bind, Option.bind_some, List.map_congr_left values,
      Tableau.rightSide_eq sound.shape.costs]
    rfl
  · exact .inr ⟨by rw [ends]; rfl, unbounded⟩
  · exact absurd walk.lt_two_pow (lt_irrefl _)

theorem getD_map_prices (program : CoveringProgram) (last : Tableau) :
    (fun index => ((List.range program.variableCount).map (prices program last)).getD index 0) =
      prices program last := by
  funext index
  rw [List.getD_eq_getElem?_getD, List.getElem?_map]
  by_cases known : index < program.variableCount
  · rw [List.getElem?_range known, Option.map_some, Option.getD_some]
  · rw [List.getElem?_eq_none (by simpa using known), prices, if_neg known]
    rfl

/-- **What is found**: an optimal covering, wherever there is a covering. -/
theorem exactOptimum?_decided (named : program.NamesVariables) :
    (∀ solution, exactOptimum? program = some solution →
      solution.values.length = program.variableCount ∧
        program.IsFeasible (fun index => solution.values.getD index 0) ∧
        program.total (fun index => solution.values.getD index 0) = solution.optimum ∧
        ∀ values, program.IsFeasible values → solution.optimum ≤ program.total values) ∧
      (exactOptimum? program = none ↔ ∀ values, ¬program.IsFeasible values) := by
  obtain ⟨last, sound, done, found⟩ | ⟨none_found, last, sound, column, known, worth, unbounded⟩ :=
    exactOptimum?_cases program
  · have feasible := sound.isFeasible_prices named done
    rw [found]
    refine ⟨?_, fun absent => absurd absent (Option.some_ne_none _),
      fun none_feasible => absurd feasible (none_feasible _)⟩
    rintro _ ⟨⟩
    rw [getD_map_prices]
    exact ⟨by simp, feasible, sound.total_prices,
      fun values => sound.neg_cost_width_le named⟩
  · rw [none_found]
    exact ⟨fun _ => nofun, fun _ values =>
      sound.not_isFeasible_of_unbounded named known worth unbounded, fun _ => rfl⟩

theorem namesVariables_of_ofIncidence? {incidence : Incidence} (agreement : incidence.Agreement)
    (relaxed : CoveringProgram.ofIncidence? incidence = .ok program) : program.NamesVariables := by
  rw [CoveringProgram.ofIncidence?_eq_ok agreement] at relaxed
  cases relaxed
  intro row member index listed
  obtain ⟨path, _, rfl⟩ := List.mem_map.mp member
  exact List.mem_range.mp (List.mem_of_mem_filter listed)

/-- All sets together cover. -/
theorem Incidence.Agreement.isFractionalCover_one {incidence : Incidence}
    (agreement : incidence.Agreement) : incidence.IsFractionalCover fun _ => 1 := by
  refine ⟨fun _ => zero_le_one, fun path within => ?_⟩
  obtain ⟨_, hits⟩ := List.exists_mem_of_ne_nil _ (agreement.hit path within)
  obtain ⟨set, known, rfl, listed⟩ := (agreement.mem_hitting_iff within).mp hits
  rw [Finset.sum_const, nsmul_one, Nat.one_le_cast, Nat.one_le_iff_ne_zero, Finset.card_ne_zero]
  exact ⟨set, Finset.mem_filter.mpr ⟨Finset.mem_range.mpr known, listed⟩⟩

/-- **The program of a relation that was built** has an optimal covering, which is found: a
fractional cover of the least weight. -/
theorem exactOptimum?_of_ofSets? {sets : List (List Int)} {pathCount : Option Int}
    {incidence : Incidence} (built : Incidence.ofSets? sets pathCount = .ok incidence) :
    ∃ program solution, CoveringProgram.ofIncidence? incidence = .ok program ∧
      exactOptimum? program = some solution ∧
      incidence.IsFractionalCover (fun set => solution.values.getD set 0) ∧
      incidence.IsCoveringOptimum solution.optimum := by
  have agreement := Incidence.agreement_of_ofSets? built
  obtain ⟨program, relaxed⟩ :
      ∃ program, CoveringProgram.ofIncidence? incidence = .ok program :=
    ⟨_, CoveringProgram.ofIncidence?_eq_ok agreement⟩
  have solutions := CoveringProgram.isFeasible_iff agreement relaxed
  obtain ⟨found, absent⟩ :=
    exactOptimum?_decided (namesVariables_of_ofIncidence? agreement relaxed)
  cases ends : exactOptimum? program with
  | none =>
    exact absurd ((solutions _).1.mpr agreement.isFractionalCover_one) (absent.mp ends _)
  | some solution =>
    obtain ⟨_, feasible, total, least⟩ := found solution ends
    refine ⟨program, solution, relaxed, ends, (solutions _).1.mp feasible, ?_⟩
    rw [← CoveringProgram.isBoundedOptimum_iff_covering agreement relaxed,
      CoveringProgram.isBoundedOptimum_iff]
    exact ⟨⟨_, feasible, total⟩, least⟩

end Optimum

end Transversal
