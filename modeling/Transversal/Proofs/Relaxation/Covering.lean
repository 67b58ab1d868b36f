/-
**No cover is smaller than the optimum of the covering program.**

* `CoveringProgram.ofIncidence?_eq_ok`: where the directions of a relation agree, the program has a
  row for every path, which names the sets that list it.
* `coverValues`: a list of sets as values of the variables, each as often as it is listed.
* `CoveringProgram.isFeasible_coverValues`: a cover is a feasible solution.
* `CoveringProgram.total_coverValues_le`: its total is at most its length.
* `CoveringProgram.IsOptimum.le_length`, `CoveringProgram.IsOptimum.ceil_le_length`: so the optimum
  is at most the length of every cover, also rounded up.
-/
import Mathlib.Algebra.BigOperators.Group.List.Basic
import Mathlib.Algebra.Order.BigOperators.Group.List
import Mathlib.Algebra.Order.Ring.Rat
import Mathlib.Data.Rat.Floor
import Mathlib.Tactic.Linarith
import Transversal.Proofs.Incidence.Agreement
import Transversal.Relaxation.Program

namespace Transversal

/-! ### Rows -/

variable {incidence : Incidence}

/-- The row of a path: the sets that list it. -/
def Incidence.rowOf (incidence : Incidence) (path : Nat) : List Nat :=
  (List.range incidence.setCount).filter fun set : Nat => (path : Int) ∈ incidence.listed set

namespace CoveringProgram

theorem mapM_variableOf? {count : Nat} {sets : List Nat} (below : ∀ set ∈ sets, set < count) :
    (sets.map fun set : Nat => (set : Int)).mapM (variableOf? count) = .ok sets := by
  induction sets with
  | nil => rfl
  | cons set rest ih =>
    rw [List.forall_mem_cons] at below
    rw [List.map_cons, List.mapM_cons, ih below.2, variableOf?, place?_natCast below.1]
    rfl

theorem mapM_eq_ok {α β : Type} {f : α → Except Fault β} {g : α → β} {entries : List α}
    (each : ∀ entry ∈ entries, f entry = .ok (g entry)) : entries.mapM f = .ok (entries.map g) := by
  induction entries with
  | nil => rfl
  | cons entry rest ih =>
    rw [List.forall_mem_cons] at each
    rw [List.mapM_cons, ih each.2, each.1]
    rfl

/-- **The program of a relation** has a row for every path. -/
theorem ofIncidence?_eq_ok (agreement : incidence.Agreement) :
    ofIncidence? incidence =
      .ok ⟨incidence.setCount, (List.range incidence.pathCount).map incidence.rowOf⟩ := by
  have paths : incidence.paths.toList =
      (List.range incidence.pathCount).map incidence.hittingSets := by
    apply List.ext_getElem
    · simp [Incidence.pathCount]
    · intro path within _
      rw [Array.length_toList] at within
      have same := agreement.agree path within
      rw [Incidence.hitting, Array.getD_eq_getD_getElem?, Array.getElem?_eq_getElem within,
        Option.getD_some] at same
      rw [Array.getElem_toList, same, List.getElem_map, List.getElem_range]
  have rows : incidence.paths.toList.mapM
      (fun hitting => hitting.mapM (variableOf? incidence.setCount)) =
      .ok ((List.range incidence.pathCount).map incidence.rowOf) := by
    rw [paths, List.mapM_map]
    refine mapM_eq_ok fun path _ => mapM_variableOf? fun set member => ?_
    exact List.mem_range.mp (List.mem_of_mem_filter member)
  rw [ofIncidence?, rows]
  rfl

theorem rowSum_eq_sum (values : Nat → Rat) (row : List Nat) :
    rowSum values row = (row.map values).sum := by
  rw [rowSum, List.sum, List.foldr_map]

/-! ### Covers as solutions -/

/-- A list of sets as values of the variables, each as often as it is listed. -/
def coverValues (count : Nat) (cover : List Int) (index : Nat) : Rat := visits count cover index

theorem coverValues_nonneg (count : Nat) (cover : List Int) (index : Nat) :
    0 ≤ coverValues count cover index := Nat.cast_nonneg _

/-- A member of a list of sets is listed at least once. -/
theorem one_le_coverValues {count : Nat} {cover : List Int} {set : Int} {index : Nat}
    (member : set ∈ cover) (denotes : place? count set = some index) :
    1 ≤ coverValues count cover index :=
  Nat.one_le_cast.mpr (visits_pos_iff.mpr ⟨set, member, denotes⟩)

/-- **A cover is a feasible solution.** -/
theorem isFeasible_coverValues (agreement : incidence.Agreement) {cover : List Int}
    (covers : incidence.isCover? cover = .ok true) :
    IsFeasible ⟨incidence.setCount, (List.range incidence.pathCount).map incidence.rowOf⟩
      (coverValues incidence.setCount cover) := by
  obtain ⟨readable, hit⟩ := Incidence.isCover?_eq_true_iff.mp covers
  refine ⟨coverValues_nonneg _ cover, fun row member => ?_⟩
  obtain ⟨path, within, rfl⟩ := List.mem_map.mp member
  rw [List.mem_range] at within
  obtain ⟨set, chosen, listed⟩ := agreement.tally_pos_iff_listed.mp (hit path within)
  -- an index may count from the end; the variable is that of the place it denotes
  obtain ⟨found, same⟩ := Option.isSome_iff_exists.mp (readable set chosen).1
  obtain ⟨place, denotes, _⟩ := Option.bind_eq_some_iff.mp same
  have place_listed : incidence.listed place = incidence.listed set := by
    have below : place < incidence.sets.size := place?_lt denotes
    rw [Incidence.listed, Incidence.listed, entryAt?, entryAt?, place?_natCast below, denotes]
  have named : place ∈ incidence.rowOf path := by
    rw [Incidence.rowOf, List.mem_filter, List.mem_range]
    exact ⟨place?_lt denotes, by simpa [place_listed] using listed⟩
  rw [rowSum_eq_sum]
  refine le_trans (one_le_coverValues chosen denotes) ?_
  refine List.single_le_sum (fun value member => ?_) _ (List.mem_map_of_mem named)
  obtain ⟨index, _, rfl⟩ := List.mem_map.mp member
  exact coverValues_nonneg _ cover index

/-- **The total of a cover** is at most its length. -/
theorem total_coverValues_le (count : Nat) (rows : List (List Nat)) (cover : List Int) :
    total ⟨count, rows⟩ (coverValues count cover) ≤ cover.length := by
  rw [total, rowSum_eq_sum]
  induction cover with
  | nil =>
    have nothing : coverValues count [] = fun _ => 0 := by
      funext index
      rw [coverValues, visits_nil, Nat.cast_zero]
    rw [nothing]
    simp
  | cons set rest ih =>
    have parts : coverValues count (set :: rest) = fun index =>
        coverValues count rest index + if place? count set = some index then 1 else 0 := by
      funext index
      rw [coverValues, visits_cons, Nat.cast_add]
      split <;> simp [coverValues]
    have once : ((List.range count).map fun index =>
        if place? count set = some index then (1 : Rat) else 0).sum ≤ 1 := by
      cases place? count set with
      | none => simp
      | some place =>
        simp only [Option.some.injEq, @eq_comm Nat place]
        rw [List.sum_map_ite_eq]
        by_cases within : place < count
        · simp [within]
        · simp [within]
    rw [parts, List.sum_map_add, List.length_cons, Nat.cast_add, Nat.cast_one]
    linarith

/-- **No cover is smaller than the optimum.** -/
theorem IsOptimum.le_length (agreement : incidence.Agreement) {program : CoveringProgram}
    (relaxed : ofIncidence? incidence = .ok program) {optimum : Rat}
    (optimal : program.IsOptimum optimum) {cover : List Int}
    (covers : incidence.isCover? cover = .ok true) : optimum ≤ cover.length := by
  rw [ofIncidence?_eq_ok agreement] at relaxed
  cases relaxed
  exact le_trans (optimal.2 _ (isFeasible_coverValues agreement covers))
    (total_coverValues_le _ _ cover)

theorem IsOptimum.ceil_le_length (agreement : incidence.Agreement) {program : CoveringProgram}
    (relaxed : ofIncidence? incidence = .ok program) {optimum : Rat}
    (optimal : program.IsOptimum optimum) {cover : List Int}
    (covers : incidence.isCover? cover = .ok true) : ⌈optimum⌉ ≤ (cover.length : Int) := by
  rw [Int.ceil_le]
  exact_mod_cast optimal.le_length agreement relaxed covers

end CoveringProgram

end Transversal
