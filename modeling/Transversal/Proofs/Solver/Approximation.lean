/-
**A greedy cover is at most a harmonic number larger than any other.**

Every path that a choice hits afresh is charged one over the number of them; what the sets of
another cover can still be charged is `Incidence.dues`.

* `sub_div_le_harmonic_sub`: what one set is charged.
* `Incidence.hitsAmong_le_sum`: the sets of another cover share all paths that a choice hits afresh.
* `Incidence.one_add_dues_le`: so every choice lowers the dues by one at least.
* `Incidence.Greedy.length_le_dues`, `Incidence.Greedy.length_le_harmonic`: and they pay for the
  whole greedy cover.
* `greedy_cover_approximates`: the bound, for the greedy cover and for what pruning leaves of it.
-/
import Mathlib.Algebra.Order.Field.Rat
import Mathlib.NumberTheory.Harmonic.Defs
import Mathlib.Order.Lattice.Nat
import Mathlib.Tactic.Linarith
import Transversal.Proofs.Solver.Largest

namespace Transversal

/-! ### Harmonic numbers -/

theorem harmonic_nonneg (count : Nat) : 0 ≤ harmonic count :=
  Finset.sum_nonneg fun _ _ => by positivity

/-- The reciprocals between two numbers, none of which is below that of a third. -/
theorem sub_div_le_harmonic_sub {fewer more most : Nat} (grows : fewer ≤ more)
    (bounded : more ≤ most) :
    ((more : ℚ) - fewer) / most ≤ harmonic more - harmonic fewer := by
  induction more, grows using Nat.le_induction with
  | base => simp
  | succ more grows ih =>
    have before := ih (Nat.le_of_succ_le bounded)
    have last : (1 : ℚ) / most ≤ ((more + 1 : Nat) : ℚ)⁻¹ := by
      rw [← one_div]
      exact one_div_le_one_div_of_le (by positivity) (by exact_mod_cast bounded)
    have parts : (((more + 1 : Nat) : ℚ) - fewer) / most =
        ((more : ℚ) - fewer) / most + 1 / most := by
      rw [← add_div]
      push_cast
      ring
    rw [harmonic_succ, parts]
    linarith

theorem harmonic_mono {fewer more : Nat} (grows : fewer ≤ more) :
    harmonic fewer ≤ harmonic more := by
  have steps := sub_div_le_harmonic_sub grows (le_refl more)
  have natural : 0 ≤ ((more : ℚ) - fewer) / more :=
    div_nonneg (sub_nonneg.mpr (by exact_mod_cast grows)) (Nat.cast_nonneg _)
  linarith

namespace Incidence

variable {incidence : Incidence} {members final cover : List Int}

/-! ### The paths of another cover -/

/-- An index that counts from the end denotes a set too, and any other one lists no path. -/
theorem exists_listed_eq (incidence : Incidence) (set : Int) :
    (∃ place < incidence.setCount, incidence.listed set = incidence.listed place) ∨
      incidence.listed set = [] := by
  cases denotes : place? incidence.sets.size set with
  | none =>
    refine .inr ?_
    rw [listed, entryAt?, denotes]
    rfl
  | some place =>
    have within := place?_lt denotes
    refine .inl ⟨place, within, ?_⟩
    rw [listed_natCast, listed, entryAt?, denotes]
    simp [Array.getD_eq_getD_getElem?]

/-- The largest number of paths in a set. -/
def widest (incidence : Incidence) : Nat :=
  (Finset.range incidence.setCount).sup fun set : Nat => (incidence.listed set).length

theorem length_listed_le_widest (incidence : Incidence) (set : Int) :
    (incidence.listed set).length ≤ incidence.widest := by
  rcases incidence.exists_listed_eq set with ⟨place, known, same⟩ | none_listed
  · rw [same]
    exact Finset.le_sup (f := fun set : Nat => (incidence.listed set).length)
      (Finset.mem_range.mpr known)
  · rw [none_listed]
    exact Nat.zero_le _

/-- No index denotes a set that hits more than the best one. -/
theorem IsBest.most' {paths : List Nat} {best : Nat} (isBest : incidence.IsBest paths best)
    (set : Int) : incidence.hitsAmong paths set ≤ incidence.hitsAmong paths best := by
  rcases incidence.exists_listed_eq set with ⟨place, known, same⟩ | none_listed
  · rw [hitsAmong, same]
    exact isBest.most place known
  · rw [hitsAmong, none_listed]
    simp

/-- If every one of some paths is in a set of a cover, the cover shares all of them. -/
theorem countP_le_sum_countP {paths : List Int} {test : Int → Bool}
    (hit : ∀ path ∈ paths, test path → ∃ set ∈ cover, path ∈ incidence.listed set) :
    paths.countP test ≤ (cover.map fun set =>
      paths.countP fun path => test path ∧ path ∈ incidence.listed set).sum := by
  induction paths with
  | nil => simp
  | cons path rest ih =>
    rw [List.forall_mem_cons] at hit
    have before := ih hit.2
    simp only [List.countP_cons, List.sum_map_add]
    refine Nat.add_le_add before ?_
    by_cases counted : test path
    · obtain ⟨set, member, listed⟩ := hit.1 counted
      rw [if_pos counted]
      refine le_trans (le_of_eq ?_) (List.single_le_sum (fun _ _ => Nat.zero_le _) _
        (List.mem_map.mpr ⟨set, member, rfl⟩))
      simp [counted, listed]
    · rw [if_neg counted]
      exact Nat.zero_le _

/-- How many unhit paths a choice takes from a set. -/
def takenFrom (incidence : Incidence) (members : List Int) (taken set : Int) : Nat :=
  incidence.hitsAmong (incidence.unhitBy members) set -
    incidence.hitsAmong (incidence.unhitBy (members ++ [taken])) set

/-- **The sets of a cover share all paths that a choice hits afresh.** -/
theorem hitsAmong_le_sum (agreement : incidence.Agreement)
    (covers : incidence.isCover? cover = .ok true) (members : List Int) (taken : Int) :
    incidence.hitsAmong (incidence.unhitBy members) taken ≤
      (cover.map (incidence.takenFrom members taken)).sum := by
  have hits : ∀ path ∈ incidence.listed taken, ∃ set ∈ cover, path ∈ incidence.listed set := by
    intro path listed
    obtain ⟨natural, below⟩ := agreement.inRange taken path listed
    obtain ⟨place, rfl⟩ := Int.eq_ofNat_of_zero_le natural
    have tallied := (isCover?_eq_true_iff.mp covers).2 place (by exact_mod_cast below)
    exact agreement.tally_pos_iff_listed.mp tallied
  have whole : incidence.hitsAmong (incidence.unhitBy members) taken =
      (incidence.listed taken).countP fun path => incidence.tally members path.toNat = 0 := by
    have own := incidence.hitsAmong_unhitBy_append agreement members taken taken
    rw [incidence.hitsAmong_unhitBy_of_mem agreement (by simp), Nat.zero_add] at own
    rw [← own]
    refine List.countP_congr fun path listed => ?_
    simp [listed]
  rw [whole]
  refine le_trans (countP_le_sum_countP fun path listed _ => hits path listed) (le_of_eq ?_)
  congr 1
  refine List.map_congr_left fun set _ => ?_
  rw [takenFrom, ← incidence.hitsAmong_unhitBy_append agreement members taken set,
    Nat.add_sub_cancel_left]
  simp

/-! ### Charges -/

/-- **What the sets of a cover can still be charged** for the paths that are left. -/
def dues (incidence : Incidence) (cover : List Int) (paths : List Nat) : ℚ :=
  (cover.map fun set => harmonic (incidence.hitsAmong paths set)).sum

theorem dues_nonneg (cover : List Int) (paths : List Nat) : 0 ≤ incidence.dues cover paths := by
  refine List.sum_nonneg ?_
  simp only [List.forall_mem_map]
  exact fun set _ => harmonic_nonneg _

/-- **Every choice lowers the dues by one at least.** -/
theorem one_add_dues_le (agreement : incidence.Agreement)
    (covers : incidence.isCover? cover = .ok true) {best : Nat}
    (isBest : incidence.IsBest (incidence.unhitBy members) best)
    (some_left : incidence.unhitBy members ≠ []) :
    1 + incidence.dues cover (incidence.unhitBy (members ++ [(best : Int)])) ≤
      incidence.dues cover (incidence.unhitBy members) := by
  have positive : (0 : ℚ) < incidence.hitsAmong (incidence.unhitBy members) best := by
    exact_mod_cast isBest.pos agreement some_left
  -- a set pays the same for each of its paths, as the choice hits no fewer than the set could
  have each : ∀ set ∈ cover, (incidence.takenFrom members best set : ℚ) *
        (incidence.hitsAmong (incidence.unhitBy members) best : ℚ)⁻¹ +
      harmonic (incidence.hitsAmong (incidence.unhitBy (members ++ [(best : Int)])) set) ≤
      harmonic (incidence.hitsAmong (incidence.unhitBy members) set) := by
    intro set _
    have fewer := incidence.hitsAmong_unhitBy_append_le members best set
    have charge := sub_div_le_harmonic_sub fewer (isBest.most' set)
    rw [takenFrom, Nat.cast_sub fewer, ← div_eq_mul_inv]
    linarith
  have charged := List.sum_le_sum each
  rw [List.sum_map_add, List.sum_map_mul_right] at charged
  -- and together the sets pay for all paths that the choice hits
  have whole : 1 ≤ (cover.map fun set => (incidence.takenFrom members best set : ℚ)).sum *
      (incidence.hitsAmong (incidence.unhitBy members) best : ℚ)⁻¹ := by
    have shared : (incidence.hitsAmong (incidence.unhitBy members) best : ℚ) ≤
        ((cover.map (incidence.takenFrom members best)).sum : Nat) :=
      Nat.cast_le.mpr (hitsAmong_le_sum agreement covers members best)
    rw [Nat.cast_list_sum, List.map_map] at shared
    rw [← div_eq_mul_inv, one_le_div positive]
    exact shared
  rw [dues, dues]
  linarith

/-- **The dues pay for all choices.** -/
theorem Greedy.length_le_dues (agreement : incidence.Agreement)
    (covers : incidence.isCover? cover = .ok true) (greedy : incidence.Greedy members final) :
    (final.length : ℚ) ≤ members.length + incidence.dues cover (incidence.unhitBy members) := by
  induction greedy with
  | done => exact le_add_of_nonneg_right (dues_nonneg _ _)
  | take left some_left isBest _ ih =>
    obtain rfl := (unhit?_eq_ok_iff.mp left).2
    have lowered := one_add_dues_le agreement covers isBest some_left
    rw [List.length_append, List.length_singleton] at ih
    push_cast at ih
    linarith

/-- At the start, no set is due more than the harmonic number of the widest one. -/
theorem dues_start_le (agreement : incidence.Agreement) (cover : List Int) :
    incidence.dues cover (incidence.unhitBy []) ≤ harmonic incidence.widest * cover.length := by
  have each : ∀ due ∈ cover.map fun set =>
      harmonic (incidence.hitsAmong (incidence.unhitBy []) set),
      due ≤ harmonic incidence.widest := by
    simp only [List.forall_mem_map]
    intro set _
    rw [incidence.hitsAmong_unhitBy_nil agreement]
    exact harmonic_mono (incidence.length_listed_le_widest set)
  have total := List.sum_le_card_nsmul _ _ each
  rwa [List.length_map, nsmul_eq_mul, mul_comm] at total

/-- **The plain greedy** takes at most a harmonic number times the sets of any cover. -/
theorem Greedy.length_le_harmonic (agreement : incidence.Agreement)
    (greedy : incidence.Greedy [] final) {cover : List Int}
    (covers : incidence.isCover? cover = .ok true) :
    (final.length : ℚ) ≤ harmonic incidence.widest * cover.length := by
  have dues := greedy.length_le_dues agreement covers
  rw [List.length_nil, Nat.cast_zero, zero_add] at dues
  exact dues.trans (incidence.dues_start_le agreement cover)

end Incidence

/-- **A greedy cover is at most a harmonic number larger than any other**, over every relation that
was built; so is what the greedy algorithm leaves of it, without a solution or with one that belongs
to the relation. -/
theorem greedy_cover_approximates {sets : List (List Int)} {pathCount : Option Int}
    {incidence : Incidence} (built : Incidence.ofSets? sets pathCount = .ok incidence) :
    (∃ selection, largestCover incidence = .ok selection ∧
      ∀ cover, incidence.isCover? cover = .ok true →
        (selection.size : ℚ) ≤ harmonic incidence.widest * cover.length) ∧
    (∀ given options, (∀ fractional ∈ given, fractional.agrees? incidence = .ok ()) →
      ∃ outcome, (solve .largest incidence given options).1 = .ok outcome ∧
        ∀ cover, incidence.isCover? cover = .ok true →
          (outcome.size : ℚ) ≤ harmonic incidence.widest * cover.length) := by
  have agreement := Incidence.agreement_of_ofSets? built
  refine ⟨?_, fun given options agrees => ?_⟩
  · obtain ⟨selection, grown, greedy⟩ := agreement.largestCover_isGreedy
    exact ⟨selection, grown, fun _ => ((greedy.greedy _).mpr rfl).length_le_harmonic agreement⟩
  · obtain ⟨outcome, taken, solved, greedy, part, _⟩ := agreement.solveLargest_ok agrees
    rw [solve_largest]
    refine ⟨outcome, solved, fun cover covers =>
      le_trans ?_ (greedy.length_le_harmonic agreement covers)⟩
    exact_mod_cast part.length_le

/-- The greedy takes all three sets where two suffice, and no set has more than four paths. -/
theorem greedy_cover_approximates_detour :
    Incidence.ofSets? [[0, 1, 2], [3, 4, 5], [1, 2, 3, 4]] none = .ok detour ∧
      detour.widest = 4 ∧ detour.isCover? [0, 1] = .ok true ∧
      ∃ selection, largestCover detour = .ok selection ∧
        (selection.size : ℚ) ≤ (1 + 1 / 2 + 1 / 3 + 1 / 4) * 2 := by
  have widest : detour.widest = 4 := by decide +kernel
  have covers : detour.isCover? [0, 1] = .ok true := by decide +kernel
  obtain ⟨⟨selection, grown, bounded⟩, _⟩ := greedy_cover_approximates detour_built
  refine ⟨detour_built, widest, covers, selection, grown, (bounded [0, 1] covers).trans ?_⟩
  rw [widest]
  norm_num [harmonic_succ, harmonic_zero]

end Transversal
