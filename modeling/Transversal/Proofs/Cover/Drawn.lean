/-
**Which set is drawn in proportion to the activities.**

A set without a positive activity adds nothing to the running sums, so that no point lies between
its sum and the one before. It is drawn only as the last of the list, by a point that is not below
the last sum; and a random fraction of that sum is below it, unless the sum is one of the smallest
doubles.

* `isPositive_or_clamped`: what a point draws from a list of weights.
* `placeAbove_of_le`: a point that no sum is above draws the last entry.
* `TrailsOff`: the sets of a path end with one that is drawn without a positive activity.
* `returns_acceptHitting_active`, `returns_sampleHitting_active`: on every stream, a set that is
  accepted is positive, and so is every other one, but for such a last one.
-/
import Mathlib.Data.List.TakeWhile
import Transversal.Proofs.Cover.Fresh
import Transversal.Proofs.Number.Fraction

namespace Transversal

open Binary64 (ofFraction largestFraction)

/-! ### Places -/

theorem placeAbove_cons {sum point : Binary64} {sums : List Binary64} (nonempty : sums ≠ []) :
    placeAbove (sum :: sums) point = if point.lt sum then 0 else placeAbove sums point + 1 := by
  unfold placeAbove
  rw [List.dropLast_cons_of_ne_nil nonempty, List.takeWhile_cons]
  cases point.lt sum <;> rfl

/-- **A point that no sum is above** draws the last entry. -/
theorem placeAbove_of_le {sums : List Binary64} {point : Binary64}
    (past : ∀ sum ∈ sums, point.lt sum = false) : placeAbove sums point = sums.length - 1 := by
  unfold placeAbove
  rw [List.takeWhile_eq_self_iff.mpr, List.length_dropLast]
  intro sum member
  simp [past sum (List.mem_of_mem_dropLast member)]

theorem sumsFrom_ne_nil (total : Binary64) (terms : List Binary64) : sumsFrom total terms ≠ [] := by
  cases terms <;> simp [sumsFrom]

/-- A weight that is not positive is zero. -/
theorem IsWeight.units?_eq_zero {weight : Binary64} (good : IsWeight weight)
    (idle : ¬ weight.isPositive) : weight.units? = some 0 := by
  obtain ⟨units, value, natural, _⟩ := good
  rw [Binary64.isPositive, Binary64.lt_iff_units Binary64.units?_zero value] at idle
  rw [value, le_antisymm (Int.not_lt.mp idle) natural]

theorem units?_le_of_mem_sumsFrom {weights : List Binary64}
    (good : ∀ weight ∈ weights, IsWeight weight) {total : Binary64} {a : Int}
    (value : total.units? = some a) (natural : 0 ≤ a) (bounded : a ≤ sumLimit)
    {last : Binary64} {units : Int} (found : (sumsFrom total weights).getLast? = some last)
    (lastValue : last.units? = some units) :
    ∀ sum ∈ sumsFrom total weights, ∃ b, sum.units? = some b ∧ b ≤ units := by
  induction weights generalizing total a with
  | nil =>
    intro sum member
    obtain rfl := List.mem_singleton.mp member
    cases found
    exact ⟨units, lastValue, le_refl _⟩
  | cons weight rest ih =>
    obtain ⟨other, above, found', otherValue, le, _⟩ := sumsFrom_getLast? good value natural bounded
    cases found.symm.trans found'
    cases lastValue.symm.trans otherValue
    rw [List.forall_mem_cons] at good
    obtain ⟨b, weightValue, weightNatural, weightSmall⟩ := good.1
    obtain ⟨next, nextValue, keeps, _, nextBounded⟩ :=
      units?_add_weight value weightValue natural bounded weightNatural weightSmall
    rw [sumsFrom, List.getLast?_cons_of_ne_nil (sumsFrom_ne_nil _ _)] at found
    rw [sumsFrom, List.forall_mem_cons]
    exact ⟨⟨a, value, le⟩, ih good.2 nextValue (le_trans natural keeps) nextBounded found⟩

/-- No running sum is larger than the last one. -/
theorem units?_le_of_mem_runningSums {weights : List Binary64}
    (good : ∀ weight ∈ weights, IsWeight weight) {last : Binary64} {units : Int}
    (found : (runningSums weights).getLast? = some last) (value : last.units? = some units) :
    ∀ sum ∈ runningSums weights, ∃ b, sum.units? = some b ∧ b ≤ units := by
  cases weights with
  | nil => cases found
  | cons first rest =>
    rw [List.forall_mem_cons] at good
    obtain ⟨a, firstValue, natural, small⟩ := good.1
    exact units?_le_of_mem_sumsFrom good.2 firstValue natural (le_trans small two_le_sumLimit)
      found value

/-- What a point draws from a list of weights, of which the first is counted in the sum so far. -/
theorem isPositive_or_clamped_from {weights : List Binary64}
    (good : ∀ weight ∈ weights, IsWeight weight) {first sum point drawn : Binary64}
    {before now units : Int} (value : sum.units? = some now) (natural : 0 ≤ now)
    (bounded : now ≤ sumLimit) (grown : ¬ first.isPositive → now = before)
    (pointValue : point.units? = some units) (above : before ≤ units)
    (found : (first :: weights)[placeAbove (sumsFrom sum weights) point]? = some drawn) :
    drawn.isPositive ∨ (placeAbove (sumsFrom sum weights) point = weights.length ∧
      ∀ last ∈ (sumsFrom sum weights).getLast?, last.le point) := by
  induction weights generalizing first sum before now with
  | nil =>
    obtain rfl : first = drawn := Option.some_inj.mp found
    by_cases positive : first.isPositive
    · exact .inl positive
    · refine .inr ⟨rfl, fun last member => ?_⟩
      obtain rfl : sum = last := Option.some_inj.mp member
      rw [Binary64.le_iff_units value pointValue, grown positive]
      exact above
  | cons weight rest ih =>
    rw [List.forall_mem_cons] at good
    obtain ⟨b, weightValue, weightNatural, weightSmall⟩ := good.1
    obtain ⟨next, nextValue, keeps, _, nextBounded⟩ :=
      units?_add_weight value weightValue natural bounded weightNatural weightSmall
    have later := sumsFrom_ne_nil (sum + weight) rest
    rw [sumsFrom, placeAbove_cons later] at found ⊢
    by_cases below : point.lt sum
    · -- the first sum above the point is larger than the one before, so its weight is positive
      rw [if_pos below] at found
      cases found
      refine .inl ?_
      by_contra idle
      rw [Binary64.lt_iff_units pointValue value, grown idle] at below
      omega
    · rw [if_neg below] at found ⊢
      rw [List.getElem?_cons_succ] at found
      rw [Binary64.lt_iff_units pointValue value, Int.not_lt] at below
      have kept : ¬ weight.isPositive → next = now := by
        intro idle
        have zero := good.1.units?_eq_zero idle
        have added := ((Binary64.units?_add value zero).mp nextValue).2
        rw [← added, Int.add_zero, Binary64.roundUnits_of_units? value]
      rw [List.getLast?_cons_of_ne_nil later, List.length_cons, Nat.add_right_cancel_iff]
      exact ih good.2 nextValue (le_trans natural keeps) nextBounded kept below found

/-- **What a point draws from a list of weights**: a positive one, unless the point is not below the
last sum; then it may be the last one. -/
theorem isPositive_or_clamped {weights : List Binary64} (good : ∀ weight ∈ weights, IsWeight weight)
    {point drawn : Binary64} {units : Int} (value : point.units? = some units) (natural : 0 ≤ units)
    (found : weights[placeAbove (runningSums weights) point]? = some drawn) :
    drawn.isPositive ∨ (placeAbove (runningSums weights) point = weights.length - 1 ∧
      ∀ last ∈ (runningSums weights).getLast?, last.le point) := by
  cases weights with
  | nil => cases found
  | cons first rest =>
    rw [List.forall_mem_cons] at good
    obtain ⟨now, firstValue, firstNatural, small⟩ := good.1
    have grown : ¬ first.isPositive → now = 0 := by
      intro idle
      exact Option.some_inj.mp (firstValue.symm.trans (good.1.units?_eq_zero idle))
    exact isPositive_or_clamped_from good.2 firstValue firstNatural
      (le_trans small two_le_sumLimit) grown value natural found

/-! ### Weights -/

theorem isPositive_of_weightOf {activity : Binary64} (positive : (weightOf activity).isPositive) :
    activity.isPositive := by
  unfold weightOf at positive
  by_cases negative : activity.lt .zero
  · rw [if_pos negative] at positive
    cases positive
  · rwa [if_neg negative] at positive

/-- The weights of the sets of a path. -/
def weightsOf (activities : Array Binary64) (hitting : List Int) : List Binary64 :=
  hitting.map fun set => weightOf (activityAt activities set)

theorem eq_weightsOf_of_mapM {activities : Array Binary64} {hitting : List Int}
    {weights : List Binary64}
    (known : (hitting.mapM fun set => (activityOf? activities set).map weightOf) = .ok weights) :
    weights = weightsOf activities hitting := by
  induction hitting generalizing weights with
  | nil =>
    cases known
    rfl
  | cons set rest ih =>
    rw [List.mapM_cons] at known
    cases found : entryAt? activities set with
    | none =>
      rw [activityOf?, found] at known
      cases known
    | some activity =>
      rw [activityOf?_eq_ok (Option.isSome_of_eq_some found)] at known
      cases later : rest.mapM fun set => (activityOf? activities set).map weightOf with
      | error fault =>
        rw [later] at known
        cases known
      | ok others =>
        rw [later] at known
        obtain rfl := Except.ok.inj known
        rw [weightsOf, List.map_cons, ih later, weightsOf]

/-- **The sets of a path end with one that is drawn without a positive activity**: the sum of the
weights is not larger than `2 ^ 52` units. -/
structure TrailsOff (activities : Array Binary64) (hitting : List Int) (set : Int) : Prop where
  last : hitting.getLast? = some set
  idle : ¬ (activityAt activities set).isPositive
  tiny : ∃ sum units, (runningSums (weightsOf activities hitting)).getLast? = some sum ∧
    sum.units? = some units ∧ units ≤ 2 ^ 52

/-- **A total** has the value of the last sum, and is positive. -/
theorem units?_of_weightTotal? {weights : List Binary64}
    (good : ∀ weight ∈ weights, IsWeight weight) {total : Binary64}
    (drawn : weightTotal? (runningSums weights) = .ok total) :
    ∃ last units, (runningSums weights).getLast? = some last ∧
      last.units? = some ((units : Nat) : Int) ∧ total.units? = some (units : Int) ∧
      0 < units := by
  have nonempty : weights ≠ [] := by
    rintro rfl
    cases drawn
  obtain ⟨last, units, isLast, value, natural, _, _⟩ := runningSums_getLast? nonempty good
  lift units to Nat using natural
  have totalValue := units?_add_zero value
  unfold weightTotal? at drawn
  rw [isLast] at drawn
  dsimp only at drawn
  split_ifs at drawn with low infinite
  cases drawn
  rw [Binary64.le_iff_units totalValue Binary64.units?_zero] at low
  exact ⟨last, units, isLast, value, totalValue, by omega⟩

/-- The activities of the sets are finite, and at most two. -/
abbrev ActivitiesBounded (activities : Array Binary64) (hitting : List Int) : Prop :=
  ∀ set ∈ hitting, ∃ units, (activityAt activities set).units? = some units ∧
    units ≤ 2 * (Magnitude.one : Int)

theorem ActivitiesBounded.isWeight {activities : Array Binary64} {hitting : List Int}
    (bounded : ActivitiesBounded activities hitting) :
    ∀ weight ∈ weightsOf activities hitting, IsWeight weight := by
  intro weight member
  obtain ⟨set, listed, rfl⟩ := List.mem_map.mp member
  obtain ⟨units, value, small⟩ := bounded set listed
  exact isWeight_weightOf value small

/-- **A set drawn by a fraction of the sum** is positive, or the list trails off with it. -/
theorem isPositive_or_trailsOff {activities : Array Binary64} {hitting : List Int}
    (bounded : ActivitiesBounded activities hitting) {total : Binary64}
    (positive : weightTotal? (runningSums (weightsOf activities hitting)) = .ok total)
    {fraction : Fin (Nat.pow 2 53)} {set : Int}
    (found : hitting[placeAbove (runningSums (weightsOf activities hitting))
      (ofFraction fraction * total)]? = some set) :
    (activityAt activities set).isPositive ∨ TrailsOff activities hitting set := by
  obtain ⟨last, units, isLast, value, totalValue, some_weight⟩ :=
    units?_of_weightTotal? bounded.isWeight positive
  have pointValue := (Binary64.units?_fraction_mul fraction totalValue some_weight).2
  have weighed : (weightsOf activities hitting)[placeAbove
      (runningSums (weightsOf activities hitting)) (ofFraction fraction * total)]? =
        some (weightOf (activityAt activities set)) := by
    rw [weightsOf, List.getElem?_map, ← weightsOf, found, Option.map_some]
  rcases isPositive_or_clamped bounded.isWeight pointValue (Int.natCast_nonneg _) weighed
    with active | ⟨clamped, past⟩
  · exact .inl (isPositive_of_weightOf active)
  by_cases active : (activityAt activities set).isPositive
  · exact .inl active
  refine .inr ⟨?_, active, last, units, isLast, value, ?_⟩
  · rw [clamped, weightsOf, List.length_map] at found
    rw [List.getLast?_eq_getElem?, found]
  · -- a fraction of a larger sum would be below it
    by_contra large
    have less := Binary64.fraction_mul_lt fraction totalValue (by omega)
    have most := past last isLast
    rw [Binary64.lt_iff_units pointValue totalValue] at less
    rw [Binary64.le_iff_units value pointValue] at most
    omega

/-! ### Draws -/

/-- Only a positive double is above a fraction. -/
theorem isPositive_of_fraction_lt {fraction : Fin (Nat.pow 2 53)} {x : Binary64}
    (below : (ofFraction fraction).lt x) : x.isPositive := by
  rw [Binary64.ofFraction_eq] at below
  cases x with
  | nan => cases below
  | infinite negative => exact below
  | finite negative size =>
    rw [Binary64.lt_iff_units rfl rfl] at below
    rw [Binary64.isPositive, Binary64.lt_iff_units Binary64.units?_zero rfl]
    exact lt_of_le_of_lt (Int.natCast_nonneg _) below

section Draws

variable {σ : Type} [RandomStream σ] {activities : Array Binary64}

theorem returns_drawFraction_bind {α : Type} {property : α → Prop} {next : Binary64 → Run σ α}
    (each : ∀ fraction, Run.Returns (next (ofFraction fraction)) property) :
    Run.Returns (drawFraction >>= next) property := by
  have drawn : Run.Returns (drawFraction : Run σ Binary64)
      fun x => ∃ fraction, ofFraction fraction = x :=
    (Run.returns_true (Run.draw RandomStream.fraction)).bind fun fraction _ =>
      Run.returns_pure ⟨fraction, rfl⟩
  exact drawn.bind fun _ ⟨fraction, same⟩ => same ▸ each fraction

omit [RandomStream σ] in
theorem returns_activityOf (set : Int) :
    Run.Returns (Run.lift (activityOf? activities set) : Run σ Binary64)
      (· = activityAt activities set) := by
  refine Run.returns_lift fun activity found => ?_
  unfold activityOf? at found
  unfold activityAt
  cases entry : entryAt? activities set with
  | none =>
    rw [entry] at found
    cases found
  | some other =>
    rw [entry] at found
    exact (Except.ok.inj found).symm

/-- **An accepted set is positive**, with any activities. -/
theorem returns_acceptHitting_active (hitting : List Int) (draws : Nat) :
    Run.Returns (acceptHitting? hitting activities draws : Run σ (Option Int))
      fun found => ∀ set ∈ found, (activityAt activities set).isPositive := by
  induction draws with
  | zero => exact Run.returns_pure (by simp)
  | succ draws ih =>
    refine (Run.returns_true _).bind fun candidate _ => ?_
    refine returns_drawFraction_bind fun fraction => ?_
    refine (returns_activityOf candidate).bind ?_
    rintro _ rfl
    by_cases taken : (ofFraction fraction).lt (activityAt activities candidate)
    · rw [if_pos taken]
      refine Run.returns_pure ?_
      rintro _ ⟨⟩
      exact isPositive_of_fraction_lt taken
    · rw [if_neg taken]
      exact ih

variable {hitting : List Int} (bounded : ActivitiesBounded activities hitting)

include bounded

theorem returns_weighHitting_active :
    Run.Returns (weighHitting hitting activities : Run σ Int)
      fun set => (activityAt activities set).isPositive ∨ TrailsOff activities hitting set := by
  refine (Run.returns_lift fun _ => eq_weightsOf_of_mapM).bind ?_
  rintro _ rfl
  refine (Run.returns_lift fun _ positive => positive).bind fun total positive => ?_
  refine returns_drawFraction_bind fun fraction => ?_
  split
  · rename_i set found
    exact Run.returns_pure (isPositive_or_trailsOff bounded positive found)
  · exact Run.returns_throw _

/-- **A set sampled for a path** is positive, or the sets of the path trail off with it. -/
theorem returns_sampleHitting_active (maxDraws : Int) :
    Run.Returns (sampleHitting hitting activities maxDraws : Run σ Int)
      fun set => (activityAt activities set).isPositive ∨ TrailsOff activities hitting set := by
  refine (returns_acceptHitting_active hitting maxDraws.toNat).bind fun found active => ?_
  cases found with
  | some set => exact Run.returns_pure (.inl (active set rfl))
  | none => exact (Run.returns_true _).bind fun _ _ => returns_weighHitting_active bounded

end Draws

end Transversal
