/-
**How many contests a plan has.** Runs compete with those whose configuration has the same name,
and which have the same trial.

* `name_eq_iff`: two configurations have the same name exactly if they have the same sizes and
  their densities are written alike, to two places.
* `Slot.contest`: what a run competes in; `card_contests`: there are as many contests as path
  counts, set counts, written densities and trials, each counted once.
* `card_contests_eq_iff`: so there is one for every configuration and trial exactly if all densities
  are written differently.
-/
import Mathlib
import Transversal.Proofs.Benchmark.Suite

namespace Transversal.Benchmark

/-! ### Names -/

/-- What stands before the first separator, and what behind it. -/
theorem eq_of_append_cons_eq {α : Type} [DecidableEq α] {separator : α}
    {first other rest rest' : List α} (absent : separator ∉ first) (absent' : separator ∉ other)
    (same : first ++ separator :: rest = other ++ separator :: rest') :
    first = other ∧ rest = rest' := by
  have before : ∀ {piece later : List α}, separator ∉ piece →
      (piece ++ separator :: later).takeWhile (· ≠ separator) = piece := by
    intro piece later absent
    have differs : ∀ entry ∈ piece, decide (entry ≠ separator) = true := fun entry member =>
      decide_eq_true fun equal => absent (equal ▸ member)
    rw [List.takeWhile_append_of_pos differs, List.takeWhile_cons_of_neg (by simp),
      List.append_nil]
  have pieces : first = other := by rw [← before absent, same, before absent']
  subst pieces
  exact ⟨rfl, (List.cons.inj (List.append_cancel_left same)).2⟩

/-- A whole number is written in digits, behind a sign if it is negative. -/
theorem mem_toList_repr {value : Int} {character : Char} (member : character ∈ value.repr.toList) :
    character.isDigit ∨ character = '-' := by
  have digits : ∀ {count : Nat}, character ∈ count.repr.toList → character.isDigit = true := by
    intro count member
    rw [Nat.toList_repr] at member
    exact Nat.isDigit_of_mem_toDigits (by decide) (by decide) member
  cases value with
  | ofNat count => exact .inl (digits member)
  | negSucc count =>
    rw [Int.repr, String.toList_append, List.mem_append] at member
    obtain sign | member := member
    · exact .inr (List.mem_singleton.mp sign)
    · exact .inl (digits member)

/-- The name of a configuration, told by how its density is written. -/
def nameOf (pathCount setCount : Int) (density : String) : String :=
  s!"{pathCount}x{setCount}_d{density}"

theorem toList_nameOf (pathCount setCount : Int) (density : String) :
    (nameOf pathCount setCount density).toList = pathCount.repr.toList ++
      'x' :: (setCount.repr.toList ++ '_' :: 'd' :: density.toList) := by
  have shown : nameOf pathCount setCount density =
      pathCount.repr ++ "x" ++ setCount.repr ++ "_d" ++ density := rfl
  rw [shown]
  simp

/-- **A name tells what it is made of.** -/
theorem nameOf_inj {pathCount setCount pathCount' setCount' : Int} {density density' : String} :
    nameOf pathCount setCount density = nameOf pathCount' setCount' density' ↔
      pathCount = pathCount' ∧ setCount = setCount' ∧ density = density' := by
  constructor
  · intro same
    have letters := congrArg String.toList same
    rw [toList_nameOf, toList_nameOf] at letters
    have noCross : ∀ value : Int, 'x' ∉ value.repr.toList := fun value member =>
      absurd (mem_toList_repr member) (by decide)
    have noLine : ∀ value : Int, '_' ∉ value.repr.toList := fun value member =>
      absurd (mem_toList_repr member) (by decide)
    obtain ⟨paths, letters⟩ := eq_of_append_cons_eq (noCross _) (noCross _) letters
    obtain ⟨sets, letters⟩ := eq_of_append_cons_eq (noLine _) (noLine _) letters
    exact ⟨Int.repr_injective (String.toList_inj.mp paths),
      Int.repr_injective (String.toList_inj.mp sets),
      String.toList_inj.mp (List.cons.inj letters).2⟩
  · rintro ⟨rfl, rfl, rfl⟩
    rfl

/-- **Configurations have the same name** exactly if they have the same sizes and their densities
are written alike. -/
theorem name_eq_iff {config other : Configuration} : config.name = other.name ↔
    config.pathCount = other.pathCount ∧ config.setCount = other.setCount ∧
      config.density.toFixed 2 = other.density.toFixed 2 := nameOf_inj

/-! ### Contests -/

/-- What a run competes in. -/
def Slot.contest (slot : Slot) : String × Int := (slot.config.name, slot.trial)

/-- The densities of a plan as names show them. -/
def Plan.densityTexts (plan : Plan) : List String := plan.densities.map (·.toFixed 2)

variable {plan : Plan} {trials : Nat}

theorem mem_slots {slot : Slot} : slot ∈ plan.slots trials ↔
    slot.config ∈ plan.configurations ∧ slot.trial < trials ∧ slot.algorithm ∈ plan.algorithms := by
  simp only [Plan.slots, Plan.trialSlots, List.mem_flatMap, List.mem_range, List.mem_singleton]
  constructor
  · rintro ⟨config, made, trial, below, algorithm, known, rfl⟩
    exact ⟨made, below, known⟩
  · rintro ⟨made, below, known⟩
    exact ⟨_, made, _, below, _, known, rfl⟩

/-- **How many contests there are**: one for every path count, set count, written density and
trial. -/
theorem card_contests (some_algorithm : plan.algorithms ≠ []) :
    ((plan.slots trials).map Slot.contest).toFinset.card =
      plan.pathCounts.toFinset.card * plan.setCounts.toFinset.card *
        plan.densityTexts.toFinset.card * trials := by
  let contest : Int × Int × String × Nat → String × Int :=
    fun (pathCount, setCount, density, trial) => (nameOf pathCount setCount density, trial)
  have told : Function.Injective contest := by
    rintro ⟨_, _, _, _⟩ ⟨_, _, _, _⟩ same
    obtain ⟨names, trials⟩ := Prod.mk.inj same
    obtain ⟨rfl, rfl, rfl⟩ := nameOf_inj.mp names
    obtain rfl := Int.natCast_inj.mp trials
    rfl
  have image : ((plan.slots trials).map Slot.contest).toFinset =
      (plan.pathCounts.toFinset ×ˢ plan.setCounts.toFinset ×ˢ plan.densityTexts.toFinset ×ˢ
        Finset.range trials).image contest := by
    obtain ⟨algorithm, known⟩ := List.exists_mem_of_ne_nil _ some_algorithm
    ext key
    simp only [List.mem_toFinset, List.mem_map, mem_slots, mem_configurations, Finset.mem_image,
      Finset.mem_product, Finset.mem_range, Prod.exists, Plan.densityTexts]
    constructor
    · rintro ⟨slot, ⟨⟨path, set, dense⟩, below, _⟩, rfl⟩
      exact ⟨_, _, _, _, ⟨path, set, ⟨_, dense, rfl⟩, below⟩, rfl⟩
    · rintro ⟨pathCount, setCount, _, trial, ⟨path, set, ⟨density, dense, rfl⟩, below⟩, rfl⟩
      exact ⟨⟨⟨pathCount, setCount, density⟩, trial, algorithm⟩,
        ⟨⟨path, set, dense⟩, below, known⟩, rfl⟩
  rw [image, Finset.card_image_of_injective _ told]
  simp only [Finset.card_product, Finset.card_range]
  ring

/-- **There is a contest for every configuration and trial** exactly if all densities are written
differently. -/
theorem card_contests_eq_iff (some_algorithm : plan.algorithms ≠ []) (some_trial : 1 ≤ trials)
    (paths : plan.pathCounts.Nodup) (sets : plan.setCounts.Nodup)
    (some_configuration : plan.configurations ≠ []) :
    ((plan.slots trials).map Slot.contest).toFinset.card =
        plan.pathCounts.length * plan.setCounts.length * plan.densities.length * trials ↔
      plan.densityTexts.Nodup := by
  obtain ⟨config, made⟩ := List.exists_mem_of_ne_nil _ some_configuration
  obtain ⟨path, set, _⟩ := mem_configurations.mp made
  have positive : 0 < plan.pathCounts.length * plan.setCounts.length :=
    Nat.mul_pos (List.length_pos_of_mem path) (List.length_pos_of_mem set)
  rw [card_contests some_algorithm, List.toFinset_card_of_nodup paths,
    List.toFinset_card_of_nodup sets, Nat.mul_left_inj (by omega), Nat.mul_right_inj positive.ne',
    ← List.length_map (·.toFixed 2)]
  exact Multiset.toFinset_card_eq_card_iff_nodup

end Transversal.Benchmark
