/-
**When the size of a pool's cover does not depend on its schedule.**

* `PoolEnding`: what a run with so many workers may return, in any schedule.
* `SameSize`: any two of these have one size, whatever the numbers of workers.
* `schedule_sizes`: this is so exactly if the rounds of the budget that reach the bound agree; any
  one of these may be the only round that is made. They agree if no cover is below the bound.
* `hexagon_sizes_differ`: two rounds that do not agree, as the bound is too large.
-/
import Transversal.Proofs.Restart.Schedules
import Transversal.Proofs.Solver.Bound
import Transversal.Proofs.Stream.Packed

namespace Transversal

/-- The same options with another number of workers. -/
def Options.withWorkers (options : Options) (workers : Int) : Options :=
  { options with workers := some workers }

/-- What a run with so many workers may return, in any schedule. -/
def PoolEnding (incidence : Incidence) (options : Options) (fractional : Fractional)
    (workers : Int) (outcome : Outcome) : Prop :=
  GuidedEnding ⟨Twister.ofSeed options.seed, #[]⟩ options.streamAt incidence (some fractional)
    (options.withWorkers workers) (.ok outcome)

/-- **The size does not depend on the schedule**, nor on the number of workers. -/
def SameSize (incidence : Incidence) (options : Options) (fractional : Fractional) : Prop :=
  ∀ first second, 1 ≤ first → 1 ≤ second → ∀ outcome other,
    PoolEnding incidence options fractional first outcome →
    PoolEnding incidence options fractional second other → outcome.size = other.size

/-- **How the size depends on the schedule** of the rounds that the restarts compute. -/
structure ScheduleSizes (incidence : Incidence) (options : Options) (fractional : Fractional)
    (rounds : Nat → Round) : Prop where
  computed : ∀ index, (guidedTask incidence fractional options).roundAt options.streamAt index =
    .ok (rounds index)
  kept : 0 < options.limit incidence → ∀ workers, 1 ≤ workers → ∀ outcome,
    PoolEnding incidence options fractional workers outcome → ∃ index < options.limit incidence,
      outcome.cover = (rounds index).pruned.members ∧
        (Interleaving.IsSmallest (options.limit incidence) (prunedSize rounds) index ∨
          (prunedSize rounds index : Int) ≤ fractional.lowerBound)
  attained : ∀ index < options.limit incidence,
    (prunedSize rounds index : Int) ≤ fractional.lowerBound → ∃ outcome,
      PoolEnding incidence options fractional (options.limit incidence) outcome ∧
        outcome.cover = (rounds index).pruned.members
  same_iff : SameSize incidence options fractional ↔
    Interleaving.Agree fractional.lowerBound (options.limit incidence) (prunedSize rounds)
  bounded : fractional.Bounds incidence → SameSize incidence options fractional

variable {incidence : Incidence} {options : Options} {fractional : Fractional}

/-- The checks of a run allow any positive number of workers. -/
theorem checkGuided_withWorkers {checked : Fractional} {given : Option Fractional}
    (checks : checkGuided incidence given options = .ok checked) {workers : Int}
    (positive : 1 ≤ workers) :
    checkGuided incidence given (options.withWorkers workers) = .ok checked := by
  obtain rfl := checkGuided_same checks
  rw [checkGuided_some_eq_ok_iff] at checks ⊢
  refine ⟨?_, checks.2⟩
  rintro _ ⟨⟩
  exact positive

section Pool

variable (checks : checkGuided incidence (some fractional) options = .ok fractional)
  {rounds : Nat → Round}
  (computed : ∀ index, (guidedTask incidence fractional options).roundAt options.streamAt index =
    .ok (rounds index))

include checks computed

/-- A pool that has ended returns the cover it has kept. -/
theorem poolEnding_iff {workers : Int} (positive : 1 ≤ workers) {outcome : Outcome} :
    PoolEnding incidence options fractional workers outcome ↔ ∃ state,
      Interleaving.Reached fractional.lowerBound
        ((guidedTask incidence fractional options).roundAt options.streamAt) workers.toNat
        (options.limit incidence) state ∧
      state.HasEnded (options.limit incidence) ∧
      outcome = guidedOutcome incidence fractional (options.withWorkers workers)
        state.pool.result := by
  have allowed := checkGuided_withWorkers checks positive
  rw [PoolEnding]
  constructor
  · intro ending
    generalize same : Except.ok outcome = result at ending
    cases ending with
    | refused failed => cases same
    | sequence _ single => cases single
    | @pool checked given state _ again pooled reached past =>
      rw [allowed] at again
      obtain ⟨⟩ := again
      obtain ⟨⟩ := pooled
      cases past with
      | finished ended =>
        obtain ⟨⟩ := same
        exact ⟨state, reached, ended, rfl⟩
      | failed => cases same
  · rintro ⟨state, reached, ended, rfl⟩
    obtain ⟨log, valid⟩ := reached.exists_valid
    exact .pool allowed rfl reached
      (.finished ended (valid.not_failed fun index _ => computed index))

/-- If the rounds that reach the bound agree, every schedule ends with a smallest round. -/
theorem sameSize_of_agree
    (agree : Interleaving.Agree fractional.lowerBound (options.limit incidence)
      (prunedSize rounds)) : SameSize incidence options fractional := by
  intro first second positive positive' outcome other ending ending'
  obtain ⟨state, reached, ended, rfl⟩ := (poolEnding_iff checks computed positive).mp ending
  obtain ⟨state', reached', ended', rfl⟩ := (poolEnding_iff checks computed positive').mp ending'
  obtain ⟨log, valid⟩ := reached.exists_valid
  obtain ⟨log', valid'⟩ := reached'.exists_valid
  have within := fun index (_ : index < options.limit incidence) => computed index
  show state.pool.progress.cover.length = state'.pool.progress.cover.length
  rcases Nat.eq_zero_or_pos (options.limit incidence) with spent | someBudget
  · rw [valid.cover_eq_nil within ended spent, valid'.cover_eq_nil within ended' spent]
  · obtain ⟨index, below, taken, smallest⟩ := agree.exists_smallest valid within ended someBudget
    obtain ⟨index', below', taken', smallest'⟩ :=
      agree.exists_smallest valid' within ended' someBudget
    rw [← taken, ← taken']
    exact le_antisymm (smallest index' below') (smallest' index below)

/-- The cover of any round that reaches the bound is returned in some schedule, as its restart may
be the first to look at the flag. -/
theorem exists_poolEnding {workers : Int} (positive : 1 ≤ workers) {index : Nat}
    (inRange : index < options.limit incidence)
    (reaches : (prunedSize rounds index : Int) ≤ fractional.lowerBound) :
    ∃ outcome, PoolEnding incidence options fractional workers outcome ∧
      outcome.cover = (rounds index).pruned.members := by
  have someWorker : 1 ≤ workers.toNat := by omega
  obtain ⟨final, reached, ended, cover⟩ :=
    Interleaving.exists_ended_of_reaches someWorker inRange (computed index) reaches
  exact ⟨_, (poolEnding_iff checks computed positive).mpr ⟨final, reached, ended, rfl⟩, cover⟩

end Pool

/-- **The size is the same in all schedules exactly if the rounds that reach the bound agree**, and
so it is if no cover is below the bound. -/
theorem schedule_sizes {sets : List (List Int)} {pathCount : Option Int} {incidence : Incidence}
    (built : Incidence.ofSets? sets pathCount = .ok incidence) {fractional : Fractional}
    (accepted : fractional.IsAccepted) {options : Options} (natural : 0 ≤ options.seed)
    (allowed : ¬ Refused incidence options (some fractional)) :
    ∃ rounds, ScheduleSizes incidence options fractional rounds := by
  have agreement := Incidence.agreement_of_ofSets? built
  have checks := checkGuided_of_allowed agreement allowed
  obtain ⟨rounds, each⟩ := exists_pool_rounds agreement accepted natural checks
  have computed := fun index => (each index).1
  have same_of := sameSize_of_agree checks computed
  refine ⟨rounds, computed, fun someBudget workers positive outcome ending => ?_,
    fun index below reaches => exists_poolEnding checks computed (by omega) below reaches,
    ⟨fun same first below second below' reaches reaches' => ?_, same_of⟩, fun bounds => ?_⟩
  · obtain ⟨state, reached, ended, rfl⟩ := (poolEnding_iff checks computed positive).mp ending
    obtain ⟨log, valid⟩ := reached.exists_valid
    obtain ⟨index, below, taken, kind⟩ :=
      valid.exists_kept (fun index _ => computed index) ended someBudget
    exact ⟨index, below, taken.symm, kind⟩
  · have positive : (1 : Int) ≤ options.limit incidence := by omega
    obtain ⟨outcome, ending, cover⟩ := exists_poolEnding checks computed positive below reaches
    obtain ⟨other, ending', cover'⟩ := exists_poolEnding checks computed positive below' reaches'
    have sizes := same _ _ positive positive outcome other ending ending'
    rwa [Outcome.size, Outcome.size, cover, cover'] at sizes
  · -- a cover that reaches a bound that none is below is as large as the bound
    have least : ∀ index, fractional.lowerBound ≤ (prunedSize rounds index : Int) :=
      fun index => bounds.below _ (each index).2.pruned.covers
    refine same_of fun first _ second _ reaches reaches' => ?_
    have above := least first
    have above' := least second
    omega

/-- The rounds on the hexagon. -/
theorem schedule_sizes_hexagon :
    0 ≤ ({} : Options).seed ∧ ∃ rounds, ScheduleSizes hexagon {} halves rounds :=
  ⟨le_refl 0, schedule_sizes hexagon_built halves_accepted (le_refl 0)
    (not_refused_halves rfl rfl)⟩

/-! ### Sizes that differ -/

/-- Two rounds, on the streams of one seed. -/
def twoRounds : Options := { seed := 3, maxRounds := some 2 }

theorem nearHalves_checked :
    checkGuided hexagon (some nearHalves) twoRounds = .ok nearHalves := by
  decide +kernel

/-- The first of both is pruned to four corners, and the second to three. -/
theorem roundAt_hexagon :
    ((guidedTask hexagon nearHalves twoRounds).roundAt twoRounds.streamAt 0).map
        (·.pruned.members) = .ok [1, 2, 3, 0] ∧
      ((guidedTask hexagon nearHalves twoRounds).roundAt twoRounds.streamAt 1).map
        (·.pruned.members) = .ok [2, 5, 1] := by
  have several : 2 ≤ (guidedTask hexagon nearHalves twoRounds).incidence.pathCount := by decide
  have natural : 0 ≤ twoRounds.seed := by decide
  rw [Task.roundAt_streamOf several (streamAt_eq_ok natural 0),
    Task.roundAt_streamOf several (streamAt_eq_ok natural 1)]
  decide +kernel

/-- **Both reach the bound, which is too large**, so one worker ends with four corners, and of two
workers the second may be the first to end, with three. -/
theorem hexagon_sizes_differ :
    Incidence.ofSets? [[0, 1], [3, 4], [1, 2], [4, 5], [2, 3], [5, 0]] none = .ok hexagon ∧
      nearHalves.IsAccepted ∧ 0 ≤ twoRounds.seed ∧
      ¬ Refused hexagon twoRounds (some nearHalves) ∧
      (∃ outcome, PoolEnding hexagon twoRounds nearHalves 1 outcome ∧ outcome.size = 4) ∧
      (∃ outcome, PoolEnding hexagon twoRounds nearHalves 2 outcome ∧ outcome.size = 3) ∧
      ¬ SameSize hexagon twoRounds nearHalves := by
  have agreement := Incidence.agreement_of_ofSets? hexagon_built
  have natural : 0 ≤ twoRounds.seed := by decide
  obtain ⟨rounds, each⟩ :=
    exists_pool_rounds agreement nearHalves_accepted natural nearHalves_checked
  have computed := fun index => (each index).1
  have bound : nearHalves.lowerBound = 4 := by decide +kernel
  obtain ⟨first, second⟩ := roundAt_hexagon
  rw [computed 0] at first
  rw [computed 1] at second
  have members : (rounds 0).pruned.members = [1, 2, 3, 0] := Except.ok.inj first
  have members' : (rounds 1).pruned.members = [2, 5, 1] := Except.ok.inj second
  have ends {workers : Int} (positive : 1 ≤ workers) {index : Nat} (inRange : index < 2)
      {cover : List Int} (pruned : (rounds index).pruned.members = cover)
      (small : cover.length ≤ 4) : ∃ outcome,
        PoolEnding hexagon twoRounds nearHalves workers outcome ∧ outcome.size = cover.length := by
    obtain ⟨outcome, ending, taken⟩ :=
      exists_poolEnding nearHalves_checked computed positive inRange (by
        rw [prunedSize, Selection.size, pruned, bound]
        exact_mod_cast small)
    exact ⟨outcome, ending, by rw [Outcome.size, taken, pruned]⟩
  obtain ⟨outcome, ending, four⟩ := ends le_rfl (by decide) members (by decide)
  obtain ⟨other, ending', three⟩ := ends one_le_two (by decide) members' (by decide)
  have allowed := (checkGuided_eq_ok_iff agreement).mp ⟨nearHalves, nearHalves_checked⟩
  refine ⟨hexagon_built, nearHalves_accepted, natural, allowed, ⟨outcome, ending, four⟩,
    ⟨other, ending', three⟩, fun same => ?_⟩
  have sizes := same 1 2 le_rfl one_le_two outcome other ending ending'
  rw [four, three] at sizes
  exact absurd sizes (by decide)

end Transversal
