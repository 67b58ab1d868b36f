/-
**What the restarts of a pool leave behind does not lose an update in any schedule.**

* `PoolSettled`: what holds in one state of a pool; once every restart has ended, the result is that
  of the restarts that were not skipped, each counted once and at the place of its index.
* `pool_run_settled`: it holds in every state that is reached, with rounds that depend on nothing
  but the seed and the index.
-/
import Transversal.Proofs.Solver.Guided

namespace Transversal

/-- **What holds in one state of a pool** whose restarts compute the given rounds. -/
structure PoolSettled (lowerBound : Int) (budget : Nat) (rounds : Nat → Round)
    (state : Interleaving) : Prop where
  skipped : ∀ index, state.phase index = .skipped → ∃ earlier, state.phase earlier = .committed ∧
    ((rounds earlier).pruned.size : Int) ≤ lowerBound
  ends : state.HasEnded budget → ∀ result,
    Interleaving.Ending budget state result ↔ result = .ok state.pool.result
  some_ran : state.HasEnded budget → 0 < budget → state.ran budget ≠ []
  settled : state.HasEnded budget → Interleaving.Settled rounds (state.ran budget) state.pool.result
  all_ran : state.HasEnded budget →
    (∀ index < budget, lowerBound < ((rounds index).pruned.size : Int)) →
    state.ran budget = List.range budget

theorem poolSettled {lowerBound : Int} {outcome : Nat → Except Fault Round} {workers budget : Nat}
    {rounds : Nat → Round} (rounded : ∀ index, outcome index = .ok (rounds index))
    {state : Interleaving}
    (reached : Interleaving.Reached lowerBound outcome workers budget state) :
    PoolSettled lowerBound budget rounds state := by
  obtain ⟨log, valid⟩ := reached.exists_valid
  have within := fun index (_ : index < budget) => rounded index
  refine ⟨fun index skipped => ?_, fun ended _ => valid.ending_iff within ended,
    valid.ran_ne_nil within, valid.settled within, fun _ => valid.ran_eq_range within⟩
  have unfailed := valid.not_failed within
  exact valid.exists_reached within (valid.hasReached_of_skipped unfailed skipped)

/-- **No schedule of a pool loses an update or makes one twice.** The restart with a given index
computes the same round in all of them. -/
theorem pool_run_settled {sets : List (List Int)} {pathCount : Option Int} {incidence : Incidence}
    (built : Incidence.ofSets? sets pathCount = .ok incidence) {fractional : Fractional}
    (accepted : fractional.IsAccepted) {options : Options} (natural : 0 ≤ options.seed)
    (allowed : ¬ Refused incidence options (some fractional)) :
    ∃ rounds : Nat → Round,
      (∀ index, (guidedTask incidence fractional options).roundAt options.streamAt index =
        .ok (rounds index)) ∧
      ∀ workers state, options.workers = some workers →
        Interleaving.Reached fractional.lowerBound
          ((guidedTask incidence fractional options).roundAt options.streamAt) workers.toNat
          (options.budget incidence).toNat state →
        PoolSettled fractional.lowerBound (options.budget incidence).toNat rounds state := by
  have agreement := Incidence.agreement_of_ofSets? built
  obtain ⟨checked, checks⟩ := (checkGuided_eq_ok_iff agreement).mpr allowed
  obtain ⟨⟩ := checkGuided_same checks
  obtain ⟨rounds, each⟩ := (ready_of_checked agreement accepted checks).exists_rounds
    fun index => ⟨_, streamAt_eq_ok natural index⟩
  refine ⟨rounds, fun index => (each index).1, fun workers state _ reached => ?_⟩
  exact poolSettled (fun index => (each index).1) reached

/-- Two workers on the hexagon. -/
theorem pool_run_hexagon :
    0 ≤ ({ workers := some 2 } : Options).seed ∧
      ∃ rounds : Nat → Round, ∀ state,
        Interleaving.Reached halves.lowerBound
          ((guidedTask hexagon halves { workers := some 2 }).roundAt
            ({ workers := some 2 } : Options).streamAt) 2 6 state →
        PoolSettled halves.lowerBound 6 rounds state := by
  have natural : 0 ≤ ({ workers := some 2 } : Options).seed := le_refl 0
  obtain ⟨rounds, _, settled⟩ :=
    pool_run_settled hexagon_built halves_accepted natural (not_refused_halves rfl rfl)
  exact ⟨natural, rounds, fun state reached => settled 2 state rfl reached⟩

end Transversal
