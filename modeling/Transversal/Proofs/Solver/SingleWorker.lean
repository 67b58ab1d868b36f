/-
**A guided run with a single worker returns what the loop with a stream for every round returns.**

* `solveGuidedOn_restartEach`: on streams of every kind, with or without a fault, a run with a pool
  is a run of the loop.
* `SingleWorker`: the outcome and the events are those of the loop on the streams of the seed; and a
  single worker that takes the restarts in the order of their indices leaves the same behind,
  however its steps are timed, and is never stuck.
* `single_worker_run`: it holds of all runs that are not refused.
-/
import Transversal.Proofs.Restart.SingleWorker
import Transversal.Proofs.Solver.Guided

namespace Transversal

variable {incidence : Incidence} {options : Options} {fractional : Fractional}

/-- A state of the pool whose single worker takes the restarts in the order of their indices. -/
def IsQueued (incidence : Incidence) (options : Options) (fractional : Fractional)
    (state : Interleaving) : Prop :=
  Interleaving.Queued fractional.lowerBound
    ((guidedTask incidence fractional options).roundAt options.streamAt) (options.limit incidence)
    state

/-- **What a run with a single worker has in common with the loop** that draws every round from the
stream with its number. -/
structure SingleWorker (incidence : Incidence) (options : Options) (fractional : Fractional)
    (result : RestartResult) (events : Array Event) : Prop where
  loop : ∃ after, ((guidedTask incidence fractional options).restartEach options.streamAt
    (options.limit incidence)).run.run ⟨.ofSeed options.seed, #[]⟩ = (.ok result, after) ∧
      after.events = events
  solved : solve .guided incidence (some fractional) options =
    (.ok (guidedOutcome incidence fractional options result), events)
  ends : ∀ state ended, IsQueued incidence options fractional state →
    Interleaving.Ending (options.limit incidence) state ended →
    ended = .ok result ∧
      Event.improvements state.reports.toArray = Event.improvements events
  proceeds : ∀ state, IsQueued incidence options fractional state →
    state.HasEnded (options.limit incidence) ∨ ∃ next,
      Interleaving.Step fractional.lowerBound
        ((guidedTask incidence fractional options).roundAt options.streamAt) 1
        (options.limit incidence) state next ∧ IsQueued incidence options fractional next

/-- The restarts of a pool, in the order of their indices, are the rounds of the loop. -/
theorem solveGuidedOn_restartEach {σ : Type} [RandomStream σ] (streamAt : Nat → Except Fault σ)
    {given : Option Fractional} (checks : checkGuided incidence given options = .ok fractional)
    {workers : Int} (pooled : options.workers = some workers) {desk after : Desk σ}
    {result : Except Fault RestartResult}
    (ran : ((guidedTask incidence fractional options).restartEach streamAt
      (options.limit incidence)).run.run desk = (result, after)) :
    (solveGuidedOn streamAt incidence given options).run.run desk =
      (result.map (guidedOutcome incidence fractional options), after) := by
  refine solveGuidedOn_run streamAt checks ?_
  rw [pooled]
  show ((guidedTask incidence fractional options).restartPool streamAt _).run.run desk = _
  rw [Task.restartPool_eq, ran]

/-- **A run with a single worker** returns the cover, the number of rounds, the history and the
sizes of the loop with a stream for every round, and tells its caller the same. -/
theorem single_worker_run {sets : List (List Int)} {pathCount : Option Int} {incidence : Incidence}
    (built : Incidence.ofSets? sets pathCount = .ok incidence) {fractional : Fractional}
    (accepted : fractional.IsAccepted) {options : Options} (natural : 0 ≤ options.seed)
    (allowed : ¬ Refused incidence options (some fractional))
    (single : options.workers = some 1) :
    ∃ result events, SingleWorker incidence options fractional result events := by
  have agreement := Incidence.agreement_of_ofSets? built
  have checks := checkGuided_of_allowed agreement allowed
  obtain ⟨rounds, each⟩ := exists_pool_rounds agreement accepted natural checks
  have computed := fun index => (each index).1
  obtain ⟨result, told⟩ := Task.recorded_restartEach computed (options.limit incidence)
    (.ofSeed options.seed)
  have ended := solveGuidedOn_restartEach options.streamAt checks single (Prod.ext result rfl)
  refine ⟨_, _, ⟨_, Prod.ext result rfl, rfl⟩, solve_guided_eq ended,
    fun state ended queued ending => ?_,
    fun state queued => Interleaving.Queued.hasEnded_or_step computed queued⟩
  obtain ⟨same, reported⟩ := Interleaving.Queued.ending_eq computed queued ending
  exact ⟨same, reported.trans told.symm⟩

/-- The hexagon is solved by a single worker. -/
theorem single_worker_run_hexagon :
    0 ≤ ({ workers := some 1 } : Options).seed ∧
      ({ workers := some 1 } : Options).workers = some 1 ∧
      ∃ result events, SingleWorker hexagon { workers := some 1 } halves result events := by
  have natural : 0 ≤ ({ workers := some 1 } : Options).seed := le_refl 0
  exact ⟨natural, rfl, single_worker_run hexagon_built halves_accepted natural
    (not_refused_halves rfl rfl) rfl⟩

end Transversal
