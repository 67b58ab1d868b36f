/-
**What the caller of a guided run is told**, whatever the order of the restarts of a pool.

* `Interleaving.Reached.told`: in every state that a pool reaches, its reports tell of the history.
* `exists_told`: so do the events of a run on the streams of its seed.
* `GuidedRun`: a guided run with the improvements told.
* `GuidedRun.succeeds`, `GuidedRun.fails`: they are the entries of the history, and there are none
  if the run is refused.
-/
import Transversal.Proofs.Restart.SingleWorker
import Transversal.Proofs.Solver.Guided

namespace Transversal

/-- **The reports of a pool tell of its history**, in every state that is reached. -/
theorem Interleaving.Reached.told {lowerBound : Int} {outcome : Nat → Except Fault Round}
    {workers budget : Nat} {state : Interleaving}
    (reached : Reached lowerBound outcome workers budget state) :
    Event.improvements state.reports.toArray =
      toldOf lowerBound state.pool.progress.history := by
  induction reached with
  | start => rfl
  | @step state next _ step ih =>
    -- only an update under the lock reports, and only it makes an entry
    cases step with
    | enter | skip | compute | fail | giveUp => exact ih
    | @commit index round =>
      show Event.improvements (state.reports ++
        state.pool.progress.recordEvents lowerBound round).toArray =
          toldOf lowerBound (state.pool.progress.record round).history
      rw [Progress.improvements_recordEvents, ← ih, ← Run.improvements_append,
        List.append_toArray]

variable {incidence : Incidence} {options : Options} {fractional : Fractional}
  {result : Except Fault Outcome} {told : List (Nat × Nat × Int)}

/-- **The events of a run tell of its history**, on the streams of its seed. -/
theorem exists_told (agreement : incidence.Agreement) (accepted : fractional.IsAccepted)
    (natural : 0 ≤ options.seed)
    (checks : checkGuided incidence (some fractional) options = .ok fractional) :
    ∃ result after, ((guidedTask incidence fractional options).restarts options.streamAt
        options.workers (options.limit incidence)).run.run ⟨.ofSeed options.seed, #[]⟩ =
          (.ok result, after) ∧
      Event.improvements after.events =
        toldOf fractional.lowerBound result.progress.history := by
  cases options.workers with
  | none =>
    obtain ⟨rounds, each⟩ := (ready_of_checked agreement accepted checks).exists_rounds
      fun index => ⟨(guidedTask incidence fractional options).streamBefore
        (.ofSeed options.seed : Twister) index, rfl⟩
    obtain ⟨ran, told⟩ := Task.recorded_restart (fun index => (each index).1)
      (options.limit incidence)
    exact ⟨_, _, Prod.ext ran rfl, told⟩
  | some workers =>
    obtain ⟨rounds, each⟩ := exists_pool_rounds agreement accepted natural checks
    obtain ⟨ran, told⟩ := Task.recorded_restartEach (fun index => (each index).1)
      (options.limit incidence) (.ofSeed options.seed)
    rw [← Task.restartPool_eq] at ran told
    exact ⟨_, _, Prod.ext ran rfl, told⟩

/-- **A guided run with the improvements that its caller is told of**, in their order. A pool may
interleave its restarts in any way. -/
inductive GuidedRun (incidence : Incidence) (fractional : Fractional) (options : Options) :
    Except Fault Outcome → List (Nat × Nat × Int) → Prop
  | alone : GuidedRun incidence fractional options
      (solve .guided incidence (some fractional) options).1
      (Event.improvements (solve .guided incidence (some fractional) options).2)
  | pool {workers state result} :
      checkGuided incidence (some fractional) options = .ok fractional →
      options.workers = some workers →
      Interleaving.Reached fractional.lowerBound
        ((guidedTask incidence fractional options).roundAt options.streamAt) workers.toNat
        (options.limit incidence) state →
      Interleaving.Ending (options.limit incidence) state result →
      GuidedRun incidence fractional options
        (result.map (guidedOutcome incidence fractional options))
        (Event.improvements state.reports.toArray)

namespace GuidedRun

theorem ending (run : GuidedRun incidence fractional options result told) :
    GuidedEnding ⟨.ofSeed options.seed, #[]⟩ options.streamAt incidence (some fractional) options
      result := by
  cases run with
  | alone => exact solve_guided_ending incidence (some fractional) options
  | pool checks pooled reached ending => exact .pool checks pooled reached ending

/-- What a run that ends without a fault tells of. -/
theorem told_eq (agreement : incidence.Agreement) (accepted : fractional.IsAccepted)
    (natural : 0 ≤ options.seed)
    (checks : checkGuided incidence (some fractional) options = .ok fractional)
    (run : GuidedRun incidence fractional options result told) {outcome : Outcome}
    (ended : result = .ok outcome) : told = toldOf fractional.lowerBound outcome.history := by
  cases run with
  | alone =>
    obtain ⟨result, after, ran, told⟩ := exists_told agreement accepted natural checks
    rw [solve_guided_eq (solveGuidedOn_run options.streamAt checks ran)] at ended ⊢
    cases ended
    exact told
  | pool _ _ reached ending =>
    cases ending with
    | finished =>
      cases ended
      exact reached.told
    | failed => cases ended

/-- **A run that passes the checks** succeeds, and tells of every entry of its history, in which the
rounds rise and the sizes fall. -/
theorem succeeds (agreement : incidence.Agreement) (accepted : fractional.IsAccepted)
    (natural : 0 ≤ options.seed)
    (checks : checkGuided incidence (some fractional) options = .ok fractional)
    (run : GuidedRun incidence fractional options result told) :
    ∃ outcome, result = .ok outcome ∧ outcome.FromGuided incidence options fractional ∧
      outcome.history.Pairwise Improves ∧ told = toldOf fractional.lowerBound outcome.history := by
  have allowed := (checkGuided_eq_ok_iff agreement).mp ⟨fractional, checks⟩
  have known : ∀ given ∈ some fractional, given.IsAccepted := by
    rintro _ ⟨⟩
    exact accepted
  obtain ⟨outcome, ended⟩ := run.ending.exists_ok agreement known
    (fun index => ⟨_, streamAt_eq_ok natural index⟩) allowed
  obtain ⟨checked, rounds, _, record⟩ :=
    run.ending.exists_record ended fun _ _ => Run.returns_true _
  obtain ⟨restarted, same, records⟩ := record.made
  refine ⟨outcome, ended, run.ending.fromGuided agreement accepted ended, ?_,
    run.told_eq agreement accepted natural checks ended⟩
  rw [same]
  exact records.falling

/-- **A run that is refused** fails as the checks do, and tells of nothing. -/
theorem fails {fault : Fault}
    (failed : checkGuided incidence (some fractional) options = .error fault)
    (run : GuidedRun incidence fractional options result told) :
    result = .error fault ∧ told = [] := by
  cases run with
  | alone =>
    have ran : (solveGuidedOn options.streamAt incidence (some fractional) options).run.run
        ⟨.ofSeed options.seed, #[]⟩ = (.error fault, ⟨.ofSeed options.seed, #[]⟩) := by
      rw [solveGuidedOn, failed]
      rfl
    rw [solve_guided_eq ran]
    exact ⟨rfl, rfl⟩
  | pool checks =>
    rw [checks] at failed
    cases failed

end GuidedRun

end Transversal
