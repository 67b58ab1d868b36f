/-
**A guided run on one stream, told by the rounds on that stream.**

* `Outcome.Follows`: the number of rounds, their sizes, the cover, the history and what a caller is
  told, as functions of a sequence of rounds.
* `follows_guidedOutcome`: it holds of what the first rounds of the sequence leave behind.
* `guided_run_follows`: so a run on one stream follows the rounds that are taken from it.
-/
import Transversal.Proofs.Restart.Controller
import Transversal.Proofs.Solver.Guided

namespace Transversal

variable {incidence : Incidence} {options : Options} {fractional : Fractional}

/-- **What a guided run makes of a sequence of rounds.** It takes them up to the first one that
reaches the bound, keeps the cover of the first smallest one, and tells of every one that is smaller
than all before it. -/
structure Outcome.Follows (incidence : Incidence) (options : Options) (fractional : Fractional)
    (rounds : Nat → Round) (events : Array Event) (outcome : Outcome) : Prop where
  counted : outcome.rounds =
    roundsTaken (prunedSize rounds) fractional.lowerBound (options.limit incidence)
  details : outcome.details = .guided options.seed options.workers (options.budget incidence)
    fractional.objective fractional.activeCount
    ((List.range outcome.rounds).map fun index => (rounds index).sizes)
  unstarted : outcome.rounds = 0 → outcome.cover = []
  kept : 0 < outcome.rounds → ∃ index,
    IsFirstSmallest (prunedSize rounds) outcome.rounds index ∧
      outcome.cover = (rounds index).pruned.members
  history : outcome.history =
    ((List.range outcome.rounds).filter fun index => IsRecord (prunedSize rounds) index).map
      fun index => (index + 1, prunedSize rounds index)
  told : Event.improvements events =
    outcome.history.map fun entry => (entry.1, entry.2, fractional.lowerBound)
  size : outcome.size = outcome.cover.length
  optimal : outcome.isOptimal ↔ (outcome.size : Int) = fractional.lowerBound

theorem follows_guidedOutcome {rounds : Nat → Round} {events : Array Event}
    (told : ToldFirst fractional.lowerBound rounds (roundsTaken (prunedSize rounds)
      fractional.lowerBound (options.limit incidence)) events) :
    (guidedOutcome incidence fractional options (.ofBudget rounds fractional.lowerBound
      (options.limit incidence))).Follows incidence options fractional rounds events := by
  rw [RestartResult.ofBudget]
  generalize counted : roundsTaken (prunedSize rounds) fractional.lowerBound
    (options.limit incidence) = taken at told ⊢
  have left := RestartResult.taken_ofFirst rounds taken
  have same : (guidedOutcome incidence fractional options (.ofFirst rounds taken)).rounds = taken :=
    left.counted
  refine ⟨same.trans counted.symm, ?_, fun none_ran => ?_, fun some_ran => ?_, ?_, told, rfl, ?_⟩
  · rw [same, ← left.sizes]
    rfl
  · rw [same] at none_ran
    exact congrArg (Option.getD · []) (left.unstarted none_ran)
  · rw [same] at some_ran ⊢
    obtain ⟨index, smallest, kept⟩ := left.kept some_ran
    exact ⟨index, smallest, congrArg (Option.getD · []) kept⟩
  · rw [same]
    exact left.history
  · rw [Outcome.isOptimal, decide_eq_true_eq]
    exact Option.some_inj.trans eq_comm

variable {σ : Type} [RandomStream σ]

/-- A run that ended as the rounds on one stream tell. -/
def FollowsStream (incidence : Incidence) (options : Options) (fractional : Fractional)
    (stream : σ) (ended : Except Fault Outcome × Array Event) : Prop :=
  ∃ rounds : Nat → Round,
    (∀ index, (guidedTask incidence fractional options).roundOn stream index =
      .ok (rounds index)) ∧
    ∃ outcome, ended.1 = .ok outcome ∧
      outcome.Follows incidence options fractional rounds ended.2

theorem followsStream (agreement : incidence.Agreement) (accepted : fractional.IsAccepted)
    (allowed : ¬ Refused incidence options (some fractional)) (single : options.workers = none)
    (stream : σ) (streamAt : Nat → Except Fault σ) :
    FollowsStream incidence options fractional stream
      (((solveGuidedOn streamAt incidence (some fractional) options).run.run ⟨stream, #[]⟩).1,
        ((solveGuidedOn streamAt incidence (some fractional) options).run.run
          ⟨stream, #[]⟩).2.events) := by
  have checks := checkGuided_of_allowed agreement allowed
  have ready := ready_of_checked agreement accepted checks
  obtain ⟨rounds, each⟩ := ready.exists_rounds fun index =>
    ⟨(guidedTask incidence fractional options).streamBefore stream index, rfl⟩
  have computed : ∀ index, (guidedTask incidence fractional options).roundOn stream index =
    .ok (rounds index) := fun index => (each index).1
  obtain ⟨result, told⟩ := Task.recorded_restart computed (options.limit incidence)
  have ended := solveGuidedOn_run streamAt checks (by rw [single]; exact Prod.ext result rfl)
  rw [ended]
  exact ⟨rounds, computed, _, rfl, follows_guidedOutcome told⟩

/-- **A guided run on one stream follows the rounds that are taken from it**, on the stream of its
seed as on streams of any other kind. -/
theorem guided_run_follows {sets : List (List Int)} {pathCount : Option Int}
    {incidence : Incidence} (built : Incidence.ofSets? sets pathCount = .ok incidence)
    {fractional : Fractional} (accepted : fractional.IsAccepted) {options : Options}
    (allowed : ¬ Refused incidence options (some fractional)) (single : options.workers = none) :
    FollowsStream incidence options fractional (Twister.ofSeed options.seed)
        (solve .guided incidence (some fractional) options) ∧
      ∀ (σ : Type) [RandomStream σ] (stream : σ) (streamAt : Nat → Except Fault σ),
        FollowsStream incidence options fractional stream
          (((solveGuidedOn streamAt incidence (some fractional) options).run.run
              ⟨stream, #[]⟩).1,
            ((solveGuidedOn streamAt incidence (some fractional) options).run.run
              ⟨stream, #[]⟩).2.events) := by
  have agreement := Incidence.agreement_of_ofSets? built
  exact ⟨followsStream agreement accepted allowed single _ options.streamAt,
    fun σ _ stream streamAt => followsStream agreement accepted allowed single stream streamAt⟩

/-- The hexagon is solved on the stream of a negative seed. -/
theorem guided_run_follows_hexagon :
    ({ seed := -1 } : Options).workers = none ∧
      FollowsStream hexagon { seed := -1 } halves (Twister.ofSeed (-1))
        (solve .guided hexagon (some halves) { seed := -1 }) :=
  ⟨rfl, (guided_run_follows hexagon_built halves_accepted (not_refused_halves rfl rfl) rfl).1⟩

end Transversal
