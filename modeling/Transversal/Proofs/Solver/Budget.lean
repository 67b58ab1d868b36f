/-
**A larger budget extends a guided run, and never makes its cover larger.**

* `SerialEnding`: what a run on one stream, or of a pool with a single worker, may end with.
* `exists_serial_rounds`: whatever the budget is, it takes the rounds of one and the same sequence.
* `Outcome.Extends`: one outcome next to that of a larger budget.
* `larger_budget_extends`: it holds of all runs that are not refused.
-/
import Transversal.Proofs.Restart.Budget
import Transversal.Proofs.Solver.SingleWorker

namespace Transversal

variable {incidence : Incidence} {options : Options} {fractional : Fractional} {budget larger : Int}

/-! ### Runs with other budgets -/

/-- The same options with a stated number of rounds. -/
def Options.withRounds (options : Options) (budget : Int) : Options :=
  { options with maxRounds := some budget }

/-- **What a run may end with** on one stream, or for a pool with a single worker that takes the
restarts in the order of their indices, however its steps are timed. -/
inductive SerialEnding (incidence : Incidence) (options : Options) (fractional : Fractional) :
    Except Fault Outcome → Prop
  | solved : SerialEnding incidence options fractional
      (solve .guided incidence (some fractional) options).1
  | worker {state : Interleaving} {ended : Except Fault RestartResult} :
      options.workers = some 1 → IsQueued incidence options fractional state →
      Interleaving.Ending (options.limit incidence) state ended →
      SerialEnding incidence options fractional
        (ended.map (guidedOutcome incidence fractional options))

/-- **Whatever the budget is**, a run takes the rounds of one and the same sequence. -/
theorem exists_serial_rounds (ready : (guidedTask incidence fractional options).Ready)
    (natural : 0 ≤ options.seed) (serial : options.workers = none ∨ options.workers = some 1) :
    ∃ rounds : Nat → Round, ∀ budget,
      checkGuided incidence (some fractional) (options.withRounds budget) = .ok fractional →
      ∀ result, SerialEnding incidence (options.withRounds budget) fractional result →
        result = .ok (guidedOutcome incidence fractional (options.withRounds budget)
          (.ofBudget rounds fractional.lowerBound budget.toNat)) := by
  rcases serial with single | single
  · obtain ⟨rounds, each⟩ := ready.exists_rounds fun index =>
      ⟨(guidedTask incidence fractional options).streamBefore (.ofSeed options.seed : Twister)
        index, rfl⟩
    refine ⟨rounds, fun budget checks result ending => ?_⟩
    cases ending with
    | solved =>
      have ran := Task.recorded_restart (fun index => (each index).1) budget.toNat
      have ended := solveGuidedOn_run (options.withRounds budget).streamAt checks
        (by rw [Options.withRounds, single]; exact Prod.ext ran.result rfl)
      rw [solve_guided_eq ended]
      rfl
    | worker pooled => cases single.symm.trans pooled
  · have streams : ∀ index, ∃ stream, options.streamAt index = .ok stream :=
      fun index => ⟨_, streamAt_eq_ok natural index⟩
    obtain ⟨rounds, each⟩ := ready.exists_rounds streams
    have computed := fun index => (each index).1
    refine ⟨rounds, fun budget checks result ending => ?_⟩
    cases ending with
    | solved =>
      have ran := Task.recorded_restartEach computed budget.toNat (.ofSeed options.seed)
      have ended := solveGuidedOn_restartEach (options.withRounds budget).streamAt checks single
        (Prod.ext ran.result rfl)
      rw [solve_guided_eq ended]
      rfl
    | worker _ queued ending =>
      rw [(Interleaving.Queued.ending_eq computed queued ending).1]
      rfl

/-- A run that is not refused is not refused with a larger budget. -/
theorem checkGuided_larger
    (checks : checkGuided incidence (some fractional) (options.withRounds budget) = .ok fractional)
    (more : budget ≤ larger) :
    checkGuided incidence (some fractional) (options.withRounds larger) = .ok fractional := by
  obtain ⟨workers, positive, rest⟩ := checkGuided_some_eq_ok_iff.mp checks
  refine checkGuided_some_eq_ok_iff.mpr ⟨workers, ?_, rest⟩
  rintro _ ⟨⟩
  exact le_trans (positive budget rfl) more

/-! ### One outcome next to another -/

/-- The sizes of the rounds of a guided run. -/
def Outcome.roundSizes (outcome : Outcome) : List RoundSizes :=
  match outcome.details with
  | .guided _ _ _ _ _ sizes => sizes
  | .largest _ => []

/-- **An outcome next to that of a larger budget**: the sizes of its rounds are the first ones of
the other, its history is the part up to the budget, and the other cover is no larger. If the
smaller budget was not spent, or its cover reaches the bound, then nothing is gained. -/
structure Outcome.Extends (budget lowerBound : Int) (shorter longer : Outcome) : Prop where
  sizes : shorter.roundSizes <+: longer.roundSizes
  history : shorter.history = longer.history.filter fun entry => (entry.1 : Int) ≤ budget
  smaller : longer.size ≤ shorter.size
  settled : (shorter.rounds : Int) < budget ∨ (shorter.size : Int) ≤ lowerBound →
    longer.cover = shorter.cover ∧ longer.history = shorter.history ∧
      longer.rounds = shorter.rounds

/-- **Two budgets for one run**: each has one outcome, and that of the larger one extends the
other. -/
def BudgetExtends (incidence : Incidence) (options : Options) (fractional : Fractional)
    (budget larger : Int) : Prop :=
  ∃ shorter longer,
    (∀ result, SerialEnding incidence (options.withRounds budget) fractional result ↔
      result = .ok shorter) ∧
    (∀ result, SerialEnding incidence (options.withRounds larger) fractional result ↔
      result = .ok longer) ∧
    shorter.Extends budget fractional.lowerBound longer

theorem extends_guidedOutcome {shorter longer : RestartResult} (some_budget : 0 ≤ budget)
    (extended : RestartResult.Extends budget.toNat fractional.lowerBound shorter longer) :
    Outcome.Extends budget fractional.lowerBound
      (guidedOutcome incidence fractional (options.withRounds budget) shorter)
      (guidedOutcome incidence fractional (options.withRounds larger) longer) := by
  refine ⟨extended.sizes, ?_, extended.smaller, fun done => ?_⟩
  · refine extended.history.trans (List.filter_congr fun entry _ => ?_)
    exact decide_eq_decide.mpr (by omega)
  · have early : shorter.progress.rounds < budget.toNat ∨
        (shorter.progress.cover.length : Int) ≤ fractional.lowerBound :=
      done.imp_left fun early => by
        change (shorter.progress.rounds : Int) < budget at early
        omega
    rw [extended.settled early]
    exact ⟨rfl, rfl, rfl⟩

/-- **A larger budget extends a run and never makes its cover larger**, on one stream or with a
single worker. -/
theorem larger_budget_extends {sets : List (List Int)} {pathCount : Option Int}
    {incidence : Incidence} (built : Incidence.ofSets? sets pathCount = .ok incidence)
    {fractional : Fractional} (accepted : fractional.IsAccepted) {options : Options}
    (natural : 0 ≤ options.seed) (serial : options.workers = none ∨ options.workers = some 1)
    {budget larger : Int} (more : budget ≤ larger)
    (allowed : ¬ Refused incidence (options.withRounds budget) (some fractional)) :
    BudgetExtends incidence options fractional budget larger := by
  have agreement := Incidence.agreement_of_ofSets? built
  have checks := checkGuided_of_allowed agreement allowed
  have some_budget : 1 ≤ budget := (checkGuided_some_eq_ok_iff.mp checks).2.1 budget rfl
  -- what the rounds share does not depend on the budget
  have ready : (guidedTask incidence fractional (options.withRounds budget)).Ready :=
    ready_of_checked agreement accepted checks
  change (guidedTask incidence fractional options).Ready at ready
  obtain ⟨rounds, each⟩ := exists_serial_rounds ready natural serial
  have only : ∀ count, checkGuided incidence (some fractional) (options.withRounds count) =
      .ok fractional → ∀ result, SerialEnding incidence (options.withRounds count) fractional
        result ↔ result = .ok (guidedOutcome incidence fractional (options.withRounds count)
          (.ofBudget rounds fractional.lowerBound count.toNat)) := by
    refine fun count checks result => ⟨each count checks result, ?_⟩
    rintro rfl
    rw [← each count checks _ .solved]
    exact .solved
  refine ⟨_, _, only budget checks, only larger (checkGuided_larger checks more), ?_⟩
  exact extends_guidedOutcome (by omega)
    (RestartResult.extends_ofBudget rounds fractional.lowerBound (by omega) (by omega))

/-- The hexagon is solved with one round, and with two. -/
theorem larger_budget_extends_hexagon :
    (0 : Int) ≤ ({} : Options).seed ∧ (1 : Int) ≤ 2 ∧ BudgetExtends hexagon {} halves 1 2 ∧
      BudgetExtends hexagon { workers := some 1 } halves 1 2 := by
  have natural : 0 ≤ ({} : Options).seed := le_refl 0
  have more : (1 : Int) ≤ 2 := by decide
  have natural' : 0 ≤ ({ workers := some 1 } : Options).seed := le_refl 0
  refine ⟨natural, more, ?_, ?_⟩
  · exact larger_budget_extends hexagon_built halves_accepted natural (.inl rfl) more
      (not_refused_halves rfl rfl)
  · exact larger_budget_extends hexagon_built halves_accepted natural' (.inr rfl) more
      (not_refused_halves rfl rfl)

end Transversal
