/-
**The outcome depends only on which paths each set hits.**

* `Task.restarts_congr`: the restarts of a run depend on their task by its rounds and its bound.
* `Incidence.Relisted.solveGuidedOn_eq`, `Incidence.Relisted.guidedEnding`: so a guided run does not
  depend on how sets list their paths, and neither does any interleaving of a pool.
* `SameRuns`: two relations that no algorithm tells apart.
* `relisted_runs`: a family listed in another way makes such a relation.
-/
import Transversal.Proofs.Cover.Relisted
import Transversal.Proofs.Solver.Guided

namespace Transversal

/-! ### Restarts -/

namespace Task

variable {σ : Type} [RandomStream σ] {task other : Task} {streamAt : Nat → Except Fault σ}

section Congruence

variable (rounds : (other.round : Run σ Round) = task.round)
  (bounds : other.lowerBound = task.lowerBound)

include rounds

theorem roundAt_congr : other.roundAt streamAt = task.roundAt streamAt := by
  funext index
  rw [roundAt, roundAt, rounds]

include bounds

theorem restartFrom_congr (budget : Nat) (result : RestartResult) :
    (other.restartFrom budget result : Run σ RestartResult) = task.restartFrom budget result := by
  induction budget generalizing result with
  | zero => rfl
  | succ budget ih =>
    rw [restartFrom, restartFrom, restartOnce, restartOnce, rounds, bounds]
    simp only [ih]

theorem restartIndices_congr (count index : Nat) (pool : Pool) :
    other.restartIndices streamAt count index pool =
      task.restartIndices streamAt count index pool := by
  induction count generalizing index pool with
  | zero => rfl
  | succ count ih =>
    rw [restartIndices, restartIndices, restartIndex, restartIndex, rounds, bounds]
    simp only [ih]

/-- **The restarts of a run** depend on their task by its rounds and its bound. -/
theorem restarts_congr (streamAt : Nat → Except Fault σ) (workers : Option Int) (budget : Nat) :
    other.restarts streamAt workers budget = task.restarts streamAt workers budget := by
  cases workers with
  | none => exact restartFrom_congr rounds bounds budget _
  | some workers =>
    show other.restartPool streamAt budget = task.restartPool streamAt budget
    rw [restartPool, restartPool, restartIndices_congr rounds bounds]

end Congruence

end Task

/-! ### Guided runs -/

namespace Incidence.Relisted

variable {incidence other : Incidence} {σ : Type} [RandomStream σ]

section Guided

variable (same : incidence.Relisted other)

include same

/-- **One round** is the same by both relations. -/
theorem round_eq (activities : Array Binary64) (lowerBound maxDraws : Int) :
    (Task.round ⟨other, activities, lowerBound, maxDraws⟩ : Run σ Round) =
      Task.round ⟨incidence, activities, lowerBound, maxDraws⟩ := by
  rw [Task.round, Task.round]
  dsimp only
  rw [same.sampledCover_eq]
  refine (returns_sampledCover incidence activities maxDraws).bind_congr fun grown returned => ?_
  rw [same.prunedAtRandom_eq returned.1]

theorem agrees?_eq (fractional : Fractional) :
    fractional.agrees? other = fractional.agrees? incidence := by
  rw [Fractional.agrees?, Fractional.agrees?, same.pathCount_eq, same.setCount]

theorem checkSupport_eq (activities : Array Binary64) :
    checkSupport other activities = checkSupport incidence activities := by
  rw [checkSupport, checkSupport, same.paths]

theorem checkGuided_eq (given : Option Fractional) (options : Options) :
    checkGuided other given options = checkGuided incidence given options := by
  simp only [checkGuided, same.agrees?_eq, same.checkSupport_eq]

theorem budget_eq (options : Options) : options.budget other = options.budget incidence := by
  rw [Options.budget, Options.budget, same.pathCount_eq]

theorem guidedOutcome_eq (fractional : Fractional) (options : Options) :
    guidedOutcome other fractional options = guidedOutcome incidence fractional options := by
  funext result
  rw [guidedOutcome, guidedOutcome, same.budget_eq]

/-- **A guided run** is the same by both relations. -/
theorem solveGuidedOn_eq (streamAt : Nat → Except Fault σ) (given : Option Fractional)
    (options : Options) :
    solveGuidedOn streamAt other given options =
      solveGuidedOn streamAt incidence given options := by
  rw [solveGuidedOn, solveGuidedOn, same.checkGuided_eq]
  refine (Run.returns_true _).bind_congr fun checked _ => ?_
  have alike := Task.restarts_congr
    (same.round_eq checked.activities checked.lowerBound options.maxDraws) rfl streamAt
    options.workers (options.limit incidence)
  rw [same.guidedOutcome_eq, same.budget_eq]
  have finished := congrArg
    (· >>= fun result => pure (guidedOutcome incidence checked options result)) alike
  cases workers : options.workers with
  | none => rwa [workers] at finished
  | some count => rwa [workers] at finished

/-- How the restarts of a pool may interleave is the same by both relations. -/
theorem guidedEnding {desk : Desk σ} {streamAt : Nat → Except Fault σ} {given : Option Fractional}
    {options : Options} {result : Except Fault Outcome}
    (ending : GuidedEnding desk streamAt incidence given options result) :
    GuidedEnding desk streamAt other given options result := by
  have alike := fun checked : Fractional => same.round_eq (σ := σ) checked.activities
    checked.lowerBound options.maxDraws
  cases ending with
  | refused checks => exact .refused (by rw [same.checkGuided_eq, checks])
  | @sequence checked checks single =>
    have restarts : (guidedTask other checked options).restart (options.budget incidence).toNat =
        ((guidedTask incidence checked options).restart (options.budget incidence).toNat :
          Run σ RestartResult) := Task.restartFrom_congr (alike checked) rfl _ _
    rw [← restarts, ← same.guidedOutcome_eq, ← same.budget_eq]
    exact .sequence (by rw [same.checkGuided_eq, checks]) single
  | @pool checked workers state result checks pooled reached past =>
    have rounds : (guidedTask other checked options).roundAt streamAt =
        (guidedTask incidence checked options).roundAt streamAt :=
      Task.roundAt_congr (alike checked)
    rw [← rounds, ← same.budget_eq] at reached
    rw [← same.budget_eq] at past
    rw [← same.guidedOutcome_eq]
    exact .pool (by rw [same.checkGuided_eq, checks]) pooled reached past

/-! ### Greedy runs -/

theorem solveLargest_eq (given : Option Fractional) :
    solveLargest other given = solveLargest incidence given := by
  have bound : boundOf? other given = boundOf? incidence given := by
    cases given with
    | none => rfl
    | some fractional => rw [boundOf?, boundOf?, same.agrees?_eq]
  rw [solveLargest, solveLargest, bound, same.largestCover_eq]
  refine Except.bind_congr_ok fun lowerBound _ => Except.bind_congr_ok fun constructed grown => ?_
  rw [same.pruned?_eq (tracked_largestCover grown).1]

theorem solve_eq (algorithm : Algorithm) (given : Option Fractional) (options : Options) :
    solve algorithm other given options = solve algorithm incidence given options := by
  have alike : solveWith algorithm other given options =
      solveWith algorithm incidence given options := by
    cases algorithm with
    | guided => exact same.solveGuidedOn_eq _ given options
    | largest => exact congrArg Run.lift (same.solveLargest_eq given)
  rw [solve, solve, alike]

end Guided

end Incidence.Relisted

/-! ### Runs that cannot be told apart -/

/-- **Two relations that no algorithm tells apart.** Whatever is drawn, reported and returned is the
same: members, counters, rounds, histories and sizes, and faults as well. -/
structure SameRuns (incidence other : Incidence) : Prop where
  sampled : ∀ (σ : Type) [RandomStream σ] (activities : Array Binary64) (maxDraws : Int),
    (sampledCover other activities maxDraws : Run σ Selection) =
      sampledCover incidence activities maxDraws
  largest : largestCover other = largestCover incidence
  members : ∀ members, Selection.ofMembers other members = Selection.ofMembers incidence members
  pruned : ∀ members selection, Selection.ofMembers incidence members = .ok selection →
    pruned? other selection = pruned? incidence selection
  prunedAtRandom : ∀ (σ : Type) [RandomStream σ] (members : List Int) (selection : Selection),
    Selection.ofMembers incidence members = .ok selection →
    (prunedAtRandom other selection : Run σ Selection) = prunedAtRandom incidence selection
  guided : ∀ (σ : Type) [RandomStream σ] (streamAt : Nat → Except Fault σ)
    (given : Option Fractional) (options : Options),
    solveGuidedOn streamAt other given options = solveGuidedOn streamAt incidence given options
  endings : ∀ (σ : Type) [RandomStream σ] (desk : Desk σ) (streamAt : Nat → Except Fault σ)
    (given : Option Fractional) (options : Options) (result : Except Fault Outcome),
    GuidedEnding desk streamAt other given options result ↔
      GuidedEnding desk streamAt incidence given options result
  solved : ∀ (algorithm : Algorithm) (given : Option Fractional) (options : Options),
    solve algorithm other given options = solve algorithm incidence given options

theorem Incidence.Relisted.sameRuns {incidence other : Incidence}
    (same : incidence.Relisted other) : SameRuns incidence other where
  sampled _ _ := same.sampledCover_eq
  largest := same.largestCover_eq
  members := same.ofMembers_eq
  pruned _ _ made := same.pruned?_eq (Selection.tracked_ofMembers made).1
  prunedAtRandom _ _ _ _ made := same.prunedAtRandom_eq (Selection.tracked_ofMembers made).1
  guided _ _ := same.solveGuidedOn_eq
  endings _ _ _ _ _ _ _ := ⟨same.symm.guidedEnding, same.guidedEnding⟩
  solved := same.solve_eq

/-- **The outcome depends only on which paths each set hits**: if every set lists the same paths, in
any order and with any repeats, then the sets of every path are the same, and so is every run. -/
theorem relisted_runs {sets relisted : List (List Int)} {pathCount : Option Int}
    {incidence : Incidence} (built : Incidence.ofSets? sets pathCount = .ok incidence)
    (same : List.Forall₂ Incidence.SamePaths sets relisted) :
    ∃ other, Incidence.ofSets? relisted pathCount = .ok other ∧ other.paths = incidence.paths ∧
      SameRuns incidence other := by
  obtain ⟨other, built', alike⟩ := Incidence.exists_relisted built same
  exact ⟨other, built', alike.paths, alike.sameRuns⟩

/-- The hexagon, whose corners list their sides in another order, and one of them three times. -/
theorem relisted_runs_hexagon :
    ∃ other, Incidence.ofSets? [[1, 0, 1, 1], [4, 3], [2, 1], [5, 4], [3, 2], [0, 5]] none =
        .ok other ∧ other ≠ hexagon ∧
      ∀ options, solve .guided other (some halves) options =
        solve .guided hexagon (some halves) options := by
  have same : List.Forall₂ Incidence.SamePaths [[0, 1], [3, 4], [1, 2], [4, 5], [2, 3], [5, 0]]
      [[1, 0, 1, 1], [4, 3], [2, 1], [5, 4], [3, 2], [0, 5]] := by
    refine .cons ?_ (.cons ?_ (.cons ?_ (.cons ?_ (.cons ?_ (.cons ?_ .nil)))))
    all_goals
      intro path
      simp only [List.mem_cons, List.not_mem_nil, or_false]
      omega
  obtain ⟨other, built, _, runs⟩ := relisted_runs hexagon_built same
  refine ⟨other, built, ?_, runs.solved .guided (some halves)⟩
  rintro rfl
  exact absurd built (by decide +kernel)

end Transversal
