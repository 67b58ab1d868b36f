/-
**A guided run is refused for one of the stated reasons, or ends with a sound cover.**

* `Refused`: the reasons; `checkGuided_eq_ok_iff`: the checks find exactly these.
* `checkGuided_eq_map`: where only the support of the paths is left to be checked.
* `ready_of_not_refused`: otherwise no round can fail, on any stream.
* `solveGuidedOn_ending`: the run itself is one of the endings that are allowed.
* `GuidedEnding.exists_record`: an ending without a fault is the record of some rounds, however the
  restarts interleave.
* `GuidedEnding.fromGuided`: so it has a sound cover, and an early one has reached the bound.
* `guided_run_total`: all of it for relations that were built and solutions that were accepted.
-/
import Transversal.Proofs.Fractional.Accepted
import Transversal.Proofs.Restart.Pool
import Transversal.Solver

namespace Transversal

/-! ### Refusals -/

/-- **The reasons to refuse a guided run.** -/
inductive Refused (incidence : Incidence) (options : Options) : Option Fractional → Prop
  | missing : Refused incidence options none
  | workers {fractional workers} : options.workers = some workers → workers < 1 →
      Refused incidence options fractional
  | rounds {fractional rounds} : options.maxRounds = some rounds → rounds < 1 →
      Refused incidence options fractional
  | pathCount {fractional : Fractional} : (incidence.pathCount : Int) ≠ fractional.pathCount →
      Refused incidence options (some fractional)
  | setCount {fractional : Fractional} : incidence.setCount ≠ fractional.setCount →
      Refused incidence options (some fractional)
  | unsupported {fractional : Fractional} {path} : path < incidence.pathCount →
      (∀ set < incidence.setCount, (path : Int) ∈ incidence.listed set →
        ¬ (activityAt fractional.activities set).isPositive) →
      Refused incidence options (some fractional)

variable {incidence : Incidence} {options : Options} {fractional checked : Fractional}

/-- The checks before a run, one after the other. -/
theorem checkGuided_some_eq_ok_iff :
    checkGuided incidence (some fractional) options = .ok checked ↔
      (∀ workers, options.workers = some workers → 1 ≤ workers) ∧
        (∀ rounds, options.maxRounds = some rounds → 1 ≤ rounds) ∧
        fractional.agrees? incidence = .ok () ∧
        checkSupport incidence fractional.activities = .ok () ∧ checked = fractional := by
  have tail : (do fractional.agrees? incidence
                  checkSupport incidence fractional.activities
                  pure fractional : Except Fault Fractional) = .ok checked ↔
      fractional.agrees? incidence = .ok () ∧
        checkSupport incidence fractional.activities = .ok () ∧ checked = fractional := by
    rw [Except.bind_eq_ok_iff]
    constructor
    · rintro ⟨_, agrees, rest⟩
      obtain ⟨_, supported, same⟩ := Except.bind_eq_ok_iff.mp rest
      cases same
      exact ⟨agrees, supported, rfl⟩
    · rintro ⟨agrees, supported, rfl⟩
      exact ⟨(), agrees, Except.bind_eq_ok_iff.mpr ⟨(), supported, rfl⟩⟩
  rw [← tail, checkGuided]
  cases options.workers with
  | none =>
    cases options.maxRounds with
    | none => simp
    | some rounds =>
      show (if rounds < 1 then _ else _) = _ ↔ _
      rw [Except.check_eq_ok_iff]
      simp
  | some workers =>
    show (if workers < 1 then _ else _) = _ ↔ _
    rw [Except.check_eq_ok_iff]
    cases options.maxRounds with
    | none => simp
    | some rounds =>
      rw [Except.check_eq_ok_iff]
      simp

/-- **The checks find exactly the reasons.** -/
theorem checkGuided_eq_ok_iff (agreement : incidence.Agreement) {given : Option Fractional} :
    (∃ checked, checkGuided incidence given options = .ok checked) ↔
      ¬ Refused incidence options given := by
  cases given with
  | none =>
    constructor
    · rintro ⟨checked, impossible⟩
      cases impossible
    · intro allowed
      exact absurd .missing allowed
  | some fractional =>
    simp only [checkGuided_some_eq_ok_iff, Fractional.agrees?_eq_ok_iff]
    constructor
    · rintro ⟨_, workers, rounds, ⟨paths, sets⟩, support, rfl⟩ refused
      cases refused with
      | workers given few => exact absurd (workers _ given) (by omega)
      | rounds given few => exact absurd (rounds _ given) (by omega)
      | pathCount differs => exact differs paths
      | setCount differs => exact differs sets
      | unsupported within inactive =>
        obtain ⟨set, below, listed, positive⟩ :=
          (checkSupport_eq_ok_iff agreement sets.le).mp support _ within
        exact inactive set below listed positive
    · intro allowed
      have paths : (incidence.pathCount : Int) = fractional.pathCount := by
        by_contra differs
        exact allowed (.pathCount differs)
      have sets : incidence.setCount = fractional.setCount := by
        by_contra differs
        exact allowed (.setCount differs)
      refine ⟨fractional, fun workers given => ?_, fun rounds given => ?_, ⟨paths, sets⟩, ?_, rfl⟩
      · by_contra few
        exact allowed (.workers given (by omega))
      · by_contra few
        exact allowed (.rounds given (by omega))
      · rw [checkSupport_eq_ok_iff agreement sets.le]
        intro path within
        by_contra inactive
        push Not at inactive
        exact allowed (.unsupported within inactive)

/-- The numbers of workers and of rounds are positive, where they are given. -/
def Options.ArePositive (options : Options) : Prop :=
  (∀ workers ∈ options.workers, 1 ≤ workers) ∧ ∀ rounds ∈ options.maxRounds, 1 ≤ rounds

/-- **Only the support** is left to be checked if the numbers are positive and the solution belongs
to the relation. -/
theorem checkGuided_eq_map (positive : options.ArePositive)
    (agrees : fractional.agrees? incidence = .ok ()) :
    checkGuided incidence (some fractional) options =
      (checkSupport incidence fractional.activities).map fun _ => fractional := by
  have rest : (do fractional.agrees? incidence
                  checkSupport incidence fractional.activities
                  pure fractional : Except Fault Fractional) =
      (checkSupport incidence fractional.activities).map fun _ => fractional := by
    rw [agrees]
    cases checkSupport incidence fractional.activities <;> rfl
  have allowed : ∀ count : Int, 1 ≤ count → ¬ count < 1 := fun count => not_lt.mpr
  rw [← rest, checkGuided]
  cases workers : options.workers with
  | none =>
    cases rounds : options.maxRounds with
    | none => rfl
    | some count => exact if_neg (allowed count (positive.2 count rounds))
  | some count =>
    refine (if_neg (allowed count (positive.1 count workers))).trans ?_
    cases rounds : options.maxRounds with
    | none => rfl
    | some count => exact if_neg (allowed count (positive.2 count rounds))

/-- What was checked is the solution given. -/
theorem checkGuided_same {given : Option Fractional}
    (run : checkGuided incidence given options = .ok checked) : given = some checked := by
  cases given with
  | none => cases run
  | some fractional => rw [(checkGuided_some_eq_ok_iff.mp run).2.2.2.2]

/-- A solution that is not refused passes the checks. -/
theorem checkGuided_of_allowed (agreement : incidence.Agreement)
    (allowed : ¬ Refused incidence options (some checked)) :
    checkGuided incidence (some checked) options = .ok checked := by
  obtain ⟨other, checks⟩ := (checkGuided_eq_ok_iff agreement).mpr allowed
  rwa [← Option.some_inj.mp (checkGuided_same checks)] at checks

/-- **Otherwise no round can fail.** -/
theorem ready_of_checked (agreement : incidence.Agreement) (accepted : checked.IsAccepted)
    {given : Option Fractional} (run : checkGuided incidence given options = .ok checked) :
    (guidedTask incidence checked options).Ready := by
  obtain rfl := checkGuided_same run
  obtain ⟨_, _, agrees, support, _⟩ := checkGuided_some_eq_ok_iff.mp run
  have sets := (Fractional.agrees?_eq_ok_iff.mp agrees).2
  refine ⟨agreement, fun path within => ?_⟩
  exact supported_hitting agreement sets.le
    (fun activity member => accepted.activity_units member)
    ((checkSupport_eq_ok_iff agreement sets.le).mp support) within

/-- Without a round there is no path. -/
theorem pathCount_of_budget {given : Option Fractional}
    (run : checkGuided incidence given options = .ok checked)
    (spent : (options.budget incidence).toNat = 0) : incidence.pathCount = 0 := by
  obtain rfl := checkGuided_same run
  obtain ⟨_, some_rounds, _⟩ := checkGuided_some_eq_ok_iff.mp run
  rw [Options.budget] at spent
  cases rounds : options.maxRounds with
  | none =>
    rw [rounds, Option.getD_none] at spent
    omega
  | some given =>
    have positive := some_rounds given rounds
    rw [rounds, Option.getD_some] at spent
    omega

/-! ### Endings -/

variable {σ : Type} [RandomStream σ]

/-- The rounds of a ready task, each on its own stream. -/
theorem Task.Ready.exists_rounds {task : Task} (ready : task.Ready)
    {streamAt : Nat → Except Fault σ} (streams : ∀ index, ∃ stream, streamAt index = .ok stream) :
    ∃ rounds : Nat → Round, ∀ index, task.roundAt streamAt index = .ok (rounds index) ∧
      Round.Sound task.incidence (rounds index) := by
  have each : ∀ index, ∃ round, task.roundAt streamAt index = .ok round ∧
      Round.Sound task.incidence round := by
    intro index
    obtain ⟨stream, given⟩ := streams index
    obtain ⟨round, ran, sound⟩ := ready.yields_round.exists_ok ⟨stream, #[]⟩
    refine ⟨round, ?_, sound⟩
    rw [Task.roundAt, given]
    exact ran
  exact ⟨fun index => (each index).choose, fun index => (each index).choose_spec⟩

/-- How many rounds a run may make. -/
def Options.limit (options : Options) (incidence : Incidence) : Nat :=
  (options.budget incidence).toNat

/-- The restarts of a guided run, on the stream at hand or each on its own one. -/
def Task.restarts (task : Task) (streamAt : Nat → Except Fault σ) (workers : Option Int)
    (budget : Nat) : Run σ RestartResult :=
  match workers with
  | none => task.restart budget
  | some _ => task.restartPool streamAt budget

/-- Once all has been checked, a guided run is a run of its restarts. -/
theorem solveGuidedOn_run (streamAt : Nat → Except Fault σ) {given : Option Fractional}
    (checks : checkGuided incidence given options = .ok checked) {desk after : Desk σ}
    {result : Except Fault RestartResult}
    (ran : ((guidedTask incidence checked options).restarts streamAt options.workers
      (options.limit incidence)).run.run desk = (result, after)) :
    (solveGuidedOn streamAt incidence given options).run.run desk =
      (result.map (guidedOutcome incidence checked options), after) := by
  have mapped : ∀ run : Run σ RestartResult, run.run.run desk = (result, after) →
      (run >>= fun result => pure (guidedOutcome incidence checked options result)).run.run desk =
        (result.map (guidedOutcome incidence checked options), after) := by
    intro run ran
    rw [Run.run_bind, ran]
    cases result <;> rfl
  rw [solveGuidedOn, checks]
  cases workers : options.workers with
  | none =>
    rw [workers] at ran
    exact mapped _ ran
  | some count =>
    rw [workers] at ran
    exact mapped _ ran

/-- The run itself is one of its endings. -/
theorem solveGuidedOn_ending (desk : Desk σ) (streamAt : Nat → Except Fault σ)
    (incidence : Incidence) (given : Option Fractional) (options : Options) :
    GuidedEnding desk streamAt incidence given options
      ((solveGuidedOn streamAt incidence given options).run.run desk).1 := by
  cases checks : checkGuided incidence given options with
  | error fault =>
    rw [solveGuidedOn, checks]
    exact .refused checks
  | ok checked =>
    obtain rfl := checkGuided_same checks
    obtain ⟨some_worker, _⟩ := checkGuided_some_eq_ok_iff.mp checks
    rw [solveGuidedOn_run streamAt checks rfl]
    cases workers : options.workers with
    | none => exact .sequence checks workers
    | some count =>
      have positive : 1 ≤ count.toNat := by
        have given := some_worker count workers
        omega
      obtain ⟨final, reached, ending⟩ := Task.restartPool_ending positive _ desk
      exact .pool checks workers reached ending

/-- What a round returns, on the streams of a pool as on any others. -/
theorem Task.of_roundAt {task : Task} {good : Round → Prop}
    (each : Run.Returns (task.round : Run σ Round) good) {streamAt : Nat → Except Fault σ}
    {index : Nat} {round : Round} (computed : task.roundAt streamAt index = .ok round) :
    good round := by
  obtain ⟨stream, _, ran⟩ := Except.bind_eq_ok_iff.mp computed
  exact each ⟨stream, #[]⟩ round ran

/-- **What an ending without a fault is made of**: the record of some rounds, all of the budget
unless one of them reached the bound. -/
structure GuidedRecord (incidence : Incidence) (options : Options) (good : Round → Prop)
    (checked : Fractional) (rounds : List Round) (outcome : Outcome) : Prop where
  made : ∃ result : RestartResult, outcome = guidedOutcome incidence checked options result ∧
    result.progress.Records rounds
  each : ∀ round ∈ rounds, good round
  stops : rounds.length < (options.budget incidence).toNat →
    ∃ round ∈ rounds, (round.pruned.size : Int) ≤ checked.lowerBound

/-- **Every ending without a fault** is the record of some rounds, however the restarts
interleave. -/
theorem GuidedEnding.exists_record {good : Round → Prop} {desk : Desk σ}
    {streamAt : Nat → Except Fault σ} {given : Option Fractional} {result : Except Fault Outcome}
    (ending : GuidedEnding desk streamAt incidence given options result) {outcome : Outcome}
    (ended : result = .ok outcome)
    (each : ∀ checked, checkGuided incidence given options = .ok checked →
      Run.Returns ((guidedTask incidence checked options).round : Run σ Round) good) :
    ∃ checked rounds, checkGuided incidence given options = .ok checked ∧
      GuidedRecord incidence options good checked rounds outcome := by
  cases ending with
  | refused => cases ended
  | @sequence checked checks single =>
    obtain ⟨final, ran, rfl⟩ := Except.map_eq_ok_iff.mp ended
    obtain ⟨rounds, held, rfl, stopped⟩ :=
      Task.returns_restart (each checked checks) _ desk final ran
    have records := RestartResult.records_ofRounds rounds
    exact ⟨checked, rounds, checks, ⟨_, rfl, records⟩, held,
      fun early => records.hasReached_iff.mp (stopped early)⟩
  | @pool checked workers state final checks pooled reached past =>
    cases past with
    | failed => cases ended
    | finished past unfailed =>
      cases ended
      obtain ⟨log, valid⟩ := reached.exists_valid
      refine ⟨checked, log.map Prod.snd, checks, ⟨_, rfl, valid.records⟩, fun round member => ?_,
        fun early => ?_⟩
      · obtain ⟨entry, logged, rfl⟩ := List.mem_map.mp member
        exact Task.of_roundAt (each checked checks) (valid.outcomes entry logged)
      · rw [← valid.records.counted] at early
        exact valid.records.hasReached_iff.mp (valid.hasReached_of_lt unfailed past early)

/-- The cover has what the pruned covers of all rounds have, and the empty one if there is no
path. -/
theorem GuidedRecord.cover_induct (good : List Int → Prop) {rounds : List Round}
    {given : Option Fractional} {outcome : Outcome}
    (record : GuidedRecord incidence options (fun round => good round.pruned.members) checked
      rounds outcome)
    (checks : checkGuided incidence given options = .ok checked)
    (none_needed : incidence.pathCount = 0 → good []) : good outcome.cover := by
  obtain ⟨result, rfl, records⟩ := record.made
  refine records.cover_induct record.each fun none_ran => none_needed ?_
  refine pathCount_of_budget checks ?_
  by_contra some_budget
  subst none_ran
  obtain ⟨round, member, _⟩ := record.stops (Nat.pos_of_ne_zero some_budget)
  cases member

/-- **The cover of an ending** has what the pruned covers of all rounds have, however the restarts
interleave. -/
theorem GuidedEnding.cover_induct (good : List Int → Prop) {desk : Desk σ}
    {streamAt : Nat → Except Fault σ} {given : Option Fractional} {outcome : Outcome}
    (ending : GuidedEnding desk streamAt incidence given options (.ok outcome))
    (each : ∀ checked, Run.Returns
      ((guidedTask incidence checked options).round : Run σ Round) fun round =>
        good round.pruned.members)
    (none_needed : incidence.pathCount = 0 → good []) : good outcome.cover := by
  obtain ⟨checked, rounds, checks, record⟩ := ending.exists_record rfl fun checked _ => each checked
  exact record.cover_induct good checks none_needed

/-- **What a guided run returns**: a sound cover and the bound of the solution. It only stops before
the budget is spent when the cover is as small as the bound. -/
structure Outcome.FromGuided (incidence : Incidence) (options : Options) (fractional : Fractional)
    (outcome : Outcome) : Prop where
  sound : SoundCover incidence outcome.cover
  bound : outcome.lowerBound = some fractional.lowerBound
  stops : (outcome.rounds : Int) < options.budget incidence →
    (outcome.size : Int) ≤ fractional.lowerBound

/-- **Every ending without a fault** is one of these, whatever the streams are and however the
restarts interleave. -/
theorem GuidedEnding.fromGuided (agreement : incidence.Agreement)
    (accepted : fractional.IsAccepted) {desk : Desk σ} {streamAt : Nat → Except Fault σ}
    {result : Except Fault Outcome}
    (ending : GuidedEnding desk streamAt incidence (some fractional) options result)
    {outcome : Outcome} (ended : result = .ok outcome) :
    outcome.FromGuided incidence options fractional := by
  have each : ∀ checked, checkGuided incidence (some fractional) options = .ok checked →
      Run.Returns ((guidedTask incidence checked options).round : Run σ Round)
        fun round => SoundCover incidence round.pruned.members := by
    intro checked checks
    cases checkGuided_same checks
    exact (ready_of_checked agreement accepted checks).yields_round.returns.mono
      fun _ sound => sound.pruned
  obtain ⟨checked, rounds, checks, record⟩ := ending.exists_record ended each
  cases checkGuided_same checks
  have sound := record.cover_induct (SoundCover incidence) checks soundCover_nil
  obtain ⟨result, rfl, records⟩ := record.made
  refine ⟨sound, rfl, fun early => ?_⟩
  have few : rounds.length < (options.budget incidence).toNat := by
    change (result.progress.rounds : Int) < _ at early
    rw [records.counted] at early
    omega
  obtain ⟨round, member, small⟩ := record.stops few
  exact le_trans (Int.ofNat_le.mpr (records.smallest round member)) small

/-- **A run that is not refused** ends without a fault if it is given its streams. -/
theorem GuidedEnding.exists_ok (agreement : incidence.Agreement) {given : Option Fractional}
    (accepted : ∀ fractional ∈ given, fractional.IsAccepted) {desk : Desk σ}
    {streamAt : Nat → Except Fault σ} (streams : ∀ index, ∃ stream, streamAt index = .ok stream)
    {result : Except Fault Outcome}
    (ending : GuidedEnding desk streamAt incidence given options result)
    (allowed : ¬ Refused incidence options given) : ∃ outcome, result = .ok outcome := by
  obtain ⟨checked, checks⟩ := (checkGuided_eq_ok_iff agreement).mpr allowed
  have known := accepted checked (Option.mem_def.mpr (checkGuided_same checks))
  have ready := ready_of_checked agreement known checks
  cases ending with
  | refused failed =>
    rw [checks] at failed
    cases failed
  | @sequence other again single =>
    rw [checks] at again
    cases again
    obtain ⟨final, ran, _⟩ :=
      (ready.yields_restart (options.budget incidence).toNat).exists_ok desk
    rw [ran]
    exact ⟨_, rfl⟩
  | @pool other workers state final again pooled reached past =>
    rw [checks] at again
    cases again
    obtain ⟨rounds, each⟩ := ready.exists_rounds streams
    obtain ⟨log, valid⟩ := reached.exists_valid
    cases past with
    | finished => exact ⟨_, rfl⟩
    | failed _ inRange failed =>
      exact absurd failed (valid.not_failed (fun index _ => (each index).1) _ inRange _)

/-- A run that is refused ends with a fault. -/
theorem GuidedEnding.error_of_refused (agreement : incidence.Agreement)
    {given : Option Fractional} {desk : Desk σ} {streamAt : Nat → Except Fault σ}
    {result : Except Fault Outcome}
    (ending : GuidedEnding desk streamAt incidence given options result)
    (refused : Refused incidence options given) : ∃ fault, result = .error fault := by
  have unchecked : ∀ checked, checkGuided incidence given options ≠ .ok checked :=
    fun checked checks => (checkGuided_eq_ok_iff agreement).mp ⟨checked, checks⟩ refused
  cases ending with
  | refused => exact ⟨_, rfl⟩
  | sequence checks => exact absurd checks (unchecked _)
  | pool checks => exact absurd checks (unchecked _)

/-- **What is promised of a guided run** on streams of some kind: it ends, with a fault exactly if
it is refused and otherwise with a sound cover; no round fails; a pool is never stuck, and no
schedule of it goes on forever. -/
structure GuidedTotal (desk : Desk σ) (streamAt : Nat → Except Fault σ) (incidence : Incidence)
    (given : Option Fractional) (options : Options) : Prop where
  ends : ∃ result, GuidedEnding desk streamAt incidence given options result
  fails : ∀ result, GuidedEnding desk streamAt incidence given options result →
    ((∃ fault, result = .error fault) ↔ Refused incidence options given)
  sound : ∀ outcome, GuidedEnding desk streamAt incidence given options (.ok outcome) →
    SoundCover incidence outcome.cover
  rounds : ∀ checked, checkGuided incidence given options = .ok checked →
    Run.Yields ((guidedTask incidence checked options).round : Run σ Round)
      (Round.Sound incidence)
  proceeds : ∀ checked, checkGuided incidence given options = .ok checked →
    ∀ workers, options.workers = some workers → ∀ state,
      Interleaving.Reached checked.lowerBound
        ((guidedTask incidence checked options).roundAt streamAt) workers.toNat
        (options.budget incidence).toNat state →
      state.HasEnded (options.budget incidence).toNat ∨
        ∃ next, Interleaving.Step checked.lowerBound
          ((guidedTask incidence checked options).roundAt streamAt) workers.toNat
          (options.budget incidence).toNat state next
  stops : ∀ checked, checkGuided incidence given options = .ok checked →
    ∀ workers, options.workers = some workers → ∀ run : Nat → Interleaving, run 0 = .start →
      ∃ time, ¬ Interleaving.Step checked.lowerBound
        ((guidedTask incidence checked options).roundAt streamAt) workers.toNat
        (options.budget incidence).toNat (run time) (run (time + 1))

theorem guidedTotal (agreement : incidence.Agreement) {given : Option Fractional}
    (accepted : ∀ fractional ∈ given, fractional.IsAccepted) (desk : Desk σ)
    {streamAt : Nat → Except Fault σ} (streams : ∀ index, ∃ stream, streamAt index = .ok stream) :
    GuidedTotal desk streamAt incidence given options where
  ends := ⟨_, solveGuidedOn_ending desk streamAt incidence given options⟩
  fails result ending := by
    constructor
    · rintro ⟨fault, rfl⟩
      by_contra allowed
      obtain ⟨outcome, impossible⟩ := ending.exists_ok agreement accepted streams allowed
      cases impossible
    · exact ending.error_of_refused agreement
  sound outcome ending := by
    by_cases refused : Refused incidence options given
    · obtain ⟨fault, impossible⟩ := ending.error_of_refused agreement refused
      cases impossible
    · obtain ⟨checked, checks⟩ := (checkGuided_eq_ok_iff agreement).mpr refused
      obtain rfl := checkGuided_same checks
      exact (ending.fromGuided agreement (accepted checked rfl) rfl).sound
  rounds checked checks := by
    have known := accepted checked (Option.mem_def.mpr (checkGuided_same checks))
    exact (ready_of_checked agreement known checks).yields_round
  proceeds checked checks workers pooled state _ := by
    obtain rfl := checkGuided_same checks
    have positive := (checkGuided_some_eq_ok_iff.mp checks).1 workers pooled
    exact Interleaving.hasEnded_or_step (by omega) state
  stops _ _ _ _ _ starts := Interleaving.exists_not_step starts

theorem streamAt_eq_ok (natural : 0 ≤ options.seed) (index : Nat) :
    options.streamAt index = .ok (streamOf options.seed.toNat index) := by
  rw [Options.streamAt, streamOf?, if_neg (by omega), Int.toNat_natCast]

/-- The rounds that the restarts of a pool compute from the seed. -/
theorem exists_pool_rounds (agreement : incidence.Agreement) (accepted : checked.IsAccepted)
    (natural : 0 ≤ options.seed)
    (checks : checkGuided incidence (some checked) options = .ok checked) :
    ∃ rounds : Nat → Round, ∀ index,
      (guidedTask incidence checked options).roundAt options.streamAt index =
          .ok (rounds index) ∧
        Round.Sound incidence (rounds index) :=
  (ready_of_checked agreement accepted checks).exists_rounds
    fun index => ⟨_, streamAt_eq_ok natural index⟩

/-- What the guided algorithm returns and reports, on the stream of its seed. -/
theorem solve_guided_eq {given : Option Fractional} {result : Except Fault Outcome}
    {after : Desk Twister}
    (ran : (solveGuidedOn options.streamAt incidence given options).run.run
      ⟨.ofSeed options.seed, #[]⟩ = (result, after)) :
    solve .guided incidence given options = (result, after.events) := by
  show (((solveGuidedOn options.streamAt incidence given options).run.run
      ⟨.ofSeed options.seed, #[]⟩).1, ((solveGuidedOn options.streamAt incidence given
        options).run.run ⟨.ofSeed options.seed, #[]⟩).2.events) = _
  rw [ran]

/-- What the guided algorithm returns is one of its endings. -/
theorem solve_guided_ending (incidence : Incidence) (given : Option Fractional)
    (options : Options) :
    GuidedEnding ⟨.ofSeed options.seed, #[]⟩ options.streamAt incidence given options
      (solve .guided incidence given options).1 :=
  solveGuidedOn_ending _ options.streamAt incidence given options

/-- **A guided run fails exactly if it is refused, and otherwise returns a sound cover**, on the
streams of its seed as on streams of any other kind. -/
theorem guided_run_total {sets : List (List Int)} {pathCount : Option Int} {incidence : Incidence}
    (built : Incidence.ofSets? sets pathCount = .ok incidence) {given : Option Fractional}
    (accepted : ∀ fractional ∈ given, fractional.IsAccepted) {options : Options}
    (natural : 0 ≤ options.seed) :
    ((∃ fault, (solve .guided incidence given options).1 = .error fault) ↔
        Refused incidence options given) ∧
      (∀ outcome, (solve .guided incidence given options).1 = .ok outcome →
        SoundCover incidence outcome.cover) ∧
      ∀ (σ : Type) [RandomStream σ] (desk : Desk σ) (streamAt : Nat → Except Fault σ),
        (∀ index, ∃ stream, streamAt index = .ok stream) →
        GuidedTotal desk streamAt incidence given options := by
  have agreement := Incidence.agreement_of_ofSets? built
  have seeded : GuidedTotal ⟨.ofSeed options.seed, #[]⟩ options.streamAt incidence given options :=
    guidedTotal agreement accepted _ fun index => ⟨_, streamAt_eq_ok natural index⟩
  have ending := solve_guided_ending incidence given options
  refine ⟨seeded.fails _ ending, fun outcome returned => ?_, fun σ _ desk streamAt streams => ?_⟩
  · rw [returned] at ending
    exact seeded.sound outcome ending
  · exact guidedTotal agreement accepted desk streams

/-! ### A hexagon -/

/-- The sides of a hexagon, each with the two corners that it joins: every set is a corner, every
path a side. -/
def hexagon : Incidence :=
  ⟨#[[0, 1], [3, 4], [1, 2], [4, 5], [2, 3], [5, 0]],
    #[[0, 5], [0, 2], [2, 4], [1, 4], [1, 3], [3, 5]]⟩

theorem hexagon_built :
    Incidence.ofSets? [[0, 1], [3, 4], [1, 2], [4, 5], [2, 3], [5, 0]] none = .ok hexagon := by
  decide +kernel

/-- Half of every corner, which is optimal. -/
def halves : Fractional := ⟨6, .ofInt 3, Array.replicate 6 (.ofDecimal false ⟨5, -1⟩)⟩

theorem halves_accepted : halves.IsAccepted := by
  rw [Fractional.isAccepted_iff]
  decide +kernel

theorem not_refused_halves {options : Options} (workers : options.workers.all (1 ≤ ·))
    (rounds : options.maxRounds.all (1 ≤ ·)) : ¬ Refused hexagon options (some halves) := by
  have agreement := Incidence.agreement_of_ofSets? hexagon_built
  have sizes : hexagon.setCount = halves.activities.size := by decide +kernel
  have agrees := Fractional.agrees?_eq_ok_iff.mpr ⟨by decide +kernel, sizes⟩
  rw [← checkGuided_eq_ok_iff agreement]
  refine ⟨halves, checkGuided_some_eq_ok_iff.mpr ⟨?_, ?_, agrees, ?_, rfl⟩⟩
  · intro given same
    rw [same] at workers
    simpa using workers
  · intro given same
    rw [same] at rounds
    simpa using rounds
  · rw [checkSupport_eq_ok_iff agreement sizes.le]
    show ∀ path < 6, ∃ set < 6, ((path : Nat) : Int) ∈ hexagon.listed (set : Nat) ∧
      (activityAt halves.activities (set : Nat)).isPositive
    decide +kernel

/-- The hexagon is solved with the default options. -/
theorem guided_run_hexagon : ∃ outcome, (solve .guided hexagon (some halves) {}).1 = .ok outcome ∧
    SoundCover hexagon outcome.cover := by
  have accepted : ∀ fractional ∈ some halves, fractional.IsAccepted := by
    rintro fractional ⟨⟩
    exact halves_accepted
  have natural : 0 ≤ ({} : Options).seed := le_refl 0
  obtain ⟨fails, sound, _⟩ := guided_run_total hexagon_built accepted natural
  cases solved : (solve .guided hexagon (some halves) {}).1 with
  | error fault => exact absurd (fails.mp ⟨fault, solved⟩) (not_refused_halves rfl rfl)
  | ok outcome => exact ⟨outcome, rfl, sound outcome solved⟩

end Transversal
