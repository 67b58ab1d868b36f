/-
**A suite whose relaxations are solved records one run for every slot.**

* `Suite.Adds`: from wherever it starts, a part of a suite ends without a fault and adds a block
  with a property to the records; one rule for each of the ways to build a part.
* `Slot`: a configuration, a trial and an algorithm; `Plan.slots`: those of a plan, in order.
* `Plan.IsProper`: the plans that can be run; `Setting.Solves`: every relaxation of some sizes is
  solved, as it is by an optimizer that answers as it should (`solves_of_answered`).
* `adds_runAlgorithm`: one run adds one record; `exists_runSuite`: a suite adds one for every slot.
-/
import Transversal.Benchmark.Suite
import Transversal.Proofs.Benchmark.Generate
import Transversal.Proofs.Number.Whole
import Transversal.Proofs.Solver.Served

namespace Transversal.Benchmark

variable {α β ι : Type}

/-! ### What a part records -/

/-- **The part ends without a fault**, and its result and what it adds to the records have a
property, wherever the suite stands. -/
def Suite.Adds (part : Suite α) (good : α → List Record → Prop) : Prop :=
  ∀ state, ∃ value after block, part.run.run state = (.ok value, after) ∧
    after.records.toList = state.records.toList ++ block ∧ good value block

/-- The part adds no record. -/
def Suite.Quiet (part : Suite α) (property : α → Prop) : Prop :=
  Suite.Adds part fun value block => block = [] ∧ property value

namespace Suite

theorem adds_pure {good : α → List Record → Prop} {value : α} (holds : good value []) :
    Adds (pure value : Suite α) good :=
  fun state => ⟨value, state, [], rfl, (List.append_nil _).symm, holds⟩

/-- **A sequence** adds one block behind the other. -/
theorem Adds.bind {first : Suite α} {next : α → Suite β} {middle : α → List Record → Prop}
    {good : β → List Record → Prop} (before : Adds first middle)
    (afterwards : ∀ value block, middle value block →
      Adds (next value) fun result rest => good result (block ++ rest)) :
    Adds (first >>= next) good := by
  intro state
  obtain ⟨value, between, block, ran, added, holds⟩ := before state
  obtain ⟨result, after, rest, ran', added', holds'⟩ := afterwards value block holds between
  refine ⟨result, after, block ++ rest, ?_, ?_, holds'⟩
  · rw [ExceptT.run_bind, StateT.run_bind, ran]
    exact ran'
  · rw [added', added, List.append_assoc]

/-- Behind a part that adds nothing. -/
theorem Quiet.bind {first : Suite α} {next : α → Suite β} {middle : α → Prop}
    {good : β → List Record → Prop} (before : Quiet first middle)
    (afterwards : ∀ value, middle value → Adds (next value) good) :
    Adds (first >>= next) good := by
  refine Adds.bind before ?_
  rintro value _ ⟨rfl, holds⟩
  exact afterwards value holds

/-- A part that adds nothing at the end. -/
theorem Adds.then_quiet {first : Suite Unit} {last : Suite Unit} {good : List Record → Prop}
    (before : Adds first fun _ block => good block) (quiet : Quiet last fun _ => True) :
    Adds (first >>= fun _ => last) fun _ block => good block := by
  refine before.bind fun _ block holds state => ?_
  obtain ⟨value, after, _, ran, added, rfl, _⟩ := quiet state
  refine ⟨value, after, [], ran, added, ?_⟩
  show good (block ++ [])
  rwa [List.append_nil]

/-- A part that leaves the records as they are adds none. -/
theorem quiet_of_same {part : Suite α} {property : α → Prop}
    (ends : ∀ state, ∃ value after, part.run.run state = (.ok value, after) ∧
      after.records = state.records ∧ property value) : Quiet part property := by
  intro state
  obtain ⟨value, after, ran, same, holds⟩ := ends state
  exact ⟨value, after, [], ran, by rw [same, List.append_nil], rfl, holds⟩

theorem quiet_print (line : Line) : Quiet (print line) fun _ => True :=
  quiet_of_same fun _ => ⟨_, _, rfl, rfl, trivial⟩

theorem quiet_reportAll (events : List Event) : Quiet (reportAll events) fun _ => True :=
  quiet_of_same fun _ => ⟨_, _, rfl, rfl, trivial⟩

theorem quiet_get : Quiet (get : Suite State) fun _ => True :=
  quiet_of_same fun _ => ⟨_, _, rfl, rfl, trivial⟩

theorem quiet_lift {result : Except Fault α} {value : α} (ok : result = .ok value) :
    Quiet (lift result) (· = value) := by
  subst ok
  exact quiet_of_same fun state => ⟨value, state, rfl, rfl, rfl⟩

/-- A computation on the stream adds no record. -/
theorem quiet_onStream {run : Run Twister α} {property : α → Prop}
    (yields : Run.Yields run property) : Quiet (onStream run) property := by
  refine quiet_of_same fun state => ?_
  obtain ⟨value, desk, ran, holds⟩ := yields state.desk
  refine ⟨value, { state with desk := desk }, ?_, rfl, holds⟩
  show (lift (run.run.run state.desk).1).run.run
    { state with desk := (run.run.run state.desk).2 } = _
  rw [ran]
  rfl

/-- A record added. -/
theorem adds_record {good : List Record → Prop} {record : Record} (holds : good [record]) :
    Adds (modify fun state => { state with records := state.records.push record } : Suite Unit)
      fun _ block => good block :=
  fun _ => ⟨_, _, [record], rfl, Array.toList_push, holds⟩

/-- **A loop** adds what every entry adds, one behind the other. -/
theorem adds_forM {fits : α → Record → Prop} {slots : ι → List α} {entries : List ι}
    {part : ι → Suite Unit} (each : ∀ entry ∈ entries,
      Adds (part entry) fun _ block => List.Forall₂ fits (slots entry) block) :
    Adds (entries.forM part) fun _ block => List.Forall₂ fits (entries.flatMap slots) block := by
  induction entries with
  | nil => exact adds_pure .nil
  | cons entry rest ih =>
    rw [List.forall_mem_cons] at each
    show Adds (part entry >>= fun _ => rest.forM part) _
    refine each.1.bind fun _ block added => ?_
    intro state
    obtain ⟨value, after, others, ran, grown, added'⟩ := ih each.2 state
    exact ⟨value, after, others, ran, grown, List.rel_append added added'⟩

end Suite

/-! ### Plans that can be run -/

/-- What one run is made for. -/
structure Slot where
  config : Configuration
  trial : Nat
  algorithm : String

/-- The runs on one random relation. -/
def Plan.trialSlots (plan : Plan) (config : Configuration) (trial : Nat) : List Slot :=
  plan.algorithms.flatMap fun algorithm => [⟨config, trial, algorithm⟩]

/-- **The runs of a plan**, the algorithms varying fastest. -/
def Plan.slots (plan : Plan) (trials : Nat) : List Slot :=
  plan.configurations.flatMap fun config => (List.range trials).flatMap (plan.trialSlots config)

/-- **The record of a run**: it tells what the run was made for, and that it returned a cover. -/
structure Record.IsOf (slot : Slot) (record : Record) : Prop where
  algorithm : record.algorithm = slot.algorithm
  trial : record.trial = slot.trial
  config : record.config = slot.config.name
  made : (⟨record.pathCount, record.setCount, record.density⟩ : Configuration) = slot.config
  valid : record.valid = true
  natural : 0 ≤ record.size
  small : record.size ≤ record.pathCount
  bound : (Binary64.ofInt record.lowerBound).isFinite

/-- **A plan that can be run**: no path count is negative, every set count is positive, there is an
algorithm and all of them are known, and there is a trial. If the guided algorithm is among them and
a number of workers is given, it is positive and the seed is not negative. -/
structure Plan.IsProper (plan : Plan) (trials : Nat) : Prop where
  paths : ∀ pathCount ∈ plan.pathCounts, 0 ≤ pathCount
  sets : ∀ setCount ∈ plan.setCounts, 1 ≤ setCount
  some_algorithm : plan.algorithms ≠ []
  known : ∀ name ∈ plan.algorithms, ∃ algorithm, Algorithm.ofName? name = .ok algorithm
  repeated : plan.trials = .value (trials : Int)
  some_trial : 1 ≤ trials
  pooled : Algorithm.guided.name ∈ plan.algorithms → ∀ given ∈ plan.workers,
    ∃ workers, given = .value workers ∧ 1 ≤ workers ∧ 0 ≤ plan.seed

/-- **Every relaxation of these sizes is solved**: it gives a solution that serves. -/
def Setting.Solves (setting : Setting) (config : Configuration) : Prop :=
  ∀ family incidence, Incidence.ofSets? family none = .ok incidence →
    incidence.pathCount = config.pathCount.toNat → incidence.setCount = config.setCount.toNat →
    ∃ fractional, (setting.relax incidence).1 = .ok fractional ∧ fractional.Serves incidence

/-- It does if the optimizer answers all programs of relations of these sizes as it should. -/
theorem solves_of_answered {optimizer : Optimizer} {runtime : Nat → Binary64}
    {config : Configuration} (answered : ∀ family incidence program,
      Incidence.ofSets? family none = .ok incidence →
      incidence.pathCount = config.pathCount.toNat → incidence.setCount = config.setCount.toNat →
      CoveringProgram.ofIncidence? incidence = .ok program →
      ∃ values objective, optimizer program = .optimal values objective ∧
        program.IsAnswered values objective) :
    Setting.Solves ⟨relax optimizer, runtime⟩ config := by
  intro family incidence built paths sets
  have agreement := Incidence.agreement_of_ofSets? built
  have relaxed := CoveringProgram.ofIncidence?_eq_ok agreement
  obtain ⟨values, objective, told, good⟩ := answered family incidence _ built paths sets relaxed
  exact good.serves agreement relaxed told

variable {plan : Plan} {trials : Nat}

theorem mem_configurations {config : Configuration} : config ∈ plan.configurations ↔
    config.pathCount ∈ plan.pathCounts ∧ config.setCount ∈ plan.setCounts ∧
      config.density ∈ plan.densities := by
  simp only [Plan.configurations, List.mem_flatMap, List.mem_map]
  constructor
  · rintro ⟨pathCount, path, setCount, set, density, dense, rfl⟩
    exact ⟨path, set, dense⟩
  · rintro ⟨path, set, dense⟩
    exact ⟨_, path, _, set, _, dense, rfl⟩

/-- A name is that of the algorithm it is found by. -/
theorem name_of_ofName? {name : String} {algorithm : Algorithm}
    (found : Algorithm.ofName? name = .ok algorithm) : algorithm.name = name := by
  unfold Algorithm.ofName? at found
  split at found
  · rename_i known
    cases found
    have named := List.find?_some known
    exact of_decide_eq_true named
  · cases found

/-- Every run is given an algorithm, and options that it can run with. -/
theorem Plan.IsProper.exists_options (proper : plan.IsProper trials) {name : String}
    (member : name ∈ plan.algorithms) (trial : Nat) : ∃ algorithm options,
      Algorithm.ofName? name = .ok algorithm ∧ plan.options? algorithm trial = .ok options ∧
        (algorithm = .guided → options.AreFit) := by
  obtain ⟨algorithm, found⟩ := proper.known name member
  have plain : ∀ seed : Int, ({ seed := seed } : Options).AreFit :=
    fun seed => ⟨⟨nofun, nofun⟩, fun pooled => absurd rfl pooled⟩
  cases algorithm with
  | largest => exact ⟨.largest, _, found, rfl, nofun⟩
  | guided =>
    rw [← name_of_ofName? found] at member
    cases given : plan.workers with
    | none => exact ⟨.guided, _, found, by unfold Plan.options?; rw [given], fun _ => plain _⟩
    | some content =>
      obtain ⟨workers, rfl, positive, natural⟩ := proper.pooled member content given
      refine ⟨.guided, { seed := plan.seed + trial, workers := some workers }, found, ?_,
        fun _ => ⟨⟨?_, nofun⟩, fun _ => ?_⟩⟩
      · unfold Plan.options?
        rw [given]
        rfl
      · rintro _ ⟨⟩
        exact positive
      · show 0 ≤ plan.seed + trial
        omega

/-! ### Runs -/

/-- A random relation of the sizes asked for. -/
theorem yields_generate {σ : Type} [RandomStream σ] {pathCount setCount : Int}
    (someSet : 1 ≤ setCount) (density : Binary64) :
    Run.Yields (generate pathCount setCount density : Run σ Incidence) fun incidence =>
      ∃ family, Incidence.ofSets? family none = .ok incidence ∧
        incidence.pathCount = pathCount.toNat ∧ incidence.setCount = setCount.toNat := by
  intro desk
  obtain ⟨family, after, repaired, rising, run⟩ := exists_gathered someSet density desk
  obtain ⟨incidence, built, generated⟩ := exists_generated repaired rising
  refine ⟨incidence, { desk with stream := after }, ?_, family, built, generated.paths,
    generated.sets⟩
  rw [generate_eq, Run.run_bind, run]
  dsimp only
  rw [built]
  rfl

/-- The bound of a solution is a number that a double can hold. -/
theorem isFinite_lowerBound (fractional : Fractional) :
    (Binary64.ofInt fractional.lowerBound).isFinite := by
  rw [Fractional.lowerBound]
  cases rounded : (fractional.sum - roundingSlack).ceil? with
  | none => decide +kernel
  | some value => exact Binary64.isFinite_ofInt_ceil rounded

section Runs

variable {setting : Setting} {config : Configuration} {trial : Nat}

open Suite

/-- **One run adds its record.** -/
theorem adds_runAlgorithm (proper : plan.IsProper trials) {incidence : Incidence}
    {fractional : Fractional} (agreement : incidence.Agreement)
    (natural : 0 ≤ config.pathCount) (paths : incidence.pathCount = config.pathCount.toNat)
    (serves : fractional.Serves incidence) {name : String} (member : name ∈ plan.algorithms) :
    Adds (runAlgorithm plan setting config trial incidence fractional name)
      fun _ block => List.Forall₂ Record.IsOf [⟨config, trial, name⟩] block := by
  obtain ⟨algorithm, options, found, chosen, fit⟩ := proper.exists_options member trial
  obtain ⟨outcome, solved, sound⟩ := serves.solve_ok agreement fit
  have few : (outcome.size : Int) ≤ config.pathCount := by
    have small := le_trans sound.small (min_le_left _ _)
    rw [Outcome.size]
    omega
  unfold runAlgorithm
  refine (quiet_lift found).bind ?_
  rintro _ rfl
  refine (quiet_lift chosen).bind ?_
  rintro _ rfl
  refine (quiet_reportAll _).bind fun _ _ => (quiet_lift solved).bind ?_
  rintro _ rfl
  refine (quiet_lift sound.covers).bind ?_
  rintro _ rfl
  refine quiet_get.bind fun state _ => (adds_record (.cons ?_ .nil)).then_quiet (quiet_print _)
  exact {
    algorithm := rfl
    trial := rfl
    config := rfl
    made := rfl
    valid := rfl
    natural := Int.natCast_nonneg _
    small := few
    bound := isFinite_lowerBound fractional }

/-- All algorithms on one random relation. -/
theorem adds_runTrial (proper : plan.IsProper trials) (member : config ∈ plan.configurations)
    (solves : setting.Solves config) :
    Adds (runTrial plan setting config trial)
      fun _ block => List.Forall₂ Record.IsOf (plan.trialSlots config trial) block := by
  obtain ⟨path, set, _⟩ := mem_configurations.mp member
  unfold runTrial
  refine (quiet_onStream (yields_generate (proper.sets _ set) config.density)).bind ?_
  rintro incidence ⟨family, built, paths, sets⟩
  obtain ⟨fractional, solved, serves⟩ := solves family incidence built paths sets
  refine (quiet_reportAll _).bind fun _ _ => (quiet_lift solved).bind ?_
  rintro _ rfl
  exact adds_forM fun name known => adds_runAlgorithm proper
    (Incidence.agreement_of_ofSets? built) (proper.paths _ path) paths serves known

/-- All trials of one configuration. -/
theorem adds_runConfiguration (proper : plan.IsProper trials)
    (member : config ∈ plan.configurations) (solves : setting.Solves config) (total number : Nat) :
    Adds (runConfiguration plan setting total config number) fun _ block =>
      List.Forall₂ Record.IsOf ((List.range trials).flatMap (plan.trialSlots config)) block := by
  have repeated : plan.trials.require .trials = .ok (trials : Int) := by
    rw [proper.repeated]
    rfl
  unfold runConfiguration
  refine (quiet_print _).bind fun _ _ => (quiet_lift repeated).bind ?_
  rintro _ rfl
  rw [Int.toNat_natCast]
  exact (adds_forM fun trial _ => adds_runTrial proper member solves).then_quiet (quiet_print _)

/-- All configurations. -/
theorem adds_runPlan (proper : plan.IsProper trials)
    (solves : ∀ config ∈ plan.configurations, setting.Solves config) :
    Adds (runPlan plan setting)
      fun _ block => List.Forall₂ Record.IsOf (plan.slots trials) block := by
  have same : plan.slots trials = (plan.configurations.zipIdx 1).flatMap fun entry =>
      (List.range trials).flatMap (plan.trialSlots entry.1) := by
    conv_lhs => rw [Plan.slots, ← List.zipIdx_map_fst 1 plan.configurations, List.flatMap_map]
  unfold runPlan
  refine (quiet_print _).bind fun _ _ => (quiet_print _).bind fun _ _ => ?_
  rw [same]
  refine adds_forM fun entry listed => ?_
  have member := List.fst_mem_of_mem_zipIdx listed
  exact adds_runConfiguration proper member (solves _ member) _ _

/-- **A suite ends without a fault**, and has recorded one run for every slot. -/
theorem exists_runSuite (proper : plan.IsProper trials)
    (solves : ∀ config ∈ plan.configurations, setting.Solves config) :
    ∃ state, runSuite plan setting = (.ok (), state) ∧
      List.Forall₂ Record.IsOf (plan.slots trials) state.records.toList := by
  obtain ⟨_, state, block, ran, added, each⟩ :=
    adds_runPlan proper solves ⟨⟨.ofSeed plan.seed, #[]⟩, #[], #[]⟩
  rw [List.nil_append] at added
  exact ⟨state, ran, added ▸ each⟩

end Runs

end Transversal.Benchmark
