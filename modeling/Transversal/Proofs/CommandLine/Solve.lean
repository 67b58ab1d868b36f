/-
**How the command ends, and what it prints, for all arguments and all files.**

* `SolveCommand.Loads`: the two files are read and belong together; `SolveCommand.Solvable`: what is
  needed to find a cover.
* `SolveCommand.Escapes`: what gets past the messages for errors.
* `SolveCommand.Attempted`: what an attempt may come to, however the restarts of a pool interleave.
* `SolveCommand.Conduct`: the three ways to end, with all that is printed.
* `SolveCommand.conduct_of_parse`: every run ends in one of them.
-/
import Transversal.Proofs.CommandLine.Files
import Transversal.Proofs.CommandLine.Settings
import Transversal.Proofs.Solver.Largest
import Transversal.Proofs.Solver.Told

namespace Transversal.SolveCommand

open CommandLine

/-! ### Files and settings -/

/-- **The two files are read and belong together.** -/
structure Loads (folder : Folder) (settings : Settings) (fractional : Fractional)
    (sets : List (List Int)) (incidence : Incidence) : Prop where
  report : readReport folder settings.report = .ok fractional
  coverage : readCoverage folder settings.coverage = .ok sets
  sizes : Incidence.sizeMismatch? sets fractional = none
  built : Incidence.ofSets? sets none = .ok incidence

/-- **What is needed to find a cover**: no value is blank, and for the guided algorithm every path
has an active set. -/
structure Solvable (folder : Folder) (settings : Settings) (fractional : Fractional)
    (incidence : Incidence) : Prop where
  loads : ∃ sets, Loads folder settings fractional sets incidence
  complete : ¬ settings.IsWanting
  supported : settings.algorithm = .value .guided → incidence.IsSupported fractional.activities

/-- **What gets past the messages for errors**: a name that is none, for a file that is come to; two
files whose sizes differ, with a number of paths that is too long to be told; or a blank. -/
inductive Escapes (folder : Folder) (settings : Settings) : Prop
  | report : IsNameless settings.report → Escapes folder settings
  | coverage {fractional} : readReport folder settings.report = .ok fractional →
      IsNameless settings.coverage → Escapes folder settings
  | sizes {fractional sets difference} : readReport folder settings.report = .ok fractional →
      readCoverage folder settings.coverage = .ok sets →
      Incidence.sizeMismatch? sets fractional = some difference →
      isWritable (Coverage.derivedPathCount sets) = false → Escapes folder settings
  | blank {fractional sets incidence} : Loads folder settings fractional sets incidence →
      settings.IsWanting → Escapes folder settings

variable {folder : Folder} {settings : Settings} {fractional : Fractional}
  {sets : List (List Int)} {incidence : Incidence}

namespace Loads

theorem isAccepted (loads : Loads folder settings fractional sets incidence) :
    fractional.IsAccepted := (ends_readReport.of_ok loads.report).1.accepted

theorem agrees (loads : Loads folder settings fractional sets incidence) :
    fractional.agrees? incidence = .ok () :=
  (Incidence.agrees_iff_of_ofSets? loads.built).mpr loads.sizes

theorem loaded (loads : Loads folder settings fractional sets incidence) :
    Incidence.load? sets (some fractional) = .ok incidence :=
  Incidence.load?_eq_ok_iff.mpr ⟨loads.sizes, loads.built⟩

/-- The same files are not loaded in two ways. -/
theorem unique {other : Fractional} {others : List (List Int)} {relation : Incidence}
    (loads : Loads folder settings fractional sets incidence)
    (again : Loads folder settings other others relation) :
    fractional = other ∧ sets = others ∧ incidence = relation := by
  obtain rfl := Except.ok.inj (loads.report.symm.trans again.report)
  obtain rfl := Except.ok.inj (loads.coverage.symm.trans again.coverage)
  exact ⟨rfl, rfl, Except.ok.inj (loads.built.symm.trans again.built)⟩

end Loads

section Stages

variable {fault : Fault}

/-- Nothing else than its name can go wrong unseen with a report that is not read. -/
theorem escapes_iff_of_report (failed : readReport folder settings.report = .error fault) :
    Escapes folder settings ↔ IsNameless settings.report := by
  refine ⟨fun escapes => ?_, .report⟩
  cases escapes with
  | report nameless => exact nameless
  | coverage report _ | sizes report _ _ _ => cases failed.symm.trans report
  | blank loads _ => cases failed.symm.trans loads.report

variable (report : readReport folder settings.report = .ok fractional)

include report

/-- The same for a coverage file, which comes after the report. -/
theorem escapes_iff_of_coverage (failed : readCoverage folder settings.coverage = .error fault) :
    Escapes folder settings ↔ IsNameless settings.coverage := by
  refine ⟨fun escapes => ?_, .coverage report⟩
  cases escapes with
  | report nameless => exact absurd nameless (ends_readReport.of_ok report).2
  | coverage _ nameless => exact nameless
  | sizes _ coverage _ _ => cases failed.symm.trans coverage
  | blank loads _ => cases failed.symm.trans loads.coverage

variable (coverage : readCoverage folder settings.coverage = .ok sets)
  (failed : Incidence.load? sets (some fractional) = .error fault)

include coverage failed

theorem not_loads_of_load {other : Fractional} {others : List (List Int)} {relation : Incidence} :
    ¬ Loads folder settings other others relation := by
  intro loads
  obtain rfl := Except.ok.inj (report.symm.trans loads.report)
  obtain rfl := Except.ok.inj (coverage.symm.trans loads.coverage)
  cases failed.symm.trans loads.loaded

/-- Files that are not loaded are told of, unless the number of paths is too long. -/
theorem escapes_iff_of_load : Escapes folder settings ↔ ¬ isHandled fault := by
  have writable := (ends_readReport.of_ok report).1.writable
  have listed := (ends_readCoverage.of_ok coverage).1
  rw [(Incidence.ends_load? listed writable).of_error failed]
  constructor
  · intro escapes
    cases escapes with
    | report nameless => exact absurd nameless (ends_readReport.of_ok report).2
    | coverage _ nameless => exact absurd nameless (ends_readCoverage.of_ok coverage).2
    | sizes report' coverage' differ tooLong =>
      obtain rfl := Except.ok.inj (report.symm.trans report')
      obtain rfl := Except.ok.inj (coverage.symm.trans coverage')
      rw [differ, tooLong]
      exact fun short => Bool.false_ne_true (short rfl)
    | blank loads _ => exact absurd loads (not_loads_of_load report coverage failed)
  · intro told
    obtain ⟨differ, tooLong⟩ := Classical.not_imp.mp told
    obtain ⟨difference, differ⟩ := Option.isSome_iff_exists.mp differ
    exact .sizes report coverage differ (Bool.eq_false_iff.mpr tooLong)

end Stages

/-- Only a blank gets past the messages once the files are loaded. -/
theorem Loads.escapes_iff (loads : Loads folder settings fractional sets incidence) :
    Escapes folder settings ↔ settings.IsWanting := by
  refine ⟨fun escapes => ?_, .blank loads⟩
  cases escapes with
  | report nameless => exact absurd nameless (ends_readReport.of_ok loads.report).2
  | coverage _ nameless => exact absurd nameless (ends_readCoverage.of_ok loads.coverage).2
  | sizes report coverage differ _ =>
    obtain rfl := Except.ok.inj (loads.report.symm.trans report)
    obtain rfl := Except.ok.inj (loads.coverage.symm.trans coverage)
    cases loads.sizes.symm.trans differ
  | blank _ wanting => exact wanting

/-! ### Attempts -/

/-- **What an attempt may come to.** A pool may interleave its restarts in any way; of its events
only the improvements are printed. -/
inductive Attempted (folder : Folder) (settings : Settings) : Attempt → Prop
  | alone : Attempted folder settings (attempt folder settings)
  | scheduled {fractional sets incidence options result events} :
      Loads folder settings fractional sets incidence →
      settings.order? = .ok (.guided, options) →
      GuidedRun incidence fractional options result (events.filterMap Event.improvement?) →
      Attempted folder settings ⟨result, events⟩

/-- **What is found**: a sound cover, the bound of the solution, and a history in which the rounds
rise and the sizes fall. -/
structure Answers (incidence : Incidence) (fractional : Fractional) (outcome : Outcome) : Prop where
  sound : SoundCover incidence outcome.cover
  bound : outcome.lowerBound = some fractional.lowerBound
  falling : outcome.history.Pairwise Improves

/-- The improvements that are told of: the whole history, for the guided algorithm. -/
def Settings.toldOf (settings : Settings) (fractional : Fractional) (outcome : Outcome) :
    List (Nat × Nat × Int) :=
  if settings.algorithm = .value .guided then
    Transversal.toldOf fractional.lowerBound outcome.history
  else []

/-- **The three ways in which the command ends**, with all that it prints. -/
inductive Conduct (folder : Folder) (settings : Settings) : Report → Prop
  | solved {fractional incidence outcome events} : ¬ Escapes folder settings →
      Solvable folder settings fractional incidence → Answers incidence fractional outcome →
      Conduct folder settings ⟨textOf (settings.seedLines ++
        (settings.toldOf fractional outcome).map improvementLine ++ coverLines outcome),
        events, "", .status 0⟩
  | refused {fault events} : ¬ Escapes folder settings →
      (∀ fractional incidence, ¬ Solvable folder settings fractional incidence) →
      Conduct folder settings
        ⟨textOf (settings.seedLines ++ [faultLine fault]), events, "", .status 1⟩
  | escaped {fault events} : Escapes folder settings →
      (∀ fractional incidence, ¬ Solvable folder settings fractional incidence) →
      Conduct folder settings ⟨textOf settings.seedLines, events, "", .fault fault⟩

namespace Conduct

variable {report : Report}

/-- **A fault gets past the messages** exactly in the cases named. -/
theorem fault_iff (conduct : Conduct folder settings report) :
    (∃ fault, report.ending = .fault fault) ↔ Escapes folder settings := by
  cases conduct with
  | solved allowed | refused allowed =>
    refine iff_of_false (fun impossible => ?_) allowed
    obtain ⟨_, ⟨⟩⟩ := impossible
  | escaped escapes => exact iff_of_true ⟨_, rfl⟩ escapes

/-- **The status is zero** exactly if there is all that is needed to find a cover. -/
theorem zero_iff (conduct : Conduct folder settings report) :
    report.ending = .status 0 ↔
      ∃ fractional incidence, Solvable folder settings fractional incidence := by
  cases conduct with
  | solved _ solvable => exact iff_of_true rfl ⟨_, _, solvable⟩
  | refused _ unsolvable | escaped _ unsolvable =>
    refine iff_of_false (fun impossible => ?_) fun ⟨_, _, solvable⟩ => unsolvable _ _ solvable
    cases impossible

end Conduct

/-- An attempt that fails without any improvement told. -/
theorem conduct_of_error {fault : Fault} {events : List Event}
    (silent : events.filterMap Event.improvement? = [])
    (handled : isHandled fault ↔ ¬ Escapes folder settings)
    (unsolvable : ∀ fractional incidence, ¬ Solvable folder settings fractional incidence) :
    Conduct folder settings (Attempt.report settings ⟨.error fault, events⟩) := by
  have lines : settings.seedLines ++
      (events.filterMap Event.improvement?).map improvementLine = settings.seedLines := by
    rw [silent, List.map_nil, List.append_nil]
  rw [Attempt.report]
  dsimp only
  rw [lines]
  by_cases shown : isHandled fault
  · rw [if_pos shown]
    exact .refused (handled.mp shown) unsolvable
  · rw [if_neg shown]
    exact .escaped (not_not.mp fun allowed => shown (handled.mpr allowed)) unsolvable

/-- An attempt on files that are not loaded. -/
theorem conduct_of_unloaded {fault : Fault} {events : List Event}
    (silent : events.filterMap Event.improvement? = [])
    (handled : isHandled fault ↔ ¬ Escapes folder settings)
    (unloaded : ∀ fractional sets incidence, ¬ Loads folder settings fractional sets incidence) :
    Conduct folder settings (Attempt.report settings ⟨.error fault, events⟩) := by
  refine conduct_of_error silent handled fun fractional incidence solvable => ?_
  obtain ⟨sets, loads⟩ := solvable.loads
  exact unloaded fractional sets incidence loads

/-- An attempt that succeeds, with its improvements told. -/
theorem conduct_of_ok (loads : Loads folder settings fractional sets incidence)
    (complete : ¬ settings.IsWanting)
    (supported : settings.algorithm = .value .guided →
      incidence.IsSupported fractional.activities)
    {outcome : Outcome} (answers : Answers incidence fractional outcome) {events : List Event}
    (told : events.filterMap Event.improvement? = settings.toldOf fractional outcome) :
    Conduct folder settings (Attempt.report settings ⟨.ok outcome, events⟩) := by
  rw [Attempt.report]
  dsimp only
  rw [told]
  exact .solved (fun escapes => complete (loads.escapes_iff.mp escapes))
    ⟨⟨sets, loads⟩, complete, supported⟩ answers

/-! ### Each algorithm -/

section Solved

variable (loads : Loads folder settings fractional sets incidence) {options : Options}

include loads

/-- **A guided run** ends well exactly if every path has an active set. -/
theorem Loads.conduct_guided (asks : settings.Asks .guided options)
    {result : Except Fault Outcome} {events : List Event}
    (run : GuidedRun incidence fractional options result
      (events.filterMap Event.improvement?)) :
    Conduct folder settings (Attempt.report settings ⟨result, events⟩) := by
  have agreement := Incidence.agreement_of_ofSets? loads.built
  have sizes := (Fractional.agrees?_eq_ok_iff.mp loads.agrees).2
  have same := checkGuided_eq_map asks.positive loads.agrees
  cases checked : checkSupport incidence fractional.activities with
  | ok =>
    have checks : checkGuided incidence (some fractional) options = .ok fractional := by
      rw [same, checked]
      rfl
    obtain ⟨outcome, rfl, fromGuided, falling, told⟩ :=
      run.succeeds agreement loads.isAccepted asks.natural checks
    refine conduct_of_ok loads asks.complete
      (fun _ => (checkSupport_eq_ok_iff agreement sizes.le).mp checked)
      ⟨fromGuided.sound, fromGuided.bound, falling⟩ ?_
    rw [told, Settings.toldOf, if_pos asks.algorithm]
  | error fault =>
    obtain ⟨path, rfl⟩ := inactive_of_checkSupport agreement sizes.le checked
    have failed : checkGuided incidence (some fractional) options = .error (.inactive path) := by
      rw [same, checked]
      rfl
    obtain ⟨rfl, silent⟩ := run.fails failed
    refine conduct_of_error silent (iff_of_true rfl fun escapes =>
      asks.complete (loads.escapes_iff.mp escapes)) fun other relation solvable => ?_
    obtain ⟨others, again⟩ := solvable.loads
    obtain ⟨rfl, _, rfl⟩ := loads.unique again
    have supported := (checkSupport_eq_ok_iff agreement sizes.le).mpr
      (solvable.supported asks.algorithm)
    cases checked.symm.trans supported

/-- **The greedy algorithm** always ends well, and tells of nothing before. -/
theorem Loads.conduct_largest (asks : settings.Asks .largest options) {events : List Event}
    (silent : events.filterMap Event.improvement? = []) :
    Conduct folder settings
      (Attempt.report settings ⟨solveLargest incidence (some fractional), events⟩) := by
  have agreement := Incidence.agreement_of_ofSets? loads.built
  have agrees : ∀ given ∈ some fractional, given.agrees? incidence = .ok () := by
    rintro _ ⟨⟩
    exact loads.agrees
  have other : settings.algorithm ≠ .value .guided := by
    rw [asks.algorithm]
    decide
  obtain ⟨outcome, _, solved, _, _, sound⟩ := agreement.solveLargest_ok agrees
  have falling : outcome.history.Pairwise Improves := by
    rw [history_of_solveLargest solved]
    exact List.pairwise_singleton _ _
  rw [solved]
  refine conduct_of_ok loads asks.complete (fun guided => absurd guided other)
    ⟨sound, (solveLargest_eq_ok solved).2, falling⟩ ?_
  rw [silent, Settings.toldOf, if_neg other]

end Solved

/-! ### All attempts -/

/-- Nothing that loading reports is an improvement. -/
theorem silent_loadEvents (sets : List (List Int)) (given : Option Fractional) :
    (Incidence.loadEvents sets given).filterMap Event.improvement? = [] := by
  have repeats : (Incidence.duplicateEvents sets).filterMap Event.improvement? = [] := by
    rw [List.filterMap_eq_nil_iff]
    intro event member
    obtain ⟨⟨⟨listed, kept⟩, set⟩, _, told⟩ := List.mem_filterMap.mp member
    obtain ⟨_, same⟩ := Option.ite_none_left_eq_some.mp told
    cases same
    rfl
  unfold Incidence.loadEvents
  split
  · rfl
  · rw [List.filterMap_append, repeats]
    cases Incidence.load? sets given <;> rfl

theorem silent_loaded (sets : List (List Int)) (fractional : Fractional) :
    ([fractional.readEvent] ++
      Incidence.loadEvents sets (some fractional)).filterMap Event.improvement? = [] := by
  rw [List.filterMap_append, silent_loadEvents]
  rfl

/-- The attempt on files that are loaded. -/
theorem Loads.conduct_attempt (loads : Loads folder settings fractional sets incidence)
    (proper : settings.IsProper) :
    Conduct folder settings ((attempt folder settings).report settings) := by
  have silent := silent_loaded sets fractional
  have ends := ends_order? proper
  unfold attempt
  rw [loads.report]
  dsimp only
  rw [loads.coverage]
  dsimp only
  rw [loads.loaded]
  dsimp only
  generalize settings.order? = order at ends
  cases order with
  | error fault =>
    obtain ⟨unseen, wanting⟩ := ends
    refine conduct_of_error silent ?_ fun _ _ solvable => solvable.complete wanting
    rw [loads.escapes_iff, unseen]
    exact iff_of_false Bool.false_ne_true (not_not_intro wanting)
  | ok order =>
    obtain ⟨algorithm, options⟩ := order
    cases algorithm with
    | guided =>
      refine loads.conduct_guided ends ?_
      rw [List.filterMap_append, silent, List.nil_append]
      exact .alone
    | largest =>
      refine loads.conduct_largest ends ?_
      rw [List.filterMap_append, silent]
      rfl

/-- **The attempt that the command makes**, stage by stage. -/
theorem conduct_attempt (proper : settings.IsProper) :
    Conduct folder settings ((attempt folder settings).report settings) := by
  -- what may get past the messages depends on how far the attempt comes
  cases report : readReport folder settings.report with
  | error fault =>
    have handled := ends_readReport.of_error report
    rw [← escapes_iff_of_report report] at handled
    rw [attempt, report]
    exact conduct_of_unloaded rfl handled fun _ _ _ loads => by cases report.symm.trans loads.report
  | ok fractional =>
    cases coverage : readCoverage folder settings.coverage with
    | error fault =>
      have handled := ends_readCoverage.of_error coverage
      rw [← escapes_iff_of_coverage report coverage] at handled
      rw [attempt, report]
      dsimp only
      rw [coverage]
      exact conduct_of_unloaded rfl handled fun _ _ _ loads => by
        cases coverage.symm.trans loads.coverage
    | ok sets =>
      cases loaded : Incidence.load? sets (some fractional) with
      | error fault =>
        have handled : isHandled fault ↔ ¬ Escapes folder settings := by
          rw [escapes_iff_of_load report coverage loaded, not_not]
        rw [attempt, report]
        dsimp only
        rw [coverage]
        dsimp only
        rw [loaded]
        exact conduct_of_unloaded (silent_loaded sets fractional) handled fun _ _ _ =>
          not_loads_of_load report coverage loaded
      | ok incidence =>
        obtain ⟨sizes, built⟩ := Incidence.load?_eq_ok_iff.mp loaded
        exact Loads.conduct_attempt ⟨report, coverage, sizes, built⟩ proper

/-- **Every run of the command** ends in one of the three ways: the run itself, and whatever the
restarts of a pool may come to. -/
theorem conduct_of_parse {arguments : List String} {settings : Settings}
    (parsed : parse arguments = .ok settings) (folder : Folder) :
    (∃ attempt, Attempted folder settings attempt ∧
        run folder arguments = attempt.report settings) ∧
      ∀ attempt, Attempted folder settings attempt →
        Conduct folder settings (attempt.report settings) := by
  have proper := isProper_of_parse parsed
  refine ⟨⟨_, .alone, ?_⟩, fun attempt attempted => ?_⟩
  · rw [run, parsed]
    rfl
  · cases attempted with
    | alone => exact conduct_attempt proper
    | scheduled loads order run => exact loads.conduct_guided ((ends_order? proper).of_ok order) run

/-- A report on one path and one set. -/
def singleReport : String :=
  "Problem: hs\nRows: 1\nColumns: 1\nNon-zeros: 0\nStatus: OPTIMAL\nObjective: obj = 1\n" ++
    "\nNo. Row\n---\n1 c1 B 1\n\nNo. Column\n---\n1 x1 B 1\n"

/-- A folder with the files of one path and one set, which hits it. -/
def single : Folder := fun name =>
  if name = "S" then .ok "0\n".toUTF8.toList
  else if name = "L" then .ok singleReport.toUTF8.toList
  else .error .missing

/-- The settings that name the two files. -/
def singleSettings : Settings := { coverage := .value "S", report := .value "L" }

theorem single_loads {settings : Settings} (report : settings.report = .value "L")
    (coverage : settings.coverage = .value "S") :
    Loads single settings ⟨1, .ofInt 1, #[.ofInt 1]⟩ [[0]] ⟨#[[0]], #[[0]]⟩ where
  report := by
    rw [report]
    show single.open? "L" >>= (fun bytes => Report.read? "L" (.ofBytes bytes)) = _
    rw [Folder.open?, if_neg (by simp)]
    decide +kernel
  coverage := by
    rw [coverage]
    show single.open? "S" >>= (fun bytes => Coverage.read? "S" (.ofBytes bytes)) = _
    rw [Folder.open?, if_neg (by simp)]
    decide +kernel
  sizes := by decide +kernel
  built := by decide +kernel

/-- The one path is hit. -/
theorem conduct_single : parse ["S", "L"] = .ok singleSettings ∧
    (run single ["S", "L"]).ending = .status 0 := by
  have parsed : parse ["S", "L"] = .ok singleSettings := by decide +kernel
  obtain ⟨⟨attempt, attempted, same⟩, conducts⟩ := conduct_of_parse parsed single
  refine ⟨parsed, ?_⟩
  rw [same, (conducts attempt attempted).zero_iff]
  refine ⟨_, _, ⟨_, single_loads rfl rfl⟩, fun wanting => ?_, fun _ => ?_⟩
  · cases wanting with
    | algorithm blank | workers _ blank | maxRounds _ blank => cases blank
  · show ∀ path < 1, ∃ set < 1, _
    decide +kernel

/-- Without a name for the algorithm a fault gets past the messages. -/
theorem escapes_single : ∃ settings, parse ["S", "L", "--algorithm=--"] = .ok settings ∧
    ∃ fault, (run single ["S", "L", "--algorithm=--"]).ending = .fault fault := by
  have parsed : parse ["S", "L", "--algorithm=--"] =
      .ok { singleSettings with algorithm := .blank } := by decide +kernel
  refine ⟨_, parsed, ?_⟩
  rw [run, parsed]
  exact (conduct_attempt (isProper_of_parse parsed)).fault_iff.mpr
    (.blank (single_loads rfl rfl) (.algorithm rfl))

end Transversal.SolveCommand
