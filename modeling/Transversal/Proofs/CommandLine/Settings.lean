/-
**What the settings of the command are**, for all arguments that are accepted.

* `SolveCommand.isProper_of_parse`: the numbers that are given are in their domains.
* `SolveCommand.Settings.IsWanting`: a value that the run needs was left blank;
  `SolveCommand.ends_order?`: nothing else keeps the settings from being followed.
-/
import Transversal.CommandLine.Solve
import Transversal.Proofs.Solver.Guided

namespace Transversal.SolveCommand

open CommandLine

/-- The numbers that are given are in their domains. -/
structure Settings.IsProper (settings : Settings) : Prop where
  seed : ∀ seed ∈ settings.seed, 0 ≤ seed
  workers : ∀ count, settings.workers = some (.value count) → 1 ≤ count
  maxRounds : ∀ count, settings.maxRounds = some (.value count) → 1 ≤ count

/-- A number that is given is not below its bound. -/
theorem ends_givenOf (values : List String) (title kind domain : String) (bound : Int) :
    Except.Ends (fun given => ∀ count, given = .value count → bound ≤ count) (fun _ => True)
      (givenOf values (readBounded title kind domain bound)) := by
  cases values with
  | nil => exact fun _ impossible => by cases impossible
  | cons text rest =>
    refine Except.Ends.map ?_
    unfold readBounded
    cases readInteger? text.toList with
    | none => trivial
    | some value =>
      show Except.Ends _ _ (if value < bound then _ else _)
      split
      · trivial
      · rename_i above
        rintro _ ⟨⟩
        exact not_lt.mp above

variable {settings : Settings}

theorem ends_applyFlag (proper : settings.IsProper) (setting : Setting) (values : List String) :
    Except.Ends Settings.IsProper (fun _ => True) (applyFlag settings setting values) := by
  cases setting with
  | help => trivial
  | workers =>
    refine (ends_givenOf values _ _ _ _).bind fun given above => ?_
    refine ⟨proper.seed, ?_, proper.maxRounds⟩
    rintro count ⟨⟩
    exact above count rfl
  | maxRounds =>
    refine (ends_givenOf values _ _ _ _).bind fun given above => ?_
    refine ⟨proper.seed, proper.workers, ?_⟩
    rintro count ⟨⟩
    exact above count rfl
  | algorithm =>
    exact (Except.ends_true _).bind fun _ _ => ⟨proper.seed, proper.workers, proper.maxRounds⟩
  | verbose => exact ⟨proper.seed, proper.workers, proper.maxRounds⟩

theorem ends_applyUse (proper : settings.IsProper) (use : Use) :
    Except.Ends Settings.IsProper (fun _ => True) (applyUse settings use) := by
  cases use with
  | option flag values =>
    rw [applyUse]
    split
    · exact ends_applyFlag proper _ values
    · exact proper
  | positional positional values =>
    rw [applyUse]
    split
    · exact (Except.ends_true _).bind fun _ _ => ⟨proper.seed, proper.workers, proper.maxRounds⟩
    · split
      · exact (Except.ends_true _).bind fun _ _ => ⟨proper.seed, proper.workers, proper.maxRounds⟩
      · refine (ends_givenOf values _ _ _ _).bind fun given above => ?_
        cases given with
        | blank => exact proper
        | value seed =>
          refine ⟨?_, proper.workers, proper.maxRounds⟩
          rintro _ ⟨⟩
          exact above seed rfl

/-- **Settings that are parsed** have their numbers in their domains. -/
theorem isProper_of_parse {arguments : List String} (parsed : parse arguments = .ok settings) :
    settings.IsProper := by
  obtain ⟨used, run, rest⟩ := Except.bind_eq_ok_iff.mp parsed
  have proper : used.IsProper := by
    refine Except.foldlM_ok_induct (fun _ used => used.IsProper) ?_ ?_ run
    · intro _ before use after proper stepped
      exact (ends_applyUse proper use).of_ok stepped
    · exact ⟨by simp, by simp, by simp⟩
  cases problem : (grammar.read arguments).problem with
  | some problem =>
    rw [problem] at rest
    cases rest
  | none =>
    rw [problem] at rest
    cases rest
    exact proper

/-! ### The algorithm and its options -/

/-- **A value that the run needs is blank**: the algorithm, or a number of the guided one. -/
inductive Settings.IsWanting (settings : Settings) : Prop
  | algorithm : settings.algorithm = .blank → IsWanting settings
  | workers : settings.algorithm = .value .guided → settings.workers = some .blank →
      IsWanting settings
  | maxRounds : settings.algorithm = .value .guided → settings.maxRounds = some .blank →
      IsWanting settings

/-- A number that is given is taken over, unless it is blank. -/
theorem ends_mapM_require {given : Option (Given Int)} {wanting : Prop}
    (blank : given = some .blank → wanting) :
    Except.Ends (fun count => given ≠ some .blank ∧ ∀ value ∈ count, given = some (.value value))
      (fun fault => isHandled fault = false ∧ wanting) (given.mapM (Given.require .count)) := by
  match given with
  | none => exact ⟨by simp, by simp⟩
  | some .blank => exact ⟨rfl, blank rfl⟩
  | some (.value value) =>
    refine ⟨by simp, ?_⟩
    rintro _ ⟨⟩
    rfl

/-- The options that the settings ask for, with the algorithm. -/
structure Settings.Asks (settings : Settings) (algorithm : Algorithm) (options : Options) :
    Prop where
  complete : ¬ settings.IsWanting
  algorithm : settings.algorithm = .value algorithm
  natural : 0 ≤ options.seed
  positive : options.ArePositive

/-- **Only a blank** keeps settings from being followed. -/
theorem ends_order? (proper : settings.IsProper) :
    Except.Ends (fun order => settings.Asks order.1 order.2)
      (fun fault => isHandled fault = false ∧ settings.IsWanting) settings.order? := by
  have natural : 0 ≤ settings.seed.getD 0 := by
    cases given : settings.seed with
    | none => exact le_refl 0
    | some seed => exact proper.seed seed given
  unfold Settings.order?
  cases asked : settings.algorithm with
  | blank => exact ⟨rfl, .algorithm asked⟩
  | value algorithm =>
    cases algorithm with
    | largest =>
      refine ⟨fun wanting => ?_, asked, natural, by simp, by simp⟩
      cases wanting with
      | algorithm blank | workers blank | maxRounds blank => cases asked.symm.trans blank
    | guided =>
      refine (ends_mapM_require (Settings.IsWanting.workers asked)).bind fun workers known => ?_
      refine (ends_mapM_require (Settings.IsWanting.maxRounds asked)).bind fun rounds known' => ?_
      refine ⟨fun wanting => ?_, asked, natural, fun count given => ?_, fun count given => ?_⟩
      · cases wanting with
        | algorithm blank => cases asked.symm.trans blank
        | workers _ blank => exact known.1 blank
        | maxRounds _ blank => exact known'.1 blank
      · exact proper.workers count (known.2 count given)
      · exact proper.maxRounds count (known'.2 count given)

end Transversal.SolveCommand
