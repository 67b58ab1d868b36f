/-
**Computations that may fail, and folds of them.**

* `Except.bind_eq_ok_iff`: a sequence succeeds when both of its parts do.
* `Except.foldlM_eq_ok_iff`: a fold whose step fails on exactly the bad entries succeeds when there
  are none of them.
* `Except.foldlM_ok_induct`: what every step keeps holds after the fold.
* `Except.foldlM_perm`: steps that commute can be made in any order.
* `Except.Ends`: a result with one property, or a fault with another; `Except.Ends.bind`: what a
  sequence ends with.
* `Except.Together`: two computations that both return, or both fail; `Except.Together.foldlM`: two
  folds side by side.
-/
import Mathlib.Tactic.Common

namespace Transversal.Except

variable {ε α β σ : Type}

/-- A sequence succeeds when both of its parts do. -/
theorem bind_eq_ok_iff {first : Except ε α} {next : α → Except ε β} {result : β} :
    first >>= next = .ok result ↔ ∃ value, first = .ok value ∧ next value = .ok result := by
  cases first with
  | error fault =>
    constructor
    · intro run
      cases run
    · rintro ⟨value, impossible, _⟩
      cases impossible
  | ok value =>
    constructor
    · intro run
      exact ⟨value, rfl, run⟩
    · rintro ⟨other, same, run⟩
      cases same
      exact run

/-- Two sequences with the same first part are the same if their second parts are, on what it
returns. -/
theorem bind_congr_ok {first : Except ε α} {next other : α → Except ε β}
    (same : ∀ value, first = .ok value → next value = other value) :
    first >>= next = first >>= other := by
  cases first with
  | error fault => rfl
  | ok value => exact same value rfl

theorem map_eq_ok_iff {first : Except ε α} {f : α → β} {result : β} :
    first.map f = .ok result ↔ ∃ value, first = .ok value ∧ f value = result := by
  cases first with
  | error fault => simp [Except.map]
  | ok value => simp [Except.map]

theorem mapError_eq_ok_iff {ε' : Type} {first : Except ε α} {f : ε → ε'} {result : α} :
    first.mapError f = .ok result ↔ first = .ok result := by
  cases first with
  | error fault => simp [Except.mapError]
  | ok value => simp [Except.mapError]

/-- A check that throws lets through what it does not refuse. -/
theorem check_eq_ok_iff {refused : Prop} [Decidable refused] {fault : ε} {rest : Except ε α}
    {result : α} :
    (if refused then (throw fault : Except ε β) >>= fun _ => rest else rest) = .ok result ↔
      ¬ refused ∧ rest = .ok result := by
  by_cases holds : refused
  · rw [if_pos holds]
    constructor
    · intro run
      cases run
    · intro ⟨allowed, _⟩
      exact absurd holds allowed
  · rw [if_neg holds, and_iff_right holds]

/-- What every step keeps, with the entries seen so far, holds after the fold. -/
theorem foldlM_ok_induct {step : σ → α → Except ε σ} (keeps : List α → σ → Prop)
    (each : ∀ seen before entry after, keeps seen before → step before entry = .ok after →
      keeps (seen ++ [entry]) after)
    {entries : List α} {before after : σ} (start : keeps [] before)
    (run : entries.foldlM step before = .ok after) : keeps entries after := by
  suffices further : ∀ (rest seen : List α) (now : σ), keeps seen now →
      rest.foldlM step now = .ok after → keeps (seen ++ rest) after from
    further entries [] before start run
  intro rest
  induction rest with
  | nil =>
    intro seen now holds run
    rw [List.foldlM_nil] at run
    cases run
    rw [List.append_nil]
    exact holds
  | cons entry rest ih =>
    intro seen now holds run
    rw [List.foldlM_cons, bind_eq_ok_iff] at run
    obtain ⟨middle, stepped, run⟩ := run
    have later := ih (seen ++ [entry]) middle (each seen now entry middle holds stepped) run
    rwa [List.append_assoc] at later

/-- A fold whose step fails on exactly the bad entries succeeds when there are none of them. -/
theorem foldlM_eq_ok_iff {step : σ → α → Except ε σ} (keeps : σ → Prop) (good : α → Prop)
    (each : ∀ before entry, keeps before →
      ((∃ after, step before entry = .ok after) ↔ good entry))
    (kept : ∀ before entry after, keeps before → step before entry = .ok after → keeps after)
    {entries : List α} {before : σ} (start : keeps before) :
    (∃ after, entries.foldlM step before = .ok after) ↔ ∀ entry ∈ entries, good entry := by
  induction entries generalizing before with
  | nil =>
    simp only [List.foldlM_nil, List.not_mem_nil, false_implies, implies_true, iff_true]
    exact ⟨before, rfl⟩
  | cons entry rest ih =>
    rw [List.forall_mem_cons, ← each before entry start]
    constructor
    · rintro ⟨after, run⟩
      rw [List.foldlM_cons, bind_eq_ok_iff] at run
      obtain ⟨middle, stepped, run⟩ := run
      exact ⟨⟨middle, stepped⟩, (ih (kept before entry middle start stepped)).mp ⟨after, run⟩⟩
    · rintro ⟨⟨middle, stepped⟩, rest_good⟩
      obtain ⟨after, run⟩ := (ih (kept before entry middle start stepped)).mpr rest_good
      refine ⟨after, ?_⟩
      rw [List.foldlM_cons, bind_eq_ok_iff]
      exact ⟨middle, stepped, run⟩

/-- Folds of steps that are the same wherever the fold can come to. -/
theorem foldlM_congr {step other : σ → α → Except ε σ} (keeps : σ → Prop)
    (kept : ∀ before entry after, keeps before → step before entry = .ok after → keeps after)
    (same : ∀ before entry, keeps before → step before entry = other before entry)
    {entries : List α} {before : σ} (start : keeps before) :
    entries.foldlM step before = entries.foldlM other before := by
  induction entries generalizing before with
  | nil => rfl
  | cons entry rest ih =>
    rw [List.foldlM_cons, List.foldlM_cons, ← same before entry start]
    exact bind_congr_ok fun after stepped => ih (kept before entry after start stepped)

/-- **Steps that commute** on the good entries can be made in any order. -/
theorem foldlM_perm {step : σ → α → Except ε σ} (keeps : σ → Prop) (good : α → Prop)
    (kept : ∀ before entry after, keeps before → step before entry = .ok after → keeps after)
    (commute : ∀ before first second, keeps before → good first → good second →
      (step before first >>= (step · second)) = (step before second >>= (step · first)))
    {entries other : List α} (same : entries.Perm other) (all : ∀ entry ∈ entries, good entry)
    {before : σ} (start : keeps before) :
    entries.foldlM step before = other.foldlM step before := by
  induction same generalizing before with
  | nil => rfl
  | cons entry _ ih =>
    rw [List.forall_mem_cons] at all
    rw [List.foldlM_cons, List.foldlM_cons]
    exact bind_congr_ok fun after stepped => ih all.2 (kept before entry after start stepped)
  | swap first second rest =>
    rw [List.forall_mem_cons, List.forall_mem_cons] at all
    simp only [List.foldlM_cons, ← bind_assoc]
    rw [commute before second first start all.1 all.2.1]
  | trans left _ ih ih' =>
    exact (ih all start).trans (ih' (fun entry member => all entry (left.mem_iff.mpr member)) start)

/-! ### Results and faults -/

/-- **Whatever comes of a computation**: a result with one property, or a fault with another. -/
def Ends (good : α → Prop) (bad : ε → Prop) : Except ε α → Prop
  | .ok value => good value
  | .error fault => bad fault

variable {good : α → Prop} {bad : ε → Prop}

theorem Ends.of_ok {result : Except ε α} (ends : Ends good bad result) {value : α}
    (ended : result = .ok value) : good value := by
  subst ended
  exact ends

theorem Ends.of_error {result : Except ε α} (ends : Ends good bad result) {fault : ε}
    (failed : result = .error fault) : bad fault := by
  subst failed
  exact ends

theorem ends_true (result : Except ε α) : Ends (fun _ => True) (fun _ => True) result := by
  cases result <;> trivial

theorem Ends.mono {result : Except ε α} {other : α → Prop} (ends : Ends good bad result)
    (weaker : ∀ value, good value → other value) : Ends other bad result := by
  cases result with
  | error fault => exact ends
  | ok value => exact weaker value ends

theorem Ends.mono_bad {result : Except ε α} {other : ε → Prop} (ends : Ends good bad result)
    (weaker : ∀ fault, bad fault → other fault) : Ends good other result := by
  cases result with
  | error fault => exact weaker fault ends
  | ok value => exact ends

/-- **A sequence** ends with a fault of one of its parts, or with what its second part returns. -/
theorem Ends.bind {first : Except ε α} {next : α → Except ε β} {other : β → Prop}
    (before : Ends good bad first)
    (afterwards : ∀ value, good value → Ends other bad (next value)) :
    Ends other bad (first >>= next) := by
  cases first with
  | error fault => exact before
  | ok value => exact afterwards value before

/-- A check that throws. -/
theorem ends_check {refused : Prop} [Decidable refused] {fault : ε} {rest : Except ε α}
    (thrown : bad fault) (further : Ends good bad rest) :
    Ends good bad (if refused then (throw fault : Except ε β) >>= fun _ => rest else rest) := by
  split
  · exact thrown
  · exact further

theorem Ends.map {result : Except ε α} {f : α → β} {other : β → Prop}
    (ends : Ends (fun value => other (f value)) bad result) : Ends other bad (result.map f) := by
  cases result with
  | error fault => exact ends
  | ok value => exact ends

theorem ends_forM {f : α → Except ε PUnit} {entries : List α}
    (each : ∀ entry ∈ entries, Ends (fun _ => True) bad (f entry)) :
    Ends (fun _ => True) bad (entries.forM f) := by
  induction entries with
  | nil => trivial
  | cons entry rest ih =>
    rw [List.forall_mem_cons] at each
    exact each.1.bind fun _ _ => ih each.2

theorem ends_foldlM {step : σ → α → Except ε σ}
    (each : ∀ now entry, Ends (fun _ => True) bad (step now entry)) {entries : List α}
    {start : σ} : Ends (fun _ => True) bad (entries.foldlM step start) := by
  induction entries generalizing start with
  | nil => trivial
  | cons entry rest ih =>
    rw [List.foldlM_cons]
    exact (each start entry).bind fun _ _ => ih

theorem Ends.mapError {ε' : Type} {bad : ε' → Prop} {f : ε → ε'} {result : Except ε α}
    (ends : Ends good (fun fault => bad (f fault)) result) : Ends good bad (result.mapError f) := by
  cases result with
  | error fault => exact ends
  | ok value => exact ends

/-! ### Two computations side by side -/

/-- **Two computations end together**: both with results that are related, or both with faults
that are. -/
inductive Together {ε' : Type} (good : α → β → Prop) (bad : ε → ε' → Prop) :
    Except ε α → Except ε' β → Prop
  | ok {value : α} {other : β} : good value other → Together good bad (.ok value) (.ok other)
  | error {fault : ε} {other : ε'} : bad fault other →
      Together good bad (.error fault) (.error other)

section Together

variable {ε' τ : Type} {bad : ε → ε' → Prop}

/-- Sequences end together if their first parts do, and their second parts on related results. -/
theorem Together.bind {α' β' : Type} {good : α → α' → Prop} {related : β → β' → Prop}
    {first : Except ε α} {first' : Except ε' α'} {next : α → Except ε β}
    {next' : α' → Except ε' β'} (before : Together good bad first first')
    (afterwards : ∀ value value', good value value' →
      Together related bad (next value) (next' value')) :
    Together related bad (first >>= next) (first' >>= next') := by
  cases before with
  | ok holds => exact afterwards _ _ holds
  | error failed => exact .error failed

theorem Together.mapError {α' ε'' : Type} {good : α → α' → Prop} {f : ε → ε''}
    {bad : ε'' → ε' → Prop} {first : Except ε α} {other : Except ε' α'}
    (ends : Together good (fun fault fault' => bad (f fault) fault') first other) :
    Together good bad (first.mapError f) other := by
  cases ends with
  | ok holds => exact .ok holds
  | error failed => exact .error failed

/-- **Folds end together** if every step of them does, from related values on. -/
theorem Together.foldlM {related : σ → τ → Prop} {step : σ → α → Except ε σ}
    {step' : τ → α → Except ε' τ}
    (each : ∀ now now' entry, related now now' →
      Together related bad (step now entry) (step' now' entry))
    {entries : List α} {start : σ} {start' : τ} (starts : related start start') :
    Together related bad (entries.foldlM step start) (entries.foldlM step' start') := by
  induction entries generalizing start start' with
  | nil => exact .ok starts
  | cons entry rest ih =>
    rw [List.foldlM_cons, List.foldlM_cons]
    exact (each start start' entry starts).bind fun _ _ => ih

end Together

end Transversal.Except
