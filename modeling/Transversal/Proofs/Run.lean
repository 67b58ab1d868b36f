/-
**What a computation yields on every random stream.**

* `Run.Yields`: from wherever it starts, the computation ends without a fault, and its result has a
  property. One rule for each of the ways to build a computation.
* `Run.yields_shuffle`: a shuffled list holds the same entries.
* `Run.Yields.exists_ok`: the result itself, from one starting point.
* `Run.Returns`: whatever the computation returns has a property; it may fail as well.
* `Run.Returns.bind_congr`: only what the first part of a sequence returns matters to the second.
* `Run.Appends`: nothing depends on the events reported before; new ones are put behind them, and
  none of these is an improvement.
-/
import Mathlib.Tactic.Common
import Transversal.Run

namespace Transversal.Run

variable {σ α β : Type}

/-- **The computation ends without a fault, and its result has a property**, on every stream. -/
def Yields (run : Run σ α) (property : α → Prop) : Prop :=
  ∀ desk, ∃ value after, run.run.run desk = (.ok value, after) ∧ property value

theorem yields_pure {property : α → Prop} {value : α} (holds : property value) :
    Yields (pure value : Run σ α) property :=
  fun desk => ⟨value, desk, rfl, holds⟩

theorem yields_lift {property : α → Prop} {result : Except Fault α} {value : α}
    (ok : result = .ok value) (holds : property value) :
    Yields (lift result : Run σ α) property := by
  intro desk
  subst ok
  exact ⟨value, desk, rfl, holds⟩

theorem yields_draw {property : α → Prop} {drawn : σ → α × σ}
    (holds : ∀ stream, property (drawn stream).1) : Yields (draw drawn) property :=
  fun desk => ⟨(drawn desk.stream).1, { desk with stream := (drawn desk.stream).2 }, rfl,
    holds desk.stream⟩

theorem yields_report {property : Unit → Prop} {event : Event} (holds : property ()) :
    Yields (report event : Run σ Unit) property :=
  fun desk => ⟨(), { desk with events := desk.events.push event }, rfl, holds⟩

theorem run_bind (first : Run σ α) (next : α → Run σ β) (desk : Desk σ) :
    (first >>= next).run.run desk =
      match first.run.run desk with
      | (.ok value, after) => (next value).run.run after
      | (.error fault, after) => (.error fault, after) := by
  rw [ExceptT.run_bind, StateT.run_bind]
  generalize first.run.run desk = ran
  obtain ⟨result, after⟩ := ran
  cases result <;> rfl

/-- What is drawn first is drawn from the stream at hand. -/
theorem run_draw_bind (drawn : σ → α × σ) (next : α → Run σ β) (desk : Desk σ) :
    (draw drawn >>= next).run.run desk =
      (next (drawn desk.stream).1).run.run { desk with stream := (drawn desk.stream).2 } := rfl

/-- **A sequence** yields what its second part yields after its first part. -/
theorem Yields.bind {first : Run σ α} {next : α → Run σ β} {middle : α → Prop}
    {property : β → Prop} (before : Yields first middle)
    (afterwards : ∀ value, middle value → Yields (next value) property) :
    Yields (first >>= next) property := by
  intro desk
  obtain ⟨value, between, ran, holds⟩ := before desk
  obtain ⟨result, after, ran', holds'⟩ := afterwards value holds between
  exact ⟨result, after, by rw [run_bind, ran]; exact ran', holds'⟩

theorem Yields.mono {run : Run σ α} {strong weak : α → Prop} (yields : Yields run strong)
    (implies : ∀ value, strong value → weak value) : Yields run weak := by
  intro desk
  obtain ⟨value, after, ran, holds⟩ := yields desk
  exact ⟨value, after, ran, implies value holds⟩

theorem Yields.exists_ok {run : Run σ α} {property : α → Prop} (yields : Yields run property)
    (desk : Desk σ) : ∃ value, (run.run.run desk).1 = .ok value ∧ property value := by
  obtain ⟨value, after, ran, holds⟩ := yields desk
  exact ⟨value, by rw [ran], holds⟩

/-- A result that a run ends with has every property that the run yields. -/
theorem Yields.of_eq_ok {run : Run σ α} {property : α → Prop} (yields : Yields run property)
    {desk : Desk σ} {value : α} (ended : (run.run.run desk).1 = .ok value) : property value := by
  obtain ⟨other, ran, holds⟩ := yields.exists_ok desk
  rw [ended] at ran
  cases ran
  exact holds

/-- Several events are reported one behind the other. -/
theorem run_forM_report (entries : List Event) (desk : Desk σ) :
    (entries.forM report).run.run desk =
      (.ok (), { desk with events := desk.events ++ entries.toArray }) := by
  induction entries generalizing desk with
  | nil =>
    rw [Array.append_empty]
    rfl
  | cons event rest ih =>
    show (report event >>= fun _ => rest.forM report).run.run desk = _
    rw [run_bind]
    refine (ih { desk with events := desk.events.push event }).trans ?_
    rw [List.toArray_cons, ← Array.append_assoc, Array.push_eq_append]

theorem yields_forM {entries : List Event} :
    Yields (entries.forM report : Run σ Unit) fun _ => True :=
  fun desk => ⟨(), _, run_forM_report entries desk, trivial⟩

/-! ### What is returned unless there is a fault -/

/-- **Whatever the computation returns has a property.** It may fail as well. -/
def Returns (run : Run σ α) (property : α → Prop) : Prop :=
  ∀ desk value, (run.run.run desk).1 = .ok value → property value

theorem returns_true (run : Run σ α) : Returns run fun _ => True := fun _ _ _ => trivial

theorem returns_pure {property : α → Prop} {value : α} (holds : property value) :
    Returns (pure value : Run σ α) property := by
  rintro desk _ ⟨⟩
  exact holds

theorem returns_throw {property : α → Prop} (fault : Fault) :
    Returns (throw fault : Run σ α) property := by
  rintro desk value ⟨⟩

theorem returns_lift {property : α → Prop} {result : Except Fault α}
    (holds : ∀ value, result = .ok value → property value) :
    Returns (lift result : Run σ α) property := fun _ value returned => holds value returned

theorem returns_draw {property : α → Prop} {drawn : σ → α × σ}
    (holds : ∀ stream, property (drawn stream).1) : Returns (draw drawn) property := by
  rintro desk _ ⟨⟩
  exact holds desk.stream

/-- **A sequence** returns what its second part returns after its first part. -/
theorem Returns.bind {first : Run σ α} {next : α → Run σ β} {middle : α → Prop}
    {property : β → Prop} (before : Returns first middle)
    (afterwards : ∀ value, middle value → Returns (next value) property) :
    Returns (first >>= next) property := by
  intro desk result returned
  have held := before desk
  rw [run_bind] at returned
  generalize first.run.run desk = ran at held returned
  obtain ⟨value, after⟩ := ran
  cases value with
  | error fault => cases returned
  | ok value => exact afterwards value (held value rfl) after result returned

theorem Returns.mono {run : Run σ α} {strong weak : α → Prop} (returns : Returns run strong)
    (implies : ∀ value, strong value → weak value) : Returns run weak :=
  fun desk value returned => implies value (returns desk value returned)

/-- Computations that do the same from wherever they start. -/
theorem ext {run other : Run σ α} (same : ∀ desk, run.run.run desk = other.run.run desk) :
    run = other := funext same

/-- **Two sequences with the same first part** are the same if their second parts are, on what it
returns. -/
theorem Returns.bind_congr {first : Run σ α} {next other : α → Run σ β} {middle : α → Prop}
    (before : Returns first middle) (same : ∀ value, middle value → next value = other value) :
    first >>= next = first >>= other := by
  refine ext fun desk => ?_
  have held := before desk
  rw [run_bind, run_bind]
  generalize first.run.run desk = ran at held
  obtain ⟨result, after⟩ := ran
  cases result with
  | error fault => rfl
  | ok value =>
    show (next value).run.run after = (other value).run.run after
    rw [same value (held value rfl)]

theorem Yields.returns {run : Run σ α} {property : α → Prop} (yields : Yields run property) :
    Returns run property := fun _ _ ended => yields.of_eq_ok ended

/-! ### Events in passing -/

/-- **Nothing depends on the events reported before**; new ones are put behind them, and none of
these is an improvement. -/
structure Appends (run : Run σ α) : Prop where
  behind : ∀ stream events, run.run.run ⟨stream, events⟩ =
    ((run.run.run ⟨stream, #[]⟩).1, ⟨(run.run.run ⟨stream, #[]⟩).2.stream,
      events ++ (run.run.run ⟨stream, #[]⟩).2.events⟩)
  silent : ∀ stream, Event.improvements (run.run.run ⟨stream, #[]⟩).2.events = []

theorem improvements_append (first second : Array Event) :
    Event.improvements (first ++ second) =
      Event.improvements first ++ Event.improvements second := by
  rw [Event.improvements, Array.toList_append, List.filterMap_append]
  rfl

/-- A computation that reports nothing. -/
theorem appends_of_no_event {run : Run σ α} {result : σ → Except Fault α} {later : σ → σ}
    (ends : ∀ stream events,
      run.run.run ⟨stream, events⟩ = (result stream, ⟨later stream, events⟩)) :
    Appends run where
  behind stream events := by rw [ends, ends, Array.append_empty]
  silent stream := by rw [ends]; rfl

theorem appends_pure (value : α) : Appends (pure value : Run σ α) :=
  appends_of_no_event fun _ _ => rfl

theorem appends_throw (fault : Fault) : Appends (throw fault : Run σ α) :=
  appends_of_no_event fun _ _ => rfl

theorem appends_lift (result : Except Fault α) : Appends (lift result : Run σ α) :=
  appends_of_no_event fun _ _ => rfl

theorem appends_draw (drawn : σ → α × σ) : Appends (draw drawn) := by
  have ends : ∀ stream events, (draw drawn).run.run ⟨stream, events⟩ =
      (.ok (drawn stream).1, ⟨(drawn stream).2, events⟩) := fun _ _ => rfl
  exact appends_of_no_event ends

theorem appends_report {event : Event} (silent : event.improvement? = none) :
    Appends (report event : Run σ Unit) where
  behind stream events := by
    show (Except.ok (), (⟨stream, events.push event⟩ : Desk σ)) =
      (_, ⟨stream, events ++ #[].push event⟩)
    rw [Array.push_eq_append]
    rfl
  silent stream := by
    show [event].filterMap Event.improvement? = []
    rw [List.filterMap_cons_none silent, List.filterMap_nil]

theorem Appends.bind {first : Run σ α} {next : α → Run σ β} (before : Appends first)
    (afterwards : ∀ value, Appends (next value)) : Appends (first >>= next) where
  behind stream events := by
    rw [run_bind, run_bind, before.behind stream events]
    cases ran : first.run.run ⟨stream, #[]⟩ with
    | mk result after =>
      cases result with
      | error fault => rfl
      | ok value =>
        obtain ⟨later, reported⟩ := after
        dsimp only
        rw [(afterwards value).behind later (events ++ reported),
          (afterwards value).behind later reported, Array.append_assoc]
  silent stream := by
    have quiet := before.silent stream
    rw [run_bind]
    cases ran : first.run.run ⟨stream, #[]⟩ with
    | mk result after =>
      rw [ran] at quiet
      cases result with
      | error fault => exact quiet
      | ok value =>
        obtain ⟨later, reported⟩ := after
        dsimp only at quiet ⊢
        rw [(afterwards value).behind later reported, improvements_append, quiet,
          (afterwards value).silent later, List.append_nil]

variable [RandomStream σ]

/-- A shuffled list holds the same entries. -/
theorem yields_shuffle (entries : List α) :
    Yields (draw (RandomStream.shuffle entries) : Run σ (List α)) (·.Perm entries) :=
  yields_draw fun stream => RandomStream.shuffle_perm entries stream

theorem returns_shuffle (entries : List α) :
    Returns (draw (RandomStream.shuffle entries) : Run σ (List α)) (·.Perm entries) :=
  returns_draw fun stream => RandomStream.shuffle_perm entries stream

end Transversal.Run
