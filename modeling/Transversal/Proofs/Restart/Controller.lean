/-
**Which rounds a run of restarts takes, and what it makes of them.**

* `roundsTaken`: up to the first round that reaches the bound, or all of the budget.
* `IsFirstSmallest`, `IsRecord`: the round whose cover is kept, and the rounds of the history.
* `RestartResult.ofFirst`: what is left behind by the first rounds of a sequence;
  `RestartResult.taken_ofFirst`: its cover, its history and its sizes.
* `Task.restartBy`: the loop, whatever a round draws from.
* `Task.Takes`: one more round of the sequence is recorded and told of.
* `Task.Takes.recorded`: so a whole run records the rounds that are to be taken.
* `Task.takes_restartOnce`: rounds on one stream are taken from it one after the other.
-/
import Transversal.Proofs.Restart.Progress

namespace Transversal

/-! ### How many rounds -/

/-- The number of rounds to take: up to the first one that reaches the bound, or all of the
budget. -/
def roundsTaken (sizes : Nat → Nat) (lowerBound : Int) (budget : Nat) : Nat :=
  match (List.range budget).find? fun index => (sizes index : Int) ≤ lowerBound with
  | some first => first + 1
  | none => budget

variable {sizes : Nat → Nat} {lowerBound : Int} {budget count index : Nat}

/-- No round before the last one taken reaches the bound, and the last one does if the budget is not
spent. -/
theorem roundsTaken_eq (within : count ≤ budget)
    (before : ∀ index, index + 1 < count → lowerBound < (sizes index : Int))
    (stops : count < budget → ∃ index < count, (sizes index : Int) ≤ lowerBound) :
    roundsTaken sizes lowerBound budget = count := by
  rw [roundsTaken]
  cases found : (List.range budget).find? fun index => (sizes index : Int) ≤ lowerBound with
  | none =>
    rw [List.find?_range_eq_none] at found
    by_contra differs
    dsimp only at differs
    obtain ⟨index, below, reaches⟩ := stops (by omega)
    have unreached := found index (by omega)
    rw [Bool.not_eq_true', decide_eq_false_iff_not] at unreached
    exact unreached reaches
  | some first =>
    obtain ⟨reaches, inRange, earlier⟩ := List.find?_range_eq_some.mp found
    rw [List.mem_range] at inRange
    rw [decide_eq_true_eq] at reaches
    have late : ¬ first + 1 < count := fun early => by
      have above := before first early
      omega
    by_contra differs
    dsimp only at differs
    obtain ⟨index, below, small⟩ := stops (by omega)
    have unreached := earlier index (by omega)
    rw [Bool.not_eq_true', decide_eq_false_iff_not] at unreached
    exact unreached small

/-- Sizes five, four and three: the third round reaches the bound. -/
example : roundsTaken (fun index => 5 - index) 3 10 = 3 := by decide

/-! ### The smallest round -/

/-- The first one of the smallest rounds among so many. -/
structure IsFirstSmallest (sizes : Nat → Nat) (count index : Nat) : Prop where
  within : index < count
  smallest : ∀ other < count, sizes index ≤ sizes other
  first : ∀ earlier < index, sizes index < sizes earlier

/-- A round that is smaller than all before it. -/
def IsRecord (sizes : Nat → Nat) (index : Nat) : Prop :=
  ∀ earlier < index, sizes index < sizes earlier

instance : DecidablePred (IsRecord sizes) :=
  fun index => inferInstanceAs (Decidable (∀ earlier < index, sizes index < sizes earlier))

/-- A round that is smaller than all before it is the first smallest one up to it. -/
theorem IsRecord.isFirstSmallest (record : IsRecord sizes count) :
    IsFirstSmallest sizes (count + 1) count where
  within := Nat.lt_succ_self count
  smallest other below := by
    rcases Nat.lt_succ_iff_lt_or_eq.mp below with earlier | rfl
    · exact le_of_lt (record other earlier)
    · exact le_refl _
  first := record

/-- A round that is no smaller leaves the first smallest one as it is. -/
theorem IsFirstSmallest.keep (smallest : IsFirstSmallest sizes count index)
    (larger : sizes index ≤ sizes count) : IsFirstSmallest sizes (count + 1) index where
  within := Nat.lt_succ_of_lt smallest.within
  smallest other below := by
    rcases Nat.lt_succ_iff_lt_or_eq.mp below with earlier | rfl
    · exact smallest.smallest other earlier
    · exact larger
  first := smallest.first

/-! ### What the first rounds of a sequence leave behind -/

/-- The size that the round with an index is pruned to. -/
def prunedSize (rounds : Nat → Round) (index : Nat) : Nat := (rounds index).pruned.size

/-- **What is left behind by so many rounds of a sequence**: all their sizes, the cover of the first
smallest one, and a history of those that were smaller than all before them. -/
structure RestartResult.Taken (rounds : Nat → Round) (count : Nat) (result : RestartResult) :
    Prop where
  counted : result.progress.rounds = count
  sizes : result.sizes = (List.range count).map fun index => (rounds index).sizes
  unstarted : count = 0 → result.progress.best = none
  kept : 0 < count → ∃ index, IsFirstSmallest (prunedSize rounds) count index ∧
    result.progress.best = some (rounds index).pruned.members
  history : result.progress.history =
    ((List.range count).filter fun index => IsRecord (prunedSize rounds) index).map
      fun index => (index + 1, prunedSize rounds index)

/-- What is left behind by the first rounds of a sequence. -/
def RestartResult.ofFirst (rounds : Nat → Round) (count : Nat) : RestartResult :=
  .ofRounds ((List.range count).map rounds)

variable {rounds : Nat → Round}

namespace RestartResult

theorem ofFirst_succ (rounds : Nat → Round) (count : Nat) :
    ofFirst rounds (count + 1) = ⟨(ofFirst rounds count).progress.record (rounds count),
      (ofFirst rounds count).sizes ++ [(rounds count).sizes]⟩ := by
  rw [ofFirst, List.range_succ, List.map_append, List.map_singleton, ofRounds_concat]
  rfl

/-- One more round of the sequence. -/
theorem Taken.record {result : RestartResult} (taken : result.Taken rounds count) :
    Taken rounds (count + 1)
      ⟨result.progress.record (rounds count), result.sizes ++ [(rounds count).sizes]⟩ := by
  have listed : result.sizes ++ [(rounds count).sizes] =
      (List.range (count + 1)).map fun index => (rounds index).sizes := by
    rw [taken.sizes, List.range_succ, List.map_append, List.map_singleton]
  rcases result.progress.record_cases (rounds count) with ⟨improves, same⟩ | ⟨later, larger, same⟩
  · have record : IsRecord (prunedSize rounds) count := by
      intro earlier below
      obtain ⟨index, smallest, kept⟩ := taken.kept (by omega)
      rcases improves with absent | smaller
      · rw [kept] at absent
        cases absent
      · rw [Progress.cover, kept] at smaller
        exact lt_of_lt_of_le smaller (smallest.smallest earlier below)
    rw [same]
    refine ⟨congrArg (· + 1) taken.counted, listed, fun none => absurd none (Nat.succ_ne_zero _),
      fun _ => ⟨count, record.isFirstSmallest, rfl⟩, ?_⟩
    rw [List.range_succ, List.filter_append, List.map_append, ← taken.history,
      List.filter_singleton, decide_eq_true record, taken.counted]
    rfl
  · have started : 0 < count := by
      by_contra none
      exact later (taken.unstarted (by omega))
    obtain ⟨index, smallest, kept⟩ := taken.kept started
    rw [Progress.cover, kept] at larger
    have unlike : ¬ IsRecord (prunedSize rounds) count := fun record =>
      absurd (record index smallest.within) (Nat.not_lt.mpr larger)
    rw [same]
    refine ⟨congrArg (· + 1) taken.counted, listed, fun none => absurd none (Nat.succ_ne_zero _),
      fun _ => ⟨index, smallest.keep larger, kept⟩, ?_⟩
    rw [List.range_succ, List.filter_append, List.map_append, ← taken.history,
      List.filter_singleton, decide_eq_false unlike]
    exact (List.append_nil _).symm

/-- **What the first rounds of a sequence leave behind.** -/
theorem taken_ofFirst (rounds : Nat → Round) (count : Nat) :
    (ofFirst rounds count).Taken rounds count := by
  induction count with
  | zero => exact ⟨rfl, rfl, fun _ => rfl, fun some => absurd some (lt_irrefl 0), rfl⟩
  | succ count ih =>
    rw [ofFirst_succ]
    exact ih.record

theorem hasReached_ofFirst : (ofFirst rounds count).progress.hasReached lowerBound ↔
    ∃ index < count, (prunedSize rounds index : Int) ≤ lowerBound := by
  rw [ofFirst, (records_ofRounds _).hasReached_iff]
  constructor
  · rintro ⟨round, member, reaches⟩
    obtain ⟨index, below, rfl⟩ := List.mem_map.mp member
    exact ⟨index, List.mem_range.mp below, reaches⟩
  · rintro ⟨index, below, reaches⟩
    exact ⟨rounds index, List.mem_map_of_mem (List.mem_range.mpr below), reaches⟩

end RestartResult

/-- What is left behind by the rounds of a sequence that are to be taken. -/
def RestartResult.ofBudget (rounds : Nat → Round) (lowerBound : Int) (budget : Nat) :
    RestartResult :=
  .ofFirst rounds (roundsTaken (prunedSize rounds) lowerBound budget)

/-! ### What is reported -/

/-- What a caller is told of a history. -/
def toldOf (lowerBound : Int) (history : List (Nat × Nat)) : List (Nat × Nat × Int) :=
  history.map fun entry => (entry.1, entry.2, lowerBound)

/-- A caller is told of every new entry of the history, and of nothing else. -/
theorem Progress.improvements_recordEvents (progress : Progress) (lowerBound : Int)
    (round : Round) :
    toldOf lowerBound (progress.record round).history =
      toldOf lowerBound progress.history ++
        Event.improvements (progress.recordEvents lowerBound round).toArray := by
  rw [record, recordEvents, toldOf, toldOf]
  by_cases improves : progress.isImprovedBy round.pruned.size
  · rw [if_pos improves, if_pos improves, List.map_append]
    rfl
  · rw [if_neg improves, if_neg improves]
    exact (List.append_nil _).symm

/-- A caller has been told of the first rounds of a sequence. -/
def ToldFirst (lowerBound : Int) (rounds : Nat → Round) (count : Nat) (events : Array Event) :
    Prop :=
  Event.improvements events =
    toldOf lowerBound (RestartResult.ofFirst rounds count).progress.history

theorem toldFirst_succ {events : Array Event} :
    ToldFirst lowerBound rounds (count + 1) events ↔ Event.improvements events = toldOf lowerBound
      ((RestartResult.ofFirst rounds count).progress.record (rounds count)).history := by
  rw [ToldFirst, RestartResult.ofFirst_succ]

namespace Task

variable {σ : Type} {task : Task}

/-! ### The loop -/

/-- Rounds that are made one after the other, at most `budget` more; none after one that reached
the lower bound. -/
def restartBy (task : Task) (once : RestartResult → Run σ RestartResult) :
    (budget : Nat) → RestartResult → Run σ RestartResult
  | 0, result => pure result
  | budget + 1, result => do
    if result.progress.hasReached task.lowerBound then pure result
    else restartBy task once budget (← once result)

/-- **One more round of a sequence is recorded**, and a caller is told of it, wherever a run of the
sequence stands. -/
def Takes (task : Task) (once : RestartResult → Run σ RestartResult) (rounds : Nat → Round)
    (stands : Nat → σ → Prop) : Prop :=
  ∀ count desk, stands count desk.stream → ToldFirst task.lowerBound rounds count desk.events →
    ∃ after, (once (.ofFirst rounds count)).run.run desk =
        (.ok (.ofFirst rounds (count + 1)), after) ∧
      stands (count + 1) after.stream ∧
      ToldFirst task.lowerBound rounds (count + 1) after.events

/-- **A run ended with the rounds of a sequence that are to be taken**, and a caller was told of
them. -/
structure Recorded (task : Task) (rounds : Nat → Round) (budget : Nat)
    (ran : Except Fault RestartResult × Desk σ) : Prop where
  result : ran.1 = .ok (.ofBudget rounds task.lowerBound budget)
  told : ToldFirst task.lowerBound rounds
    (roundsTaken (prunedSize rounds) task.lowerBound budget) ran.2.events

theorem recorded_of_taken {desk : Desk σ}
    (stops : roundsTaken (prunedSize rounds) task.lowerBound budget = count)
    (told : ToldFirst task.lowerBound rounds count desk.events) :
    task.Recorded rounds budget (.ok (.ofFirst rounds count), desk) := by
  subst stops
  exact ⟨rfl, told⟩

/-- After so many rounds of the sequence, further ones are taken up to the first one that reaches
the bound, or up to the budget. -/
theorem Takes.restartBy {once : RestartResult → Run σ RestartResult} {stands : Nat → σ → Prop}
    (takes : task.Takes once rounds stands) {desk : Desk σ} (stand : stands count desk.stream)
    (told : ToldFirst task.lowerBound rounds count desk.events)
    (before : ∀ index, index + 1 < count → task.lowerBound < (prunedSize rounds index : Int))
    (budget : Nat) :
    task.Recorded rounds (count + budget)
      ((task.restartBy once budget (.ofFirst rounds count)).run.run desk) := by
  induction budget generalizing count desk with
  | zero =>
    have spent := roundsTaken_eq (le_refl count) before fun below => absurd below (lt_irrefl count)
    exact recorded_of_taken spent told
  | succ budget ih =>
    rw [Task.restartBy]
    by_cases reached : (RestartResult.ofFirst rounds count).progress.hasReached task.lowerBound
    · rw [if_pos reached]
      have stops := roundsTaken_eq (Nat.le_add_right count (budget + 1)) before
        fun _ => RestartResult.hasReached_ofFirst.mp reached
      exact recorded_of_taken stops told
    · rw [if_neg reached, Run.run_bind]
      obtain ⟨after, ran, stand, told⟩ := takes count desk stand told
      rw [ran, ← Nat.succ_add_eq_add_succ]
      refine ih stand told fun index below => ?_
      by_contra small
      refine reached (RestartResult.hasReached_ofFirst.mpr ⟨index, ?_, Int.not_lt.mp small⟩)
      exact Nat.lt_of_succ_lt_succ below

/-- **A run takes the rounds of the sequence** up to the first one that reaches the bound, or all of
the budget. -/
theorem Takes.recorded {once : RestartResult → Run σ RestartResult} {stands : Nat → σ → Prop}
    (takes : task.Takes once rounds stands) {stream : σ} (stand : stands 0 stream) (budget : Nat) :
    task.Recorded rounds budget
      ((task.restartBy once budget ⟨.start, []⟩).run.run ⟨stream, #[]⟩) := by
  have told : ToldFirst task.lowerBound rounds 0 (⟨stream, #[]⟩ : Desk σ).events := rfl
  have from_start := takes.restartBy stand told
    (fun index below => absurd below (Nat.not_lt_zero _)) budget
  rwa [Nat.zero_add] at from_start

variable [RandomStream σ]

/-- One more round after others, where it is computed on the stream at hand. -/
theorem restartOnce_run {stream : σ} {round : Round} {later : Desk σ}
    (ran : task.round.run.run ⟨stream, #[]⟩ = (.ok round, later)) (result : RestartResult)
    (events : Array Event) :
    (task.restartOnce result).run.run ⟨stream, events⟩ =
      (.ok ⟨result.progress.record round, result.sizes ++ [round.sizes]⟩, ⟨later.stream,
        events ++ later.events ++
          (result.progress.recordEvents task.lowerBound round).toArray⟩) := by
  rw [restartOnce, Run.run_bind, task.appends_round.behind, ran]
  dsimp only
  rw [Run.run_bind, Run.run_forM_report]
  rfl

/-- A caller is told of one more round. -/
theorem improvements_restartOnce {stream : σ} {round : Round} {later : Desk σ}
    (ran : task.round.run.run ⟨stream, #[]⟩ = (.ok round, later)) {progress : Progress}
    {events : Array Event}
    (told : Event.improvements events = toldOf task.lowerBound progress.history) :
    Event.improvements (events ++ later.events ++
        (progress.recordEvents task.lowerBound round).toArray) =
      toldOf task.lowerBound (progress.record round).history := by
  have silent := task.appends_round.silent stream
  rw [ran] at silent
  rw [Run.improvements_append, Run.improvements_append, silent, told, List.append_nil,
    Progress.improvements_recordEvents]

/-! ### One stream for all rounds -/

/-- The stream after so many rounds on it, one after the other. -/
def streamBefore (task : Task) (stream : σ) : Nat → σ
  | 0 => stream
  | index + 1 => (task.round.run.run ⟨task.streamBefore stream index, #[]⟩).2.stream

/-- The rounds that are computed on one stream, one after the other. -/
def roundOn (task : Task) (stream : σ) (index : Nat) : Except Fault Round :=
  (task.round.run.run ⟨task.streamBefore stream index, #[]⟩).1

/-- **Rounds on one stream** are taken from it one after the other. -/
theorem takes_restartOnce {stream : σ}
    (computed : ∀ index, task.roundOn stream index = .ok (rounds index)) :
    task.Takes task.restartOnce rounds fun count here => here = task.streamBefore stream count := by
  rintro count ⟨here, events⟩ rfl told
  have ran : task.round.run.run ⟨task.streamBefore stream count, #[]⟩ =
      (.ok (rounds count), (task.round.run.run ⟨task.streamBefore stream count, #[]⟩).2) :=
    Prod.ext (computed count) rfl
  rw [RestartResult.ofFirst_succ]
  exact ⟨_, restartOnce_run ran _ events, rfl,
    toldFirst_succ.mpr (improvements_restartOnce ran told)⟩

/-- The loop on one stream is the common one. -/
theorem restartFrom_eq (budget : Nat) (result : RestartResult) :
    (task.restartFrom budget result : Run σ RestartResult) =
      task.restartBy task.restartOnce budget result := by
  induction budget generalizing result with
  | zero => rfl
  | succ budget ih =>
    rw [restartFrom, restartBy]
    simp only [ih]

/-- **A run on one stream** takes its rounds from it. -/
theorem recorded_restart {stream : σ}
    (computed : ∀ index, task.roundOn stream index = .ok (rounds index)) (budget : Nat) :
    task.Recorded rounds budget ((task.restart budget).run.run ⟨stream, #[]⟩) := by
  rw [restart, restartFrom_eq]
  exact (takes_restartOnce computed).recorded rfl budget

end Task

end Transversal
