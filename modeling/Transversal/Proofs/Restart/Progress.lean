/-
**What is recorded of a list of rounds.**

* `Progress.Records`: the number of rounds, the first smallest cover, and a history that starts
  with the first round and falls to the smallest size.
* `Progress.Records.record`: kept by every round recorded, in any order.
* `Progress.Records.hasReached_iff`: the bound is reached once a round has reached it.
* `RestartResult.ofRounds`: what rounds leave behind that are recorded one after the other.
* `Task.returns_restart`, `Task.Ready.yields_restart`: a run on one stream leaves this behind, and
  never fails if no round can.
-/
import Transversal.Proofs.Restart.Round
import Transversal.Restart.Sequential

namespace Transversal

/-! ### The rounds recorded -/

/-- An earlier entry of a history and a later one: the number of the round rises, the size falls. -/
def Improves (earlier later : Nat × Nat) : Prop := earlier.1 < later.1 ∧ later.2 < earlier.2

/-- **What is recorded of a list of rounds.** -/
structure Progress.Records (rounds : List Round) (progress : Progress) : Prop where
  counted : progress.rounds = rounds.length
  first : progress.best = none → rounds = []
  taken : ∀ best, progress.best = some best → ∃ round ∈ rounds, round.pruned.members = best
  smallest : ∀ round ∈ rounds, progress.cover.length ≤ round.pruned.size
  falling : progress.history.Pairwise Improves
  numbered : ∀ entry ∈ progress.history,
    entry.1 ≤ progress.rounds ∧ progress.cover.length ≤ entry.2
  begins : progress.history.head?.map Prod.fst = if rounds = [] then none else some 1
  ends : progress.history.getLast?.map Prod.snd = progress.best.map List.length

namespace Progress

theorem records_start : Records [] start where
  counted := rfl
  first _ := rfl
  taken _ absent := by cases absent
  smallest _ member := absurd member List.not_mem_nil
  falling := List.Pairwise.nil
  numbered _ member := absurd member List.not_mem_nil
  begins := rfl
  ends := rfl

variable {rounds : List Round} {progress : Progress}

/-- A smaller cover replaces the smallest so far, any other one does not. -/
theorem record_cases (progress : Progress) (round : Round) :
    ((progress.best = none ∨ round.pruned.size < progress.cover.length) ∧
      progress.record round = ⟨some round.pruned.members, progress.rounds + 1,
        progress.history ++ [(progress.rounds + 1, round.pruned.size)]⟩) ∨
    (progress.best ≠ none ∧ progress.cover.length ≤ round.pruned.size ∧
      progress.record round = ⟨progress.best, progress.rounds + 1, progress.history⟩) := by
  rw [record, isImprovedBy, cover]
  cases progress.best with
  | none => exact .inl ⟨.inl rfl, if_pos rfl⟩
  | some best =>
    by_cases smaller : round.pruned.size < best.length
    · exact .inl ⟨.inr smaller, if_pos (decide_eq_true smaller)⟩
    · refine .inr ⟨Option.some_ne_none best, Nat.not_lt.mp smaller, if_neg ?_⟩
      rwa [decide_eq_true_eq]

namespace Records

/-- The history is empty before the first round only. -/
theorem history_eq_nil_iff (records : progress.Records rounds) :
    progress.history = [] ↔ rounds = [] := by
  have begins := records.begins
  constructor
  · intro empty
    by_contra some_before
    rw [empty, if_neg some_before] at begins
    cases begins
  · intro none_before
    rwa [if_pos none_before, Option.map_eq_none_iff, List.head?_eq_none_iff] at begins

/-- There is a smallest cover after the first round. -/
theorem best_eq_none_iff (records : progress.Records rounds) :
    progress.best = none ↔ rounds = [] := by
  refine ⟨records.first, fun none_before => ?_⟩
  cases best : progress.best with
  | none => rfl
  | some cover =>
    obtain ⟨round, member, _⟩ := records.taken cover best
    rw [none_before] at member
    cases member

/-- A smaller cover is below all that was recorded. -/
theorem lt_of_mem_history (records : progress.Records rounds) {size : Nat}
    (improves : progress.best = none ∨ size < progress.cover.length) {entry : Nat × Nat}
    (member : entry ∈ progress.history) : size < entry.2 := by
  rcases improves with none_taken | smaller
  · rw [records.history_eq_nil_iff.mpr (records.first none_taken)] at member
    cases member
  · exact lt_of_lt_of_le smaller (records.numbered entry member).2

/-- A round with a smaller cover. -/
theorem improve (records : progress.Records rounds) {round : Round}
    (improves : progress.best = none ∨ round.pruned.size < progress.cover.length) :
    Records (rounds ++ [round]) ⟨some round.pruned.members, progress.rounds + 1,
      progress.history ++ [(progress.rounds + 1, round.pruned.size)]⟩ := by
  have above : ∀ entry ∈ progress.history, round.pruned.size < entry.2 :=
    fun entry => records.lt_of_mem_history improves
  refine ⟨?_, fun absent => ?_, ?_, ?_, ?_, ?_, ?_, ?_⟩
  · rw [List.length_append, List.length_singleton, records.counted]
  · cases absent
  · rintro best ⟨⟩
    exact ⟨round, by simp, rfl⟩
  · rw [List.forall_mem_append, List.forall_mem_singleton]
    refine ⟨fun other member => ?_, le_refl _⟩
    rcases improves with none_taken | smaller
    · rw [records.first none_taken] at member
      cases member
    · exact le_of_lt (lt_of_lt_of_le smaller (records.smallest other member))
  · rw [List.pairwise_append]
    refine ⟨records.falling, List.pairwise_singleton _ _, fun entry member => ?_⟩
    rw [List.forall_mem_singleton]
    exact ⟨Nat.lt_succ_of_le (records.numbered entry member).1, above entry member⟩
  · rw [List.forall_mem_append, List.forall_mem_singleton]
    refine ⟨fun entry member => ⟨?_, le_of_lt (above entry member)⟩, le_refl _, le_refl _⟩
    exact Nat.le_succ_of_le (records.numbered entry member).1
  · rw [if_neg (List.concat_ne_nil round rounds)]
    by_cases none_before : rounds = []
    · rw [records.history_eq_nil_iff.mpr none_before, records.counted, none_before]
      rfl
    · have begins := records.begins
      rw [if_neg none_before] at begins
      rw [List.head?_append_of_ne_nil _ fun empty =>
        none_before (records.history_eq_nil_iff.mp empty)]
      exact begins
  · rw [List.getLast?_concat]
    rfl

/-- A round with a cover that is no smaller. -/
theorem keep (records : progress.Records rounds) {round : Round} (later : progress.best ≠ none)
    (larger : progress.cover.length ≤ round.pruned.size) :
    Records (rounds ++ [round]) ⟨progress.best, progress.rounds + 1, progress.history⟩ := by
  refine ⟨?_, fun absent => absurd absent later, fun best found => ?_, ?_, records.falling,
    fun entry member => ?_, ?_, records.ends⟩
  · rw [List.length_append, List.length_singleton, records.counted]
  · obtain ⟨earlier, member, same⟩ := records.taken best found
    exact ⟨earlier, List.mem_append_left _ member, same⟩
  · rw [List.forall_mem_append, List.forall_mem_singleton]
    exact ⟨records.smallest, larger⟩
  · obtain ⟨numbered, above⟩ := records.numbered entry member
    exact ⟨Nat.le_succ_of_le numbered, above⟩
  · rw [if_neg (List.concat_ne_nil round rounds)]
    exact records.begins.trans (if_neg fun empty => later (records.best_eq_none_iff.mpr empty))

/-- **One more round recorded.** -/
theorem record (records : progress.Records rounds) (round : Round) :
    (progress.record round).Records (rounds ++ [round]) := by
  rcases progress.record_cases round with ⟨improves, same⟩ | ⟨later, larger, same⟩
  · rw [same]
    exact records.improve improves
  · rw [same]
    exact records.keep later larger

/-- The smallest cover is that of one of the rounds. -/
theorem cover_mem (records : progress.Records rounds) (nonempty : rounds ≠ []) :
    ∃ round ∈ rounds, round.pruned.members = progress.cover := by
  cases best : progress.best with
  | none => exact absurd (records.first best) nonempty
  | some cover =>
    rw [Progress.cover, best, Option.getD_some]
    exact records.taken cover best

/-- **The bound is reached** once a round has reached it. -/
theorem hasReached_iff (records : progress.Records rounds) {lowerBound : Int} :
    progress.hasReached lowerBound ↔ ∃ round ∈ rounds, (round.pruned.size : Int) ≤ lowerBound := by
  cases best : progress.best with
  | none =>
    rw [hasReached, best, records.first best]
    simp
  | some cover =>
    have smallest := records.smallest
    rw [Progress.cover, best, Option.getD_some] at smallest
    rw [hasReached, best, decide_eq_true_eq]
    constructor
    · intro reached
      obtain ⟨round, member, rfl⟩ := records.taken cover best
      exact ⟨round, member, reached⟩
    · rintro ⟨round, member, reached⟩
      have least := smallest round member
      omega

/-- **The smallest cover** has what the pruned covers of all rounds have, and the empty one if there
is no round. -/
theorem cover_induct {good : List Int → Prop} (records : progress.Records rounds)
    (each : ∀ round ∈ rounds, good round.pruned.members) (none_ran : rounds = [] → good []) :
    good progress.cover := by
  by_cases empty : rounds = []
  · rw [Progress.cover, records.best_eq_none_iff.mpr empty]
    exact none_ran empty
  · obtain ⟨round, member, same⟩ := records.cover_mem empty
    exact same ▸ each round member

end Records

end Progress

/-! ### Restarts on one stream -/

/-- What rounds leave behind that are recorded one after the other. -/
def RestartResult.ofRounds (rounds : List Round) : RestartResult :=
  ⟨rounds.foldl Progress.record .start, rounds.map Round.sizes⟩

theorem RestartResult.ofRounds_concat (rounds : List Round) (round : Round) :
    ofRounds (rounds ++ [round]) =
      ⟨(ofRounds rounds).progress.record round, (ofRounds rounds).sizes ++ [round.sizes]⟩ := by
  rw [ofRounds, List.foldl_concat, List.map_append]
  rfl

theorem RestartResult.records_ofRounds (rounds : List Round) :
    (ofRounds rounds).progress.Records rounds := by
  induction rounds using List.reverseRecOn with
  | nil => exact Progress.records_start
  | append_singleton rounds round ih =>
    rw [ofRounds_concat]
    exact ih.record round

namespace Task

variable {σ : Type} [RandomStream σ] {task : Task} {good : Round → Prop} {rounds : List Round}

theorem returns_restartOnce (each : Run.Returns (task.round : Run σ Round) good)
    (rounds : List Round) :
    Run.Returns (task.restartOnce (.ofRounds rounds) : Run σ RestartResult) fun after =>
      ∃ round, good round ∧ after = .ofRounds (rounds ++ [round]) := by
  refine each.bind fun round held => (Run.returns_true _).bind fun _ _ => ?_
  exact Run.returns_pure ⟨round, held, (RestartResult.ofRounds_concat rounds round).symm⟩

/-- Rounds are added up to the budget, and fewer only if the bound is reached. -/
theorem returns_restartFrom (each : Run.Returns (task.round : Run σ Round) good) (budget : Nat)
    (held : ∀ round ∈ rounds, good round) :
    Run.Returns (task.restartFrom budget (.ofRounds rounds) : Run σ RestartResult) fun final =>
      ∃ later, (∀ round ∈ rounds ++ later, good round) ∧ final = .ofRounds (rounds ++ later) ∧
        (later.length < budget → final.progress.hasReached task.lowerBound) := by
  induction budget generalizing rounds with
  | zero =>
    refine Run.returns_pure ⟨[], ?_, ?_, fun below => absurd below (Nat.not_lt_zero _)⟩
    · rwa [List.append_nil]
    · rw [List.append_nil]
  | succ budget ih =>
    rw [restartFrom]
    by_cases reached : (RestartResult.ofRounds rounds).progress.hasReached task.lowerBound
    · rw [if_pos reached]
      refine Run.returns_pure ⟨[], ?_, ?_, fun _ => reached⟩
      · rwa [List.append_nil]
      · rw [List.append_nil]
    · rw [if_neg reached]
      refine (returns_restartOnce each rounds).bind ?_
      rintro _ ⟨round, here, rfl⟩
      have held : ∀ other ∈ rounds ++ [round], good other := by
        rw [List.forall_mem_append, List.forall_mem_singleton]
        exact ⟨held, here⟩
      refine (ih held).mono ?_
      rintro final ⟨later, all, same, stopped⟩
      rw [List.append_assoc] at all same
      exact ⟨round :: later, all, same, fun below => stopped (Nat.lt_of_succ_lt_succ below)⟩

/-- **A run on one stream** takes all rounds of the budget unless one of them reaches the bound. -/
theorem returns_restart (each : Run.Returns (task.round : Run σ Round) good) (budget : Nat) :
    Run.Returns (task.restart budget : Run σ RestartResult) fun final =>
      ∃ rounds, (∀ round ∈ rounds, good round) ∧ final = .ofRounds rounds ∧
        (rounds.length < budget → final.progress.hasReached task.lowerBound) :=
  returns_restartFrom each budget fun _ member => absurd member List.not_mem_nil

theorem Ready.yields_restartFrom (ready : task.Ready) (budget : Nat) (result : RestartResult) :
    Run.Yields (task.restartFrom budget result : Run σ RestartResult) fun _ => True := by
  induction budget generalizing result with
  | zero => exact Run.yields_pure trivial
  | succ budget ih =>
    rw [restartFrom]
    by_cases reached : result.progress.hasReached task.lowerBound
    · rw [if_pos reached]
      exact Run.yields_pure trivial
    · rw [if_neg reached]
      have once : Run.Yields (task.restartOnce result : Run σ RestartResult) fun _ => True :=
        ready.yields_round.bind fun _ _ => Run.yields_forM.bind fun _ _ => Run.yields_pure trivial
      exact once.bind fun after _ => ih after

/-- **A run on one stream never fails** if no round can. -/
theorem Ready.yields_restart (ready : task.Ready) (budget : Nat) :
    Run.Yields (task.restart budget : Run σ RestartResult) fun _ => True :=
  ready.yields_restartFrom budget _

end Task

end Transversal
