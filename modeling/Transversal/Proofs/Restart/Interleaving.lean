/-
**What holds in every state of a pool, whatever the order of its steps.**

* `Interleaving.Valid`: the log of the updates made so far explains what the restarts share: no
  update is lost, none is made twice, and a restart is only skipped once the flag is raised.
* `Interleaving.Valid.step`: one step keeps it, with a longer log after an update.
* `Interleaving.Reached.exists_valid`: so it holds in every state that is reached.
* `Interleaving.Valid.remaining_lt`, `Interleaving.hasEnded_or_step`: every step leaves less to do,
  and until every restart has ended there is a step.
* `Interleaving.Settled`, `Interleaving.Valid.settled`: what the restarts that were not skipped
  leave behind, if no round fails.
-/
import Mathlib.Algebra.BigOperators.Ring.Finset
import Mathlib.Algebra.Order.BigOperators.Group.Finset
import Transversal.Proofs.Restart.Progress
import Transversal.Restart.Interleaving

namespace Transversal.Interleaving

variable {lowerBound : Int} {outcome : Nat → Except Fault Round} {workers budget : Nat}
  {state next : Interleaving} {log : List (Nat × Round)}

theorem move_phase_self (state : Interleaving) (index : Nat) (phase : Phase) :
    (state.move index phase).phase index = phase := if_pos rfl

theorem move_phase_ne (state : Interleaving) {index other : Nat} (differs : other ≠ index)
    (phase : Phase) : (state.move index phase).phase other = state.phase other := if_neg differs

/-- A restart is in some phase after one of them has moved. -/
theorem move_phase_eq_iff {index other : Nat} {phase held : Phase} :
    (state.move index phase).phase other = held ↔
      (other = index ∧ phase = held) ∨ (other ≠ index ∧ state.phase other = held) := by
  by_cases same : other = index
  · subst same
    simp [move_phase_self]
  · simp [move_phase_ne state same, same]

/-- A restart that a worker is busy with has not ended. -/
theorem hasEnded_of_isActive {phase : Phase} (active : phase.isActive) :
    phase.hasEnded = false := by
  cases phase with
  | admitted | computed round => rfl
  | waiting | committed | skipped | failed fault => cases active

/-! ### The log of the updates -/

/-- **The log explains the state.** It lists the restarts whose rounds were counted, in the order
of their updates. -/
structure Valid (lowerBound : Int) (outcome : Nat → Except Fault Round) (budget : Nat)
    (log : List (Nat × Round)) (state : Interleaving) : Prop where
  once : (log.map Prod.fst).Nodup
  committed : ∀ index, state.phase index = .committed ↔ index ∈ log.map Prod.fst
  outcomes : ∀ entry ∈ log, outcome entry.1 = .ok entry.2
  computed : ∀ index round, state.phase index = .computed round → outcome index = .ok round
  failed : ∀ index fault, state.phase index = .failed fault → outcome index = .error fault
  begun : ∀ index, state.phase index ≠ .waiting → index < budget
  records : state.pool.progress.Records (log.map Prod.snd)
  sizes : state.pool.sizes = log.map fun entry => (entry.1, entry.2.sizes)
  reached : state.pool.progress.hasReached lowerBound → state.pool.finished = true
  raised : state.pool.finished = true →
    state.pool.progress.hasReached lowerBound ∨ ∃ index fault, state.phase index = .failed fault
  skipped : ∀ index, state.phase index = .skipped → state.pool.finished = true

theorem valid_start : Valid lowerBound outcome budget [] start where
  once := List.nodup_nil
  committed index := by
    constructor
    · intro impossible
      cases impossible
    · intro member
      cases member
  outcomes _ member := absurd member List.not_mem_nil
  computed _ _ impossible := by cases impossible
  failed _ _ impossible := by cases impossible
  begun _ begun := absurd rfl begun
  records := Progress.records_start
  sizes := rfl
  reached impossible := by cases impossible
  raised impossible := by cases impossible
  skipped _ impossible := by cases impossible

namespace Valid

/-- A restart that has not ended goes on to a phase other than the update. -/
theorem move (valid : Valid lowerBound outcome budget log state) {index : Nat} {phase : Phase}
    (inRange : index < budget) (runs : (state.phase index).hasEnded = false)
    (unlike : phase ≠ .committed)
    (computed : ∀ round, phase = .computed round → outcome index = .ok round)
    (failed : ∀ fault, phase = .failed fault → outcome index = .error fault)
    (skipped : phase = .skipped → state.pool.finished = true) :
    Valid lowerBound outcome budget log (state.move index phase) := by
  refine ⟨valid.once, fun other => ?_, valid.outcomes, fun other round held => ?_,
    fun other fault held => ?_, fun other held => ?_, valid.records, valid.sizes, valid.reached,
    fun finished => ?_, fun other held => ?_⟩
  · have differs : state.phase other = .committed → other ≠ index := by
      rintro counted rfl
      rw [counted] at runs
      cases runs
    rw [move_phase_eq_iff, ← valid.committed]
    exact ⟨fun held => held.elim (fun held => absurd held.2 unlike) And.right,
      fun counted => .inr ⟨differs counted, counted⟩⟩
  · rcases move_phase_eq_iff.mp held with ⟨rfl, now⟩ | ⟨_, before⟩
    · exact computed round now
    · exact valid.computed other round before
  · rcases move_phase_eq_iff.mp held with ⟨rfl, now⟩ | ⟨_, before⟩
    · exact failed fault now
    · exact valid.failed other fault before
  · by_cases same : other = index
    · exact same ▸ inRange
    · rw [move_phase_ne state same] at held
      exact valid.begun other held
  · rcases valid.raised finished with reached | ⟨other, fault, held⟩
    · exact .inl reached
    · have differs : other ≠ index := by
        rintro rfl
        rw [held] at runs
        cases runs
      exact .inr ⟨other, fault, move_phase_eq_iff.mpr (.inr ⟨differs, held⟩)⟩
  · rcases move_phase_eq_iff.mp held with ⟨_, now⟩ | ⟨_, before⟩
    · exact skipped now
    · exact valid.skipped other before

/-- **An update under the lock** extends the log. -/
theorem commit (valid : Valid lowerBound outcome budget log state) {index : Nat} {round : Round}
    (holds : state.phase index = .computed round) :
    Valid lowerBound outcome budget (log ++ [(index, round)])
      (state.commit lowerBound index round) := by
  have fresh : index ∉ log.map Prod.fst := by
    rw [← valid.committed, holds]
    simp
  have recorded := valid.records.record round
  refine ⟨?_, fun other => ?_, ?_, fun other later held => ?_, fun other fault held => ?_,
    fun other held => ?_, ?_, ?_, fun reached => ?_, fun finished => ?_, fun other held => ?_⟩
  · rw [List.map_append, List.nodup_append]
    refine ⟨valid.once, List.nodup_singleton _, ?_⟩
    rintro first member second new rfl
    rw [List.map_singleton, List.mem_singleton] at new
    subst new
    exact fresh member
  · rw [List.map_append, List.mem_append, List.map_singleton, List.mem_singleton,
      ← valid.committed]
    by_cases same : other = index
    · exact iff_of_true (move_phase_eq_iff.mpr (.inl ⟨same, rfl⟩)) (.inr same)
    · exact (iff_of_eq (congrArg (· = Phase.committed) (move_phase_ne state same _))).trans
        (or_iff_left same).symm
  · rw [List.forall_mem_append, List.forall_mem_singleton]
    exact ⟨valid.outcomes, valid.computed index round holds⟩
  · rcases move_phase_eq_iff.mp held with ⟨_, impossible⟩ | ⟨_, before⟩
    · cases impossible
    · exact valid.computed other later before
  · rcases move_phase_eq_iff.mp held with ⟨_, impossible⟩ | ⟨_, before⟩
    · cases impossible
    · exact valid.failed other fault before
  · by_cases same : other = index
    · exact same ▸ valid.begun index (by simp [holds])
    · exact valid.begun other fun waits => held (move_phase_eq_iff.mpr (.inr ⟨same, waits⟩))
  · rw [List.map_append]
    exact recorded
  · rw [List.map_append, ← valid.sizes]
    rfl
  · exact Bool.or_eq_true_iff.mpr (.inr reached)
  · rcases Bool.or_eq_true_iff.mp finished with before | reached
    · rcases valid.raised before with reached | ⟨other, fault, held⟩
      · -- the bound stays reached: the rounds before are still recorded
        obtain ⟨earlier, member, small⟩ := valid.records.hasReached_iff.mp reached
        exact .inl (recorded.hasReached_iff.mpr ⟨earlier, List.mem_append_left _ member, small⟩)
      · have differs : other ≠ index := by
          rintro rfl
          rw [holds] at held
          cases held
        exact .inr ⟨other, fault, move_phase_eq_iff.mpr (.inr ⟨differs, held⟩)⟩
    · exact .inl reached
  · rcases move_phase_eq_iff.mp held with ⟨_, impossible⟩ | ⟨_, before⟩
    · cases impossible
    · exact Bool.or_eq_true_iff.mpr (.inl (valid.skipped other before))

theorem giveUp (valid : Valid lowerBound outcome budget log state) {index : Nat} {fault : Fault}
    (ended : state.phase index = .failed fault) :
    Valid lowerBound outcome budget log state.giveUp :=
  ⟨valid.once, valid.committed, valid.outcomes, valid.computed, valid.failed, valid.begun,
    valid.records, valid.sizes, fun _ => rfl, fun _ => .inr ⟨index, fault, ended⟩, fun _ _ => rfl⟩

/-- **One step** keeps the log, or extends it by an update. -/
theorem step (valid : Valid lowerBound outcome budget log state)
    (step : Step lowerBound outcome workers budget state next) :
    ∃ log, Valid lowerBound outcome budget log next := by
  cases step with
  | enter inRange waits free lowered =>
    exact ⟨log, valid.move inRange (by rw [waits]; rfl) (by simp) (by simp) (by simp) (by simp)⟩
  | skip inRange waits free raised =>
    exact ⟨log, valid.move inRange (by rw [waits]; rfl) (by simp) (by simp) (by simp)
      fun _ => raised⟩
  | compute holds result =>
    refine ⟨log, valid.move (valid.begun _ (by simp [holds])) (by rw [holds]; rfl) (by simp) ?_
      (by simp) (by simp)⟩
    rintro _ ⟨⟩
    exact result
  | fail holds result =>
    refine ⟨log, valid.move (valid.begun _ (by simp [holds])) (by rw [holds]; rfl) (by simp)
      (by simp) ?_ (by simp)⟩
    rintro _ ⟨⟩
    exact result
  | commit holds => exact ⟨_, valid.commit holds⟩
  | giveUp held lowered => exact ⟨log, valid.giveUp held⟩

end Valid

/-- **Every state that is reached** is explained by some log. -/
theorem Reached.exists_valid (reached : Reached lowerBound outcome workers budget state) :
    ∃ log, Valid lowerBound outcome budget log state := by
  induction reached with
  | start => exact ⟨[], valid_start⟩
  | step _ step ih =>
    obtain ⟨log, valid⟩ := ih
    exact valid.step step

/-! ### Every schedule ends -/

/-- The steps that a restart may still take. -/
def stepsLeft : Phase → Nat
  | .waiting => 3
  | .admitted => 2
  | .computed _ => 1
  | .committed | .skipped | .failed _ => 0

/-- The steps that the pool may still take. -/
def remaining (budget : Nat) (state : Interleaving) : Nat :=
  (∑ index ∈ Finset.range budget, stepsLeft (state.phase index)) +
    if state.pool.finished then 0 else 1

/-- A restart that moves on to a later phase leaves less to do. -/
theorem sum_stepsLeft_lt {index : Nat} {phase : Phase} (inRange : index < budget)
    (later : stepsLeft phase < stepsLeft (state.phase index)) :
    ∑ other ∈ Finset.range budget, stepsLeft ((state.move index phase).phase other) <
      ∑ other ∈ Finset.range budget, stepsLeft (state.phase other) := by
  refine Finset.sum_lt_sum (fun other _ => ?_) ⟨index, Finset.mem_range.mpr inRange, ?_⟩
  · by_cases same : other = index
    · subst same
      rw [move_phase_self]
      exact le_of_lt later
    · rw [move_phase_ne state same]
  · rwa [move_phase_self]

/-- **Every step** leaves less to do. -/
theorem Valid.remaining_lt (valid : Valid lowerBound outcome budget log state)
    (step : Step lowerBound outcome workers budget state next) :
    next.remaining budget < state.remaining budget := by
  have known : ∀ index, state.phase index ≠ .waiting → index < budget := valid.begun
  cases step with
  | enter inRange waits free lowered =>
    exact Nat.add_lt_add_right (sum_stepsLeft_lt inRange (by rw [waits]; decide)) _
  | skip inRange waits free raised =>
    exact Nat.add_lt_add_right (sum_stepsLeft_lt inRange (by rw [waits]; decide)) _
  | compute holds result =>
    refine Nat.add_lt_add_right (sum_stepsLeft_lt (known _ (by simp [holds])) ?_) _
    rw [holds]
    exact Nat.lt_succ_self 1
  | fail holds result =>
    refine Nat.add_lt_add_right (sum_stepsLeft_lt (known _ (by simp [holds])) ?_) _
    rw [holds]
    exact Nat.zero_lt_succ 1
  | @commit index round holds =>
    have inRange := known index (by simp [holds])
    have shrinks : ∑ other ∈ Finset.range budget,
          stepsLeft ((state.commit lowerBound index round).phase other) <
        ∑ other ∈ Finset.range budget, stepsLeft (state.phase other) :=
      sum_stepsLeft_lt inRange (by rw [holds]; exact Nat.zero_lt_succ 0)
    have flag : (if (state.commit lowerBound index round).pool.finished then 0 else 1) ≤
        if state.pool.finished then 0 else 1 := by
      by_cases finished : state.pool.finished
      · have still : (state.commit lowerBound index round).pool.finished :=
          Bool.or_eq_true_iff.mpr (.inl finished)
        rw [if_pos finished, if_pos still]
      · rw [if_neg finished]
        split
        · exact Nat.zero_le 1
        · exact le_refl 1
    exact Nat.add_lt_add_of_lt_of_le shrinks flag
  | giveUp ended lowered =>
    refine Nat.add_lt_add_left ?_ _
    rw [lowered]
    exact Nat.zero_lt_one

/-- **Until every restart has ended there is a step**, if there is a worker at all. -/
theorem hasEnded_or_step (someWorker : 1 ≤ workers) (state : Interleaving) :
    state.HasEnded budget ∨ ∃ next, Step lowerBound outcome workers budget state next := by
  by_cases busy : ∃ index < budget, (state.phase index).isActive
  · -- a busy worker can go on
    obtain ⟨index, inRange, active⟩ := busy
    refine .inr ?_
    cases holds : state.phase index with
    | admitted =>
      cases result : outcome index with
      | error fault => exact ⟨_, .fail holds result⟩
      | ok round => exact ⟨_, .compute holds result⟩
    | computed round => exact ⟨_, .commit holds⟩
    | waiting | committed | skipped | failed fault =>
      rw [holds] at active
      cases active
  · -- all workers are free, so a restart that waits can begin
    have idle : state.activeCount budget < workers := by
      have none_active : state.activeCount budget = 0 := by
        rw [activeCount, List.countP_eq_zero]
        intro index member active
        exact busy ⟨index, List.mem_range.mp member, active⟩
      omega
    by_cases waits : ∃ index < budget, state.phase index = .waiting
    · obtain ⟨index, inRange, waits⟩ := waits
      refine .inr ?_
      cases finished : state.pool.finished with
      | true => exact ⟨_, .skip inRange waits idle finished⟩
      | false => exact ⟨_, .enter inRange waits idle finished⟩
    · refine .inl fun index inRange => ?_
      have quiet := fun active => busy ⟨index, inRange, active⟩
      have begun := fun waiting => waits ⟨index, inRange, waiting⟩
      cases holds : state.phase index with
      | waiting => exact absurd holds begun
      | admitted | computed round =>
        rw [holds] at quiet
        exact absurd rfl quiet
      | committed | skipped | failed fault => rfl

/-- **No schedule goes on forever.** -/
theorem exists_not_step {run : Nat → Interleaving} (starts : run 0 = start) :
    ∃ time, ¬ Step lowerBound outcome workers budget (run time) (run (time + 1)) := by
  by_contra endless
  push Not at endless
  have reached : ∀ time, Reached lowerBound outcome workers budget (run time) := by
    intro time
    induction time with
    | zero => exact starts ▸ .start
    | succ time ih => exact .step ih (endless time)
  have falls : ∀ time, (run time).remaining budget + time ≤ (run 0).remaining budget := by
    intro time
    induction time with
    | zero => exact le_refl _
    | succ time ih =>
      obtain ⟨log, valid⟩ := (reached time).exists_valid
      have less := valid.remaining_lt (endless time)
      omega
  have past := falls ((run 0).remaining budget + 1)
  omega

/-! ### What the pool leaves behind -/

/-- The restart has seen that the bound was reached. -/
def isSkipped : Phase → Bool
  | .skipped => true
  | _ => false

/-- The restarts that were not skipped, by their indices. -/
def ran (budget : Nat) (state : Interleaving) : List Nat :=
  (List.range budget).filter fun index => !isSkipped (state.phase index)

/-- **What the restarts that ran leave behind**: every round is counted once, its sizes stand at
the place of its index, the cover is a smallest one, and the history starts with the first round
and falls to its size. -/
structure Settled (rounds : Nat → Round) (ran : List Nat) (result : RestartResult) : Prop where
  counted : result.progress.rounds = ran.length
  sizes : result.sizes = ran.map fun index => (rounds index).sizes
  taken : ran ≠ [] → ∃ index ∈ ran, (rounds index).pruned.members = result.progress.cover
  smallest : ∀ index ∈ ran, result.progress.cover.length ≤ (rounds index).pruned.size
  falling : result.progress.history.Pairwise Improves
  begins : ran ≠ [] → result.progress.history.head?.map Prod.fst = some 1
  ends : ran ≠ [] →
    result.progress.history.getLast?.map Prod.snd = some result.progress.cover.length

/-- A list of numbered entries is put in the order of the numbers. -/
theorem mergeSort_numbered {α : Type} (value : Nat → α) {numbers indices : List Nat}
    (same : numbers.Perm indices) (rising : indices.Pairwise (· ≤ ·)) :
    ((numbers.map fun index => (index, value index)).mergeSort
        fun first second => first.1 ≤ second.1) =
      indices.map fun index => (index, value index) := by
  refine List.Perm.eq_of_pairwise ?_ (List.pairwise_mergeSort ?_ ?_ _) ?_
    ((List.mergeSort_perm _ _).trans (same.map _))
  · intro first second left right below above
    rw [List.mem_mergeSort, List.mem_map] at left
    obtain ⟨index, _, rfl⟩ := left
    obtain ⟨other, _, rfl⟩ := List.mem_map.mp right
    simp only [decide_eq_true_eq] at below above
    rw [le_antisymm below above]
  · intro first second third below above
    simp only [decide_eq_true_eq] at below above ⊢
    exact le_trans below above
  · intro first second
    simp only [Bool.or_eq_true, decide_eq_true_eq]
    exact le_total first.1 second.1
  · rw [List.pairwise_map]
    exact rising.imp fun below => decide_eq_true below

namespace Valid

section Unfailed

variable (valid : Valid lowerBound outcome budget log state)
  (unfailed : ∀ index < budget, ∀ fault, state.phase index ≠ .failed fault)

include valid unfailed

/-- **A restart is only skipped** once the bound is reached. -/
theorem hasReached_of_skipped {index : Nat} (skipped : state.phase index = .skipped) :
    state.pool.progress.hasReached lowerBound := by
  rcases valid.raised (valid.skipped index skipped) with reached | ⟨other, fault, failed⟩
  · exact reached
  · exact absurd failed (unfailed other (valid.begun other (by simp [failed])) fault)

/-- Until the bound is reached no restart is skipped. -/
theorem ran_eq_range_of_unreached (unreached : ¬ state.pool.progress.hasReached lowerBound) :
    state.ran budget = List.range budget := by
  rw [ran, List.filter_eq_self]
  intro index _
  cases holds : state.phase index with
  | skipped => exact absurd (valid.hasReached_of_skipped unfailed holds) unreached
  | waiting | admitted | computed round | committed | failed fault => rfl

variable (ended : state.HasEnded budget)

include ended

/-- Every restart that was not skipped has made its update. -/
theorem mem_ran_iff {index : Nat} :
    index ∈ state.ran budget ↔ state.phase index = .committed := by
  rw [ran, List.mem_filter, List.mem_range]
  constructor
  · rintro ⟨inRange, unskipped⟩
    have past := ended index inRange
    have good := unfailed index inRange
    cases holds : state.phase index with
    | committed => rfl
    | skipped =>
      rw [holds] at unskipped
      cases unskipped
    | failed fault => exact absurd holds (good fault)
    | waiting | admitted | computed round =>
      rw [holds] at past
      cases past
  · intro counted
    refine ⟨valid.begun index (by simp [counted]), ?_⟩
    rw [counted]
    rfl

theorem log_perm : (log.map Prod.fst).Perm (state.ran budget) := by
  have distinct : (state.ran budget).Nodup := List.nodup_range.filter _
  refine (List.perm_ext_iff_of_nodup valid.once distinct).mpr fun index => ?_
  rw [← valid.committed, valid.mem_ran_iff unfailed ended]

/-- No update is lost, and none is made twice. -/
theorem rounds_eq : state.pool.progress.rounds = (state.ran budget).length := by
  rw [valid.records.counted, List.length_map, ← (valid.log_perm unfailed ended).length_eq,
    List.length_map]

/-- The pool only stops before the budget is spent when the bound is reached. -/
theorem hasReached_of_lt (early : state.pool.progress.rounds < budget) :
    state.pool.progress.hasReached lowerBound := by
  by_contra unreached
  rw [valid.rounds_eq unfailed ended, valid.ran_eq_range_of_unreached unfailed unreached,
    List.length_range] at early
  exact lt_irrefl budget early

/-- Some restart runs, if there is any. -/
theorem log_ne_nil (someBudget : 0 < budget) : log ≠ [] := by
  rintro rfl
  have early : state.pool.progress.rounds < budget := by rwa [valid.records.counted]
  have reached := valid.hasReached_of_lt unfailed ended early
  obtain ⟨round, member, _⟩ := valid.records.hasReached_iff.mp reached
  cases member

end Unfailed

section Rounds

variable {rounds : Nat → Round} (valid : Valid lowerBound outcome budget log state)
  (rounded : ∀ index < budget, outcome index = .ok (rounds index))

include valid rounded

theorem not_failed (index : Nat) (inRange : index < budget) (fault : Fault) :
    state.phase index ≠ .failed fault := by
  intro failed
  have result := valid.failed index fault failed
  rw [rounded index inRange] at result
  cases result

theorem log_eq : log = (log.map Prod.fst).map fun index => (index, rounds index) := by
  have same : log = log.map fun entry => (entry.1, rounds entry.1) := by
    refine (List.map_id log).symm.trans (List.map_congr_left fun entry member => ?_)
    have counted : state.phase entry.1 = .committed :=
      (valid.committed entry.1).mpr (List.mem_map_of_mem member)
    have result := valid.outcomes entry member
    rw [rounded entry.1 (valid.begun entry.1 (by simp [counted]))] at result
    exact Prod.ext rfl (Except.ok.inj result).symm
  rw [List.map_map]
  exact same

/-- A bound that is reached was reached by a restart whose update was made. -/
theorem exists_reached (reached : state.pool.progress.hasReached lowerBound) :
    ∃ earlier, state.phase earlier = .committed ∧
      ((rounds earlier).pruned.size : Int) ≤ lowerBound := by
  obtain ⟨round, member, small⟩ := valid.records.hasReached_iff.mp reached
  rw [valid.log_eq rounded, List.map_map, List.map_map] at member
  obtain ⟨entry, logged, rfl⟩ := List.mem_map.mp member
  exact ⟨entry.1, (valid.committed entry.1).mpr (List.mem_map_of_mem logged), small⟩

/-- If no round reaches the bound, then all restarts run. -/
theorem ran_eq_range
    (unreached : ∀ index < budget, lowerBound < ((rounds index).pruned.size : Int)) :
    state.ran budget = List.range budget := by
  refine valid.ran_eq_range_of_unreached (valid.not_failed rounded) fun reached => ?_
  obtain ⟨earlier, counted, small⟩ := valid.exists_reached rounded reached
  have large := unreached earlier (valid.begun earlier (by simp [counted]))
  omega

variable (ended : state.HasEnded budget)

include ended

/-- **What the restarts that were not skipped leave behind.** -/
theorem settled : Settled rounds (state.ran budget) state.pool.result := by
  have same := valid.log_perm (valid.not_failed rounded) ended
  have recorded : log.map Prod.snd = (log.map Prod.fst).map rounds := by
    have listed := congrArg (List.map Prod.snd) (valid.log_eq rounded)
    rwa [List.map_map] at listed
  have records := valid.records
  rw [recorded] at records
  have empty : state.ran budget ≠ [] → (log.map Prod.fst).map rounds ≠ [] := by
    intro some_ran none_logged
    rw [List.map_eq_nil_iff] at none_logged
    rw [none_logged] at same
    exact some_ran same.nil_eq.symm
  refine ⟨?_, ?_, fun some_ran => ?_, fun index member => ?_, records.falling, fun some_ran => ?_,
    fun some_ran => ?_⟩
  · exact valid.rounds_eq (valid.not_failed rounded) ended
  · show (state.pool.sizes.mergeSort _).map _ = _
    have entries : state.pool.sizes =
        (log.map Prod.fst).map fun index => (index, (rounds index).sizes) := by
      rw [valid.sizes]
      refine (congrArg (List.map _) (valid.log_eq rounded)).trans ?_
      rw [List.map_map]
      rfl
    rw [entries, mergeSort_numbered (fun index => (rounds index).sizes) same
      ((List.pairwise_le_range).filter _), List.map_map]
    rfl
  · obtain ⟨round, member, taken⟩ := records.cover_mem (empty some_ran)
    obtain ⟨index, logged, rfl⟩ := List.mem_map.mp member
    exact ⟨index, same.mem_iff.mp logged, taken⟩
  · exact records.smallest _ (List.mem_map_of_mem (same.mem_iff.mpr member))
  · exact records.begins.trans (if_neg (empty some_ran))
  · refine records.ends.trans ?_
    cases best : state.pool.progress.best with
    | none => exact absurd (records.first best) (empty some_ran)
    | some cover =>
      show _ = some (state.pool.progress.best.getD []).length
      rw [best]
      rfl

/-- Some restart runs, if there is any. -/
theorem ran_ne_nil (someBudget : 0 < budget) : state.ran budget ≠ [] := by
  have unfailed := valid.not_failed rounded
  intro none_ran
  have same := valid.log_perm unfailed ended
  rw [none_ran] at same
  exact valid.log_ne_nil unfailed ended someBudget (List.map_eq_nil_iff.mp same.eq_nil)

/-- The pool ends with its result. -/
theorem ending_iff {result : Except Fault RestartResult} :
    Ending budget state result ↔ result = .ok state.pool.result := by
  constructor
  · intro ending
    cases ending with
    | finished => rfl
    | failed _ inRange failed => exact absurd failed (valid.not_failed rounded _ inRange _)
  · rintro rfl
    exact .finished ended (valid.not_failed rounded)

end Rounds

end Valid

end Transversal.Interleaving
