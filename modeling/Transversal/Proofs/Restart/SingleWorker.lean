/-
**A pool with a single worker does what the loop does with a stream for every round.**

* `Task.restartEach`: the loop with a stream for every round; `Task.restartPool_eq`: the two are one
  as computations, whatever the streams are and whether or not a round fails.
* `Task.recorded_restartEach`: the loop takes the rounds of its streams.
* `Interleaving.Serial`: where the single worker stands that takes the restarts in the order of
  their indices; `Interleaving.Serial.step`: every step of it keeps this.
* `Interleaving.Queued.ending_eq`: so it leaves behind what the loop does.
* `Interleaving.Queued.hasEnded_or_step`: until then there is a step that keeps the order.
-/
import Transversal.Proofs.Restart.Controller
import Transversal.Proofs.Restart.Pool

namespace Transversal

variable {σ : Type} [RandomStream σ] {task : Task} {streamAt : Nat → Except Fault σ}

/-! ### The same computation -/

/-- One round on the stream with its number, recorded. -/
def Task.restartOnceAt (task : Task) (streamAt : Nat → Except Fault σ) (result : RestartResult) :
    Run σ RestartResult := do
  Run.restartWith (← Run.lift (streamAt result.progress.rounds))
  task.restartOnce result

/-- A run of at most `budget` rounds, each on a stream of its own. -/
def Task.restartEach (task : Task) (streamAt : Nat → Except Fault σ) (budget : Nat) :
    Run σ RestartResult :=
  task.restartBy (task.restartOnceAt streamAt) budget ⟨.start, []⟩

/-- The restarts before an index have been made one after the other. -/
structure Pool.Behind (lowerBound : Int) (index : Nat) (pool : Pool) : Prop where
  counted : pool.progress.rounds = index
  rising : pool.sizes.Pairwise fun first second => first.1 ≤ second.1
  below : ∀ entry ∈ pool.sizes, entry.1 < index
  flagged : pool.finished = pool.progress.hasReached lowerBound

/-- Sizes that arrived in order need not be sorted. -/
theorem Pool.orderedSizes_eq {pool : Pool}
    (rising : pool.sizes.Pairwise fun first second => first.1 ≤ second.1) :
    pool.orderedSizes = pool.sizes.map Prod.snd := by
  rw [orderedSizes, List.mergeSort_of_pairwise (rising.imp decide_eq_true)]

namespace Pool.Behind

variable {lowerBound : Int} {index : Nat} {pool : Pool}

theorem rising_commit (behind : pool.Behind lowerBound index) (round : Round) :
    (pool.commit lowerBound index round).sizes.Pairwise
      fun first second => first.1 ≤ second.1 := by
  refine List.pairwise_append.mpr ⟨behind.rising, List.pairwise_singleton _ _,
    fun entry member other last => ?_⟩
  rw [List.mem_singleton] at last
  subst last
  exact le_of_lt (behind.below entry member)

/-- The next restart is made. -/
theorem commit (behind : pool.Behind lowerBound index) (lowered : pool.finished = false)
    (round : Round) : (pool.commit lowerBound index round).Behind lowerBound (index + 1) where
  counted := by
    have counted := behind.counted
    show (pool.progress.record round).rounds = _
    rcases pool.progress.record_cases round with ⟨_, same⟩ | ⟨_, _, same⟩
    · rw [same, ← counted]
    · rw [same, ← counted]
  rising := behind.rising_commit round
  below := by
    show ∀ entry ∈ pool.sizes ++ [(index, round.sizes)], entry.1 < index + 1
    rw [List.forall_mem_append, List.forall_mem_singleton]
    exact ⟨fun entry member => Nat.lt_succ_of_lt (behind.below entry member),
      Nat.lt_succ_self index⟩
  flagged := by
    show (pool.finished || _) = _
    rw [lowered, Bool.false_or]
    rfl

/-- What the next restart leaves behind is one more round recorded. -/
theorem result_commit (behind : pool.Behind lowerBound index) (round : Round) :
    (pool.commit lowerBound index round).result =
      ⟨pool.result.progress.record round, pool.result.sizes ++ [round.sizes]⟩ := by
  rw [result, result, orderedSizes_eq (behind.rising_commit round), orderedSizes_eq behind.rising]
  show RestartResult.mk _ ((pool.sizes ++ [(index, round.sizes)]).map Prod.snd) = _
  rw [List.map_append]
  rfl

end Pool.Behind

namespace Task

/-- Once the bound is reached, all other restarts are skipped. -/
theorem restartIndices_of_finished {pool : Pool} (finished : pool.finished = true)
    (count index : Nat) :
    (task.restartIndices streamAt count index pool : Run σ Pool) = pure pool := by
  induction count generalizing index with
  | zero => rfl
  | succ count ih =>
    rw [restartIndices, restartIndex, if_pos finished, pure_bind]
    exact ih (index + 1)

/-- From any point on, the restarts of a pool are the rounds of the loop. -/
theorem restartIndices_eq (streamAt : Nat → Except Fault σ) {index : Nat} {pool : Pool}
    (behind : pool.Behind task.lowerBound index) (count : Nat) :
    (task.restartIndices streamAt count index pool >>= fun final => pure final.result :
        Run σ RestartResult) =
      task.restartBy (task.restartOnceAt streamAt) count pool.result := by
  induction count generalizing index pool with
  | zero => rfl
  | succ count ih =>
    have reached : pool.result.progress.hasReached task.lowerBound = pool.finished :=
      behind.flagged.symm
    rw [restartBy, reached]
    cases finished : pool.finished with
    | true =>
      rw [restartIndices_of_finished finished, pure_bind]
      rfl
    | false =>
      have numbered : pool.result.progress.rounds = index := behind.counted
      have next : ∀ round, (task.restartIndices streamAt count (index + 1)
            (pool.commit task.lowerBound index round) >>= fun final => pure final.result :
              Run σ RestartResult) =
          task.restartBy (task.restartOnceAt streamAt) count
            ⟨pool.result.progress.record round, pool.result.sizes ++ [round.sizes]⟩ := by
        intro round
        rw [ih (behind.commit finished round), behind.result_commit]
      rw [restartIndices, restartIndex, finished, restartOnceAt, restartOnce, numbered]
      simp only [Bool.false_eq_true, if_false, bind_assoc, pure_bind, next]
      rfl

/-- **A pool with a single worker is the loop** with a stream for every round. -/
theorem restartPool_eq (task : Task) (streamAt : Nat → Except Fault σ) (budget : Nat) :
    task.restartPool streamAt budget = task.restartEach streamAt budget := by
  have behind : Pool.start.Behind task.lowerBound 0 :=
    ⟨rfl, List.Pairwise.nil, fun _ member => absurd member List.not_mem_nil, rfl⟩
  have empty : Pool.start.result = ⟨.start, []⟩ := by
    rw [Pool.result, Pool.orderedSizes_eq List.Pairwise.nil]
    rfl
  rw [restartEach, ← empty]
  exact restartIndices_eq streamAt behind budget

/-! ### A stream for every round -/

variable {rounds : Nat → Round}

/-- **Rounds with a stream each** do not depend on what was drawn before. -/
theorem takes_restartOnceAt
    (computed : ∀ index, task.roundAt streamAt index = .ok (rounds index)) :
    task.Takes (task.restartOnceAt streamAt) rounds fun _ _ => True := by
  rintro count ⟨here, events⟩ _ told
  obtain ⟨stream, given, ran⟩ := Except.bind_eq_ok_iff.mp (computed count)
  have once : task.round.run.run ⟨stream, #[]⟩ =
      (.ok (rounds count), (task.round.run.run ⟨stream, #[]⟩).2) := Prod.ext ran rfl
  have numbered : (RestartResult.ofFirst rounds count).progress.rounds = count :=
    (RestartResult.taken_ofFirst rounds count).counted
  rw [restartOnceAt, numbered, given, RestartResult.ofFirst_succ]
  exact ⟨_, restartOnce_run once _ events, trivial,
    toldFirst_succ.mpr (improvements_restartOnce once told)⟩

/-- **The loop takes the rounds of its streams.** -/
theorem recorded_restartEach
    (computed : ∀ index, task.roundAt streamAt index = .ok (rounds index)) (budget : Nat)
    (stream : σ) :
    task.Recorded rounds budget ((task.restartEach streamAt budget).run.run ⟨stream, #[]⟩) :=
  (takes_restartOnceAt computed).recorded trivial budget

end Task

/-! ### A single worker, step by step -/

/-- What the restarts of a pool share after the first rounds, one after the other. -/
def Pool.ofFirst (lowerBound : Int) (rounds : Nat → Round) (count : Nat) : Pool :=
  ⟨(RestartResult.ofFirst rounds count).progress,
    (List.range count).map fun index => (index, (rounds index).sizes),
    (RestartResult.ofFirst rounds count).progress.hasReached lowerBound⟩

variable {lowerBound : Int} {rounds : Nat → Round} {budget count : Nat}

theorem Pool.commit_ofFirst (lowered : (ofFirst lowerBound rounds count).finished = false) :
    (ofFirst lowerBound rounds count).commit lowerBound count (rounds count) =
      ofFirst lowerBound rounds (count + 1) := by
  rw [commit, lowered, Bool.false_or, ofFirst, ofFirst, RestartResult.ofFirst_succ,
    List.range_succ, List.map_append]
  rfl

theorem Pool.result_ofFirst (lowerBound : Int) (rounds : Nat → Round) (count : Nat) :
    (ofFirst lowerBound rounds count).result = .ofFirst rounds count := by
  have rising : (ofFirst lowerBound rounds count).sizes.Pairwise
      fun first second => first.1 ≤ second.1 :=
    List.pairwise_map.mpr List.pairwise_le_range
  rw [result, orderedSizes_eq rising, ofFirst, List.map_map]
  exact congrArg (RestartResult.mk _) (RestartResult.taken_ofFirst rounds count).sizes.symm

namespace Interleaving

variable {outcome : Nat → Except Fault Round} {state next : Interleaving}

/-- Where each restart stands once the first ones are counted: the next one may be on its way, or
the flag is raised and the others are skipped. -/
inductive SerialPhase (rounds : Nat → Round) (count : Nat) (finished : Bool) : Nat → Phase → Prop
  | counted {index} : index < count → SerialPhase rounds count finished index .committed
  | waiting {index} : count ≤ index → SerialPhase rounds count finished index .waiting
  | admitted : finished = false → SerialPhase rounds count finished count .admitted
  | computed : finished = false →
      SerialPhase rounds count finished count (.computed (rounds count))
  | skipped {index} : finished = true → count ≤ index →
      SerialPhase rounds count finished index .skipped

/-- **Where a single worker stands** that takes the restarts in the order of their indices. -/
structure Serial (lowerBound : Int) (rounds : Nat → Round) (count : Nat) (state : Interleaving) :
    Prop where
  pool : state.pool = .ofFirst lowerBound rounds count
  told : ToldFirst lowerBound rounds count state.reports.toArray
  before : ∀ index, index + 1 < count → lowerBound < (prunedSize rounds index : Int)
  phases : ∀ index, SerialPhase rounds count state.pool.finished index (state.phase index)

theorem serial_start : Serial lowerBound rounds 0 start where
  pool := rfl
  told := rfl
  before _ below := absurd below (Nat.not_lt_zero _)
  phases index := .waiting (Nat.zero_le index)

namespace Serial

/-- A restart that the worker is busy with is the one after those counted. -/
theorem eq_count (serial : Serial lowerBound rounds count state) {index : Nat} {phase : Phase}
    (holds : state.phase index = phase) (active : phase.isActive) :
    index = count ∧ state.pool.finished = false ∧
      ∀ round, phase = .computed round → round = rounds count := by
  have fits := serial.phases index
  rw [holds] at fits
  cases fits with
  | counted | waiting | skipped => cases active
  | admitted lowered =>
    refine ⟨rfl, lowered, ?_⟩
    rintro round ⟨⟩
  | computed lowered =>
    refine ⟨rfl, lowered, ?_⟩
    rintro round ⟨⟩
    rfl

theorem le_of_waiting (serial : Serial lowerBound rounds count state) {index : Nat}
    (waits : state.phase index = .waiting) : count ≤ index := by
  have fits := serial.phases index
  rw [waits] at fits
  cases fits with
  | waiting above => exact above

theorem lt_of_committed (serial : Serial lowerBound rounds count state) {index : Nat}
    (counted : state.phase index = .committed) : index < count := by
  have fits := serial.phases index
  rw [counted] at fits
  cases fits with
  | counted below => exact below

theorem finished_of_skipped (serial : Serial lowerBound rounds count state) {index : Nat}
    (skipped : state.phase index = .skipped) : state.pool.finished = true := by
  have fits := serial.phases index
  rw [skipped] at fits
  cases fits with
  | skipped raised => exact raised

theorem not_failed (serial : Serial lowerBound rounds count state) (index : Nat) (fault : Fault) :
    state.phase index ≠ .failed fault := by
  intro failed
  have fits := serial.phases index
  rw [failed] at fits
  cases fits

/-- A restart moves on to a phase that fits. -/
theorem move (serial : Serial lowerBound rounds count state) {index : Nat} {phase : Phase}
    (fits : SerialPhase rounds count state.pool.finished index phase) :
    Serial lowerBound rounds count (state.move index phase) where
  pool := serial.pool
  told := serial.told
  before := serial.before
  phases other := by
    by_cases same : other = index
    · subst same
      rw [move_phase_self]
      exact fits
    · rw [move_phase_ne state same]
      exact serial.phases other

/-- The restart after those counted is counted. -/
theorem commit (serial : Serial lowerBound rounds count state)
    (lowered : state.pool.finished = false) :
    Serial lowerBound rounds (count + 1) (state.commit lowerBound count (rounds count)) where
  pool := by
    have pool := serial.pool
    show state.pool.commit lowerBound count (rounds count) = _
    rw [pool] at lowered ⊢
    exact Pool.commit_ofFirst lowered
  told := by
    have told : Event.improvements state.reports.toArray = _ := serial.told
    rw [toldFirst_succ]
    show Event.improvements (state.reports ++ _).toArray = _
    rw [← List.append_toArray, Run.improvements_append, told, serial.pool]
    exact (Progress.improvements_recordEvents _ lowerBound (rounds count)).symm
  before index below := by
    rw [serial.pool] at lowered
    by_contra small
    have reached := RestartResult.hasReached_ofFirst.mpr
      ⟨index, Nat.lt_of_succ_lt_succ below, Int.not_lt.mp small⟩
    exact Bool.noConfusion (reached.symm.trans lowered)
  phases other := by
    by_cases same : other = count
    · subst same
      exact (move_phase_self state other .committed).symm ▸ .counted (Nat.lt_succ_self other)
    · show SerialPhase _ _ _ other ((state.move count .committed).phase other)
      rw [move_phase_ne state same]
      cases holds : state.phase other with
      | committed => exact .counted (Nat.lt_succ_of_lt (serial.lt_of_committed holds))
      | waiting =>
        have above := serial.le_of_waiting holds
        exact .waiting (by omega)
      | admitted | computed round => exact absurd (serial.eq_count holds rfl).1 same
      | skipped => exact Bool.noConfusion ((serial.finished_of_skipped holds).symm.trans lowered)
      | failed fault => exact absurd holds (serial.not_failed other fault)

/-- A free worker takes the restart after those counted. -/
theorem eq_of_enter (serial : Serial lowerBound rounds count state)
    (begun : ∀ index, state.phase index ≠ .waiting → index < budget) {index : Nat}
    (waits : state.phase index = .waiting) (free : state.activeCount budget < 1)
    (lowered : state.pool.finished = false) (order : (state.move index .admitted).BeginsInOrder) :
    index = count := by
  by_contra differs
  have above := serial.le_of_waiting waits
  have idle : state.phase count = .waiting := by
    have none_active : state.activeCount budget = 0 := by omega
    rw [activeCount, List.countP_eq_zero] at none_active
    have quiet := fun begins => none_active count (List.mem_range.mpr (begun count begins))
    cases holds : state.phase count with
    | waiting => rfl
    | admitted | computed round =>
      rw [holds] at quiet
      exact absurd rfl (quiet (by simp))
    | committed => exact absurd (serial.lt_of_committed holds) (lt_irrefl count)
    | skipped => exact Bool.noConfusion ((serial.finished_of_skipped holds).symm.trans lowered)
    | failed fault => exact absurd holds (serial.not_failed count fault)
  have still : (state.move index .admitted).phase count = .waiting := by
    rwa [move_phase_ne state (Ne.symm differs)]
  have begins := order count index (by omega) still
  rw [move_phase_self] at begins
  cases begins

/-- **Every step of the worker** keeps this, if the restarts begin in order. -/
theorem step (computed : ∀ index, outcome index = .ok (rounds index))
    (serial : Serial lowerBound rounds count state)
    (begun : ∀ index, state.phase index ≠ .waiting → index < budget)
    (step : Step lowerBound outcome 1 budget state next) (order : next.BeginsInOrder) :
    ∃ count, Serial lowerBound rounds count next := by
  cases step with
  | enter inRange waits free lowered =>
    obtain rfl := serial.eq_of_enter begun waits free lowered order
    exact ⟨_, serial.move (.admitted lowered)⟩
  | skip inRange waits free raised =>
    exact ⟨count, serial.move (.skipped raised (serial.le_of_waiting waits))⟩
  | @compute index round holds result =>
    obtain ⟨rfl, lowered, _⟩ := serial.eq_count holds rfl
    rw [computed index] at result
    obtain ⟨⟩ := result
    exact ⟨index, serial.move (.computed lowered)⟩
  | @fail index fault holds result =>
    rw [computed index] at result
    cases result
  | @commit index round holds =>
    obtain ⟨rfl, lowered, same⟩ := serial.eq_count holds rfl
    rw [same round rfl]
    exact ⟨index + 1, serial.commit lowered⟩
  | @giveUp index fault failed lowered => exact absurd failed (serial.not_failed index fault)

/-- Once every restart has ended, as many rounds are counted as are to be taken. -/
theorem count_eq (serial : Serial lowerBound rounds count state)
    (begun : ∀ index, state.phase index ≠ .waiting → index < budget)
    (ended : state.HasEnded budget) :
    count = roundsTaken (prunedSize rounds) lowerBound budget := by
  refine (roundsTaken_eq ?_ serial.before fun early => ?_).symm
  · by_contra more
    have unbegun : state.phase budget = .waiting := by
      by_contra begins
      exact lt_irrefl budget (begun budget begins)
    exact more (serial.le_of_waiting unbegun)
  · have past := ended count early
    cases holds : state.phase count with
    | skipped =>
      have raised := serial.finished_of_skipped holds
      rw [serial.pool] at raised
      exact RestartResult.hasReached_ofFirst.mp raised
    | committed => exact absurd (serial.lt_of_committed holds) (lt_irrefl count)
    | waiting | admitted | computed round =>
      rw [holds] at past
      cases past
    | failed fault => exact absurd holds (serial.not_failed count fault)

end Serial

/-- The restarts still begin in order if the first one that waits moves on. -/
theorem BeginsInOrder.move (order : state.BeginsInOrder) {index : Nat} {phase : Phase}
    (begins : phase ≠ .waiting) (first : ∀ earlier < index, state.phase earlier ≠ .waiting) :
    (state.move index phase).BeginsInOrder := by
  intro earlier later below waits
  rcases move_phase_eq_iff.mp waits with ⟨_, impossible⟩ | ⟨differs, waits⟩
  · exact absurd impossible begins
  · have above : index < earlier := by
      by_contra before
      exact first earlier (by omega) waits
    rw [move_phase_ne state (by omega)]
    exact order earlier later below waits

namespace Queued

theorem reached (queued : Queued lowerBound outcome budget state) :
    Reached lowerBound outcome 1 budget state := by
  induction queued with
  | start => exact .start
  | step _ step _ ih => exact ih.step step

theorem beginsInOrder (queued : Queued lowerBound outcome budget state) :
    state.BeginsInOrder := by
  cases queued with
  | start => exact fun _ _ _ _ => rfl
  | step _ _ order => exact order

theorem begun (queued : Queued lowerBound outcome budget state) (index : Nat)
    (begins : state.phase index ≠ .waiting) : index < budget := by
  obtain ⟨log, valid⟩ := queued.reached.exists_valid
  exact valid.begun index begins

variable (computed : ∀ index, outcome index = .ok (rounds index))
  (queued : Queued lowerBound outcome budget state)

include computed queued

/-- **Every state of the worker** is one of these. -/
theorem exists_serial : ∃ count, Serial lowerBound rounds count state := by
  induction queued with
  | start => exact ⟨0, serial_start⟩
  | step before step order ih =>
    obtain ⟨count, serial⟩ := ih
    exact serial.step computed before.begun step order

/-- **The worker leaves behind what the loop does**, and has told the same of it. -/
theorem ending_eq {result : Except Fault RestartResult} (ending : Ending budget state result) :
    result = .ok (.ofBudget rounds lowerBound budget) ∧
      ToldFirst lowerBound rounds (roundsTaken (prunedSize rounds) lowerBound budget)
        state.reports.toArray := by
  obtain ⟨count, serial⟩ := queued.exists_serial computed
  cases ending with
  | finished ended =>
    rw [RestartResult.ofBudget, ← serial.count_eq queued.begun ended, serial.pool,
      Pool.result_ofFirst]
    exact ⟨rfl, serial.told⟩
  | failed ended inRange failed => exact absurd failed (serial.not_failed _ _)

/-- **Until every restart has ended** there is a step that keeps the order. -/
theorem hasEnded_or_step : state.HasEnded budget ∨ ∃ next,
    Step lowerBound outcome 1 budget state next ∧ Queued lowerBound outcome budget next := by
  by_cases unended : ∃ index, index < budget ∧ (state.phase index).hasEnded = false
  · -- the first restart that has not ended is the one to move on
    obtain ⟨inRange, running⟩ := Nat.find_spec unended
    have past : ∀ earlier < Nat.find unended, (state.phase earlier).hasEnded := by
      intro earlier below
      by_contra runs
      refine Nat.find_min unended below ⟨lt_trans below inRange, ?_⟩
      exact Bool.not_eq_true _ ▸ runs
    have order := queued.beginsInOrder
    obtain ⟨count, serial⟩ := queued.exists_serial computed
    refine .inr ?_
    generalize Nat.find unended = index at inRange running past
    have first : ∀ earlier < index, state.phase earlier ≠ .waiting := by
      intro earlier below waits
      have ended := past earlier below
      rw [waits] at ended
      cases ended
    cases holds : state.phase index with
    | waiting =>
      have free : state.activeCount budget < 1 := by
        refine Nat.lt_one_iff.mpr (List.countP_eq_zero.mpr fun other _ active => ?_)
        obtain ⟨rfl, _⟩ := serial.eq_count rfl active
        rcases Nat.lt_or_eq_of_le (serial.le_of_waiting holds) with earlier | rfl
        · have ended := past other earlier
          rw [hasEnded_of_isActive active] at ended
          cases ended
        · rw [holds] at active
          cases active
      cases finished : state.pool.finished with
      | true =>
        have skip : Step lowerBound outcome 1 budget state _ := .skip inRange holds free finished
        exact ⟨_, skip, queued.step skip (order.move (by simp) first)⟩
      | false =>
        have enter : Step lowerBound outcome 1 budget state _ := .enter inRange holds free finished
        exact ⟨_, enter, queued.step enter (order.move (by simp) first)⟩
    | admitted =>
      have compute : Step lowerBound outcome 1 budget state _ := .compute holds (computed index)
      exact ⟨_, compute, queued.step compute (order.move (by simp) first)⟩
    | computed round =>
      have commit : Step lowerBound outcome 1 budget state _ := .commit holds
      exact ⟨_, commit, queued.step commit (order.move (by simp) first)⟩
    | committed | skipped | failed fault =>
      rw [holds] at running
      cases running
  · refine .inl fun index inRange => ?_
    by_contra running
    exact unended ⟨index, inRange, Bool.not_eq_true _ ▸ running⟩

end Queued

end Interleaving

end Transversal
