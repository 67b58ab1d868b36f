/-
**Restarts in the order of their indices are one of the ways in which a pool may run.**

* `Task.restartIndex_result`: a restart that is not skipped commits the round of its index; what
  was drawn and reported before does not matter.
* `Interleaving.Idle.skip_rest`: once the flag is raised, all restarts that wait are skipped.
* `Interleaving.InOrder`: the restarts before an index have ended, the others wait.
* `Task.restartPool_ending`: so the result is that of some interleaving, for any number of workers.
-/
import Transversal.Proofs.Restart.Interleaving

namespace Transversal

variable {σ : Type} [RandomStream σ] (task : Task) (streamAt : Nat → Except Fault σ)

/-- **A restart that is not skipped** commits the round of its index. -/
theorem Task.restartIndex_result (index : Nat) (pool : Pool) (desk : Desk σ) :
    ((task.restartIndex streamAt index pool).run.run desk).1 =
      if pool.finished then .ok pool
      else (task.roundAt streamAt index).map fun round =>
        pool.commit task.lowerBound index round := by
  unfold restartIndex
  by_cases finished : pool.finished
  · rw [if_pos finished, if_pos finished]
    rfl
  · rw [if_neg finished, if_neg finished, Run.run_bind, roundAt]
    cases streamAt index with
    | error fault => rfl
    | ok stream =>
      show ((task.round >>= _).run.run ⟨stream, desk.events⟩).1 =
        (task.round.run.run ⟨stream, #[]⟩).1.map _
      rw [Run.run_bind, task.appends_round.behind stream desk.events]
      cases ran : (task.round.run.run ⟨stream, #[]⟩).1 with
      | error fault => rfl
      | ok round =>
        dsimp only
        rw [Run.run_bind]
        obtain ⟨_, after, reported, _⟩ := Run.yields_forM (σ := σ)
          ⟨(task.round.run.run ⟨stream, #[]⟩).2.stream,
            desk.events ++ (task.round.run.run ⟨stream, #[]⟩).2.events⟩
        rw [reported]
        rfl

namespace Interleaving

variable {lowerBound : Int} {outcome : Nat → Except Fault Round} {workers budget index : Nat}
  {state : Interleaving}

/-- No worker is busy. -/
def Idle (state : Interleaving) : Prop := ∀ index, (state.phase index).isActive = false

namespace Idle

theorem free (idle : state.Idle) (someWorker : 1 ≤ workers) :
    state.activeCount budget < workers := by
  have none_active : state.activeCount budget = 0 := by
    rw [activeCount, List.countP_eq_zero]
    intro index _ active
    exact Bool.noConfusion (active.symm.trans (idle index))
  omega

/-- A restart moves on to a phase that needs no worker. -/
theorem move (idle : state.Idle) (index : Nat) {phase : Phase} (still : phase.isActive = false) :
    (state.move index phase).Idle := by
  intro other
  by_cases same : other = index
  · subst same
    rwa [move_phase_self]
  · rw [move_phase_ne state same]
    exact idle other

theorem waiting_or_hasEnded (idle : state.Idle) (index : Nat) :
    state.phase index = .waiting ∨ (state.phase index).hasEnded := by
  have still := idle index
  cases holds : state.phase index with
  | waiting => exact .inl rfl
  | committed | skipped | failed fault => exact .inr rfl
  | admitted | computed round =>
    rw [holds] at still
    cases still

/-- **Once the flag is raised**, all restarts that wait are skipped, and the others stay as they
are. -/
theorem skip_rest (someWorker : 1 ≤ workers) (idle : state.Idle)
    (reached : Reached lowerBound outcome workers budget state)
    (raised : state.pool.finished = true) :
    ∃ final, Reached lowerBound outcome workers budget final ∧ final.HasEnded budget ∧
      final.pool = state.pool ∧
      ∀ index, state.phase index ≠ .waiting → final.phase index = state.phase index := by
  have first : ∀ count ≤ budget, ∃ later, Reached lowerBound outcome workers budget later ∧
      later.Idle ∧ (∀ index < count, (later.phase index).hasEnded) ∧ later.pool = state.pool ∧
      ∀ index, state.phase index ≠ .waiting → later.phase index = state.phase index := by
    intro count within
    induction count with
    | zero =>
      exact ⟨state, reached, idle, fun _ below => absurd below (Nat.not_lt_zero _), rfl,
        fun _ _ => rfl⟩
    | succ count ih =>
      obtain ⟨later, reached, idle, ended, shared, same⟩ := ih (Nat.le_of_succ_le within)
      rcases idle.waiting_or_hasEnded count with waits | past
      · have skip : Step lowerBound outcome workers budget later (later.move count .skipped) :=
          .skip within waits (idle.free someWorker) (shared ▸ raised)
        refine ⟨_, reached.step skip, idle.move count rfl, fun index below => ?_, shared,
          fun index begun => ?_⟩
        · by_cases last : index = count
          · subst last
            rw [move_phase_self]
            rfl
          · rw [move_phase_ne later last]
            exact ended index (by omega)
        · rw [move_phase_ne later fun last => begun (by rw [← same index begun, last, waits])]
          exact same index begun
      · refine ⟨later, reached, idle, fun index below => ?_, shared, same⟩
        rcases Nat.lt_succ_iff_lt_or_eq.mp below with earlier | rfl
        · exact ended index earlier
        · exact past
  obtain ⟨final, reached, _, ended, shared, same⟩ := first budget (le_refl budget)
  exact ⟨final, reached, ended, shared, same⟩

end Idle

/-- The restarts before an index have ended, the others wait. -/
structure InOrder (index : Nat) (state : Interleaving) : Prop where
  before : ∀ other < index, (state.phase other).hasEnded
  after : ∀ other, index ≤ other → state.phase other = .waiting

namespace InOrder

theorem idle (order : state.InOrder index) : state.Idle := by
  intro other
  by_cases earlier : other < index
  · by_contra busy
    have past := order.before other earlier
    rw [hasEnded_of_isActive (Bool.not_eq_false _ ▸ busy)] at past
    cases past
  · rw [order.after other (Nat.not_lt.mp earlier)]
    rfl

/-- The next restart ends. -/
theorem move (order : state.InOrder index) {phase : Phase} (past : phase.hasEnded) :
    (state.move index phase).InOrder (index + 1) := by
  refine ⟨fun other below => ?_, fun other above => ?_⟩
  · by_cases same : other = index
    · subst same
      rwa [move_phase_self]
    · rw [move_phase_ne state same]
      exact order.before other (by omega)
  · rw [move_phase_ne state (by omega)]
    exact order.after other (by omega)

theorem congr {other : Interleaving} (order : state.InOrder index)
    (same : other.phase = state.phase) : other.InOrder index :=
  ⟨same ▸ order.before, same ▸ order.after⟩

end InOrder

/-- A restart in one phase and then in another one. -/
theorem move_move (state : Interleaving) (index : Nat) (first second : Phase) :
    (state.move index first).move index second = state.move index second := by
  have phases : ((state.move index first).move index second).phase =
      (state.move index second).phase := by
    funext other
    by_cases same : other = index
    · subst same
      rw [move_phase_self, move_phase_self]
    · rw [move_phase_ne _ same, move_phase_ne _ same, move_phase_ne _ same]
  exact congrArg (Interleaving.mk · state.pool state.reports) phases

theorem move_unfailed (unfailed : ∀ other fault, state.phase other ≠ .failed fault)
    {phase : Phase} (good : ∀ fault, phase ≠ .failed fault) (other : Nat) (fault : Fault) :
    (state.move index phase).phase other ≠ .failed fault := by
  intro held
  rcases move_phase_eq_iff.mp held with ⟨_, now⟩ | ⟨_, before⟩
  · exact good fault now
  · exact unfailed other fault before

section Next

variable (someWorker : 1 ≤ workers) (inRange : index < budget)
  (reached : Reached lowerBound outcome workers budget state) (order : state.InOrder index)

include someWorker inRange reached order

theorem Reached.skipped (raised : state.pool.finished = true) :
    Reached lowerBound outcome workers budget (state.move index .skipped) :=
  reached.step
    (.skip inRange (order.after index (le_refl index)) (order.idle.free someWorker) raised)

theorem Reached.computed (lowered : state.pool.finished = false) {round : Round}
    (result : outcome index = .ok round) :
    Reached lowerBound outcome workers budget (state.move index (.computed round)) := by
  have waits := order.after index (le_refl index)
  have entered := reached.step (.enter inRange waits (order.idle.free someWorker) lowered)
  have computed := entered.step (.compute (move_phase_self state index .admitted) result)
  rwa [move_move] at computed

/-- After a fault the pool ends with it. -/
theorem Reached.failed (lowered : state.pool.finished = false) {fault : Fault}
    (result : outcome index = .error fault) :
    ∃ final, Reached lowerBound outcome workers budget final ∧
      Ending budget final (.error fault) := by
  have waits := order.after index (le_refl index)
  have entered := reached.step (.enter inRange waits (order.idle.free someWorker) lowered)
  have failed := entered.step (.fail (move_phase_self state index .admitted) result)
  rw [move_move] at failed
  have holds := move_phase_self state index (.failed fault)
  have raised := failed.step (.giveUp holds lowered)
  have later : (state.move index (.failed fault)).giveUp.InOrder (index + 1) :=
    (order.move rfl).congr rfl
  obtain ⟨final, further, past, _, same⟩ := later.idle.skip_rest someWorker raised rfl
  have begun : (state.move index (.failed fault)).giveUp.phase index ≠ .waiting :=
    fun waits => by cases holds.symm.trans waits
  exact ⟨final, further, .failed past inRange ((same index begun).trans holds)⟩

end Next

end Interleaving

variable {task streamAt}

/-- The restarts from an index on, taken in order, end as an interleaving may. -/
theorem Task.restartIndices_ending {workers budget : Nat} (someWorker : 1 ≤ workers)
    {count index : Nat} (total : index + count = budget) {state : Interleaving}
    (reached : Interleaving.Reached task.lowerBound (task.roundAt streamAt) workers budget state)
    (order : state.InOrder index) (unfailed : ∀ other fault, state.phase other ≠ .failed fault)
    (desk : Desk σ) :
    ∃ final, Interleaving.Reached task.lowerBound (task.roundAt streamAt) workers budget final ∧
      Interleaving.Ending budget final
        (((task.restartIndices streamAt count index state.pool).run.run desk).1.map
          Pool.result) := by
  induction count generalizing index state desk with
  | zero =>
    refine ⟨state, reached, .finished (fun other below => order.before other (by omega)) ?_⟩
    exact fun other _ => unfailed other
  | succ count ih =>
    have inRange : index < budget := by omega
    have result := task.restartIndex_result streamAt index state.pool desk
    rw [restartIndices, Run.run_bind]
    generalize (task.restartIndex streamAt index state.pool).run.run desk = ran at result
    obtain ⟨value, after⟩ := ran
    dsimp only at result
    subst result
    cases finished : state.pool.finished with
    | true =>
      exact ih (by omega) (reached.skipped someWorker inRange order finished) (order.move rfl)
        (Interleaving.move_unfailed unfailed (by simp)) after
    | false =>
      cases outcome : task.roundAt streamAt index with
      | error fault => exact reached.failed someWorker inRange order finished outcome
      | ok round =>
        have computed := reached.computed someWorker inRange order finished outcome
        have counted := computed.step (.commit (Interleaving.move_phase_self state index _))
        have phases : ((state.move index (.computed round)).commit task.lowerBound index
            round).phase = (state.move index .committed).phase := by
          show ((state.move index (.computed round)).move index .committed).phase = _
          rw [Interleaving.move_move]
        refine ih (by omega) counted ((order.move rfl).congr phases) (fun other fault => ?_) after
        rw [phases]
        exact Interleaving.move_unfailed unfailed (by simp) other fault

/-- **The restarts in the order of their indices** end as an interleaving may. -/
theorem Task.restartPool_ending {workers : Nat} (someWorker : 1 ≤ workers) (budget : Nat)
    (desk : Desk σ) :
    ∃ final, Interleaving.Reached task.lowerBound (task.roundAt streamAt) workers budget final ∧
      Interleaving.Ending budget final
        ((task.restartPool streamAt budget).run.run desk).1 := by
  have order : Interleaving.start.InOrder 0 :=
    ⟨fun other below => absurd below (Nat.not_lt_zero other), fun _ _ => rfl⟩
  obtain ⟨final, reached, ending⟩ := Task.restartIndices_ending someWorker (Nat.zero_add budget)
    .start order (fun _ _ impossible => by cases impossible) desk
  refine ⟨final, reached, ?_⟩
  rw [restartPool, Run.run_bind]
  change Interleaving.Ending budget final
    (((task.restartIndices streamAt budget 0 .start).run.run desk).1.map Pool.result) at ending
  generalize (task.restartIndices streamAt budget 0 .start).run.run desk = ran at ending ⊢
  obtain ⟨value, after⟩ := ran
  cases value with
  | error fault => exact ending
  | ok pool => exact ending

end Transversal
