/-
**What a larger budget makes of the rounds of a sequence.**

* `roundsTaken_spec`: where the rounds stop that are to be taken.
* `roundsTaken_of_le`: a smaller budget takes the first of the rounds that a larger one takes.
* `roundsTaken_of_settled`: and all of them if it was not spent, or if one of them reaches the
  bound.
* `RestartResult.Extends`: what is left behind by more rounds, next to what is left behind by fewer;
  `RestartResult.extends_ofBudget`: so much of the smaller budget is found again.
-/
import Transversal.Proofs.Restart.Controller

namespace Transversal

variable {sizes : Nat → Nat} {lowerBound : Int} {budget larger count : Nat}

/-! ### How many rounds -/

/-- **Where the rounds stop**: only the last of them reaches the bound, and it does so if the budget
is not spent. -/
theorem roundsTaken_spec (sizes : Nat → Nat) (lowerBound : Int) (budget : Nat) :
    roundsTaken sizes lowerBound budget ≤ budget ∧
      (∀ index, index + 1 < roundsTaken sizes lowerBound budget →
        lowerBound < (sizes index : Int)) ∧
      (roundsTaken sizes lowerBound budget < budget →
        ∃ index < roundsTaken sizes lowerBound budget, (sizes index : Int) ≤ lowerBound) := by
  rw [roundsTaken]
  cases found : (List.range budget).find? fun index => (sizes index : Int) ≤ lowerBound with
  | none =>
    rw [List.find?_range_eq_none] at found
    refine ⟨le_refl _, fun index below => ?_, fun below => absurd below (lt_irrefl _)⟩
    have unreached := found index (Nat.lt_of_succ_lt below)
    simpa using unreached
  | some first =>
    obtain ⟨reaches, inRange, earlier⟩ := List.find?_range_eq_some.mp found
    rw [List.mem_range] at inRange
    refine ⟨inRange, fun index below => ?_,
      fun _ => ⟨first, Nat.lt_succ_self first, of_decide_eq_true reaches⟩⟩
    have unreached := earlier index (Nat.lt_of_succ_lt_succ below)
    simpa using unreached

/-- **A smaller budget takes the first of the rounds** that a larger one takes. -/
theorem roundsTaken_of_le (sizes : Nat → Nat) (lowerBound : Int) (more : budget ≤ larger) :
    roundsTaken sizes lowerBound budget =
      min budget (roundsTaken sizes lowerBound larger) := by
  obtain ⟨-, before, stops⟩ := roundsTaken_spec sizes lowerBound larger
  refine roundsTaken_eq (min_le_left _ _)
    (fun index below => before index (lt_of_lt_of_le below (min_le_right _ _))) fun early => ?_
  have unspent : roundsTaken sizes lowerBound larger < budget := by omega
  obtain ⟨index, below, reaches⟩ := stops (lt_of_lt_of_le unspent more)
  exact ⟨index, lt_min (lt_trans below unspent) below, reaches⟩

/-- **No further round is taken** if the smaller budget was not spent, or if one of its rounds
reaches the bound. -/
theorem roundsTaken_of_settled (more : budget ≤ larger)
    (settled : roundsTaken sizes lowerBound budget < budget ∨
      ∃ index < roundsTaken sizes lowerBound budget, (sizes index : Int) ≤ lowerBound) :
    roundsTaken sizes lowerBound larger = roundsTaken sizes lowerBound budget := by
  have fewer := roundsTaken_of_le sizes lowerBound more
  obtain ⟨-, before, -⟩ := roundsTaken_spec sizes lowerBound larger
  rcases settled with early | ⟨index, below, reaches⟩
  · omega
  · by_contra differs
    have above := before index (by omega)
    omega

theorem roundsTaken_pos (some_budget : 0 < budget) : 0 < roundsTaken sizes lowerBound budget := by
  rw [roundsTaken]
  split
  · exact Nat.succ_pos _
  · exact some_budget

/-! ### What is left behind -/

namespace RestartResult

/-- **More rounds next to fewer**: the sizes go on, so does the history, and the cover is no larger.
Nothing is changed if the smaller budget was not spent, or if its cover reaches the bound. -/
structure Extends (budget : Nat) (lowerBound : Int) (shorter longer : RestartResult) : Prop where
  sizes : shorter.sizes <+: longer.sizes
  history : shorter.progress.history =
    longer.progress.history.filter fun entry => entry.1 ≤ budget
  smaller : longer.progress.cover.length ≤ shorter.progress.cover.length
  settled : shorter.progress.rounds < budget ∨
    (shorter.progress.cover.length : Int) ≤ lowerBound → longer = shorter

variable {rounds : Nat → Round}

/-- The first places among more of them. -/
theorem filter_lt_range (budget count : Nat) :
    (List.range count).filter (· < budget) = List.range (min budget count) := by
  induction count with
  | zero => simp
  | succ count ih =>
    rw [List.range_succ, List.filter_append, ih, List.filter_singleton]
    by_cases below : count < budget
    · rw [decide_eq_true below, min_eq_right below.le, min_eq_right below, List.range_succ]
      rfl
    · rw [decide_eq_false below, min_eq_left (Nat.not_lt.mp below),
        min_eq_left (Nat.le_succ_of_le (Nat.not_lt.mp below))]
      exact List.append_nil _

/-- The history of the first rounds is the first part of the history of more of them. -/
theorem history_ofFirst_min (rounds : Nat → Round) (budget count : Nat) :
    (ofFirst rounds (min budget count)).progress.history =
      (ofFirst rounds count).progress.history.filter fun entry => entry.1 ≤ budget := by
  rw [(taken_ofFirst rounds _).history, (taken_ofFirst rounds count).history, List.filter_map,
    ← filter_lt_range, List.filter_filter, List.filter_filter]
  refine congrArg _ (List.filter_congr fun index _ => ?_)
  exact Bool.and_comm _ _

/-- The cover is as large as the smallest of the rounds. -/
theorem exists_length_cover_ofFirst (rounds : Nat → Round) (some_ran : 0 < count) :
    ∃ index, IsFirstSmallest (prunedSize rounds) count index ∧
      (ofFirst rounds count).progress.cover.length = prunedSize rounds index := by
  obtain ⟨index, smallest, kept⟩ := (taken_ofFirst rounds count).kept some_ran
  refine ⟨index, smallest, ?_⟩
  rw [Progress.cover, kept]
  rfl

/-- **A larger budget extends what a smaller one leaves behind.** -/
theorem extends_ofBudget (rounds : Nat → Round) (lowerBound : Int) (some_budget : 0 < budget)
    (more : budget ≤ larger) :
    Extends budget lowerBound (ofBudget rounds lowerBound budget)
      (ofBudget rounds lowerBound larger) := by
  have fewer := roundsTaken_of_le (prunedSize rounds) lowerBound more
  have some_ran : 0 < roundsTaken (prunedSize rounds) lowerBound budget :=
    roundsTaken_pos some_budget
  rw [ofBudget, ofBudget]
  obtain ⟨index, smallest, size⟩ := exists_length_cover_ofFirst rounds some_ran
  refine ⟨?_, ?_, ?_, fun done => ?_⟩
  · rw [(taken_ofFirst rounds _).sizes, (taken_ofFirst rounds _).sizes, fewer,
      ← List.take_range]
    exact (List.take_prefix _ _).map _
  · rw [fewer]
    exact history_ofFirst_min rounds _ _
  · have no_fewer : roundsTaken (prunedSize rounds) lowerBound budget ≤
        roundsTaken (prunedSize rounds) lowerBound larger := fewer.trans_le (min_le_right _ _)
    obtain ⟨later, smallest', size'⟩ :=
      exists_length_cover_ofFirst rounds (lt_of_lt_of_le some_ran no_fewer)
    rw [size, size']
    exact smallest'.smallest index (lt_of_lt_of_le smallest.within no_fewer)
  · rw [(taken_ofFirst rounds _).counted, size] at done
    rw [roundsTaken_of_settled more
      (done.imp_right fun reaches => ⟨index, smallest.within, reaches⟩)]

end RestartResult

end Transversal
