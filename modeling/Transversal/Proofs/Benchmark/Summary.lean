/-
**What the winners of a suite are worth.**

* `map_contest_winners`: every contest has one winner; `winner_least`: it is a smallest of the
  results of its contest.
* `sum_tally`: a tally counts every name once.
* `exists_gapColumn?`: sizes and bounds that doubles can hold are no obstacle to a summary.
* `Summarized`: what becomes of the records of a suite; `suite_winners`: all of it, for every plan
  that can be run. There are as many wins as contests, which are fewer than configurations and
  trials as soon as two densities are written alike.
-/
import Transversal.Benchmark.Summary
import Transversal.Proofs.Benchmark.Contests

namespace Transversal.Benchmark

/-! ### Winners -/

variable {results : List Result}

/-- Some result is the smallest of its list. -/
theorem exists_smallest? (some_result : results ≠ []) :
    ∃ winner ∈ results, smallest? results = some winner ∧
      ∀ other ∈ results, winner.size ≤ other.size := by
  cases results with
  | nil => exact absurd rfl some_result
  | cons first rest =>
    rw [smallest?]
    clear some_result
    induction rest generalizing first with
    | nil => exact ⟨first, List.mem_singleton_self _, rfl, by simp⟩
    | cons next rest ih =>
      obtain ⟨winner, member, same, least⟩ := ih (if next.size < first.size then next else first)
      rw [List.forall_mem_cons] at least
      refine ⟨winner, ?_, same, ?_⟩
      · split at member <;> simp only [List.mem_cons] at member ⊢ <;> tauto
      · rw [List.forall_mem_cons, List.forall_mem_cons]
        refine ⟨?_, ?_, least.2⟩ <;> have first_least := least.1 <;> split at first_least <;> omega

/-- The winner of a contest that somebody is in. -/
theorem exists_winner {contest : String × Int} (held : contest ∈ results.map Result.contest) :
    ∃ winner ∈ results, winner.contest = contest ∧
      smallest? (results.filter (·.contest = contest)) = some winner ∧
      ∀ other ∈ results, other.contest = contest → winner.size ≤ other.size := by
  obtain ⟨result, member, same⟩ := List.mem_map.mp held
  have some_result : results.filter (·.contest = contest) ≠ [] :=
    List.ne_nil_of_mem (List.mem_filter.mpr ⟨member, decide_eq_true same⟩)
  obtain ⟨winner, entered, found, least⟩ := exists_smallest? some_result
  obtain ⟨known, competes⟩ := List.mem_filter.mp entered
  exact ⟨winner, known, of_decide_eq_true competes, found,
    fun other member same => least other (List.mem_filter.mpr ⟨member, decide_eq_true same⟩)⟩

/-- **Every contest has one winner.** -/
theorem map_contest_winners (results : List Result) :
    (winners results).map Result.contest = (results.map Result.contest).eraseDups := by
  rw [winners, List.map_filterMap]
  refine (List.filterMap_congr fun contest listed => ?_).trans List.filterMap_some
  obtain ⟨winner, _, same, found, _⟩ := exists_winner (List.mem_eraseDups.mp listed)
  rw [found, Option.map_some, same]

/-- **A winner is a smallest** of the results of its contest. -/
theorem winner_least {winner : Result} (won : winner ∈ winners results) :
    winner ∈ results ∧
      ∀ other ∈ results, other.contest = winner.contest → winner.size ≤ other.size := by
  obtain ⟨contest, listed, found⟩ := List.mem_filterMap.mp won
  obtain ⟨_, known, rfl, found', least⟩ := exists_winner (List.mem_eraseDups.mp listed)
  cases found.symm.trans found'
  exact ⟨known, least⟩

/-! ### Tallies -/

theorem toFinset_eraseDups {α : Type} [DecidableEq α] [BEq α] [LawfulBEq α] (entries : List α) :
    entries.eraseDups.toFinset = entries.toFinset := by
  ext entry
  rw [List.mem_toFinset, List.mem_toFinset, List.mem_eraseDups]

/-- **A tally counts every name once.** -/
theorem sum_tally (names : List String) : ((tally names).map Prod.snd).sum = names.length := by
  rw [tally, List.map_map]
  calc (names.eraseDups.map (names.count ·)).sum
      = ∑ name ∈ names.eraseDups.toFinset, names.count name :=
        (List.sum_toFinset _ (Incidence.nodup_eraseDups names)).symm
    _ = ∑ name ∈ names.toFinset, names.count name := by rw [toFinset_eraseDups]
    _ = names.length := List.sum_toFinset_count_eq_length names

theorem length_winners (results : List Result) :
    (winners results).length = (results.map Result.contest).toFinset.card := by
  rw [← List.length_map Result.contest, map_contest_winners,
    ← List.toFinset_card_of_nodup (Incidence.nodup_eraseDups _), toFinset_eraseDups]

/-! ### Columns -/

/-- Numbers that doubles can hold are stored. -/
theorem exists_scan? {negative large : Bool} {values : List Int}
    (finite : ∀ value ∈ values, (Binary64.ofInt value).isFinite) :
    ∃ storage, Storage.scan? negative large values = .ok storage := by
  induction values generalizing negative large with
  | nil => exact ⟨_, rfl⟩
  | cons value rest ih =>
    rw [List.forall_mem_cons] at finite
    have held : Binary64.ofInt? value = .ok (.ofInt value) := if_pos finite.1
    rw [Storage.scan?, held]
    dsimp only [bind, Except.bind]
    split
    · exact ⟨_, rfl⟩
    · exact ih finite.2

theorem exists_gapColumn? (sizes : ∀ result ∈ results, (Binary64.ofInt result.size).isFinite)
    (bounds : ∀ result ∈ results, (Binary64.ofInt result.lowerBound).isFinite) :
    ∃ column, gapColumn? results = .ok column := by
  have column : ∀ values : List Int, (∀ value ∈ values, (Binary64.ofInt value).isFinite) →
      ∃ column, Column.of? values = .ok column := by
    intro values finite
    obtain ⟨storage, stored⟩ := exists_scan? finite
    exact ⟨_, Except.map_eq_ok_iff.mpr ⟨storage, stored, rfl⟩⟩
  obtain ⟨first, made⟩ := column (results.map (·.size)) (by simpa using sizes)
  obtain ⟨second, made'⟩ := column (results.map (·.lowerBound)) (by simpa using bounds)
  exact ⟨_, Except.bind_eq_ok_iff.mpr ⟨first, made, Except.bind_eq_ok_iff.mpr ⟨second, made', rfl⟩⟩⟩

/-- The summary of some results has the tally of their winners. -/
theorem wins_of_summarize? {summary : Summary} (made : summarize? results = .ok summary) :
    summary.wins = tally ((winners results).map (·.algorithm)) := by
  rw [summarize?] at made
  split at made
  · cases made
  · obtain ⟨gaps, _, same⟩ := Except.bind_eq_ok_iff.mp made
    cases same
    rfl

/-! ### Suites -/

variable {plan : Plan} {trials : Nat} {records : List Record}

/-- The record tells the configuration and the trial of another one. -/
def Record.Rivals (other record : Record) : Prop :=
  other.pathCount = record.pathCount ∧ other.setCount = record.setCount ∧
    other.density = record.density ∧ other.trial = record.trial

/-- **What becomes of the records of a suite.** There is nothing to summarize if there is no
configuration, and otherwise a summary if doubles can hold the path counts. It counts one win for
every contest, which is one for every configuration and trial exactly if all densities are written
differently. Each winner is a smallest of its own configuration and trial. -/
structure Summarized (plan : Plan) (trials : Nat) (records : List Record) : Prop where
  nothing : plan.configurations = [] →
    summarize? (records.map (·.toResult)) = .error .noRecords
  something : plan.configurations ≠ [] →
    (∀ pathCount ∈ plan.pathCounts, (Binary64.ofInt pathCount).isFinite) →
    ∃ summary, summarize? (records.map (·.toResult)) = .ok summary
  counted : ∀ summary, summarize? (records.map (·.toResult)) = .ok summary →
    summary.wins = tally ((winners (records.map (·.toResult))).map (·.algorithm)) ∧
      (summary.wins.map Prod.snd).sum =
        plan.pathCounts.toFinset.card * plan.setCounts.toFinset.card *
          plan.densityTexts.toFinset.card * trials
  apart : plan.pathCounts.Nodup → plan.setCounts.Nodup →
    ∀ summary, summarize? (records.map (·.toResult)) = .ok summary →
      ((summary.wins.map Prod.snd).sum =
          plan.pathCounts.length * plan.setCounts.length * plan.densities.length * trials ↔
        plan.densityTexts.Nodup)
  least : ∀ winner ∈ winners (records.map (·.toResult)), ∃ record ∈ records,
    record.toResult = winner ∧ ∀ other ∈ records, other.Rivals record → record.size ≤ other.size

section Recorded

variable {slots : List Slot}

/-- Every record is that of some run. -/
theorem exists_slot (recorded : List.Forall₂ Record.IsOf slots records) {record : Record}
    (member : record ∈ records) : ∃ slot ∈ slots, record.IsOf slot := by
  induction recorded with
  | nil => cases member
  | cons first _ ih =>
    obtain rfl | later := List.mem_cons.mp member
    · exact ⟨_, List.mem_cons_self, first⟩
    · obtain ⟨slot, listed, told⟩ := ih later
      exact ⟨slot, List.mem_cons_of_mem _ listed, told⟩

/-- The contests of the records are those of the runs. -/
theorem map_contest_records (recorded : List.Forall₂ Record.IsOf slots records) :
    (records.map (·.toResult)).map Result.contest = slots.map Slot.contest := by
  rw [List.map_map]
  induction recorded with
  | nil => rfl
  | cons first _ ih =>
    rw [List.map_cons, List.map_cons, ih]
    exact congrArg (· :: _) (Prod.ext first.config first.trial)

variable (proper : plan.IsProper trials)
  (recorded : List.Forall₂ Record.IsOf (plan.slots trials) records)

include recorded

/-- Records of the same configuration and trial compete. -/
theorem contest_of_rivals {other record : Record} (first : other ∈ records)
    (second : record ∈ records) (rivals : other.Rivals record) :
    other.toResult.contest = record.toResult.contest := by
  have named : ∀ {record}, record ∈ records → record.config =
      Configuration.name ⟨record.pathCount, record.setCount, record.density⟩ := by
    intro record member
    obtain ⟨slot, _, told⟩ := exists_slot recorded member
    rw [told.config, told.made]
  obtain ⟨paths, sets, density, trial⟩ := rivals
  exact Prod.ext (by rw [Result.contest, Result.contest, named first, named second, paths, sets,
    density]) trial

include proper

/-- Without a configuration there are no records, and only then. -/
theorem records_eq_nil_iff : records = [] ↔ plan.configurations = [] := by
  rw [← List.length_eq_zero_iff, ← recorded.length_eq, List.length_eq_zero_iff]
  constructor
  · intro no_slots
    obtain ⟨algorithm, known⟩ := List.exists_mem_of_ne_nil _ proper.some_algorithm
    by_contra some_configuration
    obtain ⟨config, made⟩ := List.exists_mem_of_ne_nil _ some_configuration
    have slot : (⟨config, 0, algorithm⟩ : Slot) ∈ plan.slots trials :=
      mem_slots.mpr ⟨made, proper.some_trial, known⟩
    rw [no_slots] at slot
    cases slot
  · intro no_configuration
    rw [Plan.slots, no_configuration, List.flatMap_nil]

/-- There is a summary if there is anything to summarize, and doubles can hold the path counts. -/
theorem exists_summary (some_configuration : plan.configurations ≠ [])
    (finite : ∀ pathCount ∈ plan.pathCounts, (Binary64.ofInt pathCount).isFinite) :
    ∃ summary, summarize? (records.map (·.toResult)) = .ok summary := by
  have some_record : records ≠ [] :=
    mt (records_eq_nil_iff proper recorded).mp some_configuration
  have each : ∀ result ∈ records.map (·.toResult), (Binary64.ofInt result.size).isFinite ∧
      (Binary64.ofInt result.lowerBound).isFinite := by
    intro result listed
    obtain ⟨record, member, rfl⟩ := List.mem_map.mp listed
    obtain ⟨slot, made, told⟩ := exists_slot recorded member
    have path := (mem_configurations.mp (mem_slots.mp made).1).1
    rw [← told.made] at path
    refine ⟨Binary64.isFinite_ofInt_of_le ?_ (finite _ path), told.bound⟩
    have natural := told.natural
    have small := told.small
    show record.size.natAbs ≤ record.pathCount.natAbs
    omega
  obtain ⟨column, made⟩ := exists_gapColumn? (fun result listed => (each result listed).1)
    fun result listed => (each result listed).2
  have filled : (records.map (·.toResult)).isEmpty = false := by simpa using some_record
  rw [summarize?, filled]
  exact ⟨_, Except.bind_eq_ok_iff.mpr ⟨column, made, rfl⟩⟩

/-- **What becomes of the records** of a plan that can be run. -/
theorem summarized : Summarized plan trials records := by
  have contests : ∀ summary, summarize? (records.map (·.toResult)) = .ok summary →
      (summary.wins.map Prod.snd).sum = ((plan.slots trials).map Slot.contest).toFinset.card := by
    intro summary made
    rw [wins_of_summarize? made, sum_tally, List.length_map, length_winners,
      map_contest_records recorded]
  have nothing : plan.configurations = [] →
      summarize? (records.map (·.toResult)) = .error .noRecords := by
    intro none
    rw [(records_eq_nil_iff proper recorded).mpr none]
    rfl
  refine ⟨nothing, exists_summary proper recorded, fun summary made => ?_,
    fun paths sets summary made => ?_, fun winner won => ?_⟩
  · exact ⟨wins_of_summarize? made,
      (contests summary made).trans (card_contests proper.some_algorithm)⟩
  · have some_configuration : plan.configurations ≠ [] := by
      intro none
      rw [nothing none] at made
      cases made
    rw [contests summary made]
    exact card_contests_eq_iff proper.some_algorithm proper.some_trial paths sets some_configuration
  · obtain ⟨known, least⟩ := winner_least won
    obtain ⟨record, member, rfl⟩ := List.mem_map.mp known
    refine ⟨record, member, rfl, fun other member' rivals => ?_⟩
    exact least _ (List.mem_map_of_mem member') (contest_of_rivals recorded member' member rivals)

end Recorded

/-! ### A single set -/

/-- With a single set, every path is in it. -/
theorem mem_listed_single {incidence : Incidence} (agreement : incidence.Agreement)
    (single : incidence.setCount = 1) {path : Nat} (within : path < incidence.pathCount) :
    (path : Int) ∈ incidence.listed (0 : Nat) := by
  have hit := agreement.hit path within
  rw [agreement.agree path within, Incidence.hittingSets, single] at hit
  by_contra unlisted
  exact hit (by simpa [List.range_succ] using unlisted)

/-- The covering program of two paths in a single set. -/
def pairProgram : CoveringProgram := ⟨1, [[0], [0]]⟩

theorem pair_optimum : exactOptimum? pairProgram = some ⟨[1], 1⟩ := by decide +kernel

/-- All of the set, which is what is found. -/
def wholeSet (index : Nat) : Option Binary64 := [(1 : Rat)][index]?.map .ofRat

theorem one_toRat? : (Binary64.ofRat 1).toRat? = some 1 := by decide +kernel

theorem pair_answered : pairProgram.IsAnswered wholeSet (some (.ofRat 1)) where
  bounded index known := by
    obtain rfl : index = 0 := Nat.lt_one_iff.mp known
    exact ⟨_, _, rfl, one_toRat?, by norm_num, le_refl _⟩
  rows row member := by
    obtain rfl : row = [0] := by simpa [pairProgram] using member
    have whole : valueOf wholeSet 0 = 1 := by
      rw [valueOf, show wholeSet 0 = some (.ofRat 1) from rfl, Option.bind_some, one_toRat?,
        Option.getD_some]
    rw [CoveringProgram.rowSum, List.foldr_cons, List.foldr_nil, whole]
    norm_num [rowSlack]
  least x rounded others bounded := by
    have row := bounded.1.2 [0] (by simp [pairProgram])
    have small : ((Binary64.sum (activitiesOf 1 wholeSet) - roundingSlack).toRat?.all
        (· ≤ 1)) = true := by decide +kernel
    change (Binary64.sum (activitiesOf 1 wholeSet) - roundingSlack).toRat? = some x at rounded
    rw [rounded, Option.all_some, decide_eq_true_eq] at small
    exact small.trans row
  close := by
    show (discrepancy (Binary64.sum (activitiesOf 1 wholeSet)) _).lt _ = true
    decide +kernel

/-- The relaxation of two paths in a single set is solved. -/
theorem solves_pair (density : Binary64) (runtime : Nat → Binary64) :
    (Setting.exact runtime).Solves ⟨2, 1, density⟩ := by
  refine solves_of_answered fun family incidence program built paths sets relaxed => ?_
  have agreement := Incidence.agreement_of_ofSets? built
  have row : ∀ path < 2, incidence.rowOf path = [0] := by
    intro path within
    have below : path < incidence.pathCount := paths.symm ▸ within
    have listed := mem_listed_single agreement sets below
    rw [Incidence.rowOf, sets]
    exact List.filter_cons_of_pos (decide_eq_true listed)
  have same : program = pairProgram := by
    rw [CoveringProgram.ofIncidence?_eq_ok agreement, sets, paths] at relaxed
    cases relaxed
    show CoveringProgram.mk 1 [incidence.rowOf 0, incidence.rowOf 1] = _
    rw [row 0 (by decide), row 1 (by decide)]
    rfl
  refine ⟨wholeSet, some (.ofRat 1), ?_, same ▸ pair_answered⟩
  rw [same, exactOptimizer, pair_optimum]
  rfl

/-- Two paths in one set, with some densities. -/
def pairPlan (densities : List Binary64) (algorithms : List String) (trials : Nat) : Plan :=
  ⟨[2], [1], densities, algorithms, .value trials, some (.value 2), 0⟩

theorem pairPlan_proper {densities : List Binary64} {algorithms : List String} {trials : Nat}
    (some_algorithm : algorithms ≠ []) (known : algorithms ⊆ Algorithm.all.map Algorithm.name)
    (some_trial : 1 ≤ trials) : (pairPlan densities algorithms trials).IsProper trials where
  paths := by simp [pairPlan]
  sets := by simp [pairPlan]
  some_algorithm := some_algorithm
  known name member := by
    obtain ⟨algorithm, _, rfl⟩ := List.mem_map.mp (known member)
    cases algorithm with
    | guided => exact ⟨.guided, rfl⟩
    | largest => exact ⟨.largest, rfl⟩
  repeated := rfl
  some_trial := some_trial
  pooled _ given same := by
    cases same
    exact ⟨2, rfl, by decide, le_refl (0 : Int)⟩

theorem pairPlan_solves {densities : List Binary64} {algorithms : List String} {trials : Nat}
    (runtime : Nat → Binary64) :
    ∀ config ∈ (pairPlan densities algorithms trials).configurations,
      (Setting.exact runtime).Solves config := by
  intro config made
  obtain ⟨path, set, _⟩ := mem_configurations.mp made
  obtain ⟨pathCount, setCount, density⟩ := config
  obtain rfl := List.mem_singleton.mp path
  obtain rfl := List.mem_singleton.mp set
  exact solves_pair density runtime

/-- The doubles nearest to 0.101, 0.102 and 0.2: the first two are both written 0.10. -/
def closeDensities : List Binary64 :=
  [.ofDecimal false ⟨101, -3⟩, .ofDecimal false ⟨102, -3⟩, .ofDecimal false ⟨2, -1⟩]

/-! ### All suites -/

/-- **A suite whose relaxations are solved** ends without a fault, records every run, and is
summarized as stated: the wins are counted by the names of the configurations, in which densities
are written to two places. -/
theorem suite_winners (proper : plan.IsProper trials) {setting : Setting}
    (solves : ∀ config ∈ plan.configurations, setting.Solves config) :
    ∃ state, runSuite plan setting = (.ok (), state) ∧
      List.Forall₂ Record.IsOf (plan.slots trials) state.records.toList ∧
      Summarized plan trials state.records.toList := by
  obtain ⟨state, ran, recorded⟩ := exists_runSuite proper solves
  exact ⟨state, ran, recorded, summarized proper recorded⟩

/-- Two of three densities are written alike, so there are four wins in two trials, not six. -/
theorem suite_winners_close : ∃ state summary,
    runSuite (pairPlan closeDensities (Algorithm.all.map Algorithm.name) 2)
        (.exact fun _ => .zero) = (.ok (), state) ∧
      summarize? (state.records.toList.map (·.toResult)) = .ok summary ∧
      (summary.wins.map Prod.snd).sum = 4 ∧ closeDensities.Nodup := by
  have proper : (pairPlan closeDensities (Algorithm.all.map Algorithm.name) 2).IsProper 2 :=
    pairPlan_proper (List.cons_ne_nil _ _) (List.Subset.refl _) (by decide)
  obtain ⟨state, ran, _, told⟩ := suite_winners proper (pairPlan_solves fun _ => .zero)
  obtain ⟨summary, made⟩ := told.something (by decide +kernel) (by decide +kernel)
  refine ⟨state, summary, ran, made, ?_, by decide +kernel⟩
  rw [(told.counted summary made).2]
  decide +kernel

/-- **Wins are missing**: two different densities make two configurations, but one contest and one
win, when they are written alike. -/
theorem close_densities_merged : ∃ state summary,
    runSuite (pairPlan (closeDensities.take 2) ["max-coverage"] 1) (.exact fun _ => .zero) =
        (.ok (), state) ∧
      summarize? (state.records.toList.map (·.toResult)) = .ok summary ∧
      (closeDensities.take 2).Nodup ∧ state.records.size = 2 ∧
      (summary.wins.map Prod.snd).sum = 1 := by
  have proper : (pairPlan (closeDensities.take 2) ["max-coverage"] 1).IsProper 1 :=
    pairPlan_proper (List.cons_ne_nil _ _) (by decide) (by decide)
  obtain ⟨state, ran, recorded⟩ := exists_runSuite proper (pairPlan_solves fun _ => .zero)
  have told := summarized proper recorded
  obtain ⟨summary, made⟩ := told.something (by decide +kernel) (by decide +kernel)
  refine ⟨state, summary, ran, made, by decide +kernel, ?_, ?_⟩
  · rw [← Array.length_toList, ← recorded.length_eq]
    decide +kernel
  · rw [(told.counted summary made).2]
    decide +kernel

end Transversal.Benchmark
