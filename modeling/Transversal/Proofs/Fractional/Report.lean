/-
**What a relaxation report is read by**: a few words of it, at places that depend on its counts.

Lines and words are counted from zero here.

* `Report.Layout`: two counts, the objective value and an activity for every set, each of them a
  certain word of a certain line, and enough lines.
* `Report.readAs_ofLines?`: a report that has the layout is read as the solution that it tells, if
  there is one, and any other report is refused. One rule for each step of reading, such as
  `Report.after_nextLine`, follows the report from its first line to its last.
* `Report.SameWords`: two reports that agree on these words, whatever else is in them.
* `Report.Decided`: which reports are accepted, which are inconsistent, and that nothing else
  matters; `Report.ofLines?_decided`: this holds of every report.
-/
import Transversal.Fractional.Report
import Transversal.Proofs.Fractional.Accepted
import Transversal.Proofs.Number.Sums

namespace Transversal.Report

variable {lines other : List (List Char)}

/-! ### Words at places -/

/-- The word at a place of a line, if both are there. -/
def wordIn? (lines : List (List Char)) (line place : Nat) : Option (List Char) :=
  lines[line]?.bind fun text => (words text)[place]?

/-- The count in a line: its second word, if that is a whole number and not negative. -/
def countIn? (lines : List (List Char)) (line : Nat) : Option Nat :=
  (wordIn? lines line 1).bind fun word => (readInteger? word).bind fun value =>
    if value < 0 then none else some value.toNat

/-- The number in a line: its fourth word, if that is a finite number. -/
def numberIn? (lines : List (List Char)) (line : Nat) : Option Binary64 :=
  (wordIn? lines line 3).bind fun word => (readBinary64? word).bind fun value =>
    if value.isFinite then some value else none

/-- **The layout of a report**, with all that it tells. -/
structure Layout (lines : List (List Char)) (pathCount setCount : Nat) (objective : Binary64)
    (activities : List Binary64) : Prop where
  paths : countIn? lines 1 = some pathCount
  sets : countIn? lines 2 = some setCount
  value : numberIn? lines 5 = some objective
  enough : headerLines + extraLines + pathCount + setCount ≤ lines.length
  length : activities.length = setCount
  records : ∀ set < setCount,
    numberIn? lines (headerLines + extraLines + pathCount + set) = activities[set]?

/-! ### Reading line by line -/

section Steps

variable {α β : Type}

/-- A result is what was to be found; if there was nothing to be found, the report is refused. -/
def Tells (found : Option α) (result : Except Fault α) : Prop :=
  match found with
  | some value => result = .ok value
  | none => ∃ flaw, result = .error (.report flaw)

/-- What comes after a step: more of the report if the step found something, and nothing else. -/
theorem Tells.after {found : Option α} {result : Except Fault α} (tells : Tells found result)
    {next : α → Except Fault β} {good : Except Fault β → Prop}
    (refused : found = none → ∀ flaw, good (.error (.report flaw)))
    (further : ∀ value, found = some value → good (next value)) : good (result >>= next) := by
  cases found with
  | none =>
    obtain ⟨flaw, rfl⟩ := tells
    exact refused rfl flaw
  | some value =>
    obtain rfl : result = .ok value := tells
    exact further value rfl

/-- Words are found one after the other. -/
theorem Tells.bind {found : Option α} {result : Except Fault α} {rest : α → Option β}
    {next : α → Except Fault β} (first : Tells found result)
    (second : ∀ value, found = some value → Tells (rest value) (next value)) :
    Tells (found.bind rest) (result >>= next) := by
  refine first.after ?_ ?_
  · rintro rfl flaw
    exact ⟨flaw, rfl⟩
  · rintro value rfl
    exact second value rfl

theorem run_lift_bind (result : Except Fault α) (next : α → Reading β) (start : Remaining) :
    (liftM result >>= next).run start = result >>= fun value => (next value).run start := by
  cases result <;> rfl

variable {place : Nat} {text : List Char}

theorem tells_wordAt (found : lines[place]? = some text) (word : Nat) :
    Tells (wordIn? lines place word) (wordAt ⟨place + 1, text⟩ word) := by
  rw [wordIn?, found, Option.bind_some, wordAt]
  dsimp only
  cases (words text)[word]? with
  | none => exact ⟨_, rfl⟩
  | some letters => rfl

theorem tells_countOf (found : lines[place]? = some text) :
    Tells (countIn? lines place) (countOf ⟨place + 1, text⟩) := by
  refine (tells_wordAt found 1).bind fun word _ => ?_
  cases readInteger? word with
  | none => exact ⟨_, rfl⟩
  | some value =>
    show Tells (if value < 0 then none else some value.toNat) (if value < 0 then _ else _)
    by_cases negative : value < 0
    · rw [if_pos negative, if_pos negative]
      exact ⟨_, rfl⟩
    · rw [if_neg negative, if_neg negative]
      rfl

theorem tells_numberOf (found : lines[place]? = some text) :
    Tells (numberIn? lines place) (numberOf ⟨place + 1, text⟩) := by
  refine (tells_wordAt found 3).bind fun word _ => ?_
  cases readBinary64? word with
  | none => exact ⟨_, rfl⟩
  | some value =>
    show Tells (if value.isFinite then some value else none) (if value.isFinite then _ else _)
    by_cases finite : value.isFinite
    · rw [if_pos finite, if_pos finite]
      rfl
    · rw [if_neg finite, if_neg finite]
      exact ⟨_, rfl⟩

/-- Reading stands before the line at a place. -/
def before (lines : List (List Char)) (place : Nat) : Remaining := ⟨place + 1, lines.drop place⟩

theorem tells_nextLine (lines : List (List Char)) (part : ReportPart) (place : Nat) :
    Tells (lines[place]?.map fun text => (⟨place + 1, text⟩, before lines (place + 1)))
      ((nextLine (.report (.endsEarly part))).run (before lines place)) := by
  unfold nextLine before
  cases found : lines[place]? with
  | none =>
    rw [List.drop_eq_nil_of_le (List.getElem?_eq_none_iff.mp found)]
    exact ⟨_, rfl⟩
  | some text =>
    obtain ⟨within, rfl⟩ := List.getElem?_eq_some_iff.mp found
    rw [List.drop_eq_getElem_cons within]
    rfl

theorem tells_skipLines (part : ReportPart) {count : Nat} (positive : 0 < count) (place : Nat) :
    Tells (if place + count ≤ lines.length then some ((), before lines (place + count)) else none)
      ((skipLines (.report (.endsEarly part)) count).run (before lines place)) := by
  have run : (skipLines (.report (.endsEarly part)) count).run (before lines place) =
      if (lines.drop place).length < count then .error (.report (.endsEarly part))
      else .ok ((), ⟨place + 1 + count, (lines.drop place).drop count⟩) := by
    show (if (lines.drop place).length < count then _ else _ : Reading Unit).run _ = _
    split <;> rfl
  rw [run, List.length_drop, List.drop_drop, Nat.add_right_comm]
  by_cases enough : place + count ≤ lines.length
  · rw [if_pos enough, if_neg (by omega)]
    rfl
  · rw [if_neg enough, if_pos (by omega)]
    exact ⟨_, rfl⟩

variable {good : Except Fault (β × Remaining) → Prop}

/-- **After the next line**, if there is one. -/
theorem after_nextLine {next : Numbered → Reading β} {part : ReportPart}
    (refused : lines.length ≤ place → ∀ flaw, good (.error (.report flaw)))
    (further : ∀ text, lines[place]? = some text →
      good ((next ⟨place + 1, text⟩).run (before lines (place + 1)))) :
    good ((nextLine (.report (.endsEarly part)) >>= next).run (before lines place)) := by
  rw [StateT.run_bind]
  refine (tells_nextLine lines part place).after (fun missing => ?_) fun found told => ?_
  · exact refused (List.getElem?_eq_none_iff.mp (Option.map_eq_none_iff.mp missing))
  · obtain ⟨text, there, rfl⟩ := Option.map_eq_some_iff.mp told
    exact further text there

/-- After a word that is looked up in a line. -/
theorem after_lift {next : α → Reading β} {found : Option α} {result : Except Fault α}
    (tells : Tells found result) {start : Remaining}
    (refused : found = none → ∀ flaw, good (.error (.report flaw)))
    (further : ∀ value, found = some value → good ((next value).run start)) :
    good ((liftM result >>= next).run start) := by
  rw [run_lift_bind]
  exact tells.after refused further

/-- After so many lines that are left out. -/
theorem after_skipLines {next : Unit → Reading β} {part : ReportPart} {count : Nat}
    (positive : 0 < count)
    (refused : lines.length < place + count → ∀ flaw, good (.error (.report flaw)))
    (further : place + count ≤ lines.length →
      good ((next ()).run (before lines (place + count)))) :
    good ((skipLines (.report (.endsEarly part)) count >>= next).run (before lines place)) := by
  rw [StateT.run_bind]
  refine (tells_skipLines part positive place).after (fun missing => ?_) fun found told => ?_
  · refine refused (not_le.mp fun enough => ?_)
    rw [if_pos enough] at missing
    cases missing
  · obtain ⟨enough, same⟩ := Option.ite_none_right_eq_some.mp told
    cases same
    exact further enough

/-- The numbers in so many lines, from a place on. -/
def numbersIn? (lines : List (List Char)) : (count place : Nat) → Option (List Binary64)
  | 0, _ => some []
  | count + 1, place => (numberIn? lines place).bind fun number =>
    (numbersIn? lines count (place + 1)).map (number :: ·)

theorem tells_records (count set place : Nat) (reversed : List Binary64) :
    Tells ((numbersIn? lines count place).map fun numbers =>
        (reversed.reverse ++ numbers, before lines (place + count)))
      ((records (fun part => .report (.endsEarly part)) count set reversed).run
        (before lines place)) := by
  induction count generalizing set place reversed with
  | zero =>
    rw [numbersIn?, Option.map_some, List.append_nil]
    rfl
  | succ count ih =>
    rw [records]
    refine after_nextLine (fun ends flaw => ?_) fun text found => ?_
    · rw [numbersIn?, numberIn?, wordIn?, List.getElem?_eq_none ends]
      exact ⟨flaw, rfl⟩
    · refine after_lift (tells_numberOf found) (fun missing flaw => ?_) fun number told => ?_
      · rw [numbersIn?, missing]
        exact ⟨flaw, rfl⟩
      · have rest := ih (set + 1) (place + 1) (number :: reversed)
        rw [List.reverse_cons, show place + 1 + count = place + (count + 1) by omega] at rest
        rw [numbersIn?, told, Option.bind_some, Option.map_map]
        simpa [Function.comp_def] using rest

/-- After so many lines with a number each. -/
theorem after_records {next : List Binary64 → Reading β} {count : Nat}
    (refused : numbersIn? lines count place = none → ∀ flaw, good (.error (.report flaw)))
    (further : ∀ numbers, numbersIn? lines count place = some numbers →
      good ((next numbers).run (before lines (place + count)))) :
    good ((records (fun part => .report (.endsEarly part)) count 0 [] >>= next).run
      (before lines place)) := by
  rw [StateT.run_bind]
  refine (tells_records count 0 place []).after (fun missing => ?_) fun found told => ?_
  · exact refused (Option.map_eq_none_iff.mp missing)
  · obtain ⟨numbers, there, rfl⟩ := Option.map_eq_some_iff.mp told
    exact further numbers there

end Steps

theorem numbersIn?_eq_some_iff {count place : Nat} {numbers : List Binary64} :
    numbersIn? lines count place = some numbers ↔
      numbers.length = count ∧ ∀ set < count, numberIn? lines (place + set) = numbers[set]? := by
  induction count generalizing place numbers with
  | zero => simp [numbersIn?, eq_comm]
  | succ count ih =>
    simp only [numbersIn?, Option.bind_eq_some_iff, Option.map_eq_some_iff, ih]
    constructor
    · rintro ⟨number, here, rest, ⟨length, later⟩, rfl⟩
      refine ⟨congrArg (· + 1) length, fun set below => ?_⟩
      cases set with
      | zero => exact here
      | succ set =>
        rw [List.getElem?_cons_succ, ← later set (by omega), Nat.add_right_comm]
        rfl
    · rintro ⟨length, each⟩
      cases numbers with
      | nil => cases length
      | cons number rest =>
        refine ⟨number, each 0 (Nat.succ_pos count), rest, ⟨Nat.succ_inj.mp length, ?_⟩, rfl⟩
        intro set below
        rw [← List.getElem?_cons_succ, ← each (set + 1) (by omega), Nat.add_right_comm]
        rfl

/-! ### The layout -/

theorem lt_length_of_numberIn? {line : Nat} {number : Binary64}
    (told : numberIn? lines line = some number) : line < lines.length := by
  obtain ⟨word, found, _⟩ := Option.bind_eq_some_iff.mp told
  obtain ⟨text, there, _⟩ := Option.bind_eq_some_iff.mp found
  exact (List.getElem?_eq_some_iff.mp there).1

/-- The layout, as it is found from the first line to the last. -/
theorem layout_iff {pathCount setCount : Nat} {objective : Binary64} {activities : List Binary64} :
    Layout lines pathCount setCount objective activities ↔
      countIn? lines 1 = some pathCount ∧ countIn? lines 2 = some setCount ∧
        numberIn? lines 5 = some objective ∧
        headerLines + extraLines + pathCount ≤ lines.length ∧
        numbersIn? lines setCount (headerLines + extraLines + pathCount) = some activities := by
  rw [numbersIn?_eq_some_iff]
  constructor
  · intro layout
    exact ⟨layout.paths, layout.sets, layout.value,
      (Nat.le_add_right _ _).trans layout.enough, layout.length, layout.records⟩
  · rintro ⟨paths, sets, value, enough, length, records⟩
    refine ⟨paths, sets, value, ?_, length, records⟩
    cases setCount with
    | zero => exact enough
    | succ last =>
      have there := records last (Nat.lt_succ_self last)
      rw [List.getElem?_eq_getElem (by omega)] at there
      exact lt_length_of_numberIn? there

/-- **What a report is read as**: the solution that it tells, if it has the layout and there is such
a solution. -/
def ReadAs (lines : List (List Char)) (result : Except Fault Fractional) : Prop :=
  (∃ pathCount setCount objective activities,
    Layout lines pathCount setCount objective activities ∧
      result = Fractional.make? pathCount setCount objective activities) ∨
  (∀ pathCount setCount objective activities,
    ¬ Layout lines pathCount setCount objective activities) ∧
      ∃ flaw, result = .error (.report flaw)

theorem readAs_ofLines? (lines : List (List Char)) : ReadAs lines (ofLines? lines) := by
  let good : Except Fault (Fractional × Remaining) → Prop := fun result =>
    ReadAs lines (result.map Prod.fst)
  have refuse : (∀ pathCount setCount objective activities,
      ¬ Layout lines pathCount setCount objective activities) →
      ∀ flaw, good (.error (.report flaw)) := fun missing flaw => .inr ⟨missing, flaw, rfl⟩
  have short : ∀ place ≤ 11, lines.length ≤ place → ∀ flaw, good (.error (.report flaw)) := by
    intro place few ends
    refine refuse fun pathCount setCount objective activities layout => ?_
    have enough := layout.enough
    rw [headerLines, extraLines] at enough
    omega
  show good ((parse fun part => .report (.endsEarly part)).run (before lines 0))
  unfold parse
  -- The header.
  refine after_nextLine (short 0 (by omega)) fun _ _ => ?_
  refine after_nextLine (short 1 (by omega)) fun _ second => ?_
  refine after_lift (tells_countOf second) (fun missing => refuse fun _ _ _ _ layout =>
    nomatch missing.symm.trans layout.paths) fun pathCount paths => ?_
  refine after_nextLine (short 2 (by omega)) fun _ third => ?_
  refine after_lift (tells_countOf third) (fun missing => refuse fun _ _ _ _ layout =>
    nomatch missing.symm.trans layout.sets) fun setCount sets => ?_
  refine after_nextLine (short 3 (by omega)) fun _ _ => ?_
  refine after_nextLine (short 4 (by omega)) fun _ _ => ?_
  refine after_nextLine (short 5 (by omega)) fun _ sixth => ?_
  refine after_lift (tells_numberOf sixth) (fun missing => refuse fun _ _ _ _ layout =>
    nomatch missing.symm.trans layout.value) fun objective value => ?_
  -- From here on the counts are known, so that a missing line or record rules out every layout.
  have counted : ∀ {pathCount' setCount' objective' activities'},
      Layout lines pathCount' setCount' objective' activities' →
        pathCount' = pathCount ∧ setCount' = setCount := fun layout =>
    ⟨Option.some_inj.mp (layout.paths.symm.trans paths),
      Option.some_inj.mp (layout.sets.symm.trans sets)⟩
  refine after_skipLines (by decide) (fun ends => short 8 (by omega) (Nat.le_of_lt_succ ends))
    fun _ => ?_
  have place : 6 + (headerLines - 6) + (pathCount + extraLines) =
      headerLines + extraLines + pathCount := by
    rw [headerLines, extraLines]
    omega
  refine after_skipLines (Nat.lt_add_left _ (by decide)) (fun ends => refuse ?_) fun enough => ?_
  · intro _ _ _ _ layout
    obtain ⟨rfl, rfl⟩ := counted layout
    have enough := layout.enough
    omega
  rw [place] at enough ⊢
  refine after_records (fun missing => refuse ?_) fun activities records => ?_
  · intro _ _ _ _ layout
    obtain ⟨rfl, rfl⟩ := counted layout
    have records := (layout_iff.mp layout).2.2.2.2
    exact nomatch missing.symm.trans records
  · refine .inl ⟨pathCount, setCount, objective, activities, ?_, ?_⟩
    · exact layout_iff.mpr ⟨paths, sets, value, enough, records⟩
    · cases Fractional.make? pathCount setCount objective activities <;> rfl

/-! ### The outcome -/

/-- The least activity, the double nearest to -0.001. -/
def leastActivity : Binary64 := .ofDecimal true ⟨1, -3⟩

/-- The greatest activity, the double nearest to 1.001. -/
def greatestActivity : Binary64 := .ofDecimal false ⟨1001, -3⟩

/-- A finite number between -0.001 and 1.001, compared as doubles. -/
structure InRange (activity : Binary64) : Prop where
  finite : activity.isFinite
  above : leastActivity.le activity
  below : activity.le greatestActivity

/-- The limits are the tolerance and one more than it, and at most two away from zero. -/
theorem limits : -activityTolerance = leastActivity ∧
    Binary64.ofInt 1 + activityTolerance = greatestActivity ∧ activityTolerance.isFinite ∧
    leastActivity.isFinite ∧ greatestActivity.isFinite ∧
    (leastActivity.units?.all (-((2 ^ (1074 + 1) : Nat) : Int) ≤ ·)) = true ∧
    (greatestActivity.units?.all (· ≤ ((2 ^ (1074 + 1) : Nat) : Int))) = true := by
  decide +kernel

/-- The range is the one that solutions are checked for. -/
theorem isActivity_iff {activity : Binary64} :
    Fractional.isActivity activity ↔ InRange activity := by
  obtain ⟨least, greatest, _, finite, finite', _⟩ := limits
  rw [Fractional.isActivity, least, greatest]
  constructor
  · intro good
    simp only [Bool.and_eq_true] at good
    obtain ⟨⟨isFinite, above⟩, below⟩ := good
    have number := Binary64.ne_nan_of_isFinite isFinite
    rw [Binary64.lt_eq_not_le number (Binary64.ne_nan_of_isFinite finite), Bool.not_not] at above
    rw [Binary64.lt_eq_not_le (Binary64.ne_nan_of_isFinite finite') number, Bool.not_not] at below
    exact ⟨isFinite, above, below⟩
  · rintro ⟨isFinite, above, below⟩
    have number := Binary64.ne_nan_of_isFinite isFinite
    rw [Binary64.lt_eq_not_le number (Binary64.ne_nan_of_isFinite finite),
      Binary64.lt_eq_not_le (Binary64.ne_nan_of_isFinite finite') number, isFinite, above, below]
    rfl

theorem InRange.within {activity : Binary64} (inRange : InRange activity) :
    Binary64.Within 1 activity := by
  obtain ⟨_, _, _, finite, finite', low, high⟩ := limits
  obtain ⟨units, value⟩ := Binary64.isFinite_iff.mp inRange.finite
  obtain ⟨least, leastValue⟩ := Binary64.isFinite_iff.mp finite
  obtain ⟨greatest, greatestValue⟩ := Binary64.isFinite_iff.mp finite'
  have above := (Binary64.le_iff_units leastValue value).mp inRange.above
  have below := (Binary64.le_iff_units value greatestValue).mp inRange.below
  rw [leastValue, Option.all_some, decide_eq_true_eq] at low
  rw [greatestValue, Option.all_some, decide_eq_true_eq] at high
  refine ⟨units, value, ?_⟩
  generalize 2 ^ (1074 + 1) = limit at low high ⊢
  omega

/-- The sum of the activities is less than 0.001 away from the objective value, all of it computed
in doubles. -/
def IsClose (activities : List Binary64) (objective : Binary64) : Prop :=
  (discrepancy (Binary64.sum activities) objective).lt activityTolerance

/-- No array has room for more doubles than this, of eight bytes each. -/
def maxActivities : Nat := 2 ^ 60

theorem isClose_iff {activities : List Binary64} {objective : Binary64}
    (inRange : ∀ activity ∈ activities, InRange activity)
    (allocated : activities.length ≤ maxActivities) (finite : objective.isFinite) :
    IsClose activities objective ↔
      activityTolerance.le (discrepancy (Binary64.sum activities) objective) = false := by
  have summed : (Binary64.sum activities).isFinite := by
    refine Binary64.isFinite_sum (fun activity member => (inRange activity member).within) ?_
    rw [maxActivities] at allocated
    omega
  rw [IsClose, Binary64.lt_eq_not_le (Binary64.discrepancy_ne_nan summed finite)
    (Binary64.ne_nan_of_isFinite limits.2.2.1), Bool.not_eq_true']

section Outcome

variable {pathCount setCount : Nat} {objective : Binary64} {activities : List Binary64}

theorem Layout.finite (layout : Layout lines pathCount setCount objective activities) :
    objective.isFinite := by
  obtain ⟨_, _, told⟩ := Option.bind_eq_some_iff.mp layout.value
  obtain ⟨value, _, finite⟩ := Option.bind_eq_some_iff.mp told
  obtain ⟨finite, same⟩ := Option.ite_none_right_eq_some.mp finite
  cases same
  exact finite

/-- A report has no more than one layout. -/
theorem Layout.unique {pathCount' setCount' : Nat} {objective' : Binary64}
    {activities' : List Binary64} (layout : Layout lines pathCount setCount objective activities)
    (layout' : Layout lines pathCount' setCount' objective' activities') :
    pathCount' = pathCount ∧ setCount' = setCount ∧ objective' = objective ∧
      activities' = activities := by
  obtain ⟨paths, sets, value, _, records⟩ := layout_iff.mp layout
  obtain ⟨paths', sets', value', _, records'⟩ := layout_iff.mp layout'
  obtain rfl := Option.some_inj.mp (paths'.symm.trans paths)
  obtain rfl := Option.some_inj.mp (sets'.symm.trans sets)
  exact ⟨rfl, rfl, Option.some_inj.mp (value'.symm.trans value),
    Option.some_inj.mp (records'.symm.trans records)⟩

theorem Layout.ofLines?_eq (layout : Layout lines pathCount setCount objective activities) :
    ofLines? lines = Fractional.make? pathCount setCount objective activities := by
  rcases readAs_ofLines? lines with ⟨_, _, _, _, layout', read⟩ | ⟨missing, _⟩
  · obtain ⟨rfl, rfl, rfl, rfl⟩ := layout.unique layout'
    exact read
  · exact absurd layout (missing _ _ _ _)

/-- The three ways in which a report with the layout can end. -/
theorem Layout.make?_cases (layout : Layout lines pathCount setCount objective activities)
    (allocated : setCount ≤ maxActivities) :
    ((∀ activity ∈ activities, InRange activity) ∧ IsClose activities objective ∧
      Fractional.make? pathCount setCount objective activities =
        .ok ⟨pathCount, objective, activities.toArray⟩) ∨
    ((∀ activity ∈ activities, InRange activity) ∧ ¬ IsClose activities objective ∧
      Fractional.make? pathCount setCount objective activities =
        .error (.inconsistent (Binary64.sum activities) objective)) ∨
    ((¬ ∀ activity ∈ activities, InRange activity) ∧
      ∃ flaw, Fractional.make? pathCount setCount objective activities =
        .error (.report flaw)) := by
  have counted : (setCount : Int) = activities.length := congrArg Nat.cast layout.length.symm
  have good_iff : Fractional.firstBad? activities = none ↔
      ∀ activity ∈ activities, InRange activity := by
    simp only [Fractional.firstBad?_eq_none_iff, isActivity_iff]
  cases bad : Fractional.firstBad? activities with
  | some found =>
    refine .inr (.inr ⟨?_, ?_⟩)
    · rw [← good_iff, bad]
      exact fun impossible => by cases impossible
    · rw [Fractional.make?, if_neg (not_not.mpr counted), bad]
      exact ⟨_, rfl⟩
  | none =>
    have inRange := good_iff.mp bad
    have close_iff := isClose_iff inRange (layout.length ▸ allocated) layout.finite
    by_cases close : IsClose activities objective
    · have good := (Fractional.firstBad?_eq_none_iff).mp bad
      exact .inl ⟨inRange, close, Fractional.make?_eq_ok_iff.mpr
        ⟨counted, good, layout.finite, close_iff.mp close, rfl⟩⟩
    · refine .inr (.inl ⟨inRange, close, ?_⟩)
      rw [close_iff, Bool.not_eq_false] at close
      rw [Fractional.make?, if_neg (not_not.mpr counted), bad]
      simp only [layout.finite, close]
      rfl

/-- **Two reports that agree on the words looked up**: the two counts, the objective value and, if
there are enough lines, the activities. -/
structure SameWords (lines other : List (List Char)) : Prop where
  paths : wordIn? other 1 1 = wordIn? lines 1 1
  sets : wordIn? other 2 1 = wordIn? lines 2 1
  value : wordIn? other 5 3 = wordIn? lines 5 3
  enough : ∀ pathCount setCount, countIn? lines 1 = some pathCount →
    countIn? lines 2 = some setCount →
    (headerLines + extraLines + pathCount + setCount ≤ other.length ↔
      headerLines + extraLines + pathCount + setCount ≤ lines.length)
  records : ∀ pathCount setCount, countIn? lines 1 = some pathCount →
    countIn? lines 2 = some setCount → ∀ set < setCount,
    wordIn? other (headerLines + extraLines + pathCount + set) 3 =
      wordIn? lines (headerLines + extraLines + pathCount + set) 3

theorem SameWords.layout_iff (same : SameWords lines other) :
    Layout other pathCount setCount objective activities ↔
      Layout lines pathCount setCount objective activities := by
  have paths : countIn? other 1 = countIn? lines 1 := by rw [countIn?, countIn?, same.paths]
  have sets : countIn? other 2 = countIn? lines 2 := by rw [countIn?, countIn?, same.sets]
  have value : numberIn? other 5 = numberIn? lines 5 := by
    rw [numberIn?, numberIn?, same.value]
  have record : countIn? lines 1 = some pathCount → countIn? lines 2 = some setCount →
      ∀ set < setCount, numberIn? other (headerLines + extraLines + pathCount + set) =
        numberIn? lines (headerLines + extraLines + pathCount + set) := by
    intro first second set below
    rw [numberIn?, numberIn?, same.records _ _ first second set below]
  constructor
  · rintro ⟨first, second, third, enough, length, records⟩
    rw [paths] at first
    rw [sets] at second
    refine ⟨first, second, value ▸ third, (same.enough _ _ first second).mp enough, length, ?_⟩
    intro set below
    rw [← record first second set below, records set below]
  · rintro ⟨first, second, third, enough, length, records⟩
    refine ⟨paths.trans first, sets.trans second, value.trans third,
      (same.enough _ _ first second).mpr enough, length, ?_⟩
    intro set below
    rw [record first second set below, records set below]

/-- **What decides the outcome** of reading a report.

* It is accepted exactly if it has the layout, all activities are in range, and their sum is close
  to the objective value. The solution is then the one that it tells.
* It is inconsistent exactly if only the sum is not close. In all other cases it is malformed.
* Nothing else matters: two reports that agree on the words looked up are read alike. -/
structure Decided (lines : List (List Char)) : Prop where
  accepted : ∀ fractional, ofLines? lines = .ok fractional ↔
    ∃ pathCount setCount objective activities,
      Layout lines pathCount setCount objective activities ∧
        (∀ activity ∈ activities, InRange activity) ∧ IsClose activities objective ∧
        fractional = ⟨pathCount, objective, activities.toArray⟩
  inconsistent : ∀ sum objective, ofLines? lines = .error (.inconsistent sum objective) ↔
    ∃ pathCount setCount activities, Layout lines pathCount setCount objective activities ∧
      (∀ activity ∈ activities, InRange activity) ∧ ¬ IsClose activities objective ∧
      sum = Binary64.sum activities
  malformed : ∀ fault, ofLines? lines = .error fault →
    (∃ sum objective, fault = .inconsistent sum objective) ∨ ∃ flaw, fault = .report flaw
  alike : ∀ other, SameWords lines other → ofLines? other = ofLines? lines ∨
    ∃ flaw flaw', ofLines? other = .error (.report flaw) ∧
      ofLines? lines = .error (.report flaw')

theorem SameWords.alike (same : SameWords lines other) : ofLines? other = ofLines? lines ∨
    ∃ flaw flaw', ofLines? other = .error (.report flaw) ∧
      ofLines? lines = .error (.report flaw') := by
  rcases readAs_ofLines? lines with ⟨_, _, _, _, layout, read⟩ | ⟨missing, flaw, refused⟩
  · rcases readAs_ofLines? other with ⟨_, _, _, _, layout', read'⟩ | ⟨missing', _⟩
    · obtain ⟨rfl, rfl, rfl, rfl⟩ := layout.unique (same.layout_iff.mp layout')
      exact .inl (read'.trans read.symm)
    · exact absurd (same.layout_iff.mpr layout) (missing' _ _ _ _)
  · rcases readAs_ofLines? other with ⟨_, _, _, _, layout', _⟩ | ⟨_, flaw', refused'⟩
    · exact absurd (same.layout_iff.mp layout') (missing _ _ _ _)
    · exact .inr ⟨flaw', flaw, refused', refused⟩

/-- **The outcome of every report** is decided so, as long as there is room for its activities. -/
theorem ofLines?_decided (lines : List (List Char))
    (allocated : ∀ setCount, countIn? lines 2 = some setCount → setCount ≤ maxActivities) :
    Decided lines where
  accepted fractional := by
    constructor
    · intro read
      rcases readAs_ofLines? lines with ⟨_, _, _, _, layout, same⟩ | ⟨_, flaw, refused⟩
      · rw [same] at read
        rcases layout.make?_cases (allocated _ layout.sets) with
          ⟨inRange, close, made⟩ | ⟨_, _, made⟩ | ⟨_, flaw, made⟩
        · exact ⟨_, _, _, _, layout, inRange, close, Except.ok.inj (read.symm.trans made)⟩
        · exact nomatch read.symm.trans made
        · exact nomatch read.symm.trans made
      · exact nomatch read.symm.trans refused
    · rintro ⟨_, _, _, _, layout, inRange, close, rfl⟩
      rw [layout.ofLines?_eq]
      rcases layout.make?_cases (allocated _ layout.sets) with
        ⟨_, _, made⟩ | ⟨_, far, _⟩ | ⟨outside, _⟩
      · exact made
      · exact absurd close far
      · exact absurd inRange outside
  inconsistent sum objective := by
    constructor
    · intro read
      rcases readAs_ofLines? lines with ⟨_, _, _, _, layout, same⟩ | ⟨_, flaw, refused⟩
      · rw [same] at read
        rcases layout.make?_cases (allocated _ layout.sets) with
          ⟨_, _, made⟩ | ⟨inRange, far, made⟩ | ⟨_, flaw, made⟩
        · exact nomatch read.symm.trans made
        · cases read.symm.trans made
          exact ⟨_, _, _, layout, inRange, far, rfl⟩
        · exact nomatch read.symm.trans made
      · exact nomatch read.symm.trans refused
    · rintro ⟨_, _, _, layout, inRange, far, rfl⟩
      rw [layout.ofLines?_eq]
      rcases layout.make?_cases (allocated _ layout.sets) with
        ⟨_, close, _⟩ | ⟨_, _, made⟩ | ⟨outside, _⟩
      · exact absurd close far
      · exact made
      · exact absurd inRange outside
  malformed fault read := by
    rcases readAs_ofLines? lines with ⟨_, _, _, _, layout, same⟩ | ⟨_, flaw, refused⟩
    · rw [same] at read
      rcases layout.make?_cases (allocated _ layout.sets) with
        ⟨_, _, made⟩ | ⟨_, _, made⟩ | ⟨_, flaw, made⟩
      · exact nomatch read.symm.trans made
      · exact .inl ⟨_, _, Except.error.inj (read.symm.trans made)⟩
      · exact .inr ⟨flaw, Except.error.inj (read.symm.trans made)⟩
    · exact .inr ⟨flaw, Except.error.inj (read.symm.trans refused)⟩
  alike _ same := same.alike

/-- A report of one path and one set. The other words of its lines do not matter. -/
def shortReport : List (List Char) :=
  ["x", "Rows 1", "Columns 1", "x", "x", "A B C 0.5", "x", "x", "x", "x", "x", "x", "x",
    "a b c 0.5"].map String.toList

/-- It tells that half of the set is selected. -/
theorem ofLines?_decided_short :
    (∀ setCount, countIn? shortReport 2 = some setCount → setCount ≤ maxActivities) ∧
      ofLines? shortReport =
        .ok ⟨1, .ofDecimal false ⟨5, -1⟩, #[.ofDecimal false ⟨5, -1⟩]⟩ := by
  have sets : countIn? shortReport 2 = some 1 := by decide +kernel
  have layout : Layout shortReport 1 1 (.ofDecimal false ⟨5, -1⟩) [.ofDecimal false ⟨5, -1⟩] := by
    refine ⟨?_, sets, ?_, ?_, rfl, ?_⟩ <;> decide +kernel
  have inRange : ∀ activity ∈ [Binary64.ofDecimal false ⟨5, -1⟩], InRange activity := by
    rw [List.forall_mem_singleton]
    refine ⟨?_, ?_, ?_⟩ <;> decide +kernel
  have close : IsClose [.ofDecimal false ⟨5, -1⟩] (.ofDecimal false ⟨5, -1⟩) := by
    unfold IsClose
    decide +kernel
  have allocated : ∀ setCount, countIn? shortReport 2 = some setCount →
      setCount ≤ maxActivities := by
    intro setCount told
    rw [← Option.some_inj.mp (sets.symm.trans told)]
    decide
  exact ⟨allocated, ((ofLines?_decided shortReport allocated).accepted _).mpr
    ⟨1, 1, _, _, layout, inRange, close, rfl⟩⟩

end Outcome

end Transversal.Report
