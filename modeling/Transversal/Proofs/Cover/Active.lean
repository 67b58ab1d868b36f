/-
**Whether a set without a positive activity comes into a cover that is grown at random.**

It does on some stream just when the sets of some path trail off with it: the stream visits this
path first, accepts nothing, and draws with the largest fraction.

* `Aimed`: this stream.
* `shuffle_aimed`, `returns_acceptHitting_aimed`, `returns_weighHitting_aimed`: what is drawn on it.
* `Incidence.DrawsActive`: what is known of the members of every cover that is returned, and when
  all of them have a positive activity.
* `sampled_members_active`: it holds for every relation and every solution that was accepted.
-/
import Transversal.Proofs.Cover.Drawn

namespace Transversal

open Binary64 (ofFraction largestFraction)

/-! ### A stream aimed at one path -/

/-- A stream that exchanges no place but the one of the path, and only draws the largest fraction.
-/
structure Aimed (path : Nat)

instance (path : Nat) : RandomStream (Aimed path) where
  upTo bound stream := (if bound = path then ⟨0, Nat.succ_pos bound⟩ else Fin.last bound, stream)
  fraction stream := (largestFraction, stream)

variable {path : Nat}

theorem upTo_aimed (bound : Nat) (stream : Aimed path) :
    ((RandomStream.upTo bound stream).1 : Nat) = if bound = path then 0 else bound := by
  show ((if bound = path then ⟨0, Nat.succ_pos bound⟩ else Fin.last bound : Fin (bound + 1)) : Nat)
    = _
  split <;> rfl

theorem swapIfInBounds_self (order : Array Nat) (place : Nat) :
    order.swapIfInBounds place place = order := by
  refine Array.ext Array.size_swapIfInBounds fun other _ _ => ?_
  rw [Array.getElem_swapIfInBounds]
  split_ifs with here
  · obtain ⟨rfl, _⟩ := here
    rfl
  · rfl

theorem exchangeDown_aimed (last : Nat) (order : Array Nat) (stream : Aimed path) :
    (RandomStream.exchangeDown last order stream).1 =
      if path ≤ last then order.swapIfInBounds path 0 else order := by
  induction last generalizing order with
  | zero =>
    rw [RandomStream.exchangeDown]
    split_ifs with first
    · obtain rfl := Nat.le_zero.mp first
      exact (swapIfInBounds_self order 0).symm
    · rfl
  | succ last ih =>
    show (RandomStream.exchangeDown last (order.swapIfInBounds (last + 1)
      (RandomStream.upTo (last + 1) stream).1) stream).1 = _
    rw [ih, upTo_aimed]
    by_cases here : last + 1 = path
    · subst here
      simp
    · rw [if_neg here, swapIfInBounds_self]
      congr 1
      apply propext
      omega

/-- The path comes first. -/
theorem shuffle_aimed {count : Nat} (within : path < count) (stream : Aimed path) :
    ∃ rest, (RandomStream.shuffle (List.range count) stream).1 = path :: rest := by
  have last : path ≤ count - 1 := by omega
  have exchanged : (RandomStream.shuffle (List.range count) stream).1 =
      ((List.range count).toArray.swapIfInBounds path 0).toList := by
    show (RandomStream.exchangeDown ((List.range count).length - 1) _ stream).1.toList = _
    rw [exchangeDown_aimed, List.length_range, if_pos last]
  rw [exchanged, ← List.head?_eq_some_iff, List.head?_eq_getElem?, Array.getElem?_toList,
    Array.getElem?_eq_some_iff]
  refine ⟨by simp; omega, ?_⟩
  rw [Array.getElem_swapIfInBounds]
  split_ifs with first second
  · simpa using first.1
  · simp
  · simp [within] at second

/-! ### What is drawn on it -/

section Aimed

variable {activities : Array Binary64} {hitting : List Int} {set : Int}

/-- No activity is larger than the sum of the weights. -/
theorem TrailsOff.small (trails : TrailsOff activities hitting set)
    (bounded : ActivitiesBounded activities hitting) {other : Int} (member : other ∈ hitting) :
    ∃ units, (activityAt activities other).units? = some units ∧ units ≤ 2 ^ 52 := by
  obtain ⟨sum, units, isLast, value, tiny⟩ := trails.tiny
  have listed : weightOf (activityAt activities other) ∈ weightsOf activities hitting :=
    List.mem_map.mpr ⟨other, member, rfl⟩
  obtain ⟨_, _, isLast', value', _, _, above⟩ :=
    runningSums_getLast? (List.ne_nil_of_mem listed) bounded.isWeight
  cases isLast.symm.trans isLast'
  cases value.symm.trans value'
  obtain ⟨own, ownValue, _⟩ := bounded other member
  refine ⟨own, ownValue, ?_⟩
  by_cases positive : (activityAt activities other).isPositive
  · have most := above _ listed own (by rw [weightOf_of_isPositive positive, ownValue])
    exact le_trans most tiny
  · rw [Binary64.isPositive, Binary64.lt_iff_units Binary64.units?_zero ownValue] at positive
    omega

/-- The largest fraction is larger than any activity there. -/
theorem largestFraction_not_lt {x : Binary64} {units : Int} (value : x.units? = some units)
    (small : units ≤ 2 ^ 52) : ¬ (ofFraction largestFraction).lt x := by
  rw [Binary64.ofFraction_eq, Binary64.lt_iff_units rfl value]
  have large : ((2 ^ 52 : Nat) : Int) ≤ (Binary64.fractionStep * largestFraction.val : Nat) := by
    decide +kernel
  show ¬ ((Binary64.fractionStep * largestFraction.val : Nat) : Int) < units
  omega

theorem returns_drawFraction_aimed : Run.Returns (drawFraction : Run (Aimed path) Binary64)
    (· = ofFraction largestFraction) := by
  have drawn : Run.Returns (Run.draw RandomStream.fraction : Run (Aimed path) (Fin (Nat.pow 2 53)))
      (· = largestFraction) := Run.returns_draw fun _ => rfl
  exact drawn.bind fun _ same => Run.returns_pure (congrArg ofFraction same)

variable (trails : TrailsOff activities hitting set)
  (bounded : ActivitiesBounded activities hitting)

include trails bounded

/-- **Nothing is accepted** on this stream. -/
theorem returns_acceptHitting_aimed (draws : Nat) :
    Run.Returns (acceptHitting? hitting activities draws : Run (Aimed path) (Option Int))
      (· = none) := by
  induction draws with
  | zero => exact Run.returns_pure rfl
  | succ draws ih =>
    refine (returns_pick hitting).bind fun candidate member => ?_
    refine returns_drawFraction_aimed.bind fun fraction drawn => ?_
    refine (returns_activityOf candidate).bind fun activity same => ?_
    obtain ⟨units, value, small⟩ := trails.small bounded member
    have refused : ¬ fraction.lt activity := by
      rw [drawn, same]
      exact largestFraction_not_lt value small
    rw [if_neg refused]
    exact ih

/-- **The last set is drawn** on this stream. -/
theorem returns_weighHitting_aimed :
    Run.Returns (weighHitting hitting activities : Run (Aimed path) Int) (· = set) := by
  refine (Run.returns_lift fun _ => eq_weightsOf_of_mapM).bind ?_
  rintro _ rfl
  refine (Run.returns_lift fun _ positive => positive).bind fun total positive => ?_
  refine returns_drawFraction_aimed.bind fun fraction drawn => ?_
  obtain ⟨last, units, isLast, value, totalValue, some_weight⟩ :=
    units?_of_weightTotal? bounded.isWeight positive
  have tiny : units ≤ 2 ^ 52 := by
    obtain ⟨sum, _, isLast', value', tiny⟩ := trails.tiny
    cases isLast.symm.trans isLast'
    cases value.symm.trans value'
    exact_mod_cast tiny
  have pointValue := Binary64.units?_largestFraction_mul totalValue some_weight tiny
  -- the largest fraction of the sum is the sum again, which no sum is above
  have past : ∀ sum ∈ runningSums (weightsOf activities hitting),
      (fraction * total).lt sum = false := by
    intro sum member
    obtain ⟨b, sumValue, most⟩ :=
      units?_le_of_mem_runningSums bounded.isWeight isLast value sum member
    rw [drawn, Bool.eq_false_iff, Ne, Binary64.lt_iff_units pointValue sumValue]
    omega
  rw [placeAbove_of_le past, length_runningSums, weightsOf, List.length_map,
    ← List.getLast?_eq_getElem?, trails.last]
  exact Run.returns_pure rfl

/-- **The last set is sampled** on this stream. -/
theorem returns_sampleHitting_aimed (maxDraws : Int) :
    Run.Returns (sampleHitting hitting activities maxDraws : Run (Aimed path) Int) (· = set) := by
  refine (returns_acceptHitting_aimed trails bounded maxDraws.toNat).bind ?_
  rintro _ rfl
  exact (Run.returns_true _).bind fun _ _ => returns_weighHitting_aimed trails bounded

end Aimed

/-! ### Covers -/

variable {incidence : Incidence} {fractional : Fractional} {activities : Array Binary64}

/-- Every set of a cover that is returned was sampled for some path. -/
theorem returns_sampledCover_members {σ : Type} [RandomStream σ] {maxDraws : Int}
    {good : Int → Prop}
    (sampled : ∀ path < incidence.pathCount, Run.Returns
      (sampleHitting (incidence.hitting path) activities maxDraws : Run σ Int) good) :
    Run.Returns (sampledCover incidence activities maxDraws : Run σ Selection)
      fun grown => ∀ set ∈ grown.members, good set := by
  refine (Run.returns_shuffle (List.range incidence.pathCount)).bind fun order same => ?_
  have grows : Run.Returns (coverInOrder incidence activities maxDraws order
      (.empty incidence.pathCount) : Run σ Selection)
      fun grown => Tracked incidence grown ∧ ∀ set ∈ grown.members, good set := by
    refine returns_coverInOrder_of_step ?_
      ⟨tracked_empty incidence, fun _ absent => absurd absent List.not_mem_nil⟩
    rintro path member now ⟨tracked, all⟩
    have within : path < incidence.pathCount := List.mem_range.mp (same.mem_iff.mp member)
    refine (sampled path within).mono fun set held after added => ⟨tracked.add added, ?_⟩
    rw [tracked.members_add added, List.forall_mem_append, List.forall_mem_singleton]
    exact ⟨all, held⟩
  exact (returns_ifComplete grows).mono fun _ returned => returned.1.2

/-- **The set that a path trails off with** is in every cover grown on the stream aimed at it. -/
theorem returns_sampledCover_aimed
    (bounded : ActivitiesBounded activities (incidence.hitting path))
    (within : path < incidence.pathCount) {set : Int}
    (trails : TrailsOff activities (incidence.hitting path) set) (maxDraws : Int) :
    Run.Returns (sampledCover incidence activities maxDraws : Run (Aimed path) Selection)
      (set ∈ ·.members) := by
  have shuffled : Run.Returns (Run.draw (RandomStream.shuffle (List.range incidence.pathCount)) :
      Run (Aimed path) (List Nat)) fun order => ∃ rest, order = path :: rest :=
    Run.returns_draw (shuffle_aimed within)
  refine shuffled.bind ?_
  rintro _ ⟨rest, rfl⟩
  have unhit : ¬ 0 < (Selection.empty incidence.pathCount).hits.getD path 0 := by
    simp [Selection.empty, within]
  have grows : Run.Returns (coverInOrder incidence activities maxDraws (path :: rest)
      (.empty incidence.pathCount) : Run (Aimed path) Selection)
      fun grown => Tracked incidence grown ∧ set ∈ grown.members := by
    rw [coverInOrder, if_neg unhit]
    refine (returns_sampleHitting_aimed trails bounded maxDraws).bind fun found same => ?_
    obtain rfl : set = found := same.symm
    have added : Run.Returns (Run.lift ((Selection.empty incidence.pathCount).add? incidence set) :
        Run (Aimed path) Selection) fun after => Tracked incidence after ∧ set ∈ after.members := by
      refine Run.returns_lift fun after added => ⟨(tracked_empty incidence).add added, ?_⟩
      rw [(tracked_empty incidence).members_add added]
      exact List.mem_append_right _ (List.mem_singleton_self set)
    refine added.bind fun after held => ?_
    by_cases complete : after.unhit = 0
    · rw [if_pos complete]
      exact Run.returns_pure held
    · rw [if_neg complete]
      refine returns_coverInOrder_of_step ?_ held
      rintro path _ now ⟨tracked, member⟩
      refine (Run.returns_true _).mono fun other _ after added => ⟨tracked.add added, ?_⟩
      rw [tracked.members_add added]
      exact List.mem_append_left _ member
  exact (returns_ifComplete grows).mono fun _ returned => returned.1.2

/-- **Which sets a cover grown at random is made of.** An accepted set has a positive activity, and
every member has one, or the sets of a path trail off with it. If every set has some activity, all
members of all covers have a positive one just when no path trails off. -/
structure Incidence.DrawsActive (incidence : Incidence) (activities : Array Binary64)
    (maxDraws : Int) : Prop where
  accepted : ∀ {σ : Type} [RandomStream σ] (hitting : List Int) (draws : Nat),
    Run.Returns (acceptHitting? hitting activities draws : Run σ (Option Int))
      fun found => ∀ set ∈ found, (activityAt activities set).isPositive
  members : ∀ {σ : Type} [RandomStream σ],
    Run.Returns (sampledCover incidence activities maxDraws : Run σ Selection)
      fun grown => ∀ set ∈ grown.members, (activityAt activities set).isPositive ∨
        ∃ path < incidence.pathCount, TrailsOff activities (incidence.hitting path) set
  exact : incidence.setCount ≤ activities.size →
    ((∀ {σ : Type} [RandomStream σ],
      Run.Returns (sampledCover incidence activities maxDraws : Run σ Selection)
        fun grown => ∀ set ∈ grown.members, (activityAt activities set).isPositive) ↔
      ∀ path < incidence.pathCount, ∀ set, ¬ TrailsOff activities (incidence.hitting path) set)

theorem Fractional.IsAccepted.activityAt_units (accepted : fractional.IsAccepted) (set : Int) :
    ∃ units, (activityAt fractional.activities set).units? = some units ∧
      units ≤ 2 * (Magnitude.one : Int) := by
  unfold activityAt
  cases found : entryAt? fractional.activities set with
  | none => exact ⟨0, rfl, by decide +kernel⟩
  | some activity =>
    obtain ⟨place, _, entry⟩ := Option.bind_eq_some_iff.mp found
    exact accepted.activity_units (Array.mem_of_getElem? entry)

/-- **A set without a positive activity is in a cover only if a path trails off with it**, and then
it is in one, for every relation and every solution that was accepted, whatever the limit on the
draws. -/
theorem sampled_members_active {sets : List (List Int)} {pathCount : Option Int}
    (built : Incidence.ofSets? sets pathCount = .ok incidence) (accepted : fractional.IsAccepted)
    (checked : checkSupport incidence fractional.activities = .ok ()) (maxDraws : Int) :
    incidence.DrawsActive fractional.activities maxDraws := by
  have agreement := Incidence.agreement_of_ofSets? built
  have bounded := accepted.activityAt_units
  have members {σ : Type} [RandomStream σ] :
      Run.Returns (sampledCover incidence fractional.activities maxDraws : Run σ Selection)
        fun grown => ∀ set ∈ grown.members, (activityAt fractional.activities set).isPositive ∨
          ∃ path < incidence.pathCount,
            TrailsOff fractional.activities (incidence.hitting path) set :=
    returns_sampledCover_members fun path within =>
      (returns_sampleHitting_active (fun set _ => bounded set) maxDraws).mono fun set =>
        Or.imp_right fun trails => ⟨path, within, trails⟩
  refine ⟨returns_acceptHitting_active, members, fun enough =>
    ⟨fun active path within set trails => ?_, fun none_trails => ?_⟩⟩
  · -- a cover is returned on the stream aimed at the path, and the set is in it
    have support := (checkSupport_eq_ok_iff agreement enough).mp checked
    have supported : ∀ path < incidence.pathCount,
        Supported fractional.activities (incidence.hitting path) := fun path within =>
      supported_hitting agreement enough (fun activity member => accepted.activity_units member)
        support within
    obtain ⟨grown, ran, _⟩ := (yields_sampledCover (σ := Aimed path) agreement supported
      maxDraws).exists_ok ⟨⟨⟩, #[]⟩
    have member := returns_sampledCover_aimed (fun set _ => bounded set) within trails maxDraws
      _ _ ran
    exact trails.idle (active _ _ ran set member)
  · refine members.mono fun grown all set member => (all set member).resolve_right ?_
    rintro ⟨path, within, trails⟩
    exact none_trails path within set trails

/-- No path of the overlap trails off with the activities of the singles: every set of every cover
has a positive one, on every stream. -/
theorem sampled_members_active_overlap :
    Incidence.ofSets? [[0], [], [0, 1], [1]] none = .ok overlap ∧ singles.IsAccepted ∧
      checkSupport overlap singles.activities = .ok () ∧
      ∀ {σ : Type} [RandomStream σ],
        Run.Returns (sampledCover overlap singles.activities 1 : Run σ Selection)
          fun grown => ∀ set ∈ grown.members, (activityAt singles.activities set).isPositive := by
  have accepted : singles.IsAccepted := by
    rw [Fractional.isAccepted_iff]
    decide +kernel
  have checked : checkSupport overlap singles.activities = .ok () := by decide +kernel
  refine ⟨overlap_built, accepted, checked, ?_⟩
  refine ((sampled_members_active overlap_built accepted checked 1).exact (by decide)).mpr ?_
  have large : ∀ path < 2, ((runningSums (weightsOf singles.activities
      (overlap.hitting path))).getLast?.bind Binary64.units?).all ((2 ^ 52 : Int) < ·) := by
    decide +kernel
  rintro path within set ⟨_, _, sum, units, isLast, value, tiny⟩
  have above := large path within
  rw [isLast, Option.bind_some, value, Option.all_some, decide_eq_true_eq] at above
  omega

/-! ### A member without an activity -/

/-- Two sets with the same path. -/
def twins : Incidence := ⟨#[[0], [0]], #[[0, 1]]⟩

/-- The smallest activity for the first twin, and none for the second one. -/
def faint : Fractional := ⟨1, .zero, #[.finite false ⟨1, by decide +kernel⟩, .zero]⟩

/-- **The second twin is drawn**, although it has no activity: the largest fraction of the smallest
activity is the activity itself, which is not below the last sum. -/
theorem faint_twin_drawn :
    Incidence.ofSets? [[0], [0]] none = .ok twins ∧ faint.IsAccepted ∧
      checkSupport twins faint.activities = .ok () ∧
      ((sampledCover twins faint.activities 0).run.run ⟨(⟨⟩ : Aimed 0), #[]⟩).1 =
        .ok ⟨[1], #[1], 0⟩ ∧
      activityAt faint.activities 1 = .zero := by
  refine ⟨by decide +kernel, ?_, by decide +kernel, by decide +kernel, by decide +kernel⟩
  rw [Fractional.isAccepted_iff]
  decide +kernel

end Transversal
