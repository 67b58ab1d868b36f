/-
**A cover grown at random never fails where every path is supported.**

* `Supported`: every set of a path has a bounded activity, and one of them a positive one;
  `checkSupport_eq_ok_iff`: this is what is checked before a run.
* `yields_sampleHitting`: a set sampled for a path is one of its sets, for every stream and every
  limit on the draws, also zero and below.
* `Growing`: the sets selected so far are distinct, and there are at most as many as paths hit.
* `yields_sampledCover`: what is grown is complete, and `Growing`.
* `returns_coverInOrder_of_step`: over any relation, what every set preserves that is sampled and
  added; `returns_sampledCover`: what is returned is complete and tracked.
* `appends_sampledCover`: it does not depend on what was reported before, and reports no
  improvement.
-/
import Transversal.Proofs.Cover.Weights
import Transversal.Proofs.Incidence.Agreement
import Transversal.Proofs.Run
import Transversal.Proofs.Selection.Tracked

namespace Transversal

/-! ### Support -/

/-- The activity of a set, and zero if the index denotes none. -/
def activityAt (activities : Array Binary64) (set : Int) : Binary64 :=
  (entryAt? activities set).getD .zero

theorem activityOf?_eq_ok {activities : Array Binary64} {set : Int}
    (known : (entryAt? activities set).isSome) :
    activityOf? activities set = .ok (activityAt activities set) := by
  obtain ⟨activity, found⟩ := Option.isSome_iff_exists.mp known
  simp [activityOf?, activityAt, found]

/-- A list of sets to sample from: all activities are known and at most two, and one of them is
positive. -/
structure Supported (activities : Array Binary64) (hitting : List Int) : Prop where
  known : ∀ set ∈ hitting, (entryAt? activities set).isSome
  bounded : ∀ set ∈ hitting, ∃ units, (activityAt activities set).units? = some units ∧
    units ≤ 2 * (Magnitude.one : Int)
  positive : ∃ set ∈ hitting, (activityAt activities set).isPositive

theorem anyActive?_eq_ok {activities : Array Binary64} {hitting : List Int}
    (known : ∀ set ∈ hitting, (entryAt? activities set).isSome) :
    anyActive? activities hitting =
      .ok (hitting.any fun set => (activityAt activities set).isPositive) := by
  induction hitting with
  | nil => rfl
  | cons set rest ih =>
    rw [List.forall_mem_cons] at known
    rw [anyActive?, activityOf?_eq_ok known.1, ih known.2, List.any_cons]
    show (if (activityAt activities set).isPositive = true then pure true else _) = _
    cases (activityAt activities set).isPositive <;> rfl

theorem forM_anyActive_eq_ok_iff {activities : Array Binary64} {entries : List (List Int × Nat)}
    (known : ∀ entry ∈ entries, ∀ set ∈ entry.1, (entryAt? activities set).isSome) :
    (entries.forM fun entry => do
        if !(← anyActive? activities entry.1) then throw (.inactive entry.2) :
          Except Fault PUnit) = .ok () ↔
      ∀ entry ∈ entries, ∃ set ∈ entry.1, (activityAt activities set).isPositive := by
  induction entries with
  | nil => simp [List.forM]; rfl
  | cons entry rest ih =>
    rw [List.forall_mem_cons] at known ⊢
    rw [← ih known.2, ← List.any_eq_true]
    show ((anyActive? activities entry.1 >>= _) >>= _) = _ ↔ _
    rw [anyActive?_eq_ok known.1]
    cases entry.1.any fun set => (activityAt activities set).isPositive with
    | true => exact (and_iff_right rfl).symm
    | false =>
      constructor
      · intro run
        cases run
      · rintro ⟨impossible, _⟩
        cases impossible

/-- Every path is listed by a set with a positive activity. -/
def Incidence.IsSupported (incidence : Incidence) (activities : Array Binary64) : Prop :=
  ∀ path < incidence.pathCount, ∃ set < incidence.setCount,
    (path : Int) ∈ incidence.listed set ∧ (activityAt activities set).isPositive

section Support

variable {incidence : Incidence} (agreement : incidence.Agreement) {activities : Array Binary64}
  (enough : incidence.setCount ≤ activities.size)

include agreement enough

theorem known_of_mem_hitting {path : Nat} (within : path < incidence.pathCount) {set : Int}
    (member : set ∈ incidence.hitting path) : (entryAt? activities set).isSome := by
  obtain ⟨place, below, rfl, _⟩ := (agreement.mem_hitting_iff within).mp member
  rw [entryAt?_natCast (below.trans_le enough), Option.isSome_some]

omit agreement enough in
/-- The sets of every path, with the path. -/
theorem mem_zipIdx_paths_iff {hitting : List Int} {path : Nat} :
    (hitting, path) ∈ incidence.paths.toList.zipIdx ↔
      path < incidence.pathCount ∧ incidence.hitting path = hitting := by
  rw [List.mem_zipIdx_iff_getElem?, Array.getElem?_toList, Array.getElem?_eq_some_iff,
    Incidence.hitting, Array.getD_eq_getD_getElem?]
  constructor
  · rintro ⟨within, same⟩
    exact ⟨within, by rw [Array.getElem?_eq_getElem within, Option.getD_some, same]⟩
  · rintro ⟨within, same⟩
    rw [Array.getElem?_eq_getElem within, Option.getD_some] at same
    exact ⟨within, same⟩

theorem known_of_mem_zipIdx {entry : List Int × Nat}
    (member : entry ∈ incidence.paths.toList.zipIdx) {set : Int} (listed : set ∈ entry.1) :
    (entryAt? activities set).isSome := by
  obtain ⟨within, same⟩ := mem_zipIdx_paths_iff.mp member
  exact known_of_mem_hitting agreement enough within (same ▸ listed)

/-- **What is checked before a run**: every path has a set with a positive activity. -/
theorem checkSupport_eq_ok_iff :
    checkSupport incidence activities = .ok () ↔ incidence.IsSupported activities := by
  unfold checkSupport
  refine (forM_anyActive_eq_ok_iff fun _ member _ =>
    known_of_mem_zipIdx agreement enough member).trans ?_
  constructor
  · intro all path within
    obtain ⟨set, member, positive⟩ := all _ (mem_zipIdx_paths_iff.mpr ⟨within, rfl⟩)
    obtain ⟨place, below, rfl, listed⟩ := (agreement.mem_hitting_iff within).mp member
    exact ⟨place, below, listed, positive⟩
  · rintro all ⟨hitting, path⟩ member
    obtain ⟨within, rfl⟩ := mem_zipIdx_paths_iff.mp member
    obtain ⟨place, below, listed, positive⟩ := all path within
    exact ⟨place, (agreement.mem_hitting_iff within).mpr ⟨place, below, rfl, listed⟩, positive⟩

/-- A path without such a set is told. -/
theorem inactive_of_checkSupport {fault : Fault}
    (failed : checkSupport incidence activities = .error fault) :
    ∃ path, fault = .inactive path := by
  have told : Except.Ends (fun _ => True) (fun fault => ∃ path, fault = .inactive path)
      (checkSupport incidence activities) := by
    refine Except.ends_forM fun entry member => ?_
    show Except.Ends _ _ (anyActive? activities entry.1 >>= _)
    rw [anyActive?_eq_ok fun _ => known_of_mem_zipIdx agreement enough member]
    show Except.Ends _ _ (if !(entry.1.any fun set => (activityAt activities set).isPositive)
      then _ else _)
    cases entry.1.any fun set => (activityAt activities set).isPositive with
    | true => trivial
    | false => exact ⟨entry.2, rfl⟩
  exact told.of_error failed

/-- Every path of a supported relation can be sampled for. -/
theorem supported_hitting
    (bounded : ∀ activity ∈ activities, ∃ units, activity.units? = some units ∧
      units ≤ 2 * (Magnitude.one : Int))
    (support : incidence.IsSupported activities) {path : Nat}
    (within : path < incidence.pathCount) : Supported activities (incidence.hitting path) where
  known set member := known_of_mem_hitting agreement enough within member
  bounded set member := by
    obtain ⟨place, below, rfl, _⟩ := (agreement.mem_hitting_iff within).mp member
    have inside : place < activities.size := below.trans_le enough
    rw [activityAt, entryAt?_natCast inside, Option.getD_some]
    exact bounded _ (Array.getElem_mem inside)
  positive := by
    obtain ⟨place, below, listed, positive⟩ := support path within
    exact ⟨place, (agreement.mem_hitting_iff within).mpr ⟨place, below, rfl, listed⟩, positive⟩

end Support

/-! ### Sampling -/

section Sampling

variable {σ : Type} [RandomStream σ]

theorem pick?_mem {α : Type} {entries : List α} (nonempty : entries ≠ []) (stream : σ) :
    ∃ entry ∈ entries, (RandomStream.pick? entries stream).1 = some entry := by
  cases entries with
  | nil => exact absurd rfl nonempty
  | cons first rest => exact ⟨_, List.getElem_mem _, rfl⟩

theorem yields_pick {α : Type} {entries : List α} (nonempty : entries ≠ []) :
    Run.Yields (pick entries : Run σ α) (· ∈ entries) := by
  have drawn : Run.Yields (Run.draw (RandomStream.pick? entries) : Run σ (Option α))
      fun found => ∃ entry ∈ entries, found = some entry := Run.yields_draw (pick?_mem nonempty)
  refine drawn.bind ?_
  rintro _ ⟨entry, member, rfl⟩
  exact Run.yields_pure member

theorem yields_drawFraction : Run.Yields (drawFraction : Run σ Binary64) fun _ => True := by
  have drawn : Run.Yields (Run.draw RandomStream.fraction : Run σ (Fin (2 ^ 53)))
      fun _ => True := Run.yields_draw fun _ => trivial
  exact drawn.bind fun _ _ => Run.yields_pure trivial

variable {activities : Array Binary64} {hitting : List Int}

theorem yields_acceptHitting (support : Supported activities hitting) (draws : Nat) :
    Run.Yields (acceptHitting? hitting activities draws : Run σ (Option Int))
      fun found => ∀ set ∈ found, set ∈ hitting := by
  obtain ⟨active, present, _⟩ := support.positive
  induction draws with
  | zero => exact Run.yields_pure (by simp)
  | succ draws ih =>
    refine (yields_pick (List.ne_nil_of_mem present)).bind fun candidate member => ?_
    refine yields_drawFraction.bind fun fraction _ => ?_
    refine (Run.yields_lift (activityOf?_eq_ok (support.known candidate member)) rfl).bind ?_
    rintro _ rfl
    by_cases taken : fraction.lt (activityAt activities candidate)
    · rw [if_pos taken]
      refine Run.yields_pure fun set found => ?_
      cases found
      exact member
    · rw [if_neg taken]
      exact ih

theorem mapM_weights (known : ∀ set ∈ hitting, (entryAt? activities set).isSome) :
    (hitting.mapM fun set => (activityOf? activities set).map weightOf) =
      .ok (hitting.map fun set => weightOf (activityAt activities set)) := by
  induction hitting with
  | nil => rfl
  | cons set rest ih =>
    rw [List.forall_mem_cons] at known
    rw [List.mapM_cons, ih known.2, activityOf?_eq_ok known.1]
    rfl

/-- A set drawn in proportion to the activities. -/
theorem yields_weighHitting (support : Supported activities hitting) :
    Run.Yields (weighHitting hitting activities : Run σ Int) (· ∈ hitting) := by
  obtain ⟨active, present, positive⟩ := support.positive
  refine (Run.yields_lift (mapM_weights support.known) rfl).bind ?_
  rintro _ rfl
  have good : ∀ weight ∈ hitting.map fun set => weightOf (activityAt activities set),
      IsWeight weight := by
    intro weight member
    obtain ⟨set, listed, rfl⟩ := List.mem_map.mp member
    obtain ⟨units, value, small⟩ := support.bounded set listed
    exact isWeight_weightOf value small
  have heavy : activityAt activities active ∈
      hitting.map fun set => weightOf (activityAt activities set) :=
    List.mem_map.mpr ⟨active, present, weightOf_of_isPositive positive⟩
  obtain ⟨total, totalEq⟩ := weightTotal?_eq_ok good heavy positive
  refine (Run.yields_lift totalEq rfl).bind ?_
  rintro _ rfl
  refine yields_drawFraction.bind fun fraction _ => ?_
  have sums : runningSums (hitting.map fun set => weightOf (activityAt activities set)) ≠ [] := by
    rw [← List.length_pos_iff, length_runningSums, List.length_map]
    exact List.length_pos_of_mem present
  have inside := placeAbove_lt sums (fraction * total)
  rw [length_runningSums, List.length_map] at inside
  rw [List.getElem?_eq_getElem inside]
  exact Run.yields_pure (List.getElem_mem inside)

/-- **A set sampled for a path is one of its sets**, whatever the limit on the draws. -/
theorem yields_sampleHitting (support : Supported activities hitting) (maxDraws : Int) :
    Run.Yields (sampleHitting hitting activities maxDraws : Run σ Int) (· ∈ hitting) := by
  refine (yields_acceptHitting support maxDraws.toNat).bind fun found members => ?_
  cases found with
  | some set => exact Run.yields_pure (members set rfl)
  | none =>
    exact Run.Yields.bind (Run.yields_report trivial) fun _ (_ : True) =>
      yields_weighHitting support

end Sampling

/-! ### Growing -/

variable {incidence : Incidence}

/-- **The sets selected so far** are distinct, their counters are right, and every one of them hit
a path that was unhit. -/
structure Growing (incidence : Incidence) (selection : Selection) : Prop where
  counts : selection.Counts incidence selection.members
  distinct : selection.members.Nodup
  valid : ∀ set ∈ selection.members, ∃ place < incidence.setCount, set = (place : Nat)
  bounded : selection.members.length + (incidence.unhitBy selection.members).length ≤
    incidence.pathCount

theorem growing_empty (incidence : Incidence) :
    Growing incidence (.empty incidence.pathCount) where
  counts := .empty incidence
  distinct := List.nodup_nil
  valid := by simp [Selection.empty]
  bounded := by
    rw [Incidence.unhitBy]
    refine le_trans ?_ (le_of_eq List.length_range)
    simp [Selection.empty]

/-- A set that hits an unhit path can be selected. It was no member before. -/
theorem Growing.add {selection : Selection} (agreement : incidence.Agreement)
    (growing : Growing incidence selection) {path : Nat} (within : path < incidence.pathCount)
    (unhit : incidence.tally selection.members path = 0) {set : Int}
    (member : set ∈ incidence.hitting path) :
    ∃ after, selection.add? incidence set = .ok after ∧ Growing incidence after ∧
      after.members = selection.members ++ [set] := by
  obtain ⟨place, below, rfl, listed⟩ := (agreement.mem_hitting_iff within).mp member
  obtain ⟨after, added⟩ := (Selection.add?_ok_iff growing.counts.size).mpr
    (agreement.readable_natCast below)
  obtain ⟨members, counts⟩ := growing.counts.add added
  have hits : visits incidence.pathCount (incidence.listed place) path = 1 := by
    rw [agreement.visits_eq, if_pos listed]
  refine ⟨after, added, ⟨members ▸ counts, ?_, ?_, ?_⟩, members⟩
  · rw [members, List.nodup_append]
    refine ⟨growing.distinct, List.nodup_singleton _, ?_⟩
    rintro first already second new rfl
    rw [List.mem_singleton] at new
    subst new
    exact Nat.ne_of_gt (agreement.tally_pos_iff_listed.mpr ⟨_, already, listed⟩) unhit
  · rw [members, List.forall_mem_append, List.forall_mem_singleton]
    exact ⟨growing.valid, place, below, rfl⟩
  · have shrinks : (incidence.unhitBy (selection.members ++ [(place : Int)])).length <
        (incidence.unhitBy selection.members).length :=
      Incidence.length_unhitBy_append_lt within unhit (hits ▸ Nat.one_pos)
    have bounded := growing.bounded
    rw [members, List.length_append, List.length_singleton]
    omega

variable {σ : Type} [RandomStream σ] {activities : Array Binary64}

/-- The paths are visited one after the other. Those visited before are hit. -/
theorem yields_coverInOrder (agreement : incidence.Agreement)
    (support : ∀ path < incidence.pathCount, Supported activities (incidence.hitting path))
    (maxDraws : Int) {order : List Nat} (known : ∀ path ∈ order, path < incidence.pathCount)
    {selection : Selection} (growing : Growing incidence selection)
    (visited : ∀ path < incidence.pathCount, path ∈ order ∨
      0 < incidence.tally selection.members path) :
    Run.Yields (coverInOrder incidence activities maxDraws order selection : Run σ Selection)
      fun grown => Growing incidence grown ∧ grown.isComplete := by
  induction order generalizing selection with
  | nil =>
    refine Run.yields_pure ⟨growing, growing.counts.isComplete_iff.mpr fun path within => ?_⟩
    exact (visited path within).resolve_left (List.not_mem_nil)
  | cons path rest ih =>
    rw [List.forall_mem_cons] at known
    have count := growing.counts.hits path
    rw [Selection.hitsAt] at count
    rw [coverInOrder]
    by_cases hit : 0 < selection.hits.getD path 0
    · rw [if_pos hit]
      refine ih known.2 growing fun other within => ?_
      rcases visited other within with member | positive
      · rcases List.mem_cons.mp member with rfl | later
        · exact .inr (by omega)
        · exact .inl later
      · exact .inr positive
    · rw [if_neg hit]
      refine (yields_sampleHitting (support path known.1) maxDraws).bind fun set member => ?_
      obtain ⟨after, added, further, members⟩ :=
        growing.add agreement known.1 (by omega) member
      refine (Run.yields_lift added rfl).bind ?_
      rintro _ rfl
      by_cases complete : after.unhit = 0
      · rw [if_pos complete]
        exact Run.yields_pure ⟨further, decide_eq_true complete⟩
      · rw [if_neg complete]
        refine ih known.2 further fun other within => ?_
        obtain ⟨place, below, rfl, listed⟩ := (agreement.mem_hitting_iff known.1).mp member
        rw [members, Incidence.tally_append]
        rcases visited other within with present | positive
        · rcases List.mem_cons.mp present with rfl | later
          · refine .inr ?_
            rw [Incidence.tally_cons, agreement.visits_eq, if_pos listed]
            omega
          · exact .inl later
        · exact .inr (by omega)

/-- **A cover grown at random** is complete, and none of its sets is there twice. -/
theorem yields_sampledCover (agreement : incidence.Agreement)
    (support : ∀ path < incidence.pathCount, Supported activities (incidence.hitting path))
    (maxDraws : Int) :
    Run.Yields (sampledCover incidence activities maxDraws : Run σ Selection)
      fun grown => Growing incidence grown ∧ grown.isComplete := by
  refine (Run.yields_shuffle (List.range incidence.pathCount)).bind fun order same => ?_
  have grown := yields_coverInOrder (σ := σ) agreement support maxDraws
    (fun path member => List.mem_range.mp (same.mem_iff.mp member)) (growing_empty incidence)
    (fun path within => .inl (same.mem_iff.mpr (List.mem_range.mpr within)))
  refine grown.bind fun selection holds => ?_
  rw [if_pos holds.2]
  exact Run.yields_pure holds

/-! ### Bare relations -/

/-- **What every set preserves that is sampled and added** holds of what is returned. -/
theorem returns_coverInOrder_of_step {property : Selection → Prop} {maxDraws : Int}
    {order : List Nat}
    (step : ∀ path ∈ order, ∀ now, property now →
      Run.Returns (sampleHitting (incidence.hitting path) activities maxDraws : Run σ Int)
        fun set => ∀ after, now.add? incidence set = .ok after → property after)
    {selection : Selection} (holds : property selection) :
    Run.Returns (coverInOrder incidence activities maxDraws order selection : Run σ Selection)
      property := by
  induction order generalizing selection with
  | nil => exact Run.returns_pure holds
  | cons path rest ih =>
    rw [List.forall_mem_cons] at step
    rw [coverInOrder]
    by_cases hit : 0 < selection.hits.getD path 0
    · rw [if_pos hit]
      exact ih step.2 holds
    · rw [if_neg hit]
      refine (step.1 selection holds).bind fun set kept => ?_
      refine (Run.returns_lift kept).bind fun after further => ?_
      by_cases complete : after.unhit = 0
      · rw [if_pos complete]
        exact Run.returns_pure further
      · rw [if_neg complete]
        exact ih step.2 further

theorem returns_coverInOrder (maxDraws : Int) {order : List Nat} {selection : Selection}
    (tracked : Tracked incidence selection) :
    Run.Returns (coverInOrder incidence activities maxDraws order selection : Run σ Selection)
      (Tracked incidence) :=
  returns_coverInOrder_of_step
    (fun _ _ _ tracked => (Run.returns_true _).mono fun _ _ _ added => tracked.add added) tracked

omit [RandomStream σ] in
/-- What is grown is returned if it is complete. -/
theorem returns_ifComplete {run : Run σ Selection} {property : Selection → Prop}
    (grows : Run.Returns run property) :
    Run.Returns (do
      let grown ← run
      if grown.isComplete then pure grown
      else throw (.violation (.constructionLeft grown.unhit)))
      fun grown => property grown ∧ grown.isComplete := by
  refine grows.bind fun grown holds => ?_
  by_cases complete : grown.isComplete
  · rw [if_pos complete]
    exact Run.returns_pure ⟨holds, complete⟩
  · rw [if_neg complete]
    exact Run.returns_throw _

/-- **A cover grown at random** is tracked and complete over any relation, if it is returned. -/
theorem returns_sampledCover (incidence : Incidence) (activities : Array Binary64)
    (maxDraws : Int) :
    Run.Returns (sampledCover incidence activities maxDraws : Run σ Selection) fun grown =>
      Tracked incidence grown ∧ grown.isComplete := by
  exact (Run.returns_true _).bind fun order _ =>
    returns_ifComplete (returns_coverInOrder maxDraws (tracked_empty incidence))

/-! ### Events in passing -/

theorem appends_pick {α : Type} (entries : List α) : (pick entries : Run σ α).Appends := by
  refine (Run.appends_draw _).bind fun found => ?_
  cases found with
  | none => exact Run.appends_throw _
  | some entry => exact Run.appends_pure entry

theorem appends_drawFraction : (drawFraction : Run σ Binary64).Appends :=
  (Run.appends_draw _).bind fun _ => Run.appends_pure _

theorem appends_acceptHitting (hitting : List Int) (draws : Nat) :
    (acceptHitting? hitting activities draws : Run σ (Option Int)).Appends := by
  induction draws with
  | zero => exact Run.appends_pure none
  | succ draws ih =>
    refine (appends_pick hitting).bind fun candidate => appends_drawFraction.bind fun fraction => ?_
    refine (Run.appends_lift _).bind fun activity => ?_
    by_cases taken : fraction.lt activity
    · rw [if_pos taken]
      exact Run.appends_pure _
    · rw [if_neg taken]
      exact ih

theorem appends_weighHitting (hitting : List Int) :
    (weighHitting hitting activities : Run σ Int).Appends := by
  refine (Run.appends_lift _).bind fun weights => (Run.appends_lift _).bind fun total => ?_
  refine appends_drawFraction.bind fun fraction => ?_
  split
  · exact Run.appends_pure _
  · exact Run.appends_throw _

theorem appends_sampleHitting (hitting : List Int) (maxDraws : Int) :
    (sampleHitting hitting activities maxDraws : Run σ Int).Appends := by
  refine (appends_acceptHitting hitting maxDraws.toNat).bind fun found => ?_
  cases found with
  | some set => exact Run.appends_pure set
  | none => exact (Run.appends_report rfl).bind fun _ => appends_weighHitting hitting

theorem appends_coverInOrder (maxDraws : Int) (order : List Nat) (selection : Selection) :
    (coverInOrder incidence activities maxDraws order selection : Run σ Selection).Appends := by
  induction order generalizing selection with
  | nil => exact Run.appends_pure selection
  | cons path rest ih =>
    rw [coverInOrder]
    by_cases hit : 0 < selection.hits.getD path 0
    · rw [if_pos hit]
      exact ih selection
    · rw [if_neg hit]
      refine (appends_sampleHitting _ maxDraws).bind fun set => ?_
      refine (Run.appends_lift _).bind fun after => ?_
      by_cases complete : after.unhit = 0
      · rw [if_pos complete]
        exact Run.appends_pure after
      · rw [if_neg complete]
        exact ih after

theorem appends_sampledCover (incidence : Incidence) (activities : Array Binary64)
    (maxDraws : Int) : (sampledCover incidence activities maxDraws : Run σ Selection).Appends := by
  refine (Run.appends_draw _).bind fun order => ?_
  refine (appends_coverInOrder maxDraws order _).bind fun grown => ?_
  by_cases complete : grown.isComplete
  · rw [if_pos complete]
    exact Run.appends_pure grown
  · rw [if_neg complete]
    exact Run.appends_throw _

end Transversal
