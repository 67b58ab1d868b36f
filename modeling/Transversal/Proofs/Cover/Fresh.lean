/-
**Every set of a cover grown at random was taken for a fresh path.**

The paths are visited in a shuffled order. One that is hit already is passed by, so a set is only
ever taken for the first path of the order that is still unhit; the counters decide which one it is.

* `Incidence.TakenFor`: a set taken, after others, for the first path that they leave unhit.
* `returns_sampleHitting`: a set sampled for a path is one of its sets, with any activities.
* `Incidence.Agreement.returns_coverInOrder_taken`: what one visit of a path preserves, and the run
  over all of them.
* `Incidence.Agreement.sampledCover_taken`: whatever is returned was grown along the order.
* `sampled_cover_fresh`: and a cover is returned, if every path has a set with a positive activity.
-/
import Transversal.Proofs.Cover.Deletion
import Transversal.Proofs.Cover.Sampled
import Transversal.Proofs.Fractional.Accepted

namespace Transversal

variable {incidence : Incidence} {selection grown : Selection} {order : List Nat}

/-! ### Fresh paths -/

/-- **A set taken for a path**, after others: the path is the first one of an order that the others
leave unhit. The set lists it, none of the others does, and so the set is new. -/
structure Incidence.TakenFor (incidence : Incidence) (order : List Nat) (before : List Int)
    (set : Int) (path : Nat) : Prop where
  first : ∃ unhit, incidence.unhit? before = .ok unhit ∧ order.find? (· ∈ unhit) = some path
  listed : (path : Int) ∈ incidence.listed set
  alone : ∀ other ∈ before, (path : Int) ∉ incidence.listed other
  new : set ∉ before

/-- Every set of a list was taken for a path, after those before it. -/
def Incidence.TakenInOrder (incidence : Incidence) (order : List Nat) (members : List Int) : Prop :=
  ∀ before set after, members = before ++ set :: after →
    ∃ path, incidence.TakenFor order before set path

theorem Incidence.takenInOrder_nil (incidence : Incidence) (order : List Nat) :
    incidence.TakenInOrder order [] := by
  intro before set after split
  cases before <;> cases split

/-- One more set was taken. -/
theorem Incidence.TakenInOrder.concat {members : List Int}
    (taken : incidence.TakenInOrder order members) {set : Int} {path : Nat}
    (last : incidence.TakenFor order members set path) :
    incidence.TakenInOrder order (members ++ [set]) := by
  intro before other after split
  rcases List.eq_nil_or_concat after with rfl | ⟨front, final, rfl⟩
  · obtain ⟨rfl, same⟩ := List.append_inj' split rfl
    cases same
    exact ⟨path, last⟩
  · rw [List.concat_eq_append, ← List.cons_append, ← List.append_assoc] at split
    exact taken before other front (List.append_inj' split rfl).1

/-- The first path that is still unhit stands behind those that were visited. -/
theorem Incidence.Agreement.takenFor (agreement : incidence.Agreement)
    (tracked : Tracked incidence selection) {visited rest : List Nat} {path : Nat}
    (hit : ∀ other ∈ visited, 0 < incidence.tally selection.members other)
    (within : path < incidence.pathCount) (unhit : incidence.tally selection.members path = 0)
    {set : Int} (member : set ∈ incidence.hitting path) :
    incidence.TakenFor (visited ++ path :: rest) selection.members set path := by
  obtain ⟨place, _, rfl, listed⟩ := (agreement.mem_hitting_iff within).mp member
  have alone : ∀ other ∈ selection.members, (path : Int) ∉ incidence.listed other := by
    intro other member' listed'
    exact Nat.ne_of_gt (agreement.tally_pos_iff_listed.mpr ⟨other, member', listed'⟩) unhit
  refine ⟨⟨_, unhit?_eq_ok_iff.mpr ⟨tracked.readable, rfl⟩, ?_⟩, listed, alone,
    fun already => alone _ already listed⟩
  rw [List.find?_eq_some_iff_append]
  refine ⟨by simp [unhitBy, within, unhit], visited, rest, rfl, fun other before => ?_⟩
  simp [unhitBy, Nat.ne_of_gt (hit other before)]

/-! ### Sampling with any activities -/

section Sampling

variable {σ : Type} [RandomStream σ]

theorem returns_pick {α : Type} (entries : List α) :
    Run.Returns (pick entries : Run σ α) (· ∈ entries) := by
  cases entries with
  | nil => rintro desk entry ⟨⟩
  | cons first rest => exact (yields_pick (List.cons_ne_nil first rest)).returns

variable {activities : Array Binary64}

theorem returns_acceptHitting (hitting : List Int) (draws : Nat) :
    Run.Returns (acceptHitting? hitting activities draws : Run σ (Option Int))
      fun found => ∀ set ∈ found, set ∈ hitting := by
  induction draws with
  | zero => exact Run.returns_pure (by simp)
  | succ draws ih =>
    refine (returns_pick hitting).bind fun candidate member => ?_
    refine (Run.returns_true _).bind fun fraction _ => ?_
    refine (Run.returns_true _).bind fun activity _ => ?_
    by_cases taken : fraction.lt activity
    · rw [if_pos taken]
      refine Run.returns_pure ?_
      rintro _ ⟨⟩
      exact member
    · rw [if_neg taken]
      exact ih

theorem returns_weighHitting (hitting : List Int) :
    Run.Returns (weighHitting hitting activities : Run σ Int) (· ∈ hitting) := by
  refine (Run.returns_true _).bind fun weights _ => ?_
  refine (Run.returns_true _).bind fun total _ => ?_
  refine (Run.returns_true _).bind fun fraction _ => ?_
  split
  · rename_i set found
    exact Run.returns_pure (List.mem_of_getElem? found)
  · exact Run.returns_throw _

/-- **A set sampled for a path is one of its sets**, whatever the activities are. -/
theorem returns_sampleHitting (hitting : List Int) (maxDraws : Int) :
    Run.Returns (sampleHitting hitting activities maxDraws : Run σ Int) (· ∈ hitting) := by
  refine (returns_acceptHitting hitting maxDraws.toNat).bind fun found members => ?_
  cases found with
  | some set => exact Run.returns_pure (members set rfl)
  | none => exact (Run.returns_true _).bind fun _ _ => returns_weighHitting hitting

/-! ### Growing -/

/-- **The visited paths are hit**, and every set was taken for one of them when it was visited. -/
theorem Incidence.Agreement.returns_coverInOrder_taken (agreement : incidence.Agreement)
    (maxDraws : Int) {visited rest : List Nat} (known : ∀ path ∈ rest, path < incidence.pathCount)
    (tracked : Tracked incidence selection)
    (hit : ∀ path ∈ visited, 0 < incidence.tally selection.members path)
    (taken : incidence.TakenInOrder (visited ++ rest) selection.members) :
    Run.Returns (coverInOrder incidence activities maxDraws rest selection : Run σ Selection)
      fun grown => incidence.TakenInOrder (visited ++ rest) grown.members := by
  -- on the paths to come: those visited are hit, so the next one that is unhit is the first of all
  induction rest generalizing visited selection with
  | nil => exact Run.returns_pure taken
  | cons path rest ih =>
    rw [List.forall_mem_cons] at known
    have moved : visited ++ path :: rest = (visited ++ [path]) ++ rest := by simp
    have count := tracked.counts.hits path
    rw [Selection.hitsAt] at count
    rw [coverInOrder]
    by_cases passed : 0 < selection.hits.getD path 0
    · rw [if_pos passed, moved]
      refine ih known.2 tracked ?_ (moved ▸ taken)
      rw [List.forall_mem_append, List.forall_mem_singleton]
      exact ⟨hit, by omega⟩
    · rw [if_neg passed]
      refine (returns_sampleHitting _ maxDraws).bind fun set member => ?_
      have last : incidence.TakenFor (visited ++ path :: rest) selection.members set path :=
        agreement.takenFor tracked hit known.1 (by omega) member
      have added : Run.Returns (Run.lift (selection.add? incidence set) : Run σ Selection)
          fun after => Tracked incidence after ∧ after.members = selection.members ++ [set] :=
        Run.returns_lift fun after added => ⟨tracked.add added, tracked.members_add added⟩
      refine added.bind fun after further => ?_
      obtain ⟨tracked, members⟩ := further
      have taken : incidence.TakenInOrder (visited ++ path :: rest) after.members :=
        members ▸ taken.concat last
      by_cases complete : after.unhit = 0
      · rw [if_pos complete]
        exact Run.returns_pure taken
      · rw [if_neg complete, moved]
        refine ih known.2 tracked ?_ (moved ▸ taken)
        rw [List.forall_mem_append, List.forall_mem_singleton, members]
        refine ⟨fun other before => ?_, ?_⟩
        · rw [tally_append]
          exact Nat.add_pos_left (hit other before) _
        · rw [tally_append, tally_cons, agreement.visits_eq, if_pos last.listed]
          omega

/-- **Whatever is returned was grown along the shuffled order**, with any activities. -/
theorem Incidence.Agreement.sampledCover_taken (agreement : incidence.Agreement) {maxDraws : Int}
    {desk : Desk σ}
    (ran : ((sampledCover incidence activities maxDraws).run.run desk).1 = .ok grown) :
    incidence.TakenInOrder (RandomStream.shuffle (List.range incidence.pathCount) desk.stream).1
      grown.members := by
  have same := RandomStream.shuffle_perm (List.range incidence.pathCount) desk.stream
  rw [sampledCover, Run.run_draw_bind] at ran
  generalize (RandomStream.shuffle (List.range incidence.pathCount) desk.stream).1 = paths
    at same ran ⊢
  have grows : Run.Returns (coverInOrder incidence activities maxDraws paths
      (.empty incidence.pathCount) : Run σ Selection)
      fun grown => incidence.TakenInOrder paths grown.members :=
    agreement.returns_coverInOrder_taken maxDraws
      (fun path member => List.mem_range.mp (same.mem_iff.mp member)) (tracked_empty incidence)
      (fun _ absent => absurd absent List.not_mem_nil) (incidence.takenInOrder_nil _)
  exact (returns_ifComplete grows _ _ ran).1

end Sampling

/-- **A cover grown along an order of the paths.** It is whole, no path is left unhit, and every
member was taken for the first path of the order that was unhit at that moment. -/
structure Selection.IsGrownAlong (incidence : Incidence) (order : List Nat) (grown : Selection) :
    Prop where
  whole : grown.IsWhole incidence
  unhit : grown.unhit = 0
  taken : incidence.TakenInOrder order grown.members

/-- **A cover is grown along the shuffled order**, for every stream and every limit on the draws, if
every set has an activity and every path a set with a positive one. -/
theorem sampled_cover_fresh {sets : List (List Int)} {pathCount : Option Int}
    (built : Incidence.ofSets? sets pathCount = .ok incidence) {fractional : Fractional}
    (accepted : fractional.IsAccepted) (enough : incidence.setCount ≤ fractional.setCount)
    (support : incidence.IsSupported fractional.activities) (maxDraws : Int) {σ : Type}
    [RandomStream σ] (desk : Desk σ) :
    ∃ grown, ((sampledCover incidence fractional.activities maxDraws).run.run desk).1 =
        .ok grown ∧
      grown.IsGrownAlong incidence
        (RandomStream.shuffle (List.range incidence.pathCount) desk.stream).1 := by
  have agreement := Incidence.agreement_of_ofSets? built
  have supported : ∀ path < incidence.pathCount,
      Supported fractional.activities (incidence.hitting path) := fun path within =>
    supported_hitting agreement enough (fun activity member => accepted.activity_units member)
      support within
  obtain ⟨grown, ran, _⟩ := (yields_sampledCover agreement supported maxDraws).exists_ok desk
  obtain ⟨tracked, complete⟩ := returns_sampledCover _ _ _ _ _ ran
  exact ⟨grown, ran, tracked.isWhole complete, of_decide_eq_true complete,
    agreement.sampledCover_taken ran⟩

/-- A stream on which zero is drawn every time. -/
structure Zeros

instance : RandomStream Zeros where
  upTo bound stream := (⟨0, Nat.succ_pos bound⟩, stream)
  fraction stream := (⟨0, Nat.two_pow_pos 53⟩, stream)

/-- The two sets of the overlap with one path each. -/
def singles : Fractional := ⟨2, .ofInt 2, #[.ofInt 1, .zero, .zero, .ofInt 1]⟩

/-- The overlap, with one draw for each path: the last path comes first. The set with both paths is
refused, and the last set is drawn in proportion; the first set is accepted at once. -/
theorem sampled_cover_fresh_overlap : ∃ grown,
    ((sampledCover overlap singles.activities 1).run.run ⟨Zeros.mk, #[]⟩).1 = .ok grown ∧
      grown.members = [3, 0] ∧ grown.IsGrownAlong overlap [1, 0] := by
  have accepted : singles.IsAccepted := by
    rw [Fractional.isAccepted_iff]
    decide +kernel
  have support : overlap.IsSupported singles.activities := by
    show ∀ path < 2, ∃ set < 4, ((path : Nat) : Int) ∈ overlap.listed (set : Nat) ∧
      (activityAt singles.activities (set : Nat)).isPositive
    decide +kernel
  have shuffled : (RandomStream.shuffle (List.range 2) Zeros.mk).1 = [1, 0] := by
    decide +kernel
  have grows : ((sampledCover overlap singles.activities 1).run.run ⟨Zeros.mk, #[]⟩).1 =
      .ok ⟨[3, 0], #[1, 1], 0⟩ := by decide +kernel
  obtain ⟨grown, ran, along⟩ := sampled_cover_fresh overlap_built accepted (by decide) support 1
    (⟨Zeros.mk, #[]⟩ : Desk Zeros)
  obtain rfl := Except.ok.inj (grows.symm.trans ran)
  exact ⟨_, ran, rfl, shuffled ▸ along⟩

end Transversal
