/-
**The plain greedy**, which counts the unhit paths again for every choice.

* `Incidence.hitsAmong`: how many of some paths a set hits; `Incidence.IsBest`: the first set that
  hits most of them.
* `Incidence.Greedy`: as long as paths are unhit, the best set for them is taken;
  `Incidence.Greedy.unique`: there is one result.
* `Incidence.hitsAmong_unhitBy_append`: a set that is taken takes from every other the unhit paths
  that both hit.
* `Incidence.Greedy.added`: every choice hits a path that was unhit, and never more of them than the
  choice before.
* `Incidence.Greedy.sound`: the result is a sound cover.
-/
import Transversal.Proofs.Restart.Round

namespace Transversal

namespace Incidence

variable {incidence : Incidence} {members final : List Int}

/-! ### The plain greedy -/

/-- How many of the given paths a set hits. -/
def hitsAmong (incidence : Incidence) (paths : List Nat) (set : Int) : Nat :=
  paths.countP fun path : Nat => (path : Int) ∈ incidence.listed set

/-- **The best set** for the given paths is the first of those that hit most of them. -/
structure IsBest (incidence : Incidence) (paths : List Nat) (best : Nat) : Prop where
  known : best < incidence.setCount
  most : ∀ set < incidence.setCount, incidence.hitsAmong paths set ≤ incidence.hitsAmong paths best
  first : ∀ set < best, incidence.hitsAmong paths set < incidence.hitsAmong paths best

theorem IsBest.unique {paths : List Nat} {best other : Nat} (isBest : incidence.IsBest paths best)
    (isBest' : incidence.IsBest paths other) : best = other := by
  rcases Nat.lt_trichotomy best other with before | same | after
  · exact absurd (isBest'.first best before) (Nat.not_lt.mpr (isBest.most other isBest'.known))
  · exact same
  · exact absurd (isBest.first other after) (Nat.not_lt.mpr (isBest'.most best isBest.known))

/-- **The plain greedy**, from some members to all of them: as long as paths are unhit, it counts
for every set how many of them it hits, and takes the best one. -/
inductive Greedy (incidence : Incidence) : (members final : List Int) → Prop
  | done {members : List Int} : incidence.unhit? members = .ok [] →
      Greedy incidence members members
  | take {members final : List Int} {unhit : List Nat} {best : Nat} :
      incidence.unhit? members = .ok unhit → unhit ≠ [] → incidence.IsBest unhit best →
      Greedy incidence (members ++ [(best : Int)]) final → Greedy incidence members final

/-- Every choice is determined, and so is what it leads to. -/
theorem Greedy.unique (greedy : incidence.Greedy members final) {other : List Int}
    (greedy' : incidence.Greedy members other) : final = other := by
  induction greedy with
  | done none_left =>
    cases greedy' with
    | done => rfl
    | take left some_left => exact absurd (Except.ok.inj (left.symm.trans none_left)) some_left
  | take left some_left isBest _ ih =>
    cases greedy' with
    | done none_left => exact absurd (Except.ok.inj (left.symm.trans none_left)) some_left
    | take left' _ isBest' rest =>
      obtain rfl := Except.ok.inj (left.symm.trans left')
      obtain rfl := isBest.unique isBest'
      exact ih rest

/-- How many paths each of some sets hits that none before it does. -/
def freshHits (incidence : Incidence) (before : List Int) : List Int → List Nat
  | [] => []
  | set :: rest =>
    incidence.hitsAmong (incidence.unhitBy before) set ::
      incidence.freshHits (before ++ [set]) rest

/-- Further members leave fewer paths to a set. -/
theorem hitsAmong_unhitBy_append_le (incidence : Incidence) (members : List Int) (taken set : Int) :
    incidence.hitsAmong (incidence.unhitBy (members ++ [taken])) set ≤
      incidence.hitsAmong (incidence.unhitBy members) set := by
  rw [unhitBy_append]
  exact List.Sublist.countP_le List.filter_sublist

/-- A member hits none of the paths that the members leave unhit. -/
theorem hitsAmong_unhitBy_of_mem (agreement : incidence.Agreement) {set : Int}
    (member : set ∈ members) : incidence.hitsAmong (incidence.unhitBy members) set = 0 := by
  refine List.countP_eq_zero.mpr fun path unhit listed => ?_
  rw [unhitBy, List.mem_filter, decide_eq_true_eq] at unhit
  have hit := agreement.tally_pos_iff_listed.mpr ⟨set, member, of_decide_eq_true listed⟩
  omega

/-- The paths of a set, in rising order. -/
theorem listed_perm (agreement : incidence.Agreement) (set : Int) :
    (incidence.listed set).Perm
      (((List.range incidence.pathCount).filter fun path : Nat =>
        (path : Int) ∈ incidence.listed set).map fun path : Nat => (path : Int)) := by
  have distinct : (((List.range incidence.pathCount).filter fun path : Nat =>
      (path : Int) ∈ incidence.listed set).map fun path : Nat => (path : Int)).Nodup :=
    (List.nodup_range.filter _).map fun _ _ same => Int.ofNat.inj same
  refine (List.perm_ext_iff_of_nodup (agreement.distinct set) distinct).mpr fun path => ?_
  simp only [List.mem_map, List.mem_filter, List.mem_range, decide_eq_true_eq]
  constructor
  · intro listed
    obtain ⟨natural, below⟩ := agreement.inRange set path listed
    obtain ⟨place, rfl⟩ := Int.eq_ofNat_of_zero_le natural
    exact ⟨place, ⟨by exact_mod_cast below, listed⟩, rfl⟩
  · rintro ⟨place, ⟨_, listed⟩, rfl⟩
    exact listed

/-- Before any set is taken, a set hits as many paths as it lists. -/
theorem hitsAmong_unhitBy_nil (agreement : incidence.Agreement) (set : Int) :
    incidence.hitsAmong (incidence.unhitBy []) set = (incidence.listed set).length := by
  rw [(incidence.listed_perm agreement set).length_eq, List.length_map,
    ← List.countP_eq_length_filter, hitsAmong]
  simp [unhitBy]

/-- A set that is taken takes from every other the unhit paths that both hit. -/
theorem hitsAmong_unhitBy_append (agreement : incidence.Agreement) (members : List Int)
    (taken set : Int) :
    incidence.hitsAmong (incidence.unhitBy (members ++ [taken])) set +
        (incidence.listed taken).countP (fun path =>
          incidence.tally members path.toNat = 0 ∧ path ∈ incidence.listed set) =
      incidence.hitsAmong (incidence.unhitBy members) set := by
  have shared : (incidence.listed taken).countP (fun path =>
      incidence.tally members path.toNat = 0 ∧ path ∈ incidence.listed set) =
      (incidence.unhitBy members).countP (fun path : Nat =>
        (path : Int) ∈ incidence.listed set ∧ (path : Int) ∈ incidence.listed taken) := by
    rw [(incidence.listed_perm agreement taken).countP_eq, List.countP_map, unhitBy,
      List.countP_filter, List.countP_filter]
    refine List.countP_congr fun path _ => ?_
    simp only [Function.comp, Int.toNat_natCast, Bool.and_eq_true, decide_eq_true_eq]
    tauto
  rw [shared, unhitBy_append, hitsAmong, hitsAmong, List.countP_filter]
  simp only [agreement.visits_eq]
  induction incidence.unhitBy members with
  | nil => rfl
  | cons path rest ih =>
    simp only [List.countP_cons]
    by_cases listed : (path : Int) ∈ incidence.listed set <;>
      by_cases also : (path : Int) ∈ incidence.listed taken <;> simp [listed, also] at ih ⊢ <;>
      omega

/-! ### What the choices add -/

/-- As long as paths are unhit, some set hits one of them: every path has a set. -/
theorem exists_hitsAmong_pos (agreement : incidence.Agreement)
    (some_left : incidence.unhitBy members ≠ []) :
    ∃ set < incidence.setCount, 0 < incidence.hitsAmong (incidence.unhitBy members) set := by
  obtain ⟨path, unhit⟩ := List.exists_mem_of_ne_nil _ some_left
  have within : path < incidence.pathCount := by
    rw [unhitBy, List.mem_filter, List.mem_range] at unhit
    exact unhit.1
  obtain ⟨set, hits⟩ := List.exists_mem_of_ne_nil _ (agreement.hit path within)
  obtain ⟨place, below, rfl, listed⟩ := (agreement.mem_hitting_iff within).mp hits
  exact ⟨place, below, List.countP_pos_iff.mpr ⟨path, unhit, decide_eq_true listed⟩⟩

/-- The best set then hits something. -/
theorem IsBest.pos (agreement : incidence.Agreement) {best : Nat}
    (isBest : incidence.IsBest (incidence.unhitBy members) best)
    (some_left : incidence.unhitBy members ≠ []) :
    0 < incidence.hitsAmong (incidence.unhitBy members) best := by
  obtain ⟨set, known, hits⟩ := exists_hitsAmong_pos agreement some_left
  exact lt_of_lt_of_le hits (isBest.most set known)

/-- So it is none of the members, and leaves fewer paths unhit. -/
theorem IsBest.not_mem (agreement : incidence.Agreement) {best : Nat}
    (isBest : incidence.IsBest (incidence.unhitBy members) best)
    (some_left : incidence.unhitBy members ≠ []) : (best : Int) ∉ members := by
  intro member
  have none_hit := incidence.hitsAmong_unhitBy_of_mem agreement member
  exact absurd (isBest.pos agreement some_left) (by omega)

theorem IsBest.length_lt (agreement : incidence.Agreement) {best : Nat}
    (isBest : incidence.IsBest (incidence.unhitBy members) best)
    (some_left : incidence.unhitBy members ≠ []) :
    (incidence.unhitBy (members ++ [(best : Int)])).length <
      (incidence.unhitBy members).length := by
  obtain ⟨path, unhit, listed⟩ := List.countP_pos_iff.mp (isBest.pos agreement some_left)
  rw [unhitBy, List.mem_filter, List.mem_range, decide_eq_true_eq] at unhit
  refine length_unhitBy_append_lt unhit.1 unhit.2 ?_
  rw [agreement.visits_eq, if_pos (of_decide_eq_true listed)]
  exact Nat.one_pos

/-- What is hit afresh could have been hit before. -/
theorem exists_le_of_mem_freshHits {before rest : List Int} {count : Nat}
    (fresh : count ∈ incidence.freshHits before rest) :
    ∃ set ∈ rest, count ≤ incidence.hitsAmong (incidence.unhitBy before) set := by
  induction rest generalizing before with
  | nil => cases fresh
  | cons set rest ih =>
    rw [freshHits, List.mem_cons] at fresh
    rcases fresh with rfl | later
    · exact ⟨set, List.mem_cons_self, le_refl _⟩
    · obtain ⟨other, member, fewer⟩ := ih later
      exact ⟨other, List.mem_cons_of_mem _ member,
        le_trans fewer (incidence.hitsAmong_unhitBy_append_le before set other)⟩

/-- **What is added to some members**: sets of the relation, each of which hits a path that was
unhit, and never more of them than the one before. -/
structure Added (incidence : Incidence) (members rest : List Int) : Prop where
  known : ∀ set ∈ rest, ∃ place < incidence.setCount, set = (place : Nat)
  positive : ∀ count ∈ incidence.freshHits members rest, 0 < count
  falling : (incidence.freshHits members rest).Pairwise (· ≥ ·)

namespace Greedy

theorem unhit_nil (greedy : incidence.Greedy members final) : incidence.unhit? final = .ok [] := by
  induction greedy with
  | done none_left => exact none_left
  | take _ _ _ _ ih => exact ih

/-- **Every choice hits a path that was unhit**, and never more of them than the choice before. -/
theorem added (agreement : incidence.Agreement) (greedy : incidence.Greedy members final) :
    ∃ rest, final = members ++ rest ∧ incidence.Added members rest := by
  induction greedy with
  | done => exact ⟨[], (List.append_nil _).symm, by simp, by simp [freshHits], by simp [freshHits]⟩
  | @take members final unhit best left some_left isBest _ ih =>
    obtain rfl := (unhit?_eq_ok_iff.mp left).2
    obtain ⟨rest, rfl, added⟩ := ih
    refine ⟨best :: rest, by simp, ?_, ?_, ?_⟩
    · rw [List.forall_mem_cons]
      exact ⟨⟨best, isBest.known, rfl⟩, added.known⟩
    · rw [freshHits, List.forall_mem_cons]
      exact ⟨isBest.pos agreement some_left, added.positive⟩
    · rw [freshHits, List.pairwise_cons]
      refine ⟨fun count fresh => ?_, added.falling⟩
      -- a later choice could have been made now, and was not better then
      obtain ⟨set, member, fewer⟩ := exists_le_of_mem_freshHits fresh
      obtain ⟨place, below, rfl⟩ := added.known set member
      exact le_trans fewer (le_trans (incidence.hitsAmong_unhitBy_append_le members best place)
        (isBest.most place below))

theorem nodup (agreement : incidence.Agreement) (greedy : incidence.Greedy members final)
    (distinct : members.Nodup) : final.Nodup := by
  induction greedy with
  | done => exact distinct
  | take left some_left isBest _ ih =>
    obtain rfl := (unhit?_eq_ok_iff.mp left).2
    refine ih (List.nodup_append.mpr ⟨distinct, List.nodup_singleton _, ?_⟩)
    rintro set member other last rfl
    exact isBest.not_mem agreement some_left (List.mem_singleton.mp last ▸ member)

theorem length_le (agreement : incidence.Agreement) (greedy : incidence.Greedy members final) :
    final.length ≤ members.length + (incidence.unhitBy members).length := by
  induction greedy with
  | done => exact Nat.le_add_right _ _
  | take left some_left isBest _ ih =>
    obtain rfl := (unhit?_eq_ok_iff.mp left).2
    have fewer := isBest.length_lt agreement some_left
    rw [List.length_append, List.length_singleton] at ih
    omega

/-- **The result is a sound cover.** -/
theorem sound (agreement : incidence.Agreement) (greedy : incidence.Greedy [] final) :
    SoundCover incidence final := by
  obtain ⟨_, rfl, added⟩ := greedy.added agreement
  have distinct := greedy.nodup agreement List.nodup_nil
  have few : final.length ≤ incidence.pathCount := by
    refine le_trans (greedy.length_le agreement) ?_
    rw [List.length_nil, Nat.zero_add]
    exact le_trans (List.length_filter_le _ _) (by simp)
  refine ⟨distinct, added.known, ?_, le_min few (length_le_setCount distinct added.known)⟩
  rw [isCover?, greedy.unhit_nil]
  rfl

end Greedy

end Incidence

end Transversal
