/-
**A random relation is what was drawn, with one pair for each path that was not.**

* `Benchmark.RepairedUpTo`: what has been kept and given when the paths before one have been looked
  at; `RepairedUpTo.succ_of_listed`, `RepairedUpTo.succ_of_given`: one path more.
* `Benchmark.exists_repair`: repairing ends so on every stream.
* `Benchmark.gathered`: the path lists of a random relation.
* `Benchmark.Generated`: the relation made of them; `Benchmark.generate_succeeds`: it is made on
  every stream and for every density.
-/
import Transversal.Proofs.Benchmark.Draws
import Transversal.Proofs.Incidence.Built
import Transversal.Stream.Twister

namespace Transversal.Benchmark

open Incidence (IsListed Fills)

/-! ### Paths of sets -/

/-- The paths at a place among path lists; none behind the last place. -/
def pathsAt (sets : List (List Int)) (set : Nat) : List Int := sets[set]?.getD []

theorem isListed_iff {sets : List (List Int)} {path : Int} :
    IsListed sets path ↔ ∃ set, path ∈ pathsAt sets set := by
  constructor
  · rintro ⟨paths, member, listed⟩
    obtain ⟨set, found⟩ := List.mem_iff_getElem?.mp member
    exact ⟨set, by rwa [pathsAt, found]⟩
  · rintro ⟨set, listed⟩
    cases found : sets[set]? with
    | none => rw [pathsAt, found] at listed; cases listed
    | some paths =>
      rw [pathsAt, found] at listed
      exact ⟨paths, List.mem_of_getElem? found, listed⟩

theorem lt_length_of_mem {sets : List (List Int)} {set : Nat} {path : Int}
    (listed : path ∈ pathsAt sets set) : set < sets.length := by
  by_contra outside
  rw [pathsAt, List.getElem?_eq_none (by omega)] at listed
  cases listed

theorem any_contains_iff {sets : List (List Int)} {path : Int} :
    sets.any (·.contains path) ↔ IsListed sets path := by
  simp [IsListed]

/-- One path more at a place. -/
theorem mem_pathsAt_modify {sets : List (List Int)} {place : Nat} (within : place < sets.length)
    {new path : Int} {set : Nat} :
    path ∈ pathsAt (sets.modify place (· ++ [new])) set ↔
      path ∈ pathsAt sets set ∨ set = place ∧ path = new := by
  unfold pathsAt
  rw [List.getElem?_modify]
  by_cases there : place = set
  · subst there
    simp [List.getElem?_eq_getElem within]
  · simp [there, Ne.symm there]

/-! ### Repairing -/

/-- **What repairing has kept and given** when the paths before `done` have been looked at: of these
paths, those that were not drawn are in one set each, and all others are where they were. -/
structure RepairedUpTo (drawn : List (List Int)) (done : Nat) (sets : List (List Int)) : Prop where
  length : sets.length = drawn.length
  distinct : ∀ paths ∈ sets, paths.Nodup
  kept : ∀ path : Int, (0 ≤ path → path < done → IsListed drawn path) →
    ∀ set, path ∈ pathsAt sets set ↔ path ∈ pathsAt drawn set
  given : ∀ path : Nat, path < done → ¬ IsListed drawn path →
    ∃! set, (path : Int) ∈ pathsAt sets set

variable {drawn sets : List (List Int)} {done : Nat}

theorem repairedUpTo_zero (distinct : ∀ paths ∈ drawn, paths.Nodup) :
    RepairedUpTo drawn 0 drawn where
  length := rfl
  distinct := distinct
  kept _ _ _ := Iff.rfl
  given _ none := absurd none (Nat.not_lt_zero _)

namespace RepairedUpTo

variable (repaired : RepairedUpTo drawn done sets)

include repaired

/-- Being listed does not change for a path that is not given to a set. -/
theorem isListed_settled {path : Int} (settled : 0 ≤ path → path < done → IsListed drawn path) :
    IsListed sets path ↔ IsListed drawn path := by
  rw [isListed_iff, isListed_iff]
  exact exists_congr (repaired.kept path settled)

/-- A path that is listed when it is looked at was drawn, and stays where it is. -/
theorem succ_of_listed (listed : IsListed sets done) : RepairedUpTo drawn (done + 1) sets where
  length := repaired.length
  distinct := repaired.distinct
  kept path settled := repaired.kept path fun natural _ => settled natural (by omega)
  given path below undrawn := by
    obtain earlier | rfl := Nat.lt_succ_iff_lt_or_eq.mp below
    · exact repaired.given path earlier undrawn
    · exact absurd ((repaired.isListed_settled fun _ _ => by omega).mp listed) undrawn

/-- A path that is not listed is given to one set. -/
theorem succ_of_given (unlisted : ¬ IsListed sets done) {place : Nat}
    (within : place < sets.length) :
    RepairedUpTo drawn (done + 1) (sets.modify place (· ++ [(done : Int)])) where
  length := by rw [List.length_modify, repaired.length]
  distinct paths member := by
    obtain ⟨set, found⟩ := List.mem_iff_getElem?.mp member
    rw [List.getElem?_modify] at found
    obtain ⟨before, stood, rfl⟩ := Option.map_eq_some_iff.mp found
    have known := List.mem_of_getElem? stood
    have distinct := repaired.distinct before known
    split
    · refine List.nodup_append.mpr ⟨distinct, List.pairwise_singleton _ _, ?_⟩
      rintro path listed _ new rfl
      rw [List.mem_singleton.mp new] at listed
      exact unlisted ⟨before, known, listed⟩
    · exact distinct
  kept path settled set := by
    have other : path ≠ done := by
      rintro rfl
      have drawn := settled (by omega) (by omega)
      exact unlisted ((repaired.isListed_settled fun _ _ => drawn).mpr drawn)
    rw [mem_pathsAt_modify within, repaired.kept path fun natural _ => settled natural (by omega)]
    simp [other]
  given path below undrawn := by
    simp only [mem_pathsAt_modify within]
    obtain earlier | rfl := Nat.lt_succ_iff_lt_or_eq.mp below
    · have other : (path : Int) ≠ done := by omega
      simpa [other] using repaired.given path earlier undrawn
    · have nowhere : ∀ set, (path : Int) ∉ pathsAt sets set :=
        fun set listed => unlisted (isListed_iff.mpr ⟨set, listed⟩)
      simp [nowhere]

end RepairedUpTo

variable {σ : Type} [RandomStream σ]

/-- One path more. -/
theorem exists_repairPath (repaired : RepairedUpTo drawn done sets) (someSet : 0 < drawn.length)
    (desk : Desk σ) : ∃ after stream, RepairedUpTo drawn (done + 1) after ∧
      (repairPath sets done).run.run desk = (.ok after, { desk with stream := stream }) := by
  unfold repairPath
  by_cases listed : IsListed sets done
  · rw [if_pos (any_contains_iff.mpr listed)]
    exact ⟨sets, desk.stream, repaired.succ_of_listed listed, rfl⟩
  · rw [if_neg (mt any_contains_iff.mp listed)]
    obtain ⟨last, size⟩ : ∃ last, sets.length = last + 1 :=
      Nat.exists_eq_succ_of_ne_zero (by rw [repaired.length]; omega)
    have within : (RandomStream.upTo last desk.stream).1.val < sets.length := by
      rw [size]
      exact (RandomStream.upTo last desk.stream).1.isLt
    refine ⟨_, (RandomStream.upTo last desk.stream).2, repaired.succ_of_given listed within, ?_⟩
    rw [size]
    rfl

/-- All paths. -/
theorem exists_repair (distinct : ∀ paths ∈ drawn, paths.Nodup) (someSet : 0 < drawn.length)
    (pathCount : Int) (desk : Desk σ) :
    ∃ after stream, RepairedUpTo drawn pathCount.toNat after ∧
      (repair pathCount drawn).run.run desk = (.ok after, { desk with stream := stream }) := by
  unfold repair pathsUpTo
  generalize pathCount.toNat = count
  induction count with
  | zero => exact ⟨drawn, desk.stream, repairedUpTo_zero distinct, rfl⟩
  | succ done ih =>
    obtain ⟨between, stream, repaired, run⟩ := ih
    obtain ⟨after, stream', repaired', run'⟩ :=
      exists_repairPath repaired someSet { desk with stream := stream }
    refine ⟨after, stream', repaired', ?_⟩
    rw [List.range_succ, List.map_append, List.foldlM_append, Run.run_bind, run]
    show ((repairPath between done) >>= pure).run.run _ = _
    rw [bind_pure, run']

/-! ### The relation -/

/-- The lists put in order. -/
def inOrder (sets : List (List Int)) : List (List Int) :=
  sets.map (·.mergeSort fun first second => first ≤ second)

theorem mem_pathsAt_inOrder {set : Nat} {path : Int} :
    path ∈ pathsAt (inOrder sets) set ↔ path ∈ pathsAt sets set := by
  unfold pathsAt inOrder
  rw [List.getElem?_map]
  cases sets[set]? with
  | none => exact Iff.rfl
  | some paths => exact List.mem_mergeSort

/-- Order makes no difference to what is in which set. -/
theorem RepairedUpTo.inOrder (repaired : RepairedUpTo drawn done sets) :
    RepairedUpTo drawn done (inOrder sets) where
  length := by rw [Benchmark.inOrder, List.length_map, repaired.length]
  distinct paths member := by
    obtain ⟨before, known, rfl⟩ := List.mem_map.mp member
    exact (List.mergeSort_perm before _).nodup_iff.mpr (repaired.distinct before known)
  kept path settled set := by rw [mem_pathsAt_inOrder, repaired.kept path settled]
  given path below undrawn := by
    simpa only [mem_pathsAt_inOrder] using repaired.given path below undrawn

/-- Without repeats, the paths of a set rise. -/
theorem rising_of_mem_inOrder (distinct : ∀ paths ∈ sets, paths.Nodup) {paths : List Int}
    (member : paths ∈ inOrder sets) : paths.Pairwise (· < ·) := by
  obtain ⟨before, known, rfl⟩ := List.mem_map.mp member
  have ordered : (before.mergeSort fun first second => first ≤ second).Pairwise
      fun first second => decide (first ≤ second) = true :=
    List.pairwise_mergeSort (by simp only [decide_eq_true_eq]; omega) (by simp; omega) before
  have apart := (List.mergeSort_perm before fun first second => first ≤ second).nodup_iff.mpr
    (distinct before known)
  refine (ordered.and apart).imp fun both => ?_
  exact lt_of_le_of_ne (of_decide_eq_true both.1) both.2

/-- All paths are listed, and no other number is. -/
theorem RepairedUpTo.fills (repaired : RepairedUpTo drawn done sets)
    (within : ∀ path, IsListed drawn path → 0 ≤ path ∧ path < done) : Fills sets done where
  natural := by omega
  listed path := by
    by_cases inside : 0 ≤ path ∧ path < done
    · refine iff_of_true ?_ inside
      by_cases known : IsListed drawn path
      · exact (repaired.isListed_settled fun _ _ => known).mpr known
      · obtain ⟨place, rfl⟩ := Int.eq_ofNat_of_zero_le inside.1
        obtain ⟨set, listed, _⟩ := repaired.given place (by omega) known
        exact isListed_iff.mpr ⟨set, listed⟩
    · have settled : 0 ≤ path → path < done → IsListed drawn path :=
        fun natural below => absurd ⟨natural, below⟩ inside
      exact iff_of_false
        (fun listed => inside (within path ((repaired.isListed_settled settled).mp listed))) inside

/-- The path lists of a random relation. -/
def gathered (pathCount setCount : Int) (density : Binary64) : Run σ (List (List Int)) := do
  let drawn ← drawSets pathCount density setCount.toNat
  pure (inOrder (← repair pathCount drawn))

theorem generate_eq (pathCount setCount : Int) (density : Binary64) :
    (generate pathCount setCount density : Run σ Incidence) =
      gathered pathCount setCount density >>= fun family =>
        Run.lift (Incidence.ofSets? family none) := by
  simp [generate, gathered, inOrder]

/-- Lists without repeats have none to be told of. -/
theorem duplicateEvents_eq_nil {family : List (List Int)}
    (distinct : ∀ paths ∈ family, paths.Nodup) : Incidence.duplicateEvents family = [] := by
  unfold Incidence.duplicateEvents
  rw [Incidence.map_eraseDups_of_nodup distinct]
  refine List.filterMap_eq_nil_iff.mpr ?_
  rintro ⟨⟨listed, kept⟩, set⟩ member
  have paired := List.fst_mem_of_mem_zipIdx (List.mem_of_mem_take member)
  obtain ⟨place, found⟩ := List.mem_iff_getElem?.mp paired
  obtain ⟨first, second⟩ := List.getElem?_zip_eq_some.mp found
  rw [first] at second
  cases second
  exact if_pos rfl

/-- **The relation that is made of the draws**: every path is hit, the paths of a set rise, a path
that was drawn is in the sets that drew it, and each other path is in one set. -/
structure Generated (stream : σ) (density : Binary64) (pathCount setCount : Nat)
    (incidence : Incidence) : Prop where
  paths : incidence.pathCount = pathCount
  sets : incidence.setCount = setCount
  agreement : incidence.Agreement
  rising : ∀ set : Nat, set < setCount → (incidence.listed set).Pairwise (· < ·)
  kept : ∀ path : Nat, path < pathCount →
    (∃ set < setCount, IsDrawn stream density pathCount set path) →
    ∀ set : Nat, set < setCount →
      ((path : Int) ∈ incidence.listed set ↔ IsDrawn stream density pathCount set path)
  given : ∀ path : Nat, path < pathCount →
    (∀ set < setCount, ¬ IsDrawn stream density pathCount set path) →
    ∃! set : Nat, set < setCount ∧ (path : Int) ∈ incidence.listed set

section Family

variable {stream : σ} {density : Binary64} {pathCount setCount : Nat} {family : List (List Int)}

theorem mem_drawn_iff {path set : Nat} :
    (path : Int) ∈ pathsAt (setsBelow stream density pathCount setCount) set ↔
      set < setCount ∧ path < pathCount ∧ IsDrawn stream density pathCount set path := by
  rw [pathsAt, mem_setsBelow]
  simp

theorem isListed_drawn_iff {path : Nat} (within : path < pathCount) :
    IsListed (setsBelow stream density pathCount setCount) path ↔
      ∃ set < setCount, IsDrawn stream density pathCount set path := by
  rw [isListed_iff]
  simp only [mem_drawn_iff, within, true_and]

theorem within_of_isListed_drawn {path : Int}
    (listed : IsListed (setsBelow stream density pathCount setCount) path) :
    0 ≤ path ∧ path < pathCount := by
  obtain ⟨set, member⟩ := isListed_iff.mp listed
  obtain ⟨_, place, within, rfl, _⟩ := mem_setsBelow.mp member
  omega

variable (repaired : RepairedUpTo (setsBelow stream density pathCount setCount) pathCount family)

include repaired

/-- A path that was drawn is in the sets that drew it. -/
theorem mem_iff_isDrawn {path : Nat} (within : path < pathCount)
    (drawn : ∃ set < setCount, IsDrawn stream density pathCount set path) {set : Nat}
    (below : set < setCount) :
    (path : Int) ∈ pathsAt family set ↔ IsDrawn stream density pathCount set path := by
  rw [repaired.kept path fun _ _ => (isListed_drawn_iff within).mpr drawn, mem_drawn_iff]
  exact ⟨fun both => both.2.2, fun hit => ⟨below, within, hit⟩⟩

/-- A path that was not drawn is in one set. -/
theorem existsUnique_of_undrawn {path : Nat} (within : path < pathCount)
    (undrawn : ∀ set < setCount, ¬ IsDrawn stream density pathCount set path) :
    ∃! set, set < setCount ∧ (path : Int) ∈ pathsAt family set := by
  have unlisted : ¬ IsListed (setsBelow stream density pathCount setCount) path := by
    rw [isListed_drawn_iff within]
    rintro ⟨set, below, drawn⟩
    exact undrawn set below drawn
  obtain ⟨set, member, only⟩ := repaired.given path within unlisted
  have below := lt_length_of_mem member
  rw [repaired.length, length_setsBelow] at below
  exact ⟨set, ⟨below, member⟩, fun other both => only other both.2⟩

/-- **What repairing has made of the draws** is the family of such a relation. -/
theorem exists_generated (rising : ∀ paths ∈ family, paths.Pairwise (· < ·)) :
    ∃ incidence, Incidence.ofSets? family none = .ok incidence ∧
      Generated stream density pathCount setCount incidence := by
  have fills : Fills family pathCount := repaired.fills fun _ => within_of_isListed_drawn
  have stated : Incidence.statedCount family none = pathCount := by
    rw [Incidence.statedCount, Option.getD_none, fills.derivedPathCount_eq]
  obtain ⟨incidence, built⟩ := Incidence.ofSets?_ok_iff.mpr (stated ▸ fills)
  have inverts := Incidence.inverts_of_ofSets? built
  have size : family.length = setCount := by rw [repaired.length, length_setsBelow]
  have listed : ∀ set : Nat, incidence.listed set = pathsAt family set :=
    Incidence.listed_of_ofSets? built repaired.distinct
  refine ⟨incidence, built, ?_, ?_, Incidence.agreement_of_ofSets? built, ?_, ?_, ?_⟩
  · exact_mod_cast inverts.pathCount.trans stated
  · rw [Incidence.setCount_of_ofSets? built, size]
  · intro set within
    rw [listed, pathsAt, List.getElem?_eq_getElem (size ▸ within)]
    exact rising _ (List.getElem_mem _)
  · intro path within drawn set below
    rw [listed]
    exact mem_iff_isDrawn repaired within drawn below
  · intro path within undrawn
    simp only [listed]
    exact existsUnique_of_undrawn repaired within undrawn

end Family

/-- The path lists that are gathered. -/
theorem exists_gathered {pathCount setCount : Int} (someSet : 1 ≤ setCount) (density : Binary64)
    (desk : Desk σ) : ∃ family after,
      RepairedUpTo (setsBelow desk.stream density pathCount.toNat setCount.toNat) pathCount.toNat
        family ∧
      (∀ paths ∈ family, paths.Pairwise (· < ·)) ∧
      (gathered pathCount setCount density).run.run desk =
        (.ok family, { desk with stream := after }) := by
  obtain ⟨stream, events⟩ := desk
  have filled : 0 < (setsBelow stream density pathCount.toNat setCount.toNat).length := by
    rw [length_setsBelow]
    omega
  obtain ⟨sets, after, repaired, run⟩ :=
    exists_repair (fun _ => nodup_of_mem_setsBelow) filled pathCount
      ⟨afterFractions stream (setCount.toNat * pathCount.toNat), events⟩
  refine ⟨inOrder sets, after, repaired.inOrder,
    fun _ => rising_of_mem_inOrder repaired.distinct, ?_⟩
  rw [gathered, Run.run_bind, run_drawSets]
  dsimp only
  rw [Run.run_bind, run]
  rfl

/-- **A random relation is always made**, if there is at least one set: from every stream, and for
every density. No list has repeats, so none are told of. -/
theorem generate_succeeds {pathCount setCount : Int} (someSet : 1 ≤ setCount) (density : Binary64)
    (desk : Desk σ) : ∃ family incidence after,
      (gathered pathCount setCount density).run.run desk =
        (.ok family, { desk with stream := after }) ∧
      Incidence.duplicateEvents family = [] ∧ Incidence.ofSets? family none = .ok incidence ∧
      (generate pathCount setCount density).run.run desk =
        (.ok incidence, { desk with stream := after }) ∧
      Generated desk.stream density pathCount.toNat setCount.toNat incidence := by
  obtain ⟨family, after, repaired, rising, run⟩ := exists_gathered someSet density desk
  obtain ⟨incidence, built, generated⟩ := exists_generated repaired rising
  refine ⟨family, incidence, after, run, duplicateEvents_eq_nil repaired.distinct, built, ?_,
    generated⟩
  rw [generate_eq, Run.run_bind, run]
  dsimp only
  rw [built]
  rfl

/-- No fraction is below a NaN, so each path is given to one set. -/
theorem generate_succeeds_undrawn : ∃ family incidence after,
    (gathered 3 2 .nan).run.run ⟨Twister.ofSeed 7, #[]⟩ = (.ok family, ⟨after, #[]⟩) ∧
    Incidence.duplicateEvents family = [] ∧ Incidence.ofSets? family none = .ok incidence ∧
    (generate 3 2 .nan).run.run ⟨Twister.ofSeed 7, #[]⟩ = (.ok incidence, ⟨after, #[]⟩) ∧
    Generated (Twister.ofSeed 7) .nan 3 2 incidence :=
  generate_succeeds (by decide) .nan ⟨Twister.ofSeed 7, #[]⟩

end Transversal.Benchmark
