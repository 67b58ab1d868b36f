/-
**The same paths, listed in another way.**

A set may list its paths in any order, and each of them as often as it likes. What is built of such
lists is the same relation from paths to sets; the other direction only differs by the order in
which a set lists its paths.

* `Incidence.SamePaths`: two lists of the same paths.
* `Incidence.Relisted`: two relations that only differ by the order of paths.
* `Incidence.exists_relisted`: a family listed in another way makes a relation if the family does,
  and these two are `Relisted`.
* `Incidence.Relisted.tally_eq`: so every set hits the same paths by both.
-/
import Transversal.Proofs.Incidence.Built

namespace Transversal.Incidence

/-! ### Families listed in another way -/

/-- Two lists of the same paths, in any order and with any repeats. -/
def SamePaths (listed other : List Int) : Prop := ∀ path, path ∈ listed ↔ path ∈ other

variable {sets relisted : List (List Int)} {pathCount : Option Int} {incidence other : Incidence}

theorem isListed_congr (same : List.Forall₂ SamePaths sets relisted) (path : Int) :
    IsListed sets path ↔ IsListed relisted path := by
  induction same with
  | nil => rfl
  | cons here _ ih =>
    simp only [IsListed, List.exists_mem_cons_iff] at ih ⊢
    rw [ih, here path]

/-- The number of paths depends on the paths listed only. -/
theorem statedCount_congr (same : ∀ path, IsListed sets path ↔ IsListed relisted path)
    (natural : ∀ path, IsListed sets path → 0 ≤ path) :
    statedCount relisted pathCount = statedCount sets pathCount := by
  have natural' : ∀ path, IsListed relisted path → 0 ≤ path :=
    fun path listed => natural path ((same path).mpr listed)
  have derived : Coverage.derivedPathCount relisted = Coverage.derivedPathCount sets := by
    refine eq_of_forall_ge_iff fun bound => ?_
    simp only [derivedPathCount_le_iff natural, derivedPathCount_le_iff natural', same]
  rw [statedCount, statedCount, derived]

theorem samePaths_getD (same : List.Forall₂ SamePaths sets relisted) (place : Nat) :
    SamePaths (sets.getD place []) (relisted.getD place []) := by
  induction same generalizing place with
  | nil => exact fun _ => Iff.rfl
  | cons here _ ih =>
    cases place with
    | zero => exact here
    | succ place => exact ih place

/-- A set of the relation lists the paths of its list in the family. -/
theorem mem_listed_iff (built : ofSets? sets pathCount = .ok incidence) (set path : Int) :
    path ∈ incidence.listed set ↔
      ∃ place, place? sets.length set = some place ∧ path ∈ sets.getD place [] := by
  obtain ⟨_, _, _, _, _, rfl⟩ := ofSets?_eq_ok_iff.mp built
  rw [listed, entryAt?, List.size_toArray, List.length_map]
  cases place? sets.length set with
  | none => simp
  | some place => cases found : sets[place]? <;> simp [found]

/-! ### Relations that only differ by the order of paths -/

/-- **Two relations that only differ by the order of paths** in their sets. Both directions of the
first agree, and so do those of the second. -/
structure Relisted (incidence other : Incidence) : Prop where
  agreement : incidence.Agreement
  paths : other.paths = incidence.paths
  setCount : other.setCount = incidence.setCount
  listed : ∀ set, (other.listed set).Perm (incidence.listed set)

namespace Relisted

variable (same : incidence.Relisted other)

include same

theorem pathCount_eq : other.pathCount = incidence.pathCount := congrArg Array.size same.paths

theorem hitting (path : Nat) : other.hitting path = incidence.hitting path := by
  rw [Incidence.hitting, Incidence.hitting, same.paths]

theorem hittingSets (path : Nat) : other.hittingSets path = incidence.hittingSets path := by
  rw [Incidence.hittingSets, Incidence.hittingSets, same.setCount]
  simp only [(same.listed _).mem_iff]

theorem agreement' : other.Agreement where
  distinct set := (same.listed set).nodup_iff.mpr (same.agreement.distinct set)
  inRange set path member := by
    rw [same.pathCount_eq]
    exact same.agreement.inRange set path ((same.listed set).mem_iff.mp member)
  agree path within := by
    rw [same.hitting, same.hittingSets]
    exact same.agreement.agree path (same.pathCount_eq ▸ within)
  hit path within := by
    rw [same.hitting]
    exact same.agreement.hit path (same.pathCount_eq ▸ within)

theorem symm : other.Relisted incidence :=
  ⟨same.agreement', same.paths.symm, same.setCount.symm, fun set => (same.listed set).symm⟩

theorem isSome_iff (set : Int) :
    (entryAt? other.sets set).isSome ↔ (entryAt? incidence.sets set).isSome := by
  rw [isSome_entryAt?_iff, isSome_entryAt?_iff,
    show other.sets.size = incidence.sets.size from same.setCount]

/-- **Every set hits the same paths** by both relations. -/
theorem visits_eq (size : Nat) (set : Int) (path : Nat) :
    visits size (other.listed set) path = visits size (incidence.listed set) path :=
  (same.listed set).countP_eq _

theorem tally_eq (cover : List Int) (path : Nat) :
    other.tally cover path = incidence.tally cover path := by
  simp only [tally, same.pathCount_eq, same.visits_eq]

/-- A set that one relation does not have is missing in both, with the same fault. -/
theorem pathsOf?_missing {set : Int} (missing : ¬ (entryAt? incidence.sets set).isSome) :
    other.pathsOf? set = incidence.pathsOf? set := by
  have missing' := mt (same.isSome_iff set).mp missing
  rw [Option.not_isSome_iff_eq_none] at missing missing'
  rw [Incidence.pathsOf?, Incidence.pathsOf?, missing, missing']

end Relisted

/-- **A family listed in another way** makes a relation if the family does, and the two only differ
by the order of paths. -/
theorem exists_relisted (built : ofSets? sets pathCount = .ok incidence)
    (same : List.Forall₂ SamePaths sets relisted) :
    ∃ other, ofSets? relisted pathCount = .ok other ∧ incidence.Relisted other := by
  have agreement := agreement_of_ofSets? built
  obtain ⟨fills, pathCount_eq⟩ := fills_of_ofSets? built
  have listed_iff := isListed_congr same
  have count : statedCount relisted pathCount = statedCount sets pathCount :=
    statedCount_congr listed_iff fun path listed => ((fills.listed path).mp listed).1
  have fills' : Fills relisted (statedCount relisted pathCount) := by
    rw [count]
    exact ⟨fills.natural, fun path => (listed_iff path).symm.trans (fills.listed path)⟩
  obtain ⟨other, built'⟩ := ofSets?_ok_iff.mpr fills'
  have agreement' := agreement_of_ofSets? built'
  have pathCount_eq' : other.pathCount = incidence.pathCount := by
    have stated := (fills_of_ofSets? built').2
    omega
  have setCount : other.setCount = incidence.setCount := by
    rw [setCount_of_ofSets? built, setCount_of_ofSets? built', same.length_eq]
  have mem_iff : ∀ set path, path ∈ other.listed set ↔ path ∈ incidence.listed set := by
    intro set path
    simp only [mem_listed_iff built, mem_listed_iff built', same.length_eq,
      samePaths_getD same _ path]
  have listed : ∀ set, (other.listed set).Perm (incidence.listed set) := by
    intro set
    rw [List.perm_ext_iff_of_nodup (agreement'.distinct set) (agreement.distinct set)]
    exact mem_iff set
  refine ⟨other, built', agreement, ?_, setCount, listed⟩
  refine Array.ext pathCount_eq' fun path within within' => ?_
  have hitting := agreement'.agree path within
  have hitting' := agreement.agree path within'
  have sets_eq : other.hittingSets path = incidence.hittingSets path := by
    simp only [Incidence.hittingSets, setCount, mem_iff]
  rw [sets_eq, ← hitting'] at hitting
  simpa [Incidence.hitting, Array.getD_eq_getD_getElem?, within, within'] using hitting

end Transversal.Incidence
