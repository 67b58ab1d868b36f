/-
**The same paths under other numbers.**

Every path is given a number of its own among the same numbers, and the path lists of all sets are
written with these.

* `renumber`: the new number of a path; `renumber_injective`: no two paths share one.
* `Incidence.Renumbered`: two relations that only differ by the numbers of their paths.
* `Incidence.exists_renumbered`: a family written with other numbers makes a relation if the family
  does, and these two are `Renumbered`.
* `Incidence.Renumbered.tally_eq`, `Incidence.Renumbered.countP_unhitBy`: so the same sets hit a
  path under both of its numbers, and what is unhit can be counted in either relation.
-/
import Mathlib.Data.List.FinRange
import Mathlib.Data.List.GetD
import Mathlib.Data.Fintype.Basic
import Transversal.Proofs.Incidence.Load
import Transversal.Proofs.Incidence.Relisted

namespace Transversal

/-! ### Numbers -/

section Numbers

variable {count : Nat} (numbering : Equiv.Perm (Fin count))

/-- The new number of a path. What is no path is left as it is. -/
def renumber (path : Int) : Int :=
  if within : 0 ≤ path ∧ path < count then numbering ⟨path.toNat, by omega⟩ else path

theorem renumber_natCast (path : Fin count) :
    renumber numbering (path : Nat) = (numbering path : Nat) := by
  rw [renumber, dif_pos ⟨Int.natCast_nonneg _, by exact_mod_cast path.isLt⟩]
  simp

theorem renumber_of_outside {path : Int} (outside : ¬ (0 ≤ path ∧ path < count)) :
    renumber numbering path = path := dif_neg outside

/-- Paths have numbers of paths. -/
theorem renumber_within {path : Int} :
    (0 ≤ renumber numbering path ∧ renumber numbering path < count) ↔
      0 ≤ path ∧ path < count := by
  by_cases within : 0 ≤ path ∧ path < count
  · refine iff_of_true ?_ within
    rw [renumber, dif_pos within]
    exact ⟨Int.natCast_nonneg _, by exact_mod_cast (numbering _).isLt⟩
  · rw [renumber_of_outside numbering within]

/-- The old number is found again. -/
theorem renumber_symm (path : Int) : renumber numbering.symm (renumber numbering path) = path := by
  by_cases within : 0 ≤ path ∧ path < count
  · obtain ⟨place, rfl⟩ := Int.eq_ofNat_of_zero_le within.1
    have below : place < count := by exact_mod_cast within.2
    rw [renumber_natCast numbering ⟨place, below⟩, renumber_natCast, Equiv.symm_apply_apply]
  · rw [renumber_of_outside numbering within, renumber_of_outside _ within]

/-- **No two paths share a number.** -/
theorem renumber_injective : Function.Injective (renumber numbering) :=
  Function.LeftInverse.injective (renumber_symm numbering)

/-- The path lists of a family, written with the new numbers. -/
def renumbered (sets : List (List Int)) : List (List Int) :=
  sets.map (List.map (renumber numbering))

end Numbers

namespace Incidence

variable {count : Nat} {numbering : Equiv.Perm (Fin count)} {sets : List (List Int)}
  {pathCount : Option Int} {incidence other : Incidence}

/-! ### Families -/

theorem isListed_renumbered {path : Int} :
    IsListed (renumbered numbering sets) (renumber numbering path) ↔ IsListed sets path := by
  simp [IsListed, renumbered, (renumber_injective numbering).eq_iff]

/-- The new numbers fill the same paths. -/
theorem Fills.renumbered (fills : Fills sets count) :
    Fills (Transversal.renumbered numbering sets) count where
  natural := fills.natural
  listed path := by
    -- every number is the new one of some path
    obtain ⟨old, rfl⟩ : ∃ old, renumber numbering old = path :=
      ⟨renumber numbering.symm path, renumber_symm numbering.symm path⟩
    rw [isListed_renumbered, fills.listed, renumber_within]

/-! ### Relations that only differ by the numbers of paths -/

/-- **Two relations that only differ by the numbers of their paths.** Both directions agree in each
of them. -/
structure Renumbered (numbering : Equiv.Perm (Fin count)) (incidence other : Incidence) : Prop where
  agreement : incidence.Agreement
  agreement' : other.Agreement
  pathCount : incidence.pathCount = count
  pathCount' : other.pathCount = count
  setCount : other.setCount = incidence.setCount
  listed : ∀ (set : Int) (path : Fin count),
    ((numbering path : Nat) : Int) ∈ other.listed set ↔ ((path : Nat) : Int) ∈ incidence.listed set

/-- **A family written with other numbers** makes a relation if the family does, whether the number
of paths is stated or not, and the two only differ by the numbers of paths. -/
theorem exists_renumbered (built : ofSets? sets pathCount = .ok incidence)
    (size : incidence.pathCount = count) (numbering : Equiv.Perm (Fin count)) :
    ∃ other, ofSets? (Transversal.renumbered numbering sets) none = .ok other ∧
      ofSets? (Transversal.renumbered numbering sets) (some count) = .ok other ∧
      incidence.Renumbered numbering other := by
  obtain ⟨fills, stated⟩ := fills_of_ofSets? built
  rw [← stated, size] at fills
  have fills' : Fills (Transversal.renumbered numbering sets) count := fills.renumbered
  have derived : statedCount (Transversal.renumbered numbering sets) none = count :=
    fills'.derivedPathCount_eq
  obtain ⟨other, built'⟩ := ofSets?_ok_iff.mpr (derived ▸ fills')
  have size' : (other.pathCount : Int) = count := (fills_of_ofSets? built').2.trans derived
  refine ⟨other, built', derived ▸ (ofSets?_derived _).trans built', agreement_of_ofSets? built,
    agreement_of_ofSets? built', size, by exact_mod_cast size', ?_, fun set path => ?_⟩
  · rw [setCount_of_ofSets? built, setCount_of_ofSets? built', renumbered, List.length_map]
  · simp only [mem_listed_iff built, mem_listed_iff built', ← renumber_natCast, renumbered,
      List.length_map]
    refine exists_congr fun place => and_congr_right fun _ => ?_
    rw [show ([] : List Int) = [].map (renumber numbering) from rfl, List.getD_map]
    exact List.mem_map_of_injective (renumber_injective numbering)

namespace Renumbered

variable (same : incidence.Renumbered numbering other)

include same

theorem isSome_iff (set : Int) :
    (entryAt? other.sets set).isSome ↔ (entryAt? incidence.sets set).isSome := by
  rw [isSome_entryAt?_iff, isSome_entryAt?_iff,
    show other.sets.size = incidence.sets.size from same.setCount]

theorem readable_iff (set : Int) : other.Readable set ↔ incidence.Readable set := by
  rw [same.agreement.readable_iff, same.agreement'.readable_iff, same.isSome_iff]

/-- **The same sets hit a path** under both of its numbers. -/
theorem tally_eq (cover : List Int) (path : Fin count) :
    other.tally cover (numbering path) = incidence.tally cover path := by
  induction cover with
  | nil => rfl
  | cons set rest ih =>
    rw [tally_cons, tally_cons, ih, same.agreement.visits_eq, same.agreement'.visits_eq]
    exact congrArg (· + _) (if_congr (same.listed set path) rfl rfl)

/-- **Unhit paths can be counted in either relation**, and so can those among them that a set
lists. -/
theorem countP_unhitBy (cover : List Int) (test test' : Nat → Bool)
    (alike : ∀ path : Fin count, test' (numbering path) = test path) :
    (other.unhitBy cover).countP test' = (incidence.unhitBy cover).countP test := by
  have onPaths : ∀ {relation : Incidence} (_ : relation.pathCount = count) (test : Nat → Bool),
      (relation.unhitBy cover).countP test =
        (List.finRange count).countP fun path : Fin count =>
          test path && decide (relation.tally cover path = 0) := by
    intro relation size test
    rw [unhitBy, List.countP_filter, size, ← List.map_coe_finRange_eq_range, List.countP_map]
    rfl
  rw [onPaths same.pathCount, onPaths same.pathCount',
    ← (Equiv.Perm.map_finRange_perm numbering).countP_eq, List.countP_map]
  refine List.countP_congr fun path _ => ?_
  simp only [Function.comp, same.tally_eq, alike]

theorem length_unhitBy (cover : List Int) :
    (other.unhitBy cover).length = (incidence.unhitBy cover).length := by
  simpa using same.countP_unhitBy cover (fun _ => true) (fun _ => true) fun _ => rfl

end Renumbered

end Incidence

end Transversal
