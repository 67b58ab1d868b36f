/-
**The two directions of a relation that was built from path lists agree.**

* `Incidence.Agreement`: no set lists a path twice, every path listed exists, and the sets of a path
  are those that list it, in rising order; there is at least one.
* `Incidence.agreement_of_ofSets?`: every relation that `ofSets?` builds has it.
* `Incidence.Agreement.readable_iff`: every index that denotes a set can be read.
* `Incidence.Agreement.visits_eq`: a set hits a path once or not at all.
* `Incidence.Agreement.tally_pos_iff_listed`: a path is hit by the sets that list it.
-/
import Transversal.Proofs.Incidence.Tally

namespace Transversal.Incidence

/-! ### Path lists without repeats -/

theorem nodup_eraseDups {α : Type} [BEq α] [LawfulBEq α] (paths : List α) :
    paths.eraseDups.Nodup := by
  induction length : paths.length using Nat.strong_induction_on generalizing paths with
  | _ size ih =>
    cases paths with
    | nil => exact List.nodup_nil
    | cons path rest =>
      rw [List.eraseDups_cons, List.nodup_cons]
      have shorter : (rest.filter fun other => !other == path).length < size := by
        rw [← length, List.length_cons]
        exact Nat.lt_succ_of_le (List.length_filter_le _ _)
      refine ⟨?_, ih _ shorter _ rfl⟩
      rw [List.mem_eraseDups, List.mem_filter]
      simp

theorem firstNegative?_eq_none_iff {sets : List (List Int)} :
    firstNegative? sets = none ↔ ∀ paths ∈ sets, ∀ path ∈ paths, 0 ≤ path := by
  rw [firstNegative?, List.findSome?_eq_none_iff]
  constructor
  · intro none_found paths member path listed
    obtain ⟨set, found⟩ := List.mem_iff_getElem?.mp member
    have absent := none_found (paths, set) (List.mem_zipIdx_iff_getElem?.mpr found)
    rw [Option.map_eq_none_iff, List.find?_eq_none] at absent
    have natural := absent path listed
    simpa using natural
  · rintro natural ⟨paths, set⟩ member
    rw [Option.map_eq_none_iff, List.find?_eq_none]
    intro path listed
    have natural := natural paths (List.fst_mem_of_mem_zipIdx member) path listed
    simpa using natural

theorem foldl_max_lt_iff {paths : List Int} {start bound : Int} :
    paths.foldl max start < bound ↔ start < bound ∧ ∀ path ∈ paths, path < bound := by
  induction paths generalizing start with
  | nil => simp
  | cons path rest ih => rw [List.foldl_cons, ih, max_lt_iff, List.forall_mem_cons, and_assoc]

theorem le_largestPath {sets : List (List Int)} {paths : List Int} (member : paths ∈ sets)
    {path : Int} (listed : path ∈ paths) : path ≤ largestPath sets := by
  obtain ⟨_, below⟩ := foldl_max_lt_iff.mp (Int.lt_succ (largestPath sets))
  exact Int.le_of_lt_add_one (below path (List.mem_flatten.mpr ⟨paths, member, listed⟩))

/-! ### The sets of every path -/

theorem getElem?_enter (set : Nat) {paths : List Int} (natural : ∀ path ∈ paths, 0 ≤ path)
    (distinct : paths.Nodup) (table : Array (List Int)) (path : Nat) :
    (enter set paths table)[path]? =
      table[path]?.map fun hitting => if (path : Int) ∈ paths then (set : Int) :: hitting
        else hitting := by
  induction paths generalizing table with
  | nil => simp [enter]
  | cons first rest ih =>
    rw [List.forall_mem_cons] at natural
    rw [List.nodup_cons] at distinct
    have step : enter set (first :: rest) table =
        enter set rest (table.modify first.toNat ((set : Int) :: ·)) := rfl
    rw [step, ih natural.2 distinct.2, Array.getElem?_modify]
    by_cases same : first.toNat = path
    · have here : (path : Int) = first := by omega
      rw [if_pos same, here, Option.map_map]
      congr 1
      funext hitting
      simp [distinct.1]
    · have other : (path : Int) ≠ first := by omega
      rw [if_neg same]
      simp [other]

theorem getElem?_transposeFrom {sets : List (List Int)}
    (natural : ∀ paths ∈ sets, ∀ path ∈ paths, 0 ≤ path) (distinct : ∀ paths ∈ sets, paths.Nodup)
    {pathCount path : Nat} (inRange : path < pathCount) (start : Nat) :
    ((sets.zipIdx start).foldr (fun (paths, set) table => enter set paths table)
        (Array.replicate pathCount []))[path]? =
      some (((sets.zipIdx start).filter fun entry => (path : Int) ∈ entry.1).map
        fun entry => (entry.2 : Int)) := by
  induction sets generalizing start with
  | nil => simp [inRange]
  | cons paths rest ih =>
    rw [List.forall_mem_cons] at natural distinct
    rw [List.zipIdx_cons, List.foldr_cons, getElem?_enter start natural.1 distinct.1,
      ih natural.2 distinct.2, Option.map_some, List.filter_cons]
    by_cases listed : (path : Int) ∈ paths
    · simp [listed]
    · simp [listed]

theorem size_enter (set : Nat) (paths : List Int) (table : Array (List Int)) :
    (enter set paths table).size = table.size := by
  induction paths generalizing table with
  | nil => rfl
  | cons first rest ih =>
    have step : enter set (first :: rest) table =
        enter set rest (table.modify first.toNat ((set : Int) :: ·)) := rfl
    rw [step, ih, Array.size_modify]

theorem size_transpose (sets : List (List Int)) (pathCount : Nat) :
    (transpose sets pathCount).size = pathCount := by
  unfold transpose
  induction sets.zipIdx with
  | nil => exact Array.size_replicate
  | cons entry rest ih => rw [List.foldr_cons, size_enter, ih]

/-- The numbered lists that satisfy a test, by their numbers. -/
theorem map_filter_zipIdx (sets : List (List Int)) (test : List Int → Bool) :
    ((sets.zipIdx).filter fun entry => test entry.1).map (fun entry => (entry.2 : Int)) =
      ((List.range sets.length).filter fun set => test (sets.getD set [])).map
        fun set : Nat => (set : Int) := by
  have numbers : List.range sets.length = sets.zipIdx.map Prod.snd := by
    rw [List.zipIdx_map_snd, List.range_eq_range']
  rw [numbers, List.filter_map, List.map_map]
  congr 1
  refine List.filter_congr ?_
  rintro ⟨paths, set⟩ member
  have found := List.mem_zipIdx_iff_getElem?.mp member
  simp [List.getD_eq_getElem?_getD, found]

/-- Every path is hit by the sets that list it. -/
theorem getElem?_transpose {sets : List (List Int)}
    (natural : ∀ paths ∈ sets, ∀ path ∈ paths, 0 ≤ path) (distinct : ∀ paths ∈ sets, paths.Nodup)
    {pathCount path : Nat} (inRange : path < pathCount) :
    (transpose sets pathCount)[path]? =
      some (((List.range sets.length).filter fun set => (path : Int) ∈ sets.getD set []).map
        fun set : Nat => (set : Int)) := by
  rw [transpose, getElem?_transposeFrom natural distinct inRange,
    map_filter_zipIdx sets fun paths => (path : Int) ∈ paths]

/-! ### Agreement -/

/-- The sets that list a path, in rising order. -/
def hittingSets (incidence : Incidence) (path : Nat) : List Int :=
  ((List.range incidence.setCount).filter fun set : Nat => (path : Int) ∈ incidence.listed set).map
    fun set : Nat => (set : Int)

/-- The sets of a path by the other direction of the relation. -/
def hitting (incidence : Incidence) (path : Nat) : List Int := incidence.paths.getD path []

/-- **The two directions of a relation agree.** -/
structure Agreement (incidence : Incidence) : Prop where
  distinct : ∀ set, (incidence.listed set).Nodup
  inRange : ∀ set, ∀ path ∈ incidence.listed set, 0 ≤ path ∧ path < incidence.pathCount
  agree : ∀ path < incidence.pathCount, incidence.hitting path = incidence.hittingSets path
  hit : ∀ path < incidence.pathCount, incidence.hitting path ≠ []

theorem listed_natCast (incidence : Incidence) (set : Nat) :
    incidence.listed set = incidence.sets.getD set [] := by
  rw [listed]
  by_cases inRange : set < incidence.sets.size
  · rw [entryAt?_natCast inRange]
    simp [inRange]
  · have missing : place? incidence.sets.size (set : Int) = none := by
      simp [place?, Nat.not_lt.mp inRange]
    simp [entryAt?, missing, Nat.not_lt.mp inRange]

theorem listed_mem_or_nil (incidence : Incidence) (set : Int) :
    incidence.listed set ∈ incidence.sets.toList ∨ incidence.listed set = [] := by
  rw [listed, entryAt?]
  cases place? incidence.sets.size set with
  | none => exact .inr rfl
  | some place =>
    rw [Option.bind_some]
    cases found : incidence.sets[place]? with
    | none => exact .inr rfl
    | some paths => exact .inl (Array.mem_toList_iff.mpr (Array.mem_of_getElem? found))

/-- What `ofSets?` has checked when it returns a relation. -/
theorem ofSets?_eq_ok_iff {sets : List (List Int)} {pathCount : Option Int}
    {incidence : Incidence} :
    ofSets? sets pathCount = .ok incidence ↔
      firstNegative? (sets.map List.eraseDups) = none ∧
        ∃ count, pathCount.getD (largestPath (sets.map List.eraseDups) + 1) = count ∧
          largestPath (sets.map List.eraseDups) < count ∧
          (transpose (sets.map List.eraseDups) count.toNat).findIdx? List.isEmpty = none ∧
          incidence = ⟨(sets.map List.eraseDups).toArray,
            transpose (sets.map List.eraseDups) count.toNat⟩ := by
  simp only [exists_eq_left']
  unfold ofSets?
  dsimp only
  cases negative : firstNegative? (sets.map List.eraseDups) with
  | some found =>
    simp only [reduceCtorEq, false_and, iff_false]
    intro impossible
    cases impossible
  | none =>
    rw [Except.check_eq_ok_iff, not_le]
    simp only [true_and]
    refine and_congr_right fun _ => ?_
    split
    · rename_i path found
      simp [found, throw, throwThe, MonadExceptOf.throw]
    · rename_i complete
      simp [complete, pure, Except.pure, eq_comm]

/-- **Every relation that is built has it.** -/
theorem agreement_of_ofSets? {sets : List (List Int)} {pathCount : Option Int}
    {incidence : Incidence} (built : ofSets? sets pathCount = .ok incidence) :
    incidence.Agreement := by
  obtain ⟨natural, count, _, below, complete, rfl⟩ := ofSets?_eq_ok_iff.mp built
  rw [firstNegative?_eq_none_iff] at natural
  have distinct : ∀ paths ∈ sets.map List.eraseDups, paths.Nodup := by
    intro paths member
    obtain ⟨original, _, rfl⟩ := List.mem_map.mp member
    exact nodup_eraseDups original
  have listed := fun set => listed_mem_or_nil ⟨(sets.map List.eraseDups).toArray,
    transpose (sets.map List.eraseDups) count.toNat⟩ set
  refine ⟨fun set => ?_, fun set path member => ?_, fun path within => ?_, fun path within => ?_⟩
  · rcases listed set with member | empty
    · exact distinct _ (by simpa using member)
    · rw [empty]
      exact List.nodup_nil
  · rcases listed set with known | empty
    · rw [List.toList_toArray] at known
      have bound := le_largestPath known member
      refine ⟨natural _ known path member, ?_⟩
      rw [Incidence.pathCount, size_transpose]
      omega
    · rw [empty] at member
      cases member
  · rw [Incidence.pathCount, size_transpose] at within
    rw [hitting, Array.getD_eq_getD_getElem?, getElem?_transpose natural distinct within,
      Option.getD_some, hittingSets, setCount, List.size_toArray]
    simp only [listed_natCast, Array.getD_eq_getD_getElem?, List.getElem?_toArray,
      List.getD_eq_getElem?_getD]
  · rw [hitting, Array.getD_eq_getD_getElem?, Array.getElem?_eq_getElem within, Option.getD_some]
    rw [Array.findIdx?_eq_none_iff] at complete
    have filled := complete _ (Array.getElem_mem within)
    simpa using filled

namespace Agreement

variable {incidence : Incidence} (agreement : incidence.Agreement)

include agreement

/-- A set hits a path of the relation once or not at all. -/
theorem visits_eq (set : Int) (path : Nat) :
    visits incidence.pathCount (incidence.listed set) path =
      if (path : Int) ∈ incidence.listed set then 1 else 0 := by
  have places : visits incidence.pathCount (incidence.listed set) path =
      (incidence.listed set).count (path : Int) := by
    rw [visits, List.count]
    refine List.countP_congr fun other member => ?_
    obtain ⟨natural, below⟩ := agreement.inRange set other member
    obtain ⟨place, rfl⟩ := Int.eq_ofNat_of_zero_le natural
    rw [place?_natCast (by exact_mod_cast below)]
    simp only [Option.some.injEq, decide_eq_true_eq, beq_iff_eq]
    omega
  rw [places, (agreement.distinct set).count]

/-- A path is hit by the sets that list it. -/
theorem tally_pos_iff_listed {cover : List Int} {path : Nat} :
    0 < incidence.tally cover path ↔ ∃ set ∈ cover, (path : Int) ∈ incidence.listed set := by
  rw [tally_pos_iff]
  refine exists_congr fun set => and_congr_right fun _ => ?_
  rw [agreement.visits_eq]
  by_cases listed : (path : Int) ∈ incidence.listed set
  · simp [listed]
  · simp [listed]

/-- Every index that denotes a set can be read. -/
theorem readable_iff {set : Int} :
    incidence.Readable set ↔ (entryAt? incidence.sets set).isSome := by
  refine ⟨fun readable => readable.1, fun found => ⟨found, fun path member => ?_⟩⟩
  obtain ⟨natural, below⟩ := agreement.inRange set path member
  obtain ⟨place, rfl⟩ := Int.eq_ofNat_of_zero_le natural
  rw [place?_natCast (by exact_mod_cast below), Option.isSome_some]

theorem readable_natCast {set : Nat} (within : set < incidence.setCount) :
    incidence.Readable set := by
  rw [agreement.readable_iff, entryAt?_natCast within, Option.isSome_some]

/-- The sets of a path are those that list it. -/
theorem mem_hitting_iff {path : Nat} (within : path < incidence.pathCount) {set : Int} :
    set ∈ incidence.hitting path ↔
      ∃ place < incidence.setCount, set = place ∧ (path : Int) ∈ incidence.listed place := by
  rw [agreement.agree path within, hittingSets]
  simp only [List.mem_map, List.mem_filter, List.mem_range, decide_eq_true_eq]
  constructor
  · rintro ⟨place, ⟨below, listed⟩, rfl⟩
    exact ⟨place, below, rfl, listed⟩
  · rintro ⟨place, below, rfl, listed⟩
    exact ⟨place, ⟨below, listed⟩, rfl⟩

end Agreement

end Transversal.Incidence
