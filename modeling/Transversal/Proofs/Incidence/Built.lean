/-
**Which families of path lists make a relation**, and which one.

* `Incidence.firstOccurrences`: the entries of a list that do not stand in it before; what
  `List.eraseDups` leaves of the list, `eraseDups_eq`.
* `Incidence.derivedPathCount_eq`: the number of paths that a family speaks of is the one that is
  derived from it.
* `Incidence.Fills`: the paths listed are exactly the first so many; `Incidence.Refusal`: the three
  reasons to refuse a family, of which only one applies.
* `Incidence.Inverts`: the relation of a family, with the sets of every path.
* `Incidence.IsUntold`: the reason to refuse a family takes a number that is too long to be written.
* `Incidence.ofSets?_outcome`: the relation is built exactly if the family fills its paths, and then
  inverts it; otherwise the fault is the reason that applies, if it can be told.
-/
import Mathlib.Data.List.Induction
import Transversal.Incidence.Coverage
import Transversal.Proofs.Incidence.Agreement

namespace Transversal.Incidence

variable {sets : List (List Int)} {pathCount : Option Int} {incidence : Incidence}

/-! ### First occurrences -/

/-- The entries of a list at the places before which they do not occur. -/
def firstOccurrences (listed : List Int) : List Int :=
  (listed.zipIdx.filter fun (path, place) => path ∉ listed.take place).map Prod.fst

theorem firstOccurrences_concat (listed : List Int) (path : Int) :
    firstOccurrences (listed ++ [path]) =
      firstOccurrences listed ++ if path ∈ listed then [] else [path] := by
  have earlier : (listed.zipIdx.filter fun entry : Int × Nat =>
      entry.1 ∉ (listed ++ [path]).take entry.2) =
      listed.zipIdx.filter fun entry : Int × Nat => entry.1 ∉ listed.take entry.2 := by
    refine List.filter_congr ?_
    rintro ⟨other, place⟩ member
    have within := (List.mem_zipIdx member).2.1
    rw [List.take_append_of_le_length (by omega)]
  unfold firstOccurrences
  rw [List.zipIdx_append, List.filter_append, List.map_append, earlier]
  by_cases known : path ∈ listed
  · simp [known]
  · simp [known]

/-- **Repeats are dropped**, and the first occurrences stay in order. -/
theorem eraseDups_eq (listed : List Int) : listed.eraseDups = firstOccurrences listed := by
  induction listed using List.reverseRecOn with
  | nil => rfl
  | append_singleton listed path ih =>
    rw [firstOccurrences_concat, List.eraseDups_append, ih, List.removeAll]
    by_cases known : path ∈ listed
    · simp [known]
    · simp [known, List.eraseDups_cons]

/-- A list without repeats is left as it is. -/
theorem eraseDups_of_nodup {listed : List Int} (distinct : listed.Nodup) :
    listed.eraseDups = listed := by
  induction listed with
  | nil => rfl
  | cons path rest ih =>
    rw [List.nodup_cons] at distinct
    have others : (rest.filter fun other => !other == path) = rest := by
      rw [List.filter_eq_self]
      intro other member
      have differs : other ≠ path := fun same => distinct.1 (same ▸ member)
      simpa using differs
    rw [List.eraseDups_cons, others, ih distinct.2]

/-- Lists without repeats are left as they are. -/
theorem map_eraseDups_of_nodup (distinct : ∀ listed ∈ sets, listed.Nodup) :
    sets.map List.eraseDups = sets := by
  rw [List.map_congr_left fun listed member => eraseDups_of_nodup (distinct listed member),
    List.map_id']

/-- The first entry with a property stands among the first occurrences. -/
theorem find?_eraseDups (test : Int → Bool) (listed : List Int) :
    listed.eraseDups.find? test = listed.find? test := by
  induction listed using List.reverseRecOn with
  | nil => rfl
  | append_singleton listed path ih =>
    rw [List.eraseDups_append, List.find?_append, List.find?_append, ih, List.removeAll]
    by_cases known : path ∈ listed
    · rw [List.filter_cons_of_neg (by simpa using known), List.filter_nil, List.eraseDups_nil,
        List.find?_nil, Option.or_none]
      cases found : listed.find? test with
      | some first => rfl
      | none =>
        have fails := List.find?_eq_none.mp found path known
        rw [List.find?_cons_of_neg fails]
        rfl
    · rw [List.filter_cons_of_pos (by simpa using known), List.filter_nil, List.eraseDups_cons]
      rfl

/-! ### Paths listed -/

/-- Some set lists the path. -/
def IsListed (sets : List (List Int)) (path : Int) : Prop := ∃ paths ∈ sets, path ∈ paths

theorem isListed_eraseDups {path : Int} :
    IsListed (sets.map List.eraseDups) path ↔ IsListed sets path := by
  simp [IsListed]

theorem isListed_iff_flatten {path : Int} : IsListed sets path ↔ path ∈ sets.flatten :=
  List.mem_flatten.symm

theorem largestPath_lt_iff {bound : Int} :
    largestPath sets < bound ↔ 0 ≤ bound ∧ ∀ path, IsListed sets path → path < bound := by
  simp only [largestPath, foldl_max_lt_iff, isListed_iff_flatten]
  rfl

theorem derivedPathCount_le_iff (natural : ∀ path, IsListed sets path → 0 ≤ path) {bound : Int} :
    Coverage.derivedPathCount sets ≤ bound ↔
      0 ≤ bound ∧ ∀ path, IsListed sets path → path < bound := by
  simp only [isListed_iff_flatten] at natural ⊢
  unfold Coverage.derivedPathCount
  cases largest : sets.flatten.max? with
  | none =>
    rw [List.max?_eq_none_iff.mp largest]
    simp
  | some path =>
    obtain ⟨member, greatest⟩ := List.max?_eq_some_iff.mp largest
    have positive := natural path member
    rw [Option.getD_some]
    constructor
    · intro above
      exact ⟨by omega, fun other listed => by have := greatest other listed; omega⟩
    · rintro ⟨_, below⟩
      exact below path member

/-- **The number of paths that a family speaks of** is one more than the largest path listed. -/
theorem derivedPathCount_eq (natural : ∀ path, IsListed sets path → 0 ≤ path) :
    largestPath (sets.map List.eraseDups) + 1 = Coverage.derivedPathCount sets := by
  refine eq_of_forall_ge_iff fun bound => ?_
  rw [Int.add_one_le_iff, largestPath_lt_iff, derivedPathCount_le_iff natural]
  simp only [isListed_eraseDups]

/-! ### Reasons to refuse -/

/-- The number of paths that a family is to have: the one that is given, or else the one that it
speaks of. -/
def statedCount (sets : List (List Int)) (pathCount : Option Int) : Int :=
  pathCount.getD (Coverage.derivedPathCount sets)

/-- **The paths listed are exactly the first so many.** -/
structure Fills (sets : List (List Int)) (count : Int) : Prop where
  natural : 0 ≤ count
  listed : ∀ path, IsListed sets path ↔ 0 ≤ path ∧ path < count

/-- A family that fills its paths speaks of exactly so many. -/
theorem Fills.derivedPathCount_eq {count : Int} (fills : Fills sets count) :
    Coverage.derivedPathCount sets = count := by
  refine eq_of_forall_ge_iff fun bound => ?_
  rw [derivedPathCount_le_iff fun path listed => ((fills.listed path).mp listed).1]
  simp only [fills.listed]
  constructor
  · rintro ⟨natural, below⟩
    by_contra past
    have last := below (count - 1)
    omega
  · intro enough
    exact ⟨fills.natural.trans enough, fun path within => by omega⟩

/-- **The first negative path**, in the set that lists it. -/
structure IsFirstNegative (sets : List (List Int)) (set : Nat) (path : Int) : Prop where
  listed : ∃ paths, sets[set]? = some paths ∧ paths.find? (· < 0) = some path
  earlier : ∀ other < set, ∀ paths, sets[other]? = some paths → ∀ path ∈ paths, 0 ≤ path

namespace IsFirstNegative

variable {set other : Nat} {path otherPath : Int}

theorem exists_mem (first : IsFirstNegative sets set path) :
    ∃ paths, sets[set]? = some paths ∧ path ∈ paths ∧ path < 0 := by
  obtain ⟨paths, stands, found⟩ := first.listed
  exact ⟨paths, stands, List.mem_of_find?_eq_some found, by simpa using List.find?_some found⟩

theorem not_natural (first : IsFirstNegative sets set path) :
    ¬ ∀ path, IsListed sets path → 0 ≤ path := by
  obtain ⟨paths, stands, member, negative⟩ := first.exists_mem
  exact fun natural =>
    absurd (natural path ⟨paths, List.mem_of_getElem? stands, member⟩) (Int.not_le.mpr negative)

theorem not_lt (first : IsFirstNegative sets set path)
    (second : IsFirstNegative sets other otherPath) : ¬ set < other := by
  intro before
  obtain ⟨paths, stands, member, negative⟩ := first.exists_mem
  exact absurd (second.earlier set before paths stands path member) (by omega)

/-- There is only one. -/
theorem unique (first : IsFirstNegative sets set path)
    (second : IsFirstNegative sets other otherPath) : set = other ∧ path = otherPath := by
  obtain rfl : set = other := le_antisymm (Nat.not_lt.mp (second.not_lt first))
    (Nat.not_lt.mp (first.not_lt second))
  obtain ⟨paths, stands, found⟩ := first.listed
  obtain ⟨others, otherwise, foundToo⟩ := second.listed
  obtain rfl : paths = others := Option.some.inj (stands.symm.trans otherwise)
  exact ⟨rfl, Option.some.inj (found.symm.trans foundToo)⟩

end IsFirstNegative

/-- **The reasons to refuse a family of path lists**, in the order in which they are looked for: a
negative path, a path that is too large for the number given, and a path that no set lists, of which
the least is told. The first two are told with numbers that may be too long for it. -/
inductive Refusal (sets : List (List Int)) (pathCount : Option Int) : Fault → Prop
  | negative {set path} : IsFirstNegative sets set path →
      Refusal sets pathCount (.quoting [path] (.coverage (.negativePath set path)))
  | tooLarge {count} : (∀ path, IsListed sets path → 0 ≤ path) → pathCount = some count →
      count < Coverage.derivedPathCount sets →
      Refusal sets pathCount (.quoting [Coverage.derivedPathCount sets - 1, count]
        (.mismatch (.pathOutOfRange (Coverage.derivedPathCount sets - 1) count)))
  | unhit {path : Nat} : (∀ path, IsListed sets path → 0 ≤ path) →
      (∀ count, pathCount = some count → Coverage.derivedPathCount sets ≤ count) →
      path < statedCount sets pathCount → ¬ IsListed sets path →
      (∀ earlier : Nat, earlier < path → IsListed sets earlier) →
      Refusal sets pathCount (.uncoverable path)

namespace Refusal

variable {fault other : Fault}

/-- A family with a reason to refuse it does not fill its paths. -/
theorem not_fills (refusal : Refusal sets pathCount fault) :
    ¬ Fills sets (statedCount sets pathCount) := by
  intro fills
  cases refusal with
  | negative first =>
    exact first.not_natural fun path listed => ((fills.listed path).mp listed).1
  | tooLarge natural given large =>
    have enough := (derivedPathCount_le_iff natural).mpr
      ⟨fills.natural, fun path listed => ((fills.listed path).mp listed).2⟩
    rw [statedCount, given, Option.getD_some] at enough
    omega
  | unhit _ _ below missing _ => exact missing ((fills.listed _).mpr ⟨by omega, below⟩)

/-- **No two reasons apply to a family.** -/
theorem unique (refusal : Refusal sets pathCount fault) (another : Refusal sets pathCount other) :
    fault = other := by
  cases refusal with
  | negative first =>
    cases another with
    | negative second =>
      obtain ⟨rfl, rfl⟩ := first.unique second
      rfl
    | tooLarge natural => exact absurd natural first.not_natural
    | unhit natural => exact absurd natural first.not_natural
  | tooLarge natural given large =>
    cases another with
    | negative second => exact absurd natural second.not_natural
    | tooLarge _ again =>
      obtain rfl := Option.some.inj (given.symm.trans again)
      rfl
    | unhit _ enough => exact absurd (enough _ given) (Int.not_le.mpr large)
  | @unhit path natural enough _ missing earlier =>
    cases another with
    | negative second => exact absurd natural second.not_natural
    | tooLarge _ given large => exact absurd (enough _ given) (Int.not_le.mpr large)
    | @unhit otherPath _ _ _ missingToo earlierToo =>
      have same : path = otherPath := by
        by_contra differs
        rcases Nat.lt_or_gt_of_ne differs with before | after
        · exact missing (earlierToo path before)
        · exact missingToo (earlier otherPath after)
      rw [same]

end Refusal

/-- What is looked for among the lists without repeats is the first negative path of the family. -/
theorem isFirstNegative_of_firstNegative? {set : Nat} {path : Int}
    (found : firstNegative? (sets.map List.eraseDups) = some (set, path)) :
    IsFirstNegative sets set path := by
  obtain ⟨before, ⟨kept, place⟩, after, numbered, found, none_before⟩ :=
    List.findSome?_eq_some_iff.mp found
  obtain ⟨negative, first, same⟩ := Option.map_eq_some_iff.mp found
  cases same
  -- the family itself, split where its numbered lists are
  obtain ⟨front, back, split, rfl, rest⟩ := List.zipIdx_eq_append_iff.mp numbered
  obtain ⟨firsts, others, rfl, rfl, rfl⟩ := List.map_eq_append_iff.mp split
  cases others with
  | nil => cases rest
  | cons paths later =>
    rw [List.map_cons, List.zipIdx_cons, List.cons.injEq, Prod.mk.injEq, Nat.zero_add,
      List.length_map] at rest
    obtain ⟨⟨rfl, rfl⟩, _⟩ := rest
    rw [find?_eraseDups] at first
    refine ⟨⟨paths, by simp, first⟩, fun other within earlier stands path listed => ?_⟩
    rw [List.getElem?_append_left within] at stands
    have numbered : (earlier.eraseDups, other) ∈ (firsts.map List.eraseDups).zipIdx := by
      rw [List.mem_zipIdx_iff_getElem?, List.getElem?_map, stands, Option.map_some]
    have none_negative := Option.map_eq_none_iff.mp (none_before _ numbered)
    simpa using List.find?_eq_none.mp none_negative path (List.mem_eraseDups.mpr listed)

/-- The sets of a path are those that list it, so there are none if none does. -/
theorem transpose_isEmpty_iff (natural : ∀ path, IsListed sets path → 0 ≤ path) {count path : Nat}
    (inRange : path < (transpose (sets.map List.eraseDups) count).size) :
    (transpose (sets.map List.eraseDups) count)[path].isEmpty ↔ ¬ IsListed sets path := by
  have distinct : ∀ paths ∈ sets.map List.eraseDups, paths.Nodup := by
    intro paths member
    obtain ⟨original, _, rfl⟩ := List.mem_map.mp member
    exact nodup_eraseDups original
  have natural' : ∀ paths ∈ sets.map List.eraseDups, ∀ path ∈ paths, 0 ≤ path :=
    fun paths member path listed => natural path (isListed_eraseDups.mp ⟨paths, member, listed⟩)
  have hitting := getElem?_transpose natural' distinct
    (show path < count by rwa [size_transpose] at inRange)
  rw [Array.getElem?_eq_getElem inRange, Option.some_inj] at hitting
  rw [hitting, List.isEmpty_iff, List.map_eq_nil_iff, List.filter_eq_nil_iff,
    ← isListed_eraseDups, IsListed]
  constructor
  · rintro unlisted ⟨paths, member, listed⟩
    obtain ⟨set, within, rfl⟩ := List.mem_iff_getElem.mp member
    refine unlisted set (List.mem_range.mpr within) (decide_eq_true ?_)
    rwa [List.getD_eq_getElem?_getD, List.getElem?_eq_getElem within]
  · rintro unlisted set member listed
    have within := List.mem_range.mp member
    rw [decide_eq_true_eq, List.getD_eq_getElem?_getD, List.getElem?_eq_getElem within] at listed
    exact unlisted ⟨_, List.getElem_mem within, listed⟩

theorem firstNegative?_eraseDups_eq_none_iff :
    firstNegative? (sets.map List.eraseDups) = none ↔ ∀ path, IsListed sets path → 0 ≤ path := by
  rw [firstNegative?_eq_none_iff]
  constructor
  · intro natural path listed
    obtain ⟨paths, member, listed⟩ := isListed_eraseDups.mpr listed
    exact natural paths member path listed
  · intro natural paths member path listed
    exact natural path (isListed_eraseDups.mp ⟨paths, member, listed⟩)

/-! ### The relation of a family -/

/-- **Every fault is one of the reasons.** -/
theorem refusal_of_ofSets? {fault : Fault} (refused : ofSets? sets pathCount = .error fault) :
    Refusal sets pathCount fault := by
  unfold ofSets? at refused
  dsimp only at refused
  cases negative : firstNegative? (sets.map List.eraseDups) with
  | some found =>
    obtain ⟨set, path⟩ := found
    rw [negative] at refused
    rw [← Except.error.inj refused]
    exact .negative (isFirstNegative_of_firstNegative? negative)
  | none =>
    have natural := firstNegative?_eraseDups_eq_none_iff.mp negative
    have derived := derivedPathCount_eq natural
    rw [negative, derived] at refused
    dsimp only at refused
    rw [← statedCount] at refused
    split at refused
    · rename_i large
      rw [← Except.error.inj refused]
      cases pathCount with
      | none =>
        rw [statedCount, Option.getD_none] at large
        omega
      | some count =>
        rw [statedCount, Option.getD_some] at large ⊢
        have same : largestPath (sets.map List.eraseDups) =
          Coverage.derivedPathCount sets - 1 := by omega
        rw [same]
        exact .tooLarge natural rfl (by omega)
    · rename_i enough
      split at refused
      · rename_i path found
        cases refused
        obtain ⟨within, empty, earlier⟩ := Array.findIdx?_eq_some_iff_getElem.mp found
        have below := within
        rw [size_transpose] at below
        refine .unhit natural (fun count given => ?_) (by omega)
          ((transpose_isEmpty_iff natural within).mp empty) fun other before => ?_
        · rw [statedCount, given, Option.getD_some] at enough
          omega
        · have filled := earlier other before
          rwa [transpose_isEmpty_iff natural, not_not] at filled
      · cases refused

/-- What has been checked when a relation is returned, in terms of the family. -/
theorem fills_of_ofSets? (built : ofSets? sets pathCount = .ok incidence) :
    Fills sets (statedCount sets pathCount) ∧
      (incidence.pathCount : Int) = statedCount sets pathCount := by
  obtain ⟨negative, count, given, below, complete, rfl⟩ := ofSets?_eq_ok_iff.mp built
  have natural := firstNegative?_eraseDups_eq_none_iff.mp negative
  rw [derivedPathCount_eq natural, ← statedCount] at given
  subst given
  rw [largestPath_lt_iff] at below
  simp only [isListed_eraseDups] at below
  have size :
      ((transpose (sets.map List.eraseDups) (statedCount sets pathCount).toNat).size : Int) =
        statedCount sets pathCount := by
    rw [size_transpose, Int.toNat_of_nonneg below.1]
  refine ⟨⟨below.1, fun path => ⟨fun listed => ⟨natural path listed, below.2 path listed⟩, ?_⟩⟩,
    size⟩
  rintro ⟨positive, within⟩
  obtain ⟨place, rfl⟩ := Int.eq_ofNat_of_zero_le positive
  by_contra missing
  rw [← size] at within
  rw [Array.findIdx?_eq_none_iff] at complete
  have filled := complete _ (Array.getElem_mem (Int.ofNat_lt.mp within))
  rw [(transpose_isEmpty_iff natural _).mpr missing] at filled
  cases filled

/-- **A family makes a relation exactly if it fills its paths.** -/
theorem ofSets?_ok_iff :
    (∃ incidence, ofSets? sets pathCount = .ok incidence) ↔
      Fills sets (statedCount sets pathCount) := by
  cases built : ofSets? sets pathCount with
  | error fault =>
    simp only [reduceCtorEq, exists_false, false_iff]
    exact (refusal_of_ofSets? built).not_fills
  | ok incidence =>
    simp only [Except.ok.injEq, exists_eq', true_iff]
    exact (fills_of_ofSets? built).1

/-- **The relation of a family**: its lists without repeats, and the sets of every path, in rising
order; there is at least one. It is the relation of its own lists too. -/
structure Inverts (sets : List (List Int)) (count : Int) (incidence : Incidence) : Prop where
  sets : incidence.sets.toList = sets.map firstOccurrences
  pathCount : (incidence.pathCount : Int) = count
  rising : ∀ path < incidence.pathCount, (incidence.hitting path).Pairwise (· < ·)
  nonempty : ∀ path < incidence.pathCount, incidence.hitting path ≠ []
  inverse : ∀ path < incidence.pathCount, ∀ set, set ∈ incidence.hitting path ↔
    ∃ place < incidence.setCount, set = place ∧ (path : Int) ∈ incidence.listed place
  again : ofSets? incidence.sets.toList (some count) = .ok incidence

theorem Agreement.rising (agreement : incidence.Agreement) {path : Nat}
    (within : path < incidence.pathCount) : (incidence.hitting path).Pairwise (· < ·) := by
  rw [agreement.agree path within, hittingSets, List.pairwise_map]
  exact (List.pairwise_lt_range.filter _).imp Int.ofNat_lt.mpr

/-- A relation is the one of its own lists. -/
theorem ofSets?_again (built : ofSets? sets pathCount = .ok incidence) :
    ofSets? incidence.sets.toList (some (statedCount sets pathCount)) = .ok incidence := by
  obtain ⟨negative, count, given, below, complete, rfl⟩ := ofSets?_eq_ok_iff.mp built
  have natural := firstNegative?_eraseDups_eq_none_iff.mp negative
  rw [derivedPathCount_eq natural, ← statedCount] at given
  have kept : (sets.map List.eraseDups).map List.eraseDups = sets.map List.eraseDups := by
    refine map_eraseDups_of_nodup fun listed member => ?_
    obtain ⟨original, _, rfl⟩ := List.mem_map.mp member
    exact nodup_eraseDups original
  rw [ofSets?_eq_ok_iff, List.toList_toArray, kept]
  exact ⟨negative, count, given, below, complete, rfl⟩

theorem inverts_of_ofSets? (built : ofSets? sets pathCount = .ok incidence) :
    Inverts sets (statedCount sets pathCount) incidence where
  sets := by
    obtain ⟨_, _, _, _, _, rfl⟩ := ofSets?_eq_ok_iff.mp built
    rw [List.toList_toArray]
    exact List.map_congr_left fun listed _ => eraseDups_eq listed
  pathCount := (fills_of_ofSets? built).2
  rising _ within := (agreement_of_ofSets? built).rising within
  nonempty := (agreement_of_ofSets? built).hit
  inverse _ within _ := (agreement_of_ofSets? built).mem_hitting_iff within
  again := ofSets?_again built

/-- Lists without repeats are the sets. -/
theorem listed_of_ofSets? (built : ofSets? sets pathCount = .ok incidence)
    (distinct : ∀ listed ∈ sets, listed.Nodup) (set : Nat) :
    incidence.listed set = sets[set]?.getD [] := by
  have same : incidence.sets.toList = sets := by
    obtain ⟨_, _, _, _, _, rfl⟩ := ofSets?_eq_ok_iff.mp built
    rw [List.toList_toArray, map_eraseDups_of_nodup distinct]
  rw [listed_natCast, ← same, Array.getElem?_toList, Array.getD_eq_getD_getElem?]

/-- There are as many sets as lists. -/
theorem setCount_of_ofSets? (built : ofSets? sets pathCount = .ok incidence) :
    incidence.setCount = sets.length := by
  rw [setCount, ← Array.length_toList, (inverts_of_ofSets? built).sets, List.length_map]

/-! ### The outcome -/

/-- **A family is refused, and its reason cannot be told**: the first negative path is too long to
be written, or else the largest path is too large for the number given, and one of these two is too
long. -/
def IsUntold (sets : List (List Int)) (pathCount : Option Int) : Prop :=
  (∃ set path, IsFirstNegative sets set path ∧ ¬ isWritable path) ∨
    (∀ path, IsListed sets path → 0 ≤ path) ∧ ∃ count, pathCount = some count ∧
      count < Coverage.derivedPathCount sets ∧
      ¬ (isWritable (Coverage.derivedPathCount sets - 1) ∧ isWritable count)

theorem IsUntold.refusal (untold : IsUntold sets pathCount) :
    Refusal sets pathCount (.value .tooManyDigits) := by
  rcases untold with ⟨set, path, first, long⟩ | ⟨natural, count, given, large, long⟩
  · have refusal : Refusal sets pathCount _ := .negative first
    rwa [Fault.quoting_of_untold (by simpa using long)] at refusal
  · have refusal : Refusal sets pathCount _ := .tooLarge natural given large
    rwa [Fault.quoting_of_untold (by simpa using long)] at refusal

theorem Refusal.isUntold {fault : Fault} (refusal : Refusal sets pathCount fault)
    (untold : fault = .value .tooManyDigits) : IsUntold sets pathCount := by
  cases refusal with
  | negative first =>
    rw [Fault.quoting_eq_tooManyDigits_iff (by simp)] at untold
    exact .inl ⟨_, _, first, by simpa using untold⟩
  | tooLarge natural given large =>
    rw [Fault.quoting_eq_tooManyDigits_iff (by simp)] at untold
    exact .inr ⟨natural, _, given, large, by simpa using untold⟩
  | unhit => cases untold

/-- **The faults of a family are the reasons to refuse it.** -/
theorem ofSets?_eq_error_iff {fault : Fault} :
    ofSets? sets pathCount = .error fault ↔ Refusal sets pathCount fault := by
  refine ⟨refusal_of_ofSets?, fun refusal => ?_⟩
  cases built : ofSets? sets pathCount with
  | ok incidence => exact (refusal.not_fills (fills_of_ofSets? built).1).elim
  | error other => rw [(refusal_of_ofSets? built).unique refusal]

/-- **The outcome for every family of path lists**, with or without a number of paths.

* The relation is built exactly if the family fills its paths, and then inverts it.
* Otherwise the fault is the one reason that applies.
* It is a fault of writing numbers exactly if that reason cannot be told. -/
theorem ofSets?_outcome (sets : List (List Int)) (pathCount : Option Int) :
    ((∃ incidence, ofSets? sets pathCount = .ok incidence) ↔
        Fills sets (statedCount sets pathCount)) ∧
      (∀ incidence, ofSets? sets pathCount = .ok incidence →
        Inverts sets (statedCount sets pathCount) incidence) ∧
      (∀ fault, ofSets? sets pathCount = .error fault ↔ Refusal sets pathCount fault) ∧
      (ofSets? sets pathCount = .error (.value .tooManyDigits) ↔ IsUntold sets pathCount) :=
  ⟨ofSets?_ok_iff, fun _ built => inverts_of_ofSets? built, fun _ => ofSets?_eq_error_iff,
    fun refused => (refusal_of_ofSets? refused).isUntold rfl,
    fun untold => ofSets?_eq_error_iff.mpr untold.refusal⟩

/-- A negative path of one digit too many to be written. -/
theorem untold_negative :
    IsListed [[-(10 ^ 4300)]] (-(10 ^ 4300)) ∧
      ofSets? [[-(10 ^ 4300)]] none = .error (.value .tooManyDigits) := by
  refine ⟨⟨_, List.mem_singleton_self _, List.mem_singleton_self _⟩, ?_⟩
  decide +kernel

end Transversal.Incidence
