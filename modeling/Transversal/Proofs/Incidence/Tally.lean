/-
**How often the members of a list of sets hit a path.**

A relation may be bare: its two directions may disagree, a set may list a path twice, and an index
may count from the end or denote nothing. Everything here holds of any relation.

* `visits`: how many entries of a list of indices denote a place.
* `Incidence.tally`: how many entries of the listed sets denote a path.
* `Incidence.unhit?_eq_ok_iff`: the paths left unhit are those with the tally zero, and there is
  nothing to read them from only if some set, or a path of it, denotes no place.
* `Incidence.isCover?_eq_true_iff`: a cover is a list of readable sets that leaves no tally zero.
-/
import Mathlib.Algebra.Order.BigOperators.Group.List
import Mathlib.Algebra.Order.Ring.Nat
import Transversal.Incidence
import Transversal.Proofs.Fallible

namespace Transversal

/-! ### Indices and the places they denote -/

/-- How many entries of a list of indices denote a place among so many. -/
def visits (size : Nat) (indices : List Int) (place : Nat) : Nat :=
  indices.countP fun index => place? size index = some place

@[simp] theorem visits_nil (size place : Nat) : visits size [] place = 0 := rfl

theorem visits_cons (size : Nat) (index : Int) (rest : List Int) (place : Nat) :
    visits size (index :: rest) place =
      visits size rest place + if place? size index = some place then 1 else 0 := by
  simp [visits, List.countP_cons]

theorem visits_append (size : Nat) (first second : List Int) (place : Nat) :
    visits size (first ++ second) place = visits size first place + visits size second place :=
  List.countP_append

theorem visits_pos_iff {size : Nat} {indices : List Int} {place : Nat} :
    0 < visits size indices place ↔ ∃ index ∈ indices, place? size index = some place := by
  simp [visits, List.countP_pos_iff]

namespace Incidence

variable {incidence : Incidence}

/-- The paths that a set lists, and none if the index denotes no set. -/
def listed (incidence : Incidence) (set : Int) : List Int :=
  (entryAt? incidence.sets set).getD []

/-- The index denotes a set, and every path that the set lists denotes a path. -/
def Readable (incidence : Incidence) (set : Int) : Prop :=
  (entryAt? incidence.sets set).isSome ∧
    ∀ path ∈ incidence.listed set, (place? incidence.pathCount path).isSome

/-- How many entries of the given sets denote a path. -/
def tally (incidence : Incidence) (cover : List Int) (path : Nat) : Nat :=
  (cover.map fun set => visits incidence.pathCount (incidence.listed set) path).sum

@[simp] theorem tally_nil (path : Nat) : incidence.tally [] path = 0 := rfl

@[simp] theorem tally_cons (set : Int) (rest : List Int) (path : Nat) :
    incidence.tally (set :: rest) path =
      visits incidence.pathCount (incidence.listed set) path + incidence.tally rest path := by
  simp [tally]

@[simp] theorem tally_append (first second : List Int) (path : Nat) :
    incidence.tally (first ++ second) path =
      incidence.tally first path + incidence.tally second path := by
  simp [tally]

/-- The order of the sets does not matter. -/
theorem tally_perm {first second : List Int} (same : first.Perm second) (path : Nat) :
    incidence.tally first path = incidence.tally second path :=
  (same.map _).sum_eq

theorem tally_pos_iff {cover : List Int} {path : Nat} :
    0 < incidence.tally cover path ↔
      ∃ set ∈ cover, 0 < visits incidence.pathCount (incidence.listed set) path := by
  induction cover with
  | nil => simp
  | cons set rest ih =>
    rw [tally_cons, List.exists_mem_cons_iff, ← ih]
    exact Nat.add_pos_iff_pos_or_pos

/-- A member taken out takes its entries with it. -/
theorem tally_erase {cover : List Int} {set : Int} (member : set ∈ cover) (path : Nat) :
    incidence.tally cover path =
      visits incidence.pathCount (incidence.listed set) path +
        incidence.tally (cover.erase set) path := by
  rw [tally_perm (List.perm_cons_erase member), tally_cons]

/-! ### Reading the paths of a set -/

/-- An index finds an entry if it denotes a place. -/
theorem isSome_entryAt?_iff {entries : Array (List Int)} {set : Int} :
    (entryAt? entries set).isSome ↔ (place? entries.size set).isSome := by
  rw [entryAt?]
  cases denotes : place? entries.size set with
  | none => rfl
  | some place => simp [place?_lt denotes]

theorem pathsOf?_eq_ok_iff {set : Int} {paths : List Int} :
    incidence.pathsOf? set = .ok paths ↔ entryAt? incidence.sets set = some paths := by
  unfold pathsOf?
  cases entryAt? incidence.sets set <;> simp

theorem pathsOf?_eq_ok {set : Int} (found : (entryAt? incidence.sets set).isSome) :
    incidence.pathsOf? set = .ok (incidence.listed set) := by
  obtain ⟨paths, found⟩ := Option.isSome_iff_exists.mp found
  rw [pathsOf?_eq_ok_iff, listed, found, Option.getD_some]

/-- The two ways in which a look-up of the paths of a set can end. -/
theorem pathsOf?_cases (incidence : Incidence) (set : Int) :
    (∃ fault, incidence.pathsOf? set = .error fault ∧
      ¬ (entryAt? incidence.sets set).isSome) ∨
    (incidence.pathsOf? set = .ok (incidence.listed set) ∧
      (entryAt? incidence.sets set).isSome) := by
  unfold pathsOf? listed
  cases entryAt? incidence.sets set with
  | none => exact .inl ⟨_, rfl, by simp⟩
  | some paths => exact .inr ⟨rfl, rfl⟩

/-! ### Marks -/

theorem markPath?_eq_ok_iff {marks after : Array Bool} {path : Int} :
    markPath? marks path = .ok after ↔
      ∃ place, place? marks.size path = some place ∧ after = marks.setIfInBounds place true := by
  unfold markPath?
  cases place? marks.size path with
  | none => simp
  | some place => simp [eq_comm]

theorem getElem?_setIfInBounds_eq_true {marks : Array Bool} {place other : Nat}
    (inRange : place < marks.size) :
    (marks.setIfInBounds place true)[other]? = some true ↔
      marks[other]? = some true ∨ place = other := by
  rw [Array.getElem?_setIfInBounds]
  by_cases same : place = other
  · subst same
    simp [inRange]
  · simp [same]

/-- A list of paths marks what it visits. -/
theorem foldlM_markPath? {paths : List Int} {marks after : Array Bool}
    (run : paths.foldlM markPath? marks = .ok after) :
    after.size = marks.size ∧
      ∀ place, after[place]? = some true ↔
        marks[place]? = some true ∨ 0 < visits marks.size paths place := by
  refine Except.foldlM_ok_induct
    (fun seen (now : Array Bool) => now.size = marks.size ∧
      ∀ place, now[place]? = some true ↔
        marks[place]? = some true ∨ 0 < visits marks.size seen place)
    (by
      rintro seen before path now ⟨size, marked⟩ stepped
      obtain ⟨found, denotes, rfl⟩ := markPath?_eq_ok_iff.mp stepped
      refine ⟨by rw [Array.size_setIfInBounds, size], fun place => ?_⟩
      rw [getElem?_setIfInBounds_eq_true (place?_lt denotes), marked, visits_append, visits_cons,
        visits_nil, ← size, denotes, or_assoc]
      by_cases same : found = place
      · simp [same]
      · simp [same])
    ⟨rfl, by simp⟩ run

theorem foldlM_markPath?_ok_iff {paths : List Int} {marks : Array Bool} :
    (∃ after, paths.foldlM markPath? marks = .ok after) ↔
      ∀ path ∈ paths, (place? marks.size path).isSome := by
  refine Except.foldlM_eq_ok_iff (fun now => now.size = marks.size)
    (fun path => (place? marks.size path).isSome) ?_ ?_ rfl
  · intro before path size
    simp only [markPath?_eq_ok_iff, Option.isSome_iff_exists, size]
    exact ⟨fun ⟨_, place, denotes, _⟩ => ⟨place, denotes⟩,
      fun ⟨place, denotes⟩ => ⟨_, place, denotes, rfl⟩⟩
  · intro before path after size stepped
    obtain ⟨place, _, rfl⟩ := markPath?_eq_ok_iff.mp stepped
    rw [Array.size_setIfInBounds, size]

theorem markSet?_eq_ok_iff {marks after : Array Bool} {set : Int} :
    incidence.markSet? marks set = .ok after ↔
      (entryAt? incidence.sets set).isSome ∧
        (incidence.listed set).foldlM markPath? marks = .ok after := by
  unfold markSet?
  rcases pathsOf?_cases incidence set with ⟨fault, failed, missing⟩ | ⟨read, found⟩
  · rw [failed]
    constructor
    · intro run
      cases run
    · intro ⟨found, _⟩
      exact absurd found missing
  · rw [read]
    exact ⟨fun run => ⟨found, run⟩, fun run => run.2⟩

/-- A list of sets marks what it hits. -/
theorem foldlM_markSet? {cover : List Int} {marks after : Array Bool}
    (size : marks.size = incidence.pathCount)
    (run : cover.foldlM incidence.markSet? marks = .ok after) :
    after.size = marks.size ∧
      ∀ place, after[place]? = some true ↔
        marks[place]? = some true ∨ 0 < incidence.tally cover place := by
  refine Except.foldlM_ok_induct
    (fun seen (now : Array Bool) => now.size = marks.size ∧
      ∀ place, now[place]? = some true ↔
        marks[place]? = some true ∨ 0 < incidence.tally seen place)
    (by
      rintro seen before set now ⟨same, marked⟩ stepped
      obtain ⟨_, stepped⟩ := markSet?_eq_ok_iff.mp stepped
      obtain ⟨kept, further⟩ := foldlM_markPath? stepped
      refine ⟨kept.trans same, fun place => ?_⟩
      rw [further, marked, tally_append, tally_cons, tally_nil, same, size, or_assoc,
        Nat.add_zero, Nat.add_pos_iff_pos_or_pos])
    ⟨rfl, by simp⟩ run

theorem foldlM_markSet?_ok_iff {cover : List Int} {marks : Array Bool}
    (size : marks.size = incidence.pathCount) :
    (∃ after, cover.foldlM incidence.markSet? marks = .ok after) ↔
      ∀ set ∈ cover, incidence.Readable set := by
  refine Except.foldlM_eq_ok_iff (fun now => now.size = incidence.pathCount)
    incidence.Readable ?_ ?_ size
  · intro before set same
    rw [Readable, ← same, ← foldlM_markPath?_ok_iff]
    simp only [markSet?_eq_ok_iff, exists_and_left]
  · intro before set after same stepped
    rw [(foldlM_markPath? (markSet?_eq_ok_iff.mp stepped).2).1, same]

/-- The paths that a list of sets does not hit, in rising order. -/
def unhitBy (incidence : Incidence) (cover : List Int) : List Nat :=
  (List.range incidence.pathCount).filter fun path => incidence.tally cover path = 0

/-- **The paths left unhit** are those with the tally zero. -/
theorem unhit?_eq_ok_iff {cover : List Int} {unhit : List Nat} :
    incidence.unhit? cover = .ok unhit ↔
      (∀ set ∈ cover, incidence.Readable set) ∧ unhit = incidence.unhitBy cover := by
  have size : (Array.replicate incidence.pathCount false).size = incidence.pathCount :=
    Array.size_replicate
  rw [← foldlM_markSet?_ok_iff size, unhit?, Except.bind_eq_ok_iff]
  have marked : ∀ marks,
      cover.foldlM incidence.markSet? (Array.replicate incidence.pathCount false) = .ok marks →
      ((List.range incidence.pathCount).filter fun path => marks[path]? = some false) =
        incidence.unhitBy cover := by
    intro marks run
    obtain ⟨kept, hit⟩ := foldlM_markSet? size run
    refine List.filter_congr fun path member => ?_
    have inRange : path < marks.size := by
      rw [kept, size]
      exact List.mem_range.mp member
    have hit := hit path
    rw [Array.getElem?_eq_getElem inRange] at hit ⊢
    simp only [Array.getElem?_replicate, Option.some.injEq] at hit ⊢
    cases marked : marks[path] with
    | false => simp_all
    | true => simp_all [Nat.pos_iff_ne_zero]
  constructor
  · rintro ⟨marks, run, rest⟩
    cases rest
    exact ⟨⟨marks, run⟩, marked marks run⟩
  · rintro ⟨⟨marks, run⟩, rfl⟩
    exact ⟨marks, run, by rw [marked marks run]; rfl⟩

theorem unhitBy_eq_nil_iff {cover : List Int} :
    incidence.unhitBy cover = [] ↔
      ∀ path < incidence.pathCount, 0 < incidence.tally cover path := by
  simp only [unhitBy, List.filter_eq_nil_iff, List.mem_range, decide_eq_true_eq,
    Nat.pos_iff_ne_zero, ne_eq]

/-- A further set hits some of the paths that were unhit. -/
theorem unhitBy_append (cover : List Int) (set : Int) :
    incidence.unhitBy (cover ++ [set]) = (incidence.unhitBy cover).filter
      fun path => visits incidence.pathCount (incidence.listed set) path = 0 := by
  rw [unhitBy, unhitBy, List.filter_filter]
  refine List.filter_congr fun path _ => ?_
  simp [Bool.and_comm]

/-- Fewer paths are unhit after a set that hits one of them. -/
theorem length_unhitBy_append_lt {cover : List Int} {set : Int} {path : Nat}
    (within : path < incidence.pathCount) (unhit : incidence.tally cover path = 0)
    (hits : 0 < visits incidence.pathCount (incidence.listed set) path) :
    (incidence.unhitBy (cover ++ [set])).length < (incidence.unhitBy cover).length := by
  rw [unhitBy_append, List.length_filter_lt_length_iff_exists]
  refine ⟨path, by simp [unhitBy, within, unhit], ?_⟩
  simpa using Nat.ne_of_gt hits

/-- Readable sets are a cover if they leave no path unhit. -/
theorem isCover?_eq_ok {cover : List Int} (readable : ∀ set ∈ cover, incidence.Readable set) :
    incidence.isCover? cover =
      .ok (decide (∀ path < incidence.pathCount, 0 < incidence.tally cover path)) := by
  rw [isCover?, unhit?_eq_ok_iff.mpr ⟨readable, rfl⟩]
  refine congrArg Except.ok ?_
  rw [Bool.eq_iff_iff, decide_eq_true_eq, ← unhitBy_eq_nil_iff, List.isEmpty_iff]

/-- **A cover** is a list of readable sets that leaves no path unhit. -/
theorem isCover?_eq_true_iff {cover : List Int} :
    incidence.isCover? cover = .ok true ↔
      (∀ set ∈ cover, incidence.Readable set) ∧
        ∀ path < incidence.pathCount, 0 < incidence.tally cover path := by
  rw [isCover?, Except.map_eq_ok_iff]
  simp only [unhit?_eq_ok_iff, ← unhitBy_eq_nil_iff, List.isEmpty_iff]
  constructor
  · rintro ⟨unhit, ⟨readable, rfl⟩, empty⟩
    exact ⟨readable, empty⟩
  · rintro ⟨readable, empty⟩
    exact ⟨_, ⟨readable, rfl⟩, empty⟩

end Incidence

end Transversal
