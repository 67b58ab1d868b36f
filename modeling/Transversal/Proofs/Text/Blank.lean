/-
**The words of a line are what stands between its blanks.**

* `words_eq`: in terms of the core library's splitting, without the empty pieces.
* `words_cons_blank`, `words_word`: a blank in front changes nothing, and a word in front is the
  first one if it ends there.
* `exists_solid`: what does not begin with a blank begins with a word.
-/
import Transversal.Text.Blank

namespace Transversal

/-- **What stands between the blanks of a line**, where it is not empty. -/
def tokens (line : List Char) : List (List Char) :=
  (line.splitOnP isBlank).filter (!·.isEmpty)

/-- The words read so far, by the pieces between the blanks; the first piece tells whether a word
may grow. -/
theorem scan_eq (line : List Char) :
    let scan := line.foldr WordScan.prepend ⟨[], false⟩
    ∃ first later, line.splitOnP isBlank = first :: later ∧
      scan = ⟨(first :: later).filter (!·.isEmpty), !first.isEmpty⟩ := by
  induction line with
  | nil => exact ⟨[], [], rfl, rfl⟩
  | cons c rest ih =>
    obtain ⟨first, later, pieces, scan⟩ := ih
    dsimp only at scan ⊢
    rw [List.splitOnP_cons_eq_if_modifyHead, List.foldr_cons, scan, pieces, WordScan.prepend]
    by_cases blank : isBlank c
    · rw [if_pos blank, if_pos blank]
      exact ⟨[], first :: later, rfl, rfl⟩
    · rw [if_neg blank, if_neg blank]
      refine ⟨c :: first, later, rfl, ?_⟩
      cases first <;> rfl

theorem words_eq (line : List Char) : words line = tokens line := by
  obtain ⟨first, later, pieces, scan⟩ := scan_eq line
  rw [words, scan, tokens, pieces]

theorem words_cons_blank {c : Char} (blank : isBlank c) (rest : List Char) :
    words (c :: rest) = words rest := by
  rw [words_eq, words_eq, tokens, tokens, List.splitOnP_cons_eq_if_modifyHead, if_pos blank]
  rfl

/-- **A text without blanks.** -/
def IsSolid (text : List Char) : Prop := ∀ c ∈ text, isBlank c = false

/-- No piece between blanks has one. -/
theorem isSolid_of_mem_splitOnP {line : List Char} :
    ∀ piece ∈ line.splitOnP isBlank, IsSolid piece := by
  induction line with
  | nil => simp [IsSolid]
  | cons c rest ih =>
    rw [List.splitOnP_cons_eq_if_modifyHead]
    by_cases blank : isBlank c
    · rw [if_pos blank]
      exact List.forall_mem_cons.mpr ⟨fun _ none => (List.not_mem_nil none).elim, ih⟩
    · obtain ⟨first, later, pieces⟩ :=
        List.exists_cons_of_ne_nil (List.splitOnP_ne_nil isBlank rest)
      rw [pieces, List.forall_mem_cons] at ih
      rw [if_neg blank, pieces]
      exact List.forall_mem_cons.mpr
        ⟨List.forall_mem_cons.mpr ⟨Bool.not_eq_true _ ▸ blank, ih.1⟩, ih.2⟩

theorem isSolid_of_mem_words {line word : List Char} (member : word ∈ words line) :
    IsSolid word := by
  rw [words_eq] at member
  exact isSolid_of_mem_splitOnP word ((List.mem_filter.mp member).1)

/-- A word ends here: at the end of the line, or before a blank. -/
def EndsWord (rest : List Char) : Prop := ∀ c ∈ rest.head?, isBlank c

theorem words_word {word rest : List Char} (inhabited : word ≠ []) (solid : IsSolid word)
    (ends : EndsWord rest) : words (word ++ rest) = word :: words rest := by
  have some_word : (!word.isEmpty) = true := by simpa using inhabited
  rw [words_eq, words_eq, tokens, tokens]
  cases rest with
  | nil =>
    rw [List.append_nil, List.splitOnP_eq_singleton solid, List.filter_cons, if_pos some_word]
    rfl
  | cons c rest =>
    have blank : isBlank c = true := ends c rfl
    rw [List.splitOnP_append_cons_of_forall_mem solid c blank,
      List.splitOnP_cons_eq_if_modifyHead, if_pos blank, List.filter_cons, if_pos some_word]
    rfl

/-- What does not begin with a blank begins with a word. -/
theorem exists_solid {c : Char} (solid : isBlank c = false) (rest : List Char) :
    ∃ word later, c :: rest = word ++ later ∧ word ≠ [] ∧ IsSolid word ∧ EndsWord later := by
  refine ⟨(c :: rest).takeWhile (!isBlank ·), (c :: rest).dropWhile (!isBlank ·),
    List.takeWhile_append_dropWhile.symm, ?_, ?_, ?_⟩
  · rw [List.takeWhile_cons, solid]
    exact List.cons_ne_nil _ _
  · intro letter member
    simpa using List.all_eq_true.mp List.all_takeWhile letter member
  · intro letter first
    have stopped := List.head?_dropWhile_not (!isBlank ·) (c :: rest)
    rw [Option.mem_def.mp first] at stopped
    simpa using stopped

end Transversal
