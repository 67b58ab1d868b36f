/-
**How lines end makes no difference.**

A line ends with a line feed, a carriage return, or a pair of the two.

* `withLineEnds`: a text with all its line ends in one style.
* `splitLines_withLineEnds`: the pieces are those of the text.
* `textLines`: what the lines are, in terms of the core library's splitting at one character;
  `linesOf_eq`.
* `Feed.ofBytes_encode`: the bytes of a text have these lines.
* `linesOf_joined`: lines are found again in the text that they make.
-/
import Transversal.Proofs.Text.Utf8
import Transversal.Text.Lines

namespace Transversal

/-- **A style of line ends.** -/
inductive LineEnd
  | feed
  | carriage
  | pair
deriving DecidableEq

/-- The characters of a line end. -/
def LineEnd.text : LineEnd → List Char
  | .feed => ['\n']
  | .carriage => ['\r']
  | .pair => ['\r', '\n']

/-- **A text with all its line ends in one style.** -/
def withLineEnds (style : LineEnd) : List Char → List Char
  | [] => []
  | '\r' :: '\n' :: rest => style.text ++ withLineEnds style rest
  | c :: rest =>
    if c = '\r' ∨ c = '\n' then style.text ++ withLineEnds style rest
    else c :: withLineEnds style rest

/-! ### One line end in front -/

theorem startsWithFeed_iff (text : List Char) :
    (text.foldr LineScan.prepend ⟨[], [], false⟩).startsWithFeed ↔ text.head? = some '\n' := by
  cases text with
  | nil => simp
  | cons c rest =>
    rw [List.foldr_cons, LineScan.prepend, List.head?_cons, Option.some_inj]
    by_cases feed : c = '\n'
    · simp [feed]
    · simp only [feed, if_false]
      split
      · split <;> simp
      · simp

theorem splitLines_feed (rest : List Char) :
    splitLines ('\n' :: rest) = [] :: splitLines rest := rfl

theorem splitLines_pair (rest : List Char) :
    splitLines ('\r' :: '\n' :: rest) = [] :: splitLines rest := rfl

theorem splitLines_carriage {rest : List Char} (single : rest.head? ≠ some '\n') :
    splitLines ('\r' :: rest) = [] :: splitLines rest := by
  have starts := mt (startsWithFeed_iff rest).mp single
  unfold splitLines
  rw [List.foldr_cons, LineScan.prepend, if_neg (by decide), if_pos rfl, if_neg starts]

theorem splitLines_cons {c : Char} (inside : ¬ (c = '\r' ∨ c = '\n')) (rest : List Char) :
    splitLines (c :: rest) = (splitLines rest).modifyHead (c :: ·) := by
  rw [not_or] at inside
  unfold splitLines
  rw [List.foldr_cons, LineScan.prepend, if_neg inside.2, if_neg inside.1]
  rfl

/-! ### All line ends -/

theorem head?_withLineEnds_carriage (text : List Char) :
    (withLineEnds .carriage text).head? ≠ some '\n' := by
  fun_cases withLineEnds with
  | case1 => simp
  | case2 rest => simp [LineEnd.text]
  | case3 c rest _ ends => simp [LineEnd.text]
  | case4 c rest _ inside => simpa using fun feed => inside (.inr feed)

/-- A line end of any style cuts. -/
theorem splitLines_end (style : LineEnd) (text : List Char) :
    splitLines (style.text ++ withLineEnds style text) =
      [] :: splitLines (withLineEnds style text) := by
  cases style with
  | feed => exact splitLines_feed _
  | carriage => exact splitLines_carriage (head?_withLineEnds_carriage text)
  | pair => exact splitLines_pair _

/-- **The pieces of a text are the same in every style.** -/
theorem splitLines_withLineEnds (style : LineEnd) (text : List Char) :
    splitLines (withLineEnds style text) = splitLines text := by
  fun_induction withLineEnds with
  | case1 => rfl
  | case2 rest ih => rw [splitLines_end, ih, splitLines_pair]
  | case3 c rest single ends ih =>
    rw [splitLines_end, ih]
    obtain rfl | rfl := ends
    · refine (splitLines_carriage fun feed => ?_).symm
      obtain ⟨later, rfl⟩ := List.head?_eq_some_iff.mp feed
      exact single later rfl rfl
    · rfl
  | case4 c rest _ inside ih => rw [splitLines_cons inside, splitLines_cons inside, ih]

/-! ### Splitting at one character -/

/-- **The lines of a text**: the pieces between its line feeds, when all its line ends are such.
An empty piece after the last one is no line. -/
def textLines (text : List Char) : List (List Char) :=
  let pieces := (withLineEnds .feed text).splitOn '\n'
  if pieces.getLast? = some [] then pieces.dropLast else pieces

theorem not_mem_withLineEnds_feed (text : List Char) : '\r' ∉ withLineEnds .feed text := by
  fun_induction withLineEnds with
  | case1 => exact List.not_mem_nil
  | case2 rest ih => simpa [LineEnd.text] using ih
  | case3 c rest _ _ ih => simpa [LineEnd.text] using ih
  | case4 c rest _ inside ih =>
    exact List.not_mem_cons_of_ne_of_not_mem (fun same => inside (.inl same.symm)) ih

theorem splitLines_of_not_mem {text : List Char} (feeds : '\r' ∉ text) :
    splitLines text = text.splitOn '\n' := by
  induction text with
  | nil => rfl
  | cons c rest ih =>
    obtain ⟨other, feeds⟩ := List.ne_and_not_mem_of_not_mem_cons feeds
    rw [List.splitOn_cons_eq_if_modifyHead, ← ih feeds]
    by_cases feed : c = '\n'
    · subst feed
      rfl
    · rw [splitLines_cons (not_or.mpr ⟨Ne.symm other, feed⟩), if_neg (by simpa using feed)]

theorem splitLines_eq (text : List Char) :
    splitLines text = (withLineEnds .feed text).splitOn '\n' := by
  rw [← splitLines_withLineEnds .feed, splitLines_of_not_mem (not_mem_withLineEnds_feed text)]

theorem linesOf_eq (text : List Char) : linesOf text = textLines text := by
  rw [linesOf, textLines, splitLines_eq]

/-- Every kind of line end, and an empty line between two of them. -/
example : textLines "a\r\nb\r\rc\n".toList = ["a".toList, "b".toList, [], "c".toList] := by
  decide +kernel

theorem linesOf_withLineEnds (style : LineEnd) (text : List Char) :
    linesOf (withLineEnds style text) = linesOf text := by
  rw [linesOf, linesOf, splitLines_withLineEnds]

/-- The bytes of a text have its lines. -/
theorem Feed.ofBytes_encode (text : List Char) :
    ofBytes (Utf8.encode text) = ofLines (textLines text) := by
  rw [ofBytes, Utf8.decode_eq_iff.mpr rfl, ← linesOf_eq]
  rfl

theorem Feed.ofBytes_withLineEnds (style : LineEnd) (text : List Char) :
    ofBytes (Utf8.encode (withLineEnds style text)) = ofBytes (Utf8.encode text) := by
  rw [ofBytes_encode, ofBytes_encode, ← linesOf_eq, ← linesOf_eq, linesOf_withLineEnds]

/-- Where no flaw is met, the bytes are those of a text. -/
theorem Feed.exists_text {bytes : List UInt8} (sound : (ofBytes bytes).flaw = none) :
    ∃ text, bytes = Utf8.encode text := by
  unfold ofBytes at sound
  split at sound
  · rename_i text decoded
    exact ⟨text, Utf8.decode_eq_iff.mp decoded⟩
  · cases sound

/-! ### Lines put together -/

/-- The text of lines that end with a line feed. -/
def joined (lines : List (List Char)) : List Char := lines.flatMap (· ++ ['\n'])

/-- A text without line ends. -/
def IsLine (line : List Char) : Prop := '\r' ∉ line ∧ '\n' ∉ line

theorem splitLines_append_feed {line : List Char} (isLine : IsLine line) (rest : List Char) :
    splitLines (line ++ '\n' :: rest) = line :: splitLines rest := by
  induction line with
  | nil => rfl
  | cons c line ih =>
    simp only [IsLine, List.mem_cons, not_or] at isLine
    rw [List.cons_append, splitLines_cons (by grind), ih ⟨isLine.1.2, isLine.2.2⟩]
    rfl

/-- **Lines are found again in the text that they make**, with line ends of any style. -/
theorem linesOf_joined (style : LineEnd) {lines : List (List Char)}
    (areLines : ∀ line ∈ lines, IsLine line) :
    linesOf (withLineEnds style (joined lines)) = lines := by
  have pieces : splitLines (joined lines) = lines ++ [[]] := by
    induction lines with
    | nil => rfl
    | cons line lines ih =>
      rw [List.forall_mem_cons] at areLines
      rw [joined, List.flatMap_cons, List.append_assoc, List.singleton_append,
        splitLines_append_feed areLines.1, ← joined, ih areLines.2, List.cons_append]
  rw [linesOf_withLineEnds, linesOf, pieces]
  simp

end Transversal
