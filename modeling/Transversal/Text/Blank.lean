/-
Blanks and the words between them.

* `isBlank`: the characters that separate words, those of the Unicode property White_Space and the
  four separators U+001C to U+001F.
* `words`: the longest runs without a blank.
* `trim`: a text without the blanks at its ends.
-/

namespace Transversal

/-- The blanks: tabulators and line ends, the information separators, the next-line control and
the spaces of every width. -/
def isBlank (c : Char) : Bool :=
  let code := c.toNat
  (0x9 ≤ code && code ≤ 0xD) || (0x1C ≤ code && code ≤ 0x20) || code == 0x85 || code == 0xA0 ||
    code == 0x1680 || (0x2000 ≤ code && code ≤ 0x200A) || code == 0x2028 || code == 0x2029 ||
    code == 0x202F || code == 0x205F || code == 0x3000

/-- The words of a text read from its end, and whether the first of them starts the text. -/
structure WordScan where
  found : List (List Char)
  atStart : Bool

/-- One more character in front: a blank closes the first word, any other character extends it or
starts a new one. -/
def WordScan.prepend (c : Char) (scan : WordScan) : WordScan :=
  if isBlank c then ⟨scan.found, false⟩
  else match scan.atStart, scan.found with
    | true, word :: later => ⟨(c :: word) :: later, true⟩
    | _, later => ⟨[c] :: later, true⟩

/-- The longest runs of characters that are not blank, in order. -/
def words (text : List Char) : List (List Char) :=
  (text.foldr WordScan.prepend ⟨[], false⟩).found

/-- A text without the blanks at its two ends. -/
def trim (text : List Char) : List Char :=
  ((text.dropWhile isBlank).reverse.dropWhile isBlank).reverse

end Transversal
