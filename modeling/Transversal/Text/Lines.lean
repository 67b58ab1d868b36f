/-
The lines of a text file, as far as it can be read.

* `splitLines`: a text cut at line feeds, carriage returns and pairs of the two.
* `Feed.ofBytes`: the lines that can be read before the bytes stop being UTF-8.
-/
import Transversal.Text.Utf8

namespace Transversal

/-- A text cut at its line ends, read from its last character. -/
structure LineScan where
  current : List Char
  later : List (List Char)
  startsWithFeed : Bool

/-- One more character in front. A carriage return before a line feed belongs to that line end. -/
def LineScan.prepend (c : Char) (scan : LineScan) : LineScan :=
  if c = '\n' then ⟨[], scan.current :: scan.later, true⟩
  else if c = '\r' then
    if scan.startsWithFeed then { scan with startsWithFeed := false }
    else ⟨[], scan.current :: scan.later, false⟩
  else ⟨c :: scan.current, scan.later, false⟩

/-- The pieces between the line ends; the last one is what follows the last line end. -/
def splitLines (text : List Char) : List (List Char) :=
  let scan := text.foldr LineScan.prepend ⟨[], [], false⟩
  scan.current :: scan.later

/-- The lines of a text; an empty piece after the last line end is no line. -/
def linesOf (text : List Char) : List (List Char) :=
  let pieces := splitLines text
  if pieces.getLast? = some [] then pieces.dropLast else pieces

/-- The lines that come before bytes that cannot be read. The last piece has no line end yet, and
a carriage return at the very end may be the first half of one, so both wait for more text. -/
def completeLines (text : List Char) : List (List Char) :=
  let complete := (splitLines text).dropLast
  if text.getLast? = some '\r' then complete.dropLast else complete

/-- Lines to be read one by one, and what is met after the last one: the end, or a flaw. -/
structure Feed where
  lines : List (List Char)
  flaw : Option Utf8.Flaw

namespace Feed

/-- Lines that are known already. -/
def ofLines (lines : List (List Char)) : Feed := ⟨lines, none⟩

/-- The lines of a file. -/
def ofBytes (bytes : List UInt8) : Feed :=
  match Utf8.decode bytes with
  | (text, none) => ⟨linesOf text, none⟩
  | (text, some flaw) => ⟨completeLines text, some flaw⟩

end Feed

end Transversal
