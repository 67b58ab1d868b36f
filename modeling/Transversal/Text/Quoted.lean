/-
Text between quotes, for messages.

* `quoted`: the text between single quotes, or double ones if it holds a single quote and no
  double one; what cannot be shown is escaped.
-/
import Transversal.Text.Printable

namespace Transversal

/-- The last `width` hexadecimal digits of a number, in lower case. -/
def hexDigits (width value : Nat) : List Char :=
  (List.range width).reverse.map fun place => Nat.digitChar (value / Nat.pow 16 place % 16)

/-- A character between the given quotes. -/
def escaped (quote c : Char) : List Char :=
  if c = quote || c = '\\' then ['\\', c]
  else if c = '\n' then ['\\', 'n']
  else if c = '\r' then ['\\', 'r']
  else if c = '\t' then ['\\', 't']
  else if isPrintable c then [c]
  else if c.toNat < 0x100 then '\\' :: 'x' :: hexDigits 2 c.toNat
  else if c.toNat < 0x10000 then '\\' :: 'u' :: hexDigits 4 c.toNat
  else '\\' :: 'U' :: hexDigits 8 c.toNat

/-- A text between quotes. -/
def quoted (text : List Char) : String :=
  let quote := if text.contains '\'' && !text.contains '"' then '"' else '\''
  String.ofList (quote :: text.flatMap (escaped quote) ++ [quote])

end Transversal
