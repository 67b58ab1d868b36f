/-
A value that may have been left blank.

* `Given`: what stands in the place of a value: the value, or nothing.
* `Given.require`: the value, for a use that cannot do without it.
-/
import Transversal.Fault

namespace Transversal

/-- What stands in the place of a value. -/
inductive Given (α : Type)
  | blank
  | value (value : α)
deriving DecidableEq

namespace Given

/-- The value; a blank is a fault of what it was meant for. -/
def require {α : Type} (meant : Blank) : Given α → Except Fault α
  | .blank => .error (.blank meant)
  | .value content => .ok content

/-- The value as text. A blank is an empty list of values. -/
def text {α : Type} [ToString α] : Given α → String
  | .blank => "[]"
  | .value content => toString content

end Given

end Transversal
