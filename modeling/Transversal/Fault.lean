/-
Everything that can go wrong, by cause, and the message for it.

* `Fault`: the causes, in families that callers tell apart.
* `Fault.message`: the text that is shown.
* `Fault.quoting`: the fault of a message that writes numbers of any length.
-/
import Transversal.Number.Decimal
import Transversal.Number.Word
import Transversal.Text.Quoted
import Transversal.Text.Utf8

namespace Transversal

/-- The parts of a relaxation report, for a report that ends too early. -/
inductive ReportPart
  | header
  | constraints
  | record (set : Nat)
deriving DecidableEq

/-- Why a relaxation report, or a fractional solution, is refused. -/
inductive ReportFlaw
  | endsEarly (reading : ReportPart)
  | fewWords (line needed found : Nat)
  | notInteger (line : Nat) (word : List Char)
  | negativeCount (line : Nat) (value : Int)
  | notNumber (line : Nat) (word : List Char)
  | notFinite (line : Nat) (word : List Char)
  | notText (file : String) (flaw : Utf8.Flaw)
  | activityCount (expected : Int) (found : Nat)
  | activityRange (set : Nat) (activity : Binary64)
  | objectiveNotFinite (objective : Binary64)
deriving DecidableEq

/-- Why a coverage file, or a family of path lists, is refused. -/
inductive CoverageFlaw
  | notIntegers (line : Nat) (text : List Char)
  | negativePath (set : Nat) (path : Int)
  | notText (file : String) (flaw : Utf8.Flaw)
deriving DecidableEq

/-- How an incidence relation and a stated size disagree. -/
inductive Mismatch
  | pathOutOfRange (path count : Int)
  | pathCounts (inCoverage : Nat) (inReport : Int)
  | setCounts (inCoverage inReport : Nat)
  | derivedCounts (paths : Int) (sets : Nat) (reportPaths : Int) (reportSets : Nat)
deriving DecidableEq

/-- Which consistency check failed. -/
inductive Violation
  | hitCount (path set count : Int)
  | pruningIncomplete (unhit : Int)
  | pruningLeft (unhit : Int)
  | constructionLeft (unhit : Int)
  | noGain (unhit : Int)
  | gainLeft (set : Nat) (gain : Int)
deriving DecidableEq

/-- Which value was out of its domain. -/
inductive BadValue
  | unhitCount (stated : Int) (zeros : Nat)
  | weightsNotPositive
  | weightsNotFinite
  | noSets
  | negativeEntropy
  | noFractional
  | workers (count : Int)
  | rounds (count : Int)
  | unknownAlgorithm (name : String)
  | nulInFileName
  | tooManyDigits
  | negativeBits
  | raggedActivities (shape : List Nat)
deriving DecidableEq

/-- What a blank was given for in place of a value. -/
inductive Blank
  | count
  | path
  | seed
  | trials
deriving DecidableEq

/-- Which kind of number had no room for a whole number. -/
inductive Overflow
  | smallWord
  | signedWord
  | unsignedWord (value : Int)
  | double
  | length
  | repeats
deriving DecidableEq

/-- Which look-up went past the end. -/
inductive BadIndex
  | inRelation
  | inList
  | inMarks
  | inEmptyChoice
  | pastWords
deriving DecidableEq

/-- Why a name cannot be opened as a file. -/
inductive NameFlaw
  | missing
  | notDirectory
  | isDirectory
  | nameTooLong
deriving DecidableEq

/-- Why a file could not be used. -/
inductive FileTrouble
  | unusable (flaw : NameFlaw) (name : String)
  | noFolder (name : String)
deriving DecidableEq

/-- A cause of failure. -/
inductive Fault
  | report (flaw : ReportFlaw)
  | inconsistent (sum objective : Binary64)
  | coverage (flaw : CoverageFlaw)
  | mismatch (difference : Mismatch)
  | uncoverable (path : Nat)
  | inactive (path : Nat)
  | violation (check : Violation)
  | relaxation (status : String)
  | value (cause : BadValue)
  | blank (meant : Blank)
  | overflow (cause : Overflow)
  | outOfMemory
  | index (place : BadIndex)
  | noRecords
  | file (trouble : FileTrouble)
deriving DecidableEq

/-- A fault whose message writes some numbers. If one of them is too long to be written, that is
the fault instead. -/
def Fault.quoting (numbers : List Int) (fault : Fault) : Fault :=
  if numbers.all isWritable then fault else .value .tooManyDigits

theorem Fault.quoting_of_told {numbers : List Int} (short : ∀ number ∈ numbers, isWritable number)
    (fault : Fault) : quoting numbers fault = fault :=
  if_pos (List.all_eq_true.mpr short)

theorem Fault.quoting_of_untold {numbers : List Int}
    (long : ¬ ∀ number ∈ numbers, isWritable number) (fault : Fault) :
    quoting numbers fault = .value .tooManyDigits :=
  if_neg (mt List.all_eq_true.mp long)

/-- The numbers are too long only for a fault that is told otherwise. -/
theorem Fault.quoting_eq_tooManyDigits_iff {numbers : List Int} {fault : Fault}
    (told : fault ≠ .value .tooManyDigits) :
    quoting numbers fault = .value .tooManyDigits ↔ ¬ ∀ number ∈ numbers, isWritable number := by
  by_cases short : ∀ number ∈ numbers, isWritable number
  · rw [quoting_of_told short]
    exact iff_of_false told (not_not_intro short)
  · exact iff_of_true (quoting_of_untold short fault) short

/-- The part that a report was read in. -/
def ReportPart.text : ReportPart → String
  | .header => "the header"
  | .constraints => "the constraint section"
  | .record set => s!"the record of set {set}"

/-- The message for an unreadable file. -/
def notTextMessage (file : String) (flaw : Utf8.Flaw) : String :=
  s!"{file}: not a text file ({flaw.reason})"

def ReportFlaw.message : ReportFlaw → String
  | .endsEarly part => s!"LP report ended early while reading {part.text}"
  | .fewWords line needed found =>
    s!"Line {line}: expected at least {needed} tokens, got {found}"
  | .notInteger line word => s!"Line {line}: expected an integer, got {quoted word}"
  | .negativeCount line value => s!"Line {line}: negative count {value}"
  | .notNumber line word => s!"Line {line}: expected a number, got {quoted word}"
  | .notFinite line word => s!"Line {line}: expected a finite number, got {quoted word}"
  | .notText file flaw => notTextMessage file flaw
  | .activityCount expected found => s!"Expected {expected} activities, got {found}"
  | .activityRange set activity =>
    s!"Activity of set {set} must lie in [0, 1], got {activity}"
  | .objectiveNotFinite objective => s!"Objective value must be finite, got {objective}"

def CoverageFlaw.message : CoverageFlaw → String
  | .notIntegers line text => s!"Line {line}: path indices must be integers: {quoted text}"
  | .negativePath set path => s!"Set {set} contains negative path index {path}"
  | .notText file flaw => notTextMessage file flaw

def Mismatch.message : Mismatch → String
  | .pathOutOfRange path count => s!"Path index {path} out of range for {count} paths"
  | .pathCounts inCoverage inReport =>
    s!"Coverage file has {inCoverage} paths but the LP report has {inReport}"
  | .setCounts inCoverage inReport =>
    s!"Coverage file has {inCoverage} sets but the LP report has {inReport}"
  | .derivedCounts paths sets reportPaths reportSets =>
    s!"Coverage file describes {paths} paths and {sets} sets, " ++
      s!"LP report describes {reportPaths} paths and {reportSets} sets"

def Violation.message : Violation → String
  | .hitCount path set count =>
    s!"Path {path} of selected set {set} has coverage count {count}"
  | .pruningIncomplete unhit => s!"Cannot prune a cover leaving {unhit} paths unhit"
  | .pruningLeft unhit => s!"Pruning left {unhit} paths unhit"
  | .constructionLeft unhit => s!"Constructed cover leaves {unhit} paths unhit"
  | .noGain unhit => s!"{unhit} paths left but no set hits any of them"
  | .gainLeft set gain => s!"Set {set} still has gain {gain} after selection"

/-- The lengths of nested lists. -/
def shapeText : List Nat → String
  | [length] => s!"({length},)"
  | shape =>
    let lengths := ", ".intercalate (shape.map toString)
    s!"({lengths})"

def BadValue.message : BadValue → String
  | .unhitCount stated zeros => s!"num_uncovered is {stated} but {zeros} counters are zero"
  | .weightsNotPositive => "Total of weights must be greater than zero"
  | .weightsNotFinite => "Total of weights must be finite"
  | .noSets => "max() arg is an empty sequence"
  | .negativeEntropy => "expected non-negative integer"
  | .noFractional => "LPGuidedSolver requires an LP solution"
  | .workers count => s!"workers must be positive, got {count}"
  | .rounds count => s!"max_rounds must be positive, got {count}"
  | .unknownAlgorithm name => s!"Unknown algorithm: {name}"
  | .nulInFileName => "embedded null byte"
  | .tooManyDigits =>
    "Exceeds the limit (4300 digits) for integer string conversion; " ++
      "use sys.set_int_max_str_digits() to increase the limit"
  | .negativeBits => "number of bits must be non-negative"
  | .raggedActivities shape =>
    "setting an array element with a sequence. The requested array has an inhomogeneous shape " ++
      s!"after {shape.length} dimensions. The detected shape was {shapeText shape} + " ++
      "inhomogeneous part."

def Blank.message : Blank → String
  | .count => "'<' not supported between instances of 'list' and 'int'"
  | .path => "expected str, bytes or os.PathLike object, not list"
  | .seed => "The only supported seed types are: None,\nint, float, str, bytes, and bytearray."
  | .trials => "'list' object cannot be interpreted as an integer"

def Overflow.message : Overflow → String
  | .smallWord => "Python int too large to convert to C int"
  | .signedWord => "Python int too large to convert to C long"
  | .unsignedWord value => s!"Python integer {value} out of bounds for uint64"
  | .double => "int too large to convert to float"
  | .length => "Python int too large to convert to C ssize_t"
  | .repeats => "cannot fit 'int' into an index-sized integer"

def BadIndex.message : BadIndex → String
  | .inRelation => "tuple index out of range"
  | .inList => "list index out of range"
  | .inMarks => "list assignment index out of range"
  | .inEmptyChoice => "Cannot choose from an empty sequence"
  | .pastWords => "cannot fit 'int' into an index-sized integer"

/-- The fault of an index that denotes no place. One that does not fit a word is never compared
with the size. -/
def BadIndex.fault (place : BadIndex) (index : Int) : Fault :=
  .index (if fitsSigned index then place else .pastWords)

/-- The number and the words for a flaw. -/
def NameFlaw.text : NameFlaw → String
  | .missing => "[Errno 2] No such file or directory"
  | .notDirectory => "[Errno 20] Not a directory"
  | .isDirectory => "[Errno 21] Is a directory"
  | .nameTooLong => "[Errno 36] File name too long"

def FileTrouble.message : FileTrouble → String
  | .unusable flaw name => s!"{flaw.text}: {quoted name.toList}"
  | .noFolder name => s!"Cannot save file into a non-existent directory: '{name}'"

/-- How far a sum and a stated value are apart. -/
def discrepancy (sum stated : Binary64) : Binary64 := (sum - stated).abs

/-- A whole number as a double, unless it is too large. -/
def Binary64.ofInt? (value : Int) : Except Fault Binary64 :=
  if (Binary64.ofInt value).isFinite then .ok (.ofInt value) else .error (.overflow .double)

/-- The text that is shown for a fault. -/
def Fault.message : Fault → String
  | .report flaw => flaw.message
  | .inconsistent sum objective =>
    s!"Sum of activities {sum} differs from objective value {objective} by " ++
      (discrepancy sum objective).toText
  | .coverage flaw => flaw.message
  | .mismatch difference => difference.message
  | .uncoverable path => s!"Path {path} is not covered by any set"
  | .inactive path => s!"Path {path} is only covered by sets with zero activity"
  | .violation check => check.message
  | .relaxation status => s!"LP relaxation not solved to optimality: {status}"
  | .value cause => cause.message
  | .blank meant => meant.message
  | .overflow cause => cause.message
  | .outOfMemory => ""
  | .index place => place.message
  | .noRecords => "'solution_size'"
  | .file trouble => trouble.message

end Transversal
