/-
**Reading a report ends with a solution, or with a fault of the report.**

* `Fault.isOfReport`: the faults of a report.
* `Report.Reads`: a step of reading returns something with a property, or ends with such a fault.
* `Report.IsReported`: what a report can tell of; `Report.reads_parse`: reading a whole report.
* `Report.ends_read?`: a file may also stop being text; `Report.read?_of_text`: otherwise its lines
  are read.
-/
import Transversal.Fractional.Report
import Transversal.Proofs.Fractional.Accepted
import Transversal.Proofs.Number.Numeral
import Transversal.Proofs.Text.Lines
import Transversal.Proofs.Text.Utf8

namespace Transversal

/-- A fault of a report: what is wrong with the text, or with the solution that it tells of. -/
def Fault.isOfReport : Fault → Bool
  | .report _ | .inconsistent .. => true
  | _ => false

/-- Every check of a solution is one of reports, if the number of sets can be told. -/
theorem Fractional.ends_make? (pathCount : Int) {setCount : Int} (writable : isWritable setCount)
    (objective : Binary64) (activities : List Binary64) :
    Except.Ends (fun fractional => fractional.IsAccepted ∧ fractional.pathCount = pathCount)
      (fun fault => fault.isOfReport) (make? pathCount setCount objective activities) := by
  have checks : Except.Ends (fun _ => True) (fun fault => fault.isOfReport)
      (make? pathCount setCount objective activities) := by
    unfold make?
    rw [Fault.quoting_of_told (by simpa using writable)]
    refine Except.ends_check rfl ?_
    cases firstBad? activities with
    | some found => rfl
    | none =>
      refine Except.ends_check rfl ?_
      dsimp only
      generalize activityTolerance.le (discrepancy (Binary64.sum activities) objective) = apart
      exact Except.ends_check rfl trivial
  cases made : make? pathCount setCount objective activities with
  | ok fractional =>
    obtain ⟨_, _, _, _, rfl⟩ := make?_eq_ok_iff.mp made
    exact ⟨⟨pathCount, setCount, objective, activities, made⟩, rfl⟩
  | error fault => exact checks.of_error made

namespace Report

variable {α β : Type} {good : α → Prop}

/-- **A step of reading a report** returns something with a property, or ends with a fault of the
report. -/
def Reads (good : α → Prop) (reading : Reading α) : Prop :=
  ∀ start, Except.Ends (fun ended => good ended.1) (fun fault => fault.isOfReport)
    (reading.run start)

theorem Reads.bind {reading : Reading α} {next : α → Reading β} {other : β → Prop}
    (before : Reads good reading) (afterwards : ∀ value, good value → Reads other (next value)) :
    Reads other (reading >>= next) := by
  intro start
  rw [StateT.run_bind]
  exact (before start).bind fun ended holds => afterwards ended.1 holds ended.2

theorem reads_lift {result : Except Fault α}
    (ends : Except.Ends good (fun fault => fault.isOfReport) result) :
    Reads good (liftM result : Reading α) := by
  intro start
  cases result with
  | error fault => exact ends
  | ok value => exact ends

theorem reads_nextLine {atEnd : Fault} (told : atEnd.isOfReport) :
    Reads (fun _ => True) (nextLine atEnd) := by
  rintro ⟨number, lines⟩
  cases lines with
  | nil => exact told
  | cons line rest => trivial

theorem reads_skipLines {atEnd : Fault} (told : atEnd.isOfReport) (count : Nat) :
    Reads (fun _ => True) (skipLines atEnd count) := by
  rintro ⟨number, lines⟩
  show Except.Ends _ _ ((if lines.length < count then _ else _ : Reading Unit).run _)
  split
  · exact told
  · trivial

theorem ends_wordAt (line : Numbered) (place : Nat) :
    Except.Ends (fun _ => True) (fun fault => fault.isOfReport) (wordAt line place) := by
  unfold wordAt
  dsimp only
  split
  · trivial
  · rfl

theorem ends_countOf (line : Numbered) :
    Except.Ends (fun count : Nat => isWritable count) (fun fault => fault.isOfReport)
      (countOf line) := by
  refine (ends_wordAt line 1).bind fun word _ => ?_
  cases read : readInteger? word with
  | none => rfl
  | some value =>
    show Except.Ends _ _ (if value < 0 then _ else _)
    split
    · rfl
    · rename_i natural
      show isWritable (value.toNat : Int)
      rw [Int.toNat_of_nonneg (Int.not_lt.mp natural)]
      exact isWritable_of_readInteger? read

theorem ends_numberOf (line : Numbered) :
    Except.Ends (fun _ => True) (fun fault => fault.isOfReport) (numberOf line) := by
  refine (ends_wordAt line 3).bind fun word _ => ?_
  cases readBinary64? word with
  | none => rfl
  | some value =>
    show Except.Ends _ _ (if value.isFinite then _ else _)
    split
    · trivial
    · rfl

/-- **What a report can tell of**: an accepted solution, whose number of paths can be written. -/
structure IsReported (fractional : Fractional) : Prop where
  accepted : fractional.IsAccepted
  writable : isWritable fractional.pathCount

section Parse

variable {atEnd : ReportPart → Fault} (told : ∀ part, (atEnd part).isOfReport)

include told

theorem reads_records (count set : Nat) (reversed : List Binary64) :
    Reads (fun _ => True) (records atEnd count set reversed) := by
  induction count generalizing set reversed with
  | zero => exact fun _ => trivial
  | succ count ih =>
    refine (reads_nextLine (told _)).bind fun line _ => ?_
    exact (reads_lift (ends_numberOf line)).bind fun activity _ => ih _ _

/-- **A whole report** tells of an accepted solution, or is refused. -/
theorem reads_parse : Reads IsReported (parse atEnd) := by
  have next := reads_nextLine (told .header)
  refine next.bind fun _ _ => ?_
  refine next.bind fun second _ => (reads_lift (ends_countOf second)).bind
    fun pathCount writable => ?_
  refine next.bind fun third _ => (reads_lift (ends_countOf third)).bind fun setCount short => ?_
  refine next.bind fun _ _ => next.bind fun _ _ => ?_
  refine next.bind fun sixth _ => (reads_lift (ends_numberOf sixth)).bind fun objective _ => ?_
  refine (reads_skipLines (told _) _).bind fun _ _ => ?_
  refine (reads_skipLines (told _) _).bind fun _ _ => ?_
  refine (reads_records told _ _ _).bind fun activities _ => ?_
  refine reads_lift ((Fractional.ends_make? _ short _ _).mono fun fractional => ?_)
  rintro ⟨accepted, same⟩
  exact ⟨accepted, same ▸ writable⟩

end Parse

/-- **A file** tells of an accepted solution, or is refused. -/
theorem ends_read? (file : String) (feed : Feed) :
    Except.Ends IsReported (fun fault => fault.isOfReport) (read? file feed) := by
  unfold read?
  cases feed.flaw with
  | none => exact (reads_parse (fun _ => rfl) ⟨1, feed.lines⟩).map
  | some flaw => exact (reads_parse (fun _ => rfl) ⟨1, feed.lines⟩).map

/-- Where bytes are those of a text, its lines are read. -/
theorem read?_of_text (file : String) (text : List Char) :
    read? file (.ofBytes (Utf8.encode text)) = ofLines? (textLines text) := by
  rw [read?, Feed.ofBytes_encode]
  rfl

end Report

end Transversal
