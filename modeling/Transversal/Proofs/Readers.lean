/-
**What the two readers of files make of bytes.**

* `ReadsBytes`: each ends with a result or with a fault of its own, and path lists are returned for
  text only.
* `ReadsText`: text is read by its lines, and the style of their ends makes no difference.
* `readers_keep_to_text`: both hold of all bytes and of all texts.
-/
import Transversal.Proofs.Fractional.Read
import Transversal.Proofs.Incidence.Coverage

namespace Transversal

open Utf8 (encode)

/-- **What the readers make of bytes**: they fail with faults of their own only, and path lists are
returned exactly if the bytes are those of a text whose lines have these lists. -/
structure ReadsBytes (file : String) (bytes : List UInt8) : Prop where
  coverage_ends : Except.Ends (fun _ => True) (fun fault => fault.isOfCoverage)
    (Coverage.read? file (.ofBytes bytes))
  coverage_lists : ∀ sets, Coverage.read? file (.ofBytes bytes) = .ok sets ↔
    ∃ text, bytes = encode text ∧ Coverage.ofLines? (textLines text) = .ok sets
  report_ends : Except.Ends Report.IsReported (fun fault => fault.isOfReport)
    (Report.read? file (.ofBytes bytes))

/-- **What the readers make of a text**: a report is read by its lines, and line ends of another
style change the outcome of neither. -/
structure ReadsText (file : String) (text : List Char) : Prop where
  report_lines : Report.read? file (.ofBytes (encode text)) = Report.ofLines? (textLines text)
  coverage_styles : ∀ style, Coverage.read? file (.ofBytes (encode (withLineEnds style text))) =
    Coverage.read? file (.ofBytes (encode text))
  report_styles : ∀ style, Report.read? file (.ofBytes (encode (withLineEnds style text))) =
    Report.read? file (.ofBytes (encode text))

theorem readsBytes (file : String) (bytes : List UInt8) : ReadsBytes file bytes where
  coverage_ends := (Coverage.ends_read? file _).mono fun _ _ => trivial
  coverage_lists sets := by
    constructor
    · intro read
      obtain ⟨sound, _⟩ := (Coverage.ends_read? file _).of_ok read
      obtain ⟨text, rfl⟩ := Feed.exists_text sound
      exact ⟨text, rfl, Coverage.read?_of_text file text ▸ read⟩
    · rintro ⟨text, rfl, read⟩
      rw [Coverage.read?_of_text, read]
  report_ends := Report.ends_read? file _

theorem readsText (file : String) (text : List Char) : ReadsText file text where
  report_lines := Report.read?_of_text file text
  coverage_styles style := by rw [Feed.ofBytes_withLineEnds]
  report_styles style := by rw [Feed.ofBytes_withLineEnds]

/-- **Readers keep to text**: on all bytes they fail with their own faults only, and all that they
see of a text is its lines. -/
theorem readers_keep_to_text (file : String) :
    (∀ bytes, ReadsBytes file bytes) ∧ ∀ text, ReadsText file text :=
  ⟨readsBytes file, readsText file⟩

end Transversal
