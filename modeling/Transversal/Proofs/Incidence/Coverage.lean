/-
**Path lists are read from exactly the lines that show them.**

* `Coverage.Shows`: a line that shows numbers, between blanks; `Coverage.shows_iff`: they are the
  words of the line.
* `Coverage.ofLines?_eq_ok_iff`: what is read of lines; `Coverage.refusal_of_ofLines?`: otherwise
  the first line with a bad word is named.
* `Coverage.ends_read?`: a file may also stop being text; `Coverage.read?_of_text`: otherwise its
  lines are read.
* `Coverage.lines_round_trip`: lists written down are read again, and all other lines are refused.
-/
import Mathlib.Data.List.Forall2
import Transversal.Incidence.Coverage
import Transversal.Proofs.Fallible
import Transversal.Proofs.Number.Integer
import Transversal.Proofs.Text.Lines

namespace Transversal

/-- A fault of a coverage file. -/
def Fault.isOfCoverage : Fault → Bool
  | .coverage _ => true
  | _ => false

/-- All entries have a result exactly if each has one. -/
theorem exists_forall₂_iff {α β : Type} {related : α → β → Prop} {entries : List α} :
    (∃ results, List.Forall₂ related entries results) ↔
      ∀ entry ∈ entries, ∃ result, related entry result := by
  induction entries with
  | nil => simp
  | cons entry rest ih =>
    rw [List.forall_mem_cons, ← ih]
    constructor
    · rintro ⟨_, together⟩
      cases together with
      | cons first later => exact ⟨⟨_, first⟩, _, later⟩
    · rintro ⟨⟨_, first⟩, _, later⟩
      exact ⟨_, .cons first later⟩

namespace Coverage

/-! ### Lines that show numbers -/

/-- **A line that shows numbers**, each written in a given way: a number ends at a blank or at the
end of the line, and more blanks may stand before each and at the end. -/
inductive Shows (Writes : List Char → Int → Prop) : List Char → List Int → Prop
  | done : Shows Writes [] []
  | blank {c : Char} {line : List Char} {numbers : List Int} :
      isBlank c → Shows Writes line numbers → Shows Writes (c :: line) numbers
  | number {word line : List Char} {value : Int} {numbers : List Int} :
      Writes word value → EndsWord line → Shows Writes line numbers →
      Shows Writes (word ++ line) (value :: numbers)

variable {Writes : List Char → Int → Prop} {line : List Char} {numbers : List Int}

theorem Shows.mono {Other : List Char → Int → Prop} (shows : Shows Writes line numbers)
    (weaker : ∀ word value, Writes word value → Other word value) : Shows Other line numbers := by
  induction shows with
  | done => exact .done
  | blank blank _ ih => exact .blank blank ih
  | number writes ends _ ih => exact .number (weaker _ _ writes) ends ih

/-- **A line shows numbers if its words do.** -/
theorem shows_iff (solid : ∀ word value, Writes word value → word ≠ [] ∧ IsSolid word) :
    Shows Writes line numbers ↔ List.Forall₂ Writes (words line) numbers := by
  constructor
  · intro shows
    induction shows with
    | done => exact .nil
    | blank blank _ ih => rwa [words_cons_blank blank]
    | number writes ends _ ih =>
      obtain ⟨inhabited, solid⟩ := solid _ _ writes
      rw [words_word inhabited solid ends]
      exact .cons writes ih
  · -- the line gets shorter by a blank or by a word
    induction size : line.length using Nat.strongRecOn generalizing line numbers with
    | ind length ih =>
      intro listed
      cases line with
      | nil =>
        cases listed
        exact .done
      | cons c rest =>
        cases blank : isBlank c with
        | true =>
          rw [words_cons_blank blank] at listed
          exact .blank blank (ih rest.length (by simp at size; omega) rfl listed)
        | false =>
          obtain ⟨word, later, same, inhabited, solid, ends⟩ := exists_solid blank rest
          rw [same, words_word inhabited solid ends] at listed
          rw [same] at size ⊢
          cases listed with
          | cons writes listed =>
            have := List.length_pos_iff.mpr inhabited
            rw [List.length_append] at size
            exact .number writes ends (ih later.length (by omega) rfl listed)

/-- Numbers that a line shows are short enough to be written. -/
theorem Shows.isWritable (shows : Shows IsInteger line numbers) :
    ∀ value ∈ numbers, isWritable value := by
  induction shows with
  | done => exact fun value impossible => absurd impossible List.not_mem_nil
  | blank _ _ ih => exact ih
  | number integer _ _ ih =>
    have read := (readInteger?_eq_some_iff integer.isSolid).mpr integer
    exact List.forall_mem_cons.mpr ⟨isWritable_of_readInteger? read, ih⟩

/-- The words of a line are whole numbers. -/
def HoldsIntegers (line : List Char) : Prop :=
  ∀ token ∈ tokens line, ∃ value, IsInteger token value

theorem shows_isInteger_iff :
    Shows IsInteger line numbers ↔ List.Forall₂ IsInteger (words line) numbers :=
  shows_iff fun _ _ integer => ⟨integer.ne_nil, integer.isSolid⟩

theorem holdsIntegers_iff : HoldsIntegers line ↔ ∃ numbers, Shows IsInteger line numbers := by
  simp only [shows_isInteger_iff, HoldsIntegers, ← words_eq, exists_forall₂_iff]

/-! ### Reading lines -/

/-- Words without blanks are read as the whole numbers that they write. -/
theorem mapM_readInteger?_eq_some_iff {entries : List (List Char)}
    (solid : ∀ word ∈ entries, IsSolid word) :
    entries.mapM readInteger? = some numbers ↔ List.Forall₂ IsInteger entries numbers := by
  induction entries generalizing numbers with
  | nil => simp [eq_comm]
  | cons word rest ih =>
    rw [List.forall_mem_cons] at solid
    simp only [List.mapM_cons, List.forall₂_cons_left_iff, ← readInteger?_eq_some_iff solid.1,
      ← ih solid.2, Option.bind_eq_bind, Option.bind_eq_some_iff, Option.pure_def, Option.some_inj,
      @eq_comm _ numbers]
    tauto

theorem ofLine?_eq_ok_iff {number : Nat} :
    ofLine? number line = .ok numbers ↔ Shows IsInteger line numbers := by
  rw [shows_isInteger_iff, ← mapM_readInteger?_eq_some_iff fun _ => isSolid_of_mem_words, ofLine?]
  cases (words line).mapM readInteger? <;> simp

theorem refusal_of_ofLine? {number : Nat} {fault : Fault}
    (refused : ofLine? number line = .error fault) :
    ¬ HoldsIntegers line ∧ fault = .coverage (.notIntegers number (trim line)) := by
  constructor
  · intro holds
    obtain ⟨numbers, shows⟩ := holdsIntegers_iff.mp holds
    cases refused ▸ ofLine?_eq_ok_iff.mpr shows
  · unfold ofLine? at refused
    split at refused
    · cases refused
    · cases refused
      rfl

/-- The path lists of lines that are numbered from some number on. -/
def ofLinesFrom? (number : Nat) (lines : List (List Char)) : Except Fault (List (List Int)) :=
  (lines.zipIdx number).mapM fun (line, number) => ofLine? number line

theorem ofLinesFrom?_cons (number : Nat) (line : List Char) (rest : List (List Char)) :
    ofLinesFrom? number (line :: rest) = (do
      let paths ← ofLine? number line
      let later ← ofLinesFrom? (number + 1) rest
      pure (paths :: later)) := List.mapM_cons

theorem ofLinesFrom?_eq_ok_iff {number : Nat} {lines : List (List Char)} {lists : List (List Int)} :
    ofLinesFrom? number lines = .ok lists ↔ List.Forall₂ (Shows IsInteger) lines lists := by
  induction lines generalizing number lists with
  | nil =>
    rw [List.forall₂_nil_left_iff]
    exact ⟨fun read => (Except.ok.inj read).symm, fun empty => empty ▸ rfl⟩
  | cons line rest ih =>
    rw [ofLinesFrom?_cons, List.forall₂_cons_left_iff]
    constructor
    · intro read
      obtain ⟨paths, first, read⟩ := Except.bind_eq_ok_iff.mp read
      obtain ⟨later, others, ⟨⟩⟩ := Except.bind_eq_ok_iff.mp read
      exact ⟨paths, later, ofLine?_eq_ok_iff.mp first, ih.mp others, rfl⟩
    · rintro ⟨paths, later, first, read, rfl⟩
      rw [ofLine?_eq_ok_iff.mpr first, ih.mpr read]
      rfl

/-- **The first line with a bad word is named.** -/
theorem refusal_of_ofLinesFrom? {number : Nat} {lines : List (List Char)} {fault : Fault}
    (refused : ofLinesFrom? number lines = .error fault) :
    ∃ before line after, lines = before ++ line :: after ∧
      (∀ earlier ∈ before, HoldsIntegers earlier) ∧ ¬ HoldsIntegers line ∧
      fault = .coverage (.notIntegers (number + before.length) (trim line)) := by
  induction lines generalizing number with
  | nil => cases refused
  | cons line rest ih =>
    rw [ofLinesFrom?_cons] at refused
    cases first : ofLine? number line with
    | error found =>
      rw [first] at refused
      cases refused
      obtain ⟨bad, rfl⟩ := refusal_of_ofLine? first
      exact ⟨[], line, rest, rfl, by simp, bad, rfl⟩
    | ok paths =>
      rw [first] at refused
      cases later : ofLinesFrom? (number + 1) rest with
      | ok lists =>
        rw [later] at refused
        cases refused
      | error found =>
        rw [later] at refused
        cases refused
        obtain ⟨before, bad_line, after, rfl, good, bad, rfl⟩ := ih later
        have holds := holdsIntegers_iff.mpr ⟨paths, ofLine?_eq_ok_iff.mp first⟩
        refine ⟨line :: before, bad_line, after, rfl, List.forall_mem_cons.mpr ⟨holds, good⟩, bad,
          ?_⟩
        rw [List.length_cons, Nat.add_assoc, Nat.add_comm 1]

variable {lines : List (List Char)} {lists : List (List Int)}

/-- **What is read of lines** is what they show. -/
theorem ofLines?_eq_ok_iff :
    ofLines? lines = .ok lists ↔ List.Forall₂ (Shows IsInteger) lines lists :=
  ofLinesFrom?_eq_ok_iff

/-- No path that is read is too long to be written. -/
theorem isWritable_of_ofLines? (read : ofLines? lines = .ok lists) :
    ∀ paths ∈ lists, ∀ path ∈ paths, isWritable path := by
  replace read := ofLines?_eq_ok_iff.mp read
  induction read with
  | nil => exact fun paths impossible => absurd impossible List.not_mem_nil
  | cons shows _ ih => exact List.forall_mem_cons.mpr ⟨shows.isWritable, ih⟩

theorem refusal_of_ofLines? {fault : Fault} (refused : ofLines? lines = .error fault) :
    ∃ before line after, lines = before ++ line :: after ∧
      (∀ earlier ∈ before, HoldsIntegers earlier) ∧ ¬ HoldsIntegers line ∧
      fault = .coverage (.notIntegers (before.length + 1) (trim line)) := by
  have first := refusal_of_ofLinesFrom? refused
  simpa only [Nat.add_comm 1] using first

/-! ### Reading files -/

/-- **A file** tells of path lists, or is refused. -/
theorem ends_read? (file : String) (feed : Feed) :
    Except.Ends (fun sets => feed.flaw = none ∧ ofLines? feed.lines = .ok sets)
      (fun fault => fault.isOfCoverage) (read? file feed) := by
  unfold read?
  cases read : ofLines? feed.lines with
  | error fault =>
    obtain ⟨_, _, _, _, _, _, rfl⟩ := refusal_of_ofLines? read
    rfl
  | ok sets =>
    cases feed.flaw with
    | none => exact ⟨rfl, rfl⟩
    | some flaw => rfl

/-- Where bytes are those of a text, its lines are read. -/
theorem read?_of_text (file : String) (text : List Char) :
    read? file (.ofBytes (Utf8.encode text)) = ofLines? (textLines text) := by
  rw [read?, Feed.ofBytes_encode]
  exact bind_pure _

/-! ### Writing and reading -/

/-- A line for numbers: each in decimal notation, with a blank behind it. -/
def written (numbers : List Int) : List Char :=
  numbers.flatMap fun value => (toString value).toList ++ [' ']

theorem shows_written (writable : ∀ value ∈ numbers, isWritable value) :
    Shows IsDecimal (written numbers) numbers := by
  induction numbers with
  | nil => exact .done
  | cons value rest ih =>
    rw [List.forall_mem_cons] at writable
    have blank : isBlank ' ' := by decide
    rw [written, List.flatMap_cons, List.append_assoc, List.singleton_append, ← written]
    refine .number ⟨rfl, writable.1⟩ (fun c first => ?_) (.blank blank (ih writable.2))
    cases first
    exact blank

theorem ofLines?_of_decimal (shown : List.Forall₂ (Shows IsDecimal) lines lists) :
    ofLines? lines = .ok lists :=
  ofLines?_eq_ok_iff.mpr
    (shown.imp fun _ _ shows => shows.mono fun _ _ decimal => decimal.isInteger)

/-- **Lists that are written down are read again**: from any lines that show them in plain decimal
notation, and from the file that these lines make with line ends of any style. There are such lines
if no number is too long. -/
structure RoundTrips (lists : List (List Int)) : Prop where
  lines_read : ∀ lines, List.Forall₂ (Shows IsDecimal) lines lists → ofLines? lines = .ok lists
  file_read : ∀ file style lines, (∀ line ∈ lines, IsLine line) →
    List.Forall₂ (Shows IsDecimal) lines lists →
    read? file (.ofBytes (Utf8.encode (withLineEnds style (joined lines)))) = .ok lists
  lines_exist : (∀ numbers ∈ lists, ∀ value ∈ numbers, isWritable value) →
    List.Forall₂ (Shows IsDecimal) (lists.map written) lists

/-- **All other lines are refused**: lists are returned exactly if all words are whole numbers, and
then they are what the lines show; otherwise the first line with another word is named. -/
structure RefusesRest (lines : List (List Char)) : Prop where
  shown : ∀ lists, ofLines? lines = .ok lists ↔ List.Forall₂ (Shows IsInteger) lines lists
  returns : (∃ lists, ofLines? lines = .ok lists) ↔ ∀ line ∈ lines, HoldsIntegers line
  refused : ∀ fault, ofLines? lines = .error fault →
    ∃ before line after, lines = before ++ line :: after ∧
      (∀ earlier ∈ before, HoldsIntegers earlier) ∧ ¬ HoldsIntegers line ∧
      fault = .coverage (.notIntegers (before.length + 1) (trim line))

theorem roundTrips (lists : List (List Int)) : RoundTrips lists where
  lines_read _ := ofLines?_of_decimal
  file_read file style lines areLines shown := by
    rw [read?_of_text, ← linesOf_eq, linesOf_joined style areLines, ofLines?_of_decimal shown]
  lines_exist writable := by
    rw [List.forall₂_map_left_iff, List.forall₂_same]
    exact fun numbers member => shows_written (writable numbers member)

theorem refusesRest (lines : List (List Char)) : RefusesRest lines where
  shown _ := ofLines?_eq_ok_iff
  returns := by
    simp only [ofLines?_eq_ok_iff, holdsIntegers_iff, exists_forall₂_iff]
  refused _ := refusal_of_ofLines?

/-- **Lists written down are read again, and all other lines are refused.** -/
theorem lines_round_trip (lists : List (List Int)) (lines : List (List Char)) :
    RoundTrips lists ∧ RefusesRest lines :=
  ⟨roundTrips lists, refusesRest lines⟩

/-- An empty line is an empty list, and keeps its place. -/
example : ofLines? ["0 1".toList, [], "1\t-2 ".toList] = .ok [[0, 1], [], [1, -2]] := by
  decide +kernel

end Coverage

end Transversal
