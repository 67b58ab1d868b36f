/-
**How whole numbers are written.**

* `IsDigitGroup`: decimal digits, with single underscores between them; `digitGroup?_eq_some_iff`.
* `IsInteger`: a whole number of at most 4300 digits, with an optional sign;
  `readInteger?_eq_some_iff`: they are what is read, apart from blanks.
* `isInteger_of_isDecimal`: plain decimal notation is a special case.
-/
import Mathlib.Tactic.Common
import Transversal.Proofs.Number.Numeral
import Transversal.Proofs.Text.Blank

namespace Transversal

/-! ### Digit groups -/

/-- **Decimal digits, with single underscores between them**, and the values of the digits. -/
inductive IsDigitGroup : List Char → List Nat → Prop
  | single {c : Char} {digit : Nat} : digitValue? c = some digit → IsDigitGroup [c] [digit]
  | next {c : Char} {digit : Nat} {text : List Char} {digits : List Nat} :
      digitValue? c = some digit → IsDigitGroup text digits →
      IsDigitGroup (c :: text) (digit :: digits)
  | separated {c : Char} {digit : Nat} {text : List Char} {digits : List Nat} :
      digitValue? c = some digit → IsDigitGroup text digits →
      IsDigitGroup (c :: '_' :: text) (digit :: digits)

theorem digitValue?_underscore : digitValue? '_' = none := by decide

/-- The scan of a group from its end. -/
def digitScan (text : List Char) : Option DigitScan :=
  text.foldr DigitScan.prepend (some ⟨[], false⟩)

theorem digitScan_underscore (rest : List Char) : digitScan ('_' :: rest) =
    (digitScan rest).bind fun scan =>
      if scan.startsWithDigit then some ⟨scan.digits, false⟩ else none := rfl

theorem digitScan_cons {c : Char} (other : c ≠ '_') (rest : List Char) :
    digitScan (c :: rest) = (digitScan rest).bind fun scan =>
      (digitValue? c).map fun digit => ⟨digit :: scan.digits, true⟩ := by
  show DigitScan.prepend c (digitScan rest) = _
  cases digitScan rest with
  | none => rfl
  | some scan =>
    show (if c = '_' then _ else _) = _
    rw [if_neg other]
    cases digitValue? c <;> rfl

theorem digitScan_digit {c : Char} {digit : Nat} (known : digitValue? c = some digit)
    (rest : List Char) : digitScan (c :: rest) =
      (digitScan rest).bind fun scan => some ⟨digit :: scan.digits, true⟩ := by
  have other : c ≠ '_' := by
    rintro rfl
    cases digitValue?_underscore ▸ known
  rw [digitScan_cons other, known]
  rfl

theorem IsDigitGroup.scan {text : List Char} {digits : List Nat}
    (group : IsDigitGroup text digits) : digitScan text = some ⟨digits, true⟩ := by
  induction group with
  | single known => rw [digitScan_digit known]; rfl
  | next known _ ih => rw [digitScan_digit known, ih]; rfl
  | separated known _ ih => rw [digitScan_digit known, digitScan_underscore, ih]; rfl

/-- What a scan has read is a group, or a group behind an underscore, or nothing. -/
theorem group_of_digitScan {text : List Char} {scan : DigitScan}
    (read : digitScan text = some scan) :
    if scan.startsWithDigit then IsDigitGroup text scan.digits
    else text = [] ∧ scan.digits = [] ∨
      ∃ rest, text = '_' :: rest ∧ IsDigitGroup rest scan.digits := by
  induction text generalizing scan with
  | nil =>
    cases read
    exact .inl ⟨rfl, rfl⟩
  | cons c rest ih =>
    by_cases underscore : c = '_'
    · subst underscore
      rw [digitScan_underscore, Option.bind_eq_some_iff] at read
      obtain ⟨before, found, read⟩ := read
      have group := ih found
      split at read
      · rename_i starts
        cases read
        rw [if_pos starts] at group
        exact .inr ⟨rest, rfl, group⟩
      · cases read
    · rw [digitScan_cons underscore, Option.bind_eq_some_iff] at read
      obtain ⟨before, found, read⟩ := read
      obtain ⟨digit, known, rfl⟩ := Option.map_eq_some_iff.mp read
      have group := ih found
      rw [if_pos rfl]
      split at group
      · exact .next known group
      · obtain ⟨rfl, nothing⟩ | ⟨later, rfl, group⟩ := group
        · rw [nothing]
          exact .single known
        · exact .separated known group

/-- **A digit group is read as the values of its digits**, and nothing else is. -/
theorem digitGroup?_eq_some_iff {text : List Char} {digits : List Nat} :
    digitGroup? text = some digits ↔ IsDigitGroup text digits := by
  constructor
  · intro read
    obtain ⟨scan, found, read⟩ := Option.bind_eq_some_iff.mp read
    split at read
    · rename_i starts
      cases read
      simpa [starts] using group_of_digitScan found
    · cases read
  · intro group
    show (digitScan text).bind _ = _
    rw [group.scan]
    rfl

/-! ### Whole numbers -/

/-- **A whole number as it may be written**: a digit group of at most 4300 digits, with an optional
sign. -/
inductive IsInteger : List Char → Int → Prop
  | plain {text : List Char} {digits : List Nat} : IsDigitGroup text digits →
      digits.length ≤ maxIntegerDigits → IsInteger text (ofDigits digits)
  | plus {text : List Char} {digits : List Nat} : IsDigitGroup text digits →
      digits.length ≤ maxIntegerDigits → IsInteger ('+' :: text) (ofDigits digits)
  | minus {text : List Char} {digits : List Nat} : IsDigitGroup text digits →
      digits.length ≤ maxIntegerDigits → IsInteger ('-' :: text) (-ofDigits digits)

/-- No digit of any script is a blank. -/
theorem isBlank_of_digitValue? {c : Char} {digit : Nat} (known : digitValue? c = some digit) :
    isBlank c = false := by
  obtain ⟨first, found, rfl⟩ := Option.map_eq_some_iff.mp known
  have bounds := List.find?_some found
  have member := List.mem_of_find?_eq_some found
  simp only [Bool.and_eq_true, decide_eq_true_eq] at bounds
  have apart : ∀ first ∈ decimalZeros, first = 0x30 ∨ 0x660 ≤ first ∧ first + 10 ≤ 0x1680 ∨
      0x1680 < first ∧ first + 10 ≤ 0x2000 ∨ 0x3000 < first := by decide
  have := apart first member
  rw [Bool.eq_false_iff, isBlank]
  simp only [ne_eq, Bool.or_eq_true, Bool.and_eq_true, decide_eq_true_eq, beq_iff_eq]
  omega

theorem IsDigitGroup.isSolid {text : List Char} {digits : List Nat}
    (group : IsDigitGroup text digits) : IsSolid text := by
  have underscore : isBlank '_' = false := by decide
  induction group with
  | single known => simpa [IsSolid] using isBlank_of_digitValue? known
  | next known _ ih => simpa [IsSolid] using ⟨isBlank_of_digitValue? known, ih⟩
  | separated known _ ih =>
    simpa [IsSolid] using ⟨isBlank_of_digitValue? known, underscore, ih⟩

theorem IsDigitGroup.ne_nil {text : List Char} {digits : List Nat}
    (group : IsDigitGroup text digits) : text ≠ [] := by
  cases group <;> exact List.cons_ne_nil _ _

theorem IsInteger.isSolid {text : List Char} {value : Int} (integer : IsInteger text value) :
    IsSolid text := by
  have plus : isBlank '+' = false := by decide
  have minus : isBlank '-' = false := by decide
  cases integer with
  | plain group _ => exact group.isSolid
  | plus group _ => exact List.forall_mem_cons.mpr ⟨plus, group.isSolid⟩
  | minus group _ => exact List.forall_mem_cons.mpr ⟨minus, group.isSolid⟩

theorem IsInteger.ne_nil {text : List Char} {value : Int} (integer : IsInteger text value) :
    text ≠ [] := by
  cases integer with
  | plain group _ => exact group.ne_nil
  | plus => exact List.cons_ne_nil _ _
  | minus => exact List.cons_ne_nil _ _

/-- A group starts with no sign. -/
theorem IsDigitGroup.splitSign {text : List Char} {digits : List Nat}
    (group : IsDigitGroup text digits) : splitSign text = (false, text) := by
  have first : ∀ {c : Char} {digit : Nat} (rest : List Char), digitValue? c = some digit →
      Transversal.splitSign (c :: rest) = (false, c :: rest) := by
    intro c digit rest known
    unfold Transversal.splitSign
    split
    · rename_i same
      cases same
      cases (by decide : digitValue? '-' = none) ▸ known
    · rename_i same
      cases same
      cases (by decide : digitValue? '+' = none) ▸ known
    · rfl
  cases group with
  | single known => exact first _ known
  | next known _ => exact first _ known
  | separated known _ => exact first _ known

/-- There is nothing to trim of a text without blanks. -/
theorem IsSolid.trimNumeral {text : List Char} (solid : IsSolid text) :
    trimNumeral text = text := by
  have stays : ∀ other : List Char, (∀ c ∈ other, c ∈ text) →
      other.dropWhile isNumeralBlank = other := by
    intro other within
    cases other with
    | nil => rfl
    | cons c rest =>
      have := solid c (within c List.mem_cons_self)
      rw [List.dropWhile_cons, if_neg]
      simp [isNumeralBlank, this]
  rw [Transversal.trimNumeral, stays text fun _ => id,
    stays text.reverse fun _ => List.mem_reverse.mp, List.reverse_reverse]

/-- **What is read as a whole number**, where there are no blanks. -/
theorem readInteger?_eq_some_iff {text : List Char} (solid : IsSolid text) {value : Int} :
    readInteger? text = some value ↔ IsInteger text value := by
  unfold readInteger?
  rw [solid.trimNumeral]
  dsimp only
  constructor
  · intro read
    obtain ⟨digits, grouped, read⟩ := Option.bind_eq_some_iff.mp read
    rw [digitGroup?_eq_some_iff] at grouped
    split at read
    · rename_i few
      cases read
      unfold splitSign at grouped ⊢
      split at grouped
      · exact .minus grouped few
      · exact .plus grouped few
      · exact .plain grouped few
    · cases read
  · intro integer
    cases integer with
    | plain group few =>
      rw [group.splitSign]
      dsimp only
      rw [digitGroup?_eq_some_iff.mpr group]
      exact if_pos few
    | @plus rest digits group few =>
      show (digitGroup? rest).bind _ = _
      rw [digitGroup?_eq_some_iff.mpr group]
      exact if_pos few
    | @minus rest digits group few =>
      show (digitGroup? rest).bind _ = _
      rw [digitGroup?_eq_some_iff.mpr group]
      exact if_pos few

/-! ### Decimal notation -/

/-- **A whole number in plain decimal notation**: its digits without leading zeros, at most 4300 of
them, and a minus if it is negative. -/
structure IsDecimal (text : List Char) (value : Int) : Prop where
  text_eq : text = (toString value).toList
  writable : isWritable value

/-- One more digit at the end. -/
theorem IsDigitGroup.snoc {text : List Char} {digits : List Nat} (group : IsDigitGroup text digits)
    {c : Char} {digit : Nat} (known : digitValue? c = some digit) :
    IsDigitGroup (text ++ [c]) (digits ++ [digit]) := by
  induction group with
  | single first => exact .next first (.single known)
  | next first _ ih => exact .next first ih
  | separated first _ ih => exact .separated first ih

theorem digitValue?_digitChar : ∀ digit < 10, digitValue? digit.digitChar = some digit := by
  decide

/-- The digits that the core library writes are a group of that value. -/
theorem exists_isDigitGroup (size : Nat) : ∃ digits, IsDigitGroup (Nat.toDigits 10 size) digits ∧
    ofDigits digits = size ∧ digits.length = (Nat.toDigits 10 size).length := by
  induction size using Nat.strongRecOn with
  | ind size ih =>
    by_cases small : size < 10
    · rw [Nat.toDigits_of_lt_base small]
      exact ⟨[size], .single (digitValue?_digitChar size small), by simp [ofDigits], rfl⟩
    · obtain ⟨digits, group, value, length⟩ := ih (size / 10) (by omega)
      have known := digitValue?_digitChar (size % 10) (by omega)
      rw [Nat.toDigits_of_base_le (by decide) (by omega)]
      refine ⟨digits ++ [size % 10], group.snoc known, ?_, by simp [length]⟩
      calc ofDigits (digits ++ [size % 10])
          = 10 * ofDigits digits + size % 10 := by simp [ofDigits]
        _ = size := by rw [value]; omega

/-- There are few enough digits to be read again. -/
theorem exists_isDigitGroup_natAbs {value : Int} (writable : isWritable value) :
    ∃ digits, IsDigitGroup (Nat.toDigits 10 value.natAbs) digits ∧
      ofDigits digits = value.natAbs ∧ digits.length ≤ maxIntegerDigits := by
  obtain ⟨digits, group, same, length⟩ := exists_isDigitGroup value.natAbs
  have positive : 0 < maxIntegerDigits := by decide
  rw [isWritable, decide_eq_true_eq] at writable
  -- the power itself is never computed
  generalize maxIntegerDigits = most at writable positive ⊢
  exact ⟨digits, group, same,
    length ▸ (Nat.length_toDigits_le_iff (by decide) positive).mpr writable⟩

/-- **Plain decimal notation** is a way to write a whole number. -/
theorem IsDecimal.isInteger {text : List Char} {value : Int} (decimal : IsDecimal text value) :
    IsInteger text value := by
  obtain ⟨rfl, writable⟩ := decimal
  obtain ⟨digits, group, same, few⟩ := exists_isDigitGroup_natAbs writable
  rw [Int.toString_eq_repr, Int.repr_eq_if]
  split
  · rename_i natural
    have value_eq : value = ofDigits digits := by omega
    have size_eq : value.toNat = value.natAbs := by omega
    rw [size_eq, Nat.toList_repr, value_eq]
    exact .plain (value_eq ▸ group) few
  · rename_i negative
    have value_eq : value = -ofDigits digits := by omega
    have size_eq : (-value).toNat = value.natAbs := by omega
    rw [size_eq, String.toList_append, Nat.toList_repr, value_eq]
    exact .minus (value_eq ▸ group) few

end Transversal
