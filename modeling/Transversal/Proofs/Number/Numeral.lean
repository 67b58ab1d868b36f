/-
**A whole number that is read can be written again.**

* `ofDigits_lt`: so many decimal digits denote less than that power of ten.
* `isWritable_of_readInteger?`: no number that is read has too many of them.
-/
import Mathlib.Tactic.Ring
import Transversal.Number.Numeral

namespace Transversal

/-- A group has decimal digits only. -/
theorem lt_of_mem_digitGroup? {text : List Char} {digits : List Nat}
    (read : digitGroup? text = some digits) : ∀ digit ∈ digits, digit < 10 := by
  -- nothing is read of the characters behind a bad one
  have decimal : ∀ scan ∈ text.foldr DigitScan.prepend (some ⟨[], false⟩),
      ∀ digit ∈ scan.digits, digit < 10 := by
    clear read
    induction text with
    | nil => simp
    | cons c rest ih =>
      intro scan read
      rw [List.foldr_cons, DigitScan.prepend] at read
      obtain ⟨before, found, read⟩ := Option.bind_eq_some_iff.mp read
      split at read
      · split at read
        · cases read
          exact ih before found
        · cases read
      · obtain ⟨digit, known, read⟩ := Option.bind_eq_some_iff.mp read
        cases read
        simpa using ⟨digitValue?_lt known, ih before found⟩
  obtain ⟨scan, found, read⟩ := Option.bind_eq_some_iff.mp read
  split at read
  · cases read
    exact decimal scan found
  · cases read

theorem ofDigits_lt {digits : List Nat} (decimal : ∀ digit ∈ digits, digit < 10) :
    ofDigits digits < 10 ^ digits.length := by
  suffices further : ∀ value, digits.foldl (fun value digit => 10 * value + digit) value <
      (value + 1) * 10 ^ digits.length by simpa [ofDigits] using further 0
  induction digits with
  | nil => simp
  | cons digit rest ih =>
    intro value
    rw [List.forall_mem_cons] at decimal
    calc rest.foldl _ (10 * value + digit)
        < (10 * value + digit + 1) * 10 ^ rest.length := ih decimal.2 _
      _ ≤ ((value + 1) * 10) * 10 ^ rest.length := Nat.mul_le_mul_right _ (by omega)
      _ = (value + 1) * 10 ^ (rest.length + 1) := by rw [Nat.pow_succ', Nat.mul_assoc]

/-- **A whole number that is read can be written.** -/
theorem isWritable_of_readInteger? {text : List Char} {value : Int}
    (read : readInteger? text = some value) : isWritable value := by
  unfold readInteger? at read
  dsimp only at read
  obtain ⟨digits, grouped, read⟩ := Option.bind_eq_some_iff.mp read
  split at read
  · rename_i few
    cases read
    rw [isWritable, decide_eq_true_eq]
    -- the power itself is never computed
    generalize maxIntegerDigits = most at few ⊢
    have small : ofDigits digits < 10 ^ most :=
      Nat.lt_of_lt_of_le (ofDigits_lt (lt_of_mem_digitGroup? grouped))
        (Nat.pow_le_pow_right (by decide) few)
    split
    · rw [Int.natAbs_neg]
      exact small
    · exact small
  · cases read

end Transversal
