/-
**Bytes are read without a flaw exactly if they are the bytes of a text.**

The bytes of a text are those of the core library's encoder; the reader is a machine that looks at
one byte at a time.

* `Utf8.Form`: a first byte, and the bytes that complete the character it begins.
* `Utf8.form_iff`: these are the bytes of one character, so overlong forms, surrogates and numbers
  that are too large have no form.
* `Utf8.run_encode`, `Utf8.exists_text`: between two characters the machine reads the bytes of every
  text, and it comes to stand between two characters again after such bytes only.
* `Utf8.decode_eq_iff`: where a block ends makes no difference.
-/
import Mathlib.Tactic.Common
import Transversal.Proofs.Fallible
import Transversal.Text.Utf8

namespace Transversal.Utf8

/-- The bytes of a text. -/
def encode (text : List Char) : List UInt8 := text.flatMap String.utf8EncodeChar

theorem encode_cons (c : Char) (text : List Char) :
    encode (c :: text) = String.utf8EncodeChar c ++ encode text := List.flatMap_cons

/-! ### The bytes of a number -/

/-- The bytes of the character with a number, by the size of the number. -/
def codes (number : Nat) : List Nat :=
  if number < 0x80 then [number]
  else if number < 0x800 then [number / 64 + 0xC0, number % 64 + 0x80]
  else if number < 0x10000 then
    [number / 4096 + 0xE0, number / 64 % 64 + 0x80, number % 64 + 0x80]
  else [number / 262144 + 0xF0, number / 4096 % 64 + 0x80, number / 64 % 64 + 0x80,
    number % 64 + 0x80]

theorem codes_one {number : Nat} (small : number < 0x80) : codes number = [number] := if_pos small

theorem codes_two {lead tail : Nat} (first : 2 ≤ lead ∧ lead < 32) (last : tail < 64) :
    codes (lead * 64 + tail) = [lead + 0xC0, tail + 0x80] := by
  rw [codes, if_neg (by omega), if_pos (by omega)]
  simp only [List.cons.injEq, and_true]
  omega

theorem codes_three {lead second tail : Nat} (first : 32 ≤ lead * 64 + second ∧ lead < 16)
    (middle : second < 64) (last : tail < 64) :
    codes ((lead * 64 + second) * 64 + tail) = [lead + 0xE0, second + 0x80, tail + 0x80] := by
  rw [codes, if_neg (by omega), if_neg (by omega), if_pos (by omega)]
  simp only [List.cons.injEq, and_true]
  omega

theorem codes_four {lead second third tail : Nat} (first : 16 ≤ lead * 64 + second)
    (middle : second < 64) (middle' : third < 64) (last : tail < 64) :
    codes (((lead * 64 + second) * 64 + third) * 64 + tail) =
      [lead + 0xF0, second + 0x80, third + 0x80, tail + 0x80] := by
  rw [codes, if_neg (by omega), if_neg (by omega), if_neg (by omega)]
  simp only [List.cons.injEq, and_true]
  omega

/-- The core library's encoder writes these bytes. -/
theorem utf8EncodeChar_eq (c : Char) :
    (String.utf8EncodeChar c).map UInt8.toNat = codes c.toNat := by
  have valid : c.toNat < 0xD800 ∨ 0xDFFF < c.toNat ∧ c.toNat < 0x110000 := c.valid
  unfold String.utf8EncodeChar codes
  simp only [Char.toNat_val]
  generalize c.toNat = number at valid ⊢
  by_cases one : number < 0x80
  · rw [if_pos one, if_pos (by omega)]
    simp
    omega
  by_cases two : number < 0x800
  · rw [if_neg one, if_pos two, if_neg (by omega), if_pos (by omega)]
    simp
    omega
  by_cases three : number < 0x10000
  · rw [if_neg one, if_neg two, if_pos three, if_neg (by omega), if_neg (by omega),
      if_pos (by omega)]
    simp
    omega
  · rw [if_neg one, if_neg two, if_neg three, if_neg (by omega), if_neg (by omega),
      if_neg (by omega)]
    simp
    omega

/-! ### The form of a character -/

/-- What a first byte says, by the number of bytes that follow it. -/
theorem start_eq (byte : Nat) : start byte =
    if byte < 0x80 then .ok ⟨0, 0x80, 0xBF, byte⟩
    else if byte < 0xC2 then .error .badStart
    else if byte < 0xE0 then .ok ⟨1, 0x80, 0xBF, byte - 0xC0⟩
    else if byte < 0xF0 then .ok ⟨2, if byte = 0xE0 then 0xA0 else 0x80,
      if byte = 0xED then 0x9F else 0xBF, byte - 0xE0⟩
    else if byte < 0xF5 then .ok ⟨3, if byte = 0xF0 then 0x90 else 0x80,
      if byte = 0xF4 then 0x8F else 0xBF, byte - 0xF0⟩
    else .error .badStart := by
  unfold start
  grind

/-- **The bytes that complete a character**, and the number that its bits make: each of them lies
within the bounds that the one before it has left. -/
inductive Completes : Pending → List UInt8 → Nat → Prop
  | done {pending : Pending} : pending.owed = 0 → Completes pending [] pending.bits
  | next {pending : Pending} {byte : UInt8} {rest : List UInt8} {number : Nat} :
      pending.owed ≠ 0 → pending.least ≤ byte.toNat → byte.toNat ≤ pending.greatest →
      Completes ⟨pending.owed - 1, 0x80, 0xBF, pending.bits * 64 + byte.toNat % 64⟩ rest number →
      Completes pending (byte :: rest) number

theorem completes_iff_of_done {pending : Pending} (done : pending.owed = 0) {bytes : List UInt8}
    {number : Nat} : Completes pending bytes number ↔ bytes = [] ∧ number = pending.bits := by
  constructor
  · rintro (_ | ⟨owes, _⟩)
    · exact ⟨rfl, rfl⟩
    · exact absurd done owes
  · rintro ⟨rfl, rfl⟩
    exact .done done

theorem completes_iff_of_owes {owed least greatest bits : Nat} {bytes : List UInt8}
    {number : Nat} :
    Completes ⟨owed + 1, least, greatest, bits⟩ bytes number ↔
      ∃ byte rest, bytes = byte :: rest ∧ least ≤ byte.toNat ∧ byte.toNat ≤ greatest ∧
        Completes ⟨owed, 0x80, 0xBF, bits * 64 + byte.toNat % 64⟩ rest number := by
  constructor
  · rintro (done | ⟨_, above, below, completes⟩)
    · cases done
    · exact ⟨_, _, rfl, above, below, completes⟩
  · rintro ⟨byte, rest, rfl, above, below, completes⟩
    exact .next (Nat.succ_ne_zero owed) above below completes

/-- **The form of a character**: a first byte, and the bytes that complete what it begins. -/
inductive Form : List UInt8 → Nat → Prop
  | mk {byte : UInt8} {pending : Pending} {rest : List UInt8} {number : Nat} :
      start byte.toNat = .ok pending → Completes pending rest number → Form (byte :: rest) number

theorem mod_add_of_tail {byte : Nat} (above : 0x80 ≤ byte) (below : byte ≤ 0xBF) :
    byte % 64 + 0x80 = byte := by omega

/-- What has a form is the number of a character, and these are its bytes. -/
theorem Form.codes {bytes : List UInt8} {number : Nat} (form : Form bytes number) :
    number.isValidChar ∧ bytes.map UInt8.toNat = codes number := by
  obtain @⟨byte, pending, rest, _, starts, completes⟩ := form
  unfold Nat.isValidChar
  rw [start_eq] at starts
  split at starts
  · cases starts
    obtain ⟨rfl, rfl⟩ := (completes_iff_of_done rfl).mp completes
    exact ⟨.inl (by dsimp only; omega), (codes_one ‹_›).symm⟩
  split at starts
  · cases starts
  split at starts
  · cases starts
    obtain ⟨second, _, rfl, above, below, completes⟩ := completes_iff_of_owes.mp completes
    obtain ⟨rfl, rfl⟩ := (completes_iff_of_done rfl).mp completes
    refine ⟨.inl (by dsimp only; omega), ?_⟩
    rw [codes_two (by omega) (by omega), mod_add_of_tail above below]
    simp
    omega
  split at starts
  · cases starts
    obtain ⟨second, _, rfl, above, below, completes⟩ := completes_iff_of_owes.mp completes
    obtain ⟨third, _, rfl, above', below', completes⟩ := completes_iff_of_owes.mp completes
    obtain ⟨rfl, rfl⟩ := (completes_iff_of_done rfl).mp completes
    -- the narrow bounds keep out overlong forms and surrogates
    have narrow : 0x80 ≤ second.toNat ∧ second.toNat ≤ 0xBF ∧
        (byte.toNat = 0xE0 → 0xA0 ≤ second.toNat) ∧
        (byte.toNat = 0xED → second.toNat ≤ 0x9F) := by
      split at above <;> split at below <;> omega
    dsimp only
    refine ⟨by omega, ?_⟩
    rw [codes_three (by omega) (by omega) (by omega), mod_add_of_tail narrow.1 narrow.2.1,
      mod_add_of_tail above' below']
    simp
    omega
  split at starts
  · cases starts
    obtain ⟨second, _, rfl, above, below, completes⟩ := completes_iff_of_owes.mp completes
    obtain ⟨third, _, rfl, above', below', completes⟩ := completes_iff_of_owes.mp completes
    obtain ⟨fourth, _, rfl, above'', below'', completes⟩ := completes_iff_of_owes.mp completes
    obtain ⟨rfl, rfl⟩ := (completes_iff_of_done rfl).mp completes
    -- the narrow bounds keep out overlong forms and numbers that are too large
    have narrow : 0x80 ≤ second.toNat ∧ second.toNat ≤ 0xBF ∧
        (byte.toNat = 0xF0 → 0x90 ≤ second.toNat) ∧
        (byte.toNat = 0xF4 → second.toNat ≤ 0x8F) := by
      split at above <;> split at below <;> omega
    dsimp only
    refine ⟨by omega, ?_⟩
    rw [codes_four (by omega) (by omega) (by omega) (by omega),
      mod_add_of_tail narrow.1 narrow.2.1, mod_add_of_tail above' below',
      mod_add_of_tail above'' below'']
    simp
    omega
  · cases starts

/-- The bytes of a character have its form. -/
theorem form_of_codes {bytes : List UInt8} {number : Nat} (valid : number.isValidChar)
    (same : bytes.map UInt8.toNat = codes number) : Form bytes number := by
  unfold Nat.isValidChar at valid
  unfold codes at same
  split at same
  · obtain ⟨byte, _, rfl, lead, same⟩ := List.map_eq_cons_iff.mp same
    obtain rfl := List.map_eq_nil_iff.mp same
    have starts := start_eq byte.toNat
    rw [if_pos (by omega)] at starts
    exact ⟨starts, (completes_iff_of_done rfl).mpr ⟨rfl, lead.symm⟩⟩
  split at same
  · obtain ⟨byte, _, rfl, lead, same⟩ := List.map_eq_cons_iff.mp same
    obtain ⟨second, _, rfl, tail, same⟩ := List.map_eq_cons_iff.mp same
    obtain rfl := List.map_eq_nil_iff.mp same
    have starts := start_eq byte.toNat
    rw [if_neg (by omega), if_neg (by omega), if_pos (by omega)] at starts
    refine ⟨starts, completes_iff_of_owes.mpr ⟨_, _, rfl, by omega, by omega, ?_⟩⟩
    refine (completes_iff_of_done rfl).mpr ⟨rfl, ?_⟩
    dsimp only
    omega
  split at same
  · obtain ⟨byte, _, rfl, lead, same⟩ := List.map_eq_cons_iff.mp same
    obtain ⟨second, _, rfl, middle, same⟩ := List.map_eq_cons_iff.mp same
    obtain ⟨third, _, rfl, tail, same⟩ := List.map_eq_cons_iff.mp same
    obtain rfl := List.map_eq_nil_iff.mp same
    have starts := start_eq byte.toNat
    rw [if_neg (by omega), if_neg (by omega), if_neg (by omega), if_pos (by omega)] at starts
    refine ⟨starts, completes_iff_of_owes.mpr ⟨_, _, rfl, ?_, ?_, ?_⟩⟩
    · split <;> omega
    · split <;> omega
    refine completes_iff_of_owes.mpr ⟨_, _, rfl, by omega, by omega, ?_⟩
    refine (completes_iff_of_done rfl).mpr ⟨rfl, ?_⟩
    dsimp only
    omega
  · obtain ⟨byte, _, rfl, lead, same⟩ := List.map_eq_cons_iff.mp same
    obtain ⟨second, _, rfl, middle, same⟩ := List.map_eq_cons_iff.mp same
    obtain ⟨third, _, rfl, middle', same⟩ := List.map_eq_cons_iff.mp same
    obtain ⟨fourth, _, rfl, tail, same⟩ := List.map_eq_cons_iff.mp same
    obtain rfl := List.map_eq_nil_iff.mp same
    have starts := start_eq byte.toNat
    rw [if_neg (by omega), if_neg (by omega), if_neg (by omega), if_neg (by omega),
      if_pos (by omega)] at starts
    refine ⟨starts, completes_iff_of_owes.mpr ⟨_, _, rfl, ?_, ?_, ?_⟩⟩
    · split <;> omega
    · split <;> omega
    refine completes_iff_of_owes.mpr ⟨_, _, rfl, by omega, by omega, ?_⟩
    refine completes_iff_of_owes.mpr ⟨_, _, rfl, by omega, by omega, ?_⟩
    refine (completes_iff_of_done rfl).mpr ⟨rfl, ?_⟩
    dsimp only
    omega

/-- **What has a form are the bytes of one character.** -/
theorem form_iff {bytes : List UInt8} {number : Nat} :
    Form bytes number ↔ ∃ c : Char, c.toNat = number ∧ bytes = String.utf8EncodeChar c := by
  constructor
  · intro form
    obtain ⟨valid, same⟩ := form.codes
    have number_eq : (Char.ofNat number).toNat = number := by
      rw [Char.ofNat, dif_pos valid]
      rfl
    refine ⟨Char.ofNat number, number_eq, (List.map_inj_right fun _ _ => UInt8.toNat_inj.mp).mp ?_⟩
    rw [same, utf8EncodeChar_eq, number_eq]
  · rintro ⟨c, rfl, rfl⟩
    exact form_of_codes c.valid (utf8EncodeChar_eq c)

/-! ### The machine -/

/-- The characters read so far, with the one begun if nothing is owed for it any longer. -/
def received (reversed : List Char) (pending : Pending) : Decoded :=
  if pending.owed = 0 then ⟨Char.ofNat pending.bits :: reversed, pending⟩
  else ⟨reversed, pending⟩

theorem foldlM_step_cons (decoded : Decoded) (byte : UInt8) (rest : List UInt8) :
    (byte :: rest).foldlM step decoded =
      (advance decoded.pending byte.toNat >>= fun pending =>
        rest.foldlM step (received decoded.reversed pending)) := by
  rw [List.foldlM_cons, step]
  cases advance decoded.pending byte.toNat <;> rfl

/-- The machine reads the bytes that complete a character. -/
theorem Completes.run {pending : Pending} {front : List UInt8} {number : Nat}
    (completes : Completes pending front number) (reversed : List Char) :
    ∃ after : Pending, after.owed = 0 ∧ ∀ rest,
      (front ++ rest).foldlM step (received reversed pending) =
        rest.foldlM step ⟨Char.ofNat number :: reversed, after⟩ := by
  induction completes with
  | @done pending done => exact ⟨pending, done, fun rest => by rw [received, if_pos done]; rfl⟩
  | @next pending byte front number owes above below _ ih =>
    obtain ⟨after, done, run⟩ := ih
    refine ⟨after, done, fun rest => ?_⟩
    rw [received, if_neg owes, List.cons_append, foldlM_step_cons, advance, if_neg owes,
      if_pos ⟨above, below⟩, ← run]
    rfl

/-- Whatever the machine reads until it stands between two characters begins with such bytes. -/
theorem exists_completes {pending : Pending} {bytes : List UInt8} {reversed : List Char}
    {final : Decoded} (run : bytes.foldlM step (received reversed pending) = .ok final)
    (between : final.pending.owed = 0) :
    ∃ front rest number, bytes = front ++ rest ∧ Completes pending front number := by
  induction bytes generalizing pending with
  | nil =>
    cases run
    by_cases done : pending.owed = 0
    · exact ⟨[], [], _, rfl, .done done⟩
    · rw [received, if_neg done] at between
      exact absurd between done
  | cons byte rest ih =>
    by_cases done : pending.owed = 0
    · exact ⟨[], byte :: rest, _, rfl, .done done⟩
    · rw [received, if_neg done, foldlM_step_cons, Except.bind_eq_ok_iff] at run
      obtain ⟨next, advanced, run⟩ := run
      rw [advance, if_neg done] at advanced
      split at advanced
      · rename_i within
        cases advanced
        obtain ⟨front, rest, number, rfl, completes⟩ := ih run
        exact ⟨byte :: front, rest, number, rfl, .next done within.1 within.2 completes⟩
      · cases advanced

variable {decoded final : Decoded}

/-- Between two characters, the machine reads the bytes of the next one. -/
theorem run_utf8EncodeChar (between : decoded.pending.owed = 0) (c : Char) :
    ∃ next : Decoded, next.pending.owed = 0 ∧ next.reversed = c :: decoded.reversed ∧
      ∀ rest, (String.utf8EncodeChar c ++ rest).foldlM step decoded =
        rest.foldlM step next := by
  generalize bytes_eq : String.utf8EncodeChar c = bytes
  obtain ⟨starts, completes⟩ := form_iff.mpr ⟨c, rfl, bytes_eq.symm⟩
  obtain ⟨after, done, run⟩ := completes.run decoded.reversed
  refine ⟨⟨Char.ofNat c.toNat :: decoded.reversed, after⟩, done, ?_, fun rest => ?_⟩
  · rw [Char.ofNat_toNat]
  · rw [List.cons_append, foldlM_step_cons, advance, if_pos between, starts, ← run]
    rfl

/-- Between two characters, whatever the machine reads begins with the bytes of a character. -/
theorem exists_utf8EncodeChar (between : decoded.pending.owed = 0) {byte : UInt8}
    {bytes : List UInt8} (run : (byte :: bytes).foldlM step decoded = .ok final)
    (still : final.pending.owed = 0) :
    ∃ c rest, byte :: bytes = String.utf8EncodeChar c ++ rest := by
  rw [foldlM_step_cons, Except.bind_eq_ok_iff, advance, if_pos between] at run
  obtain ⟨pending, starts, run⟩ := run
  obtain ⟨front, rest, number, rfl, completes⟩ := exists_completes run still
  obtain ⟨c, rfl, same⟩ := form_iff.mp (.mk starts completes)
  exact ⟨c, rest, by rw [← same, List.cons_append]⟩

/-- Between two characters, the machine reads the bytes of a text. -/
theorem run_encode (between : decoded.pending.owed = 0) (text : List Char) :
    ∃ final, (encode text).foldlM step decoded = .ok final ∧ final.pending.owed = 0 ∧
      final.reversed = text.reverse ++ decoded.reversed := by
  induction text generalizing decoded with
  | nil => exact ⟨decoded, rfl, between, rfl⟩
  | cons c text ih =>
    obtain ⟨next, between', added, run⟩ := run_utf8EncodeChar between c
    obtain ⟨final, rest, still, reversed⟩ := ih between'
    refine ⟨final, by rw [encode_cons, run, rest], still, ?_⟩
    rw [reversed, added, List.reverse_cons, List.append_assoc, List.singleton_append]

/-- Between two characters, what the machine reads until it stands so again are the bytes of a
text. -/
theorem exists_text (between : decoded.pending.owed = 0) {bytes : List UInt8}
    (run : bytes.foldlM step decoded = .ok final) (still : final.pending.owed = 0) :
    ∃ text, bytes = encode text ∧ final.reversed = text.reverse ++ decoded.reversed := by
  -- a character takes at least one byte
  induction size : bytes.length using Nat.strongRecOn generalizing bytes decoded with
  | ind length ih =>
    cases bytes with
    | nil =>
      cases run
      exact ⟨[], rfl, rfl⟩
    | cons byte bytes =>
      obtain ⟨c, rest, same⟩ := exists_utf8EncodeChar between run still
      obtain ⟨next, between', added, steps⟩ := run_utf8EncodeChar between c
      rw [same] at run size ⊢
      rw [steps] at run
      have shorter : rest.length < length := by
        have : 0 < (String.utf8EncodeChar c).length :=
          List.length_pos_iff.mpr String.utf8EncodeChar_ne_nil
        rw [List.length_append] at size
        omega
      obtain ⟨text, rfl, reversed⟩ := ih _ shorter between' run rfl
      refine ⟨c :: text, (encode_cons c text).symm, ?_⟩
      rw [reversed, added, List.reverse_cons, List.append_assoc, List.singleton_append]

/-! ### Blocks -/

theorem flatten_blocks (bytes : List UInt8) : (blocks bytes).flatten = bytes := by
  fun_induction blocks with
  | case1 => rfl
  | case2 first rest ih =>
    rw [List.flatten_cons, ih]
    exact List.take_append_drop blockSize (first :: rest)

/-- **Where a block ends makes no difference.** -/
theorem decodeBlocks_eq_iff (decoded : Decoded) (parts : List (List UInt8))
    {reversed : List Char} :
    decodeBlocks decoded parts = (reversed, none) ↔
      ∃ final, parts.flatten.foldlM step decoded = .ok final ∧ final.pending.owed = 0 ∧
        final.reversed = reversed := by
  induction parts generalizing decoded with
  | nil =>
    rw [decodeBlocks]
    constructor
    · intro read
      split at read
      · cases read
        exact ⟨decoded, rfl, ‹_›, rfl⟩
      · cases read
    · rintro ⟨_, ⟨⟩, between, rfl⟩
      rw [if_pos between]
  | cons part parts ih =>
    rw [decodeBlocks, List.flatten_cons, List.foldlM_append]
    cases part.foldlM step decoded with
    | ok next => exact ih next
    | error flaw =>
      constructor
      · rintro ⟨⟩
      · rintro ⟨_, ⟨⟩, _⟩

theorem decode_eq {bytes : List UInt8} {text : List Char} {flaw : Option Flaw} :
    decode bytes = (text, flaw) ↔
      decodeBlocks ⟨[], .none⟩ (blocks bytes) = (text.reverse, flaw) := by
  rw [decode, Prod.ext_iff, Prod.ext_iff, List.reverse_eq_iff]

theorem between_start : (⟨[], .none⟩ : Decoded).pending.owed = 0 := rfl

/-- **Bytes are read without a flaw exactly if they are the bytes of a text**, and then this text
is read. -/
theorem decode_eq_iff {bytes : List UInt8} {text : List Char} :
    decode bytes = (text, none) ↔ bytes = encode text := by
  rw [decode_eq, decodeBlocks_eq_iff, flatten_blocks]
  constructor
  · rintro ⟨final, run, between, reversed⟩
    obtain ⟨same_text, same, reversed'⟩ := exists_text between_start run between
    rw [reversed, List.append_nil, List.reverse_inj] at reversed'
    rw [same, reversed']
  · rintro rfl
    obtain ⟨final, run, between, reversed⟩ := run_encode between_start text
    exact ⟨final, run, between, by rw [reversed, List.append_nil]⟩

end Transversal.Utf8
