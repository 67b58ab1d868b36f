/-
Reading bytes as UTF-8, block by block.

* `Utf8.step`: one byte; the state holds what the character begun still owes and the bounds of its
  next byte, so that overlong forms, surrogates and values past U+10FFFF are refused at once.
* `Utf8.decode`: the characters of all blocks before the first block with a flaw, and that flaw.
-/

namespace Transversal.Utf8

/-- Why bytes are not UTF-8. -/
inductive Flaw
  | badStart
  | badContinuation
  | endsEarly
deriving DecidableEq

/-- The flaw in words. -/
def Flaw.reason : Flaw → String
  | .badStart => "invalid start byte"
  | .badContinuation => "invalid continuation byte"
  | .endsEarly => "unexpected end of data"

/-- A character begun: how many bytes it owes, the bounds of the next one, and the bits so far. -/
structure Pending where
  owed : Nat
  least : Nat
  greatest : Nat
  bits : Nat

/-- Between two characters. -/
def Pending.none : Pending := ⟨0, 0x80, 0xBF, 0⟩

/-- What the first byte of a character says of the others. The second byte is bounded more
narrowly where the character would be overlong, a surrogate or too large. -/
def start (byte : Nat) : Except Flaw Pending :=
  if byte < 0x80 then .ok ⟨0, 0x80, 0xBF, byte⟩
  else if byte < 0xC2 then .error .badStart
  else if byte < 0xE0 then .ok ⟨1, 0x80, 0xBF, byte - 0xC0⟩
  else if byte = 0xE0 then .ok ⟨2, 0xA0, 0xBF, 0⟩
  else if byte = 0xED then .ok ⟨2, 0x80, 0x9F, 0xD⟩
  else if byte < 0xF0 then .ok ⟨2, 0x80, 0xBF, byte - 0xE0⟩
  else if byte = 0xF0 then .ok ⟨3, 0x90, 0xBF, 0⟩
  else if byte < 0xF4 then .ok ⟨3, 0x80, 0xBF, byte - 0xF0⟩
  else if byte = 0xF4 then .ok ⟨3, 0x80, 0x8F, 4⟩
  else .error .badStart

/-- The state after one more byte. -/
def advance (pending : Pending) (byte : Nat) : Except Flaw Pending :=
  if pending.owed = 0 then start byte
  else if pending.least ≤ byte ∧ byte ≤ pending.greatest then
    .ok ⟨pending.owed - 1, 0x80, 0xBF, pending.bits * 64 + byte % 64⟩
  else .error .badContinuation

/-- The characters read so far, the last one first, and the character begun. -/
structure Decoded where
  reversed : List Char
  pending : Pending

/-- One byte: it completes a character, or begins or continues one. -/
def step (decoded : Decoded) (byte : UInt8) : Except Flaw Decoded :=
  (advance decoded.pending byte.toNat).map fun pending =>
    if pending.owed = 0 then ⟨Char.ofNat pending.bits :: decoded.reversed, pending⟩
    else ⟨decoded.reversed, pending⟩

/-- How many bytes are read at a time. -/
def blockSize : Nat := 8192

/-- The bytes in blocks; the last one may be shorter. -/
def blocks : List UInt8 → List (List UInt8)
  | [] => []
  | first :: rest => (first :: rest).take blockSize :: blocks (rest.drop (blockSize - 1))
termination_by bytes => bytes.length
decreasing_by
  rw [List.length_drop, List.length_cons]
  omega

/-- The characters of the blocks before the first one with a flaw, the last character first, and
that flaw. A character that the last block leaves incomplete is a flaw of the end. -/
def decodeBlocks (decoded : Decoded) : List (List UInt8) → List Char × Option Flaw
  | [] =>
    (decoded.reversed, if decoded.pending.owed = 0 then Option.none else some .endsEarly)
  | block :: rest =>
    match block.foldlM step decoded with
    | .ok next => decodeBlocks next rest
    | .error flaw => (decoded.reversed, some flaw)

/-- The characters read before the first flaw, and that flaw. -/
def decode (bytes : List UInt8) : List Char × Option Flaw :=
  let (reversed, flaw) := decodeBlocks ⟨[], .none⟩ (blocks bytes)
  (reversed.reverse, flaw)

end Transversal.Utf8
