/-
**The words of the twister in one number.**

A seed goes through four passes over all words before the first draw. Here the words are the digits
of one number to the base `2 ^ 32`, so that a pass is a calculation with numbers.

* `Twister.unpack`: the words of a number; `Twister.wordAt_unpack`, `Twister.put_unpack`: reading
  one and replacing one.
* `Twister.ofKey_eq`, `Twister.twist_unpack`: the passes, on the number.
* `Twister.shuffle_spent`: words that have all been handed out are replaced at the next draw.
* `Task.roundAt_streamOf`: so the round of a restart is drawn from the words of a number.
-/
import Transversal.Proofs.Run
import Transversal.Restart.Interleaving
import Transversal.Stream.Seed

namespace Transversal

namespace Twister

/-! ### Reading and replacing a word -/

/-- The word at a place of a number, counted around the state. -/
def packedAt (packed place : Nat) : UInt32 := (packed >>> (32 * (place % 624))).toUInt32

/-- A word of a number replaced, counted around the state. -/
def packedPut (packed place : Nat) (word : UInt32) : Nat :=
  packed ^^^ ((packedAt packed place ^^^ word).toNat <<< (32 * (place % 624)))

/-- The words of a number. -/
def unpack (packed : Nat) : Vector UInt32 624 := ⟨⟨(List.range 624).map (packedAt packed)⟩, by simp⟩

theorem getElem_unpack (packed : Nat) {place : Nat} (within : place < 624) :
    (unpack packed)[place] = packedAt packed place := by
  simp [unpack]

theorem unpack_zero : unpack 0 = Vector.replicate 624 0 := by
  ext place within
  rw [getElem_unpack, packedAt, Nat.zero_shiftRight, Vector.getElem_replicate]
  rfl

theorem wordAt_unpack (packed place : Nat) :
    wordAt (unpack packed) place = packedAt packed place := by
  have within : place % 624 < 624 := Nat.mod_lt _ (by decide)
  show (unpack packed)[place % 624] = _
  rw [getElem_unpack, packedAt, packedAt, Nat.mod_mod]

/-- A word shifted to one place is read there, and nothing at any other place. -/
theorem toUInt32_shift (word : UInt32) (place other : Nat) :
    ((word.toNat <<< (32 * place)) >>> (32 * other)).toUInt32 =
      if place = other then word else 0 := by
  split
  · rename_i same
    rw [same, Nat.shiftLeft_shiftRight]
    exact UInt32.ofNat_toNat
  · rename_i apart
    rw [← UInt32.toNat_inj]
    refine Nat.eq_of_testBit_eq fun bit => ?_
    show (((word.toNat <<< (32 * place)) >>> (32 * other)) % 2 ^ 32).testBit bit =
      Nat.testBit 0 bit
    rw [Nat.testBit_mod_two_pow, Nat.testBit_shiftRight, Nat.testBit_shiftLeft, Nat.zero_testBit]
    by_cases inWord : bit < 32
    · by_cases before : 32 * place ≤ 32 * other + bit
      · have past : word.toNat < 2 ^ (32 * other + bit - 32 * place) :=
          Nat.lt_of_lt_of_le word.toNat_lt (Nat.pow_le_pow_right (by decide) (by omega))
        rw [Nat.testBit_lt_two_pow past, Bool.and_false, Bool.and_false]
      · rw [decide_eq_false before, Bool.false_and, Bool.and_false]
    · rw [decide_eq_false inWord, Bool.false_and]

/-- A replaced word is read back, and all other words are as before. -/
theorem packedAt_packedPut (packed place : Nat) (word : UInt32) {other : Nat}
    (within : other < 624) : packedAt (packedPut packed place word) other =
      if place % 624 = other then word else packedAt packed other := by
  rw [packedAt, Nat.mod_eq_of_lt within, packedPut, Nat.shiftRight_xor_distrib, Nat.toUInt32,
    UInt32.ofNat_xor]
  refine (congrArg _ (toUInt32_shift _ _ other)).trans ?_
  split
  · rename_i same
    rw [packedAt, same, Nat.toUInt32, ← UInt32.xor_assoc, UInt32.xor_self, UInt32.zero_xor]
  · rw [UInt32.xor_zero, packedAt, Nat.mod_eq_of_lt within, Nat.toUInt32]

theorem put_unpack (packed place : Nat) (word : UInt32) :
    put (unpack packed) place word = unpack (packedPut packed place word) := by
  ext other within
  rw [put, Vector.getElem_set, getElem_unpack, getElem_unpack, packedAt_packedPut _ _ _ within]

/-! ### The passes -/

/-- The state grown from one word. -/
def packedGrow (seed : UInt32) : Nat :=
  (List.range 623).foldl
    (fun packed place => packedPut packed (place + 1)
      (1812433253 * stir (packedAt packed place) + (place + 1).toUInt32))
    (packedPut 0 0 seed)

theorem grow_eq (seed : UInt32) : grow seed = unpack (packedGrow seed) := by
  rw [grow, packedGrow, ← unpack_zero, put_unpack]
  refine List.foldl_hom unpack fun packed place => ?_
  rw [wordAt_unpack, put_unpack]

/-- The place after `place`. -/
def packedStep (packed place : Nat) : Nat × Nat :=
  if place + 1 < 624 then (packed, place + 1) else (packedPut packed 0 (packedAt packed 623), 1)

/-- The words of a number, and a place among them. -/
def unpackAt (state : Nat × Nat) : Vector UInt32 624 × Nat := (unpack state.1, state.2)

theorem stepPlace_unpack (packed place : Nat) :
    stepPlace (unpack packed) place = unpackAt (packedStep packed place) := by
  rw [stepPlace, packedStep]
  split
  · rfl
  · rw [wordAt_unpack, put_unpack]
    rfl

/-- The key mixed into the state. -/
def packedAbsorb (key : Array UInt32) (packed : Nat) : Nat × Nat :=
  (List.range (max 624 key.size)).foldl
    (fun (packed, place) round =>
      let index := round % key.size
      let mixed := packedAt packed place ^^^ (stir (packedAt packed (place - 1)) * 1664525)
      packedStep (packedPut packed place (mixed + key.getD index 0 + index.toUInt32)) place)
    (packed, 1)

theorem absorb_unpack (key : Array UInt32) (packed : Nat) :
    absorb key (unpack packed) = unpackAt (packedAbsorb key packed) := by
  show List.foldl _ (unpackAt (packed, 1)) _ = _
  refine List.foldl_hom unpackAt fun state round => ?_
  simp only [unpackAt, wordAt_unpack, put_unpack, stepPlace_unpack]

/-- A word of the last pass, without the key. -/
def packedSettleStep (state : Nat × Nat) : Nat × Nat :=
  let mixed := packedAt state.1 state.2 ^^^ (stir (packedAt state.1 (state.2 - 1)) * 1566083941)
  packedStep (packedPut state.1 state.2 (mixed - state.2.toUInt32)) state.2

/-- The last pass. -/
def packedSettle (packed place : Nat) : Nat :=
  packedPut ((List.range 623).foldl (fun state _ => packedSettleStep state) (packed, place)).1 0
    0x80000000

theorem settle_unpack (packed place : Nat) :
    settle (unpack packed) place = unpack (packedSettle packed place) := by
  rw [settle, packedSettle, ← put_unpack]
  generalize List.range 623 = rounds
  split
  rename_i words last passed
  have same : (words, last) =
      unpackAt (rounds.foldl (fun state _ => packedSettleStep state) (packed, place)) := by
    rw [← passed]
    show List.foldl _ (unpackAt (packed, place)) rounds = _
    refine List.foldl_hom unpackAt fun state _ => ?_
    simp only [unpackAt, wordAt_unpack, put_unpack, stepPlace_unpack, packedSettleStep]
  obtain ⟨rfl, -⟩ := Prod.mk.inj same
  rfl

/-- The words for a key. -/
def packedOfKey (key : Array UInt32) : Nat :=
  let (packed, place) := packedAbsorb key (packedGrow 19650218)
  packedSettle packed place

/-- **The state for a key**, on the number. -/
theorem ofKey_eq (key : Array UInt32) : ofKey key = ⟨unpack (packedOfKey key), 624⟩ := by
  rw [ofKey, grow_eq, absorb_unpack, packedOfKey]
  simp only [unpackAt, settle_unpack]

/-- All words replaced by the next ones. -/
def packedTwist (packed : Nat) : Nat :=
  (List.range 624).foldl
    (fun packed place =>
      let joined :=
        (packedAt packed place &&& 0x80000000) ||| (packedAt packed (place + 1) &&& 0x7FFFFFFF)
      let carry : UInt32 := if joined &&& 1 = 1 then 0x9908B0DF else 0
      packedPut packed place (packedAt packed (place + 397) ^^^ (joined >>> 1) ^^^ carry))
    packed

theorem twist_unpack (packed : Nat) : twist (unpack packed) = unpack (packedTwist packed) := by
  rw [twist, packedTwist]
  refine List.foldl_hom unpack fun packed place => ?_
  simp only [wordAt_unpack, put_unpack]

/-! ### Words that have all been handed out -/

variable (words : Vector UInt32 624)

theorem next_spent : next ⟨words, 624⟩ = next ⟨twist words, 0⟩ := by
  rw [next, next, if_neg (Nat.lt_irrefl _), if_pos (Nat.succ_pos 623)]

theorem bits_spent (count : Nat) :
    bits (count + 1) ⟨words, 624⟩ = bits (count + 1) ⟨twist words, 0⟩ := by
  rw [bits, bits, next_spent]

theorem draw_spent (bound attempts : Nat) :
    draw bound (attempts + 1) ⟨words, 624⟩ = draw bound (attempts + 1) ⟨twist words, 0⟩ := by
  rw [draw, draw, bits_spent]

theorem upTo_spent (bound : Nat) :
    RandomStream.upTo bound (⟨words, 624⟩ : Twister) = RandomStream.upTo bound ⟨twist words, 0⟩ :=
  draw_spent words bound 8191

/-- **The next draw replaces words that have all been handed out.** -/
theorem shuffle_spent {α : Type} {entries : List α} (several : 2 ≤ entries.length) :
    RandomStream.shuffle entries (⟨words, 624⟩ : Twister) =
      RandomStream.shuffle entries ⟨twist words, 0⟩ := by
  obtain ⟨last, size⟩ : ∃ last, entries.length - 1 = last + 1 := ⟨entries.length - 2, by omega⟩
  rw [RandomStream.shuffle, RandomStream.shuffle, size, RandomStream.exchangeDown,
    RandomStream.exchangeDown, upTo_spent]

end Twister

/-! ### The first draw of a restart -/

/-- The stream with a given number, once its first words are there. -/
def packedStream (seed index : Nat) : Twister :=
  ⟨Twister.unpack (Twister.packedTwist (Twister.packedOfKey
    (Twister.wordsOf (SeedPool.ofEntropy (streamEntropy seed index)).wide).toArray)), 0⟩

theorem shuffle_streamOf (seed index : Nat) {α : Type} {entries : List α}
    (several : 2 ≤ entries.length) : RandomStream.shuffle entries (streamOf seed index) =
      RandomStream.shuffle entries (packedStream seed index) := by
  rw [streamOf, Twister.ofSeed, Int.natAbs_natCast, Twister.ofKey_eq,
    Twister.shuffle_spent _ several, Twister.twist_unpack, packedStream]

/-- **A round begins with a shuffle**, so it is the same on this stream. -/
theorem Task.roundAt_streamOf {task : Task} (several : 2 ≤ task.incidence.pathCount)
    {streamAt : Nat → Except Fault Twister} {seed index : Nat}
    (stream : streamAt index = .ok (streamOf seed index)) :
    task.roundAt streamAt index = (task.round.run.run ⟨packedStream seed index, #[]⟩).1 := by
  have long : 2 ≤ (List.range task.incidence.pathCount).length := by rwa [List.length_range]
  have sampled : (sampledCover task.incidence task.activities task.maxDraws).run.run
      ⟨streamOf seed index, #[]⟩ = (sampledCover task.incidence task.activities
        task.maxDraws).run.run ⟨packedStream seed index, #[]⟩ := by
    rw [sampledCover, Run.run_draw_bind, Run.run_draw_bind, shuffle_streamOf seed index long]
  rw [Task.roundAt, stream]
  show (task.round.run.run ⟨streamOf seed index, #[]⟩).1 = _
  rw [Task.round, Run.run_bind, Run.run_bind, sampled]

end Transversal
