/-
The Mersenne twister with 624 words of 32 bits.

* `Twister.ofSeed`: the state for a whole number, whose sign does not matter.
* `Twister.bits`: any number of random bits.
* `instRandomStreamTwister`: whole numbers by rejection, fractions from 53 bits.
-/
import Transversal.Stream.Basic

namespace Transversal

/-- The state: the words in use, and how many of them have been taken. -/
structure Twister where
  words : Vector UInt32 624
  taken : Nat

namespace Twister

/-- The word at a place, counted around the state. -/
def wordAt (words : Vector UInt32 624) (place : Nat) : UInt32 :=
  words.get ⟨place % 624, Nat.mod_lt _ (by decide)⟩

/-- A word replaced, counted around the state. -/
def put (words : Vector UInt32 624) (place : Nat) (word : UInt32) : Vector UInt32 624 :=
  words.set (place % 624) word (Nat.mod_lt _ (by decide))

/-- How a word is stirred before it enters the next one. -/
def stir (word : UInt32) : UInt32 := word ^^^ (word >>> 30)

/-- The state grown from one word. -/
def grow (seed : UInt32) : Vector UInt32 624 :=
  (List.range 623).foldl
    (fun words place =>
      put words (place + 1) (1812433253 * stir (wordAt words place) + (place + 1).toUInt32))
    (put (Vector.replicate 624 0) 0 seed)

/-- The place after `place`; past the last one the last word is copied to the front. -/
def stepPlace (words : Vector UInt32 624) (place : Nat) : Vector UInt32 624 × Nat :=
  if place + 1 < 624 then (words, place + 1) else (put words 0 (wordAt words 623), 1)

/-- The key mixed into the state, one word of it at a time. -/
def absorb (key : Array UInt32) (words : Vector UInt32 624) : Vector UInt32 624 × Nat :=
  (List.range (max 624 key.size)).foldl
    (fun (words, place) round =>
      let index := round % key.size
      let mixed := wordAt words place ^^^ (stir (wordAt words (place - 1)) * 1664525)
      stepPlace (put words place (mixed + key.getD index 0 + index.toUInt32)) place)
    (words, 1)

/-- The last pass over the state, without the key. -/
def settle (words : Vector UInt32 624) (place : Nat) : Vector UInt32 624 :=
  let (words, _) := (List.range 623).foldl
    (fun (words, place) _ =>
      let mixed := wordAt words place ^^^ (stir (wordAt words (place - 1)) * 1566083941)
      stepPlace (put words place (mixed - place.toUInt32)) place)
    (words, place)
  put words 0 0x80000000

/-- The state for a key of words. -/
def ofKey (key : Array UInt32) : Twister :=
  let (words, place) := absorb key (grow 19650218)
  ⟨settle words place, 624⟩

/-- How many values a word has. -/
def wordValues : Nat := 0x100000000

/-- The words of a natural number, the least significant one first; zero has one word. -/
def wordsOf (value : Nat) : List UInt32 :=
  if value < wordValues then [value.toUInt32]
  else (value % wordValues).toUInt32 :: wordsOf (value / wordValues)
termination_by value
decreasing_by
  unfold wordValues at *
  omega

/-- The state for a seed. -/
def ofSeed (seed : Int) : Twister := ofKey (wordsOf seed.natAbs).toArray

/-- All words replaced by the next ones. -/
def twist (words : Vector UInt32 624) : Vector UInt32 624 :=
  (List.range 624).foldl
    (fun words place =>
      let joined :=
        (wordAt words place &&& 0x80000000) ||| (wordAt words (place + 1) &&& 0x7FFFFFFF)
      let carry : UInt32 := if joined &&& 1 = 1 then 0x9908B0DF else 0
      put words place (wordAt words (place + 397) ^^^ (joined >>> 1) ^^^ carry))
    words

/-- A word made even before it is handed out. -/
def temper (word : UInt32) : UInt32 :=
  let word := word ^^^ (word >>> 11)
  let word := word ^^^ ((word <<< 7) &&& 0x9D2C5680)
  let word := word ^^^ ((word <<< 15) &&& 0xEFC60000)
  word ^^^ (word >>> 18)

/-- The next 32 random bits. -/
def next (twister : Twister) : UInt32 × Twister :=
  let ready := if twister.taken < 624 then twister else ⟨twist twister.words, 0⟩
  (temper (wordAt ready.words ready.taken), ⟨ready.words, ready.taken + 1⟩)

/-- The next random bits: whole words, the least significant one first, and of the last word as
many of its leading bits as are still wanted. -/
def bits : (count : Nat) → Twister → Nat × Twister
  | 0, twister => (0, twister)
  | count + 1, twister =>
    let (word, twister) := twister.next
    if count < 32 then (word.toNat >>> (31 - count), twister)
    else
      let (higher, twister) := bits (count + 1 - 32) twister
      (word.toNat + higher * wordValues, twister)
termination_by count => count
decreasing_by omega

/-- How many draws a number up to a bound may take. Each draw is refused with a chance of at most
one half. -/
def maxAttempts : Nat := 8192

/-- A number up to a bound: as many bits as one more than the bound has, drawn until they are in
range. -/
def draw (bound : Nat) : (attempts : Nat) → Twister → Fin (bound + 1) × Twister
  | 0, twister => (0, twister)
  | attempts + 1, twister =>
    let (value, twister) := twister.bits ((bound + 1).log2 + 1)
    if inRange : value < bound + 1 then (⟨value, inRange⟩, twister)
    else draw bound attempts twister

/-- A fraction of 53 bits: 27 of one word and 26 of the next. -/
def drawFraction (twister : Twister) : Fin (Nat.pow 2 53) × Twister :=
  let (high, twister) := twister.next
  let (low, twister) := twister.next
  (Fin.ofNat (Nat.pow 2 53) ((high >>> 5).toNat * Nat.pow 2 26 + (low >>> 6).toNat), twister)

end Twister

instance : RandomStream Twister where
  upTo bound := Twister.draw bound Twister.maxAttempts
  fraction := Twister.drawFraction

end Transversal
