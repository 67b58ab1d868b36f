/-
Independent streams derived from one seed.

* `SeedPool.ofEntropy`: a pool of four words, into which a seed and the number of a stream are
  hashed.
* `streamOf`, `streamOf?`: the random stream with a given number.
-/
import Transversal.Fault
import Transversal.Stream.Twister

namespace Transversal

/-- Four words of entropy. -/
structure SeedPool where
  words : Vector UInt32 4

namespace SeedPool

/-- The hash constant in use, and a hashed word. -/
structure Hashed where
  word : UInt32
  constant : UInt32

/-- A word hashed with a constant that changes from call to call. -/
def hash (multiplier constant word : UInt32) : Hashed :=
  let mixed := word ^^^ constant
  let constant := constant * multiplier
  let mixed := mixed * constant
  ⟨mixed ^^^ (mixed >>> 16), constant⟩

/-- Hashing into the pool. -/
def hashIn (constant word : UInt32) : Hashed := hash 0x931E8875 constant word

/-- Hashing out of the pool. -/
def hashOut (constant word : UInt32) : Hashed := hash 0x58F38DED constant word

/-- Two words made one. -/
def join (first second : UInt32) : UInt32 :=
  let mixed := 0xCA01F9DD * first - 0x4973F715 * second
  mixed ^^^ (mixed >>> 16)

/-- A word hashed into one place of the pool. -/
def mixInto (pool : Vector UInt32 4 × UInt32) (word : UInt32) (target : Fin 4) :
    Vector UInt32 4 × UInt32 :=
  let hashed := hashIn pool.2 word
  (pool.1.set target (join pool.1[target] hashed.word), hashed.constant)

/-- The places of the pool. -/
def places : List (Fin 4) := [0, 1, 2, 3]

/-- The first four words fill the pool. -/
def fill (entropy : List UInt32) : Vector UInt32 4 × UInt32 :=
  places.foldl
    (fun (words, constant) (place : Fin 4) =>
      let hashed := hashIn constant (entropy.getD place.val 0)
      (words.set place hashed.word, hashed.constant))
    (Vector.replicate 4 0, 0x43B0D7E5)

/-- Every place is mixed into every other one. -/
def spread (pool : Vector UInt32 4 × UInt32) : Vector UInt32 4 × UInt32 :=
  places.foldl
    (fun pool source =>
      places.foldl
        (fun pool target =>
          if source = target then pool else mixInto pool pool.1[source] target)
        pool)
    pool

/-- The pool of a list of words: the first four fill it, each further one is mixed into every
place. -/
def ofEntropy (entropy : List UInt32) : SeedPool :=
  ⟨((entropy.drop 4).foldl (fun pool word => places.foldl (mixInto · word) pool)
    (spread (fill entropy))).1⟩

/-- Words taken out of the pool. -/
def take (pool : SeedPool) : List (Fin 4) → UInt32 → List UInt32
  | [], _ => []
  | place :: later, constant =>
    let hashed := hashOut constant pool.words[place]
    hashed.word :: take pool later hashed.constant

/-- A number of 64 bits taken out of the pool. -/
def wide (pool : SeedPool) : Nat :=
  match pool.take [0, 1] 0x8B51F9DD with
  | [low, high] => low.toNat + high.toNat * Twister.wordValues
  | _ => 0

end SeedPool

/-- The words of a seed, filled up to four, and then those of the number of a stream. -/
def streamEntropy (seed index : Nat) : List UInt32 :=
  let words := Twister.wordsOf seed
  words ++ List.replicate (4 - words.length) 0 ++ Twister.wordsOf index

/-- The stream with a given number, of a run with a given seed. -/
def streamOf (seed index : Nat) : Twister :=
  Twister.ofSeed (SeedPool.ofEntropy (streamEntropy seed index)).wide

/-- The same, for a seed and a number that must not be negative. -/
def streamOf? (seed index : Int) : Except Fault Twister :=
  if seed < 0 ∨ index < 0 then .error (.value .negativeEntropy)
  else .ok (streamOf seed.toNat index.toNat)

end Transversal
