/-
Random streams and what is drawn from them.

* `RandomStream`: a source of whole numbers up to a bound and of fractions below one; the bounds
  are in the types, so every law below holds for every source.
* `shuffle`: a random order of a list, by exchanging each place with one at or before it.
* `shuffle_perm`: the order holds the same entries.
* `pick?`: one entry of a list.
-/
import Transversal.Number.Binary64

namespace Transversal

/-- A source of random numbers with a state of type `σ`. -/
class RandomStream (σ : Type) where
  /-- A whole number from zero up to a bound, the bound included. -/
  upTo : (bound : Nat) → σ → Fin (bound + 1) × σ
  /-- The numerator of a fraction of `2 ^ 53`. -/
  fraction : σ → Fin (Nat.pow 2 53) × σ

namespace RandomStream

variable {σ α : Type} [RandomStream σ]

/-- The places from `last` down to one, each exchanged with a random one at or before it. -/
def exchangeDown : (last : Nat) → Array α → σ → Array α × σ
  | 0, order, stream => (order, stream)
  | last + 1, order, stream =>
    let (place, stream) := upTo (last + 1) stream
    exchangeDown last (order.swapIfInBounds (last + 1) place) stream

/-- A random order of the entries. -/
def shuffle (entries : List α) (stream : σ) : List α × σ :=
  let (order, stream) := exchangeDown (entries.length - 1) entries.toArray stream
  (order.toList, stream)

theorem swapIfInBounds_perm (order : Array α) (i j : Nat) :
    (order.swapIfInBounds i j).Perm order := by
  unfold Array.swapIfInBounds
  split
  · split
    · exact Array.swap_perm _ _
    · exact Array.Perm.refl _
  · exact Array.Perm.refl _

theorem exchangeDown_perm (last : Nat) (order : Array α) (stream : σ) :
    (exchangeDown last order stream).1.Perm order := by
  induction last generalizing order stream with
  | zero => exact Array.Perm.refl _
  | succ last ih => exact (ih _ _).trans (swapIfInBounds_perm _ _ _)

/-- A shuffled list holds the same entries, each as often as before. -/
theorem shuffle_perm (entries : List α) (stream : σ) :
    (shuffle entries stream).1.Perm entries := by
  simpa [shuffle, Array.perm_iff_toList_perm] using
    exchangeDown_perm (entries.length - 1) entries.toArray stream

/-- One entry of a list; nothing, and nothing drawn, if it is empty. -/
def pick? (entries : List α) (stream : σ) : Option α × σ :=
  match entries with
  | [] => (none, stream)
  | first :: rest =>
    let (place, stream) := upTo rest.length stream
    (some ((first :: rest)[place]), stream)

end RandomStream

end Transversal
