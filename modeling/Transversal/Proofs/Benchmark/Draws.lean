/-
**Which paths the sets of a random relation draw.**

* `Benchmark.fractionAt`: the fractions of a stream, one after the other.
* `Benchmark.IsDrawn`: a set draws a path if the fraction for the two is below the density; the
  fractions are taken set by set, and path by path.
* `Benchmark.run_drawSets`: what is drawn, and where the stream stands afterwards.
-/
import Mathlib.Logic.Function.Iterate
import Mathlib.Tactic.Ring
import Transversal.Benchmark.Generate
import Transversal.Proofs.Run

namespace Transversal.Benchmark

variable {σ : Type} [RandomStream σ]

/-! ### The fractions of a stream -/

/-- A stream after so many fractions. -/
def afterFractions (stream : σ) (count : Nat) : σ :=
  (fun stream => (RandomStream.fraction stream).2)^[count] stream

/-- **The fraction that a stream has at a place**, counted from zero. -/
def fractionAt (stream : σ) (place : Nat) : Binary64 :=
  .ofFraction (RandomStream.fraction (afterFractions stream place)).1

theorem afterFractions_succ (stream : σ) (count : Nat) :
    (RandomStream.fraction (afterFractions stream count)).2 = afterFractions stream (count + 1) :=
  (Function.iterate_succ_apply' (fun stream => (RandomStream.fraction stream).2) count stream).symm

theorem afterFractions_afterFractions (stream : σ) (first second : Nat) :
    afterFractions (afterFractions stream first) second =
      afterFractions stream (first + second) := by
  unfold afterFractions
  rw [Nat.add_comm, Function.iterate_add_apply]

theorem fractionAt_afterFractions (stream : σ) (count place : Nat) :
    fractionAt (afterFractions stream count) place = fractionAt stream (count + place) := by
  rw [fractionAt, afterFractions_afterFractions, fractionAt]

/-! ### One set -/

variable {density : Binary64}

/-- Whether a path is hit, by the next fraction. -/
def drawHit (density : Binary64) : Run σ Bool := do pure ((← drawFraction).lt density)

theorem run_drawHit (stream : σ) (events : Array Event) (place : Nat) :
    (drawHit density).run.run ⟨afterFractions stream place, events⟩ =
      (.ok ((fractionAt stream place).lt density),
        ⟨afterFractions stream (place + 1), events⟩) := by
  rw [← afterFractions_succ]
  rfl

/-- The paths from one on, in front of those that are hit already. -/
theorem run_filterAuxM (stream : σ) (events : Array Event) (start length : Nat)
    (hit : List Int) :
    (List.filterAuxM (fun _ => drawHit density) ((List.range' start length).map Int.ofNat)
        hit).run.run ⟨afterFractions stream start, events⟩ =
      (.ok ((((List.range' start length).filter fun path =>
          (fractionAt stream path).lt density).map Int.ofNat).reverse ++ hit),
        ⟨afterFractions stream (start + length), events⟩) := by
  induction length generalizing start hit with
  | zero => rfl
  | succ length ih =>
    rw [List.range'_succ, List.map_cons, List.filterAuxM, Run.run_bind, run_drawHit]
    dsimp only
    rw [ih, List.filter_cons, Nat.add_right_comm, Nat.add_assoc]
    cases (fractionAt stream start).lt density <;> simp

/-- The paths of one set: those whose fraction is below the density. -/
def pathsBelow (stream : σ) (density : Binary64) (pathCount : Nat) : List Int :=
  ((List.range pathCount).filter fun path => (fractionAt stream path).lt density).map Int.ofNat

theorem run_drawSet (stream : σ) (events : Array Event) (pathCount : Int) :
    (drawSet pathCount density).run.run ⟨stream, events⟩ =
      (.ok (pathsBelow stream density pathCount.toNat),
        ⟨afterFractions stream pathCount.toNat, events⟩) := by
  show ((pathsUpTo pathCount).filterM fun _ => drawHit density).run.run
    ⟨afterFractions stream 0, events⟩ = _
  rw [List.filterM, pathsUpTo, List.range_eq_range', Run.run_bind, run_filterAuxM, pathsBelow,
    List.append_nil, Nat.zero_add, List.range_eq_range']
  show (Except.ok _, _) = _
  rw [List.reverse_reverse]

/-! ### All sets -/

/-- The paths of so many sets. The fractions of a set follow those of the sets before it. -/
def setsBelow (stream : σ) (density : Binary64) (pathCount setCount : Nat) : List (List Int) :=
  (List.range setCount).map fun set =>
    pathsBelow (afterFractions stream (set * pathCount)) density pathCount

theorem setsBelow_succ (stream : σ) (pathCount setCount : Nat) :
    setsBelow stream density pathCount (setCount + 1) =
      pathsBelow stream density pathCount ::
        setsBelow (afterFractions stream pathCount) density pathCount setCount := by
  unfold setsBelow
  rw [List.range_succ_eq_map, List.map_cons, List.map_map, Nat.zero_mul]
  refine congrArg₂ List.cons rfl (List.map_congr_left fun set _ => ?_)
  rw [afterFractions_afterFractions, Function.comp_apply, Nat.succ_mul, Nat.add_comm]

/-- **What is drawn**, and where the stream stands afterwards. -/
theorem run_drawSets (stream : σ) (events : Array Event) (pathCount : Int) (setCount : Nat) :
    (drawSets pathCount density setCount).run.run ⟨stream, events⟩ =
      (.ok (setsBelow stream density pathCount.toNat setCount),
        ⟨afterFractions stream (setCount * pathCount.toNat), events⟩) := by
  induction setCount generalizing stream with
  | zero =>
    rw [Nat.zero_mul]
    rfl
  | succ setCount ih =>
    rw [drawSets, Run.run_bind, run_drawSet]
    dsimp only
    rw [Run.run_bind, ih, setsBelow_succ, afterFractions_afterFractions, Nat.succ_mul,
      Nat.add_comm]
    rfl

/-- **A set draws a path** if the fraction for the two is below the density. -/
def IsDrawn (stream : σ) (density : Binary64) (pathCount set path : Nat) : Prop :=
  (fractionAt stream (set * pathCount + path)).lt density

theorem mem_pathsBelow {stream : σ} {pathCount : Nat} {path : Int} :
    path ∈ pathsBelow stream density pathCount ↔
      ∃ place < pathCount, path = place ∧ (fractionAt stream place).lt density := by
  simp only [pathsBelow, List.mem_map, List.mem_filter, List.mem_range]
  constructor
  · rintro ⟨place, ⟨within, below⟩, rfl⟩
    exact ⟨place, within, rfl, below⟩
  · rintro ⟨place, within, rfl, below⟩
    exact ⟨place, ⟨within, below⟩, rfl⟩

theorem nodup_pathsBelow (stream : σ) (pathCount : Nat) :
    (pathsBelow stream density pathCount).Nodup :=
  (List.Pairwise.filter _ List.nodup_range).map Int.ofNat
    fun _ _ apart same => apart (Int.ofNat.inj same)

theorem nodup_of_mem_setsBelow {stream : σ} {pathCount setCount : Nat} {paths : List Int}
    (member : paths ∈ setsBelow stream density pathCount setCount) : paths.Nodup := by
  obtain ⟨set, _, rfl⟩ := List.mem_map.mp member
  exact nodup_pathsBelow _ _

theorem length_setsBelow (stream : σ) (pathCount setCount : Nat) :
    (setsBelow stream density pathCount setCount).length = setCount := by
  rw [setsBelow, List.length_map, List.length_range]

theorem mem_setsBelow {stream : σ} {pathCount setCount set : Nat} {path : Int} :
    path ∈ (setsBelow stream density pathCount setCount)[set]?.getD [] ↔
      set < setCount ∧ ∃ place < pathCount, path = place ∧
        IsDrawn stream density pathCount set place := by
  unfold setsBelow IsDrawn
  by_cases within : set < setCount
  · simp [within, mem_pathsBelow, fractionAt_afterFractions]
  · simp [within]

end Transversal.Benchmark
