import Showreel.Proofs.Plane.Life
import Showreel.Proofs.World.Rule

/-!
Contract: the living cells of a world as a part of the plane.

Owns:
- which cells of a world live, with dead cells beyond its edges;
- the square around a cell as a count of neighbours, for any placing of rows and columns;
- that a world with dead edges steps as the plane does, wherever its grid reaches.

Does not own: whether the plane has living cells beyond the grid.
-/

namespace Showreel.World

open Pattern

/-- Which cells of a world live. -/
def living (world : World) : Plane := fun x y =>
  world.cell x y != 0

/-- The row or column of a coordinate, if the grid has it. -/
def placeOf (world : World) (coordinate : Int) : Option Nat :=
  if 0 ≤ coordinate + world.half ∧ coordinate + world.half < world.size then
    some (coordinate + world.half).toNat
  else none

theorem placeOf_of_contains {world : World} {x y : Int} (inside : world.contains x y = true) :
    world.placeOf y = some (y + world.half).toNat
      ∧ world.placeOf x = some (x + world.half).toNat := by
  rw [contains_iff] at inside
  unfold placeOf
  rw [if_pos (by omega), if_pos (by omega)]
  exact ⟨rfl, rfl⟩

theorem placeBefore_placeOf {world : World} {coordinate : Int} {place : Nat}
    (there : world.placeOf coordinate = some place) :
    placeBefore world.size false place = world.placeOf (coordinate - 1) := by
  unfold placeOf at there ⊢
  unfold placeBefore
  split at there
  case isTrue inside =>
    cases there
    split
    · rw [if_neg Bool.false_ne_true, if_neg (by omega)]
    · rw [if_pos (by omega), Option.some.injEq]
      omega
  case isFalse => cases there

theorem placeAfter_placeOf {world : World} {coordinate : Int} {place : Nat}
    (there : world.placeOf coordinate = some place) :
    placeAfter world.size false place = world.placeOf (coordinate + 1) := by
  unfold placeOf at there ⊢
  unfold placeAfter
  split at there
  case isTrue inside =>
    cases there
    split
    · rw [if_pos (by omega), Option.some.injEq]
      omega
    · rw [if_neg Bool.false_ne_true, if_neg (by omega)]
  case isFalse => cases there

theorem seen_placeOf (world : World) (x y : Int) :
    seen world.grid (world.placeOf y) (world.placeOf x) = (world.living x y).toNat := by
  have counted : ∀ state : UInt8, aliveCount state = (state != 0).toNat := by
    intro state
    unfold aliveCount
    split
    case isTrue dead =>
      rw [dead]
      rfl
    case isFalse lives => rw [bne_iff_ne.mpr lives, Bool.toNat_true]
  cases inside : world.contains x y with
  | true =>
      rw [(placeOf_of_contains inside).1, (placeOf_of_contains inside).2]
      unfold living
      rw [cell_of_contains inside]
      exact counted _
  | false =>
      have dead : world.living x y = false := by
        unfold living
        rw [cell_of_not_contains inside]
        rfl
      have outside : world.placeOf y = none ∨ world.placeOf x = none := by
        unfold placeOf
        have uncovered : ¬ world.contains x y = true := by simp [inside]
        rw [contains_iff] at uncovered
        by_cases rowInside : 0 ≤ y + world.half ∧ y + world.half < world.size
        · right
          rw [if_neg (by omega)]
        · left
          rw [if_neg rowInside]
      rw [dead]
      rcases outside with outside | outside
      · rw [outside]
        rfl
      · rw [outside, seen_none]
        rfl

/-- The square around a cell, counted on a plane whose coordinates stand for rows and columns. -/
theorem seenAround_of_places {size : Nat} {wraps : Bool} {grid : Block size size} {plane : Plane}
    (places : Int → Option Nat)
    (before : ∀ {coordinate place}, places coordinate = some place →
      placeBefore size wraps place = places (coordinate - 1))
    (after : ∀ {coordinate place}, places coordinate = some place →
      placeAfter size wraps place = places (coordinate + 1))
    (shown : ∀ x y, seen grid (places y) (places x) = (plane x y).toNat)
    {x y : Int} {row column : Nat} (atRow : places y = some row)
    (atColumn : places x = some column) :
    seenAround wraps grid row column = plane.neighbours x y + (plane x y).toNat := by
  unfold seenAround seenColumn
  rw [before atRow, after atRow, before atColumn, after atColumn, ← atRow, ← atColumn]
  simp only [shown]
  unfold Plane.neighbours Plane.neighbourSteps
  simp only [List.countP_cons, List.countP_nil, Int.add_zero, ← Int.sub_eq_add_neg]
  have counted : ∀ lives : Bool, (if lives = true then 1 else 0) = lives.toNat := by decide
  simp only [counted]
  omega

/-- With dead edges the square around a cell is that of the living cells. -/
theorem seenAround_eq {world : World} {x y : Int} (inside : world.contains x y = true) :
    seenAround false world.grid (y + world.half).toNat (x + world.half).toNat
      = world.living.neighbours x y + (world.living x y).toNat :=
  seenAround_of_places world.placeOf placeBefore_placeOf placeAfter_placeOf (seen_placeOf world)
    (placeOf_of_contains inside).1 (placeOf_of_contains inside).2

/-- Counting a cell with its neighbours is the same rule. -/
theorem livesNext_eq_next (plane : Plane) (x y : Int) :
    livesNext (plane.neighbours x y + (plane x y).toNat) (plane x y) = plane.next x y := by
  unfold livesNext Plane.next
  cases plane x y with
  | true => simp
  | false => simp

/-- A cell that lives as on a plane, and has the neighbours that it has there, steps as the plane
does. -/
theorem cell_step_of_seenAround {world : World} {plane : Plane} {x y : Int}
    (inside : world.contains x y = true) (here : plane x y = world.living x y)
    (around : seenAround world.wraps world.grid (y + world.half).toNat (x + world.half).toNat
      = plane.neighbours x y + (plane x y).toNat) (record : StepRecord) :
    (world.step record).cell x y = if plane.next x y then 1 else 0 := by
  have onGrid := (contains_iff world x y).mp inside
  have rowInside : (y + world.half).toNat < world.size := by omega
  have columnInside : (x + world.half).toNat < world.size := by omega
  have insideThen : (world.step record).contains x y = true := inside
  have stepped : (world.step record).cell x y =
      (nextGrid world.wraps world.grid).state (y + world.half).toNat (x + world.half).toNat :=
    cell_of_contains insideThen
  have alive : (world.grid.state (y + world.half).toNat (x + world.half).toNat != 0)
      = plane x y := by
    rw [here]
    unfold living
    rw [cell_of_contains inside]
  rw [stepped, state_nextGrid world.wraps world.grid rowInside columnInside, around, alive,
    livesNext_eq_next]

/-- With dead edges a step is one generation of the plane, wherever the grid reaches. -/
theorem cell_step {world : World} (walled : world.wraps = false) (record : StepRecord)
    {x y : Int} (inside : world.contains x y = true) :
    (world.step record).cell x y = if world.living.next x y then 1 else 0 := by
  refine cell_step_of_seenAround inside rfl ?_ record
  rw [walled]
  exact seenAround_eq inside

end Showreel.World
