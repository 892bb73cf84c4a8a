import Showreel.Proofs.World.Living
import Showreel.Proofs.World.Picture

/-!
Contract: the step of a whole world, its edges included.

Owns:
- what a step sees beyond the edges of a grid: the opposite side if the edges touch, and dead
  cells otherwise;
- that every cell steps by the rule of life on what it sees, and what a step leaves alone.

Does not own: the statistics that a step records.
-/

namespace Showreel.World

open Pattern

/-- The coordinate on the grid that stands for a coordinate when the edges touch. -/
def aroundEdge (world : World) (coordinate : Int) : Int :=
  (coordinate + world.half) % world.size - world.half

/-- Which cells live as a step sees them. With touching edges the grid comes again beyond each
edge; otherwise the cells there are dead. -/
def surroundings (world : World) : Plane := fun x y =>
  if world.wraps then world.cell (world.aroundEdge x) (world.aroundEdge y) != 0
  else world.cell x y != 0

theorem surroundings_of_wraps {world : World} (wrapped : world.wraps = true) (x y : Int) :
    world.surroundings x y = world.living (world.aroundEdge x) (world.aroundEdge y) := by
  unfold surroundings
  rw [if_pos wrapped]
  rfl

theorem surroundings_of_not_wraps {world : World} (walled : world.wraps = false) :
    world.surroundings = world.living := by
  unfold surroundings
  rw [walled]
  rfl

/-! ### Places round the edges -/

private theorem residue_inside (world : World) (coordinate : Int) :
    0 ≤ (coordinate + world.half) % world.size
      ∧ (coordinate + world.half) % world.size < world.size := by
  have positive : (0 : Int) < world.size := by
    have := world.size_ge
    omega
  exact ⟨Int.emod_nonneg _ (Int.ne_of_gt positive), Int.emod_lt_of_pos _ positive⟩

/-- On the grid a coordinate stands for itself. -/
theorem aroundEdge_of_inside {world : World} {coordinate : Int}
    (inside : -world.half ≤ coordinate ∧ coordinate < world.size - world.half) :
    world.aroundEdge coordinate = coordinate := by
  unfold aroundEdge
  rw [Int.emod_eq_of_lt (by omega) (by omega), Int.add_sub_cancel]

/-- The row or column of a coordinate that may lie beyond an edge. -/
private def placeAround (world : World) (coordinate : Int) : Option Nat :=
  world.placeOf (world.aroundEdge coordinate)

private theorem placeAround_eq (world : World) (coordinate : Int) :
    world.placeAround coordinate = some ((coordinate + world.half) % world.size).toNat := by
  unfold placeAround placeOf aroundEdge
  rw [Int.sub_add_cancel, if_pos (world.residue_inside coordinate)]

private theorem placeBefore_placeAround (world : World) {coordinate : Int} {place : Nat}
    (there : world.placeAround coordinate = some place) :
    placeBefore world.size true place = world.placeAround (coordinate - 1) := by
  have inside := world.residue_inside coordinate
  have shifted : (coordinate - 1 + world.half) % world.size
      = ((coordinate + world.half) % world.size - 1) % world.size := by
    rw [Int.emod_sub_emod]
    congr 1
    omega
  rw [placeAround_eq, Option.some.injEq] at there
  rw [placeAround_eq, shifted]
  unfold placeBefore
  split
  case isTrue first =>
    have zero : (coordinate + world.half) % world.size = 0 := by omega
    rw [if_pos rfl, zero, Option.some.injEq, ← Int.add_emod_right,
      Int.emod_eq_of_lt (by omega) (by omega)]
    omega
  case isFalse later =>
    rw [Option.some.injEq, Int.emod_eq_of_lt (by omega) (by omega)]
    omega

private theorem placeAfter_placeAround (world : World) {coordinate : Int} {place : Nat}
    (there : world.placeAround coordinate = some place) :
    placeAfter world.size true place = world.placeAround (coordinate + 1) := by
  have inside := world.residue_inside coordinate
  have shifted : (coordinate + 1 + world.half) % world.size
      = ((coordinate + world.half) % world.size + 1) % world.size := by
    rw [Int.emod_add_emod]
    congr 1
    omega
  rw [placeAround_eq, Option.some.injEq] at there
  rw [placeAround_eq, shifted]
  unfold placeAfter
  split
  case isTrue earlier =>
    rw [Option.some.injEq, Int.emod_eq_of_lt (by omega) (by omega)]
    omega
  case isFalse last =>
    have whole : (coordinate + world.half) % world.size + 1 = world.size := by omega
    rw [if_pos rfl, whole, Int.emod_self]
    rfl

/-! ### The step -/

/-- The square around a cell, counted on what the cell sees. -/
private theorem seenAround_surroundings {world : World} {x y : Int}
    (inside : world.contains x y = true) :
    seenAround world.wraps world.grid (y + world.half).toNat (x + world.half).toNat
      = world.surroundings.neighbours x y + (world.surroundings x y).toNat := by
  cases edges : world.wraps with
  | false =>
      rw [surroundings_of_not_wraps edges]
      exact seenAround_eq inside
  | true =>
      have onGrid := (contains_iff world x y).mp inside
      have places := placeOf_of_contains inside
      have shown : ∀ placeX placeY,
          seen world.grid (world.placeAround placeY) (world.placeAround placeX)
            = (world.surroundings placeX placeY).toNat := by
        intro placeX placeY
        rw [surroundings_of_wraps edges]
        exact seen_placeOf world _ _
      have atRow : world.placeAround y = some (y + world.half).toNat := by
        unfold placeAround
        rw [aroundEdge_of_inside ⟨onGrid.2.2.1, onGrid.2.2.2⟩]
        exact places.1
      have atColumn : world.placeAround x = some (x + world.half).toNat := by
        unfold placeAround
        rw [aroundEdge_of_inside ⟨onGrid.1, onGrid.2.1⟩]
        exact places.2
      exact seenAround_of_places world.placeAround world.placeBefore_placeAround
        world.placeAfter_placeAround shown atRow atColumn

/-- A cell of the grid sees itself as it is. -/
theorem surroundings_of_contains {world : World} {x y : Int}
    (inside : world.contains x y = true) : world.surroundings x y = world.living x y := by
  cases edges : world.wraps with
  | false => rw [surroundings_of_not_wraps edges]
  | true =>
      rw [contains_iff] at inside
      rw [surroundings_of_wraps edges, aroundEdge_of_inside ⟨inside.1, inside.2.1⟩,
        aroundEdge_of_inside ⟨inside.2.2.1, inside.2.2.2⟩]

/-- A step is one generation of the plane that its cells see. -/
theorem cell_step_surroundings {world : World} (record : StepRecord) {x y : Int}
    (inside : world.contains x y = true) :
    (world.step record).cell x y = if world.surroundings.next x y then 1 else 0 :=
  cell_step_of_seenAround inside (surroundings_of_contains inside)
    (seenAround_surroundings inside) record

/-- **A step follows the rule in every cell of the grid, at its edges and corners too.** It counts
one generation more and leaves the grid of generation zero alone. -/
theorem step_obeysRule (world : World) (record : StepRecord) :
    (∀ x y, world.contains x y = true →
      (world.step record).cell x y =
        if world.surroundings.neighbours x y = 3
            ∨ (world.surroundings.neighbours x y = 2 ∧ world.cell x y ≠ 0) then 1 else 0)
    ∧ (world.step record).generation = world.generation + 1
    ∧ (world.step record).snapshot = world.snapshot := by
  refine ⟨fun x y inside => ?_, rfl, rfl⟩
  have alive : world.surroundings x y = (world.cell x y != 0) := surroundings_of_contains inside
  rw [cell_step_surroundings record inside]
  unfold Plane.next
  rw [alive]
  by_cases dead : world.cell x y = 0
  · simp [dead]
  · simp [dead, or_comm]

/-- Three cells in a row across the left and right edges become three in a column across the upper
and lower ones; without touching edges they die. -/
theorem step_obeysRule_corner :
    let world (wraps : Bool) := (World.ofSize 8 (by decide) wraps).setRegion (-4) (-4)
      (Cells.ofRows [[200, 1, 0, 0, 0, 0, 0, 5]])
    (∀ wraps, (world wraps).contains (-4) 3 = true ∧ (world wraps).contains (-4) (-4) = true)
      ∧ ((world true).surroundings.neighbours (-4) 3, (world true).surroundings.neighbours (-4) (-4))
        = (3, 2)
      ∧ (((world true).step .all).cell (-4) 3, ((world true).step .all).cell (-4) (-4)) = (1, 1)
      ∧ (((world false).step .all).cell (-4) 3, ((world false).step .all).cell (-4) (-4))
        = (0, 0) := by
  intro world
  have inside : ∀ wraps, (world wraps).contains (-4) 3 = true
      ∧ (world wraps).contains (-4) (-4) = true := by decide
  have stepped := fun wraps => (step_obeysRule (world wraps) .all).1
  refine ⟨inside, by decide +kernel, ?_, ?_⟩
  · rw [stepped true _ _ (inside true).1, stepped true _ _ (inside true).2]
    decide +kernel
  · rw [stepped false _ _ (inside false).1, stepped false _ _ (inside false).2]
    decide +kernel

end Showreel.World
