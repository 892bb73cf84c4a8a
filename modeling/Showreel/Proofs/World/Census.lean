import Mathlib
import Showreel.Proofs.Pattern.Symmetry
import Showreel.Proofs.World.Extent

/-!
Contract: the number of living cells, and worlds that differ in their cells alone.

Owns:
- that the population of a grid is the number of places of the plane that live;
- which worlds have counted their cells as they are, and when writing a rectangle counts them;
- that writing a rectangle touches nothing but the cells and their count.

Does not own: what the written cells are.
-/

namespace Showreel

open Pattern

namespace World

/-! ### Counted worlds -/

/-- The population of a grid is the number of places of the plane that live. -/
theorem population_eq_ncard (world : World) :
    world.grid.population = {place : ℤ × ℤ | world.living place.1 place.2 = true}.ncard := by
  let placeOf (position : Fin world.size × Fin world.size) : ℤ × ℤ :=
    (position.2 - world.half, position.1 - world.half)
  have apart : Function.Injective placeOf := by
    rintro ⟨row, column⟩ ⟨otherRow, otherColumn⟩ same
    simp only [placeOf, Prod.mk.injEq] at same
    ext <;> simp only <;> omega
  have placed : {place : ℤ × ℤ | world.living place.1 place.2 = true}
      = placeOf '' (Finset.univ.filter fun position : Fin world.size × Fin world.size =>
        (world.grid.state position.1 position.2 != 0) = true : Finset _) := by
    ext ⟨x, y⟩
    constructor
    · intro lives
      obtain ⟨row, column, rowInside, columnInside, rfl, rfl, alive⟩ := exists_place_of_living lives
      exact ⟨(⟨row, rowInside⟩, ⟨column, columnInside⟩), by simpa using alive, rfl⟩
    · rintro ⟨⟨row, column⟩, alive, same⟩
      cases same
      rw [Set.mem_ofPred_eq, living_at world row.isLt column.isLt]
      simpa using alive
  rw [placed, Set.ncard_image_of_injective _ apart, Set.ncard_coe_finset,
    Block.population_eq_card]

/-- A world whose population is the number of its living cells. -/
def Counted (world : World) : Prop :=
  world.population = {place : ℤ × ℤ | world.living place.1 place.2 = true}.ncard

theorem counted_iff {world : World} : world.Counted ↔ world.population = world.grid.population := by
  rw [Counted, population_eq_ncard]

/-- A rectangle without cells does not overlap the grid. -/
theorem overlaps_of_isEmpty {world : World} {x y : Int} {cells : Cells}
    (bare : cells.isEmpty = true) : world.overlaps x y cells.height cells.width = false := by
  have gone : cells.height = 0 ∨ cells.width = 0 := by
    simpa [Cells.isEmpty] using bare
  unfold overlaps
  rw [Bool.and_eq_false_iff, decide_eq_false_iff_not, decide_eq_false_iff_not]
  omega

theorem setRegion_of_not_overlaps {world : World} {x y : Int} {cells : Cells}
    (beyond : world.overlaps x y cells.height cells.width = false) :
    world.setRegion x y cells = world := by
  unfold setRegion
  rw [if_neg (Bool.eq_false_iff.mp beyond)]

/-- A rectangle that overlaps the grid has the living cells counted again. -/
theorem counted_setRegion {world : World} {x y : Int} {cells : Cells}
    (overlap : world.overlaps x y cells.height cells.width = true) :
    (world.setRegion x y cells).Counted := by
  unfold setRegion
  rw [if_pos overlap, counted_iff]
  rfl

/-! ### Worlds that differ in their cells alone -/

/-- Whether a world is another one with other cells and another count of them. -/
def Repainted (world after : World) : Prop :=
  ∃ grid population, after = { world with grid := grid, population := population }

theorem Repainted.trans {first second third : World} (earlier : Repainted first second)
    (later : Repainted second third) : Repainted first third := by
  obtain ⟨grid, population, rfl⟩ := earlier
  obtain ⟨grid, population, rfl⟩ := later
  exact ⟨grid, population, rfl⟩

theorem Repainted.contains {world after : World} (repainted : Repainted world after) (x y : Int) :
    after.contains x y = world.contains x y := by
  obtain ⟨grid, population, rfl⟩ := repainted
  rfl

theorem Repainted.overlaps {world after : World} (repainted : Repainted world after) (x y : Int)
    (height width : Nat) : after.overlaps x y height width = world.overlaps x y height width := by
  obtain ⟨grid, population, rfl⟩ := repainted
  rfl

theorem repainted_setRegion (world : World) (x y : Int) (cells : Cells) :
    Repainted world (world.setRegion x y cells) := by
  unfold setRegion
  split
  · exact ⟨_, _, rfl⟩
  · exact ⟨world.grid, world.population, rfl⟩

/-- Two worlds that were painted over the same one are the same if they show the same cells and
have the same population. -/
theorem Repainted.ext {world left right : World} (repainted : Repainted world left)
    (repaintedToo : Repainted world right) (sameCells : ∀ x y, left.cell x y = right.cell x y)
    (samePopulation : left.population = right.population) : left = right := by
  obtain ⟨grid, population, rfl⟩ := repainted
  obtain ⟨otherGrid, otherPopulation, rfl⟩ := repaintedToo
  obtain rfl : grid = otherGrid := by
    refine Block.ext_state fun row column rowInside columnInside => ?_
    calc grid.state row column
        = World.cell { world with grid := grid, population := population }
            (column - world.half) (row - world.half) :=
          state_eq_cell { world with grid := grid, population := population } rowInside
            columnInside
      _ = World.cell { world with grid := otherGrid, population := otherPopulation }
            (column - world.half) (row - world.half) := sameCells _ _
      _ = otherGrid.state row column :=
          (state_eq_cell { world with grid := otherGrid, population := otherPopulation } rowInside
            columnInside).symm
  cases samePopulation
  rfl

/-- Counted worlds that show the same cells have the same population. -/
theorem Counted.population_eq {left right : World} (counted : left.Counted)
    (countedToo : right.Counted) (sameCells : ∀ x y, left.cell x y = right.cell x y) :
    left.population = right.population := by
  have sameLiving : left.living = right.living := by
    funext x y
    unfold living
    rw [sameCells]
  rw [counted, countedToo, sameLiving]

end World

end Showreel
