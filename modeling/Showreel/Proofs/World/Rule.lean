import Mathlib.Algebra.GroupWithZero.Nat
import Showreel.World.Basic
import Showreel.World.Life

/-!
Contract: worlds and their steps, cell by cell.

Owns:
- which cells a rectangle covers, and the cell at each place of a world after a rectangle was
  written;
- the living cells in the three by three square around a cell, for both kinds of edges;
- that every cell of the next grid follows the rule from that square, also in the rows that
  a step does not compute;
- the convolution of a grid with the kernel of the eight neighbours, births and survivals by the
  sums that it gives, and that a step is the generation so computed.

Does not own: the unbounded plane.
-/

namespace Showreel.World

open Pattern

/-! ### Written rectangles -/

/-- Whether a rectangle with its top left corner at `(x, y)` covers the place `(placeX, placeY)`. -/
def Covers (x y : Int) (height width : Nat) (placeX placeY : Int) : Prop :=
  x ≤ placeX ∧ placeX < x + width ∧ y ≤ placeY ∧ placeY < y + height

instance (x y : Int) (height width : Nat) (placeX placeY : Int) :
    Decidable (Covers x y height width placeX placeY) := by
  unfold Covers
  infer_instance

/-- The row and column of a place that lies on the grid. -/
theorem contains_iff (world : World) (x y : Int) :
    world.contains x y = true ↔
      -world.half ≤ x ∧ x < world.size - world.half
        ∧ -world.half ≤ y ∧ y < world.size - world.half := by
  unfold contains
  simp only [decide_eq_true_eq]
  omega

theorem cell_of_contains {world : World} {x y : Int} (inside : world.contains x y = true) :
    world.cell x y = world.grid.state (y + world.half).toNat (x + world.half).toNat := by
  unfold cell
  rw [if_pos inside]

theorem cell_of_not_contains {world : World} {x y : Int} (outside : world.contains x y = false) :
    world.cell x y = 0 := by
  unfold cell
  rw [outside]
  rfl

theorem cell_ofSize (size : Nat) (size_ge : 8 ≤ size) (wraps : Bool) (x y : Int) :
    (ofSize size size_ge wraps).cell x y = 0 := by
  unfold cell
  split
  · exact Block.state_dead ..
  · rfl

/-- What the world shows at a row and a column, as the cell at its place. -/
theorem state_eq_cell (world : World) {row column : Nat} (rowInside : row < world.size)
    (columnInside : column < world.size) :
    world.grid.state row column = world.cell (column - world.half) (row - world.half) := by
  have inside : world.contains (column - world.half) (row - world.half) = true := by
    rw [contains_iff]
    omega
  rw [cell_of_contains inside]
  congr 1 <;> omega

theorem contains_setRegion (world : World) (x y : Int) (cells : Cells) (placeX placeY : Int) :
    (world.setRegion x y cells).contains placeX placeY = world.contains placeX placeY := by
  unfold setRegion
  split <;> rfl

theorem wraps_setRegion (world : World) (x y : Int) (cells : Cells) :
    (world.setRegion x y cells).wraps = world.wraps := by
  unfold setRegion
  split <;> rfl

/-- A rectangle that does not overlap the grid covers no place on it. -/
theorem overlaps_of_covers {world : World} {x y : Int} {height width : Nat} {placeX placeY : Int}
    (inside : world.contains placeX placeY = true)
    (covered : Covers x y height width placeX placeY) :
    world.overlaps x y height width = true := by
  rw [contains_iff] at inside
  obtain ⟨left, right, top, bottom⟩ := covered
  unfold overlaps
  simp only [Bool.and_eq_true, decide_eq_true_eq]
  omega

private theorem getElem_paintRow {size : Nat} (row : Vector UInt8 size) (left : Int)
    (cells : Cells) (cellsRow : Nat) {column : Nat} (columnInside : column < size) :
    (paintRow row left cells cellsRow)[column] =
      if 0 ≤ (column : Int) - left ∧ (column : Int) - left < cells.width then
        cells.state cellsRow ((column : Int) - left).toNat
      else row[column] := by
  unfold paintRow
  rw [Vector.getElem_ofFn]
  rfl

/-- The grid on which a rectangle was written. -/
private def painted (world : World) (x y : Int) (cells : Cells) : Block world.size world.size :=
  ⟨Vector.ofFn fun row =>
    let offset := (row.val : Int) - (y + world.half)
    if 0 ≤ offset ∧ offset < cells.height then
      paintRow (world.grid.rows.get row) (x + world.half) cells offset.toNat
    else world.grid.rows.get row⟩

private theorem setRegion_of_overlaps {world : World} {x y : Int} {cells : Cells}
    (overlap : world.overlaps x y cells.height cells.width = true) :
    world.setRegion x y cells = { world with grid := world.painted x y cells }.recount := by
  unfold setRegion
  rw [if_pos overlap]
  rfl

private theorem state_painted (world : World) (x y : Int) (cells : Cells) {row column : Nat}
    (rowInside : row < world.size) (columnInside : column < world.size) :
    (world.painted x y cells).state row column =
      if Covers x y cells.height cells.width (column - world.half) (row - world.half) then
        cells.state (row - world.half - y).toNat (column - world.half - x).toNat
      else world.grid.state row column := by
  have paintedRow : (world.painted x y cells).rows[row] =
      if 0 ≤ (row : Int) - (y + world.half) ∧ (row : Int) - (y + world.half) < cells.height then
        paintRow world.grid.rows[row] (x + world.half) cells
          ((row : Int) - (y + world.half)).toNat
      else world.grid.rows[row] := by
    unfold painted
    rw [Vector.getElem_ofFn]
    rfl
  rw [Block.state_eq_getElem _ rowInside columnInside,
    Block.state_eq_getElem _ rowInside columnInside, paintedRow]
  by_cases covered : Covers x y cells.height cells.width (column - world.half) (row - world.half)
  · obtain ⟨left, right, top, bottom⟩ := id covered
    rw [if_pos covered, if_pos (by omega), getElem_paintRow _ _ _ _ columnInside,
      if_pos (by omega)]
    congr 2 <;> omega
  · rw [if_neg covered]
    split
    · rw [getElem_paintRow _ _ _ _ columnInside, if_neg]
      intro between
      apply covered
      unfold Covers
      omega
    · rfl

/-- Writing a rectangle changes the cells that it covers, as far as they lie on the grid, and
no other cell. -/
theorem cell_setRegion (world : World) (x y : Int) (cells : Cells) (placeX placeY : Int) :
    (world.setRegion x y cells).cell placeX placeY =
      if world.contains placeX placeY = true ∧ Covers x y cells.height cells.width placeX placeY
      then cells.state (placeY - y).toNat (placeX - x).toNat
      else world.cell placeX placeY := by
  cases inside : world.contains placeX placeY with
  | false =>
      rw [cell_of_not_contains inside,
        cell_of_not_contains ((contains_setRegion ..).trans inside)]
      simp
  | true =>
      by_cases overlap : world.overlaps x y cells.height cells.width = true
      · rw [setRegion_of_overlaps overlap, cell_of_contains inside]
        have onGrid := (contains_iff world placeX placeY).mp inside
        have rowInside : (placeY + world.half).toNat < world.size := by omega
        have columnInside : (placeX + world.half).toNat < world.size := by omega
        have placeColumn : ((placeX + world.half).toNat : Int) - world.half = placeX := by omega
        have placeRow : ((placeY + world.half).toNat : Int) - world.half = placeY := by omega
        have reading := state_painted world x y cells rowInside columnInside
        rw [placeColumn, placeRow] at reading
        simp only [true_and]
        rw [← reading]
        exact cell_of_contains inside
      · have uncovered : ¬ Covers x y cells.height cells.width placeX placeY :=
          fun covered => overlap (overlaps_of_covers inside covered)
        unfold setRegion
        rw [if_neg overlap]
        simp [uncovered]

variable {size : Nat}

/-! ### The square around a cell -/

/-- One at a living cell, and nothing at a dead one or where there is no place. -/
def seen (grid : Block size size) (row column : Option Nat) : Nat :=
  row.elim 0 fun row => column.elim 0 fun column => aliveCount (grid.state row column)

/-- The living cells of one column in three rows. -/
def seenColumn (wraps : Bool) (grid : Block size size) (row : Nat) (column : Option Nat) : Nat :=
  seen grid (placeBefore size wraps row) column + seen grid (some row) column
    + seen grid (placeAfter size wraps row) column

/-- The living cells in the three by three square around a cell. -/
def seenAround (wraps : Bool) (grid : Block size size) (row column : Nat) : Nat :=
  seenColumn wraps grid row (placeBefore size wraps column)
    + seenColumn wraps grid row (some column)
    + seenColumn wraps grid row (placeAfter size wraps column)

theorem seen_none (grid : Block size size) (row : Option Nat) : seen grid row none = 0 := by
  cases row <;> rfl

theorem seen_of_size_le (grid : Block size size) (row : Option Nat) {column : Nat}
    (columnOutside : size ≤ column) : seen grid row (some column) = 0 := by
  cases row with
  | none => rfl
  | some row =>
      have outside : ¬ column < size := by omega
      simp [seen, Block.state, outside, aliveCount]

private def deadRow (size : Nat) : Vector UInt8 size :=
  Vector.replicate size 0

private def rowAt (grid : Block size size) (place : Option Nat) : Vector UInt8 size :=
  place.elim (deadRow size) fun row => grid.rows.toArray.getD row (deadRow size)

private def deadAt (grid : Block size size) (place : Option Nat) : Bool :=
  place.elim true fun row => (grid.rows.map fun row => row.all (· == 0)).toArray.getD row true

private def sumAt (sums : Vector Nat size) (place : Option Nat) : Nat :=
  place.elim 0 fun column => sums.toArray.getD column 0

private theorem aliveCount_rowAt (grid : Block size size) (place : Option Nat) {column : Nat}
    (columnInside : column < size) :
    aliveCount (rowAt grid place)[column] = seen grid place (some column) := by
  cases place with
  | none => simp [rowAt, deadRow, seen, aliveCount]
  | some row =>
      by_cases rowInside : row < size
      · have read : rowAt grid (some row) = grid.rows[row] := by
          simp [rowAt, Array.getD, rowInside]
        simp only [read, seen, Option.elim_some]
        rw [Block.state_eq_getElem _ rowInside columnInside]
      · simp [rowAt, Array.getD, rowInside, deadRow, seen, aliveCount, Block.state]

private theorem sumAt_columnSums (wraps : Bool) (grid : Block size size) {row : Nat}
    (rowInside : row < size) (place : Option Nat) :
    sumAt (columnSums (rowAt grid (placeBefore size wraps row)) grid.rows[row]
      (rowAt grid (placeAfter size wraps row))) place = seenColumn wraps grid row place := by
  have here : rowAt grid (some row) = grid.rows[row] := by
    simp [rowAt, Array.getD, rowInside]
  cases place with
  | none => simp [sumAt, seenColumn, seen_none]
  | some column =>
      by_cases columnInside : column < size
      · unfold sumAt columnSums seenColumn
        rw [← aliveCount_rowAt grid _ columnInside, ← aliveCount_rowAt grid _ columnInside,
          ← aliveCount_rowAt grid _ columnInside, here]
        simp [Array.getD, columnInside]
      · have columnOutside : size ≤ column := by omega
        simp [sumAt, Array.getD, columnInside, seenColumn, seen_of_size_le grid _ columnOutside]

private theorem deadAt_some (grid : Block size size) {row : Nat} (rowInside : row < size) :
    deadAt grid (some row) = grid.rows[row].all (· == 0) := by
  simp [deadAt, Array.getD, rowInside]

/-- In a dead row nothing is seen. -/
private theorem seen_of_deadAt {grid : Block size size} {place : Option Nat}
    (dead : deadAt grid place = true) (column : Option Nat) : seen grid place column = 0 := by
  cases place with
  | none => rfl
  | some row =>
      cases column with
      | none => exact seen_none grid (some row)
      | some column =>
          have cellDead : grid.state row column = 0 := by
            unfold Block.state
            split
            case isTrue rowInside =>
              split
              case isTrue columnInside =>
                rw [deadAt_some grid rowInside, Vector.all_eq_true] at dead
                simpa using dead column columnInside
              case isFalse => rfl
            case isFalse => rfl
          simp [seen, cellDead, aliveCount]

/-- Every cell of the next grid follows the rule, whether its row was computed or not. -/
theorem state_nextGrid (wraps : Bool) (grid : Block size size) {row column : Nat}
    (rowInside : row < size) (columnInside : column < size) :
    (nextGrid wraps grid).state row column =
      if livesNext (seenAround wraps grid row column) (grid.state row column != 0)
      then 1 else 0 := by
  have computed : (nextGrid wraps grid).rows[row] =
      if deadAt grid (some row) && deadAt grid (placeBefore size wraps row)
          && deadAt grid (placeAfter size wraps row) then deadRow size
      else nextRow wraps (rowAt grid (placeBefore size wraps row)) grid.rows[row]
        (rowAt grid (placeAfter size wraps row)) := by
    unfold nextGrid
    rw [Vector.getElem_ofFn, deadAt_some grid rowInside]
    simp only [Fin.getElem_fin, Vector.getElem_map]
    rfl
  rw [Block.state_eq_getElem _ rowInside columnInside,
    Block.state_eq_getElem _ rowInside columnInside]
  simp only [computed]
  split
  case isTrue dead =>
    simp only [Bool.and_eq_true] at dead
    obtain ⟨⟨here, before⟩, after⟩ := dead
    have unseen : seenAround wraps grid row column = 0 := by
      simp only [seenAround, seenColumn, seen_of_deadAt here, seen_of_deadAt before,
        seen_of_deadAt after]
    rw [unseen]
    simp [deadRow, livesNext]
  case isFalse =>
    unfold nextRow
    rw [Vector.getElem_ofFn]
    have around := fun place => sumAt_columnSums wraps grid rowInside place
    unfold seenAround
    rw [← around, ← around, ← around]
    simp only [sumAt, Option.elim_some, Array.getD, Vector.size_toArray, columnInside, dif_pos]
    rfl

/-! ### A generation by neighbour sums -/

/-- What each cell of the square around a cell counts: a neighbour one, the cell itself nothing. -/
def neighbourKernel : List (List Nat) := [[1, 1, 1], [1, 0, 1], [1, 1, 1]]

/-- The convolution of values with a kernel of three rows and columns, whose middle comes to stand
on the place. -/
def convolved (kernel : List (List Nat)) (values : Int → Int → Nat) (row column : Int) : Nat :=
  (kernel.mapIdx fun down weights =>
    (weights.mapIdx fun across weight =>
      weight * values (row + 1 - down) (column + 1 - across)).sum).sum

/-- The row or column that a place beyond the edge stands for: round the edge if the edges touch,
and none otherwise. -/
def edgePlace (size : Nat) (wraps : Bool) (place : Int) : Option Nat :=
  if wraps then some (place % size).toNat
  else if 0 ≤ place ∧ place < size then some place.toNat
  else none

/-- The sum of the living neighbours of each cell. -/
def neighbourSum (wraps : Bool) (grid : Block size size) (row column : Nat) : Nat :=
  convolved neighbourKernel
    (fun row column => seen grid (edgePlace size wraps row) (edgePlace size wraps column))
    row column

/-- A dead cell with three living neighbours is born. -/
def isBorn (alive : Bool) (neighbours : Nat) : Bool :=
  !alive && neighbours == 3

/-- A living cell with two or three living neighbours survives. -/
def survives (alive : Bool) (neighbours : Nat) : Bool :=
  alive && (neighbours == 3 || neighbours == 2)

/-- The next generation of a grid, by the sums of living neighbours: the cells that are born and
those that survive. -/
def generationOf (wraps : Bool) (grid : Block size size) : Block size size :=
  Block.ofFn size size fun row column =>
    let alive := grid.state row column != 0
    let neighbours := neighbourSum wraps grid row column
    if isBorn alive neighbours || survives alive neighbours then 1 else 0

theorem edgePlace_of_inside {wraps : Bool} {place : Nat} (inside : place < size) :
    edgePlace size wraps place = some place := by
  unfold edgePlace
  split
  · rw [Int.emod_eq_of_lt (by omega) (by omega), Int.toNat_natCast]
  · rw [if_pos (by omega), Int.toNat_natCast]

theorem edgePlace_before {wraps : Bool} {place : Nat} (inside : place < size) :
    edgePlace size wraps (place - 1) = placeBefore size wraps place := by
  unfold edgePlace placeBefore
  cases wraps with
  | true =>
      rw [if_pos rfl]
      split
      case isTrue first =>
        rw [first, ← Int.add_emod_right, Int.emod_eq_of_lt (by omega) (by omega), if_pos rfl]
        congr 1
        omega
      case isFalse =>
        rw [Int.emod_eq_of_lt (by omega) (by omega)]
        congr 1
        omega
  | false =>
      rw [if_neg Bool.false_ne_true]
      by_cases first : place = 0
      · rw [if_pos first, if_neg (by omega), if_neg Bool.false_ne_true]
      · rw [if_neg first, if_pos (by omega)]
        congr 1
        omega

theorem edgePlace_after {wraps : Bool} {place : Nat} (inside : place < size) :
    edgePlace size wraps (place + 1) = placeAfter size wraps place := by
  unfold edgePlace placeAfter
  cases wraps with
  | true =>
      rw [if_pos rfl]
      split
      · rw [Int.emod_eq_of_lt (by omega) (by omega)]
        congr 1
      · rw [(by omega : (place : Int) + 1 = size), Int.emod_self, if_pos rfl]
        rfl
  | false =>
      rw [if_neg Bool.false_ne_true]
      split
      · rw [if_pos (by omega)]
        congr 1
      · rw [if_neg (by omega), if_neg Bool.false_ne_true]

/-- The square around a cell holds its neighbours and the cell itself. -/
theorem seenAround_eq_neighbourSum (wraps : Bool) (grid : Block size size) {row column : Nat}
    (rowInside : row < size) (columnInside : column < size) :
    seenAround wraps grid row column
      = neighbourSum wraps grid row column + aliveCount (grid.state row column) := by
  have here : seen grid (some row) (some column) = aliveCount (grid.state row column) := rfl
  have sameRow : edgePlace size wraps row = some row := edgePlace_of_inside rowInside
  have sameColumn : edgePlace size wraps column = some column := edgePlace_of_inside columnInside
  have back (place : Int) : place + 1 - 2 = place - 1 := by omega
  unfold seenAround seenColumn neighbourSum convolved neighbourKernel
  rw [here, ← edgePlace_before rowInside, ← edgePlace_after rowInside,
    ← edgePlace_before columnInside, ← edgePlace_after columnInside, ← sameRow, ← sameColumn]
  simp only [List.mapIdx_cons, List.mapIdx_nil, List.sum_cons, List.sum_nil, one_mul, zero_mul,
    add_zero, zero_add, Int.cast_ofNat_Int, Int.sub_zero, Int.natCast_add,
    Int.add_sub_cancel, Int.reduceAdd, back]
  omega

/-- Counting a cell with its neighbours gives the births and the survivals. -/
theorem livesNext_add_aliveCount (neighbours : Nat) (state : UInt8) :
    livesNext (neighbours + aliveCount state) (state != 0)
      = (isBorn (state != 0) neighbours || survives (state != 0) neighbours) := by
  unfold livesNext aliveCount isBorn survives
  by_cases dead : state = 0
  · simp [dead]
  · simp [dead, bne_iff_ne.mpr dead, Bool.or_comm]

/-- **The next grid is the generation by neighbour sums**, whichever rows a step leaves out. -/
theorem nextGrid_eq_generationOf (wraps : Bool) (grid : Block size size) :
    nextGrid wraps grid = generationOf wraps grid := by
  refine Block.ext_state fun row column rowInside columnInside => ?_
  rw [state_nextGrid wraps grid rowInside columnInside,
    seenAround_eq_neighbourSum wraps grid rowInside columnInside, livesNext_add_aliveCount]
  unfold generationOf
  rw [Block.state_ofFn]
  exact (if_pos ⟨rowInside, columnInside⟩).symm

/-- **A step advances a world by one generation**: the grid by its neighbour sums, and the
statistics as far as they are recorded. -/
theorem step_eq_generationOf (world : World) (record : StepRecord) :
    world.step record =
      let grid := generationOf world.wraps world.grid
      let population := if record.counts then grid.population else world.population
      { world with
        grid := grid
        generation := world.generation + 1
        population := population
        populations :=
          if record.keepsPopulation then (population :: world.populations).take populationsKept
          else world.populations
        remembered :=
          if record.remembersGrid then min (world.remembered + 1) gridsKept
          else world.remembered } := by
  unfold step
  rw [nextGrid_eq_generationOf]

end Showreel.World
