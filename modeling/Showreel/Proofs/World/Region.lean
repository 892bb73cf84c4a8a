import Showreel.Proofs.World.Census
import Showreel.Proofs.World.Crop

/-!
Contract: rectangles that are written to a world and read from it.

Owns:
- the places of a rectangle, by the row and the column of each;
- the slices of the grid and of a rectangle where the two meet, and that writing and reading a
  rectangle is to copy the one slice over the other;
- what a rectangle that was written shows when it is read again, and which places keep what
  they showed;
- that reading a rectangle reads its places one by one, and when there is room for it.

Does not own: how the cells of a rectangle come about.
-/

namespace Showreel.World

open Pattern

/-- A rectangle covers the place of each of its rows and columns. -/
theorem covers_corner {x y : Int} {height width row column : Nat} (rowInside : row < height)
    (columnInside : column < width) : Covers x y height width (x + column) (y + row) := by
  unfold Covers
  omega

/-- A place of a written rectangle shows the cell there, if it lies on the grid. -/
theorem cell_setRegion_at (world : World) (x y : Int) (cells : Cells) {row column : Nat}
    (rowInside : row < cells.height) (columnInside : column < cells.width) :
    (world.setRegion x y cells).cell (x + column) (y + row)
      = if world.contains (x + column) (y + row) then cells.state row column else 0 := by
  cases inside : world.contains (x + column) (y + row) with
  | true =>
      have atRow : (y + row - y).toNat = row := by omega
      have atColumn : (x + column - x).toNat = column := by omega
      rw [cell_setRegion, if_pos ⟨inside, covers_corner rowInside columnInside⟩, atRow, atColumn]
      rfl
  | false =>
      rw [cell_of_not_contains ((contains_setRegion ..).trans inside)]
      rfl

/-! ### The slices that a rectangle is cut to -/

/-- Consecutive places of an axis, from `start` on and before `stop`. -/
structure Slice (length : Nat) where
  start : Nat
  stop : Nat
  start_lt : start < stop
  stop_le : stop ≤ length

/-- Whether a place of the axis is in the slice. -/
def Slice.Holds {length : Nat} (slice : Slice length) (place : Nat) : Prop :=
  slice.start ≤ place ∧ place < slice.stop

instance {length : Nat} (slice : Slice length) (place : Nat) : Decidable (slice.Holds place) :=
  inferInstanceAs (Decidable (_ ∧ _))

/-- Equally long slices of two axes that lie side by side. -/
structure Clip (length other : Nat) where
  own : Slice length
  facing : Slice other
  aligned : own.stop - own.start = facing.stop - facing.start

/-- The slices seen from the other axis. -/
def Clip.flip {length other : Nat} (clip : Clip length other) : Clip other length :=
  ⟨clip.facing, clip.own, clip.aligned.symm⟩

/-- The place of the other axis that lies beside a place of this one. -/
def Clip.across {length other : Nat} (clip : Clip length other) (place : Nat) : Nat :=
  clip.facing.start + (place - clip.own.start)

/-- The slice of an axis that `length` places from `first` on share with it, and their own slice. -/
def clipAxis? (size : Nat) (first : Int) (length : Nat) : Option (Clip size length) :=
  if meet : max first 0 < min (first + length) size then
    some
      { own := ⟨(max first 0).toNat, (min (first + length) size).toNat, by omega, by omega⟩
        facing := ⟨(max first 0 - first).toNat, (min (first + length) size - first).toNat,
          by omega, by omega⟩
        aligned := by dsimp only; omega }
  else none

/-- The slices of rows and of columns that a rectangle shares with the grid, if it has a cell
there. -/
def clip? (world : World) (x y : Int) (height width : Nat) :
    Option (Clip world.size height × Clip world.size width) := do
  let rows ← clipAxis? world.size (y + world.half) height
  let columns ← clipAxis? world.size (x + world.half) width
  return (rows, columns)

/-- A block with the slices of another one copied over its own. -/
def copied {height width otherHeight otherWidth : Nat} (block : Block height width)
    (other : Block otherHeight otherWidth) (rows : Clip height otherHeight)
    (columns : Clip width otherWidth) : Block height width :=
  Block.ofFn height width fun row column =>
    if rows.own.Holds row ∧ columns.own.Holds column then
      other.state (rows.across row) (columns.across column)
    else block.state row column

/-- The world with another grid, whose living cells are counted. -/
def withGrid (world : World) (grid : Block world.size world.size) : World :=
  { world with grid := grid }.recount

/-- The world with the slice of a rectangle copied over the slice of its grid. -/
def writeSlices (world : World) (x y : Int) (cells : Cells) : World :=
  match world.clip? x y cells.height cells.width with
  | some (rows, columns) => world.withGrid (copied world.grid cells.block rows columns)
  | none => world

/-- A dead rectangle with the slice of the grid copied over its own. -/
def readSlices (world : World) (x y : Int) (height width : Nat) : Cells where
  height := height
  width := width
  block :=
    match world.clip? x y height width with
    | some (rows, columns) => copied (Block.dead height width) world.grid rows.flip columns.flip
    | none => Block.dead height width

/-- Where places of an axis share one with it, each slice holds the places that are shared, and
the place beside one is found from where the slices start. -/
theorem clipAxis?_eq_some {size length : Nat} {first : Int} {clip : Clip size length}
    (found : clipAxis? size first length = some clip) :
    (∀ place < size, clip.own.Holds place ↔ first ≤ place ∧ place < first + length)
      ∧ (∀ place, clip.own.Holds place → (clip.across place : Int) = place - first)
      ∧ (∀ offset < length,
        clip.flip.own.Holds offset ↔ 0 ≤ first + offset ∧ first + offset < size)
      ∧ ∀ offset, clip.flip.own.Holds offset →
        (clip.flip.across offset : Int) = first + offset := by
  unfold clipAxis? at found
  split at found
  · cases found
    unfold Slice.Holds Clip.across Clip.flip
    dsimp only
    refine ⟨?_, ?_, ?_, ?_⟩ <;> intro place <;> omega
  · cases found

theorem isSome_clipAxis? (size : Nat) (first : Int) (length : Nat) :
    (clipAxis? size first length).isSome = decide (max first 0 < min (first + length) size) := by
  unfold clipAxis?
  split
  case isTrue meet => rw [decide_eq_true meet, Option.isSome_some]
  case isFalse apart => rw [decide_eq_false apart, Option.isSome_none]

/-- There are slices exactly if the rectangle has a cell on the grid. -/
theorem isSome_clip? (world : World) (x y : Int) (height width : Nat) :
    (world.clip? x y height width).isSome = world.overlaps x y height width := by
  unfold overlaps clip?
  dsimp only
  rw [← isSome_clipAxis?, ← isSome_clipAxis?]
  cases clipAxis? world.size (y + world.half) height <;>
    cases clipAxis? world.size (x + world.half) width <;> rfl

theorem clip?_eq_some {world : World} {x y : Int} {height width : Nat}
    {rows : Clip world.size height} {columns : Clip world.size width}
    (found : world.clip? x y height width = some (rows, columns)) :
    clipAxis? world.size (y + world.half) height = some rows
      ∧ clipAxis? world.size (x + world.half) width = some columns := by
  simp only [clip?, Option.bind_eq_bind, Option.bind_eq_some_iff] at found
  obtain ⟨_, rowsFound, _, columnsFound, same⟩ := found
  cases same
  exact ⟨rowsFound, columnsFound⟩

theorem state_copied {height width otherHeight otherWidth : Nat} (block : Block height width)
    (other : Block otherHeight otherWidth) (rows : Clip height otherHeight)
    (columns : Clip width otherWidth) {row column : Nat} (rowInside : row < height)
    (columnInside : column < width) :
    (copied block other rows columns).state row column
      = if rows.own.Holds row ∧ columns.own.Holds column then
          other.state (rows.across row) (columns.across column)
        else block.state row column :=
  (Block.state_ofFn ..).trans (if_pos ⟨rowInside, columnInside⟩)

/-- The slice of the grid holds the places that the rectangle covers, and each of them lies beside
the row and the column that it has there. -/
theorem cell_withGrid_copied {world : World} {x y : Int} {cells : Cells}
    {rows : Clip world.size cells.height} {columns : Clip world.size cells.width}
    (found : world.clip? x y cells.height cells.width = some (rows, columns)) {placeX placeY : Int}
    (inside : world.contains placeX placeY = true) :
    (world.withGrid (copied world.grid cells.block rows columns)).cell placeX placeY
      = if Covers x y cells.height cells.width placeX placeY then
          cells.state (placeY - y).toNat (placeX - x).toNat
        else world.cell placeX placeY := by
  obtain ⟨rowsFound, columnsFound⟩ := clip?_eq_some found
  obtain ⟨rowHeld, rowAcross, -, -⟩ := clipAxis?_eq_some rowsFound
  obtain ⟨columnHeld, columnAcross, -, -⟩ := clipAxis?_eq_some columnsFound
  have onGrid := (contains_iff world placeX placeY).mp inside
  have rowInside : (placeY + world.half).toNat < world.size := by omega
  have columnInside : (placeX + world.half).toNat < world.size := by omega
  have held : (rows.own.Holds (placeY + world.half).toNat
      ∧ columns.own.Holds (placeX + world.half).toNat)
        ↔ Covers x y cells.height cells.width placeX placeY := by
    rw [rowHeld _ rowInside, columnHeld _ columnInside]
    unfold Covers
    omega
  have shown : (world.withGrid (copied world.grid cells.block rows columns)).contains placeX placeY
      = true := inside
  rw [cell_of_contains inside, cell_of_contains shown]
  refine (state_copied _ _ rows columns rowInside columnInside).trans ?_
  by_cases covered : Covers x y cells.height cells.width placeX placeY
  · have both := held.mpr covered
    rw [if_pos both, if_pos covered]
    have atRow := rowAcross _ both.1
    have atColumn := columnAcross _ both.2
    have sameRow : rows.across (placeY + world.half).toNat = (placeY - y).toNat := by omega
    have sameColumn : columns.across (placeX + world.half).toNat = (placeX - x).toNat := by omega
    rw [sameRow, sameColumn]
    rfl
  · rw [if_neg covered, if_neg fun both => covered (held.mp both)]

/-- Writing a rectangle copies its slice over the slice of the grid. -/
theorem setRegion_eq_writeSlices (world : World) (x y : Int) (cells : Cells) :
    world.setRegion x y cells = world.writeSlices x y cells := by
  have overlap := isSome_clip? world x y cells.height cells.width
  unfold writeSlices
  cases found : world.clip? x y cells.height cells.width with
  | none =>
      rw [found] at overlap
      exact setRegion_of_not_overlaps overlap.symm
  | some clips =>
      obtain ⟨rows, columns⟩ := clips
      rw [found] at overlap
      dsimp only
      have same : ∀ placeX placeY, (world.setRegion x y cells).cell placeX placeY
          = (world.withGrid (copied world.grid cells.block rows columns)).cell placeX placeY := by
        intro placeX placeY
        cases inside : world.contains placeX placeY with
        | true =>
            rw [cell_setRegion, inside]
            simp only [true_and]
            exact (cell_withGrid_copied found inside).symm
        | false =>
            have beyond : (world.withGrid (copied world.grid cells.block rows columns)).contains
                placeX placeY = false := inside
            rw [cell_of_not_contains ((contains_setRegion ..).trans inside),
              cell_of_not_contains beyond]
      have counted := counted_setRegion overlap.symm
      exact (repainted_setRegion ..).ext ⟨_, _, rfl⟩ same
        (counted.population_eq (counted_iff.mpr rfl) same)

/-- The slice of the rectangle holds the rows and columns whose places lie on the grid, and each of
them lies beside its place there. -/
theorem state_copied_flip {world : World} {x y : Int} {height width : Nat}
    {rows : Clip world.size height} {columns : Clip world.size width}
    (found : world.clip? x y height width = some (rows, columns)) {row column : Nat}
    (rowInside : row < height) (columnInside : column < width) :
    (copied (Block.dead height width) world.grid rows.flip columns.flip).state row column
      = world.cell (x + column) (y + row) := by
  obtain ⟨rowsFound, columnsFound⟩ := clip?_eq_some found
  obtain ⟨-, -, rowHeld, rowAcross⟩ := clipAxis?_eq_some rowsFound
  obtain ⟨-, -, columnHeld, columnAcross⟩ := clipAxis?_eq_some columnsFound
  have held : (rows.flip.own.Holds row ∧ columns.flip.own.Holds column)
      ↔ world.contains (x + column) (y + row) = true := by
    rw [rowHeld _ rowInside, columnHeld _ columnInside, contains_iff]
    omega
  rw [state_copied _ _ rows.flip columns.flip rowInside columnInside]
  cases inside : world.contains (x + column) (y + row) with
  | true =>
      have both := held.mpr inside
      have atRow := rowAcross _ both.1
      have atColumn := columnAcross _ both.2
      have sameRow : rows.flip.across row = (y + row + world.half).toNat := by omega
      have sameColumn : columns.flip.across column = (x + column + world.half).toNat := by omega
      rw [cell_of_contains inside, if_pos both, sameRow, sameColumn]
  | false =>
      have apart : ¬(rows.flip.own.Holds row ∧ columns.flip.own.Holds column) := fun both =>
        Bool.false_ne_true (inside.symm.trans (held.mp both))
      rw [cell_of_not_contains inside, if_neg apart, Block.state_dead]

theorem state_readSlices (world : World) (x y : Int) {height width row column : Nat}
    (rowInside : row < height) (columnInside : column < width) :
    (world.readSlices x y height width).state row column = world.cell (x + column) (y + row) := by
  have overlap := isSome_clip? world x y height width
  unfold readSlices Cells.state
  cases found : world.clip? x y height width with
  | none =>
      rw [found] at overlap
      have outside : world.contains (x + column) (y + row) = false :=
        Bool.eq_false_iff.mpr fun inside => Bool.false_ne_true
          (overlap.trans (overlaps_of_covers inside (covers_corner rowInside columnInside)))
      exact (Block.state_dead ..).trans (cell_of_not_contains outside).symm
  | some clips => exact state_copied_flip found rowInside columnInside

/-- Reading a rectangle copies the slice of the grid over a dead one. -/
theorem region_eq_readSlices (world : World) (x y : Int) (height width : Nat) :
    world.region x y height width = world.readSlices x y height width :=
  Cells.ext_state rfl rfl fun _ _ rowInside columnInside =>
    (state_region world x y rowInside columnInside).trans
      (state_readSlices world x y rowInside columnInside).symm

/-! ### What is written and read -/

/-- The cells of a rectangle with those beyond the grid dead. -/
def clipped (world : World) (x y : Int) (cells : Cells) : Cells :=
  Cells.ofFn cells.height cells.width fun row column =>
    if world.contains (x + column) (y + row) then cells.state row column else 0

theorem state_clipped (world : World) (x y : Int) (cells : Cells) {row column : Nat}
    (rowInside : row < cells.height) (columnInside : column < cells.width) :
    (world.clipped x y cells).state row column
      = if world.contains (x + column) (y + row) then cells.state row column else 0 := by
  rw [clipped, Cells.state_ofFn, if_pos ⟨rowInside, columnInside⟩]

theorem region_setRegion_eq (world : World) (x y : Int) (cells : Cells) :
    (world.setRegion x y cells).region x y cells.height cells.width
      = world.clipped x y cells := by
  refine Cells.ext_state rfl rfl fun row column rowInside columnInside => ?_
  have inRow : row < cells.height := rowInside
  have inColumn : column < cells.width := columnInside
  rw [state_region _ _ _ inRow inColumn, cell_setRegion_at world x y cells inRow inColumn,
    state_clipped world x y cells inRow inColumn]

/-- A rectangle is read unless there is no room for it. -/
theorem measuredRegion_eq (world : World) (x y : Int) (height width : Nat) :
    world.measuredRegion x y height width
      = (Cells.roomFor height width).map fun _ => world.region x y height width := by
  unfold measuredRegion
  rw [if_neg (by omega), Int.toNat_natCast, Int.toNat_natCast]
  cases Cells.roomFor height width <;> rfl

/-- **Writing a rectangle and reading rectangles.** A rectangle is written by copying its slice that
lies on the grid. The places that it covers there show its cells then, and every other place shows
what it showed. Read again, the rectangle has its own cells, dead where it lies beyond the grid. Any
rectangle for which there is room is read by copying the slice of the grid over a dead one, and that
shows at each row and column the cell of the place there. -/
theorem setRegion_region (world : World) (x y : Int) (cells : Cells) :
    world.setRegion x y cells = world.writeSlices x y cells
      ∧ (∀ row column, row < cells.height → column < cells.width →
        world.contains (x + column) (y + row) = true →
        (world.setRegion x y cells).cell (x + column) (y + row) = cells.state row column)
      ∧ (∀ placeX placeY, ¬Covers x y cells.height cells.width placeX placeY →
        (world.setRegion x y cells).cell placeX placeY = world.cell placeX placeY)
      ∧ (world.setRegion x y cells).measuredRegion x y cells.height cells.width
        = ((Cells.roomFor cells.height cells.width).map fun _ => world.clipped x y cells)
      ∧ ∀ (left top : Int) (height width : Nat),
        world.measuredRegion left top height width
            = ((Cells.roomFor height width).map fun _ => world.readSlices left top height width)
          ∧ (world.readSlices left top height width).height = height
          ∧ (world.readSlices left top height width).width = width
          ∧ ∀ row column, row < height → column < width →
            (world.readSlices left top height width).state row column
              = world.cell (left + column) (top + row) := by
  refine ⟨setRegion_eq_writeSlices .., ?covered, ?others, ?again, ?every⟩
  case covered =>
    intro row column rowInside columnInside inside
    rw [cell_setRegion_at world x y cells rowInside columnInside, if_pos inside]
  case others =>
    intro placeX placeY uncovered
    rw [cell_setRegion, if_neg fun found => uncovered found.2]
  case again =>
    rw [measuredRegion_eq, region_setRegion_eq]
  case every =>
    intro left top height width
    refine ⟨?_, rfl, rfl, fun row column rowInside columnInside => ?_⟩
    · rw [measuredRegion_eq, region_eq_readSlices]
    · exact state_readSlices world left top rowInside columnInside

/-- Of a rectangle that overhangs a corner one cell is written, and it is dead elsewhere when it is
read again. -/
theorem setRegion_region_corner :
    let world := World.ofSize 9 (by decide) true
    let cells := Cells.ofRows [[1, 2], [3, 4]]
    world.contains (-4) (-4) = true
      ∧ (world.setRegion (-5) (-5) cells).cell (-4) (-4) = 4
      ∧ ¬Covers (-5) (-5) 2 2 (-3) (-4)
      ∧ (world.setRegion (-5) (-5) cells).cell (-3) (-4) = 0
      ∧ (world.setRegion (-5) (-5) cells).measuredRegion (-5) (-5) 2 2
        = .ok (Cells.ofRows [[0, 0], [0, 4]])
      ∧ (world.writeSlices (-5) (-5) cells).cell (-4) (-4) = 4
      ∧ (world.readSlices (-9) 7 3 0).height = 3 := by
  intro world cells
  obtain ⟨written, covered, others, again, every⟩ := setRegion_region world (-5) (-5) cells
  have inside : world.contains (-4) (-4) = true := by decide
  have shown := covered 1 1 (by decide) (by decide) inside
  have uncovered : ¬Covers (-5) (-5) 2 2 (-3) (-4) := by decide
  have dead : world.cell (-3) (-4) = 0 := cell_ofSize ..
  refine ⟨inside, shown, uncovered, (others (-3) (-4) uncovered).trans dead, again.trans ?_, ?_,
    (every (-9) 7 3 0).2.1⟩
  · decide +kernel
  · rw [← written]
    exact shown

end Showreel.World
