import Showreel.Fault
import Showreel.Pattern.Cells

/-!
Contract: the world, a bounded square grid of cells with its generation count.

Owns:
- the grid, the snapshot of generation zero, and the statistics kept with them;
- coordinates: the origin is the centre of the grid, `x` grows to the right and `y`
  grows downwards;
- reading and writing single cells and rectangles, which are clipped to the grid;
- loading, clearing, marking and restoring generation zero.

Does not own: the step from one generation to the next.
-/

namespace Showreel

open Pattern

/-- A square grid of cells. Opposite edges touch when `wraps` is set; otherwise the cells
beyond an edge are dead. -/
structure World where
  size : Nat
  size_ge : 8 ≤ size
  wraps : Bool
  grid : Block size size
  /-- The grid of generation zero. -/
  initial : Block size size
  generation : Int
  /-- The number of living cells when they were last counted. -/
  population : Nat
  /-- The populations of the last generations, the newest first. -/
  populations : List Nat
  /-- How many of the last grids are remembered. -/
  remembered : Nat

namespace World

/-- How many populations are kept. -/
def populationsKept : Nat := 500

/-- How many grids are remembered. -/
def gridsKept : Nat := 60

/-- An empty world of an admissible size. -/
def ofSize (size : Nat) (size_ge : 8 ≤ size) (wraps : Bool) : World where
  size := size
  size_ge := size_ge
  wraps := wraps
  grid := Block.dead size size
  initial := Block.dead size size
  generation := 0
  population := 0
  populations := []
  remembered := 0

/-- An empty world, unless the size is below eight or there is no room for it. -/
def create (size : Int) (wraps : Bool) : Except Fault World := do
  if admissible : 8 ≤ size.toNat then
    Cells.roomFor size.toNat size.toNat
    return ofSize size.toNat admissible wraps
  else throw (.gridTooSmall size)

/-- An empty world of the same size with dead borders. -/
def scratch (world : World) : World :=
  ofSize world.size world.size_ge false

/-- The coordinate of the first row and column is minus this. -/
def half (world : World) : Int :=
  world.size / 2

/-- Whether a coordinate pair lies on the grid. -/
def contains (world : World) (x y : Int) : Bool :=
  let row := y + world.half
  let column := x + world.half
  decide (0 ≤ row ∧ row < world.size ∧ 0 ≤ column ∧ column < world.size)

/-- The state at a coordinate pair, dead outside the grid. -/
def cell (world : World) (x y : Int) : UInt8 :=
  if world.contains x y then
    world.grid.state (y + world.half).toNat (x + world.half).toNat
  else 0

/-- The world with its living cells counted again. -/
def recount (world : World) : World :=
  { world with population := world.grid.population }

/-- The world with one cell set. A place outside the grid is left alone; a state must
fit a byte. -/
def setCell (world : World) (x y state : Int) : Except Fault World := do
  if world.contains x y then
    let value ← Cells.stateOf? state
    let grid := world.grid.write (y + world.half).toNat (x + world.half).toNat value
    return { world with grid := grid }.recount
  else return world

/-- The block of the given measures whose top left corner is at `(x, y)`. -/
def region (world : World) (x y : Int) (height width : Nat) : Cells :=
  Cells.ofFn height width fun row column => world.cell (x + column) (y + row)

/-- A block whose measures are not below zero, and for which there is room. -/
def measuredRegion (world : World) (x y height width : Int) : Except Fault Cells := do
  if height < 0 ∨ width < 0 then throw .negativeMeasure
  Cells.roomFor height.toNat width.toNat
  return world.region x y height.toNat width.toNat

/-- Whether a rectangle and the grid have a cell in common. -/
def overlaps (world : World) (x y : Int) (height width : Nat) : Bool :=
  let top := y + world.half
  let left := x + world.half
  decide (max top 0 < min (top + height) world.size)
    && decide (max left 0 < min (left + width) world.size)

/-- A row of the grid with the states of a row of cells written from a column on. -/
def paintRow {size : Nat} (row : Vector UInt8 size) (left : Int) (cells : Cells)
    (cellsRow : Nat) : Vector UInt8 size :=
  Vector.ofFn fun column =>
    let offset := (column.val : Int) - left
    if 0 ≤ offset ∧ offset < cells.width then cells.state cellsRow offset.toNat else row.get column

/-- The world with cells written, their top left corner at `(x, y)`. What lies beyond
the grid is dropped. -/
def setRegion (world : World) (x y : Int) (cells : Cells) : World :=
  if world.overlaps x y cells.height cells.width then
    let top := y + world.half
    let left := x + world.half
    let rows := Vector.ofFn fun (row : Fin world.size) =>
      let offset := (row.val : Int) - top
      if 0 ≤ offset ∧ offset < cells.height then
        paintRow (world.grid.rows.get row) left cells offset.toNat
      else world.grid.rows.get row
    { world with grid := ⟨rows⟩ }.recount
  else world

def clear (world : World) : World :=
  { world with grid := Block.dead world.size world.size, population := 0 }

private def restart (world : World) : World :=
  { world with generation := 0, populations := [], remembered := 0 }.recount

/-- Take the present grid as generation zero. -/
def markInitial (world : World) : World :=
  restart { world with initial := world.grid }

/-- Return to the grid of generation zero. -/
def reset (world : World) : World :=
  restart { world with grid := world.initial }

/-- Replace everything by a pattern, at the centre or with its corner at the origin. -/
def load (world : World) (cells : Cells) (centred : Bool) : World :=
  let (x, y) : Int × Int :=
    if centred then (-(cells.width / 2 : Nat), -(cells.height / 2 : Nat)) else (0, 0)
  (world.clear.setRegion x y cells).markInitial

/-- The smallest rectangle of coordinates that holds every living cell. -/
structure Box where
  left : Int
  top : Int
  right : Int
  bottom : Int
deriving DecidableEq, Repr

/-- The first and last of the places below `count` that pass a test. -/
def extent (count : Nat) (passes : Nat → Bool) : Option (Nat × Nat) :=
  let places := (List.range count).filter passes
  places.head?.bind fun first => places.getLast?.map fun last => (first, last)

def boundingBox (world : World) : Option Box :=
  let live := world.grid.rows.map fun row => row.any (· != 0)
  let liveRows := (List.range world.size).filter fun row => live.toArray.getD row false
  (extent world.size fun row => live.toArray.getD row false).bind fun (top, bottom) =>
    (extent world.size fun column =>
        liveRows.any fun row => world.grid.state row column != 0).map fun (left, right) =>
      { left := left - world.half
        top := top - world.half
        right := right - world.half
        bottom := bottom - world.half }

end World

end Showreel
