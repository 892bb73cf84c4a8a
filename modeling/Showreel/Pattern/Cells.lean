import Showreel.Fault

/-!
Contract: rectangular blocks of cell states.

Owns:
- blocks of a fixed height and width, read by row and column;
- blocks built from a function of the position, and single writes;
- `Cells`, a block together with its measures;
- how large a block may be.

Does not own: where a block stands, and any rule of life.

A position outside a block reads as dead, so the law of every operation is one
equation between readings.
-/

namespace Showreel.Pattern

/-- Cell states by row and column; state zero is dead. -/
structure Block (height width : Nat) where
  rows : Vector (Vector UInt8 width) height
deriving DecidableEq, Repr

namespace Block

variable {height width : Nat}

/-- The state at a position, dead outside the block. -/
def state (block : Block height width) (row column : Nat) : UInt8 :=
  if rowInside : row < height then
    if columnInside : column < width then block.rows[row][column] else 0
  else 0

def ofFn (height width : Nat) (states : Nat → Nat → UInt8) : Block height width :=
  ⟨Vector.ofFn fun row => Vector.ofFn fun column => states row column⟩

def dead (height width : Nat) : Block height width :=
  ⟨Vector.replicate height (Vector.replicate width 0)⟩

/-- The block with one cell written; a position outside is left alone. -/
def write (block : Block height width) (row column : Nat) (value : UInt8) : Block height width :=
  ⟨⟨block.rows.toArray.modify row fun cells => cells.setIfInBounds column value, by simp⟩⟩

/-- The number of cells that are not dead. -/
def population (block : Block height width) : Nat :=
  block.rows.foldl (fun total row => total + row.countP (· != 0)) 0

def toRows (block : Block height width) : List (List UInt8) :=
  block.rows.toList.map fun row => row.toList

theorem state_ofFn (states : Nat → Nat → UInt8) (row column : Nat) :
    (ofFn height width states).state row column
      = if row < height ∧ column < width then states row column else 0 := by
  unfold state ofFn
  by_cases rowInside : row < height <;> by_cases columnInside : column < width <;>
    simp [rowInside, columnInside]

theorem state_dead (row column : Nat) : (dead height width).state row column = 0 := by
  unfold state dead
  by_cases rowInside : row < height <;> by_cases columnInside : column < width <;>
    simp [rowInside, columnInside]

theorem state_eq_getElem (block : Block height width) {row column : Nat}
    (rowInside : row < height) (columnInside : column < width) :
    block.state row column = block.rows[row][column] := by
  unfold state
  rw [dif_pos rowInside, dif_pos columnInside]

/-- Blocks of one measure are equal when they read alike everywhere. -/
theorem ext_state {left right : Block height width}
    (agree : ∀ row column, row < height → column < width →
      left.state row column = right.state row column) :
    left = right := by
  obtain ⟨leftRows⟩ := left
  obtain ⟨rightRows⟩ := right
  refine congrArg mk (Vector.ext fun row rowInside => Vector.ext fun column columnInside => ?_)
  simpa [state_eq_getElem _ rowInside columnInside] using agree row column rowInside columnInside

end Block

/-- A block with its measures. -/
structure Cells where
  height : Nat
  width : Nat
  block : Block height width
deriving DecidableEq, Repr

namespace Cells

def state (cells : Cells) (row column : Nat) : UInt8 :=
  cells.block.state row column

def ofFn (height width : Nat) (states : Nat → Nat → UInt8) : Cells :=
  ⟨height, width, Block.ofFn height width states⟩

/-- The block without rows and columns. -/
def empty : Cells :=
  ⟨0, 0, Block.dead 0 0⟩

/-- Whether the block has no position at all. -/
def isEmpty (cells : Cells) : Bool :=
  cells.height == 0 || cells.width == 0

/-- The number of cells that can be told apart by their places is below this. -/
def countLimit : Nat := 1 <<< 63

/-- The number of cells that memory holds is below this. -/
def memoryLimit : Nat := 1 <<< 36

/-- Whether there is room for a block of the given measures. -/
def roomFor (height width : Nat) : Except Fault Unit :=
  if countLimit ≤ height ∨ countLimit ≤ width ∨ countLimit ≤ height * width then
    .error .blockTooLarge
  else if memoryLimit ≤ height * width then .error .outOfMemory
  else .ok ()

/-- The block with the given rows, as wide as the widest; missing states are dead. -/
def ofRows (rows : List (List UInt8)) : Cells :=
  let table := (rows.map List.toArray).toArray
  ofFn rows.length (rows.foldl (fun widest row => max widest row.length) 0)
    fun row column => (table.getD row Array.empty).getD column 0

/-- The state that a number stands for. -/
def stateOf? (number : Int) : Except Fault UInt8 :=
  if 0 ≤ number ∧ number < 256 then .ok (UInt8.ofNat number.toNat) else .error .overflow

/-- The block with the given rows of numbers. The rows must be of one length, and then each
number must be a state. -/
def ofStates? (rows : List (List Int)) : Except Fault Cells := do
  unless rows.all fun row => row.length == (rows.headD []).length do throw .raggedRows
  return ofRows (← rows.mapM fun row => row.mapM stateOf?)

def toRows (cells : Cells) : List (List UInt8) :=
  cells.block.toRows

theorem state_ofFn (height width : Nat) (states : Nat → Nat → UInt8) (row column : Nat) :
    (ofFn height width states).state row column
      = if row < height ∧ column < width then states row column else 0 :=
  Block.state_ofFn states row column

theorem inside_of_state {cells : Cells} {row column : Nat} (alive : cells.state row column ≠ 0) :
    row < cells.height ∧ column < cells.width := by
  unfold state Block.state at alive
  split at alive
  · split at alive
    · exact ⟨‹_›, ‹_›⟩
    · exact absurd rfl alive
  · exact absurd rfl alive

/-- Blocks of the same measures that read alike are one block. -/
theorem ext_state {left right : Cells} (height : left.height = right.height)
    (width : left.width = right.width)
    (agree : ∀ row column, row < left.height → column < left.width →
      left.state row column = right.state row column) : left = right := by
  rcases left with ⟨leftHeight, leftWidth, leftBlock⟩
  rcases right with ⟨rightHeight, rightWidth, rightBlock⟩
  cases height
  cases width
  exact congrArg (Cells.mk leftHeight leftWidth) (Block.ext_state agree)

end Cells

end Showreel.Pattern
