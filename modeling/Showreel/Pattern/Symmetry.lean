import Showreel.Pattern.Cells

/-!
Contract: the eight symmetries of the square, as script words name them.

Owns: the words, and what each symmetry does to a block.

Does not own: the position at which a turned block is pasted.
-/

namespace Showreel.Pattern

/-- The words for the ways to place a block. `flip` turns it by half, `flipX` swaps
left and right, `flipY` swaps top and bottom, the two swaps reflect it at a diagonal, and
the last two are quarter turns. -/
inductive Symmetry where
  | identity
  | flip
  | flipX
  | flipY
  | swapXY
  | swapXYFlip
  | clockwise
  | counterClockwise
deriving DecidableEq, Repr

namespace Symmetry

def all : List Symmetry :=
  [identity, flip, flipX, flipY, swapXY, swapXYFlip, clockwise, counterClockwise]

def word : Symmetry → String
  | identity => "IDENTITY"
  | flip => "FLIP"
  | flipX => "FLIPX"
  | flipY => "FLIPY"
  | swapXY => "SWAPXY"
  | swapXYFlip => "SWAPXYFLIP"
  | clockwise => "RCW"
  | counterClockwise => "RCCW"

def ofWord? (text : String) : Option Symmetry :=
  all.find? fun symmetry => symmetry.word == text

/-- Whether height and width change places. -/
def swapsMeasures : Symmetry → Bool
  | swapXY | swapXYFlip | clockwise | counterClockwise => true
  | _ => false

/-- The position of a block of the given measures that comes to stand at a row and column
of the turned block. -/
def source (symmetry : Symmetry) (height width row column : Nat) : Nat × Nat :=
  match symmetry with
  | identity => (row, column)
  | flip => (height - 1 - row, width - 1 - column)
  | flipX => (row, width - 1 - column)
  | flipY => (height - 1 - row, column)
  | swapXY => (column, row)
  | swapXYFlip => (height - 1 - column, width - 1 - row)
  | clockwise => (height - 1 - column, row)
  | counterClockwise => (column, width - 1 - row)

def apply (symmetry : Symmetry) (cells : Cells) : Cells :=
  let height := if symmetry.swapsMeasures then cells.width else cells.height
  let width := if symmetry.swapsMeasures then cells.height else cells.width
  Cells.ofFn height width fun row column =>
    let (sourceRow, sourceColumn) := symmetry.source cells.height cells.width row column
    cells.state sourceRow sourceColumn

end Symmetry

end Showreel.Pattern
