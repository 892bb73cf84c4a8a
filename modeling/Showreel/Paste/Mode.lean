import Showreel.Pattern.Cells

/-!
Contract: how a pattern is blended into the grid.

Owns:
- the sixteen truth tables over a pattern cell and a grid cell, and their words;
- the state of a blended cell, and the blend of two blocks, of which one may be repeated
  to the measures of the other.

Does not own: where and when a pattern is blended.
-/

namespace Showreel.Paste

open Pattern

/-- A truth table over (pattern cell, grid cell). Read as four binary digits it gives the
results for dead and dead, dead and alive, alive and dead, alive and alive. -/
structure Mode where
  table : Fin 16
deriving DecidableEq, Repr

namespace Mode

/-- The pattern is added to the grid. -/
def either : Mode := ⟨7⟩

/-- The word of each table, in order; tables without a name are written in digits. -/
def words : List String :=
  ["ZERO", "AND", "0010", "X", "DIFF", "Y", "XOR", "OR",
    "NOR", "XNOR", "NOTY", "1011", "NOTX", "1101", "NAND", "ONE"]

def word (mode : Mode) : String :=
  (words[mode.table.val]?).getD ""

/-- Second names of two tables. -/
def secondWords : List (String × Fin 16) :=
  [("COPY", 3), ("NOT", 12)]

/-- The names of tables; written digits are not among them. -/
def names : List (String × Fin 16) :=
  [("ZERO", 0), ("AND", 1), ("X", 3), ("DIFF", 4), ("Y", 5), ("XOR", 6), ("OR", 7), ("NOR", 8),
    ("XNOR", 9), ("NOTY", 10), ("NOTX", 12), ("NAND", 14), ("ONE", 15)] ++ secondWords

/-- The value of one written digit of a table. -/
def bit? (char : Char) : Option Nat :=
  if char = '0' then some 0 else if char = '1' then some 1 else none

/-- The table that a word stands for: four binary digits or a name. -/
def ofWord? (text : String) : Option Mode :=
  match text.toList.mapM bit? with
  | some [first, second, third, fourth] =>
      some ⟨Fin.ofNat 16 (8 * first + 4 * second + 2 * third + fourth)⟩
  | _ => (names.lookup text).map Mode.mk

/-- The table with a given number. -/
def ofNumber (number : Int) : Except Fault Mode :=
  if 0 ≤ number ∧ number < 16 then .ok ⟨Fin.ofNat 16 number.toNat⟩
  else .error (.unknownTable number)

/-- Whether the table keeps a cell alive. -/
def keeps (mode : Mode) (patternAlive gridAlive : Bool) : Bool :=
  mode.table.val.testBit (3 - (2 * patternAlive.toNat + gridAlive.toNat))

/-- The blend of a grid cell and a pattern cell. A cell that is kept alive takes the
pattern's state where the pattern is alive, else the grid's where that is alive, else
one. -/
def blendCell (mode : Mode) (gridState patternState : UInt8) : UInt8 :=
  if mode.keeps (patternState != 0) (gridState != 0) then
    if patternState != 0 then patternState else if gridState != 0 then gridState else 1
  else 0

/-- The blend of a pattern and the block of the grid under it. -/
def blend (mode : Mode) (under pattern : Cells) : Cells :=
  Cells.ofFn pattern.height pattern.width fun row column =>
    mode.blendCell (under.state row column) (pattern.state row column)

/-- The common length of two sides; a side of one cell is repeated along the other. -/
def commonLength (first second : Nat) : Except Fault Nat :=
  if first = second ∨ second = 1 then .ok first
  else if first = 1 then .ok second
  else .error .unlikeMeasures

/-- A block with a side of one cell repeated to a length. -/
def spread (cells : Cells) (height width : Nat) : Cells :=
  Cells.ofFn height width fun row column =>
    cells.state (if cells.height = 1 then 0 else row) (if cells.width = 1 then 0 else column)

/-- The blend of two blocks that may differ where a side has one cell. -/
def blendSpread (mode : Mode) (under pattern : Cells) : Except Fault Cells := do
  let height ← commonLength under.height pattern.height
  let width ← commonLength under.width pattern.width
  return mode.blend (spread under height width) (spread pattern height width)

end Mode

end Showreel.Paste
