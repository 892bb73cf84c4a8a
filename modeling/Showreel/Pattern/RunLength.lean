import Showreel.Number.Literal
import Showreel.Pattern.Cells
import Showreel.Text.Blank

/-!
Contract: blocks of cells as run-length text.

Owns:
- the characters of run-length text and the tokens that may be part of it;
- reading text into items, and what a sequence of items draws;
- writing two-state blocks.

Does not own: the document around a pattern.

An item is a run of dead cells, a run of cells of one state, or a move to the start
of a later row; the count before it defaults to one.
-/

namespace Showreel.Pattern.RunLength

def isRunChar (char : Char) : Bool :=
  decide ('0' ≤ char ∧ char ≤ '9') || decide ('A' ≤ char ∧ char ≤ 'X')
    || decide ('p' ≤ char ∧ char ≤ 'y') || "bo.$!".toList.contains char

/-- Whether a token could be part of run-length text: run characters that are not a bare
number. One line end may follow them. -/
def isFragment (token : String) : Bool :=
  let chars := token.toList
  let body := if chars.getLast? = some '\n' then chars.dropLast else chars
  !body.isEmpty && body.all isRunChar && !chars.all Char.isDigit

/-- One step of drawing. -/
inductive Item where
  | dead (count : Nat)
  | live (count : Nat) (state : UInt8)
  | rows (count : Nat)
deriving DecidableEq, Repr

/-- A count that is being read: the number of its digits so far, and their value. -/
structure Count where
  digits : Nat
  value : Nat
deriving DecidableEq, Repr

namespace Count

/-- No digit has been read. -/
def none : Count := ⟨0, 0⟩

/-- The count with one more digit. -/
def push (count : Count) (digit : Char) : Count :=
  ⟨count.digits + 1, count.value * 10 + (digit.toNat - '0'.toNat)⟩

/-- What the count says, one if it has no digits. -/
def run (count : Count) : Except Fault Nat :=
  if count.digits = 0 then .ok 1
  else if Number.Literal.digitLimit < count.digits then .error .tooManyDigits
  else .ok count.value

end Count

/-- The item that a letter or mark writes with a count, if it may follow the states that an
open prefix adds. A state is at most 255, and only a living cell takes a prefix. -/
def itemOf? (run offset : Nat) (char : Char) : Option Item :=
  if char = 'o' then some (.live run 1)
  else if 'A' ≤ char ∧ char ≤ 'X' then
    let state := char.toNat - 'A'.toNat + 1 + offset
    if state ≤ 255 then some (.live run (UInt8.ofNat state)) else none
  else if offset ≠ 0 then none
  else if char = '$' then some (.rows run)
  else some (.dead run)

/-- The items up to the mark that ends a pattern; `none` if the text is not run-length text.
`offset` holds the states that an open prefix adds. A count or a prefix may not be left
open, and a count is read when a letter or mark follows it. -/
def readItems (count : Count) (offset : Nat) : List Char → Except Fault (Option (List Item))
  | [] => .ok (if count.digits = 0 ∧ offset = 0 then some [] else none)
  | char :: rest =>
      if char.isDigit then readItems (count.push char) offset rest
      else if 'p' ≤ char ∧ char ≤ 'y' then
        if offset = 0 then readItems count ((char.toNat - 'p'.toNat + 1) * 24) rest
        else .ok none
      else do
        let run ← count.run
        if char = '!' then return if offset = 0 then some [] else none
        else
          match itemOf? run offset char with
          | none => return none
          | some item => return (← readItems .none 0 rest).map (item :: ·)

/-- A written cell. -/
structure Mark where
  row : Nat
  column : Nat
  state : UInt8
deriving DecidableEq, Repr

/-- The cells that items write from a position on, in the order of writing. -/
def marks (row column : Nat) : List Item → List Mark
  | [] => []
  | .dead count :: rest => marks row (column + count) rest
  | .live count state :: rest =>
      (List.range count).map (fun step => ⟨row, column + step, state⟩)
        ++ marks row (column + count) rest
  | .rows count :: rest => marks (row + count) 0 rest

/-- How many rows and columns the smallest block at the origin has that holds all marks. -/
def measures (written : List Mark) : Nat × Nat :=
  written.foldl (fun (height, width) mark =>
    (max height (mark.row + 1), max width (mark.column + 1))) (0, 0)

/-- The smallest block at the origin that holds all marks; a later mark wins. -/
def draw (written : List Mark) : Cells :=
  let (height, width) := measures written
  ⟨height, width, written.foldl (fun block mark => block.write mark.row mark.column mark.state)
    (Block.dead height width)⟩

/-- The pattern of run-length text, blanks apart; `none` when the text is not one or
draws no cell. -/
def decode (text : List Char) : Except Fault (Option Cells) :=
  let body := text.filter fun char => !Text.isBlank char
  if body.isEmpty ∨ !body.all isRunChar then .ok none
  else do
    match (← readItems .none 0 body).map (marks 0 0) with
    | none | some [] => return none
    | some written =>
        let (height, width) := measures written
        Cells.roomFor height width
        return some (draw written)

/-- A count is written only where it is not one. -/
def writeRun (count : Nat) (tag : Char) : List Char :=
  if count = 1 then [tag] else (toString count).toList ++ [tag]

/-- The runs of a row whose first `count` cells are known to be alive or dead. -/
def writeRuns (count : Nat) (alive : Bool) : List UInt8 → List Char
  | [] => writeRun count (if alive then 'o' else 'b')
  | state :: rest =>
      if (state != 0) = alive then writeRuns (count + 1) alive rest
      else writeRun count (if alive then 'o' else 'b') ++ writeRuns 1 (state != 0) rest

/-- A row without the dead cells that end it. -/
def trimRow (row : List UInt8) : List UInt8 :=
  (row.reverse.dropWhile (· == 0)).reverse

def writeRow (row : List UInt8) : List Char :=
  match trimRow row with
  | [] => []
  | state :: rest => writeRuns 1 (state != 0) rest

/-- The text of a block, every living cell written alike. -/
def encode (cells : Cells) : List Char :=
  List.intercalate ['$'] (cells.toRows.map writeRow) ++ ['!']

end Showreel.Pattern.RunLength
