import Showreel.Callout.Shape
import Showreel.Diagnostic
import Showreel.Number.Text
import Showreel.Pattern.RunLength
import Showreel.Script.Command
import Showreel.Script.Reader

/-!
Contract: reading the arguments of commands.

Owns:
- the state of reading: the place among the tokens and what was reported;
- numbers and whole numbers within a range, and the report when one is missing, not
  numeric or out of range;
- flag words, positions, symmetries, zooms, and run-length text spread over tokens.

Does not own: the commands. Reading never steps back, and it changes nothing but the
place and the reports.
-/

namespace Showreel.Script

open Number Scalar Pattern

/-- The place of reading and what was reported on the way. -/
structure Scan where
  reader : Reader
  reported : List Diagnostic
deriving DecidableEq, Repr

/-- A computation that reads on. -/
abbrev Reading := StateT Scan (Except Fault)

namespace Reading

/-- The next token, empty at the end. -/
def peek : Reading String := do
  return (← get).reader.peek

/-- Read on past the next token. -/
def advance : Reading Unit :=
  modify fun scan => { scan with reader := scan.reader.advance }

def report (source : String) (problem : Problem) : Reading Unit :=
  modify fun scan => { scan with reported := scan.reported ++ [⟨source, problem⟩] }

/-- Report a problem and give no argument. -/
def refuse {β : Type} (source : String) (problem : Problem) : Reading (Option β) := do
  report source problem
  return none

/-- The number of tokens that are left to read. -/
def remaining : Reading Nat := do
  return (← get).reader.ahead.length

/-- Read on past the next token if it is a given word. -/
def accept (word : String) : Reading Bool := do
  if (← peek) == word then
    advance
    return true
  else return false

/-- Report a missing argument, or one of the wrong kind, which is passed over. -/
def argumentError (source : String) (item : ArgumentName) (kind : ArgumentKind) :
    Reading Unit := do
  let token ← peek
  if token.isEmpty || isScriptWord token then report source (.missing item)
  else
    report (source ++ " " ++ token) (.mustBe item kind)
    advance

/-- Report a missing or bad argument and give none. -/
def refuseArgument {β : Type} (source : String) (kind : ArgumentKind) : Reading (Option β) := do
  argumentError source .argument kind
  return none

/-- Report a missing argument where any other word may stand, and give none. -/
def refuseMissing {β : Type} (source : String) : Reading (Option β) :=
  refuse source (.missing .argument)

end Reading

/-- Bounds of an argument: both ends belong to the range, `below` does not. -/
structure Bounds (β : Type) where
  low : Option β
  high : Option β
  below : Option β
deriving Repr

namespace Bounds

variable {β : Type}

def between (low high : β) : Bounds β := ⟨some low, some high, none⟩

def atLeast (low : β) : Bounds β := ⟨some low, none, none⟩

def upTo (low below : β) : Bounds β := ⟨some low, none, some below⟩

/-- Whether a value lies within the bounds. -/
def contains [LT β] [LE β] [DecidableLT β] [DecidableLE β] (bounds : Bounds β) (value : β) :
    Bool :=
  !(bounds.low.any fun low => decide (value < low))
    && !(bounds.high.any fun high => decide (high < value))
    && !(bounds.below.any fun below => decide (below ≤ value))

end Bounds

namespace Reading

variable {α : Type} [Scalar α]

/-- Whether the next token is a number. -/
def nextIsNumeric (α : Type) [Scalar α] : Reading Bool := do
  return isNumeric α (← peek)

/-- The next token as a number. -/
def takeNumber : Reading α := do
  let value ← readNumber (← peek)
  advance
  return value

/-- The whole part of the next token as a number. -/
def takeWhole (α : Type) [Scalar α] : Reading Int := do
  wholePart (← (takeNumber : Reading α))

/-- A numeric argument that passes a test. -/
def numberIn (source : String) (inside : α → Bool) : Reading (Option α) := do
  if ← nextIsNumeric α then
    let value : α ← takeNumber
    if inside value then return some value
    else refuse (source ++ " " ++ plainText value) (.outOfRange .argument)
  else refuseArgument source .numeric

/-- A numeric argument within bounds. -/
def number (source : String) (bounds : Bounds α) : Reading (Option α) :=
  numberIn source bounds.contains

/-- A numeric argument, its fraction dropped, within bounds. -/
def whole (α : Type) [Scalar α] (source : String) (bounds : Bounds Int) :
    Reading (Option Int) := do
  if ← nextIsNumeric α then
    let value ← takeWhole α
    if bounds.contains value then return some value
    else refuse (source ++ " " ++ toString value) (.outOfRange .argument)
  else refuseArgument source .numeric

/-- Whether a value is a coordinate: from one grid before the origin to two grids after it.
The comparison is exact, however large the grid. -/
def isCoordinate (gridSize : Int) (value : α) : Bool :=
  match denotation value with
  | .finite exact => decide (-gridSize ≤ exact) && decide (exact < 2 * gridSize)
  | _ => false

/-- A numeric argument that is a coordinate. -/
def coordinate (source : String) (gridSize : Int) : Reading (Option α) :=
  numberIn source (isCoordinate gridSize)

/-- Magnification of a zoom argument: from 1/16 to 64, or a negative number from -16 to -1
for its reciprocal. -/
def magnification (literal : α) : Option α :=
  if (0.0625 : α) ≤ literal ∧ literal ≤ 64 then some literal
  else if (-16 : α) ≤ literal ∧ literal ≤ -1 then some (-(1 / literal))
  else none

/-- A zoom argument as a magnification. -/
def zoom (source : String) : Reading (Option α) := do
  if ← nextIsNumeric α then
    let literal : α ← takeNumber
    match magnification literal with
    | some value => return some value
    | none => refuse (source ++ " " ++ plainText literal) (.outOfRange .argument)
  else refuseArgument source .numeric

/-- Several numbers that pass a test, and the source with each of them added. -/
def numbersIn (inside : α → Bool) : Nat → String → Reading (Option (List α) × String)
  | 0, source => return (some [], source)
  | count + 1, source => do
      match ← numberIn source inside with
      | none => return (none, source)
      | some value =>
          let (others, final) ← numbersIn inside count (source ++ " " ++ plainText value)
          return (others.map (value :: ·), final)

/-- Several numbers within the same bounds. -/
def numbers (bounds : Bounds α) (count : Nat) (source : String) :
    Reading (Option (List α) × String) :=
  numbersIn bounds.contains count source

/-- Several coordinates. -/
def coordinates (gridSize : Int) (count : Nat) (source : String) :
    Reading (Option (List α) × String) :=
  numbersIn (isCoordinate gridSize) count source

/-- The speeds of a drift, in cells per generation. -/
def speedBounds : Bounds α := .between (-2) 2

/-- The word that holds a callout in place. -/
def fixed : Reading Bool := accept "FIXED"

def off : Reading Bool := accept "OFF"

/-- A whole number if the next token is numeric, else zero. -/
def optionalWhole (α : Type) [Scalar α] : Reading Int := do
  if ← nextIsNumeric α then takeWhole α else return 0

/-- Column and row of a paste; either may be left out. -/
def position (α : Type) [Scalar α] : Reading (Int × Int) := do
  let x ← optionalWhole α
  let y ← optionalWhole α
  return (x, y)

/-- A symmetry word, the identity if there is none. -/
def symmetry : Reading Symmetry := do
  match Symmetry.ofWord? (← peek) with
  | some found =>
      advance
      return found
  | none => return .identity

/-- Whether run-length text is closed by the end mark. -/
def isClosed (text : String) : Bool :=
  text.toList.getLast? == some '!'

/-- Whether a token goes on with run-length text: a fragment that is no word of scripts, no
number and no symmetry. -/
def continuesRun (α : Type) [Scalar α] (token : String) : Bool :=
  !isScriptWord token && !isNumeric α token && (Symmetry.ofWord? token).isNone
    && RunLength.isFragment token

/-- Run-length text joined with the fragments that follow it, and the reader after them. -/
def joinFragments (α : Type) [Scalar α] (text : String) (behind : List String) :
    List String → String × Reader
  | [] => (text, ⟨behind, []⟩)
  | token :: rest =>
      if !isClosed text && continuesRun α token then
        joinFragments α (text ++ token) (token :: behind) rest
      else (text, ⟨behind, token :: rest⟩)

/-- Run-length text that starts with a token already read. -/
def runText (α : Type) [Scalar α] (opening : String) : Reading String := do
  let scan ← get
  let (text, reader) := joinFragments α opening scan.reader.behind scan.reader.ahead
  set { scan with reader := reader }
  return text

/-- Gaps between generations, none negative. Named lists are spliced in where they are
known. `fuel` is at least the number of tokens left. -/
def gaps (α : Type) [Scalar α] (recipes : List (String × List Int)) :
    Nat → String → Reading (Option (List Int))
  | 0, _ => return some []
  | fuel + 1, source => do
      let token ← peek
      if isNumeric α token then
        match ← whole α source (.atLeast 0) with
        | none => return none
        | some gap =>
            let others ← gaps α recipes fuel (source ++ " " ++ toString gap)
            return others.map (gap :: ·)
      else
        match recipes.lookup token with
        | none => return some []
        | some named =>
            advance
            let others ← gaps α recipes fuel (source ++ " " ++ token)
            return others.map (named ++ ·)

/-- All gaps up to the next token that is none. -/
def allGaps (α : Type) [Scalar α] (recipes : List (String × List Int)) (source : String) :
    Reading (Option (List Int)) := do
  gaps α recipes (← remaining) source

/-- A name that is no number, and no word of scripts. -/
def freshName (α : Type) [Scalar α] (source : String) : Reading (Option String) := do
  let name ← peek
  if name.isEmpty || isScriptWord name then refuseMissing source
  else
    advance
    if isNumeric α name then refuse (source ++ " " ++ name) (.mustBe .argument .name)
    else return some name

end Reading

end Showreel.Script
