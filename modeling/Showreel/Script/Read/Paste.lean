import Showreel.Script.Statement

/-!
Contract: reading the commands for patterns and pastes.

Owns: their argument order, ranges and reports.

Does not own: what their statements do.
-/

namespace Showreel.Script.Read

open Number Scalar Paste Pattern Reading

variable {α : Type} [Scalar α]

/-- A named pattern: a name, its run-length text, an offset and a symmetry. -/
def runLength (word : String) : Reading (Option (Statement α)) := do
  match ← freshName α word with
  | none => return none
  | some name =>
      let source := word ++ " " ++ name
      let opening ← peek
      if opening.isEmpty || isScriptWord opening then refuseMissing source
      else
        advance
        let text ← runText α opening
        let (x, y) ← Reading.position α
        let placing ← symmetry
        match ← RunLength.decode text.toList with
        | none => refuse source .invalidRunLength
        | some cells => return some (.defineSnippet ⟨name, cells, x, y, placing⟩ source)

/-- The pairs of a train. A pair with a negative delay is reported and ends the train; so
does, before the first pair, anything but two numbers. `fuel` is at least the number of
tokens left. -/
def trainSteps (α : Type) [Scalar α] (alongX : Bool) (source : String) :
    Nat → Reading (List TrainStep)
  | 0 => return []
  | fuel + 1 => do
      let reader := (← get).reader
      if isNumeric α reader.peek && isNumeric α (reader.peekAt 1) then
        let distance ← takeWhole α
        let delay ← takeWhole α
        if delay < 0 then
          report (source ++ " " ++ toString distance ++ " " ++ toString delay)
            (.outOfRange .argument)
          return []
        else
          let step : TrainStep :=
            if alongX then ⟨distance, 0, delay⟩ else ⟨0, distance, delay⟩
          return step :: (← trainSteps α alongX source fuel)
      else return []

/-- The train that may follow a paste. -/
def train (α : Type) [Scalar α] (word : String) : Reading (List TrainStep) := do
  let direction ← peek
  if direction == "XT" || direction == "YT" then
    advance
    let source := word ++ " " ++ direction
    let reader := (← get).reader
    if isNumeric α reader.peek && isNumeric α (reader.peekAt 1) then
      trainSteps α (direction == "XT") source (← remaining)
    else
      report source .missingPair
      return []
  else return []

/-- The place, the symmetry and the train of a paste, whose cells have been read. -/
def placed (word text : String) (found : Option Cells) (base : Int × Int) :
    Reading (Option (Statement α)) := do
  let (x, y) ← Reading.position α
  let placing ← symmetry
  match found with
  | none => refuse (word ++ " " ++ text) .invalidNameOrRunLength
  | some cells =>
      let steps ← train α word
      return some (.paste (placing.apply cells) (x + base.1) (y + base.2) steps text)

/-- A paste of a named pattern or of run-length text. -/
def paste (draft : Draft α) (word : String) : Reading (Option (Statement α)) := do
  let opening ← peek
  if opening.isEmpty || isScriptWord opening then refuseMissing word
  else
    advance
    match draft.snippets.find? fun snippet => snippet.name == opening with
    | some snippet => placed word opening (some snippet.placed) (snippet.x, snippet.y)
    | none =>
        let text ← runText α opening
        let found : Option Cells ← RunLength.decode text.toList
        placed word text found (0, 0)

/-- A named list of gaps between generations. -/
def recipe (word : String) : Reading (Option (Statement α)) := do
  match ← freshName α word with
  | none => return none
  | some name =>
      let source := word ++ " " ++ name
      return (← allGaps α [] source).map fun gaps => .defineRecipe name gaps source

/-- The end of a repeating paste, if a number follows. -/
def pasteStop (source : String) (every start : Int) : Reading (Option (Statement α)) := do
  if ← nextIsNumeric α then
    return (← whole α source (.atLeast (start + every))).map fun stop =>
      .pasteEvery every start stop
  else return some (.pasteEvery every start (-1))

/-- A repeating paste: its period, and optionally its first and its last generation. -/
def pasteEvery (source : String) : Reading (Option (Statement α)) := do
  match ← whole α source (.atLeast 1) with
  | none => return none
  | some every =>
      let source := source ++ " " ++ toString every
      if ← nextIsNumeric α then
        match ← whole α source (.atLeast 0) with
        | none => return none
        | some start => pasteStop (source ++ " " ++ toString start) every start
      else return some (.pasteEvery every 0 (-1))

/-- The generations of the next pastes. -/
def pasteTime (draft : Draft α) (word : String) : Reading (Option (Statement α)) := do
  if ← nextIsNumeric α then
    match ← whole α word (.atLeast 0) with
    | none => return none
    | some first =>
        let gaps ← allGaps α draft.recipes (word ++ " " ++ toString first)
        return gaps.map fun given => .pasteAt first given
  else if ← accept "EVERY" then pasteEvery (word ++ " EVERY")
  else refuseArgument word .numeric

/-- The farthest that one firing may move a repeating paste. -/
def mostDrift : Int := 4096

def pasteDrift (word : String) : Reading (Option (Statement α)) := do
  let bounds : Bounds Int := .between (-mostDrift) mostDrift
  match ← whole α word bounds with
  | none => return none
  | some dx =>
      return (← whole α (word ++ " " ++ toString dx) bounds).map fun dy => .pasteDrift dx dy

/-- A blend by its name, its four digits or its number. -/
def pasteMode (word : String) : Reading (Option (Statement α)) := do
  match Mode.ofWord? (← peek) with
  | some mode =>
      advance
      return some (.pasteMode mode)
  | none =>
      if ← nextIsNumeric α then
        match ← whole α word (.between 0 15) with
        | none => return none
        | some number => return some (.pasteMode (← Mode.ofNumber number))
      else refuseArgument word .pasteMode

def pasteEvolve (word : String) : Reading (Option (Statement α)) := do
  return (← whole α word (.atLeast 0)).map .pasteEvolve

end Showreel.Script.Read
