import Showreel.Script.Statement
import Showreel.Theme

/-!
Contract: reading the commands for colours, the title and the viewer.

Owns: their argument order, ranges and reports.

Does not own: what their statements do.
-/

namespace Showreel.Script.Read

open Number Reading

variable {α : Type} [Scalar α]

/-- The components of a colour, each reported when it is out of range; a missing one ends
the reading. -/
def components (α : Type) [Scalar α] :
    List ArgumentName → String → Reading (Option (List Int × Bool))
  | [], _ => return some ([], true)
  | item :: others, source => do
      if ← nextIsNumeric α then
        let value ← takeWhole α
        let source := source ++ " " ++ toString value
        let isByte := decide (0 ≤ value ∧ value ≤ 255)
        if !isByte then report source (.outOfRange item)
        let rest ← components α others source
        return rest.map fun (values, valid) => (value :: values, isByte && valid)
      else
        argumentError source item .numeric
        return none

/-- A colour in components, in hexadecimal digits or by name. -/
def colour (α : Type) [Scalar α] (source : String) : Reading (Option Colour) := do
  if ← nextIsNumeric α then
    match ← components α [.red, .green, .blue] source with
    | some ([red, green, blue], true) => return some ⟨red, green, blue⟩
    | _ => return none
  else
    let token ← peek
    match (Colour.ofHex? token).orElse fun _ => Colour.ofName? token with
    | some found =>
        advance
        return some found
    | none =>
        if token.isEmpty || isScriptWord token then refuse source (.missing .name)
        else
          advance
          refuse (source ++ " " ++ token)
            (if token.toList.head? == some '#' then .badHexColour else .unknownColour)

/-- The colour of a cell state. The colour is read even when the state is out of range. -/
def stateColour (word : String) : Reading (Option (Statement α)) := do
  let state ← takeWhole α
  let source := word ++ " " ++ toString state
  let found ← colour α source
  if 0 ≤ state ∧ state ≤ 255 then
    return found.map fun given => .setStateColour state given (source ++ " " ++ given.text)
  else refuse source (.outOfRange .state)

/-- The colour of an element: of callouts that are made from now on, or of the theme. -/
def elementColour (draft : Draft α) (word : String) : Reading (Option (Statement α)) := do
  let element ← peek
  if themeElements.contains element then
    advance
    let source := word ++ " " ++ element
    return (← colour α source).map fun given =>
      match StyleFamily.ofWord? element with
      | some family => .setStyle family { draft.style family with colour := given }
      | none => .setElementColour element given (source ++ " " ++ given.text)
  else if element.isEmpty || isScriptWord element then refuseMissing word
  else
    advance
    refuse (word ++ " " ++ element) .unknownElement

/-- A colour for a cell state or an element. -/
def anyColour (draft : Draft α) (word : String) : Reading (Option (Statement α)) := do
  if ← nextIsNumeric α then stateColour word else elementColour draft word

def title (word : String) : Reading (Option (Statement α)) := do
  if (← peek).toList.head? == some '\x22' then return some .openTitle
  else refuse word (.mustBe .argument .quotedString)

def viewerWidth (word : String) : Reading (Option (Statement α)) := do
  return (← whole α word (.between 480 4096)).map .setWidth

def viewerHeight (word : String) : Reading (Option (Statement α)) := do
  return (← whole α word (.between 240 4096)).map .setHeight

def maxGridSize (word : String) : Reading (Option (Statement α)) := do
  return (← whole α word (.between 9 14)).map .setMaxGridPower

def autostart : Reading (Option (Statement α)) := do
  return some (.setAutostart (!(← off)))

/-- The latest generation to start from. -/
def latestStart : Int := 1000000

def startFrom (word : String) : Reading (Option (Statement α)) := do
  return (← whole α word (.between 0 latestStart)).map .setStartFrom

end Showreel.Script.Read
