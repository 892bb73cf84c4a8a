import Showreel.Settings
import Showreel.Script.Statement
import Showreel.Theme

/-!
Contract: reading the commands for waypoints, points of interest and tracks.

Owns: their argument order, ranges and reports.

Does not own: what their statements do.
-/

namespace Showreel.Script.Read

open Number Scalar Waypoint Reading

variable {α : Type} [Scalar α]

/-- The target generation of a waypoint. -/
def generation (word : String) : Reading (Option (Statement α)) := do
  return (← whole α word (.atLeast 0)).map .generation

/-- A pause lasts one frame at least. -/
def pause (word : String) : Reading (Option (Statement α)) := do
  let seconds : Option α ← number word (.atLeast 0)
  return seconds.map fun given => .pause (larger given (1 / 60))

def openPoi : Reading (Option (Statement α)) := do
  return some (.openPoi (← accept "INITIAL"))

/-- The generation to compute on arrival, which belongs to a point of interest. -/
def poiStart (draft : Draft α) (word : String) : Reading (Option (Statement α)) := do
  match ← whole α word (.atLeast 0) with
  | none => return none
  | some target =>
      if draft.current.isPoi then return some (.poiStart target)
      else refuse (word ++ " " ++ toString target) .settingOutsidePoi

/-- The most frames that travelling may take. -/
def mostFrames : Int := 200

def poiSpeed (word : String) : Reading (Option (Statement α)) := do
  return (← whole α word (.between 0 mostFrames)).map .poiSpeed

/-- The copy of all fields from the first waypoint. -/
def copyAll (draft : Draft α) (word : String) : Reading (Option (Statement α)) := do
  if ← accept "INITIAL" then
    if draft.current.isPoi then return some .copyAll
    else refuse (initialSource "ALL") .settingOutsidePoi
  else refuse word .initialMustFollow

/-- The copy of one field from the first waypoint. -/
def copyField (draft : Draft α) (field : Field) : Reading (Option (Statement α)) := do
  if draft.current.isPoi then return some (.copyField field)
  else refuse (initialSource field.word) .settingOutsidePoi

/-- Half a grid to either side of the origin. -/
def position (draft : Draft α) (field : Field) (toValue : α → field.Value α) (word : String) :
    Reading (Option (Statement α)) := do
  let half : α ← draft.halfGrid
  let given : Option α ← number word (.between (-half) half)
  return given.map fun value =>
    .setField field (toValue value) (field.word ++ " " ++ plainText value)

/-- A magnification is kept as the zoom, and its literal as the source. -/
def zoom (word : String) : Reading (Option (Statement α)) := do
  if ← nextIsNumeric α then
    let literal : α ← takeNumber
    match magnification literal with
    | some value => return some (.setField .zoom value ("ZOOM " ++ plainText literal))
    | none => refuse (word ++ " " ++ plainText literal) (.outOfRange .argument)
  else refuseArgument word .numeric

/-- A whole number in a range as the value of a field. -/
def wholeField (field : Field) (toValue : Int → field.Value α) (bounds : Bounds Int)
    (word : String) : Reading (Option (Statement α)) := do
  return (← whole α word bounds).map fun value =>
    .setField field (toValue value) (field.word ++ " " ++ toString value)

/-- A number in a range as the value of a field. -/
def numberField (field : Field) (toValue : α → field.Value α) (bounds : Bounds α)
    (word : String) : Reading (Option (Statement α)) := do
  let given : Option α ← number word bounds
  return given.map fun value =>
    .setField field (toValue value) (field.word ++ " " ++ plainText value)

/-- The most steps that one displayed generation may take. -/
def mostSteps : Int := 64

/-- Generations per second. A pace above the refresh rate is that rate with several steps
for each displayed generation. -/
def pace (refreshRate : Int) (word : String) : Reading (Option (Statement α)) := do
  match ← whole α word (.atLeast 1) with
  | none => return none
  | some count =>
      let source := "GPS " ++ toString count
      if refreshRate < count then
        if refreshRate = 0 then throw .divisionByZero
        let steps := count.fdiv refreshRate
        let gps ← (ofInt refreshRate : Except Fault α)
        return some (.setPace (if 2 ≤ steps then some (min steps mostSteps) else none) gps source)
      else
        let gps ← (ofInt count : Except Fault α)
        return some (.setPace none gps source)

/-- A stop or loop generation, or none. -/
def limit (stops : Bool) (word : String) : Reading (Option (Statement α)) := do
  let name := if stops then "STOP" else "LOOP"
  if ← off then return some (.setLimit stops (-1) (name ++ " OFF"))
  else
    return (← whole α word (.atLeast 1)).map fun value =>
      .setLimit stops value (name ++ " " ++ toString value)

/-- The statement for a theme. -/
def themeStatement (theme : Int) : Statement α :=
  .setField .theme theme ("THEME " ++ Theme.nameOf theme)

/-- A theme by its number, its name, or the word for the custom theme. -/
def theme (word : String) : Reading (Option (Statement α)) := do
  let token ← peek
  if ← nextIsNumeric α then
    return (← whole α word (.between 0 (Theme.custom - 1))).map themeStatement
  else if token == "CUSTOM" then
    advance
    return some (themeStatement Theme.custom)
  else
    match Theme.ofName? token with
    | some found =>
        advance
        return some (themeStatement found)
    | none =>
        if token.isEmpty || isScriptWord token then refuseMissing word
        else
          advance
          refuse (word ++ " " ++ token) .unknownTheme

/-- The value that follows the word of a field. -/
def fieldValue (draft : Draft α) (refreshRate : Int) (word : String) :
    Field → Reading (Option (Statement α))
  | .x => position draft .x id word
  | .y => position draft .y id word
  | .zoom => zoom word
  | .angle => wholeField .angle .whole (.between 0 359) word
  | .tilt => numberField .tilt id (.between 1 5) word
  | .layers => wholeField .layers id (.between 1 10) word
  | .depth => numberField .depth id (.between 0 1) word
  | .theme => theme word
  | .gps => pace refreshRate word
  | .step => wholeField .step id (.between 1 mostSteps) word
  | .loop => limit false word
  | .stop => limit true word

/-- A field: a copy from the first waypoint, or a value. -/
def field (draft : Draft α) (refreshRate : Int) (word : String) (name : Field) :
    Reading (Option (Statement α)) := do
  if ← accept "INITIAL" then copyField draft name
  else fieldValue draft refreshRate word name

/-- The switches that an axis word stands for. -/
def axisSwitches : List (String × List Switch) :=
  [("X", [.xLinear]), ("Y", [.yLinear]), ("ZOOM", [.zoomLinear]),
    ("ALL", [.xLinear, .yLinear, .zoomLinear])]

/-- The way in which some axes move. -/
def motion (linear : Bool) (word : String) : Reading (Option (Statement α)) := do
  let axis ← peek
  match axisSwitches.lookup axis with
  | none => refuseArgument word .axis
  | some switches =>
      advance
      return some (.setMotion switches linear (word ++ " " ++ axis))

def autofit : Reading (Option (Statement α)) := do
  return some (.setAutofit (!(← off)))

def switch (name : Switch) (word : String) : Reading (Option (Statement α)) := do
  return some (.setSwitch name (!(← off)) word)

def gridMajor (word : String) : Reading (Option (Statement α)) := do
  return (← whole α word (.between 0 16)).map .setGridMajor

/-- A drift of the camera. -/
def track (word : String) : Reading (Option (Statement α)) := do
  let (speeds, source) ← numbers (speedBounds : Bounds α) 2 word
  match speeds with
  | some [dx, dy] => return some (.setTrack (.uniform .drift dx dy 0) source)
  | _ => return none

/-- A drift over a loop of some generations. -/
def trackLoop (word : String) : Reading (Option (Statement α)) := do
  match ← whole α word (.atLeast 1) with
  | none => return none
  | some period =>
      let (speeds, source) ← numbers (speedBounds : Bounds α) 2 (word ++ " " ++ toString period)
      match speeds with
      | some [dx, dy] => return some (.setTrack (.uniform .loop dx dy period) source)
      | _ => return none

/-- The speeds of the four edges of a box, whose opposite edges may not cross. -/
def trackBox (word : String) : Reading (Option (Statement α)) := do
  let (speeds, source) ← numbers (speedBounds : Bounds α) 4 word
  match speeds with
  | some [east, south, west, north] =>
      if east < west then
        refuse (word ++ " W " ++ fixedText 2 west ++ " E " ++ fixedText 2 east) .westAboveEast
      else if south < north then
        refuse (word ++ " N " ++ fixedText 2 north ++ " S " ++ fixedText 2 south) .northAboveSouth
      else return some (.setTrack ⟨.box, east, south, west, north, 0⟩ source)
  | _ => return none

end Showreel.Script.Read
