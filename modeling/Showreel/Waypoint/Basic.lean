import Showreel.Diagnostic
import Showreel.Number.Text
import Showreel.Theme
import Showreel.Waypoint.Setting

/-!
Contract: waypoints and points of interest while a script is read.

Owns:
- the waypoint record and access to its settings by field;
- how a value is described when it is overwritten;
- setting a field, copying fields from the first waypoint, and the actions of a point
  of interest, each with what it reports.

Does not own: the resolution of settings that a waypoint leaves open.
-/

namespace Showreel

open Number Waypoint

namespace Waypoint

/-- What arriving at a point of interest does to playback. -/
inductive Action where
  | none
  | play
  | stop
deriving DecidableEq, Repr

def Action.name : Action → String
  | none => "NONE"
  | play => "PLAY"
  | stop => "STOP"

def Action.command : Action → String
  | none => "NONE"
  | play => "POIPLAY"
  | stop => "POISTOP"

/-- A setting that may have been copied before its value was there. -/
abbrev Open (β : Type) := Option (Setting (Option β))

end Waypoint

/-- A keyframe or point of interest under construction. -/
structure Waypoint (α : Type) where
  x : Open α
  y : Open α
  zoom : Open α
  angle : Open (Angle α)
  tilt : Open α
  layers : Open Int
  depth : Open α
  theme : Open Int
  gps : Open α
  step : Open Int
  loop : Open Int
  stop : Open Int
  xLinear : Option (Setting Bool)
  yLinear : Option (Setting Bool)
  zoomLinear : Option (Setting Bool)
  grid : Option (Setting Bool)
  stars : Option (Setting Bool)
  message : Option (Setting String)
  targetGeneration : Option (Setting Int)
  pauseSeconds : Option (Setting α)
  autofit : Bool
  interval : Bool
  isPoi : Bool
  action : Action
  resets : Bool
  speed : Option (Setting Int)
  /-- The generation to compute on arrival, or minus one. -/
  startGeneration : Int
deriving Repr

namespace Waypoint

variable {α : Type}

/-- A waypoint without any setting. -/
def blank (isPoi : Bool) : Waypoint α where
  x := .none
  y := .none
  zoom := .none
  angle := .none
  tilt := .none
  layers := .none
  depth := .none
  theme := .none
  gps := .none
  step := .none
  loop := .none
  stop := .none
  xLinear := .none
  yLinear := .none
  zoomLinear := .none
  grid := .none
  stars := .none
  message := .none
  targetGeneration := .none
  pauseSeconds := .none
  autofit := false
  interval := false
  isPoi := isPoi
  action := .none
  resets := false
  speed := .none
  startGeneration := -1

/-- The setting of a field. -/
def get (waypoint : Waypoint α) : (field : Field) → Open (field.Value α)
  | .x => waypoint.x
  | .y => waypoint.y
  | .zoom => waypoint.zoom
  | .angle => waypoint.angle
  | .tilt => waypoint.tilt
  | .layers => waypoint.layers
  | .depth => waypoint.depth
  | .theme => waypoint.theme
  | .gps => waypoint.gps
  | .step => waypoint.step
  | .loop => waypoint.loop
  | .stop => waypoint.stop

/-- The waypoint with the setting of a field replaced. -/
def put (waypoint : Waypoint α) : (field : Field) → Open (field.Value α) → Waypoint α
  | .x, setting => { waypoint with x := setting }
  | .y, setting => { waypoint with y := setting }
  | .zoom, setting => { waypoint with zoom := setting }
  | .angle, setting => { waypoint with angle := setting }
  | .tilt, setting => { waypoint with tilt := setting }
  | .layers, setting => { waypoint with layers := setting }
  | .depth, setting => { waypoint with depth := setting }
  | .theme, setting => { waypoint with theme := setting }
  | .gps, setting => { waypoint with gps := setting }
  | .step, setting => { waypoint with step := setting }
  | .loop, setting => { waypoint with loop := setting }
  | .stop, setting => { waypoint with stop := setting }

def getSwitch (waypoint : Waypoint α) : Switch → Option (Setting Bool)
  | .xLinear => waypoint.xLinear
  | .yLinear => waypoint.yLinear
  | .zoomLinear => waypoint.zoomLinear
  | .grid => waypoint.grid
  | .stars => waypoint.stars

def putSwitch (waypoint : Waypoint α) (switch : Switch) (setting : Option (Setting Bool)) :
    Waypoint α :=
  match switch with
  | .xLinear => { waypoint with xLinear := setting }
  | .yLinear => { waypoint with yLinear := setting }
  | .zoomLinear => { waypoint with zoomLinear := setting }
  | .grid => { waypoint with grid := setting }
  | .stars => { waypoint with stars := setting }

@[simp]
theorem get_put_self (waypoint : Waypoint α) (field : Field) (setting : Open (field.Value α)) :
    (waypoint.put field setting).get field = setting := by
  cases field <;> rfl

theorem get_put_of_ne (waypoint : Waypoint α) {field other : Field}
    (setting : Open (field.Value α)) (distinct : other ≠ field) :
    (waypoint.put field setting).get other = waypoint.get other := by
  cases field <;> cases other <;> first | rfl | exact absurd rfl distinct

@[simp]
theorem put_isPoi (waypoint : Waypoint α) (field : Field) (setting : Open (field.Value α)) :
    (waypoint.put field setting).isPoi = waypoint.isPoi := by
  cases field <;> rfl

@[simp]
theorem put_targetGeneration (waypoint : Waypoint α) (field : Field)
    (setting : Open (field.Value α)) :
    (waypoint.put field setting).targetGeneration = waypoint.targetGeneration := by
  cases field <;> rfl

@[simp]
theorem put_autofit (waypoint : Waypoint α) (field : Field) (setting : Open (field.Value α)) :
    (waypoint.put field setting).autofit = waypoint.autofit := by
  cases field <;> rfl

/-- Whether the waypoint moves the camera itself. -/
def controlsCamera (waypoint : Waypoint α) : Bool :=
  waypoint.autofit || waypoint.x.isSome || waypoint.y.isSome || waypoint.zoom.isSome
    || waypoint.angle.isSome || waypoint.tilt.isSome

variable [Scalar α]

/-- A zoom as it would be written: a negative number is the reciprocal of a zoom below
one. -/
def describeZoom (zoom : α) : Except Fault String :=
  if zoom < 1 then (Scalar.divide 1 zoom).map fun inverse => Scalar.plainText (-inverse)
  else .ok (Scalar.plainText zoom)

/-- A generation as it would be written: minus one is off. -/
def describeGeneration (α : Type) [Scalar α] (generation : Int) : Except Fault String :=
  if generation = -1 then .ok "OFF" else Scalar.wholeText α generation

def describeAngle : Angle α → Except Fault String
  | .whole count => Scalar.wholeText α count
  | .measured degrees => .ok (Scalar.plainText degrees)

/-- The value of a field as it would be written. -/
def describe : (field : Field) → field.Value α → Except Fault String
  | .zoom, zoom => @describeZoom α _ zoom
  | .angle, angle => @describeAngle α _ angle
  | .theme, theme => .ok (Theme.nameOf theme)
  | .loop, generation | .stop, generation => describeGeneration α generation
  | .layers, count | .step, count => Scalar.wholeText α count
  | .x, value | .y, value | .tilt, value | .depth, value | .gps, value =>
      .ok (@Scalar.plainText α _ value)

/-- The value of a setting, which must be there. -/
def settled {β : Type} (setting : Setting (Option β)) : Except Fault β :=
  match setting.value with
  | some value => .ok value
  | .none => .error .unsetSetting

/-- The notice that a setting replaces another one. -/
def overwriteNotice (field : Field) (current : Setting (Option (field.Value α)))
    (source : String) : Except Fault Diagnostic := do
  let previous ← @describe α _ field (← settled current)
  return ⟨source, .overwrites previous⟩

/-- The result of changing a waypoint: the waypoint and what is reported. -/
structure Change (α : Type) where
  waypoint : Waypoint α
  reported : List Diagnostic

/-- Assign a value that a script gives. A value set before is reported as overwritten, unless
it was copied from the first waypoint or the notice is suppressed. -/
def setField (waypoint : Waypoint α) (field : Field) (value : Option (field.Value α))
    (source : String) (suppression : Suppression) : Except Fault (Change α × Suppression) := do
  let assigned := waypoint.put field (some ⟨value, source, .script⟩)
  match waypoint.get field with
  | .none => return (⟨assigned, []⟩, suppression)
  | some current =>
      if current.origin = .initial then return (⟨assigned, []⟩, suppression)
      else
        let (silenced, left) := suppression.consume (.field field)
        if silenced then return (⟨assigned, []⟩, left)
        else
          let notice ← overwriteNotice field current source
          return (⟨assigned, [notice]⟩, left)

/-- The text of a copy of a field from the first waypoint. -/
def initialSource (word : String) : String :=
  word ++ " INITIAL"

/-- What is reported when a copied field already has a setting. -/
def copyNotice (field : Field) (source : String) :
    Open (field.Value α) → Except Fault (List Diagnostic)
  | .none => .ok []
  | some current =>
      if current.origin = .initial then .ok [⟨source, .alreadyDefined⟩]
      else (overwriteNotice field current source).map fun notice => [notice]

/-- Copy one field from the first waypoint. The first waypoint may leave the field open;
the copy then stands for the value that is resolved for it later. -/
def copyField (waypoint first : Waypoint α) (field : Field) : Except Fault (Change α) := do
  let source := initialSource field.word
  let reported ← copyNotice field source (waypoint.get field)
  let value := (first.get field).bind Setting.value
  return ⟨waypoint.put field (some ⟨value, source, .initial⟩), reported⟩

/-- Copy the field that a word names from the first waypoint, if there is one. -/
def copyInitial (waypoint : Waypoint α) (word : String) (first : Option (Waypoint α)) :
    Except Fault (Change α) :=
  match first with
  | .none => .ok ⟨waypoint, [⟨initialSource word, .noInitialWaypoint⟩]⟩
  | some origin =>
      match Field.ofWord? word with
      | .none => .ok ⟨waypoint, [⟨initialSource word, .notCopyable⟩]⟩
      | some field => waypoint.copyField origin field

/-- Copy several fields in order. -/
def copyFields (first : Option (Waypoint α)) :
    List Field → Waypoint α → Except Fault (Change α)
  | [], waypoint => .ok ⟨waypoint, []⟩
  | field :: rest, waypoint => do
      let change ← waypoint.copyInitial field.word first
      let final ← copyFields first rest change.waypoint
      return ⟨final.waypoint, change.reported ++ final.reported⟩

/-- Copy every field from the first waypoint. -/
def copyAllInitial (waypoint : Waypoint α) (first : Option (Waypoint α)) :
    Except Fault (Change α) :=
  copyFields first Field.all waypoint

/-- Set what arriving does to playback. -/
def setAction (waypoint : Waypoint α) (action : Action) : Change α :=
  if waypoint.isPoi then
    { waypoint := { waypoint with action := action }
      reported :=
        if waypoint.action = .none then []
        else [⟨action.command, .overwrites waypoint.action.name⟩] }
  else ⟨waypoint, [⟨action.command, .actionOutsidePoi⟩]⟩

/-- Make arriving return to generation zero. -/
def setResets (waypoint : Waypoint α) : Change α :=
  if waypoint.isPoi then
    { waypoint := { waypoint with resets := true }
      reported := if waypoint.resets then [⟨"POIRESET", .alreadyDefined⟩] else [] }
  else ⟨waypoint, [⟨"POIRESET", .actionOutsidePoi⟩]⟩

/-- Set the number of frames that travelling takes. -/
def setSpeed (waypoint : Waypoint α) (speed : Int) : Change α :=
  if waypoint.isPoi then
    let source := "POITRANS " ++ toString speed
    { waypoint := { waypoint with speed := some (.written speed source) }
      reported :=
        match waypoint.speed with
        | .none => []
        | some current => [⟨source, .overwrites (toString current.value)⟩] }
  else ⟨waypoint, [⟨"POITRANS", .actionOutsidePoi⟩]⟩

/-- Several parts of a sentence, the last one joined by a conjunction. -/
def listed : List String → String
  | [] => ""
  | [part] => part
  | parts => ", ".intercalate parts.dropLast ++ " and " ++ parts.getLastD ""

/-- A setting that a fitted view replaces, as it would be written. -/
def fittedPart (waypoint : Waypoint α) (field : Field) : Except Fault (List String) :=
  match waypoint.get field with
  | .none => .ok []
  | some setting => do
      let text ← @describe α _ field (← settled setting)
      return [field.word ++ " " ++ text]

/-- The fields of a position, in the order in which a fitted view replaces them. -/
def placeFields : List Field :=
  [.x, .y, .zoom]

/-- The position settings that a fitted view replaces, as they would be written. -/
def fittedParts (waypoint : Waypoint α) : Except Fault (List String) :=
  (placeFields.mapM waypoint.fittedPart).map List.flatten

/-- Report the waypoints that fit the view and set its position as well. -/
def checkAutofit (waypoints : List (Waypoint α)) : Except Fault (List Diagnostic) := do
  let reports ← waypoints.mapM fun waypoint => do
    if waypoint.autofit then
      let parts ← waypoint.fittedParts
      return if parts.isEmpty then [] else [⟨"AUTOFIT", .overwrites (listed parts)⟩]
    else return []
  return reports.flatten

end Waypoint

end Showreel
