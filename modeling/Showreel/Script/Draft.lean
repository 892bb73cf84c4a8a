import Showreel.Callout.Shape
import Showreel.Paste.Entry
import Showreel.Script.Command
import Showreel.Track
import Showreel.Waypoint.Basic

/-!
Contract: what a script has said so far.

Owns: the draft record, its start, and the closing of the open waypoint.

Does not own: the tokens that are still to be read, and what was reported.
-/

namespace Showreel.Script

open Number Paste

/-- What a quoted string is for. -/
inductive StringTarget where
  | message
  | title
  | label
deriving DecidableEq, Repr

/-- When and how the next paste is made. -/
structure PasteSettings where
  generation : Int
  gaps : List Int
  /-- The period of a repeating paste, zero for listed generations. -/
  every : Int
  stop : Int
  mode : Mode
  driftX : Int
  driftY : Int
  evolve : Int
deriving DecidableEq, Repr

def PasteSettings.standard : PasteSettings :=
  ⟨0, [], 0, -1, .either, 0, 0, 0⟩

/-- What a script has said so far. `current` is the open waypoint or point of interest. -/
structure Draft (α : Type) where
  waypoints : Array (Waypoint α)
  pois : Array (Waypoint α)
  current : Waypoint α
  hasWaypoints : Bool
  hasPois : Bool
  /-- The index of the point of interest where playback starts. -/
  defaultPoi : Option Nat
  suppression : Waypoint.Suppression
  stringTarget : Option StringTarget
  pendingLabel : Option (Callout.Item α)
  title : String
  maxGridPower : Int
  gridMajor : Int
  width : Option Int
  height : Option Int
  autostart : Bool
  startFrom : Option Int
  viewOnly : Bool
  noStepBack : Bool
  noReport : Bool
  addPoiLabels : Bool
  track : Option (Track α)
  stateColours : List (Int × Colour)
  elementColours : List (String × Colour)
  labelStyle : Callout.Style α
  arrowStyle : Callout.Style α
  polygonStyle : Callout.Style α
  labels : Array (Callout.Item α)
  arrows : Array (Callout.Item α)
  polygons : Array (Callout.Item α)
  snippets : List Snippet
  recipes : List (String × List Int)
  pastes : Array Entry
  pasting : PasteSettings

namespace Draft

variable {α : Type}

/-- The draft of a script that has said nothing. -/
def start [Scalar α] (maxGridPower : Int) : Draft α where
  waypoints := Array.empty
  pois := Array.empty
  current := .blank false
  hasWaypoints := false
  hasPois := false
  defaultPoi := none
  suppression := .none
  stringTarget := none
  pendingLabel := none
  title := ""
  maxGridPower := maxGridPower
  gridMajor := 10
  width := none
  height := none
  autostart := false
  startFrom := none
  viewOnly := false
  noStepBack := false
  noReport := false
  addPoiLabels := false
  track := none
  stateColours := []
  elementColours := []
  labelStyle := .forLabels
  arrowStyle := .forLines
  polygonStyle := .forLines
  labels := Array.empty
  arrows := Array.empty
  polygons := Array.empty
  snippets := []
  recipes := []
  pastes := Array.empty
  pasting := .standard

/-- The side of the largest grid, a power of two that may not be negative. -/
def maxGridSize (draft : Draft α) : Except Fault Int :=
  if draft.maxGridPower < 0 then .error .negativeGridPower
  else .ok (2 ^ draft.maxGridPower.toNat)

/-- Half the side of the largest grid. -/
def halfGrid [Scalar α] (draft : Draft α) : Except Fault α := do
  Scalar.ofQuotient (← draft.maxGridSize) 2

/-- The first waypoint that is closed. -/
def firstClosed (draft : Draft α) : Option (Waypoint α) :=
  draft.waypoints[0]?

def style (draft : Draft α) : StyleFamily → Callout.Style α
  | .label => draft.labelStyle
  | .arrow => draft.arrowStyle
  | .polygon => draft.polygonStyle

def setStyle (draft : Draft α) (family : StyleFamily) (style : Callout.Style α) : Draft α :=
  match family with
  | .label => { draft with labelStyle := style }
  | .arrow => { draft with arrowStyle := style }
  | .polygon => { draft with polygonStyle := style }

/-- Store the open waypoint and open a new one. -/
def close (draft : Draft α) (poi : Bool) : Draft α :=
  let stored :=
    if draft.current.isPoi then { draft with pois := draft.pois.push draft.current }
    else { draft with waypoints := draft.waypoints.push draft.current }
  { stored with current := .blank poi }

/-- Change the first waypoint, closed or open. -/
def updateFirst (draft : Draft α) (first : Waypoint α) : Draft α :=
  if draft.waypoints.isEmpty then { draft with current := first }
  else { draft with waypoints := draft.waypoints.setIfInBounds 0 first }

/-- The first waypoint, closed or open. -/
def first (draft : Draft α) : Waypoint α :=
  draft.firstClosed.getD draft.current

/-- A list of pairs with the value of a key replaced, or added at the end. -/
def assign {κ β : Type} [BEq κ] (key : κ) (value : β) : List (κ × β) → List (κ × β)
  | [] => [(key, value)]
  | (other, current) :: rest =>
      if other == key then (key, value) :: rest else (other, current) :: assign key value rest

/-- The named patterns with one defined or replaced in its place. -/
def assignSnippet (snippet : Snippet) : List Snippet → List Snippet
  | [] => [snippet]
  | other :: rest =>
      if other.name == snippet.name then snippet :: rest
      else other :: assignSnippet snippet rest

end Draft

end Showreel.Script
