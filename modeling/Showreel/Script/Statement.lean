import Showreel.Script.Argument
import Showreel.Script.Draft

/-!
Contract: statements, the commands with their arguments read.

Owns: one constructor per thing that a command asks for, with checked arguments.

Does not own: the reading of the arguments, and what a statement does.
-/

namespace Showreel.Script

open Number Paste Waypoint

/-- One further copy of a paste: how far it stands from the copy before, and how many
generations later it is pasted. -/
structure TrainStep where
  distanceX : Int
  distanceY : Int
  delay : Int
deriving DecidableEq, Repr

/-- A command whose arguments have been read. -/
inductive Statement (α : Type) where
  /-- The target generation of a waypoint; a positive one opens a new waypoint. -/
  | generation (target : Int)
  /-- A waypoint that is reached after some seconds. -/
  | pause (seconds : α)
  | openPoi (initial : Bool)
  | poiStart (generation : Int)
  | poiAction (action : Action)
  | poiReset
  | poiSpeed (frames : Int)
  | poiAddLabels
  | copyAll
  | copyField (field : Field)
  /-- A field of the open waypoint. -/
  | setField (field : Field) (value : field.Value α) (source : String)
  /-- Generations per second, with the steps that a pace above the refresh rate takes. -/
  | setPace (steps : Option Int) (gps : α) (source : String)
  /-- A stop or loop generation; outside points of interest it belongs to the first
  waypoint. -/
  | setLimit (stops : Bool) (generation : Int) (source : String)
  | setMotion (switches : List Switch) (linear : Bool) (source : String)
  | setAutofit (fits : Bool)
  | setSwitch (switch : Switch) (isOn : Bool) (source : String)
  | setInterval
  | setGridMajor (count : Int)
  | setTrack (track : Track α) (source : String)
  | defineSnippet (snippet : Snippet) (source : String)
  /-- Cells pasted at a place, and again for each step of a train. -/
  | paste (cells : Pattern.Cells) (x y : Int) (train : List TrainStep) (source : String)
  | defineRecipe (name : String) (gaps : List Int) (source : String)
  | pasteAt (generation : Int) (gaps : List Int)
  | pasteEvery (period start stop : Int)
  | pasteDrift (dx dy : Int)
  | pasteMode (mode : Mode)
  | pasteEvolve (generations : Int)
  /-- A label whose text is the string that follows. -/
  | openLabel (item : Callout.Item α)
  | addArrow (item : Callout.Item α)
  | addPolygon (item : Callout.Item α)
  /-- The style of the callouts of one family that are made from now on. -/
  | setStyle (family : StyleFamily) (style : Callout.Style α)
  | setStateColour (state : Int) (colour : Colour) (source : String)
  | setElementColour (element : String) (colour : Colour) (source : String)
  | openTitle
  | suppress
  | setWidth (width : Int)
  | setHeight (height : Int)
  | setMaxGridPower (power : Int)
  | setAutostart (starts : Bool)
  | setStartFrom (generation : Int)
  | forbidStepBack
  | forbidReport
  | viewOnly

end Showreel.Script
