import Showreel.Callout.Shape
import Showreel.Diagnostic
import Showreel.Paste.Schedule
import Showreel.Track
import Showreel.Waypoint.Keyframe

/-!
Contract: the result of reading a script.

Owns: the timeline record and the facts that follow from it.

Does not own: playback.
-/

namespace Showreel

/-- Everything that a script asks for, settled. -/
structure Timeline (α : Type) where
  keyframes : Chain α
  pois : List (Keyframe α)
  pastes : List Paste.Entry
  snippets : List Paste.Snippet
  recipes : List (String × List Int)
  callouts : Callout.Registry α
  diagnostics : List Diagnostic
  title : String
  track : Option (Track α)
  stateColours : List (Int × Colour)
  elementColours : List (String × Colour)
  autostart : Bool
  startFrom : Option Int
  viewOnly : Bool
  noStepBack : Bool
  noReport : Bool
  gridMajor : Int
  maxGridPower : Int
  width : Option Int
  height : Option Int
  /-- The index of the point of interest where playback starts. -/
  defaultPoi : Option Nat
  /-- The number of commands read. -/
  commands : Nat

namespace Timeline

variable {α : Type}

/-- Whether nothing was reported. -/
def isClean (timeline : Timeline α) : Bool :=
  timeline.diagnostics.isEmpty

/-- Whether there is a second keyframe, so that playback follows the chain. -/
def hasWaypoints (timeline : Timeline α) : Bool :=
  !timeline.keyframes.later.isEmpty

/-- Whether the script sets colours of the theme. -/
def hasCustomTheme (timeline : Timeline α) : Bool :=
  !timeline.elementColours.isEmpty

end Timeline

end Showreel
