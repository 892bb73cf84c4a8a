import Showreel.Waypoint.Basic

/-!
Contract: keyframes, the waypoints and points of interest with every field settled.

Owns:
- the keyframe record, access by field and switch, and its defaults;
- where each value of a keyframe came from;
- a keyframe of the live view, and a camera placed at a keyframe.

Does not own: how waypoints are settled.
-/

namespace Showreel

open Number Waypoint

/-- Where the values of a keyframe came from. -/
structure Provenance where
  field : Field → Origin
  switch : Switch → Origin

/-- A settled waypoint or point of interest, or a position between two of them. The target
time is in milliseconds from the start of playback. Only a position can lose its zoom. -/
structure Keyframe (α : Type) where
  x : α
  y : α
  zoom : α
  zoomLost : Bool := false
  angle : Angle α
  tilt : α
  layers : Int
  depth : α
  theme : Int
  gps : α
  step : Int
  stop : Int
  loop : Int
  xLinear : Bool
  yLinear : Bool
  zoomLinear : Bool
  grid : Bool
  stars : Bool
  message : String
  targetGeneration : Int
  targetTime : α
  autofit : Bool
  interval : Bool
  isPoi : Bool
  action : Action
  resets : Bool
  speed : Int
  startGeneration : Int
  provenance : Provenance

namespace Keyframe

variable {α : Type}

/-- The zoom; `none` where it has no real value. -/
def zoom? (keyframe : Keyframe α) : Option α :=
  if keyframe.zoomLost then none else some keyframe.zoom

/-- The value of a field. -/
def get (keyframe : Keyframe α) : (field : Field) → field.Value α
  | .x => keyframe.x
  | .y => keyframe.y
  | .zoom => keyframe.zoom
  | .angle => keyframe.angle
  | .tilt => keyframe.tilt
  | .layers => keyframe.layers
  | .depth => keyframe.depth
  | .theme => keyframe.theme
  | .gps => keyframe.gps
  | .step => keyframe.step
  | .loop => keyframe.loop
  | .stop => keyframe.stop

def getSwitch (keyframe : Keyframe α) : Switch → Bool
  | .xLinear => keyframe.xLinear
  | .yLinear => keyframe.yLinear
  | .zoomLinear => keyframe.zoomLinear
  | .grid => keyframe.grid
  | .stars => keyframe.stars

/-- The number of frames that travelling to a point of interest takes unless it says. -/
def standardSpeed : Int := 12

variable [Scalar α]

/-- The keyframe of a camera and a pace, everything else at its default. -/
def ofCamera (camera : Camera α) (gps : α) (step : Int) : Keyframe α where
  x := camera.x
  y := camera.y
  zoom := camera.zoom
  zoomLost := camera.zoomLost
  angle := camera.angle
  tilt := camera.tilt
  layers := camera.layers
  depth := camera.depth
  theme := camera.theme
  gps := gps
  step := step
  stop := -1
  loop := -1
  xLinear := false
  yLinear := false
  zoomLinear := false
  grid := false
  stars := false
  message := ""
  targetGeneration := 0
  targetTime := 0
  autofit := false
  interval := false
  isPoi := false
  action := .none
  resets := false
  speed := standardSpeed
  startGeneration := -1
  provenance := ⟨fun _ => .live, fun _ => .live⟩

/-- A keyframe with every field at its default. -/
def standard : Keyframe α :=
  ofCamera .standard 60 1

/-- The camera at a keyframe. -/
def camera (keyframe : Keyframe α) : Camera α where
  x := keyframe.x
  y := keyframe.y
  zoom := keyframe.zoom
  zoomLost := keyframe.zoomLost
  angle := keyframe.angle
  tilt := keyframe.tilt
  layers := keyframe.layers
  depth := keyframe.depth
  theme := keyframe.theme

end Keyframe

/-- A chain of keyframes, which is never empty. -/
structure Chain (α : Type) where
  first : Keyframe α
  later : List (Keyframe α)

namespace Chain

variable {α : Type}

def toList (chain : Chain α) : List (Keyframe α) :=
  chain.first :: chain.later

def length (chain : Chain α) : Nat :=
  chain.later.length + 1

/-- The index of the last keyframe. -/
def lastIndex (chain : Chain α) : Nat :=
  chain.later.length

/-- The keyframe at an index; an index beyond the chain gives the first. -/
def get (chain : Chain α) (index : Nat) : Keyframe α :=
  chain.toList.getD index chain.first

def last (chain : Chain α) : Keyframe α :=
  chain.get chain.lastIndex

theorem get_eq_getElem {chain : Chain α} {index : Nat} (within : index < chain.toList.length) :
    chain.get index = chain.toList[index] := by
  rw [get, List.getD_eq_getElem?_getD, List.getElem?_eq_getElem within, Option.getD_some]

theorem get_mem (chain : Chain α) (index : Nat) : chain.get index ∈ chain.toList := by
  rw [get, List.getD_eq_getElem?_getD]
  cases found : chain.toList[index]? with
  | none => exact List.mem_cons_self
  | some keyframe => exact List.mem_of_getElem? found

end Chain

end Showreel
