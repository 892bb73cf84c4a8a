import Showreel.Number.Scalar

/-!
Contract: the view that scripts drive.

Owns: directions in degrees, and the camera.

Does not own: how a camera moves.
-/

namespace Showreel

open Number

/-- A direction in degrees. Scripts set whole degrees; a camera in motion or under the
hand of a user has any value. -/
inductive Angle (α : Type) where
  | whole (degrees : Int)
  | measured (degrees : α)
deriving Repr

/-- The degrees of a direction as a scalar. -/
def Angle.degrees {α : Type} [Scalar α] : Angle α → α
  | .whole count => Scalar.ofRat (count : Rat)
  | .measured value => value

/-- The view state; `x` and `y` are the cell at the centre of the view. Half way between
zooms of opposite sign there is no real zoom: then `zoomLost` is set, `zoom` means nothing,
and whatever needs the zoom has no answer. -/
structure Camera (α : Type) where
  x : α
  y : α
  zoom : α
  zoomLost : Bool := false
  angle : Angle α
  tilt : α
  layers : Int
  depth : α
  theme : Int
deriving Repr

/-- The zoom, if it has a real value. -/
def Camera.realZoom {α : Type} (camera : Camera α) : Except Fault α :=
  if camera.zoomLost then .error .powerDomain else .ok camera.zoom

/-- The limits between which views are zoomed to fit. -/
def Camera.leastZoom {α : Type} [Scalar α] : α := 0.0625

def Camera.greatestZoom {α : Type} [Scalar α] : α := 64

/-- The view before any script has moved it. -/
def Camera.standard {α : Type} [Scalar α] : Camera α where
  x := 0
  y := 0
  zoom := 1
  angle := .measured 0
  tilt := 1
  layers := 1
  depth := 0.1
  theme := 1

end Showreel
