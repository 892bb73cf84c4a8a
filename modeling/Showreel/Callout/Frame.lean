import Showreel.Callout.Shape
import Showreel.Camera

/-!
Contract: a callout at one generation under one camera.

Owns:
- the fades over time, zoom and distance;
- the drift and the pull toward a target;
- the direction, the size and the text that are shown.

Does not own: rendering.
-/

namespace Showreel.Callout

open Number Scalar

variable {α : Type} [Scalar α]

/-- Visibility over the generations: one inside the window, with straight ramps at both
ends. -/
def timeAlpha (style : Style α) (generation : Int) : Except Fault α :=
  if style.always then .ok 1
  else if generation < style.opens ∨ style.closes < generation then .ok 0
  else if style.fade ≤ 0 then .ok 1
  else do
    let rise : α ← ofQuotient (generation - style.opens) style.fade
    let fall : α ← ofQuotient (style.closes - generation) style.fade
    return larger 0 (smaller (smaller 1 rise) fall)

/-- The logarithm of a positive number. -/
def logarithmOf [Transcendental α] (value : α) : Except Fault α :=
  if value ≤ 0 then .error .logarithmDomain else .ok (Transcendental.logarithm value)

/-- Visibility over the zooms: fading over the lowest and the highest quarter of the range,
in the logarithm of the zoom. -/
def zoomAlpha [Transcendental α] (style : Style α) (itemZoom cameraZoom : α) :
    Except Fault α := do
  let (low, high) := style.zoomRange itemZoom
  if cameraZoom < low ∨ high < cameraZoom then return 0
  else if high ≤ low then return 1
  else
    let above ← logarithmOf (← divide cameraZoom low)
    let whole ← logarithmOf (← divide high low)
    let part ← divide above whole
    if part ≤ 0.25 then return part * 4
    else if 0.75 ≤ part then return (1 - part) * 4
    else return 1

/-- Visibility over the distance from the camera: fading over the last quarter of the view
distance. -/
def distanceAlpha [Transcendental α] (style : Style α) (anchor : Point α) (camera : Camera α) :
    Except Fault α :=
  if style.viewDistance < 0 then .ok 1
  else
    let distance := Transcendental.hypotenuse (anchor.x - camera.x) (anchor.y - camera.y)
    if style.viewDistance < distance then .ok 0
    else if 0 < style.viewDistance then
      let ratio := distance / style.viewDistance
      if 0.75 < ratio then .ok (4 * (1 - ratio)) else .ok 1
    else .ok 1

/-- The direction of a step in degrees from zero up to a full turn. -/
def bearing [Transcendental α] (dx dy : α) : α :=
  remainder (Transcendental.direction dy dx) 360

/-- Every variable mark followed by a letter in a text replaced by a value. -/
def replaceVariable (letter : Char) (value : List Char) : List Char → List Char
  | '#' :: char :: rest =>
      if char = letter then value ++ replaceVariable letter value rest
      else '#' :: replaceVariable letter value (char :: rest)
  | char :: rest => char :: replaceVariable letter value rest
  | [] => []

/-- The text of a label with the generation and then the population in place of their
variables. -/
def shownText (text : String) (generation population : Int) : String :=
  let withGeneration := replaceVariable 'G' (toString generation).toList text.toList
  String.ofList (replaceVariable 'P' (toString population).toList withGeneration)

/-- How far a callout has moved at a generation: its drift, and the pull back to its
standoff from the target. -/
def displacement [Transcendental α] (style : Style α) (anchor : Point α) (generation : Int) :
    Except Fault (Point α) := do
  let elapsed : α ← ofInt (if style.opens = -1 then generation else generation - style.opens)
  let shift : Point α := ⟨style.driftX * elapsed, style.driftY * elapsed⟩
  let moved : Point α := ⟨anchor.x + shift.x, anchor.y + shift.y⟩
  match style.target with
  | none => return shift
  | some target =>
      if 0 < style.standoff then
        let distance := Transcendental.hypotenuse (moved.x - target.x) (moved.y - target.y)
        if style.standoff < distance then
          let scale := style.standoff / distance
          let clampedX := target.x + (moved.x - target.x) * scale
          let clampedY := target.y + (moved.y - target.y) * scale
          return ⟨shift.x + (clampedX - moved.x), shift.y + (clampedY - moved.y)⟩
        else return shift
      else return shift

/-- The direction in which a callout is drawn: its own when fixed, else toward its target,
else along its drift. -/
def shownAngle [Transcendental α] (style : Style α) (anchor : Point α) : α :=
  if style.angleFixed then style.angle
  else
    match style.target with
    | some target => bearing (target.x - anchor.x) (target.y - anchor.y)
    | none =>
        if style.driftX != 0 || style.driftY != 0 then bearing style.driftX style.driftY
        else style.angle

/-- A callout as it appears in one frame. -/
structure Frame (α : Type) where
  kind : String
  visible : Bool
  alpha : α
  points : List (Point α)
  angle : α
  size : α
  text : String
deriving Repr

/-- A callout at a generation under a camera. -/
def Item.frame [Transcendental α] (item : Item α) (generation population : Int)
    (camera : Camera α) : Except Fault (Frame α) := do
  let style := item.style
  let (corner, others) := item.shape.points
  let shift : Option (Point α) ←
    if item.fixed then pure none else (displacement style corner generation).map some
  let move (point : Point α) : Point α :=
    match shift with
    | some step => ⟨point.x + step.x, point.y + step.y⟩
    | none => point
  let anchor := move corner
  let time ← timeAlpha style generation
  let cameraZoom ← camera.realZoom
  let zoom ← zoomAlpha style item.zoom cameraZoom
  let distance ← distanceAlpha style anchor camera
  let alpha := style.alpha * time * zoom * distance
  let size ←
    if style.sizeFixed then pure style.size else divide (style.size * cameraZoom) item.zoom
  return {
    kind := item.shape.kind
    visible := decide (0 < alpha)
    alpha := alpha
    points := anchor :: others.map move
    angle := shownAngle style anchor
    size := size
    text :=
      match item.shape with
      | .label _ text => shownText text generation population
      | _ => "" }

/-- All callouts of a frame in drawing order. -/
def Registry.frames [Transcendental α] (registry : Registry α) (generation population : Int)
    (camera : Camera α) : Except Fault (List (Frame α)) :=
  registry.items.mapM fun item => item.frame generation population camera

end Showreel.Callout
