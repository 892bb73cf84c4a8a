import Showreel.Waypoint.Keyframe

/-!
Contract: the camera between two keyframes.

Owns:
- cubic curves and the easing curve;
- the mix of two values, which gives the end values back unchanged at the ends;
- the shorter way round between two directions;
- the keyframe at a time between two keyframes.

Does not own: which keyframes are in play.
-/

namespace Showreel.Waypoint.Motion

open Number Scalar

variable {α : Type} [Scalar α]

/-- A cubic curve with four control values. -/
def cubic (t x0 x1 x2 x3 : α) : Except Fault α := do
  let c := 3 * (x1 - x0)
  let b := 3 * (x2 - x1) - c
  let a := x3 - x0 - c - b
  let cube ← powerOf t 3
  let square ← powerOf t 2
  return a * cube + b * square + c * t + x0

/-- The easing curve: slow at both ends. -/
def ease (t : α) : Except Fault α :=
  cubic t 0 0 1 1

/-- The way from one value to another at a progress. -/
def mix (start finish progress : α) : α :=
  if progress ≤ 0 then start
  else if 1 ≤ progress then finish
  else start + progress * (finish - start)

/-- The way from one whole number to another at a progress, dropping the fraction. -/
def mixWhole (start finish : Int) (progress : α) : Except Fault Int :=
  if progress ≤ 0 then .ok start
  else if 1 ≤ progress then .ok finish
  else do
    let span : α ← ofInt (finish - start)
    let origin : α ← ofInt start
    wholePart (origin + progress * span)

/-- A zoom that grows by equal factors in equal parts of the way. Between zooms of opposite
sign it has no real value. -/
def growZoom [Transcendental α] (start finish progress : α) : Except Fault (Option α) := do
  let ratio ← divide finish start
  if isFinite ratio && decide (ratio < 0) then return none
  let factor := Transcendental.realPower ratio progress
  if isFinite ratio && isInfinite factor then throw .overflow
  return some (start * factor)

/-- The zoom on the way between two, of which either may have no real value. -/
def mixZoom [Transcendental α] (start finish : Option α) (progress : α) (linear : Bool) :
    Except Fault (Option α) :=
  if progress ≤ 0 then .ok start
  else if 1 ≤ progress then .ok finish
  else
    match start, finish with
    | some origin, some goal =>
        if linear then .ok (some (mix origin goal progress)) else growZoom origin goal progress
    | some origin, none =>
        if !linear && origin == (0 : α) then .error .divisionByZero else .ok none
    | none, _ => .ok none

/-- A direction turned along the shorter way. -/
def mixAngle (start finish : Angle α) (progress : α) : Angle α :=
  if progress ≤ 0 then start
  else if 1 ≤ progress then finish
  else
    let origin := start.degrees
    let goal := finish.degrees
    if 180 < goal - origin then
      .measured (remainder (origin + 360 + progress * (goal - (origin + 360))) 360)
    else if goal - origin < -180 then
      .measured (remainder (origin + progress * (goal + 360 - origin)) 360)
    else .measured (remainder (origin + progress * (goal - origin)) 360)

/-- The length of one frame in milliseconds, at sixty frames a second. -/
def frameTime : α := 1 / 60 * 1000

/-- Progress is settled to a millionth. -/
def settleProgress (progress : α) : Except Fault α := do
  ofQuotient (← nearest (1000000 * progress)) 1000000

/-- How much of the way from one time to another is done. A way of a single frame is a
jump: it is done at once, as is a way without length. -/
def progressAt (start finish elapsed : α) : Except Fault (α × α) := do
  let origin := if closeTo (finish - start) frameTime then finish else start
  if finish == origin then return (1, 1)
  else
    let linear ← settleProgress ((elapsed - origin) / (finish - origin))
    return (linear, ← ease linear)

/-- The keyframe at a time between two keyframes. -/
def interpolate [Transcendental α] (start finish : Keyframe α) (elapsed : α) :
    Except Fault (Keyframe α) := do
  let now := smaller elapsed finish.targetTime
  let (linear, eased) ← progressAt start.targetTime finish.targetTime now
  let along (isLinear : Bool) : α := if isLinear || finish.autofit then linear else eased
  let zoom ← mixZoom start.zoom? finish.zoom? (along finish.zoomLinear) finish.zoomLinear
  let layers ← mixWhole start.layers finish.layers linear
  let generation ← mixWhole start.targetGeneration finish.targetGeneration linear
  return { finish with
    x := mix start.x finish.x (along finish.xLinear)
    y := mix start.y finish.y (along finish.yLinear)
    zoom := zoom.getD finish.zoom
    zoomLost := zoom.isNone
    angle := mixAngle start.angle finish.angle eased
    tilt := mix start.tilt finish.tilt eased
    layers := layers
    depth := mix start.depth finish.depth linear
    targetGeneration := generation
    targetTime := now }

end Showreel.Waypoint.Motion
