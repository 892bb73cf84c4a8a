import Showreel.Waypoint.Motion

/-!
Contract: the walk along a chain of keyframes during playback.

Owns:
- the scan, which moves on one keyframe at a time and leaves none out;
- the fitted views that replace keyframes when they are reached;
- the blend from a view under the user's hand back to the scripted one;
- the end of the chain.

Does not own: the clock.
-/

namespace Showreel.Waypoint

open Number Scalar

/-- Two keyframes between which a blend runs. -/
structure Blend (α : Type) where
  start : Keyframe α
  finish : Keyframe α

/-- The state of a walk. `processed` holds the keyframes that have been the current
destination; `blend` is the last blend begun, in force while `blending` is set. -/
structure Cursor (α : Type) where
  chain : Chain α
  index : Nat
  processed : List Nat
  lastReached : Bool
  blending : Bool
  blend : Option (Blend α)
  /-- Keyframes with a fitted view, by their index. -/
  fitted : List (Nat × Keyframe α)

namespace Cursor

variable {α : Type}

/-- A walk at the start of a chain. -/
def ofChain (chain : Chain α) : Cursor α :=
  ⟨chain, 0, [], false, false, none, []⟩

/-- The keyframe at an index, with its fitted view if it has one. -/
def keyframe (cursor : Cursor α) (index : Nat) : Keyframe α :=
  (cursor.fitted.lookup index).getD (cursor.chain.get index)

/-- The blend in force. -/
def activeBlend (cursor : Cursor α) : Option (Blend α) :=
  if cursor.blending then cursor.blend else none

/-- Forget everything that playback has passed. -/
def restart (cursor : Cursor α) : Cursor α :=
  { cursor with
    index := 0, processed := [], lastReached := false, blending := false, fitted := [] }

variable [Scalar α]

/-- Whether the scan stops at a keyframe: it lies ahead, or it has never been the
destination. -/
def stopsAt (cursor : Cursor α) (elapsed : α) (index : Nat) : Bool :=
  decide (elapsed ≤ (cursor.keyframe index).targetTime) || !cursor.processed.contains index

/-- The first keyframe from the current one on at which the scan stops. -/
def scan (cursor : Cursor α) (elapsed : α) : Option Nat :=
  ((List.range' cursor.index (cursor.chain.length - cursor.index)).find?
    fun index => cursor.stopsAt elapsed index)

/-- The cursor with a destination noted as processed. -/
def note (cursor : Cursor α) (index : Nat) : Cursor α :=
  if cursor.processed.contains index then cursor
  else { cursor with processed := cursor.processed ++ [index] }

/-- The cursor with a keyframe that fits the view replaced by its fitted view. -/
def fit (cursor : Cursor α) (index : Nat) (view : Option (Keyframe α)) : Cursor α :=
  match view with
  | some keyframe =>
      let base := cursor.chain.get index
      if base.autofit then
        let replaced := { base with
          x := keyframe.x, y := keyframe.y, zoom := keyframe.zoom, zoomLost := keyframe.zoomLost }
        { cursor with
          fitted := (index, replaced) :: cursor.fitted.filter fun entry => entry.1 != index }
      else cursor
  | none => cursor

/-- The cursor with a destination noted and fitted. The first keyframe is never fitted. -/
def aim (cursor : Cursor α) (index : Nat) (view : Option (Keyframe α)) : Cursor α :=
  if index = 0 then cursor.note index else (cursor.note index).fit index view

/-- The cursor with its destination for a time noted and fitted, before it moves. A move
that has no answer leaves the cursor like this. -/
def approach (cursor : Cursor α) (elapsed : α) (view : Option (Keyframe α)) : Cursor α :=
  match cursor.activeBlend, cursor.scan elapsed with
  | none, some index => cursor.aim index view
  | _, _ => cursor

variable [Transcendental α]

/-- One move of the walk: the position at a time, and whether playback has ended. It ends
when the scan has run past the last keyframe before and its generation is reached. -/
def update (cursor : Cursor α) (elapsed : α) (generation : Int) (view : Option (Keyframe α)) :
    Except Fault (Cursor α × Keyframe α × Bool) :=
  match cursor.activeBlend with
  | some blend => do
      let position ← Motion.interpolate blend.start blend.finish elapsed
      let done := decide (blend.finish.targetTime ≤ elapsed)
      return ({ cursor with blending := !done }, position, false)
  | none =>
      match cursor.scan elapsed with
      | none =>
          let position := cursor.keyframe cursor.chain.lastIndex
          let ended := decide (position.targetGeneration ≤ generation) && cursor.lastReached
          .ok ({ cursor with index := cursor.chain.lastIndex, lastReached := true },
            position, ended)
      | some 0 => .ok ({ cursor.aim 0 view with index := 0 }, cursor.keyframe 0, false)
      | some (index + 1) => do
          let aimed := cursor.aim (index + 1) view
          let position ← Motion.interpolate (aimed.keyframe index) (aimed.keyframe (index + 1))
            elapsed
          return ({ aimed with index := index + 1 }, position, false)

/-- Whether the walk is at the last keyframe and its time has come. -/
def atLast (cursor : Cursor α) (elapsed : α) : Bool :=
  decide (cursor.chain.lastIndex ≤ cursor.index)
    && decide ((cursor.keyframe cursor.index).targetTime ≤ elapsed)

/-- Forget one keyframe that lies beyond a time. -/
def forget (elapsed : α) (cursor : Cursor α) (index : Nat) : Cursor α :=
  if decide (elapsed < (cursor.keyframe index).targetTime) && cursor.processed.contains index then
    { cursor with index := index, processed := cursor.processed.filter (· != index) }
  else cursor

/-- Forget the keyframes beyond a time, the last one first. -/
def steppedBack (cursor : Cursor α) (elapsed : α) : Cursor α :=
  (List.range cursor.chain.length).reverse.foldl (forget elapsed) cursor

/-- How long a blend takes, in milliseconds. -/
def blendTime : α := 1000

/-- Begin a blend from a view back to the scripted position. It ends where a blend under
way would end, else at the position for now; the result is the new playback time. -/
def beginBlend (cursor : Cursor α) (view : Keyframe α) (generation : Int) (elapsed : α) :
    Except Fault (Cursor α × α) := do
  let (moved, finish, now) ←
    match cursor.activeBlend with
    | some blend => pure (cursor, blend.finish, blend.finish.targetTime)
    | none => do
        let (moved, position, _) ← cursor.update elapsed generation none
        pure (moved, position, elapsed)
  let start := { view with targetGeneration := generation, targetTime := now - blendTime }
  let blend : Blend α := ⟨start, { finish with autofit := false, targetTime := now }⟩
  return ({ moved with blending := true, blend := some blend }, now - blendTime)

end Cursor

end Showreel.Waypoint
