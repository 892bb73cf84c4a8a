import Showreel.Waypoint.Keyframe

/-!
Contract: times and generations along a chain.

Owns:
- the first keyframe at or beyond a generation;
- the playback time at which a generation is reached;
- where to resume playback at a generation.

Does not own: the walk along the chain.
-/

namespace Showreel.Chain

open Number Scalar

variable {α : Type}

/-- The index of the first keyframe at or beyond a generation, else of the last one. -/
def indexNear (chain : Chain α) (generation : Int) : Nat :=
  (chain.toList.findIdx? fun keyframe => decide (generation ≤ keyframe.targetGeneration)).getD
    chain.lastIndex

variable [Scalar α]

/-- Steps per second at a keyframe. -/
def rate (keyframe : Keyframe α) : Except Fault α := do
  return keyframe.gps * (← ofInt keyframe.step)

/-- The milliseconds that a number of generations takes at a rate. -/
def duration (generations : Int) (stepsPerSecond : α) : Except Fault α := do
  let span : α ← ofInt generations
  divide (span * 1000) stepsPerSecond

/-- The playback time at which a generation is reached. -/
def timeOf (chain : Chain α) (generation : Int) : Except Fault α := do
  let index := chain.indexNear generation
  let keyframe := chain.get index
  let stepsPerSecond ← rate keyframe
  if keyframe.targetGeneration < generation then
    return keyframe.targetTime
      + (← duration (generation - keyframe.targetGeneration) stepsPerSecond)
  else if 0 < index then
    let previous := chain.get (index - 1)
    return previous.targetTime
      + (← duration (generation - previous.targetGeneration) stepsPerSecond)
  else duration generation stepsPerSecond

/-- The keyframe and the playback time at which to resume at a generation. -/
def resumeAt (chain : Chain α) (generation : Int) : Except Fault (Nat × α) := do
  let index := chain.indexNear generation
  if index = 0 then return (index, 0)
  else
    let current := chain.get index
    let previous := chain.get (index - 1)
    let span := current.targetGeneration - previous.targetGeneration
    if span = 0 then return (index, 0)
    else
      let passed : α ← ofInt (generation - previous.targetGeneration)
      let whole : α ← ofInt span
      let part ← divide ((current.targetTime - previous.targetTime) * passed) whole
      return (index, part + previous.targetTime)

end Showreel.Chain
