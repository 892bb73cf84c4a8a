import Showreel.Waypoint.Keyframe

/-!
Contract: settling waypoints into keyframes.

Owns:
- the value of each field: set, copied from the first waypoint, or taken over from a
  base keyframe;
- the pace, where a step count pins the generations per second to the refresh rate;
- the chain of keyframes with their target times, and the points of interest.

Does not own: motion between keyframes.
-/

namespace Showreel

open Number Waypoint

variable {α : Type}

namespace Waypoint

/-- The value of one setting and its origin. An open setting takes the base value. A copy
takes the value of the first keyframe if there is one, else its own value, and the base
value if it has none. -/
def settle {β : Type} (setting : Open β) (base : β) (initial : Option β) : β × Origin :=
  match setting with
  | .none => (base, .inherited)
  | some given =>
      match decide (given.origin = .initial), initial with
      | true, some value => (value, .initial)
      | _, _ =>
          match given.value with
          | .none => (base, .initial)
          | some value => (value, given.origin)

/-- The value of one switch and its origin. -/
def settleSwitch (setting : Option (Setting Bool)) (base : Bool) : Bool × Origin :=
  match setting with
  | .none => (base, .inherited)
  | some given => (given.value, given.origin)

variable [Scalar α]

/-- The keyframe of a waypoint, open fields taken from a base keyframe. Its generation and
time are left at zero. `pinned` is the refresh rate that goes with a step count. -/
def resolve (waypoint : Waypoint α) (base : Keyframe α) (pinned : α)
    (initial : Option (Keyframe α)) : Keyframe α :=
  let field (name : Field) : name.Value α × Origin :=
    settle (waypoint.get name) (base.get name) (initial.map fun keyframe => keyframe.get name)
  let switch (name : Switch) : Bool × Origin :=
    settleSwitch (waypoint.getSwitch name) (base.getSwitch name)
  { x := (field .x).1
    y := (field .y).1
    zoom := (field .zoom).1
    angle := (field .angle).1
    tilt := (field .tilt).1
    layers := (field .layers).1
    depth := (field .depth).1
    theme := (field .theme).1
    gps := if waypoint.step.isSome then pinned else (field .gps).1
    step := if waypoint.gps.isSome && waypoint.step.isNone then 1 else (field .step).1
    stop := (field .stop).1
    loop := (field .loop).1
    xLinear := (switch .xLinear).1
    yLinear := (switch .yLinear).1
    zoomLinear := (switch .zoomLinear).1
    grid := (switch .grid).1
    stars := (switch .stars).1
    message := waypoint.message.elim "" Setting.value
    targetGeneration := 0
    targetTime := 0
    autofit := waypoint.autofit
    interval := waypoint.interval
    isPoi := waypoint.isPoi
    action := waypoint.action
    resets := waypoint.resets
    speed := waypoint.speed.elim Keyframe.standardSpeed Setting.value
    startGeneration := waypoint.startGeneration
    provenance := ⟨fun name => (field name).2, fun name => (switch name).2⟩ }

/-- The origins of the first keyframe: what its waypoint leaves open comes from the live
view. -/
def liveProvenance (waypoint : Waypoint α) (provenance : Provenance) : Provenance where
  field name := if (waypoint.get name).isNone then .live else provenance.field name
  switch name := if (waypoint.getSwitch name).isNone then .live else provenance.switch name

end Waypoint

namespace Chain

variable [Scalar α]

/-- The time that a number of generations takes at the pace of a keyframe. -/
def travelTime (generations : Int) (pace : Keyframe α) : Except Fault α := do
  let span : α ← Scalar.ofInt generations
  let steps : α ← Scalar.ofInt pace.step
  Scalar.divide (span * 1000) (pace.gps * steps)

/-- The keyframe of a waypoint that follows another keyframe, and what is reported. -/
def link (previous : Keyframe α) (pinned : α) (waypoint : Waypoint α) :
    Except Fault (Keyframe α × List Diagnostic) := do
  let settled := waypoint.resolve previous pinned none
  let generation := waypoint.targetGeneration.elim previous.targetGeneration Setting.value
  let reported : List Diagnostic :=
    if waypoint.targetGeneration.isSome && decide (generation ≤ previous.targetGeneration) then
      [⟨"T " ++ toString generation, .generationNotLater previous.targetGeneration⟩]
    else []
  let time ←
    match waypoint.pauseSeconds with
    | some pause => pure (pause.value * 1000 + previous.targetTime)
    | none => do
        let span ← travelTime (generation - previous.targetGeneration) settled
        pure (previous.targetTime + span)
  return ({ settled with targetGeneration := generation, targetTime := time }, reported)

/-- The keyframes of the waypoints that follow a keyframe. -/
def linkAll (pinned : α) (previous : Keyframe α) :
    List (Waypoint α) → Except Fault (List (Keyframe α) × List Diagnostic)
  | [] => .ok ([], [])
  | waypoint :: rest => do
      let (keyframe, reported) ← link previous pinned waypoint
      let (later, others) ← linkAll pinned keyframe rest
      return (keyframe :: later, reported ++ others)

/-- The first keyframe of a chain: what its waypoint leaves open comes from the live
view. -/
def start (first : Waypoint α) (live : Keyframe α) (pinned : α) : Keyframe α :=
  let settled := first.resolve live pinned none
  { settled with
    targetGeneration := first.targetGeneration.elim 0 Setting.value
    provenance := first.liveProvenance settled.provenance }

/-- A chain of keyframes and the points of interest beside it. -/
structure Resolved (α : Type) where
  chain : Chain α
  pois : List (Keyframe α)
  reported : List Diagnostic

/-- The refresh rate that goes with step counts. Without any it is never converted. -/
def pinnedRate (waypoints : List (Waypoint α)) (refreshRate : Int) : Except Fault α :=
  if waypoints.any fun waypoint => waypoint.step.isSome then Scalar.ofInt refreshRate else .ok 0

/-- Settle waypoints and points of interest. Points of interest take what they leave open,
and what they copy, from the first keyframe. -/
def build (first : Waypoint α) (later pois : List (Waypoint α)) (live : Keyframe α)
    (refreshRate : Int) : Except Fault (Resolved α) := do
  let pinned : α ← pinnedRate (first :: later ++ pois) refreshRate
  let keyframe := start first live pinned
  let (others, reported) ← linkAll pinned keyframe later
  return {
    chain := ⟨keyframe, others⟩
    pois := pois.map fun poi => poi.resolve keyframe pinned (some keyframe)
    reported := reported }

end Chain

end Showreel
