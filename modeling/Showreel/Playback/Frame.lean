import Showreel.Callout.Frame
import Showreel.Playback.Stepping

/-!
Contract: one frame of playback, and the host's hand on it.

Owns:
- the drivers of the camera: a journey, the chain of keyframes, the fitting of the view
  and the track;
- arrival at a point of interest;
- the frame, from the passing of its time to what it shows;
- the changes that a host makes: another view, and a journey to a point of interest.

Does not own: the steps of the world. A change that has no answer leaves playback as far
as it had come.
-/

namespace Showreel

open Number Scalar Waypoint

/-- What one frame shows and tells. -/
structure FrameResult (α : Type) where
  generation : Int
  elapsed : α
  camera : Camera α
  steps : StepReport
  callouts : List (Callout.Frame α)
  locked : Bool
  playing : Bool
  ended : Bool
  message : String
  occurrences : Array Occurrence

/-- The events among what happened. -/
def FrameResult.events {α : Type} (result : FrameResult α) : List Event :=
  result.occurrences.toList.filterMap Occurrence.event?

/-- A change of playback that may have no answer. -/
abbrev Player (α : Type) [Scalar α] := ExceptT Fault (StateM (Playback α))

namespace Playback

variable {α : Type} [Scalar α]

/-- A view as its centre and zoom. -/
structure View (α : Type) where
  x : α
  y : α
  zoom : α
deriving Repr

/-- The view in which the living cells just fill a viewport, within the limits of zoom. -/
def fittedView (world : World) (settings : ViewerSettings α) : Except Fault (Option (View α)) :=
  match world.boundingBox with
  | none => .ok none
  | some box => do
      let across : α ← ofQuotient settings.viewportWidth (box.right - box.left + 1)
      let down : α ← ofQuotient settings.viewportHeight (box.bottom - box.top + 1)
      let zoom := larger Camera.leastZoom (smaller Camera.greatestZoom (smaller across down))
      return some {
        x := ← ofQuotient (box.left + box.right + 1) 2
        y := ← ofQuotient (box.top + box.bottom + 1) 2
        zoom := zoom }

/-- The active keyframe in the view that fits the world. -/
def fittedKeyframe (playback : Playback α) : Except Fault (Option (Keyframe α)) := do
  let view ← fittedView playback.world playback.settings
  return view.map fun view =>
    { playback.active with x := view.x, y := view.y, zoom := view.zoom, zoomLost := false }

/-- Stand at a point of interest and do what it asks for. -/
def arrive (playback : Playback α) (poi : Keyframe α) : Playback α :=
  let standing := { playback with
    camera := poi.camera, active := poi, stopFired := false }.note
      (.arrived (playback.poi.elim (-1) Int.ofNat))
  let rewound := if poi.resets then standing.reset else standing
  let acted :=
    match poi.action with
    | .play => rewound.play
    | .stop => rewound.pause
    | .none => rewound
  if 0 ≤ poi.startGeneration then { acted with job := some ⟨poi.startGeneration, false⟩ }
  else acted

/-- The journey from the view of playback to a point of interest, its time as many frames as the
point says. -/
def journeyTo (playback : Playback α) (place : Nat) : Except Fault (Journey α) :=
  let view := Keyframe.ofCamera playback.camera playback.active.gps playback.active.step
  let poi := poiAt playback.timeline place
  match counted : (ofInt poi.speed : Except Fault α) with
  | .error fault => .error fault
  | .ok frames => .ok {
      start := { view with targetTime := 0 }
      finish := { poi with targetTime := frames }
      poi := place
      frame := 0
      timed := isFinite_of_ofInt counted }

/-- The track's effect on a camera at a generation. -/
def trackedCamera (track : Track α) (settings : ViewerSettings α) (origin : TrackOrigin α)
    (camera : Camera α) (generation : Int) : Except Fault (Camera α) := do
  let (velocityX, velocityY) := track.velocity
  let passed : α ← ofInt generation
  let moved := { camera with
    x := origin.x + velocityX * passed, y := origin.y + velocityY * passed }
  if track.mode = .box then
    let width := origin.width + (track.east - track.west) * passed
    let height := origin.height + (track.south - track.north) * passed
    let across : α ← ofInt settings.viewportWidth
    let down : α ← ofInt settings.viewportHeight
    let fit := smaller (across / larger width 1) (down / larger height 1)
    let zoom := larger Camera.leastZoom (smaller origin.zoom fit)
    return { moved with zoom := zoom, zoomLost := false }
  else return moved

/-- Where a track is measured from: the view and the pattern when it begins. A track that
frames a box needs the zoom. -/
def measureTrack (playback : Playback α) (track : Track α) : Except Fault (TrackOrigin α) := do
  let (width, height) : α × α ←
    match playback.world.boundingBox with
    | none => pure (1, 1)
    | some box => do
        let across : α ← ofInt (box.right - box.left)
        let down : α ← ofInt (box.bottom - box.top)
        pure (across + 1, down + 1)
  let camera := playback.camera
  if camera.zoomLost && track.mode = .box then throw .powerDomain
  return ⟨camera.x, camera.y, camera.zoom, width, height⟩

/-- Whether the script holds the camera. -/
def holdsCamera (playback : Playback α) : Bool :=
  playback.journey.isSome
    || (playback.followsChain && playback.playing && !playback.ended)
    || (playback.timeline.track.isSome && playback.playing)

/-- A camera as the user moves it; the theme stays. -/
def withView (playback : Playback α) (camera : Camera α) : Playback α :=
  { playback with camera := { camera with theme := playback.camera.theme } }

end Playback

namespace Player

variable {α : Type} [Scalar α]

/-- A value that there may not be. -/
def ofExcept {β : Type} (result : Except Fault β) : Player α β :=
  ExceptT.mk (pure result)

/-- Let a frame's time pass. -/
def passTime (delta : α) : Player α Unit :=
  modify fun playback =>
    if playback.playing then { playback with elapsed := playback.elapsed + delta } else playback

variable [Transcendental α]

/-- Go on with a journey by one frame. -/
def travel (journey : Journey α) : Player α Unit := do
  let onward := { journey with frame := journey.frame + 1 }
  modify fun playback => { playback with journey := some onward }
  if journey.endsAt onward.frame then
    modify fun playback =>
      { playback with journey := none }.arrive (Playback.poiAt playback.timeline journey.poi)
  else
    let frame ← ofExcept (ofInt onward.frame)
    let position ← ofExcept (Motion.interpolate journey.start journey.finish frame)
    modify fun playback => { playback with camera := position.camera }

/-- Take the place in the chain that goes with the time. -/
def followChain : Player α Unit := do
  let playback ← get
  let view ← ofExcept playback.fittedKeyframe
  match playback.cursor.update playback.elapsed playback.world.generation view with
  | .error fault =>
      set { playback with cursor := playback.cursor.approach playback.elapsed view }
      throw fault
  | .ok (cursor, position, ended) =>
      let moved := { playback with
        cursor := cursor, camera := position.camera, active := position }
      set (if ended then { moved with ended := true }.note .chainEnded else moved)

/-- Fit the view to the world where the active keyframe asks for it. -/
def fitCamera : Player α Unit := do
  let playback ← get
  if playback.active.autofit then
    if let some view ← ofExcept (Playback.fittedView playback.world playback.settings) then
      set { playback with
        camera := { playback.camera with
          x := view.x, y := view.y, zoom := view.zoom, zoomLost := false } }

/-- Move the camera, and give the message that is shown. -/
def moveCamera : Player α String := do
  let playback ← get
  match playback.journey with
  | some journey =>
      travel journey
      return (← get).active.message
  | none =>
      if playback.followsChain then
        -- in a pause and after the end the camera belongs to the user
        if playback.playing && !playback.ended then followChain
        return (← get).active.message
      else
        fitCamera
        return playback.active.message

/-- Compute the generations of a frame. -/
def runSteps (clock : Nat → α) (delta : α) : Player α StepReport := do
  let playback ← get
  match playback.openJob with
  | some job =>
      let (run, report) := playback.runHistory clock job
      set run
      return report
  | none =>
      if playback.playing then
        let gathered := playback.accumulate delta
        set gathered
        set (← ofExcept gathered.collect)
      let (run, report) := (← get).runPending clock
      set run
      return report

/-- Let the camera drift with the generations. -/
def followTrack (track : Track α) : Player α Unit := do
  let playback ← get
  let origin ←
    match playback.trackOrigin with
    | some origin => pure origin
    | none => ofExcept (playback.measureTrack track)
  set { playback with trackOrigin := some origin }
  let camera ← ofExcept (Playback.trackedCamera track playback.settings origin playback.camera
    playback.world.generation)
  modify fun current => { current with camera := camera }

/-- Hand over what has happened since the last frame. -/
def deliver : Player α (Array Occurrence) := do
  let playback ← get
  set { playback with undelivered := Array.empty }
  return playback.undelivered

/-- One frame: its time passes, the camera moves, the world is stepped, and what it shows is
settled. -/
def tick (clock : Nat → α) (delta : α) : Player α (FrameResult α) := do
  passTime delta
  let message ← moveCamera
  let report ← runSteps clock delta
  let stepped ← get
  if let some track := stepped.timeline.track then
    if !stepped.followsChain then followTrack track
  modify fun playback => { playback with locked := playback.holdsCamera }
  let playback ← get
  let callouts ← ofExcept (playback.timeline.callouts.frames playback.world.generation
    playback.world.population playback.camera)
  let occurrences ← deliver
  return {
    generation := playback.world.generation
    elapsed := playback.elapsed
    camera := playback.camera
    steps := report
    callouts := callouts
    locked := playback.locked
    playing := playback.playing
    ended := playback.ended
    message := message
    occurrences := occurrences }

/-- Take a view that the user chose. Where the chain of keyframes holds the camera, a blend
leads back to it. -/
def moveByHand (camera : Camera α) : Player α Unit := do
  let playback ← get
  if playback.locked && playback.journey.isNone && playback.followsChain then
    let view := Keyframe.ofCamera camera playback.active.gps playback.active.step
    match playback.cursor.beginBlend view playback.world.generation playback.elapsed with
    | .error fault =>
        set { playback with cursor := playback.cursor.approach playback.elapsed none }
        throw fault
    | .ok (cursor, elapsed) =>
        set ({ playback with cursor := cursor, elapsed := elapsed }.note .blendBegan)
  else set (playback.withView camera)

/-- Set out for a point of interest; one with speed zero is reached at once. -/
def goTo (index : Int) : Player α Unit := do
  let playback ← get
  let count := playback.timeline.pois.length
  if index < 0 ∨ (count : Int) ≤ index then throw (.poiOutOfRange index count)
  let place := index.toNat
  let poi := Playback.poiAt playback.timeline place
  let headed := { playback with poi := some place }
  set headed
  if poi.speed = 0 then set (headed.arrive poi)
  else
    let journey ← ofExcept (headed.journeyTo place)
    set { headed with journey := some journey }

end Player

end Showreel
