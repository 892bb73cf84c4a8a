import Showreel.Settings
import Showreel.Timeline
import Showreel.Waypoint.Cursor

/-!
Contract: the state of a timeline that plays in a world.

Owns:
- what happens in playback, and the record of what has happened since the last frame;
- the jobs that playback carries: a journey to a point of interest, and the computing
  of history up to a generation;
- the state, its start, and its return to generation zero.

Does not own: the passing of time.
-/

namespace Showreel

open Number Waypoint

/-- What playback tells its host. -/
inductive Event where
  /-- A blend back from a view under the user's hand began. -/
  | blendBegan
  /-- The chain of keyframes came to its end. -/
  | chainEnded
  | historyReached (generation : Int)
  | stopped (generation : Int)
  | looped (generation : Int)
  | arrived (poi : Int)
deriving DecidableEq, Repr

def Event.word : Event → String
  | blendBegan => "temporary"
  | chainEnded => "end"
  | historyReached _ => "history"
  | stopped _ => "stop"
  | looped _ => "loop"
  | arrived _ => "poi"

/-- What happened in playback: an event, or a paste at a place and a generation. -/
inductive Occurrence where
  | told (event : Event)
  | pasted (source : String) (mode : Paste.Mode) (x y generation : Int)
deriving DecidableEq, Repr

def Occurrence.event? : Occurrence → Option Event
  | told event => some event
  | pasted .. => none

/-- A generation up to which the world is run, over as many frames as it takes. -/
structure HistoryJob where
  target : Int
  reached : Bool
deriving DecidableEq, Repr

/-- A journey from a view to a point of interest, its time counted in frames. The time of its end
is finite, so that some frame is the last one. -/
structure Journey (α : Type) [Scalar α] where
  start : Keyframe α
  finish : Keyframe α
  poi : Nat
  frame : Nat
  timed : Scalar.isFinite finish.targetTime = true

/-- Whether a journey is over when this many of its frames are made. -/
def Journey.endsAt {α : Type} [Scalar α] (journey : Journey α) (frame : Nat) : Bool :=
  Scalar.reaches frame journey.finish.targetTime

/-- The view and the extent of the pattern from which a track is measured. -/
structure TrackOrigin (α : Type) where
  x : α
  y : α
  zoom : α
  width : α
  height : α
deriving Repr

/-- Playback of a timeline in a world. `active` is the keyframe whose pace and limits
apply. -/
structure Playback (α : Type) [Scalar α] where
  timeline : Timeline α
  settings : ViewerSettings α
  world : World
  camera : Camera α
  cursor : Cursor α
  /-- Milliseconds of playback. -/
  elapsed : α
  playing : Bool
  locked : Bool
  ended : Bool
  active : Keyframe α
  poi : Option Nat
  journey : Option (Journey α)
  job : Option HistoryJob
  /-- Steps that are due and not yet made. -/
  pending : Int
  /-- The part of a generation that has passed. -/
  accumulated : α
  stopFired : Bool
  trackOrigin : Option (TrackOrigin α)
  /-- What has happened since the last frame, in order. -/
  undelivered : Array Occurrence

namespace Playback

variable {α : Type} [Scalar α]

def note (playback : Playback α) (event : Event) : Playback α :=
  { playback with undelivered := playback.undelivered.push (.told event) }

/-- The pastes of a generation that draw anything, in order. -/
def pastesAt (timeline : Timeline α) (generation : Int) : List Occurrence :=
  (Paste.Schedule.due timeline.pastes generation).filterMap fun entry =>
    if entry.cells.isEmpty then none
    else
      let (x, y) := entry.position generation
      some (.pasted entry.source entry.mode x y generation)

/-- Blend in the pastes of a generation. -/
def applyPastes (playback : Playback α) (generation : Int) : Playback α :=
  { playback with
    world := Paste.Schedule.apply playback.timeline.pastes playback.world generation
    undelivered := playback.undelivered ++ (pastesAt playback.timeline generation).toArray }

/-- Blend in the pastes of generation zero, which become part of it. -/
def applyInitialPastes (playback : Playback α) : Playback α :=
  if playback.world.generation = 0 then
    let pasted := playback.applyPastes 0
    if (Paste.Schedule.due playback.timeline.pastes 0).isEmpty then pasted
    else { pasted with world := pasted.world.markInitial }
  else playback

/-- The point of interest at an index; the first keyframe if there is none. -/
def poiAt (timeline : Timeline α) (index : Nat) : Keyframe α :=
  timeline.pois.getD index timeline.keyframes.first

omit [Scalar α] in
theorem poiAt_mem (timeline : Timeline α) (index : Nat) :
    poiAt timeline index ∈ timeline.keyframes.first :: timeline.pois := by
  rw [poiAt, List.getD_eq_getElem?_getD]
  cases found : timeline.pois[index]? with
  | none => exact List.mem_cons_self
  | some poi => exact List.mem_cons_of_mem _ (List.mem_of_getElem? found)

/-- Stand at the initial point of interest, if there is one. -/
def startAtPoi (playback : Playback α) : Playback α :=
  match playback.timeline.defaultPoi with
  | none => playback
  | some index =>
      let keyframe := poiAt playback.timeline index
      { playback with poi := some index, active := keyframe, camera := keyframe.camera }

/-- The job of computing history that a script starts with. -/
def initialJob (timeline : Timeline α) : Option HistoryJob :=
  timeline.startFrom.bind fun generation =>
    if 0 < generation then some ⟨generation, false⟩ else none

/-- Playback of a timeline in a world, before the first frame. -/
def start (timeline : Timeline α) (world : World) (settings : ViewerSettings α) :
    Playback α :=
  let first := timeline.keyframes.first
  let blank : Playback α := {
    timeline := timeline
    settings := settings
    world := world
    camera := first.camera
    cursor := .ofChain timeline.keyframes
    elapsed := 0
    playing := timeline.autostart && (timeline.isClean || !settings.stopOnErrors)
    locked := false
    ended := false
    active := first
    poi := none
    journey := none
    job := initialJob timeline
    pending := 0
    accumulated := 0
    stopFired := false
    trackOrigin := none
    undelivered := Array.empty }
  blank.applyInitialPastes.startAtPoi

def play (playback : Playback α) : Playback α :=
  { playback with playing := true }

def pause (playback : Playback α) : Playback α :=
  { playback with playing := false }

/-- Whether the camera follows the chain of keyframes. -/
def followsChain (playback : Playback α) : Bool :=
  playback.timeline.hasWaypoints

/-- Return to generation zero and to the start of the chain. -/
def reset (playback : Playback α) : Playback α :=
  { playback with
    world := playback.world.reset
    elapsed := 0
    accumulated := 0
    pending := 0
    stopFired := false
    ended := false
    cursor := playback.cursor.restart
    trackOrigin := none
    active :=
      if !playback.followsChain && playback.poi.isNone then playback.timeline.keyframes.first
      else playback.active }

end Playback

end Showreel
