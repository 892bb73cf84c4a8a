import Showreel.Console.Log
import Showreel.Json.Writer
import Showreel.Playback.Frame
import Showreel.Telemetry

/-!
Contract: what a run tells about itself.

Owns: the lines about a timeline, the frames played with what each of them gives to the log
and to the table, and the summary of a run.

Does not own: the running, and where things are kept.
-/

namespace Showreel.Console

open Number

/-- A text filled up with blanks to a width. -/
def padded (width : Nat) (text : String) : String :=
  text ++ String.ofList (List.replicate (width - text.length) ' ')

/-- Digits, the last one first, with a comma after every three. -/
def groups : List Char → List Char
  | first :: second :: third :: next :: rest =>
      first :: second :: third :: ',' :: groups (next :: rest)
  | digits => digits

/-- A number with its digits in groups of three. -/
def grouped (number : Nat) : String :=
  String.ofList (groups (toString number).toList.reverse).reverse

variable {α : Type} [Scalar α]

/-- The lines about what a script asks for. -/
def describe (timeline : Timeline α) : List String :=
  let counts := "  ".intercalate [
    "Commands: " ++ toString timeline.commands,
    "Keyframes: " ++ toString timeline.keyframes.length,
    "POIs: " ++ toString timeline.pois.length, "Pastes: " ++ toString timeline.pastes.length,
    "Annotations: " ++ toString timeline.callouts.size]
  let title := if timeline.title.isEmpty then [] else ["Title: " ++ timeline.title]
  let track := timeline.track.elim [] fun track => ["Track: " ++ track.describe]
  let problems :=
    if timeline.isClean then ["Script OK"]
    else ("Script errors: " ++ toString timeline.diagnostics.length)
      :: timeline.diagnostics.map fun diagnostic =>
        "  " ++ padded 30 diagnostic.source ++ " " ++ diagnostic.reason
  counts :: title ++ track ++ problems

/-- Something to keep: an entry of the log or a row of the table. -/
inductive Note (α : Type) where
  | entry (entry : LogEntry)
  | row (row : TelemetryRow α)

/-- Playback so far, with what its frames told. -/
structure Reel (α : Type) [Scalar α] where
  playback : Playback α
  frames : Nat
  /-- The number of steps of all frames. -/
  steps : Nat
  /-- The events, each with the number of its frame. -/
  events : Array (Nat × Event)
  /-- What the frames gave to the log and to the table, in order. -/
  notes : Array (Note α)
  /-- How many of the occurrences to be delivered next have gone to the log before. -/
  entered : Nat

namespace Reel

/-- The reel before its first frame. What has happened by then has gone to the log. -/
def start (playback : Playback α) : Reel α :=
  ⟨playback, 0, 0, Array.empty, Array.empty, playback.undelivered.size⟩

/-- What the table tells about a frame. -/
def row (reel : Reel α) (result : FrameResult α) (population : Nat) : TelemetryRow α where
  frame := reel.frames
  generation := result.generation
  elapsed := result.elapsed
  population := population
  camera := result.camera
  requested := result.steps.requested
  completed := result.steps.completed
  events := ";".intercalate (result.events.map Event.word)

/-- What a frame gives to the log and to the table: what happened in it, its row, and the
end of playback. -/
def notesOf (reel : Reel α) (result : FrameResult α) (population : Nat) : List (Note α) :=
  let happened := (result.occurrences.toList.drop reel.entered).filterMap LogEntry.ofOccurrence?
  let ending := if result.ended then [LogEntry.playbackEnded reel.frames result.generation] else []
  happened.map .entry ++ [.row (reel.row result population)] ++ ending.map .entry

/-- The reel with one more frame. -/
def add (reel : Reel α) (playback : Playback α) (result : FrameResult α) : Reel α where
  playback := playback
  frames := reel.frames + 1
  steps := reel.steps + result.steps.completed
  events := reel.events ++ (result.events.map fun event => (reel.frames, event)).toArray
  notes := reel.notes ++ (reel.notesOf result playback.world.population).toArray
  entered := 0

/-- Play up to `left` frames of a length, fewer if playback ends before. No time passes by
the clock, so no frame runs out of it. -/
def play [Transcendental α] (frameTime : α) : Nat → Reel α → Except Fault (Reel α)
  | 0, reel => .ok reel
  | left + 1, reel =>
      let (result, playback) := (Player.tick (fun _ => 0) frameTime).run.run reel.playback
      match result with
      | .error fault => .error fault
      | .ok frame =>
          let next := reel.add playback frame
          if frame.ended then .ok next else play frameTime left next

/-- Steps per frame. -/
def pace (reel : Reel α) : Except Fault α :=
  if reel.frames = 0 then .ok 0 else Scalar.ofQuotient reel.steps reel.frames

/-- A direction as a JSON number. -/
def angleJson : Angle α → Json α
  | .whole degrees => .whole degrees
  | .measured degrees => .real degrees

/-- The summary of a run. -/
def summary (reel : Reel α) : Except Fault (Json α) := do
  let timeline := reel.playback.timeline
  let world := reel.playback.world
  let camera := reel.playback.camera
  let count (number : Nat) : Json α := .whole number
  return .object [
    ("clean", .bool timeline.isClean),
    ("diagnostics", .list (timeline.diagnostics.map fun diagnostic =>
      .list [.text diagnostic.source, .text diagnostic.reason])),
    ("keyframes", count timeline.keyframes.length),
    ("pois", count timeline.pois.length),
    ("pastes", count timeline.pastes.length),
    ("annotations", count timeline.callouts.size),
    ("frames", count reel.frames),
    ("generation", .whole world.generation),
    ("population", count world.population),
    ("steps_per_frame", .real (← reel.pace)),
    ("camera", .object [("x", .real camera.x), ("y", .real camera.y),
      ("zoom", .real camera.zoom), ("angle", angleJson camera.angle)]),
    ("events", .list (reel.events.toList.map fun (frame, event) =>
      .list [count frame, .text event.word]))]

/-- The line about how far a run came. -/
def closing (reel : Reel α) : String :=
  "Frames: " ++ toString reel.frames ++ "  Generation: "
    ++ toString reel.playback.world.generation ++ "  Population: "
    ++ grouped reel.playback.world.population

end Reel

end Showreel.Console
