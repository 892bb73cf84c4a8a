import Showreel.Camera
import Showreel.Number.Text
import Showreel.Storage.Bytes

/-!
Contract: the table of what each frame did.

Owns:
- its heading, and its rows with their fixed decimal places;
- the hand that writes it, which holds rows back until they are due;
- a table under way, and the bytes of its file.

Does not own: where the file is stored.
-/

namespace Showreel

open Number

/-- What the table tells about one frame. -/
structure TelemetryRow (α : Type) where
  frame : Int
  generation : Int
  /-- Milliseconds of playback. -/
  elapsed : α
  population : Int
  camera : Camera α
  requested : Int
  completed : Int
  events : String
deriving Repr

namespace TelemetryRow

def heading : String :=
  "frame,gen,elapsed_ms,population,x,y,zoom,angle,steps_requested,steps_completed,event\n"

/-- The text of a row: one place for times, two for directions, three for positions and
four for zooms. -/
def text {α : Type} [Scalar α] (row : TelemetryRow α) : String :=
  ",".intercalate [
    toString row.frame, toString row.generation, Scalar.fixedText 1 row.elapsed,
    toString row.population, Scalar.fixedText 3 row.camera.x, Scalar.fixedText 3 row.camera.y,
    Scalar.fixedText 4 row.camera.zoom, Scalar.fixedText 2 row.camera.angle.degrees,
    toString row.requested, toString row.completed, row.events] ++ "\n"

/-- How many frames a row may be held back. -/
def longestHold : Int := 50

/-- Whether the table is brought up to date with a row: when something happened in its
frame, and every so many frames. -/
def isDue {α : Type} (row : TelemetryRow α) : Bool :=
  !row.events.isEmpty || row.frame % longestHold == 0

end TelemetryRow

/-- The hand that writes a table. It has a place of its own in the file, and writes what it
holds at that place whatever else is written to the file. -/
structure Pen where
  place : Nat
  held : String
deriving DecidableEq, Repr

namespace Pen

/-- The hand that has just written the heading. -/
def afterHeading : Pen :=
  ⟨TelemetryRow.heading.utf8ByteSize, ""⟩

/-- A hand holds at most this many bytes. -/
def holdLimit : Nat := 8192

/-- Whether a row goes no longer beside what the hand holds. -/
def isFullFor (pen : Pen) (text : String) : Bool :=
  decide (holdLimit < pen.held.utf8ByteSize + text.utf8ByteSize)

def hold (pen : Pen) (text : String) : Pen :=
  { pen with held := pen.held ++ text }

/-- The hand that has written what it held. -/
def emptied (pen : Pen) : Pen :=
  ⟨pen.place + pen.held.utf8ByteSize, ""⟩

end Pen

/-- A table under way. There is no file before the table is first opened. -/
structure Telemetry where
  file : Option ByteArray
  pen : Option Pen
  /-- The number of rows ever written. -/
  rows : Nat
deriving DecidableEq

namespace Telemetry

def unopened : Telemetry := ⟨none, none, 0⟩

/-- The bytes of the file when the hand has written what it holds. -/
def bytesWith (table : Telemetry) (pen : Pen) : ByteArray :=
  Storage.overwrite (table.file.getD ByteArray.empty) pen.place pen.held.toUTF8

/-- End the table. -/
def close (table : Telemetry) : Telemetry :=
  match table.pen with
  | some pen => { table with file := some (table.bytesWith pen), pen := none }
  | none => table

/-- Begin a new table. The file is emptied first; a hand that was at work then writes what
it still holds, and only after that the new one begins. -/
def start (table : Telemetry) : Telemetry :=
  let left := ({ table with file := some ByteArray.empty }.close.file).getD ByteArray.empty
  { table with
    file := some (Storage.overwrite left 0 TelemetryRow.heading.toUTF8)
    pen := some .afterHeading }

/-- Write what a hand at the table holds. -/
def release (table : Telemetry) (pen : Pen) : Telemetry :=
  { table with file := some (table.bytesWith pen), pen := some pen.emptied }

/-- Add a row, if the table is open. -/
def add {α : Type} [Scalar α] (table : Telemetry) (row : TelemetryRow α) : Telemetry :=
  match table.pen with
  | none => table
  | some pen =>
      let text := row.text
      let room := if pen.isFullFor text then table.release pen else table
      let holding := (if pen.isFullFor text then pen.emptied else pen).hold text
      let next := { room with pen := some holding, rows := table.rows + 1 }
      if row.isDue then next.release holding else next

/-- The text of the file of a closed table, if there is one. -/
def text? (table : Telemetry) : Except Fault (Option String) :=
  match table.file with
  | none => .ok none
  | some bytes =>
      match String.fromUTF8? bytes with
      | some text => .ok (some text)
      | none => .error (.fileNotUsable .notText)

end Telemetry

end Showreel
