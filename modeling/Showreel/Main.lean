import Showreel.Console.Run
import Showreel.Number.Shortest

/-!
Contract: the program.

Owns: access to files on the disk, and the printing of what a run leaves behind.

Does not own: the run.
-/

namespace Showreel

open Storage

/-- The obstacle that an error of the system stands for. -/
def obstacleOf : IO.Error → Obstacle
  | .inappropriateType .. => .isFolder
  | .noSuchThing .. | .noFileOrDirectory .. => .missing
  | .invalidArgument .. => .nameTooLong
  | _ => .throughFile

/-- An action on a path of the disk. -/
def onDisk {β : Type} (path : Path) (action : IO β) : IO (Except Obstacle β) := do
  match path.defect? with
  | some obstacle => return .error obstacle
  | none =>
      match ← action.toBaseIO with
      | .ok value => return .ok value
      | .error failure => return .error (obstacleOf failure)

/-- The text of a file. -/
def readFile (path : Path) : IO (Except Obstacle String) := do
  match ← onDisk path (IO.FS.readBinFile path.text) with
  | .error obstacle => return .error obstacle
  | .ok bytes => return (String.fromUTF8? bytes).elim (.error .notText) .ok

/-- Write a text over a file from a place on. -/
def overwriteFile (path : Path) (place : Nat) (text : String) : IO Unit := do
  let bytes ← IO.FS.readBinFile path.text
  IO.FS.writeBinFile path.text (overwrite bytes place text.toUTF8)

/-- Add to a file, making the folders on its way. -/
def appendFile (path : Path) (text : String) : IO Unit := do
  IO.FS.createDirAll path.folder.text
  let handle ← IO.FS.Handle.mk path.text .append
  handle.putStr text

/-- The home that a line of the list of accounts gives to a name. -/
def homeIn (name : String) (line : String) : Option Path :=
  match line.splitOn ":" with
  | account :: _ :: _ :: _ :: _ :: home :: _ =>
      if account = name then some (.ofText home) else none
  | _ => none

/-- The home of an account; the account without a name is the user's own. -/
def homeOf (name : String) : IO (Option Path) := do
  if name.isEmpty then return (← IO.getEnv "HOME").map Path.ofText
  match ← (IO.FS.lines "/etc/passwd").toBaseIO with
  | .ok lines => return lines.toList.findSome? (homeIn name)
  | .error _ => return none

/-- A number in decimal digits, filled up with zeros to a width. -/
def digits (width number : Nat) : String :=
  let text := toString number
  String.ofList (List.replicate (width - text.length) '0') ++ text

/-- The time that the clock has run, in the shape of a date with the time of day. -/
def runningTime : IO String := do
  let milliseconds ← IO.monoMsNow
  let seconds := milliseconds / 1000
  let minutes := seconds / 60
  let hours := minutes / 60
  return "0000-00-" ++ digits 2 (hours / 24 % 100) ++ " " ++ digits 2 (hours % 24) ++ ":"
    ++ digits 2 (minutes % 60) ++ ":" ++ digits 2 (seconds % 60) ++ ","
    ++ digits 3 (milliseconds % 1000)

/-- Access to the disk. -/
def diskAccess : Access IO where
  read := readFile
  write path text := onDisk path (IO.FS.writeFile path.text text)
  overwrite path place text := onDisk path (overwriteFile path place text)
  append path text := onDisk path (appendFile path text)
  home := homeOf
  time := runningTime
  tell line := IO.eprintln line

/-- The variables of the environment that settings are read from. -/
def variableNames : List String :=
  ["REFRESH_RATE", "MAX_GRID_POWER", "FRAME_BUDGET_MS", "VIEWPORT_WIDTH", "VIEWPORT_HEIGHT",
    "MAX_STEPS_PER_TICK", "GRID_SIZE", "STOP_ON_ERRORS", "LOG_LEVEL", "LOG_FILE"].map
    ("LIFESCRIPT_" ++ ·)

/-- The variables that are set. -/
def readEnvironment : IO (List (String × String)) := do
  let found ← variableNames.mapM fun name => do
    return (← IO.getEnv name).map fun value => (name, value)
  return found.filterMap id

def usage : String :=
  "usage: life-script [-h] [-n FRAMES] [--play] [--config CONFIG] [--csv CSV] [--json JSON] "
    ++ "[--log-level LOG_LEVEL] [--strict] document"

end Showreel

open Showreel in
def main (words : List String) : IO UInt32 := do
  match Console.Arguments.ofWords words with
  | .error .help =>
      IO.println usage
      return 0
  | .error .misuse =>
      IO.eprintln usage
      return 2
  | .ok arguments =>
      match ← (Console.run Float diskAccess arguments (← readEnvironment)).run with
      | .error fault =>
          IO.eprintln (fault.message.getD (reprStr fault))
          return 1
      | .ok outcome =>
          outcome.errors.forM fun line => IO.eprintln line
          outcome.output.forM fun line => IO.println line
          return outcome.status.toUInt32
