import Showreel.Console.Log
import Showreel.Storage.Tree
import Showreel.Text.Digit

/-!
Contract: where the log of a run is kept.

Owns:
- the opening of the file, which may lie at the home of an account;
- entering entries, each with its time, as far as the level lets them through;
- lines of the file without their times.

Does not own: what is entered.
-/

namespace Showreel.Console

open Storage

/-- Where entries go, and from which level on. -/
structure LogBook where
  level : LogLevel
  file : Option Path
deriving DecidableEq, Repr

variable {m : Type → Type} [Monad m]

/-- A path that begins at the home of an account, written from the root. -/
def atHome (access : Access m) (path : Path) : ExceptT Fault m Path := do
  match path.account? with
  | none => return path
  | some (name, rest) =>
      if Path.holdsZero name then throw (.fileNotUsable .holdsZero)
      match ← access.home name with
      | some home => return { home with parts := home.parts ++ rest }
      | none => throw (.unknownAccount name)

namespace LogBook

/-- A book whose file has been made. A file that is not to be had is left out. -/
def openAt (access : Access m) (level : LogLevel) (path : Option Path) :
    ExceptT Fault m LogBook := do
  match path with
  | none => return ⟨level, none⟩
  | some given =>
      let place ← atHome access given
      match ← access.append place "" with
      | .ok () => return ⟨level, some place⟩
      | .error obstacle =>
          if obstacle.isFatal then throw (.fileNotUsable obstacle)
          return ⟨level, none⟩

/-- Enter what the level lets through. -/
def enter (access : Access m) (book : LogBook) (entry : LogEntry) : ExceptT Fault m Unit := do
  if book.level.number ≤ entry.level.number then
    let line := (← access.time) ++ " - " ++ entry.text
    access.tell line
    if let some path := book.file then
      let _ ← access.append path (line ++ "\n")

/-- The shape of the time before an entry; `0` stands for any digit. -/
def timeShape : List Char := "0000-00-00 00:00:00,000 - ".toList

/-- A line of a log without the time that may stand before it. -/
def withoutTime (line : String) : String :=
  let chars := line.toList
  let opening := chars.take timeShape.length
  let timed := opening.length == timeShape.length
    && (opening.zip timeShape).all fun (char, shape) =>
      if shape == '0' then Text.isDigit char else char == shape
  if timed then String.ofList (chars.drop timeShape.length) else line

/-- The lines of a log without their times; empty lines are left out. -/
def untimedLines (text : String) : List String :=
  (Text.splitPieces (· == '\n') [] text.toList).map fun line => withoutTime (String.ofList line)

end LogBook

end Showreel.Console
