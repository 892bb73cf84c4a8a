import Showreel.Json.Reader
import Showreel.Settings
import Showreel.Storage.Path
import Showreel.Text.Case

/-!
Contract: the settings of a run, from a JSON text or from the environment.

Owns:
- the levels of the log;
- the reading of truth values, positive numbers and levels, with a default for what is
  malformed;
- the settings from either source.

Does not own: the files.
-/

namespace Showreel

open Number Scalar

/-- How much a message of the log matters. -/
inductive LogLevel where
  | debug
  | info
  | warning
  | error
  | critical
deriving DecidableEq, Repr

namespace LogLevel

def all : List LogLevel := [debug, info, warning, error, critical]

def word : LogLevel → String
  | debug => "DEBUG"
  | info => "INFO"
  | warning => "WARNING"
  | error => "ERROR"
  | critical => "CRITICAL"

def number : LogLevel → Nat
  | debug => 10
  | info => 20
  | warning => 30
  | error => 40
  | critical => 50

/-- The level of a word in letters of either case. -/
def ofWord? (text : String) : Option LogLevel :=
  all.find? fun level => level.word == Text.upper text

end LogLevel

/-- The level of the log, and the file it is kept in. -/
structure LogSettings where
  level : LogLevel
  file : Option Storage.Path
deriving DecidableEq, Repr

def LogSettings.standard : LogSettings := ⟨.info, none⟩

/-- The settings of a run. -/
structure Configuration (α : Type) where
  viewer : ViewerSettings α
  log : LogSettings
deriving Repr

namespace Configuration

variable {α : Type} [Scalar α]

/-- The words for true. -/
def trueWords : List String := ["1", "true", "yes", "on"]

def truth (value : Option (Json α)) (fallback : Bool) : Bool :=
  match value with
  | some (.bool given) => given
  | some (.text given) => trueWords.contains (Text.lower (Text.trimmed given))
  | some (.whole given) => given != 0
  | some (.real given) => !isZero given
  | _ => fallback

/-- The whole number that a value stands for, if it stands for one. -/
def wholeOf? : Json α → Except Fault (Option Int)
  | .bool given => .ok (some (if given then 1 else 0))
  | .whole given => .ok (some given)
  | .real given =>
      match wholePart given with
      | .error .noWholeNumber => .ok none
      | result => result.map some
  | .text given => .ok ((Literal.readWhole given).toOption.join)
  | _ => .ok none

/-- The number that a value stands for, if it stands for one. -/
def realOf? : Json α → Except Fault (Option α)
  | .bool given => .ok (some (if given then 1 else 0))
  | .whole given => (ofInt given).map some
  | .real given => .ok (some given)
  | .text given => .ok ((Literal.read? given).map ofLiteral)
  | _ => .ok none

/-- A whole number above zero, else the default. -/
def positiveWhole (value : Option (Json α)) (fallback : Int) : Except Fault Int :=
  match value with
  | none => .ok fallback
  | some given =>
      (wholeOf? given).map fun whole => (whole.filter fun number => 0 < number).getD fallback

/-- A number above zero, else the default. -/
def positiveReal (value : Option (Json α)) (fallback : α) : Except Fault α :=
  match value with
  | none => .ok fallback
  | some given =>
      (realOf? given).map fun real =>
        (real.filter fun number => decide ((0 : α) < number)).getD fallback

/-- The least and the greatest power of two for the side of a grid. -/
def leastGridPower : Int := 9

def greatestGridPower : Int := 14

/-- The viewer's part, from the value of each name. -/
def viewerOf (value : String → Option (Json α)) : Except Fault (ViewerSettings α) := do
  let base : ViewerSettings α := .standard
  let whole (name : String) (fallback : Int) := positiveWhole (value name) fallback
  let power ← whole "max_grid_power" base.maxGridPower
  return {
    maxGridPower :=
      if leastGridPower ≤ power ∧ power ≤ greatestGridPower then power else base.maxGridPower
    refreshRate := ← whole "refresh_rate" base.refreshRate
    frameBudget := ← positiveReal (value "frame_budget_ms") base.frameBudget
    viewportWidth := ← whole "viewport_width" base.viewportWidth
    viewportHeight := ← whole "viewport_height" base.viewportHeight
    maxStepsPerTick := ← whole "max_steps_per_tick" base.maxStepsPerTick
    gridSize := ← whole "grid_size" base.gridSize
    stopOnErrors := truth (value "stop_on_errors") base.stopOnErrors }

def levelOf (value : Option (Json α)) (fallback : LogLevel) : LogLevel :=
  match value with
  | some (.text given) => (LogLevel.ofWord? (Text.trimmed given)).getD fallback
  | _ => fallback

/-- The file of the log; an empty value means none. -/
def logFileOf (value : Option (Json α)) : Except Fault (Option Storage.Path) :=
  match value with
  | none => .ok none
  | some given =>
      if given.isTruthy isZero then
        match given with
        | .text name => .ok (some (.ofText name))
        | _ => .error .logFileNotText
      else .ok none

/-- The log's part, from the value of each name. -/
def logOf (value : String → Option (Json α)) : Except Fault LogSettings := do
  let base := LogSettings.standard
  return {
    level := levelOf (value "level") base.level
    file := ← logFileOf (value "log_file") }

/-- The settings that an environment gives. -/
def ofEnvironment (environment : List (String × String)) : Except Fault (Configuration α) := do
  let value (name : String) : Option (Json α) :=
    (environment.lookup ("LIFESCRIPT_" ++ name)).map .text
  let viewer ← viewerOf fun name => value (Text.upper name)
  let log ← logOf fun name => value (if name == "level" then "LOG_LEVEL" else "LOG_FILE")
  return ⟨viewer, log⟩

/-- The settings of a JSON object; a part that is no object is at its default. -/
def ofObject (value : Json α) : Except Fault (Configuration α) := do
  let part (name : String) : String → Option (Json α) :=
    fun entry => (value.member? name).bind (Json.member? entry)
  let viewer ← viewerOf (part "viewer")
  let log ← logOf (part "logging")
  return ⟨viewer, log⟩

/-- The settings of a JSON text that was read at a path. -/
def ofText (path : Storage.Path) (text : String) : Except Fault (Configuration α) :=
  match (Json.read text : Except Json.Defect (Json α)) with
  | .error .malformed => .error (.configurationUnreadable path.text)
  | .error .tooManyDigits => .error .tooManyDigits
  | .error .tooDeep => .error .nestedTooDeep
  | .ok value =>
      if value.isObject then ofObject value else .error (.configurationNotAnObject path.text)

end Configuration

end Showreel
