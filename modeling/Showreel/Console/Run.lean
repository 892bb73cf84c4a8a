import Showreel.Console.Arguments
import Showreel.Console.LogBook
import Showreel.Console.Report

/-!
Contract: one run of the program.

Owns: the order of its parts: the settings, the log, the document, its interpretation,
the playback, and the outputs.

Does not own: the files, to which the run is given access.
-/

namespace Showreel.Console

open Number Storage

/-- What a run leaves behind, its files apart. -/
structure Outcome where
  status : Nat
  output : List String
  errors : List String
deriving DecidableEq, Repr

/-- A run that is refused with one line. -/
def Outcome.refusal (reason : String) : Outcome :=
  ⟨2, [], ["error: " ++ reason]⟩

variable {m : Type → Type} [Monad m]

/-- A text with its line ends made alike. -/
def unified (text : String) : String :=
  String.ofList (Text.unifyLineEnds text.toList)

/-- A result that fails the run where there is none. -/
def orFail {β : Type} (result : Except Fault β) : ExceptT Fault m β :=
  ExceptT.mk (pure result)

/-- The settings that the arguments ask for. -/
def configure (α : Type) [Scalar α] (access : Access m) (arguments : Arguments)
    (environment : List (String × String)) : ExceptT Fault m (Configuration α) := do
  match arguments.config with
  | none => orFail (Configuration.ofEnvironment environment)
  | some none => throw .valueMissing
  | some (some name) =>
      let path := Path.ofText name
      match ← access.read path with
      | .ok text => orFail (Configuration.ofText path (unified text))
      | .error obstacle =>
          if obstacle.isFatal then throw (.fileNotUsable obstacle)
          throw (.configurationUnreadable path.text)

/-- An option that names a file; an empty name is none. -/
def named (name : Option String) : Option String :=
  name.filter fun text => !text.isEmpty

/-- An access that the run cannot go on without. -/
def demand (result : m (Except Obstacle Unit)) : ExceptT Fault m Unit := do
  match ← result with
  | .ok () => return ()
  | .error obstacle => throw (.fileNotUsable obstacle)

/-- The world of a document, and what the log says about it. -/
def worldOf {α : Type} (settings : ViewerSettings α) (document : Pattern.Document)
    (path : Path) : Except Fault (World × List LogEntry) := do
  let empty ← World.create settings.gridSize true
  match document.cells with
  | some cells => return (empty.load cells true, [])
  | none => return (empty, [.emptyDocument path])

/-- The number of frames in a second as the length of one in milliseconds. -/
def frameTime {α : Type} [Scalar α] (settings : ViewerSettings α) : Except Fault α := do
  Scalar.divide 1000 (← Scalar.ofInt settings.refreshRate)

variable {α : Type} [Scalar α]

/-- Write what the hand at a table holds. -/
def release (access : Access m) (table : Path) (pen : Pen) : ExceptT Fault m Pen := do
  demand (access.overwrite table pen.place pen.held)
  return pen.emptied

/-- Keep notes: entries in the log, and rows in the table, if there is one. -/
def keepAll (access : Access m) (book : LogBook) (table : Option Path) (pen : Pen) :
    List (Note α) → ExceptT Fault m Unit
  | [] => do
      if let some path := table then
        let _ ← release access path pen
  | .entry entry :: rest => do
      book.enter access entry
      keepAll access book table pen rest
  | .row row :: rest => do
      let text := row.text
      match table with
      | none => keepAll access book table pen rest
      | some path =>
          let ready ← if pen.isFullFor text then release access path pen else pure pen
          let holding := ready.hold text
          let next ← if row.isDue then release access path holding else pure holding
          keepAll access book table next rest

/-- The outputs about a summary: its text, or the note that it is saved. -/
def putSummary (access : Access m) (arguments : Arguments) (reel : Reel α) :
    ExceptT Fault m (List String) := do
  match named arguments.json with
  | none => return []
  | some name =>
      let summary ← orFail reel.summary
      if name = "-" then return [summary.pretty]
      else
        demand (access.write (Path.ofText name) summary.pretty)
        return ["Summary saved to: " ++ name]

/-- The frames that are played, as many as the arguments ask for. -/
def film [Transcendental α] (arguments : Arguments) (settings : ViewerSettings α)
    (playback : Playback α) : Except Fault (Reel α) := do
  let length ← frameTime settings
  match arguments.frames with
  | some count => (Reel.start playback).play length count.toNat
  | none => throw .valueMissing

/-- Play a document. -/
def present [Transcendental α] (access : Access m) (arguments : Arguments) (book : LogBook)
    (settings : ViewerSettings α) (path : Path) (text : String) : ExceptT Fault m Outcome := do
  let document ← orFail (Pattern.Document.read text)
  let (world, worldLog) ← orFail (worldOf settings document path)
  worldLog.forM fun entry => book.enter access entry
  let info := { PatternInfo.standard with
    name := document.name, rule := document.rule, originator := document.originator }
  let result ← orFail (Script.interpret ⟨info, settings, .standard⟩ text)
  (LogEntry.ofInterpretation result).forM fun entry => book.enter access entry
  let timeline := result.timeline
  let ready := Playback.start timeline world settings
  let playback := if arguments.play then ready.play else ready
  (playback.undelivered.toList.filterMap LogEntry.ofOccurrence?).forM fun entry =>
    book.enter access entry
  let table := (named arguments.csv).map Path.ofText
  if let some place := table then demand (access.write place TelemetryRow.heading)
  let reel ← orFail (film arguments settings playback)
  keepAll access book table .afterHeading reel.notes.toList
  let saved ← putSummary access arguments reel
  return {
    status := if arguments.strict && !timeline.isClean then 1 else 0
    output := describe timeline ++ [reel.closing] ++ saved
    errors := [] }

/-- Read the document and play it. -/
def readAndPlay [Transcendental α] (access : Access m) (arguments : Arguments)
    (book : LogBook) (settings : ViewerSettings α) : ExceptT Fault m Outcome := do
  let path := Path.ofText arguments.document
  match ← access.read path with
  | .ok text => present access arguments book settings path (unified text)
  | .error obstacle =>
      if obstacle.isFatal then throw (.fileNotUsable obstacle)
      book.enter access (.unreadable path obstacle)
      return ⟨2, [], []⟩

/-- The level of the log that a run asks for. -/
def levelOf (arguments : Arguments) (settings : LogSettings) : Except String LogLevel :=
  match named arguments.logLevel with
  | none => .ok settings.level
  | some word =>
      match LogLevel.ofWord? word with
      | some level => .ok level
      | none => .error ("unknown log level " ++ Text.quoted word)

/-- Run the program on its arguments in an environment. -/
def run (α : Type) [Scalar α] [Transcendental α] (access : Access m) (arguments : Arguments)
    (environment : List (String × String)) : ExceptT Fault m Outcome := do
  match ← ExceptT.lift (configure α access arguments environment).run with
  | .error fault =>
      match fault with
      | .configurationUnreadable _ | .configurationNotAnObject _ =>
          return .refusal (fault.message.getD "")
      | _ => throw fault
  | .ok configuration =>
      match levelOf arguments configuration.log with
      | .error reason => return .refusal reason
      | .ok level =>
          let book ← LogBook.openAt access level configuration.log.file
          readAndPlay access arguments book configuration.viewer

end Showreel.Console
