import Showreel.Pattern.Document
import Showreel.Script.Ending
import Showreel.Script.Perform
import Showreel.Script.Phrase
import Showreel.Script.Read.Callout
import Showreel.Script.Read.Paste
import Showreel.Script.Read.Viewer
import Showreel.Script.Read.Waypoint

/-!
Contract: reading a whole script.

Owns:
- the reading of each command;
- the main loop over the tokens, with quoted strings and the ends of script blocks;
- the interpretation of a document.

Does not own: the arguments of single commands. Nothing that a script says makes reading
fail: what is wrong is reported, and reading goes on with the next token.
-/

namespace Showreel.Script

open Number Waypoint

variable {α : Type} [Scalar α]

/-- The surroundings of an interpretation. -/
structure Context (α : Type) where
  info : PatternInfo
  settings : ViewerSettings α
  camera : Camera α

/-- A command that takes no argument. -/
def Read.plain (statement : Statement α) : Reading (Option (Statement α)) :=
  pure (some statement)

/-- At the end of a script block reading goes on after the next start of one. -/
def Read.scriptEnd : Reading (Option (Statement α)) := do
  modify fun scan =>
    { scan with reader := (scan.reader.find startMarkers).getD scan.reader.finish }
  return none

/-- Read the arguments of a command, `word` being the word it was written with. -/
def Command.read (draft : Draft α) (refreshRate : Int) (word : String) :
    Command → Reading (Option (Statement α))
  | .scriptStart => Reading.refuse word .alreadyInScript
  | .scriptEnd => Read.scriptEnd
  | .generation => Read.generation word
  | .pause => Read.pause word
  | .poi => Read.openPoi
  | .poiStart => Read.poiStart draft word
  | .poiPlay => Read.plain (.poiAction .play)
  | .poiStop => Read.plain (.poiAction .stop)
  | .poiReset => Read.plain .poiReset
  | .poiSpeed => Read.poiSpeed word
  | .poiAddLabels => Read.plain .poiAddLabels
  | .all => Read.copyAll draft word
  | .initial => Reading.refuse word .initialAlone
  | .off => Reading.refuse word .offAlone
  | .field name => Read.field draft refreshRate word name
  | .motion linear => Read.motion linear word
  | .autofit => Read.autofit
  | .grid => Read.switch .grid word
  | .gridMajor => Read.gridMajor word
  | .stars => Read.switch .stars word
  | .time => Read.plain .setInterval
  | .track => Read.track word
  | .trackBox => Read.trackBox word
  | .trackLoop => Read.trackLoop word
  | .runLength => Read.runLength word
  | .paste => Read.paste draft word
  | .pasteTime => Read.pasteTime draft word
  | .pasteDrift => Read.pasteDrift word
  | .pasteMode => Read.pasteMode word
  | .pasteEvolve => Read.pasteEvolve word
  | .recipe => Read.recipe word
  | .label => Read.label draft word
  | .arrow => Read.arrow draft word
  | .polygon filled => Read.polygon draft filled word
  | .style family setting => Read.styleSetting draft family setting word
  | .labelAlign => Read.labelAlign draft word
  | .colour => Read.anyColour draft word
  | .title => Read.title word
  | .suppress => Read.plain .suppress
  | .viewerWidth => Read.viewerWidth word
  | .viewerHeight => Read.viewerHeight word
  | .maxGridSize => Read.maxGridSize word
  | .autostart => Read.autostart
  | .startFrom => Read.startFrom word
  | .noStepBack => Read.plain .forbidStepBack
  | .noReport => Read.plain .forbidReport
  | .viewOnly => Read.plain .viewOnly

/-- The state of reading a script. `openString` is the text of a string that has not been
closed yet. -/
structure Session (α : Type) where
  reader : Reader
  draft : Draft α
  reported : Array Diagnostic
  commands : Nat
  openString : Option String

namespace Session

/-- Carry out a command, if its arguments were read. -/
def perform (session : Session α) (statement : Option (Statement α)) :
    Except Fault (Session α) :=
  match statement with
  | none => .ok session
  | some given =>
      (session.draft.perform given).map fun outcome =>
        { session with
          draft := outcome.draft
          reported := session.reported ++ outcome.reported.toArray }

/-- Read and carry out the command that a word stands for. -/
def dispatch (context : Context α) (session : Session α) (word : String) :
    Except Fault (Session α) :=
  match Command.ofWord? word with
  | none =>
      .ok { session with
        commands := session.commands + 1
        reported := session.reported.push ⟨word, .unknownCommand⟩ }
  | some command => do
      let reading : Reading (Option (Statement α)) :=
        command.read session.draft context.settings.refreshRate word
      let (statement, scan) ← reading.run ⟨session.reader, []⟩
      let read := { session with
        reader := scan.reader
        reported := session.reported ++ scan.reported.toArray
        commands := if command = Command.scriptEnd then session.commands else session.commands + 1 }
      read.perform statement

/-- Finish a quoted string. -/
def finishString (context : Context α) (session : Session α) (text : String) : Session α :=
  let (draft, problems) := session.draft.finishString context.info text
  { session with
    draft := draft
    reported := session.reported ++ problems.toArray
    openString := none }

/-- What stands between the quotes of a token, from its place on. -/
def dropQuote (chars : List Char) : String :=
  String.ofList chars.dropLast

/-- Take the next token: it goes on with an open string, opens a string, or is a command. -/
def take (context : Context α) (session : Session α) (token : String) :
    Except Fault (Session α) :=
  let chars := token.toList
  let closes := chars.getLast? == some '\x22'
  match session.openString with
  | some text =>
      if closes then .ok (session.finishString context (text ++ " " ++ dropQuote chars))
      else .ok { session with openString := some (text ++ " " ++ token) }
  | none =>
      if chars.head? == some '\x22' then
        if 1 < chars.length && closes then
          .ok (session.finishString context (dropQuote chars.tail))
        else .ok { session with openString := some (String.ofList chars.tail) }
      else session.dispatch context token

/-- Take tokens until none is left. `fuel` is at least the number of tokens left. -/
def run (context : Context α) : Nat → Session α → Except Fault (Session α)
  | 0, session => .ok session
  | fuel + 1, session =>
      match session.reader.ahead with
      | [] => .ok session
      | token :: _ => do
          let next ← { session with reader := session.reader.advance }.take context token
          run context fuel next

/-- The session before the first token. A text that is the comments of a pattern document
is read from its first start marker on, and not at all without one; any other text without
a start marker is read whole. -/
def start (context : Context α) (text : String) : Session α :=
  let source := Pattern.Document.scriptSource text
  let reader := Reader.ofText source
  let placed :=
    match reader.find startMarkers with
    | some found => found
    | none => if source = text then reader else reader.finish
  { reader := placed
    draft := .start context.settings.maxGridPower
    reported := Array.empty
    commands := 0
    openString := none }

/-- Everything that was reported while reading; a string left open is reported last. -/
def finalReport (session : Session α) : List Diagnostic :=
  match session.openString with
  | none => session.reported.toList
  | some text => session.reported.toList ++ [⟨"\"" ++ text, .unterminatedString⟩]

end Session

/-- Read all tokens of a document. -/
def readAll (context : Context α) (text : String) : Except Fault (Session α) :=
  let session := Session.start context text
  session.run context session.reader.ahead.length

/-- Interpret the scripts of a document. -/
def interpret (context : Context α) (text : String) : Except Fault (Interpretation α) := do
  let session ← readAll context text
  session.draft.finish session.finalReport session.commands context.settings context.camera

end Showreel.Script
