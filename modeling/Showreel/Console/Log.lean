import Showreel.Configuration
import Showreel.Playback.Basic
import Showreel.Script.Interpreter
import Showreel.Text.Quoted

/-!
Contract: the log of a run.

Owns: its entries and their text, and what an interpretation and playback put into it.

Does not own: where it is kept, and the time of an entry.
-/

namespace Showreel.Console

structure LogEntry where
  level : LogLevel
  source : String
  message : String
deriving DecidableEq, Repr

namespace LogEntry

def text (entry : LogEntry) : String :=
  entry.level.word ++ " - lifescript." ++ entry.source ++ " - " ++ entry.message

private def counted (count : Nat) (noun : String) : String :=
  toString count ++ " " ++ noun

/-- An evolution that left any cell. -/
def ofEvolution? (cells : Pattern.Cells) (generations : Int) (evolved : Paste.Evolved) :
    Option LogEntry :=
  if evolved.cells.isEmpty then none
  else some ⟨.debug, "paste", "Evolved " ++ toString cells.width ++ "x" ++ toString cells.height
    ++ " paste " ++ toString generations ++ " generations"⟩

variable {α : Type}

/-- What reading a script came to. -/
def ofTimeline (timeline : Timeline α) : LogEntry :=
  match timeline.diagnostics with
  | [] => ⟨.debug, "script", "Parsed " ++ ", ".intercalate [
      counted timeline.commands "commands: " ++ counted timeline.keyframes.length "keyframes",
      counted timeline.pois.length "POIs", counted timeline.pastes.length "pastes",
      counted timeline.callouts.size "annotations"]⟩
  | first :: _ => ⟨.info, "script",
      "Script has " ++ toString timeline.diagnostics.length ++ " problem(s), first: " ++ first.text⟩

/-- The entries of an interpretation, in order. -/
def ofInterpretation (result : Script.Interpretation α) : List LogEntry :=
  let timeline := result.timeline
  ⟨.debug, "waypoints", "Resolved " ++ counted timeline.keyframes.length "keyframes and "
      ++ counted timeline.pois.length "POIs"⟩
    :: (result.evolutions.filterMap fun ((cells, generations), evolved) =>
      ofEvolution? cells generations evolved)
    ++ [ofTimeline timeline]

/-- What happened in playback, as far as the log tells it. -/
def ofOccurrence? : Occurrence → Option LogEntry
  | .told (.historyReached target) =>
      some ⟨.debug, "timeline", "History computed to generation " ++ toString target⟩
  | .told (.stopped generation) =>
      some ⟨.debug, "timeline", "STOP reached at generation " ++ toString generation⟩
  | .told (.looped generation) =>
      some ⟨.debug, "timeline", "LOOP at generation " ++ toString generation⟩
  | .told (.arrived poi) => some ⟨.debug, "timeline", "Arrived at POI " ++ toString poi⟩
  | .told .blendBegan | .told .chainEnded => none
  | .pasted source mode x y generation =>
      some ⟨.debug, "paste", "Pasted " ++ (if source.isEmpty then "rle" else source) ++ " ("
        ++ mode.word ++ ") at (" ++ toString x ++ ", " ++ toString y ++ ") on generation "
        ++ toString generation⟩

def playbackEnded (frame : Nat) (generation : Int) : LogEntry :=
  ⟨.info, "bench", "Playback ended at frame " ++ toString frame ++ " (generation "
    ++ toString generation ++ ")"⟩

def emptyDocument (path : Storage.Path) : LogEntry :=
  ⟨.warning, "bench", "No pattern body in " ++ path.text ++ "; starting from an empty grid"⟩

def unreadable (path : Storage.Path) (obstacle : Storage.Obstacle) : LogEntry :=
  ⟨.error, "bench", "Cannot read " ++ path.text ++ ": " ++ obstacle.phrase ++ ": "
    ++ Text.quoted path.text⟩

end LogEntry

end Showreel.Console
