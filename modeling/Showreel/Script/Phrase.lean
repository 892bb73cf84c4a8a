import Showreel.Script.Draft
import Showreel.Settings

/-!
Contract: the quoted strings of scripts.

Owns:
- the variables in a string and their expansion;
- the limits on the number of lines, and the shortened text of reports;
- what a finished string does to a draft.

Does not own: how a string is joined from its tokens.
-/

namespace Showreel.Script

open Waypoint

/-- A text cut to a length, with dots where something is left out. -/
def shorten (text : String) (length : Int) : String :=
  let chars := text.toList
  if length < chars.length then
    let kept := if length ≤ 0 then (chars.length : Int) + length - 1 else length - 1
    String.ofList (chars.take kept.toNat) ++ "..."
  else text

/-- The text that a variable letter stands for. -/
def variableText (info : PatternInfo) (letter : Char) : Option String :=
  match letter with
  | 'N' => some info.name
  | 'R' => some info.rule
  | 'A' => some (if info.otherName.isEmpty then info.rule else info.otherName)
  | 'O' => some info.originator
  | 'S' => some info.seed
  | 'T' => some info.program
  | 'D' => some info.neighbourhood
  | '#' => some "#"
  | _ => none

/-- A string with its variables expanded once; unknown ones stay as they are written. -/
def expand (info : PatternInfo) : List Char → List Char
  | '#' :: letter :: rest =>
      match variableText info letter with
      | some value => value.toList ++ expand info rest
      | none => '#' :: letter :: expand info rest
  | char :: rest => char :: expand info rest
  | [] => []

def expanded (info : PatternInfo) (text : String) : String :=
  String.ofList (expand info text.toList)

/-- The number of line marks, a backslash and an `n`, in a text. -/
def lineMarks : List Char → Nat
  | '\\' :: 'n' :: rest => lineMarks rest + 1
  | _ :: rest => lineMarks rest
  | [] => 0

/-- A title has one line, and a message at most two. -/
def lineProblems (target : StringTarget) (text : String) : List Diagnostic :=
  let marks := lineMarks text.toList
  match target with
  | .title =>
      if 0 < marks then [⟨"TITLE \"" ++ shorten text 23 ++ "\"", .oneLineOnly⟩] else []
  | .message => if 1 < marks then [⟨"\"" ++ shorten text 23, .twoLinesOnly⟩] else []
  | .label => []

variable {α : Type}

/-- The notice that a title replaces another one. -/
def titleNotice (previous text : String) : List Diagnostic :=
  if previous.isEmpty then []
  else [⟨"TITLE \"" ++ shorten text 20 ++ "\"", .overwrites ("\"" ++ previous ++ "\"")⟩]

/-- What a finished string does: it is the title, the text of the pending label, or the
message of the open waypoint. -/
def Draft.finishString (draft : Draft α) (info : PatternInfo) (text : String) :
    Draft α × List Diagnostic :=
  let target := draft.stringTarget.getD .message
  let problems := lineProblems target text
  let value := expanded info text
  let cleared := { draft with stringTarget := none }
  let asMessage : Draft α :=
    let source := "\"" ++ shorten text 20 ++ "\""
    { cleared with current := { cleared.current with message := some (.written value source) } }
  match target with
  | .title => ({ cleared with title := value }, problems ++ titleNotice draft.title text)
  | .label =>
      match draft.pendingLabel with
      | some item =>
          let place := item.shape.points.1
          let labelled := { item with shape := .label place value }
          ({ cleared with labels := draft.labels.push labelled, pendingLabel := none }, problems)
      | none => (asMessage, problems)
  | .message => (asMessage, problems)

end Showreel.Script
