import Showreel.Pattern.RunLength
import Showreel.Text.Case
import Showreel.Text.Digit

/-!
Contract: pattern documents.

Owns:
- the name, the author and the rule that comment and header lines give;
- which lines are the body, and the pattern in it;
- which comment lines may hold a script.

Does not own: the script.
-/

namespace Showreel.Pattern

open Showreel.Text

/-- What a pattern document says. -/
structure Document where
  cells : Option Cells
  name : String
  originator : String
  rule : String
deriving Repr

namespace Document

/-- The rule of a document that names none. -/
def standardRule : String := "B3/S23"

/-- What follows a plain letter of either case. -/
def dropLetter (letter : Char) : List Char → Option (List Char)
  | char :: rest => if char.toLower = letter then some rest else none
  | [] => none

def dropLetters (letters : List Char) (text : List Char) : Option (List Char) :=
  letters.foldlM (fun rest letter => dropLetter letter rest) text

def skipBlanks (text : List Char) : List Char :=
  text.dropWhile isBlank

def dropDigits (text : List Char) : Option (List Char) :=
  match text with
  | char :: rest => if isDigit char then some (rest.dropWhile isDigit) else none
  | [] => none

/-- What follows `name = `, blanks allowed around both. -/
def dropAssignment (name : String) (text : List Char) : Option (List Char) :=
  (dropLetters name.toList (skipBlanks text)).bind fun afterName =>
    (dropLetter '=' (skipBlanks afterName)).map skipBlanks

def dropComma (text : List Char) : Option (List Char) :=
  dropLetter ',' (skipBlanks text)

/-- The rule that may follow the measures of a header line. -/
def headerRule (text : List Char) : Option String :=
  (dropComma text).bind fun afterComma =>
    (dropAssignment "rule" afterComma).bind fun value =>
      let rule := value.takeWhile fun char => !isBlank char
      if rule.isEmpty then none else some (String.ofList rule)

/-- Whether a line is a header `x = …, y = …`, and the rule that it names. -/
def readHeader? (line : List Char) : Option (Option String) :=
  (dropAssignment "x" line).bind fun width =>
    (dropDigits width).bind fun afterWidth =>
      (dropComma afterWidth).bind fun afterComma =>
        (dropAssignment "y" afterComma).bind fun height =>
          (dropDigits height).map headerRule

/-- The document with what a comment line says about the pattern. -/
def readComment (document : Document) (line : List Char) : Document :=
  let value := String.ofList (trim (line.drop 2))
  match (line.take 2).map upperChar with
  | ['#', 'N'] => { document with name := value }
  | ['#', 'O'] => { document with originator := value }
  | _ => document

/-- Read trimmed lines up to the body, and give the lines of the body. -/
def readPreamble (document : Document) : List (List Char) → Document × List (List Char)
  | [] => (document, [])
  | line :: rest =>
      if line.head? = some '#' then readPreamble (document.readComment line) rest
      else
        match readHeader? line with
        | some rule => ({ document with rule := rule.getD document.rule }, rest)
        | none => if line.isEmpty then readPreamble document rest else (document, line :: rest)

/-- The text of the body, which ends with the first line that holds the end mark. -/
def bodyText : List (List Char) → List Char
  | [] => []
  | line :: rest => if line.contains '!' then line else line ++ bodyText rest

/-- Read a pattern document. -/
def read (text : String) : Except Fault Document := do
  let blank : Document := ⟨none, "", "", standardRule⟩
  let (document, body) := readPreamble blank ((lines text).map trim)
  return { document with cells := ← RunLength.decode (bodyText body) }

/-- Whether a comment line may hold a script. -/
def isScriptLine (line : List Char) : Bool :=
  [['#', 'C'], ['#', 'c'], ['#', 'D']].contains (line.take 2)

/-- The text that may hold a script: the comment lines of a pattern document, and any
text without a line that starts with the comment mark as it is. -/
def scriptSource (text : String) : String :=
  let all := lines text
  if all.any fun line => line.head? = some '#' then
    String.ofList (List.intercalate ['\n'] ((all.filter isScriptLine).map (·.drop 2)))
  else text

end Document

end Showreel.Pattern
