import Showreel.Text.Blank

/-!
Contract: the names of files, and why a file is not to be had.

Owns:
- the reasons why a file is not to be had, their wording, and which of them no program goes on
  after;
- the parts of a path, and its text without repeated slashes and empty parts;
- how long names may be;
- paths that begin at the home of an account.

Does not own: what a path leads to.
-/

namespace Showreel.Storage

/-- Why a file is not to be had. -/
inductive Obstacle where
  | missing
  | isFolder
  /-- A part of the path before the last one is no folder. -/
  | throughFile
  /-- The path or one of its parts is longer than names may be. -/
  | nameTooLong
  /-- A path with the character zero in it names nothing. -/
  | holdsZero
  /-- The bytes of the file spell no text. -/
  | notText
deriving DecidableEq, Repr

namespace Obstacle

/-- The wording of an obstacle, with its number if it has one. -/
def phrase : Obstacle → String
  | missing => "[Errno 2] No such file or directory"
  | isFolder => "[Errno 21] Is a directory"
  | throughFile => "[Errno 20] Not a directory"
  | nameTooLong => "[Errno 36] File name too long"
  | holdsZero => "embedded null byte"
  | notText => "invalid text"

/-- Whether the path or the file itself is at fault, whatever is stored. -/
def isFatal : Obstacle → Bool
  | holdsZero | notText => true
  | missing | isFolder | throughFile | nameTooLong => false

end Obstacle

/-- A path: its root and its parts. Exactly two slashes at the start are a root of their
own. -/
structure Path where
  root : String
  parts : List String
deriving DecidableEq, Repr

namespace Path

def rootOf : List Char → String
  | '/' :: '/' :: '/' :: _ => "/"
  | '/' :: '/' :: _ => "//"
  | '/' :: _ => "/"
  | _ => ""

/-- The path that a text names; a part that is a single dot stands for nothing. -/
def ofText (text : String) : Path where
  root := rootOf text.toList
  parts := ((Text.splitPieces (· == '/') [] text.toList).map String.ofList).filter (· != ".")

def text (path : Path) : String :=
  if path.root.isEmpty && path.parts.isEmpty then "."
  else path.root ++ "/".intercalate path.parts

/-- The path of the folder that a path lies in. -/
def folder (path : Path) : Path :=
  { path with parts := path.parts.dropLast }

/-- A part of a path has at most this many bytes. -/
def partLimit : Nat := 255

/-- A path has fewer bytes than this. -/
def lengthLimit : Nat := 4096

def holdsZero (text : String) : Bool :=
  text.toList.contains '\x00'

/-- What forbids a path whatever is stored. -/
def defect? (path : Path) : Option Obstacle :=
  if holdsZero path.text then some .holdsZero
  else if lengthLimit ≤ path.text.utf8ByteSize then some .nameTooLong
  else none

/-- The account at whose home a path begins, and the parts after it. The account without a
name is the user's own. -/
def account? (path : Path) : Option (String × List String) :=
  match path.root.isEmpty, path.parts with
  | true, first :: rest =>
      match first.toList with
      | '~' :: name => some (String.ofList name, rest)
      | _ => none
  | _, _ => none

end Path

end Showreel.Storage
