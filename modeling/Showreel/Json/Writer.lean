import Showreel.Json.Basic
import Showreel.Number.Scalar
import Showreel.Text.Quoted

/-!
Contract: the text of a JSON value written.

Owns:
- strings in plain characters only, everything else as escaped units;
- numbers in their shortest form, and the words for what is not finite;
- the compact layout, and the layout with one item a line.

Does not own: reading.
-/

namespace Showreel.Json

open Number

/-- The escape of a unit in four digits. -/
def writeUnit (value : Nat) : List Char :=
  '\\' :: 'u' :: Text.hexDigits 4 value

/-- The letters of the short escapes. -/
def shortEscapes : List (Char × Char) :=
  [('\x22', '\x22'), ('\\', '\\'), ('\n', 'n'), ('\r', 'r'), ('\t', 't'), ('\x0c', 'f'),
    ('\x08', 'b')]

/-- What stands for a character in a string. -/
def writeChar (char : Char) : List Char :=
  match shortEscapes.lookup char with
  | some letter => ['\\', letter]
  | none =>
      if ' ' ≤ char ∧ char ≤ '~' then [char]
      else if char.toNat < 0x10000 then writeUnit char.toNat
      else
        let offset := char.toNat - 0x10000
        writeUnit (0xD800 + offset / 0x400) ++ writeUnit (0xDC00 + offset % 0x400)

def writeString (value : String) : String :=
  String.ofList ('\x22' :: value.toList.flatMap writeChar ++ ['\x22'])

variable {α : Type} [Scalar α]

def writeReal (value : α) : String :=
  match Scalar.denotation value with
  | .finite _ => Scalar.shortest value
  | .infinite negative => if negative then "-Infinity" else "Infinity"
  | .undefined => "NaN"

/-- The text of a value that holds no other values. -/
def writeSimple : Json α → String
  | bool value => if value then "true" else "false"
  | whole value => toString value
  | real value => writeReal value
  | text value => writeString value
  | _ => "null"

mutual

/-- The text of a value without any blanks. -/
def compact : Json α → String
  | list items => "[" ++ ",".intercalate (compactItems items) ++ "]"
  | object members => "\x7b" ++ ",".intercalate (compactMembers members) ++ "\x7d"
  | value => writeSimple value

def compactItems : List (Json α) → List String
  | [] => []
  | item :: rest => compact item :: compactItems rest

def compactMembers : List (String × Json α) → List String
  | [] => []
  | (name, value) :: rest =>
      (writeString name ++ ":" ++ compact value) :: compactMembers rest

end

/-- A line end and the blanks before an item at a depth. -/
def newLine (depth : Nat) : String :=
  String.ofList ('\n' :: List.replicate (2 * depth) ' ')

/-- Items in brackets, each on a line of its own. -/
def block (opening closing : String) (depth : Nat) (items : List String) : String :=
  if items.isEmpty then opening ++ closing
  else
    opening ++ newLine (depth + 1) ++ ("," ++ newLine (depth + 1)).intercalate items
      ++ newLine depth ++ closing

mutual

/-- The text of a value at a depth, one item a line. -/
def indented (depth : Nat) : Json α → String
  | list items => block "[" "]" depth (indentedItems (depth + 1) items)
  | object members => block "\x7b" "\x7d" depth (indentedMembers (depth + 1) members)
  | value => writeSimple value

def indentedItems (depth : Nat) : List (Json α) → List String
  | [] => []
  | item :: rest => indented depth item :: indentedItems depth rest

def indentedMembers (depth : Nat) : List (String × Json α) → List String
  | [] => []
  | (name, value) :: rest =>
      (writeString name ++ ": " ++ indented depth value) :: indentedMembers depth rest

end

/-- The text of a value, one item a line. -/
def pretty (value : Json α) : String :=
  indented 0 value

end Showreel.Json
