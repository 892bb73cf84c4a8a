/-!
Contract: blank characters, line ends, and the splitting of text at them.

Owns:
- the classes of blank characters and of line ends;
- trimming, splitting into lines, and splitting at separators.

Does not own: what the pieces mean.
-/

namespace Showreel.Text

/-- The blank characters: spaces of every width, tabs, line ends and the four
information separators. -/
def isBlank (char : Char) : Bool :=
  let code := char.toNat
  decide (9 ≤ code ∧ code ≤ 13) || decide (0x1C ≤ code ∧ code ≤ 0x20)
    || decide (0x2000 ≤ code ∧ code ≤ 0x200A)
    || [0x85, 0xA0, 0x1680, 0x2028, 0x2029, 0x202F, 0x205F, 0x3000].contains code

/-- The characters that end a line. -/
def isLineEnd (char : Char) : Bool :=
  let code := char.toNat
  decide (10 ≤ code ∧ code ≤ 13) || decide (0x1C ≤ code ∧ code ≤ 0x1E)
    || [0x85, 0x2028, 0x2029].contains code

/-- The text without the blanks at both ends. -/
def trim (text : List Char) : List Char :=
  ((text.dropWhile isBlank).reverse.dropWhile isBlank).reverse

def trimmed (text : String) : String :=
  String.ofList (trim text.toList)

/-- The lines of a text, `open` being the reversed start of the current one. A carriage
return takes a following line feed with it, and no line follows the last line end. -/
def splitLines (current : List Char) : List Char → List (List Char)
  | [] => if current.isEmpty then [] else [current.reverse]
  | '\r' :: '\n' :: rest => current.reverse :: splitLines [] rest
  | char :: rest =>
      if isLineEnd char then current.reverse :: splitLines [] rest
      else splitLines (char :: current) rest

def lines (text : String) : List (List Char) :=
  splitLines [] text.toList

/-- The non-empty pieces between separators, `current` being the reversed start of the
piece that is open. -/
def splitPieces (isSeparator : Char → Bool) (current : List Char) : List Char → List (List Char)
  | [] => if current.isEmpty then [] else [current.reverse]
  | char :: rest =>
      if isSeparator char then
        if current.isEmpty then splitPieces isSeparator [] rest
        else current.reverse :: splitPieces isSeparator [] rest
      else splitPieces isSeparator (char :: current) rest

/-- Line ends of every usual kind read as a line feed. -/
def unifyLineEnds : List Char → List Char
  | [] => []
  | '\r' :: '\n' :: rest => '\n' :: unifyLineEnds rest
  | '\r' :: rest => '\n' :: unifyLineEnds rest
  | char :: rest => char :: unifyLineEnds rest

end Showreel.Text
