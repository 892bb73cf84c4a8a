import Showreel.Number.Literal
import Showreel.Text.Case

/-!
Contract: colour themes, colours and the elements that a script may colour.

Owns:
- the names of the themes and the number of the custom theme;
- colours, their names, and colours written in hexadecimal digits;
- the elements of a theme.

Does not own: how a colour argument is read.
-/

namespace Showreel

namespace Theme

def names : List String :=
  ["Mono", "Classic", "Ocean", "Inferno", "Forest", "Neon",
    "Amber", "Ice", "Sunset", "Pastel", "Ember", "Spectrum"]

/-- The theme whose colours a script sets itself. -/
def custom : Int := names.length

/-- The number of a named theme, in letters of either case. -/
def ofName? (text : String) : Option Int :=
  (names.findIdx? fun name => Text.lower name == Text.lower text).map Int.ofNat

/-- The name of a theme; numbers outside the list are the custom theme. -/
def nameOf (theme : Int) : String :=
  if theme < 0 then "CUSTOM" else (names[theme.toNat]?).getD "CUSTOM"

end Theme

/-- A colour by its red, green and blue components. -/
structure Colour where
  red : Int
  green : Int
  blue : Int
deriving DecidableEq, Repr

namespace Colour

def white : Colour := ⟨255, 255, 255⟩

def named : List (String × Colour) :=
  [("black", ⟨0, 0, 0⟩), ("white", ⟨255, 255, 255⟩), ("red", ⟨255, 0, 0⟩),
    ("green", ⟨0, 128, 0⟩), ("lime", ⟨0, 255, 0⟩), ("blue", ⟨0, 0, 255⟩),
    ("yellow", ⟨255, 255, 0⟩), ("cyan", ⟨0, 255, 255⟩), ("aqua", ⟨0, 255, 255⟩),
    ("magenta", ⟨255, 0, 255⟩), ("fuchsia", ⟨255, 0, 255⟩), ("orange", ⟨255, 165, 0⟩),
    ("purple", ⟨128, 0, 128⟩), ("pink", ⟨255, 192, 203⟩), ("brown", ⟨165, 42, 42⟩),
    ("gray", ⟨128, 128, 128⟩), ("grey", ⟨128, 128, 128⟩), ("silver", ⟨192, 192, 192⟩),
    ("navy", ⟨0, 0, 128⟩), ("teal", ⟨0, 128, 128⟩), ("olive", ⟨128, 128, 0⟩),
    ("maroon", ⟨128, 0, 0⟩), ("gold", ⟨255, 215, 0⟩), ("skyblue", ⟨135, 206, 235⟩),
    ("violet", ⟨238, 130, 238⟩)]

/-- The colour of a name, in letters of either case. -/
def ofName? (text : String) : Option Colour :=
  named.lookup (Text.lower text)

/-- The colour whose components are the lowest three bytes of a number. -/
def ofNumber (number : Int) : Colour :=
  ⟨number / 65536 % 256, number / 256 % 256, number % 256⟩

/-- The colour written as `#` and six characters that read as a number in base
sixteen. -/
def ofHex? (token : String) : Option Colour :=
  match token.toList with
  | '#' :: digits =>
      if digits.length = 6 then
        (Number.Literal.readHex? (String.ofList digits)).map ofNumber
      else none
  | _ => none

/-- The components with blanks between them. -/
def text (colour : Colour) : String :=
  toString colour.red ++ " " ++ toString colour.green ++ " " ++ toString colour.blue

end Colour

end Showreel
