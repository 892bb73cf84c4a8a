/-!
Contract: letters of the other case, as far as they are letters `a` to `z`.

Owns: the lower case and the upper case of text that is compared with plain words.

Does not own: case outside the plain letters; a character whose other case is no
plain letter stays as it is, since no plain word holds it.
-/

namespace Showreel.Text

/-- The Kelvin sign is the one further character whose lower case is a plain letter. -/
def lowerChar (char : Char) : Char :=
  if char.toNat = 0x212A then 'k' else char.toLower

/-- The dotless i and the long s are the further characters whose upper case is one plain
letter. -/
def upperChar (char : Char) : Char :=
  if char.toNat = 0x131 then 'I'
  else if char.toNat = 0x17F then 'S'
  else char.toUpper

def lower (text : String) : String :=
  String.ofList (text.toList.map lowerChar)

def upper (text : String) : String :=
  String.ofList (text.toList.map upperChar)

end Showreel.Text
