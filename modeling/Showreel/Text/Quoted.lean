import Showreel.Text.Printable

/-!
Contract: text in quotes, as messages show it.

Owns: the choice of quote, the escapes, and the widths of escaped codes.

Does not own: the quotes of scripts.
-/

namespace Showreel.Text

def hexDigit (value : Nat) : Char :=
  Char.ofNat (if value < 10 then '0'.toNat + value else 'a'.toNat + (value - 10))

/-- The lowest `width` hexadecimal digits of a number. -/
def hexDigits : Nat → Nat → List Char
  | 0, _ => []
  | width + 1, value => hexDigits width (value / 16) ++ [hexDigit (value % 16)]

/-- What stands for a character between quotes. -/
def quotedChar (quote : Char) (char : Char) : List Char :=
  if char = quote ∨ char = '\\' then ['\\', char]
  else if char = '\t' then ['\\', 't']
  else if char = '\n' then ['\\', 'n']
  else if char = '\r' then ['\\', 'r']
  else if isPrintable char then [char]
  else if char.toNat < 0x100 then '\\' :: 'x' :: hexDigits 2 char.toNat
  else if char.toNat < 0x10000 then '\\' :: 'u' :: hexDigits 4 char.toNat
  else '\\' :: 'U' :: hexDigits 8 char.toNat

/-- Single quotes, unless the text holds one of them and no double quote. -/
def quoted (text : String) : String :=
  let chars := text.toList
  let quote := if chars.contains '\x27' && !chars.contains '\x22' then '\x22' else '\x27'
  String.ofList (quote :: chars.flatMap (quotedChar quote) ++ [quote])

end Showreel.Text
