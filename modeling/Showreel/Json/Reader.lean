import Showreel.Json.Basic
import Showreel.Number.Literal

/-!
Contract: the text of a JSON value read.

Owns:
- the numbers, which may also be `NaN`, `Infinity` and `-Infinity`;
- strings with their escapes; a pair of surrogate units is one character, and a unit
  that stands alone is replaced;
- lists and objects, which may be nested to a limit, and the blanks around values.

Does not own: the meaning of a value. Names may repeat in an object.
-/

namespace Showreel.Json

open Number

/-- Why a text is not read. -/
inductive Defect where
  | malformed
  /-- A whole number has more digits than are read. -/
  | tooManyDigits
  /-- Lists and objects are nested deeper than is read. -/
  | tooDeep
deriving DecidableEq, Repr

/-- Lists and objects may be nested this deep. -/
def nestingLimit : Nat := 990

variable {α : Type}

def skipBlanks (chars : List Char) : List Char :=
  chars.dropWhile [' ', '\t', '\n', '\r'].contains

/-- The characters of a string up to its closing quote, escapes as they are written. -/
def rawString : List Char → Option (List Char × List Char)
  | [] => none
  | '\x22' :: rest => some ([], rest)
  | '\\' :: char :: rest =>
      (rawString rest).map fun (body, after) => ('\\' :: char :: body, after)
  | char :: rest =>
      if char.toNat < 0x20 then none
      else (rawString rest).map fun (body, after) => (char :: body, after)

/-- The number of a unit written in four digits of base sixteen. -/
def unitOf? (digits : List Char) : Option Nat :=
  (digits.mapM (Text.baseDigit? 16)).map (Literal.ofDigits 16)

/-- The character of a one letter escape. -/
def escapes : List (Char × Char) :=
  [('\x22', '\x22'), ('\\', '\\'), ('/', '/'), ('b', '\x08'), ('f', '\x0c'), ('n', '\n'),
    ('r', '\r'), ('t', '\t')]

/-- The numbers of the characters and units that a string body spells. -/
def unitsOf : List Char → Option (List Nat)
  | [] => some []
  | '\\' :: 'u' :: first :: second :: third :: fourth :: rest =>
      (unitOf? [first, second, third, fourth]).bind fun value =>
        (unitsOf rest).map (value :: ·)
  | '\\' :: char :: rest =>
      (escapes.lookup char).bind fun meant => (unitsOf rest).map (meant.toNat :: ·)
  | char :: rest => (unitsOf rest).map (char.toNat :: ·)

def isHighUnit (value : Nat) : Bool :=
  decide (0xD800 ≤ value ∧ value < 0xDC00)

def isLowUnit (value : Nat) : Bool :=
  decide (0xDC00 ≤ value ∧ value < 0xE000)

/-- The character that stands for a unit without its partner. -/
def replacement : Char := '\uFFFD'

/-- The characters of a sequence of units. -/
def joinUnits : List Nat → List Char
  | [] => []
  | [value] => [if isHighUnit value || isLowUnit value then replacement else Char.ofNat value]
  | value :: next :: rest =>
      if isHighUnit value && isLowUnit next then
        Char.ofNat (0x10000 + (value - 0xD800) * 0x400 + (next - 0xDC00)) :: joinUnits rest
      else if isHighUnit value || isLowUnit value then replacement :: joinUnits (next :: rest)
      else Char.ofNat value :: joinUnits (next :: rest)

/-- A string after its opening quote. -/
def readString (chars : List Char) : Except Defect (String × List Char) :=
  match rawString chars with
  | none => .error .malformed
  | some (body, rest) =>
      match unitsOf body with
      | none => .error .malformed
      | some units => .ok (String.ofList (joinUnits units), rest)

/-- The plain digits at the start of a text. -/
def plainDigits (chars : List Char) : List Char × List Char :=
  (chars.takeWhile Char.isDigit, chars.dropWhile Char.isDigit)

/-- The whole part of a number: no zero stands before another digit. -/
def wholePart (chars : List Char) : List Char × List Char :=
  match chars with
  | '0' :: rest => (['0'], rest)
  | _ => plainDigits chars

/-- The digits after a point; a point without digits is not part of the number. -/
def fractionPart (chars : List Char) : List Char × List Char :=
  match chars with
  | '.' :: rest =>
      let (digits, after) := plainDigits rest
      if digits.isEmpty then ([], chars) else ('.' :: digits, after)
  | _ => ([], chars)

/-- An exponent; its mark without digits is not part of the number. -/
def exponentPart (chars : List Char) : List Char × List Char :=
  match chars with
  | mark :: rest =>
      if mark = 'e' ∨ mark = 'E' then
        let sign := match rest with
          | '-' :: _ => ['-']
          | '+' :: _ => ['+']
          | _ => []
        let (digits, after) := plainDigits (rest.drop sign.length)
        if digits.isEmpty then ([], chars) else (mark :: sign ++ digits, after)
      else ([], chars)
  | [] => ([], chars)

variable [Scalar α]

/-- A number after its sign. -/
def readNumber (negative : Bool) (chars : List Char) : Except Defect (Json α × List Char) :=
  let (digits, afterDigits) := wholePart chars
  let (fraction, afterFraction) := fractionPart afterDigits
  let (exponent, rest) := exponentPart afterFraction
  let sign := if negative then ['-'] else []
  if digits.isEmpty then .error .malformed
  else if fraction.isEmpty && exponent.isEmpty then
    match Literal.readWhole (String.ofList (sign ++ digits)) with
    | .ok (some value) => .ok (.whole value, rest)
    | .ok none => .error .malformed
    | .error _ => .error .tooManyDigits
  else
    match Literal.read? (String.ofList (sign ++ digits ++ fraction ++ exponent)) with
    | some literal => .ok (.real (Scalar.ofLiteral literal), rest)
    | none => .error .malformed

/-- The words that stand for values. -/
def words : List (String × Json α) :=
  [("null", .null), ("true", .bool true), ("false", .bool false),
    ("NaN", .real (Scalar.ofLiteral .undefined)),
    ("Infinity", .real (Scalar.ofLiteral (.infinity false))),
    ("-Infinity", .real (Scalar.ofLiteral (.infinity true)))]

/-- A word or a number. -/
def readSimple (chars : List Char) : Except Defect (Json α × List Char) :=
  match words.find? fun word => word.1.toList.isPrefixOf chars with
  | some (word, value) => .ok (value, chars.drop word.length)
  | none =>
      match chars with
      | '-' :: rest => readNumber true rest
      | _ => readNumber false chars

mutual

/-- The value at the start of a text; `room` is how many levels of lists and objects may
still be opened, and `fuel` bounds the steps taken. -/
def readValue : Nat → Nat → List Char → Except Defect (Json α × List Char)
  | 0, _, _ => .error .malformed
  | fuel + 1, room, chars =>
      match chars with
      | '\x22' :: rest => (readString rest).map fun (value, after) => (.text value, after)
      | '[' :: rest =>
          if room = 0 then .error .tooDeep
          else
            match skipBlanks rest with
            | ']' :: after => .ok (.list [], after)
            | first =>
                (readItems fuel (room - 1) first).map fun (items, after) => (.list items, after)
      | '\x7b' :: rest =>
          if room = 0 then .error .tooDeep
          else
            match skipBlanks rest with
            | '\x7d' :: after => .ok (.object [], after)
            | first =>
                (readMembers fuel (room - 1) first).map fun (members, after) =>
                  (.object members, after)
      | _ => readSimple chars

/-- The items of a list from one of them on. -/
def readItems : Nat → Nat → List Char → Except Defect (List (Json α) × List Char)
  | 0, _, _ => .error .malformed
  | fuel + 1, room, chars => do
      let (item, afterItem) ← readValue fuel room chars
      match skipBlanks afterItem with
      | ']' :: rest => return ([item], rest)
      | ',' :: rest =>
          let (items, after) ← readItems fuel room (skipBlanks rest)
          return (item :: items, after)
      | _ => throw .malformed

/-- The members of an object from one of them on. -/
def readMembers : Nat → Nat → List Char → Except Defect (List (String × Json α) × List Char)
  | 0, _, _ => .error .malformed
  | fuel + 1, room, chars => do
      match chars with
      | '\x22' :: rest =>
          let (name, afterName) ← readString rest
          match skipBlanks afterName with
          | ':' :: valueText =>
              let (value, afterValue) ← readValue fuel room (skipBlanks valueText)
              match skipBlanks afterValue with
              | '\x7d' :: after => return ([(name, value)], after)
              | ',' :: more =>
                  let (members, after) ← readMembers fuel room (skipBlanks more)
                  return ((name, value) :: members, after)
              | _ => throw .malformed
          | _ => throw .malformed
      | _ => throw .malformed

end

/-- The value that a whole text spells. Every step takes a character or goes one level
down at a character, so twice the length bounds the steps. -/
def read (text : String) : Except Defect (Json α) := do
  let chars := skipBlanks text.toList
  let (value, rest) ← readValue (2 * chars.length + 2) nestingLimit chars
  if (skipBlanks rest).isEmpty then return value else throw .malformed

end Showreel.Json
