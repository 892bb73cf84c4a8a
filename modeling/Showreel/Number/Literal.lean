import Showreel.Number.Scalar
import Showreel.Text.Blank
import Showreel.Text.Digit

/-!
Contract: numbers as they are written in scripts, settings and headers.

Owns:
- decimal literals: a sign, digits of any script with single underscores between
  them, a point, an exponent, and the words for infinity and for no number;
- whole numbers in base ten and sixteen;
- numeric tokens: a finite decimal, or two of them divided by a slash.

Does not own: the rounding of a literal to a scalar.
-/

namespace Showreel.Number

open Showreel.Text

/-- A number as written: a decimal is `mantissa * 10 ^ exponent`. -/
inductive Literal where
  | decimal (negative : Bool) (mantissa : Nat) (exponent : Int)
  | infinity (negative : Bool)
  | undefined
deriving DecidableEq, Repr

namespace Literal

/-- Blanks may stand around a number, the information separators not. -/
def isNumberBlank (char : Char) : Bool :=
  isBlank char && !decide (0x1C ≤ char.toNat ∧ char.toNat ≤ 0x1F)

def plainChar (char : Char) : Char :=
  match digitValue? char with
  | some value => Char.ofNat ('0'.toNat + value)
  | none => char

/-- The characters of a number: no blanks around it and every digit a plain one. -/
def plainForm (text : String) : List Char :=
  let inner := (text.toList.dropWhile isNumberBlank).reverse.dropWhile isNumberBlank
  inner.reverse.map plainChar

/-- The digits at the start of a text and what follows them. An underscore is passed over
where a digit stands on both sides; `started` tells that one stands before. -/
def takeDigits (base : Nat) (started : Bool) : List Char → List Nat × List Char
  | [] => ([], [])
  | char :: rest =>
      match baseDigit? base char with
      | some digit =>
          let (digits, after) := takeDigits base true rest
          (digit :: digits, after)
      | none =>
          if char = '_' ∧ started ∧ (rest.head?.bind (baseDigit? base)).isSome then
            takeDigits base false rest
          else ([], char :: rest)

def ofDigits (base : Nat) (digits : List Nat) : Nat :=
  digits.foldl (fun value digit => value * base + digit) 0

/-- An optional sign and what follows it. -/
def takeSign : List Char → Bool × List Char
  | '-' :: rest => (true, rest)
  | '+' :: rest => (false, rest)
  | chars => (false, chars)

/-- The exponent that ends a decimal, zero if nothing is left. -/
def readExponent : List Char → Option Int
  | [] => some 0
  | mark :: rest =>
      if mark = 'e' ∨ mark = 'E' then
        let (negative, unsigned) := takeSign rest
        let (digits, after) := takeDigits 10 false unsigned
        if digits.isEmpty ∨ after ≠ [] then none
        else some (if negative then -(ofDigits 10 digits : Int) else ofDigits 10 digits)
      else none

/-- The fraction digits after a point, if there is one. -/
def takeFraction : List Char → List Nat × List Char
  | '.' :: rest => takeDigits 10 false rest
  | chars => ([], chars)

def readDecimal (negative : Bool) (unsigned : List Char) : Option Literal :=
  let (whole, afterWhole) := takeDigits 10 false unsigned
  let (fraction, afterFraction) := takeFraction afterWhole
  if whole.isEmpty ∧ fraction.isEmpty then none
  else
    (readExponent afterFraction).map fun exponent =>
      decimal negative (ofDigits 10 (whole ++ fraction)) (exponent - fraction.length)

/-- Read a decimal literal. -/
def read? (text : String) : Option Literal :=
  let (negative, unsigned) := takeSign (plainForm text)
  let word := unsigned.map Char.toLower
  if word = "inf".toList ∨ word = "infinity".toList then some (infinity negative)
  else if word = "nan".toList then some undefined
  else readDecimal negative unsigned

/-- Whole numbers in base ten may have this many digits. -/
def digitLimit : Nat := 4300

/-- Read a whole number in base ten; `none` if it is not one. -/
def readWhole (text : String) : Except Fault (Option Int) :=
  let (negative, unsigned) := takeSign (plainForm text)
  let (digits, after) := takeDigits 10 false unsigned
  if digits.isEmpty ∨ after ≠ [] then .ok none
  else if digitLimit < digits.length then .error .tooManyDigits
  else .ok (some (if negative then -(ofDigits 10 digits : Int) else ofDigits 10 digits))

/-- The mark of base sixteen, which an underscore may follow. -/
def dropHexMark : List Char → List Char
  | '0' :: mark :: rest =>
      if mark = 'x' ∨ mark = 'X' then
        match rest with
        | '_' :: digits => digits
        | _ => rest
      else '0' :: mark :: rest
  | chars => chars

/-- Read a whole number in base sixteen. -/
def readHex? (text : String) : Option Int :=
  let (negative, unsigned) := takeSign (plainForm text)
  let (digits, after) := takeDigits 16 false (dropHexMark unsigned)
  if digits.isEmpty ∨ after ≠ [] then none
  else some (if negative then -(ofDigits 16 digits : Int) else ofDigits 16 digits)

end Literal

namespace Scalar

variable {α : Type} [Scalar α]

/-- The scalar nearest to a literal. The infinities are the quotients of one by zero, and
what is no number is the quotient of zero by itself. -/
def ofLiteral : Literal → α
  | .decimal negative mantissa exponent =>
      let magnitude : α := ofDecimal mantissa exponent
      if negative then -magnitude else magnitude
  | .infinity negative => (if negative then -1 else 1) / 0
  | .undefined => 0 / 0

/-- The scalar nearest to a finite literal, if it is finite itself. -/
def ofLiteral? : Literal → Option α
  | literal@(.decimal ..) =>
      let value : α := ofLiteral literal
      if isFinite value then some value else none
  | _ => none

/-- The value of a finite decimal token. -/
def readFinite? (token : String) : Option α :=
  (Literal.read? token).bind ofLiteral?

/-- The parts of a token before and after its first slash. -/
def slashParts (token : String) : Option (String × String) :=
  let chars := token.toList
  match chars.dropWhile (· != '/') with
  | [] => none
  | _ :: right => some (String.ofList (chars.takeWhile (· != '/')), String.ofList right)

/-- The two finite numbers of a token `n/m`. -/
def readFraction? (token : String) : Option (α × α) :=
  (slashParts token).bind fun (left, right) =>
    (readFinite? left).bind fun numerator =>
      (readFinite? right).map fun denominator => (numerator, denominator)

/-- The value of a numeric token; a fraction over zero is zero. -/
def readToken? (token : String) : Option α :=
  match (readFinite? token : Option α) with
  | some value => some value
  | none =>
      (readFraction? token).map fun ((numerator, denominator) : α × α) =>
        if denominator == (0 : α) then 0 else numerator / denominator

end Scalar

end Showreel.Number
