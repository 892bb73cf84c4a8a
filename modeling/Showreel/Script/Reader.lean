import Showreel.Number.Literal

/-!
Contract: the tokens of a script and the place of reading among them.

Owns:
- the separators of tokens: blanks and braces;
- reading on, looking ahead and behind, stepping back;
- the search for the next of some words.

Does not own: the meaning of a token. Quoted strings are not joined here.
-/

namespace Showreel.Script

/-- Blanks and braces stand between tokens. -/
def isSeparator (char : Char) : Bool :=
  Text.isBlank char || char == '\x7b' || char == '\x7d'

/-- The tokens of a text. -/
def tokens (text : String) : List String :=
  (Text.splitPieces isSeparator [] text.toList).map String.ofList

/-- A list of tokens with a place of reading: the tokens behind it, the last one first, and
the tokens ahead. -/
structure Reader where
  behind : List String
  ahead : List String
deriving DecidableEq, Repr

namespace Reader

def ofTokens (all : List String) : Reader := ⟨[], all⟩

def ofText (text : String) : Reader := ofTokens (tokens text)

/-- All tokens, read or not. -/
def allTokens (reader : Reader) : List String :=
  reader.behind.reverse ++ reader.ahead

def length (reader : Reader) : Nat :=
  reader.behind.length + reader.ahead.length

def position (reader : Reader) : Nat :=
  reader.behind.length

def exhausted (reader : Reader) : Bool :=
  reader.ahead.isEmpty

/-- The next token, empty at the end. -/
def peek (reader : Reader) : String :=
  reader.ahead.headD ""

/-- The token at a distance from the next one, empty outside the text. -/
def peekAt (reader : Reader) : Int → String
  | .ofNat distance => reader.ahead.getD distance ""
  | .negSucc distance => reader.behind.getD distance ""

/-- Read on past the next token, if there is one. -/
def advance (reader : Reader) : Reader :=
  match reader.ahead with
  | [] => reader
  | token :: rest => ⟨token :: reader.behind, rest⟩

/-- Step back before the last token read, if there is one. -/
def stepBack (reader : Reader) : Reader :=
  match reader.behind with
  | [] => reader
  | token :: rest => ⟨rest, token :: reader.ahead⟩

/-- The reader at a position, at most at the end. -/
def moveTo (reader : Reader) (position : Nat) : Reader :=
  let all := reader.allTokens
  ⟨(all.take position).reverse, all.drop position⟩

/-- Read on past the first token ahead that passes a test. -/
def search (passes : String → Bool) (behind : List String) : List String → Option Reader
  | [] => none
  | token :: rest =>
      if passes token then some ⟨token :: behind, rest⟩
      else search passes (token :: behind) rest

/-- Read on past the first of some words. -/
def find (reader : Reader) (words : List String) : Option Reader :=
  search words.contains reader.behind reader.ahead

/-- Read on past the first of some words at or after a position. -/
def findFrom (reader : Reader) (words : List String) (position : Nat) : Option Reader :=
  (reader.moveTo position).find words

/-- Read on past everything. -/
def finish (reader : Reader) : Reader :=
  ⟨reader.allTokens.reverse, []⟩

end Reader

/-- Whether a token is a finite number by itself. -/
def isPlainNumber (α : Type) [Number.Scalar α] (token : String) : Bool :=
  (Number.Scalar.readFinite? token : Option α).isSome

/-- Whether a token is a number, or a number on each side of its first slash. -/
def isNumeric (α : Type) [Number.Scalar α] (token : String) : Bool :=
  if token.isEmpty then false
  else if isPlainNumber α token then true
  else
    match Number.Scalar.slashParts token with
    | none => false
    | some (left, right) => isPlainNumber α left && isPlainNumber α right

/-- The value of a numeric token. -/
def readNumber {α : Type} [Number.Scalar α] (token : String) : Except Fault α :=
  match Number.Scalar.readToken? token with
  | some value => .ok value
  | none => .error (.notANumber token)

end Showreel.Script
