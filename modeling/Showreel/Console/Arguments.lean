import Showreel.Number.Literal
import Showreel.Text.Digit

/-!
Contract: the words of a command line.

Owns:
- the options, which may be shortened as long as they stay distinct, and take their value
  as the next word or after an equals sign; a value of two dashes is dropped;
- which words are operands: negative numbers and words with a space among them, and all
  words after a divider;
- the reading of all words, and when it ends early.

Does not own: what the options do.
-/

namespace Showreel.Console

open Number

/-- What an option chooses. -/
inductive Choice where
  | help
  | frames
  | play
  | config
  | csv
  | json
  | logLevel
  | strict
deriving DecidableEq, Repr

/-- Whether an option takes a value. -/
def Choice.takesValue : Choice → Bool
  | help | play | strict => false
  | frames | config | csv | json | logLevel => true

/-- The options as they are written. -/
def options : List (String × Choice) :=
  [("-h", .help), ("--help", .help), ("-n", .frames), ("--frames", .frames), ("--play", .play),
    ("--config", .config), ("--csv", .csv), ("--json", .json), ("--log-level", .logLevel),
    ("--strict", .strict)]

/-- What the words of a command line ask for. -/
structure Arguments where
  document : String
  /-- The number of frames; `none` where the option was left without its value. -/
  frames : Option Int
  play : Bool
  /-- The settings, if they are asked for, and their file, unless its name was dropped. -/
  config : Option (Option String)
  csv : Option String
  json : Option String
  logLevel : Option String
  strict : Bool
deriving DecidableEq, Repr

/-- Why there is nothing to run. -/
inductive Ending where
  | help
  | misuse
deriving DecidableEq, Repr

/-- A word of the command line. -/
inductive Piece where
  | operand (text : String)
  /-- An option, the options without values that stand before it in the word, and a value
  written with it. -/
  | option (before : List Choice) (choice : Choice) (value : Option String)
  /-- An option with something after it that does not belong there. -/
  | misspelt
  | unknown
  | divider
deriving DecidableEq, Repr

namespace Piece

/-- What stands before and after the first equals sign. -/
def splitValue (word : String) : Option (String × String) :=
  let chars := word.toList
  match chars.dropWhile (· != '=') with
  | [] => none
  | _ :: value => some (String.ofList (chars.takeWhile (· != '=')), String.ofList value)

/-- Whether a word is a negative number without an exponent; a line end may follow. -/
def isNegativeNumber (word : String) : Bool :=
  let chars := word.toList
  let body := if chars.getLast? = some '\n' then chars.dropLast else chars
  match body with
  | '-' :: digits =>
      let fraction := digits.dropWhile Text.isDigit
      match fraction with
      | [] => !digits.isEmpty
      | '.' :: places => !places.isEmpty && places.all Text.isDigit
      | _ => false
  | _ => false

/-- The options of a word of letters. The letter of an option that takes a value is
followed by the value. -/
def ofLetters (before : List Choice) : List Char → Piece
  | [] => .misspelt
  | letter :: rest =>
      match options.lookup (String.ofList ['-', letter]) with
      | none => .misspelt
      | some choice =>
          if rest.isEmpty then .option before choice none
          else if choice.takesValue then .option before choice (some (String.ofList rest))
          else ofLetters (before ++ [choice]) rest

/-- The options whose names begin with a word. -/
def optionsFrom (word : String) : List Choice :=
  (options.filter fun entry => word.toList.isPrefixOf entry.1.toList).map fun entry => entry.2

/-- A word that begins like no option. -/
def ofStranger (word : String) : Piece :=
  if isNegativeNumber word || word.toList.contains ' ' then .operand word else .unknown

/-- A long option, which may be shortened, with its value after an equals sign. -/
def ofLong (word : String) : Except Ending Piece :=
  let (name, value) :=
    match splitValue word with
    | some (name, value) => (name, some value)
    | none => (word, none)
  match options.lookup name, optionsFrom name with
  | some choice, _ => .ok (.option [] choice value)
  | none, [choice] => .ok (.option [] choice value)
  | none, [] => .ok (ofStranger word)
  | none, _ => .error .misuse

/-- An option of a single letter, with its value after it or after an equals sign. -/
def ofShort (letter : Char) (rest : List Char) (word : String) : Piece :=
  match options.lookup (String.ofList ['-', letter]) with
  | none => ofStranger word
  | some choice =>
      match rest with
      | '=' :: value =>
          if choice.takesValue then .option [] choice (some (String.ofList value))
          else ofLetters [choice] value
      | _ => ofLetters [] (letter :: rest)

/-- What a word stands for; a single dash is an operand. -/
def ofWord (word : String) : Except Ending Piece :=
  match word.toList with
  | '-' :: '-' :: _ => ofLong word
  | '-' :: letter :: rest => .ok (ofShort letter rest word)
  | _ => .ok (.operand word)

/-- The pieces of all words; after the divider every word is an operand. -/
def ofWords : List String → Except Ending (List Piece)
  | [] => .ok []
  | word :: rest =>
      if word = "--" then .ok (.divider :: rest.map .operand)
      else do
        let piece ← ofWord word
        return piece :: (← ofWords rest)

end Piece

/-- The words that have been taken so far. -/
structure Taken where
  arguments : Arguments
  hasDocument : Bool
  /-- Whether the document was named by the last word. -/
  atDocument : Bool
  /-- Whether a word was left over. -/
  hasExtra : Bool
  /-- An option whose value is the next word, and the options before it in its word. -/
  awaiting : Option (List Choice × Choice)
deriving DecidableEq, Repr

namespace Taken

/-- Before the first word: six hundred frames, and nothing else asked for. -/
def start : Taken :=
  ⟨⟨"", some 600, false, none, none, none, none, false⟩, false, false, false, none⟩

/-- The value that is dropped. -/
def noValue : String := "--"

/-- The arguments with what an option asks for. -/
def chosen (given : Arguments) (choice : Choice) (value : String) : Except Ending Arguments :=
  let kept := if value = noValue then none else some value
  match choice with
  | .help => .error .help
  | .frames =>
      match kept.map Literal.readWhole with
      | none => .ok { given with frames := none }
      | some (.ok (some count)) => .ok { given with frames := some count }
      | some _ => .error .misuse
  | .play => .ok { given with play := true }
  | .config => .ok { given with config := some kept }
  | .csv => .ok { given with csv := kept }
  | .json => .ok { given with json := kept }
  | .logLevel => .ok { given with logLevel := kept }
  | .strict => .ok { given with strict := true }

/-- Take an option with its value, after the options before it. -/
def choose (taken : Taken) (before : List Choice) (choice : Choice) (value : String) :
    Except Ending Taken := do
  let led ← before.foldlM (fun given earlier => chosen given earlier "") taken.arguments
  let arguments ← chosen led choice value
  return { taken with arguments := arguments, atDocument := false, awaiting := none }

/-- Take a piece. The first operand names the document, and a divider belongs to it. -/
def take (taken : Taken) (piece : Piece) : Except Ending Taken :=
  match taken.awaiting, piece with
  | some (before, choice), .operand text => taken.choose before choice text
  | some _, _ => .error .misuse
  | none, .operand text =>
      if taken.hasDocument then .ok { taken with hasExtra := true, atDocument := false }
      else
        .ok { taken with
          arguments := { taken.arguments with document := text }
          hasDocument := true
          atDocument := true }
  | none, .divider =>
      if taken.hasDocument && !taken.atDocument then .ok { taken with hasExtra := true }
      else .ok taken
  | none, .unknown => .ok { taken with hasExtra := true, atDocument := false }
  | none, .misspelt => .error .misuse
  | none, .option before choice value =>
      match choice.takesValue, value with
      | true, none => .ok { taken with awaiting := some (before, choice), atDocument := false }
      | true, some text => taken.choose before choice text
      | false, none => taken.choose before choice ""
      | false, some _ => .error .misuse

end Taken

/-- Read the words of a command line. -/
def Arguments.ofWords (words : List String) : Except Ending Arguments := do
  let pieces ← Piece.ofWords words
  let taken ← pieces.foldlM Taken.take .start
  if taken.hasDocument && !taken.hasExtra && taken.awaiting.isNone then return taken.arguments
  else throw .misuse

end Showreel.Console
