import Showreel.Storage.Path
import Showreel.Text.Quoted

/-!
Contract: the ways in which an operation of this library can fail outright.

Owns:
- one constructor per cause, with the data its wording needs;
- the wording of the causes that this library words itself.

Does not own: problems found in a script, which are diagnostics and never
failures.
-/

namespace Showreel

/-- A reason for which an operation has no answer. -/
inductive Fault where
  /-- A division whose divisor is zero, or a negative power of zero. -/
  | divisionByZero
  /-- A number that is too large for the form it is asked in. -/
  | overflow
  /-- A whole number was asked of a value that is no number at all. -/
  | noWholeNumber
  /-- A logarithm was asked of a value that is not positive. -/
  | logarithmDomain
  /-- A fractional power of a negative number has no real value, and one is needed. -/
  | powerDomain
  /-- A setting was copied before it had a value, and its value is needed. -/
  | unsetSetting
  /-- A written whole number has more digits than are read. -/
  | tooManyDigits
  /-- A negative power of two was asked as the side of a grid. -/
  | negativeGridPower
  /-- A place in an empty chain of keyframes. -/
  | emptyChain
  /-- A block with a height or a width below zero. -/
  | negativeMeasure
  /-- The rows of a block differ in length. -/
  | raggedRows
  /-- Two blocks are blended whose measures do not go together. -/
  | unlikeMeasures
  /-- A number beyond those of the truth tables. -/
  | unknownTable (number : Int)
  /-- A block has more cells than can be numbered. -/
  | blockTooLarge
  /-- A block has more cells than memory holds. -/
  | outOfMemory
  /-- A pattern was needed where the text gives none. -/
  | patternMissing
  | gridTooSmall (size : Int)
  | negativeDelta (delta : Int)
  | notANumber (token : String)
  | poiOutOfRange (index : Int) (count : Nat)
  | configurationUnreadable (path : String)
  | configurationNotAnObject (path : String)
  /-- A value in a document is nested deeper than is read. -/
  | nestedTooDeep
  /-- The name of a log file must be text. -/
  | logFileNotText
  /-- A path begins at the home of an account that there is not. -/
  | unknownAccount (name : String)
  /-- An option was left without the value that is needed. -/
  | valueMissing
  /-- A file that is needed is not to be had. -/
  | fileNotUsable (obstacle : Storage.Obstacle)
deriving DecidableEq, Repr

/-- The wording of a cause; the causes of arithmetic have none. -/
def Fault.message : Fault → Option String
  | gridTooSmall size => some ("grid size must be at least 8, got " ++ toString size)
  | negativeDelta delta => some ("paste delta must be >= 0, got " ++ toString delta)
  | notANumber token => some ("not a number: " ++ Text.quoted token)
  | poiOutOfRange index count =>
      some ("POI " ++ toString index ++ " out of range (0.." ++ toString ((count : Int) - 1) ++ ")")
  | configurationUnreadable path => some ("cannot read configuration " ++ path)
  | configurationNotAnObject path => some ("configuration " ++ path ++ " must be a JSON object")
  | _ => none

end Showreel
