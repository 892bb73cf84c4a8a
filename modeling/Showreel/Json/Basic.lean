/-!
Contract: the values of the JSON format.

Owns: the values, and access to the members of an object.

Does not own: their text.
-/

namespace Showreel

/-- A JSON value. A number is whole when it is written with neither a point nor an
exponent. -/
inductive Json (α : Type) where
  | null
  | bool (value : Bool)
  | whole (value : Int)
  | real (value : α)
  | text (value : String)
  | list (items : List (Json α))
  | object (members : List (String × Json α))

namespace Json

variable {α : Type}

/-- The member of an object with a name; of several the last one counts. -/
def member? (name : String) : Json α → Option (Json α)
  | object members => members.reverse.lookup name
  | _ => none

def isObject : Json α → Bool
  | object _ => true
  | _ => false

/-- Whether a value is none of the empty and zero values. -/
def isTruthy (isZero : α → Bool) : Json α → Bool
  | null => false
  | bool value => value
  | whole value => value != 0
  | real value => !isZero value
  | text value => !value.isEmpty
  | list items => !items.isEmpty
  | object members => !members.isEmpty

end Json

end Showreel
