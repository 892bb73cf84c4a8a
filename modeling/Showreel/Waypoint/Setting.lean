import Showreel.Camera

/-!
Contract: the settings of waypoints.

Owns:
- the twelve fields that a script sets by value and the five switches, with the type of
  each value;
- settings, which know the text they were written as and where they came from;
- the one-shot suppression of overwrite notices.

Does not own: waypoints.
-/

namespace Showreel.Waypoint

/-- The settings of a waypoint that take a value. -/
inductive Field where
  | x
  | y
  | zoom
  | angle
  | tilt
  | layers
  | depth
  | theme
  | gps
  | step
  | loop
  | stop
deriving DecidableEq, Repr

namespace Field

/-- All fields, in the order in which they are copied together. -/
def all : List Field :=
  [x, y, zoom, angle, tilt, layers, depth, theme, gps, step, loop, stop]

def word : Field → String
  | x => "X"
  | y => "Y"
  | zoom => "ZOOM"
  | angle => "ANGLE"
  | tilt => "TILT"
  | layers => "LAYERS"
  | depth => "DEPTH"
  | theme => "THEME"
  | gps => "GPS"
  | step => "STEP"
  | loop => "LOOP"
  | stop => "STOP"

def ofWord? (text : String) : Option Field :=
  all.find? fun field => field.word == text

/-- The type of a field's value: counts are whole numbers. -/
@[reducible]
def Value (α : Type) : Field → Type
  | angle => Angle α
  | layers | theme | step | loop | stop => Int
  | x | y | zoom | tilt | depth | gps => α

end Field

/-- The settings of a waypoint that are on or off. -/
inductive Switch where
  | xLinear
  | yLinear
  | zoomLinear
  | grid
  | stars
deriving DecidableEq, Repr

def Switch.all : List Switch := [xLinear, yLinear, zoomLinear, grid, stars]

/-- Where a setting came from: written in the script, copied from the first waypoint,
taken over from an earlier keyframe, or taken from the live view. -/
inductive Origin where
  | script
  | initial
  | inherited
  | live
deriving DecidableEq, Repr

namespace Origin

def word : Origin → String
  | script => "script"
  | initial => "initial"
  | inherited => "inherited"
  | live => "live"

/-- Whether the script asked for the setting. -/
def isExplicit : Origin → Bool
  | script | initial => true
  | inherited | live => false

end Origin

/-- A value with the text it was written as and its origin. -/
structure Setting (β : Type) where
  value : β
  source : String
  origin : Origin
deriving Repr

/-- A setting written in the script. -/
def Setting.written {β : Type} (value : β) (source : String) : Setting β :=
  ⟨value, source, .script⟩

/-- What overwrites may be suppressed for: the fields and the measures of the viewer. -/
inductive Suppressible where
  | field (field : Field)
  | width
  | height
deriving DecidableEq, Repr

/-- Which overwrite notices are suppressed. A suppression lasts until it has silenced one
notice. -/
structure Suppression where
  armed : Suppressible → Bool

namespace Suppression

def none : Suppression := ⟨fun _ => false⟩

def all : Suppression := ⟨fun _ => true⟩

/-- Whether a notice is silenced, and the suppressions that are left. -/
def consume (suppression : Suppression) (item : Suppressible) : Bool × Suppression :=
  if suppression.armed item then
    (true, ⟨fun other => if other = item then false else suppression.armed other⟩)
  else (false, suppression)

end Suppression

end Showreel.Waypoint
