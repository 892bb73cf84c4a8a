import Showreel.Number.Scalar
import Showreel.Theme

/-!
Contract: the settings shared by labels, arrows and polygons.

Owns: the style record and its defaults, alignment words, and the zoom range in which
a callout shows.

Does not own: how a style fades a callout.
-/

namespace Showreel.Callout

open Number

inductive Align where
  | left
  | centre
  | right
deriving DecidableEq, Repr

namespace Align

def all : List Align := [left, centre, right]

def word : Align → String
  | left => "LEFT"
  | centre => "CENTER"
  | right => "RIGHT"

def ofWord? (text : String) : Option Align :=
  all.find? fun align => align.word == text

end Align

/-- A place in pattern coordinates. -/
structure Point (α : Type) where
  x : α
  y : α
deriving Repr

/-- The settings of a callout, taken when its command is read. `opens` and `closes` bound
the generations in which it shows, both minus one for all generations; a negative view
distance means any distance. -/
structure Style (α : Type) where
  colour : Colour
  alpha : α
  size : α
  sizeFixed : Bool
  opens : Int
  closes : Int
  fade : Int
  angle : α
  angleFixed : Bool
  driftX : α
  driftY : α
  viewDistance : α
  minZoom : Option α
  maxZoom : Option α
  shadow : Bool
  align : Align
  target : Option (Point α)
  standoff : α
  head : α
deriving Repr

namespace Style

variable {α : Type} [Scalar α]

/-- The style of labels before any setting. -/
def forLabels : Style α where
  colour := .white
  alpha := 1
  size := 18
  sizeFixed := false
  opens := -1
  closes := -1
  fade := 0
  angle := 0
  angleFixed := false
  driftX := 0
  driftY := 0
  viewDistance := -1
  minZoom := none
  maxZoom := none
  shadow := false
  align := .centre
  target := none
  standoff := 0
  head := 0.1

/-- The style of arrows and polygons before any setting. -/
def forLines : Style α :=
  { forLabels with size := 2 }

/-- Whether the callout shows in all generations. -/
def always (style : Style α) : Bool :=
  style.opens == -1 && style.closes == -1

/-- The zooms between which a callout made at a zoom shows: a quarter and four times that
zoom where no limit is set. -/
def zoomRange (style : Style α) (zoom : α) : α × α :=
  (style.minZoom.getD (zoom / 4), style.maxZoom.getD (zoom * 4))

end Style

end Showreel.Callout
