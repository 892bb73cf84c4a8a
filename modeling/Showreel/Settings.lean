import Showreel.Number.Scalar

/-!
Contract: the settings of a viewer and the facts about a pattern that scripts may refer
to.

Owns: both records and their defaults.

Does not own: where settings are read from.
-/

namespace Showreel

open Number

/-- The settings of the host that plays a timeline. -/
structure ViewerSettings (α : Type) where
  /-- Frames per second. -/
  refreshRate : Int
  maxGridPower : Int
  /-- Milliseconds of stepping in one frame. -/
  frameBudget : α
  viewportWidth : Int
  viewportHeight : Int
  maxStepsPerTick : Int
  gridSize : Int
  stopOnErrors : Bool
deriving Repr

def ViewerSettings.standard {α : Type} [Scalar α] : ViewerSettings α where
  refreshRate := 60
  maxGridPower := 12
  frameBudget := 12
  viewportWidth := 480
  viewportHeight := 480
  maxStepsPerTick := 64
  gridSize := 512
  stopOnErrors := true

/-- The side of the largest grid. -/
def ViewerSettings.maxGridSize {α : Type} (settings : ViewerSettings α) : Int :=
  2 ^ settings.maxGridPower.toNat

/-- Facts about a pattern that strings of a script can name. -/
structure PatternInfo where
  name : String
  rule : String
  otherName : String
  originator : String
  seed : String
  program : String
  neighbourhood : String
deriving DecidableEq, Repr

def PatternInfo.standard : PatternInfo where
  name := ""
  rule := "B3/S23"
  otherName := ""
  originator := ""
  seed := ""
  program := "life-script"
  neighbourhood := "Moore"

end Showreel
