import Showreel.Number.Text

/-!
Contract: cameras that drift with the generations.

Owns: the three modes, the speeds of the four edges, and their description.

Does not own: the camera.
-/

namespace Showreel

open Number

/-- Drift alone, a box whose edges move apart, or drift over a closed loop. -/
inductive TrackMode where
  | drift
  | box
  | loop
deriving DecidableEq, Repr

def TrackMode.word : TrackMode → String
  | drift => "TRACK"
  | box => "TRACKBOX"
  | loop => "TRACKLOOP"

/-- A drift in cells per generation; the edges of a box move independently. -/
structure Track (α : Type) where
  mode : TrackMode
  east : α
  south : α
  west : α
  north : α
  period : Int
deriving Repr

namespace Track

variable {α : Type}

/-- All edges move alike. -/
def uniform (mode : TrackMode) (dx dy : α) (period : Int) : Track α :=
  ⟨mode, dx, dy, dx, dy, period⟩

variable [Scalar α]

/-- How far the centre moves in one generation. -/
def velocity (track : Track α) : α × α :=
  ((track.east + track.west) / 2, (track.north + track.south) / 2)

/-- A whole number with at most six significant digits. -/
def periodText (period : Int) : String :=
  withSign (decide (period < 0)) (briefMagnitude (period.natAbs : Rat))

/-- The track as a command, numbers with at most six significant digits. -/
def describe (track : Track α) : String :=
  let parts :=
    match track.mode with
    | .box => [track.east, track.south, track.west, track.north].map Scalar.briefText
    | .loop => [periodText track.period, Scalar.briefText track.east, Scalar.briefText track.south]
    | .drift => [track.east, track.south].map Scalar.briefText
  " ".intercalate (track.mode.word :: parts)

end Track

end Showreel
