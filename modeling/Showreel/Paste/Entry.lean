import Showreel.Paste.Mode
import Showreel.Paste.Trigger
import Showreel.Pattern.Symmetry
import Showreel.World.Life

/-!
Contract: paste entries, named patterns and their evolution.

Owns:
- an entry: cells, the place and the trigger, the blend, and the drift of a
  repeating paste;
- the writing of one entry into a world;
- running cells forward on a world of their own, and an entry with its cells run
  forward.

Does not own: the collection of entries.
-/

namespace Showreel.Paste

open Pattern

/-- One paste. `driftX` and `driftY` move it at each firing of a repeating rule, and
`evolve` is the number of generations that its cells are run forward. -/
structure Entry where
  cells : Cells
  x : Int
  y : Int
  trigger : Trigger
  mode : Mode
  driftX : Int
  driftY : Int
  evolve : Int
  source : String
deriving DecidableEq, Repr

/-- A pattern with a name, an offset and a way to place it. -/
structure Snippet where
  name : String
  cells : Cells
  x : Int
  y : Int
  symmetry : Symmetry
deriving Repr

def Snippet.placed (snippet : Snippet) : Cells :=
  snippet.symmetry.apply snippet.cells

namespace Entry

/-- Where the top left corner stands at a generation. -/
def position (entry : Entry) (generation : Int) : Int × Int :=
  let count := entry.trigger.earlier generation
  (entry.x + entry.driftX * count, entry.y + entry.driftY * count)

/-- Blend the entry into a world. -/
def paste (entry : Entry) (world : World) (generation : Int) : World :=
  if entry.cells.isEmpty then world
  else
    let (x, y) := entry.position generation
    let under := world.region x y entry.cells.height entry.cells.width
    world.setRegion x y (entry.mode.blend under entry.cells)

end Entry

/-- Cells that were run forward, and how far their corner moved from the corner of the
cells that were given. -/
structure Evolved where
  cells : Cells
  shiftX : Int
  shiftY : Int
deriving DecidableEq, Repr

/-- The size of a world in which cells cannot reach the border: they grow by at most one
cell a generation on each side. -/
def scratchSize (cells : Cells) (generations : Nat) : Nat :=
  let size := max cells.height cells.width + 2 * generations + 16
  size + size % 2

theorem scratchSize_ge (cells : Cells) (generations : Nat) :
    8 ≤ scratchSize cells generations := by
  simp only [scratchSize]
  omega

/-- Whether there is room for the world in which an entry's cells are run forward. -/
def Entry.roomToEvolve (entry : Entry) : Except Fault Unit :=
  if entry.evolve ≤ 0 then .ok ()
  else
    let size := scratchSize entry.cells entry.evolve.toNat
    Cells.roomFor size size

/-- A world that was stepped a number of times without statistics. -/
def runForward (world : World) : Nat → World
  | 0 => world
  | count + 1 => runForward (world.step .none) count

/-- Run cells forward on a world of their own. -/
def evolveCells (cells : Cells) (generations : Nat) : Evolved :=
  let scratch := World.ofSize (scratchSize cells generations) (scratchSize_ge cells generations)
    false
  let left : Int := -(cells.width / 2 : Nat)
  let top : Int := -(cells.height / 2 : Nat)
  let world := runForward (scratch.setRegion left top cells) generations
  match world.boundingBox with
  | none => ⟨Cells.empty, 0, 0⟩
  | some box =>
      { cells := world.region box.left box.top (box.bottom - box.top + 1).toNat
          (box.right - box.left + 1).toNat
        shiftX := box.left - left
        shiftY := box.top - top }

/-- The entry with evolved cells, standing where they came to stand. -/
def Entry.withEvolved (entry : Entry) (evolved : Evolved) : Entry :=
  { entry with
    cells := evolved.cells
    x := entry.x + evolved.shiftX
    y := entry.y + evolved.shiftY }

/-- The entry with its cells run forward. -/
def Entry.evolved (entry : Entry) : Entry :=
  if entry.evolve ≤ 0 then entry
  else entry.withEvolved (evolveCells entry.cells entry.evolve.toNat)

end Showreel.Paste
