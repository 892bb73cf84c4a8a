import Showreel.World.Basic

/-!
Contract: one generation of life.

Owns:
- the rule, from the number of living cells in the three by three square around a
  cell;
- the step of a whole grid, with touching or with dead edges;
- the statistics that a step records.

Does not own: pastes.

A row is dead in the next generation when it and its two neighbours are dead, so the
rows of such a stretch are not computed cell by cell.
-/

namespace Showreel.World

open Pattern

/-- A cell lives on with two or three living neighbours and is born with three; counted
with the cell itself this is three, or four around a living cell. -/
def livesNext (around : Nat) (alive : Bool) : Bool :=
  around == 3 || (around == 4 && alive)

def aliveCount (state : UInt8) : Nat :=
  if state = 0 then 0 else 1

/-- The place before one of `size` places, round the edge if they wrap. -/
def placeBefore (size : Nat) (wraps : Bool) (place : Nat) : Option Nat :=
  if place = 0 then (if wraps then some (size - 1) else none) else some (place - 1)

/-- The place after one of `size` places, round the edge if they wrap. -/
def placeAfter (size : Nat) (wraps : Bool) (place : Nat) : Option Nat :=
  if place + 1 < size then some (place + 1) else if wraps then some 0 else none

/-- The number of living cells in each column of three rows. -/
def columnSums {size : Nat} (above here below : Vector UInt8 size) : Vector Nat size :=
  Vector.ofFn fun column =>
    aliveCount above[column] + aliveCount here[column] + aliveCount below[column]

/-- The next generation of the middle one of three rows. -/
def nextRow {size : Nat} (wraps : Bool) (above here below : Vector UInt8 size) :
    Vector UInt8 size :=
  let sums := columnSums above here below
  let sumAt (place : Option Nat) : Nat := place.elim 0 fun column => sums.toArray.getD column 0
  Vector.ofFn fun column =>
    let around := sumAt (placeBefore size wraps column) + sums[column]
      + sumAt (placeAfter size wraps column)
    if livesNext around (here[column] != 0) then 1 else 0

/-- The next generation of a grid. -/
def nextGrid {size : Nat} (wraps : Bool) (grid : Block size size) : Block size size :=
  let deadRow := Vector.replicate size (0 : UInt8)
  let dead := grid.rows.map fun row => row.all (· == 0)
  let rowAt (place : Option Nat) : Vector UInt8 size :=
    place.elim deadRow fun row => grid.rows.toArray.getD row deadRow
  let deadAt (place : Option Nat) : Bool :=
    place.elim true fun row => dead.toArray.getD row true
  ⟨Vector.ofFn fun row =>
    let before := placeBefore size wraps row
    let after := placeAfter size wraps row
    if dead[row] && deadAt before && deadAt after then deadRow
    else nextRow wraps (rowAt before) grid.rows[row] (rowAt after)⟩

/-- Which statistics a step records. -/
structure StepRecord where
  /-- Count the living cells. -/
  counts : Bool
  /-- Keep the population last counted. -/
  keepsPopulation : Bool
  /-- Remember the grid. -/
  remembersGrid : Bool
deriving DecidableEq, Repr

def StepRecord.all : StepRecord := ⟨true, true, true⟩

def StepRecord.none : StepRecord := ⟨false, false, false⟩

/-- Advance by one generation. -/
def step (world : World) (record : StepRecord) : World :=
  let grid := nextGrid world.wraps world.grid
  let population := if record.counts then grid.population else world.population
  { world with
    grid := grid
    generation := world.generation + 1
    population := population
    populations :=
      if record.keepsPopulation then (population :: world.populations).take populationsKept
      else world.populations
    remembered :=
      if record.remembersGrid then min (world.remembered + 1) gridsKept
      else world.remembered }

end Showreel.World
