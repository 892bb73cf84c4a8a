import Showreel.Paste.Entry

/-!
Contract: the entries of a timeline, asked once for every generation.

Owns:
- which entries are due, and their pasting in order;
- the last generation at which any entry fires;
- the evolution of all entries, where equal cells are run forward only once.

Does not own: the stepping of the world.
-/

namespace Showreel.Paste

open Pattern

namespace Schedule

def due (entries : List Entry) (generation : Int) : List Entry :=
  entries.filter fun entry => entry.trigger.fires generation

/-- Blend every entry that is due, in order. -/
def apply (entries : List Entry) (world : World) (generation : Int) : World :=
  (due entries generation).foldl (fun current entry => entry.paste current generation) world

/-- The generation of the last paste, or minus one if a rule has no end. -/
def lastGeneration (entries : List Entry) : Int :=
  let lasts := entries.map fun entry => entry.trigger.last
  if lasts.any (· < 0) then -1 else lasts.foldl max 0

/-- Cells that have been run forward, by the cells and the number of generations. -/
abbrev Evolutions := List ((Cells × Int) × Evolved)

/-- The evolution of cells, looked up or computed and then kept. -/
def evolution (known : Evolutions) (cells : Cells) (generations : Int) : Evolved × Evolutions :=
  match known.lookup (cells, generations) with
  | some evolved => (evolved, known)
  | none =>
      let evolved := evolveCells cells generations.toNat
      (evolved, known ++ [((cells, generations), evolved)])

/-- All entries with their cells run forward, and the evolutions that were computed, in
order. -/
def evolveAll (known : Evolutions) : List Entry → List Entry × Evolutions
  | [] => ([], known)
  | entry :: rest =>
      if entry.evolve ≤ 0 then
        let (others, final) := evolveAll known rest
        (entry :: others, final)
      else
        let (evolved, grown) := evolution known entry.cells entry.evolve
        let (others, final) := evolveAll grown rest
        (entry.withEvolved evolved :: others, final)

end Schedule

end Showreel.Paste
