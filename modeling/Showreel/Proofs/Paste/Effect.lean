import Showreel.Proofs.World.Census
import Showreel.Proofs.World.Picture

/-!
Contract: what a paste does to the cells of a world.

Owns:
- which places an entry covers at a generation, and what state its pattern has over them;
- the cells, the population and the rest of a world after one paste;
- that entries which cover no place together may be pasted in any order.

Does not own: when an entry is due.
-/

namespace Showreel.Paste

open Pattern World

/-! ### The digits of a truth table -/

namespace Mode

/-- The digit of a truth table for a pattern cell and a grid cell. -/
def digit (mode : Mode) (given old : UInt8) : Nat :=
  mode.table.val >>> (3 - (2 * aliveCount given + aliveCount old)) % 2

theorem keeps_eq (mode : Mode) (given old : UInt8) :
    mode.keeps (given != 0) (old != 0) = decide (mode.digit given old = 1) := by
  have counted : ∀ state : UInt8, (state != 0).toNat = aliveCount state := by
    intro state
    unfold aliveCount
    split
    case isTrue dead =>
      rw [dead]
      rfl
    case isFalse lives => rw [bne_iff_ne.mpr lives, Bool.toNat_true]
  rw [keeps, counted, counted, Nat.testBit_eq_decide_div_mod_eq, digit, Nat.shiftRight_eq_div_pow]

/-- A blended cell is dead where the digit is zero, and else takes the first living state of the
pattern's, the grid's and one. -/
theorem blendCell_eq (mode : Mode) (old given : UInt8) :
    mode.blendCell old given =
      if mode.digit given old = 0 then 0
      else if given ≠ 0 then given else if old ≠ 0 then old else 1 := by
  have binary : mode.digit given old = 0 ∨ mode.digit given old = 1 :=
    Nat.mod_two_eq_zero_or_one _
  unfold blendCell
  rw [keeps_eq]
  rcases binary with zero | one
  · simp [zero]
  · simp [one]

end Mode

/-! ### One paste -/

namespace Entry

/-- Whether an entry covers a place at a generation. -/
def CoversAt (entry : Entry) (generation x y : Int) : Prop :=
  Covers (entry.position generation).1 (entry.position generation).2 entry.cells.height
    entry.cells.width x y

instance (entry : Entry) (generation x y : Int) : Decidable (entry.CoversAt generation x y) :=
  inferInstanceAs (Decidable (Covers ..))

/-- The state that the pattern of an entry has over a place. -/
def stateAt (entry : Entry) (generation x y : Int) : UInt8 :=
  entry.cells.state (y - (entry.position generation).2).toNat
    (x - (entry.position generation).1).toNat

/-- Whether an entry has a cell on the grid of a world. -/
def reaches (entry : Entry) (world : World) (generation : Int) : Bool :=
  world.overlaps (entry.position generation).1 (entry.position generation).2 entry.cells.height
    entry.cells.width

/-- The blend of an entry with what lies under it. -/
def blended (entry : Entry) (world : World) (generation : Int) : Cells :=
  entry.mode.blend (world.region (entry.position generation).1 (entry.position generation).2
    entry.cells.height entry.cells.width) entry.cells

/-- An entry writes its blend as a rectangle, also where it has no cell. -/
theorem paste_eq (entry : Entry) (world : World) (generation : Int) :
    entry.paste world generation = world.setRegion (entry.position generation).1
      (entry.position generation).2 (entry.blended world generation) := by
  unfold paste
  split
  · rename_i bare
    have beyond : world.overlaps (entry.position generation).1 (entry.position generation).2
        entry.cells.height entry.cells.width = false := overlaps_of_isEmpty bare
    rw [setRegion_of_not_overlaps]
    exact beyond
  · rfl

/-- What is written over a covered place. -/
theorem state_blended (entry : Entry) (world : World) {generation x y : Int}
    (covered : entry.CoversAt generation x y) :
    (entry.blended world generation).state (y - (entry.position generation).2).toNat
        (x - (entry.position generation).1).toNat
      = entry.mode.blendCell (world.cell x y) (entry.stateAt generation x y) := by
  obtain ⟨left, right, top, bottom⟩ := covered
  have placed : (y - (entry.position generation).2).toNat < entry.cells.height
      ∧ (x - (entry.position generation).1).toNat < entry.cells.width := by
    omega
  have column : (entry.position generation).1 + ((x - (entry.position generation).1).toNat : Int)
      = x := by
    omega
  have row : (entry.position generation).2 + ((y - (entry.position generation).2).toNat : Int)
      = y := by
    omega
  unfold blended Mode.blend World.region
  rw [Cells.state_ofFn, if_pos placed, Cells.state_ofFn, if_pos placed, column, row]
  rfl

/-- A paste blends the cells that it covers, as far as they lie on the grid, and leaves every
other cell as it is. -/
theorem cell_paste (entry : Entry) (world : World) (generation x y : Int) :
    (entry.paste world generation).cell x y =
      if world.contains x y = true ∧ entry.CoversAt generation x y then
        entry.mode.blendCell (world.cell x y) (entry.stateAt generation x y)
      else world.cell x y := by
  rw [paste_eq, cell_setRegion]
  by_cases covered : entry.CoversAt generation x y
  · rw [state_blended entry world covered]
    rfl
  · rw [if_neg (fun both => covered both.2), if_neg (fun both => covered both.2)]

theorem repainted_paste (entry : Entry) (world : World) (generation : Int) :
    Repainted world (entry.paste world generation) := by
  rw [paste_eq]
  exact repainted_setRegion ..

theorem paste_of_not_reaches {entry : Entry} {world : World} {generation : Int}
    (beyond : entry.reaches world generation = false) : entry.paste world generation = world := by
  rw [paste_eq]
  exact setRegion_of_not_overlaps beyond

theorem counted_paste {entry : Entry} {world : World} {generation : Int}
    (reached : entry.reaches world generation = true) :
    (entry.paste world generation).Counted := by
  rw [paste_eq]
  exact counted_setRegion reached

/-- **A paste changes the cells of its rectangle that lie on the grid, each as its truth table
says, and nothing else.** A population that was right before it is right after it. -/
theorem paste_blends (entry : Entry) (world : World) (generation : Int) :
    (∀ x y, (entry.paste world generation).cell x y =
      if world.contains x y = true ∧ entry.CoversAt generation x y then
        let old := world.cell x y
        let given := entry.stateAt generation x y
        if entry.mode.digit given old = 0 then 0
        else if given ≠ 0 then given else if old ≠ 0 then old else 1
      else world.cell x y)
    ∧ Repainted world (entry.paste world generation)
    ∧ (world.Counted → (entry.paste world generation).Counted) := by
  refine ⟨fun x y => ?_, entry.repainted_paste world generation, fun counted => ?_⟩
  · rw [cell_paste, Mode.blendCell_eq]
  · cases reached : entry.reaches world generation with
    | true => exact counted_paste reached
    | false => rwa [paste_of_not_reaches reached]

/-- An entry that drifts over a corner of a world of odd size, with what it does to some of the
places beside it. -/
theorem paste_blends_corner :
    let world := (World.ofSize 9 (by decide) true).setRegion (-4) (-4)
      (Cells.ofRows [[0, 2, 3], [4, 0, 0]])
    let entry : Entry :=
      { cells := Cells.ofRows [[1, 1, 1], [1, 5, 6], [1, 0, 7]]
        x := -7, y := -5, trigger := .repeating 3 0 (-1), mode := ⟨6⟩, driftX := 1, driftY := 0
        evolve := 0, source := "" }
    world.Counted ∧ entry.position 6 = (-5, -5)
      ∧ (entry.paste world 6).Counted
      ∧ Repainted world (entry.paste world 6)
      ∧ [(-4, -4), (-3, -4), (-4, -3), (-3, -3), (-2, -4), (4, 4)].map
          (fun place : Int × Int => (entry.paste world 6).cell place.1 place.2)
        = [5, 0, 4, 7, 3, 0] := by
  intro world entry
  have counted : world.Counted := counted_setRegion (by decide)
  obtain ⟨cells, repainted, stays⟩ := paste_blends entry world 6
  refine ⟨counted, by decide, stays counted, repainted, ?_⟩
  simp only [List.map_cons, List.map_nil, cells]
  decide

/-! ### Pastes in any order -/

/-- Whether two entries have no place in common at a generation. -/
def ApartAt (generation : Int) (first second : Entry) : Prop :=
  ∀ x y, first.CoversAt generation x y → ¬second.CoversAt generation x y

theorem reaches_paste (entry other : Entry) (world : World) (generation : Int) :
    entry.reaches (other.paste world generation) generation = entry.reaches world generation :=
  (other.repainted_paste world generation).overlaps ..

/-- Entries that have no place in common may be pasted in either order. -/
theorem paste_comm {first second : Entry} {generation : Int}
    (apart : ApartAt generation first second) (world : World) :
    second.paste (first.paste world generation) generation
      = first.paste (second.paste world generation) generation := by
  cases reached : first.reaches world generation with
  | false =>
      rw [paste_of_not_reaches reached,
        paste_of_not_reaches ((reaches_paste first second world generation).trans reached)]
  | true =>
      cases reachedToo : second.reaches world generation with
      | false =>
          rw [paste_of_not_reaches reachedToo,
            paste_of_not_reaches ((reaches_paste second first world generation).trans reachedToo)]
      | true =>
          have sameCells : ∀ x y,
              (second.paste (first.paste world generation) generation).cell x y
                = (first.paste (second.paste world generation) generation).cell x y := by
            intro x y
            rw [cell_paste, cell_paste first world, cell_paste, cell_paste second world,
              (first.repainted_paste world generation).contains,
              (second.repainted_paste world generation).contains]
            by_cases covered : first.CoversAt generation x y
            · simp [apart x y covered]
            · simp [covered]
          have counted := counted_paste
            ((reaches_paste second first world generation).trans reachedToo)
          have countedToo := counted_paste
            ((reaches_paste first second world generation).trans reached)
          exact Repainted.ext
            ((first.repainted_paste world generation).trans (second.repainted_paste ..))
            ((second.repainted_paste world generation).trans (first.repainted_paste ..))
            sameCells (counted.population_eq countedToo sameCells)

end Entry

namespace Schedule

/-- **Entries that have no place in common leave one world, in whatever order they are
pasted.** -/
theorem apply_of_perm {entries others : List Entry} (permuted : entries.Perm others)
    {generation : Int} (apart : (due entries generation).Pairwise (Entry.ApartAt generation))
    (world : World) : apply entries world generation = apply others world generation := by
  -- two places of the list may hold one entry, which changes places with itself
  have commute : ∀ first ∈ due entries generation, ∀ second ∈ due entries generation,
      ∀ current : World, second.paste (first.paste current generation) generation
        = first.paste (second.paste current generation) generation :=
    List.Pairwise.forall_of_forall_of_flip (fun _ _ _ => rfl) (apart.imp Entry.paste_comm)
      (apart.imp fun apart current => (Entry.paste_comm apart current).symm)
  have permutedDue : (due entries generation).Perm (due others generation) := permuted.filter _
  exact permutedDue.foldl_eq' commute world

/-- Three entries of different tables over two edges of a world, the last of them beyond its
corner. -/
theorem apply_of_perm_reversed :
    let world := (World.ofSize 8 (by decide) true).setRegion (-4) (-4)
      (Cells.ofRows [[2, 0, 3], [4, 5, 0]])
    let entry (x y : Int) (mode : Mode) : Entry :=
      { cells := Cells.ofRows [[1, 0], [7, 1]]
        x := x, y := y, trigger := .once 4, mode := mode, driftX := 0, driftY := 0, evolve := 0
        source := "" }
    let entries := [entry (-5) (-4) ⟨6⟩, entry (-3) (-5) ⟨12⟩, entry 4 4 ⟨15⟩]
    entries.Perm entries.reverse
      ∧ (due entries 4).Pairwise (Entry.ApartAt 4)
      ∧ apply entries world 4 = apply entries.reverse world 4
      ∧ (apply entries world 4).population = 2 := by
  intro world entry entries
  have permuted : entries.Perm entries.reverse := entries.reverse_perm.symm
  have covered : ∀ {x y placeX placeY : Int} {mode : Mode},
      (entry x y mode).CoversAt 4 placeX placeY →
        x ≤ placeX ∧ placeX < x + 2 ∧ y ≤ placeY ∧ placeY < y + 2 := by
    intro x y placeX placeY mode covered
    have still : (entry x y mode).position 4 = (x, y) := by simp [Entry.position, entry]
    rw [Entry.CoversAt, still] at covered
    exact covered
  have beside : ∀ {x y otherX otherY : Int} {mode otherMode : Mode},
      x + 2 ≤ otherX ∨ y + 2 ≤ otherY →
        Entry.ApartAt 4 (entry x y mode) (entry otherX otherY otherMode) := by
    intro x y otherX otherY mode otherMode apart placeX placeY here there
    have := covered here
    have := covered there
    omega
  have apart : (due entries 4).Pairwise (Entry.ApartAt 4) := by
    have dueNow : due entries 4 = entries := by decide
    rw [dueNow]
    exact .cons (List.forall_mem_cons.mpr ⟨beside (by decide), List.forall_mem_singleton.mpr
      (beside (by decide))⟩) (.cons (List.forall_mem_singleton.mpr (beside (by decide)))
        (List.pairwise_singleton _ _))
  exact ⟨permuted, apart, apply_of_perm permuted apart world, by decide +kernel⟩

end Schedule

end Showreel.Paste
