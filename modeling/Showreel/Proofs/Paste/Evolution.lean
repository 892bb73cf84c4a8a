import Showreel.Paste.Entry
import Showreel.Proofs.World.Crop

/-!
Contract: cells that are run forward, against life on the unbounded plane.

Owns:
- when a world shows a plane, and that steps keep it so as long as the living cells stay on
  the grid;
- that the scratch world has room for every generation that is run;
- what running cells forward returns, in terms of the plane alone;
- the states that turned cells have after a number of generations, and that cells may be turned
  before they are run forward or after it.

Does not own: where an entry with evolved or turned cells is pasted.
-/

namespace Showreel

open Pattern

namespace World

/-- The grid reaches over a rectangle of a plane whose origin stands at `(left, top)`. -/
def Reaches (world : World) (box : Box) (left top : Int) : Prop :=
  ∀ x y, box.Holds x y → world.contains (x + left) (y + top) = true

/-- With dead edges a step shows the next generation of a plane, if the living cells of that
generation are on the grid. -/
theorem cell_step_of_living {world : World} {plane : Plane} {left top : Int} {box : Box}
    (walled : world.wraps = false) (shown : world.living = plane.shifted left top)
    (within : plane.next.Within box) (reached : world.Reaches box left top)
    (record : StepRecord) (x y : Int) :
    (world.step record).cell x y = if plane.next.shifted left top x y then 1 else 0 := by
  cases inside : world.contains x y with
  | true =>
      rw [cell_step walled record inside, shown, Plane.next_shifted]
  | false =>
      have stays : plane.next.shifted left top x y = false := by
        apply Bool.eq_false_iff.mpr
        intro lives
        have held := reached _ _ (within _ _ lives)
        rw [Int.sub_add_cancel, Int.sub_add_cancel, inside] at held
        exact Bool.false_ne_true held
      have outside : (world.step record).contains x y = false := inside
      rw [cell_of_not_contains outside, stays]
      rfl

end World

namespace Paste

theorem runForward_succ (world : World) (count : Nat) :
    runForward world (count + 1) = (runForward world count).step .none := by
  induction count generalizing world with
  | zero => rfl
  | succ count inductionHypothesis => exact inductionHypothesis (world.step .none)

theorem wraps_runForward (world : World) (count : Nat) :
    (runForward world count).wraps = world.wraps := by
  induction count with
  | zero => rfl
  | succ count inductionHypothesis =>
      rw [runForward_succ]
      exact inductionHypothesis

theorem contains_runForward (world : World) (count : Nat) (x y : Int) :
    (runForward world count).contains x y = world.contains x y := by
  induction count with
  | zero => rfl
  | succ count inductionHypothesis =>
      rw [runForward_succ]
      exact inductionHypothesis

/-- The states after a number of generations: at the beginning those of the block, then one at
each living cell. -/
def stateAfter (cells : Cells) (generations : Nat) (x y : Int) : UInt8 :=
  if generations = 0 then (if 0 ≤ x ∧ 0 ≤ y then cells.state y.toNat x.toNat else 0)
  else if (Plane.ofCells cells).after generations x y then 1 else 0

theorem stateAfter_ne_zero (cells : Cells) (generations : Nat) (x y : Int) :
    (stateAfter cells generations x y != 0) = (Plane.ofCells cells).after generations x y := by
  unfold stateAfter
  cases generations with
  | zero =>
      rw [if_pos rfl]
      change _ = Plane.ofCells cells x y
      unfold Plane.ofCells
      split
      case isTrue inside => rw [decide_eq_true inside, Bool.true_and]
      case isFalse outside =>
        rw [decide_eq_false outside]
        rfl
  | succ count =>
      rw [if_neg (Nat.succ_ne_zero count)]
      split
      case isTrue lives =>
        rw [lives]
        rfl
      case isFalse dead =>
        rw [Bool.not_eq_true] at dead
        rw [dead]
        rfl

theorem stateAfter_zero_of_outside {cells : Cells} {x y : Int} (outside : ¬ cells.frame.Holds x y) :
    stateAfter cells 0 x y = 0 := by
  apply Decidable.byContradiction
  intro lives
  rw [← ne_eq, ← bne_iff_ne, stateAfter_ne_zero] at lives
  exact outside (Plane.within_ofCells cells x y lives)

/-- A world with the states of a generation shows the plane of that generation. -/
private theorem living_eq_shifted {world : World} {cells : Cells} {generations : Nat}
    {left top : Int}
    (shown : ∀ x y, world.cell x y = stateAfter cells generations (x - left) (y - top)) :
    world.living = ((Plane.ofCells cells).after generations).shifted left top := by
  funext x y
  unfold World.living
  rw [shown, stateAfter_ne_zero]
  rfl

/-- A world with dead edges that has a block of cells at `(left, top)` runs as the plane does, as
long as its grid reaches over all cells that can be alive. -/
theorem cell_runForward {world : World} {cells : Cells} {left top : Int}
    (walled : world.wraps = false)
    (placed : ∀ x y, world.cell x y = stateAfter cells 0 (x - left) (y - top))
    (count : Nat)
    (reached : world.Reaches (cells.frame.widened count) left top)
    (x y : Int) :
    (runForward world count).cell x y = stateAfter cells count (x - left) (y - top) := by
  induction count generalizing x y with
  | zero => exact placed x y
  | succ count inductionHypothesis =>
      have narrower : world.Reaches (cells.frame.widened count) left top := by
        intro placeX placeY held
        apply reached
        unfold World.Box.Holds World.Box.widened at held ⊢
        dsimp only at held ⊢
        omega
      have shown := living_eq_shifted (inductionHypothesis narrower)
      have within := (Plane.within_ofCells cells).after (count + 1)
      have reachedThen : (runForward world count).Reaches
          (cells.frame.widened (count + 1 : Nat)) left top := by
        intro placeX placeY held
        rw [contains_runForward]
        exact reached placeX placeY held
      rw [runForward_succ, World.cell_step_of_living ((wraps_runForward world count).trans walled)
        shown within reachedThen]
      rfl

/-- The region of a bounding box and its place, seen from a plane whose origin stands at
`(left, top)`. -/
private theorem evolved_of_box {world : World} {left top : Int} {states : Int → Int → UInt8}
    (box : World.Box) (shown : ∀ x y, world.cell x y = states (x - left) (y - top)) :
    (⟨world.region box.left box.top (box.bottom - box.top + 1).toNat
        (box.right - box.left + 1).toNat, box.left - left, box.top - top⟩ : Evolved) =
      let moved := box.moved (-left) (-top)
      { cells := Cells.ofFn (moved.bottom - moved.top + 1).toNat
          (moved.right - moved.left + 1).toNat
          fun row column => states (moved.left + column) (moved.top + row)
        shiftX := moved.left
        shiftY := moved.top } := by
  have height : box.bottom + -top - (box.top + -top) = box.bottom - box.top := by omega
  have width : box.right + -left - (box.left + -left) = box.right - box.left := by omega
  have alike : ∀ row column : Nat, world.cell (box.left + column) (box.top + row)
      = states (box.left + -left + column) (box.top + -top + row) := by
    intro row column
    rw [shown]
    congr 1 <;> omega
  unfold World.region World.Box.moved
  dsimp only
  rw [height, width]
  simp only [alike]
  rfl

/-- The place of the first of a number of rows or columns that stand around the origin. -/
private def corner (count : Nat) : Int :=
  -(count / 2 : Nat)

/-- The world on which cells are run forward, before its first step. -/
private def scratchWorld (cells : Cells) (generations : Nat) : World :=
  (World.ofSize (scratchSize cells generations) (scratchSize_ge cells generations) false).setRegion
    (corner cells.width) (corner cells.height) cells

/-- The margin of the scratch world is as wide as living cells can come in time. -/
private theorem reaches_scratchWorld (cells : Cells) (generations : Nat) :
    (scratchWorld cells generations).Reaches (cells.frame.widened generations)
      (corner cells.width) (corner cells.height) := by
  intro x y held
  unfold scratchWorld
  rw [World.contains_setRegion, World.contains_iff]
  unfold World.Box.Holds World.Box.widened Cells.frame at held
  unfold World.half World.ofSize scratchSize corner
  dsimp only at held ⊢
  omega

private theorem cell_scratchWorld (cells : Cells) (generations : Nat) (x y : Int) :
    (scratchWorld cells generations).cell x y =
      stateAfter cells 0 (x - corner cells.width) (y - corner cells.height) := by
  have onGrid : ∀ placeX placeY, cells.frame.Holds placeX placeY →
      (scratchWorld cells generations).contains (placeX + corner cells.width)
        (placeY + corner cells.height) = true := by
    intro placeX placeY held
    apply reaches_scratchWorld
    unfold World.Box.Holds World.Box.widened at *
    dsimp only
    omega
  have written := World.cell_setRegion (World.ofSize (scratchSize cells generations)
    (scratchSize_ge cells generations) false) (corner cells.width) (corner cells.height) cells x y
  unfold scratchWorld
  rw [written, World.cell_ofSize]
  split
  case isTrue covered =>
    obtain ⟨_, left, _, top, _⟩ := covered
    unfold stateAfter
    rw [if_pos rfl, if_pos (by omega)]
  case isFalse uncovered =>
    symm
    apply stateAfter_zero_of_outside
    intro held
    have inside := onGrid _ _ held
    rw [Int.sub_add_cancel, Int.sub_add_cancel] at inside
    unfold scratchWorld at inside
    rw [World.contains_setRegion] at inside
    apply uncovered
    refine ⟨inside, ?_⟩
    unfold World.Box.Holds Cells.frame at held
    unfold World.Covers
    dsimp only at held
    omega

/-- The world in which cells were run forward. -/
private def ran (cells : Cells) (generations : Nat) : World :=
  runForward (scratchWorld cells generations) generations

private theorem cell_ran (cells : Cells) (generations : Nat) (x y : Int) :
    (ran cells generations).cell x y =
      stateAfter cells generations (x - corner cells.width) (y - corner cells.height) := by
  have walled : (scratchWorld cells generations).wraps = false := World.wraps_setRegion ..
  exact cell_runForward walled (cell_scratchWorld cells generations) generations
    (reaches_scratchWorld cells generations) x y

private theorem living_ran (cells : Cells) (generations : Nat) :
    (ran cells generations).living = ((Plane.ofCells cells).after generations).shifted
      (corner cells.width) (corner cells.height) :=
  living_eq_shifted (cell_ran cells generations)

private theorem evolveCells_eq (cells : Cells) (generations : Nat) :
    evolveCells cells generations =
      match (ran cells generations).boundingBox with
      | none => ⟨Cells.empty, 0, 0⟩
      | some box =>
          { cells := (ran cells generations).region box.left box.top
              (box.bottom - box.top + 1).toNat (box.right - box.left + 1).toNat
            shiftX := box.left - corner cells.width
            shiftY := box.top - corner cells.height } :=
  rfl

/-- What is left of cells that were run forward is the crop of a world that shows them. -/
theorem evolveCells_eq_crop (cells : Cells) (generations : Nat) :
    ∃ (world : World) (left top : Int),
      (∀ x y, world.cell x y = stateAfter cells generations (x - left) (y - top))
        ∧ (evolveCells cells generations).cells = world.crop := by
  refine ⟨ran cells generations, _, _, cell_ran cells generations, ?_⟩
  rw [evolveCells_eq]
  unfold World.crop
  split
  case h_1 missing =>
    rw [missing]
    rfl
  case h_2 found =>
    rw [found]
    rfl

/-- Running cells forward is life on the unbounded plane. If all cells are dead in the end,
nothing is left; otherwise what is left is the smallest rectangle with all living cells, and
the shift is its place beside the cells that were given. -/
theorem evolveCells_eq_life (cells : Cells) (generations : Nat) :
    ((∀ x y, (Plane.ofCells cells).after generations x y = false)
        ∧ evolveCells cells generations = ⟨Cells.empty, 0, 0⟩)
      ∨ ∃ box : World.Box, ((Plane.ofCells cells).after generations).BoundedBy box
        ∧ evolveCells cells generations =
          { cells := Cells.ofFn (box.bottom - box.top + 1).toNat (box.right - box.left + 1).toNat
              fun row column => stateAfter cells generations (box.left + column) (box.top + row)
            shiftX := box.left
            shiftY := box.top } := by
  have returned := evolveCells_eq cells generations
  cases found : (ran cells generations).boundingBox with
  | none =>
      left
      rw [found] at returned
      refine ⟨?_, returned⟩
      intro x y
      have dead := World.dead_of_boundingBox found (x + corner cells.width)
        (y + corner cells.height)
      rw [living_ran] at dead
      unfold Plane.shifted at dead
      rwa [Int.add_sub_cancel, Int.add_sub_cancel] at dead
  | some box =>
      right
      rw [found] at returned
      have bounded := World.boundedBy_boundingBox found
      rw [living_ran] at bounded
      refine ⟨box.moved (-corner cells.width) (-corner cells.height), bounded.of_shifted, ?_⟩
      rw [returned]
      exact evolved_of_box box (cell_ran cells generations)

/-- Three cells in a row are three in a column a generation later, one to the right and one up. -/
example : evolveCells (Cells.ofFn 1 3 fun _ _ => 1) 1 = ⟨Cells.ofFn 3 1 fun _ _ => 1, 1, -1⟩ := by
  decide +kernel

/-! ### Turned cells at the beginning -/

theorem stateAfter_zero_of_inside (cells : Cells) (row column : Nat) :
    stateAfter cells 0 column row = cells.state row column := by
  unfold stateAfter
  rw [if_pos rfl, if_pos (by omega), Int.toNat_natCast, Int.toNat_natCast]

/-- A place in the frame of a block is a row and a column. -/
theorem exists_of_frame {cells : Cells} {x y : Int} (held : cells.frame.Holds x y) :
    ∃ row column : Nat, row < cells.height ∧ column < cells.width ∧ x = column ∧ y = row := by
  unfold World.Box.Holds Cells.frame at held
  dsimp only at held
  exact ⟨y.toNat, x.toNat, by omega, by omega, by omega, by omega⟩

/-- Cells that stand as others do on a plane laid onto itself keep standing so. -/
theorem stateAfter_laid {cells turned : Cells} (laying : Plane.Laying)
    (begins : ∀ x y, stateAfter turned 0 x y
      = stateAfter cells 0 (laying.source x y).1 (laying.source x y).2)
    (generations : Nat) (x y : Int) :
    stateAfter turned generations x y
      = stateAfter cells generations (laying.source x y).1 (laying.source x y).2 := by
  have plane : Plane.ofCells turned = (Plane.ofCells cells).laid laying := by
    funext placeX placeY
    have here := stateAfter_ne_zero turned 0 placeX placeY
    have there := stateAfter_ne_zero cells 0 (laying.source placeX placeY).1
      (laying.source placeX placeY).2
    rw [begins] at here
    exact here.symm.trans there
  cases generations with
  | zero => exact begins x y
  | succ count =>
      unfold stateAfter
      rw [plane, Plane.after_laid]
      rfl

/-! ### The two generators -/

theorem stateAfter_flipX (cells : Cells) (generations : Nat) (x y : Int) :
    stateAfter (Symmetry.flipX.apply cells) generations x y
      = stateAfter cells generations (cells.width - 1 - x) y := by
  have begins : ∀ x y, stateAfter (Symmetry.flipX.apply cells) 0 x y
      = stateAfter cells 0 (cells.width - 1 - x) (y + 0) := by
    intro x y
    rw [Int.add_zero]
    by_cases held : (Symmetry.flipX.apply cells).frame.Holds x y
    · obtain ⟨row, column, rowInside, columnInside, rfl, rfl⟩ := exists_of_frame held
      have columnBelow : column < cells.width := columnInside
      have source : (cells.width : Int) - 1 - column = (cells.width - 1 - column : Nat) := by omega
      rw [stateAfter_zero_of_inside, source, stateAfter_zero_of_inside]
      exact Symmetry.state_apply Symmetry.flipX cells rowInside columnInside
    · have beyond : ¬ cells.frame.Holds (cells.width - 1 - x) y := by
        intro heldThere
        apply held
        change cells.frame.Holds x y
        unfold World.Box.Holds Cells.frame at *
        dsimp only at *
        omega
      rw [stateAfter_zero_of_outside held, stateAfter_zero_of_outside beyond]
  have reflected := stateAfter_laid (Plane.reflection (cells.width - 1) 0) begins generations x y
  change _ = stateAfter cells generations (cells.width - 1 - x) (y + 0) at reflected
  rwa [Int.add_zero] at reflected

theorem stateAfter_swapXY (cells : Cells) (generations : Nat) (x y : Int) :
    stateAfter (Symmetry.swapXY.apply cells) generations x y
      = stateAfter cells generations y x := by
  have begins : ∀ x y, stateAfter (Symmetry.swapXY.apply cells) 0 x y
      = stateAfter cells 0 (y + 0) (x + 0) := by
    intro x y
    rw [Int.add_zero, Int.add_zero]
    by_cases held : (Symmetry.swapXY.apply cells).frame.Holds x y
    · obtain ⟨row, column, rowInside, columnInside, rfl, rfl⟩ := exists_of_frame held
      rw [stateAfter_zero_of_inside, stateAfter_zero_of_inside]
      exact Symmetry.state_apply Symmetry.swapXY cells rowInside columnInside
    · have beyond : ¬ cells.frame.Holds y x := fun heldThere =>
        held ⟨heldThere.2.2.1, heldThere.2.2.2, heldThere.1, heldThere.2.1⟩
      rw [stateAfter_zero_of_outside held, stateAfter_zero_of_outside beyond]
  have exchanged := stateAfter_laid (Plane.exchange 0 0) begins generations x y
  change _ = stateAfter cells generations (y + 0) (x + 0) at exchanged
  rwa [Int.add_zero, Int.add_zero] at exchanged

theorem cells_evolveCells_flipX (cells : Cells) (generations : Nat) :
    (evolveCells (Symmetry.flipX.apply cells) generations).cells
      = Symmetry.flipX.apply (evolveCells cells generations).cells := by
  obtain ⟨world, left, top, shown, cropped⟩ := evolveCells_eq_crop cells generations
  obtain ⟨other, otherLeft, otherTop, shownToo, croppedToo⟩ :=
    evolveCells_eq_crop (Symmetry.flipX.apply cells) generations
  have reflected : ∀ x y, other.cell x y
      = world.cell (cells.width - 1 + otherLeft + left - x) (y + (top - otherTop)) := by
    intro x y
    rw [shown, shownToo, stateAfter_flipX]
    congr 1 <;> omega
  rw [cropped, croppedToo, World.crop_reflected reflected]

theorem cells_evolveCells_swapXY (cells : Cells) (generations : Nat) :
    (evolveCells (Symmetry.swapXY.apply cells) generations).cells
      = Symmetry.swapXY.apply (evolveCells cells generations).cells := by
  obtain ⟨world, left, top, shown, cropped⟩ := evolveCells_eq_crop cells generations
  obtain ⟨other, otherLeft, otherTop, shownToo, croppedToo⟩ :=
    evolveCells_eq_crop (Symmetry.swapXY.apply cells) generations
  have exchanged : ∀ x y, other.cell x y
      = world.cell (y + (left - otherTop)) (x + (top - otherLeft)) := by
    intro x y
    rw [shown, shownToo, stateAfter_swapXY]
    congr 1 <;> omega
  rw [cropped, croppedToo, World.crop_exchanged exchanged]

/-- **Cells may be turned before they are run forward or after it**, by any of the eight symmetries,
for any number of generations. -/
theorem cells_evolveCells_apply (symmetry : Symmetry) (cells : Cells) (generations : Nat) :
    (evolveCells (symmetry.apply cells) generations).cells
      = symmetry.apply (evolveCells cells generations).cells := by
  induction symmetry using Symmetry.induction_on_generators generalizing cells with
  | reflected => exact cells_evolveCells_flipX cells generations
  | exchanged => exact cells_evolveCells_swapXY cells generations
  | composed first second =>
      rw [← Symmetry.apply_apply, second, first, Symmetry.apply_apply]

end Paste

end Showreel
