import Showreel.Proofs.Pattern.Symmetry
import Showreel.Proofs.Plane.Life
import Showreel.Proofs.World.Extent

/-!
Contract: what is left of a world when all but its bounding box is cut away.

Owns:
- the plane reflected and with rows and columns exchanged, each together with a move of the whole,
  and the smallest rectangle of living cells under both;
- the cells of a world in a rectangle, and its crop;
- that worlds which show the same cells reflected, or with rows and columns exchanged, have crops
  that are turned alike, wherever the cells stand.

Does not own: that life runs alike under them, how such worlds come about, and the symmetries that
are made of the two.
-/

namespace Showreel.Plane

/-- Left and right change places, where columns `x` and `axis - x` correspond, and all is raised. -/
def reflection (axis rise : Int) : Laying where
  source x y := (axis - x, y + rise)
  turned step := (-step.1, step.2)
  turned_perm := by decide
  source_add x y step := by
    simp only [Prod.mk.injEq]
    omega

/-- Rows and columns change places, and all is moved. -/
def exchange (across down : Int) : Laying where
  source x y := (y + across, x + down)
  turned step := (step.2, step.1)
  turned_perm := by decide
  source_add x y step := by
    simp only [Prod.mk.injEq]
    omega

theorem BoundedBy.reflected {plane : Plane} {box : World.Box} (bounded : plane.BoundedBy box)
    (axis rise : Int) :
    (plane.laid (reflection axis rise)).BoundedBy
      ⟨axis - box.right, box.top - rise, axis - box.left, box.bottom - rise⟩ := by
  obtain ⟨within, ⟨leftRow, leftLives⟩, ⟨topColumn, topLives⟩, ⟨rightRow, rightLives⟩,
    ⟨bottomColumn, bottomLives⟩⟩ := bounded
  have there : ∀ {x y : Int}, plane x y = true →
      plane.laid (reflection axis rise) (axis - x) (y - rise) = true := by
    intro x y lives
    change plane (axis - (axis - x)) (y - rise + rise) = true
    rwa [Int.sub_sub_self, Int.sub_add_cancel]
  refine ⟨?within, ⟨_, there rightLives⟩, ⟨_, there topLives⟩, ⟨_, there leftLives⟩,
    ⟨_, there bottomLives⟩⟩
  case within =>
    intro x y lives
    have held := within _ _ lives
    unfold World.Box.Holds reflection at *
    dsimp only at *
    omega

theorem BoundedBy.exchanged {plane : Plane} {box : World.Box} (bounded : plane.BoundedBy box)
    (across down : Int) :
    (plane.laid (exchange across down)).BoundedBy
      ⟨box.top - down, box.left - across, box.bottom - down, box.right - across⟩ := by
  obtain ⟨within, ⟨leftRow, leftLives⟩, ⟨topColumn, topLives⟩, ⟨rightRow, rightLives⟩,
    ⟨bottomColumn, bottomLives⟩⟩ := bounded
  have there : ∀ {x y : Int}, plane x y = true →
      plane.laid (exchange across down) (y - down) (x - across) = true := by
    intro x y lives
    change plane (x - across + across) (y - down + down) = true
    rwa [Int.sub_add_cancel, Int.sub_add_cancel]
  refine ⟨?within, ⟨_, there topLives⟩, ⟨_, there leftLives⟩, ⟨_, there bottomLives⟩,
    ⟨_, there rightLives⟩⟩
  case within =>
    intro x y lives
    have held := within _ _ lives
    unfold World.Box.Holds exchange at *
    dsimp only at *
    omega

end Showreel.Plane

namespace Showreel.World

open Pattern

/-- The cells in a rectangle. -/
def cut (world : World) (box : Box) : Cells :=
  world.region box.left box.top (box.bottom - box.top + 1).toNat (box.right - box.left + 1).toNat

/-- The cells in the bounding box, and none if there is no such box. -/
def crop (world : World) : Cells :=
  world.boundingBox.elim Cells.empty world.cut

variable {world other : World}

theorem crop_of_boundedBy {box : Box} (bounded : world.living.BoundedBy box) :
    world.crop = world.cut box := by
  unfold crop
  rw [boundingBox_eq_some_iff.mpr bounded]
  rfl

theorem crop_of_dead (dead : ∀ x y, world.living x y = false) : world.crop = Cells.empty := by
  unfold crop
  rw [boundingBox_eq_none_iff.mpr dead]
  rfl

/-- A world that shows another one laid onto itself has its crop turned, if the rectangles are. -/
theorem crop_of_laid (laying : Plane.Laying) {symmetry : Symmetry}
    (shown : ∀ x y, other.cell x y = world.cell (laying.source x y).1 (laying.source x y).2)
    (turned : ∀ box, world.living.BoundedBy box → ∃ image,
      (world.living.laid laying).BoundedBy image
        ∧ other.cut image = symmetry.apply (world.cut box)) :
    other.crop = symmetry.apply world.crop := by
  have laid : other.living = world.living.laid laying := by
    funext x y
    unfold living
    rw [shown]
    rfl
  cases found : world.boundingBox with
  | none =>
      have dead := boundingBox_eq_none_iff.mp found
      have deadToo : ∀ x y, other.living x y = false := by
        intro x y
        rw [laid]
        exact dead _ _
      rw [crop_of_dead dead, crop_of_dead deadToo]
      cases symmetry <;> rfl
  | some box =>
      have bounded := boundingBox_eq_some_iff.mp found
      obtain ⟨image, boundedToo, alike⟩ := turned box bounded
      rw [← laid] at boundedToo
      rw [crop_of_boundedBy bounded, crop_of_boundedBy boundedToo, alike]

/-! ### The two generators -/

/-- The states of a region, read from its corner. -/
theorem state_region (world : World) (x y : Int) {height width row column : Nat}
    (rowInside : row < height) (columnInside : column < width) :
    (world.region x y height width).state row column = world.cell (x + column) (y + row) :=
  (Cells.state_ofFn ..).trans (if_pos ⟨rowInside, columnInside⟩)

theorem region_reflected {axis rise : Int}
    (shown : ∀ x y, other.cell x y = world.cell (axis - x) (y + rise))
    (x y : Int) (height width : Nat) :
    other.region (axis - (x + width - 1)) (y - rise) height width
      = Symmetry.flipX.apply (world.region x y height width) := by
  refine Cells.ext_state rfl rfl fun row column rowInside columnInside => ?_
  have inRow : row < height := rowInside
  have inColumn : column < width := columnInside
  have source : width - 1 - column < width := by omega
  have sourceX : axis - (axis - (x + width - 1) + column) = x + (width - 1 - column : Nat) := by
    omega
  have sourceY : y - rise + row + rise = y + row := by omega
  rw [state_region other _ _ inRow inColumn, shown, sourceX, sourceY,
    Symmetry.state_apply Symmetry.flipX _ rowInside columnInside]
  exact (state_region world x y inRow source).symm

theorem region_exchanged {across down : Int}
    (shown : ∀ x y, other.cell x y = world.cell (y + across) (x + down))
    (x y : Int) (height width : Nat) :
    other.region (y - down) (x - across) width height
      = Symmetry.swapXY.apply (world.region x y height width) := by
  refine Cells.ext_state rfl rfl fun row column rowInside columnInside => ?_
  have inRow : row < width := rowInside
  have inColumn : column < height := columnInside
  have sourceX : x - across + row + across = x + row := by omega
  have sourceY : y - down + column + down = y + column := by omega
  rw [state_region other _ _ inRow inColumn, shown, sourceX, sourceY,
    Symmetry.state_apply Symmetry.swapXY _ rowInside columnInside]
  exact (state_region world x y inColumn inRow).symm

/-- A world that shows another one reflected from left to right has its crop reflected. -/
theorem crop_reflected {axis rise : Int}
    (shown : ∀ x y, other.cell x y = world.cell (axis - x) (y + rise)) :
    other.crop = Symmetry.flipX.apply world.crop := by
  refine crop_of_laid (Plane.reflection axis rise) shown fun box bounded =>
    ⟨_, bounded.reflected axis rise, ?_⟩
  have ordered : box.left ≤ box.right := by
    obtain ⟨y, lives⟩ := bounded.left_touched
    exact (bounded.within _ _ lives).2.1
  have corner : axis - box.right
      = axis - (box.left + (box.right - box.left + 1).toNat - 1) := by
    omega
  have height : box.bottom - rise - (box.top - rise) = box.bottom - box.top := by omega
  have width : axis - box.left - (axis - box.right) = box.right - box.left := by omega
  unfold cut
  rw [← region_reflected shown, height, width, corner]

/-- A world that shows another one with rows and columns exchanged has them exchanged in its
crop. -/
theorem crop_exchanged {across down : Int}
    (shown : ∀ x y, other.cell x y = world.cell (y + across) (x + down)) :
    other.crop = Symmetry.swapXY.apply world.crop := by
  refine crop_of_laid (Plane.exchange across down) shown fun box bounded =>
    ⟨_, bounded.exchanged across down, ?_⟩
  have height : box.right - across - (box.left - across) = box.right - box.left := by omega
  have width : box.bottom - down - (box.top - down) = box.bottom - box.top := by omega
  unfold cut
  rw [← region_exchanged shown, height, width]

end Showreel.World
