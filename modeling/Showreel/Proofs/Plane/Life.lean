import Showreel.World.Basic

/-!
Contract: life on the unbounded plane.

Owns:
- the plane, its rule of life, and the plane after a number of generations;
- the plane on which a block of cells stands alone;
- that the rule is the same wherever and whichever way the plane is laid onto itself;
- rectangles that hold every living cell, the smallest of them, and how fast they grow.

Does not own: worlds, which are bounded.
-/

namespace Showreel

open Pattern

/-- Which cells of the unbounded plane live, by column and row. -/
def Plane : Type :=
  Int → Int → Bool

namespace Plane

/-- The steps from a cell to its eight neighbours. -/
def neighbourSteps : List (Int × Int) :=
  [(-1, -1), (0, -1), (1, -1), (-1, 0), (1, 0), (-1, 1), (0, 1), (1, 1)]

/-- The number of living neighbours. -/
def neighbours (plane : Plane) (x y : Int) : Nat :=
  neighbourSteps.countP fun step => plane (x + step.1) (y + step.2)

/-- One generation: a cell lives on with two or three living neighbours, and is born with
three. -/
def next (plane : Plane) : Plane := fun x y =>
  if plane x y then plane.neighbours x y == 2 || plane.neighbours x y == 3
  else plane.neighbours x y == 3

def after (plane : Plane) : Nat → Plane
  | 0 => plane
  | generations + 1 => (plane.after generations).next

/-- The plane with nothing but a block of cells, its top left corner at the origin. -/
def ofCells (cells : Cells) : Plane := fun x y =>
  decide (0 ≤ x ∧ 0 ≤ y) && cells.state y.toNat x.toNat != 0

/-- The plane with its origin moved to `(left, top)`. -/
def shifted (plane : Plane) (left top : Int) : Plane := fun x y =>
  plane (x - left) (y - top)

/-! ### The plane laid onto itself -/

/-- A laying of the plane onto itself: which place comes to stand at each, and which step from
there a step becomes. -/
structure Laying where
  source : Int → Int → Int × Int
  turned : Int × Int → Int × Int
  turned_perm : (neighbourSteps.map turned).Perm neighbourSteps
  source_add : ∀ (x y : Int) (step : Int × Int),
    source (x + step.1) (y + step.2)
      = ((source x y).1 + (turned step).1, (source x y).2 + (turned step).2)

def laid (plane : Plane) (laying : Laying) : Plane := fun x y =>
  plane (laying.source x y).1 (laying.source x y).2

theorem neighbours_laid (plane : Plane) (laying : Laying) (x y : Int) :
    (plane.laid laying).neighbours x y
      = plane.neighbours (laying.source x y).1 (laying.source x y).2 := by
  have reordered := laying.turned_perm.countP_eq fun step =>
    plane ((laying.source x y).1 + step.1) ((laying.source x y).2 + step.2)
  unfold neighbours
  rw [← reordered, List.countP_map]
  refine List.countP_congr fun step _ => ?_
  unfold laid
  rw [laying.source_add]
  rfl

/-- The rule is the same everywhere and in every direction. -/
theorem next_laid (plane : Plane) (laying : Laying) :
    (plane.laid laying).next = plane.next.laid laying := by
  funext x y
  have here : plane.laid laying x y = plane (laying.source x y).1 (laying.source x y).2 := rfl
  have stepped : plane.next.laid laying x y
      = plane.next (laying.source x y).1 (laying.source x y).2 := rfl
  rw [stepped]
  unfold next
  rw [neighbours_laid, here]

/-- Life on a plane that was laid onto itself is life on the plane, laid onto itself. -/
theorem after_laid (plane : Plane) (laying : Laying) (generations : Nat) :
    (plane.laid laying).after generations = (plane.after generations).laid laying := by
  induction generations with
  | zero => rfl
  | succ generations inductionHypothesis =>
      unfold after
      rw [inductionHypothesis, next_laid]

def translation (left top : Int) : Laying where
  source x y := (x - left, y - top)
  turned step := step
  turned_perm := .refl _
  source_add x y step := by
    simp only [Prod.mk.injEq]
    omega

theorem next_shifted (plane : Plane) (left top : Int) :
    (plane.shifted left top).next = plane.next.shifted left top :=
  next_laid plane (translation left top)

end Plane

/-! ### Rectangles that hold the living cells -/

/-- Whether a place lies in a rectangle, its edges included. -/
def World.Box.Holds (box : World.Box) (x y : Int) : Prop :=
  box.left ≤ x ∧ x ≤ box.right ∧ box.top ≤ y ∧ y ≤ box.bottom

/-- The rectangle with a margin on each side. -/
def World.Box.widened (box : World.Box) (margin : Int) : World.Box where
  left := box.left - margin
  top := box.top - margin
  right := box.right + margin
  bottom := box.bottom + margin

/-- The rectangle with its corner moved. -/
def World.Box.moved (box : World.Box) (byX byY : Int) : World.Box where
  left := box.left + byX
  top := box.top + byY
  right := box.right + byX
  bottom := box.bottom + byY

/-- The rectangle of a block of cells with its top left corner at the origin. -/
def Pattern.Cells.frame (cells : Cells) : World.Box where
  left := 0
  top := 0
  right := cells.width - 1
  bottom := cells.height - 1

namespace Plane

/-- Every living cell lies in the rectangle. -/
def Within (plane : Plane) (box : World.Box) : Prop :=
  ∀ x y, plane x y = true → box.Holds x y

/-- The rectangle holds every living cell, and there is one on each of its edges. -/
structure BoundedBy (plane : Plane) (box : World.Box) : Prop where
  within : plane.Within box
  left_touched : ∃ y, plane box.left y = true
  top_touched : ∃ x, plane x box.top = true
  right_touched : ∃ y, plane box.right y = true
  bottom_touched : ∃ x, plane x box.bottom = true

/-- There is only one smallest rectangle. -/
theorem BoundedBy.unique {plane : Plane} {box other : World.Box} (smallest : plane.BoundedBy box)
    (alike : plane.BoundedBy other) : box = other := by
  have closed : ∀ {first second : World.Box}, plane.BoundedBy first → plane.Within second →
      second.left ≤ first.left ∧ second.top ≤ first.top
        ∧ first.right ≤ second.right ∧ first.bottom ≤ second.bottom := by
    intro first second bounded within
    obtain ⟨leftRow, leftLives⟩ := bounded.left_touched
    obtain ⟨topColumn, topLives⟩ := bounded.top_touched
    obtain ⟨rightRow, rightLives⟩ := bounded.right_touched
    obtain ⟨bottomColumn, bottomLives⟩ := bounded.bottom_touched
    exact ⟨(within _ _ leftLives).1, (within _ _ topLives).2.2.1, (within _ _ rightLives).2.1,
      (within _ _ bottomLives).2.2.2⟩
  have outer := closed smallest alike.within
  have inner := closed alike smallest.within
  cases box
  cases other
  dsimp only at outer inner
  simp only [World.Box.mk.injEq]
  omega

/-- The smallest rectangle moves with the plane. -/
theorem BoundedBy.of_shifted {plane : Plane} {left top : Int} {box : World.Box}
    (bounded : (plane.shifted left top).BoundedBy box) :
    plane.BoundedBy (box.moved (-left) (-top)) := by
  obtain ⟨within, ⟨leftRow, leftLives⟩, ⟨topColumn, topLives⟩, ⟨rightRow, rightLives⟩,
    ⟨bottomColumn, bottomLives⟩⟩ := bounded
  refine ⟨?within, ⟨leftRow - top, leftLives⟩, ⟨topColumn - left, topLives⟩,
    ⟨rightRow - top, rightLives⟩, ⟨bottomColumn - left, bottomLives⟩⟩
  case within =>
    intro x y lives
    have there : plane.shifted left top (x + left) (y + top) = true := by
      unfold shifted
      rwa [Int.add_sub_cancel, Int.add_sub_cancel]
    have held := within _ _ there
    unfold World.Box.Holds World.Box.moved at *
    dsimp only
    omega

theorem within_ofCells (cells : Cells) : (ofCells cells).Within cells.frame := by
  intro x y lives
  unfold ofCells at lives
  rw [Bool.and_eq_true, decide_eq_true_eq] at lives
  obtain ⟨nonneg, lives⟩ := lives
  have inside := Cells.inside_of_state (bne_iff_ne.mp lives)
  unfold World.Box.Holds Cells.frame
  dsimp only
  omega

/-- Without a living cell around it a cell stays dead. -/
theorem next_eq_false {plane : Plane} {x y : Int}
    (deadAround : ∀ stepX stepY : Int, -1 ≤ stepX → stepX ≤ 1 → -1 ≤ stepY → stepY ≤ 1 →
      plane (x + stepX) (y + stepY) = false) :
    plane.next x y = false := by
  have dead : plane x y = false := by
    have here := deadAround 0 0 (by omega) (by omega) (by omega) (by omega)
    rwa [Int.add_zero, Int.add_zero] at here
  have alone : plane.neighbours x y = 0 := by
    unfold neighbours
    rw [List.countP_eq_zero]
    intro step listed
    have near : -1 ≤ step.1 ∧ step.1 ≤ 1 ∧ -1 ≤ step.2 ∧ step.2 ≤ 1 := by
      revert step
      decide
    rw [deadAround step.1 step.2 near.1 near.2.1 near.2.2.1 near.2.2.2]
    exact Bool.false_ne_true
  unfold next
  rw [dead, alone]
  rfl

/-- Living cells spread by at most one cell a generation. -/
theorem Within.next {plane : Plane} {box : World.Box} (within : plane.Within box) :
    plane.next.Within (box.widened 1) := by
  intro x y lives
  apply Classical.byContradiction
  intro outside
  have stays : plane.next x y = false := by
    apply next_eq_false
    intro stepX stepY leftNear rightNear topNear bottomNear
    cases there : plane (x + stepX) (y + stepY) with
    | false => rfl
    | true =>
        have held := within _ _ there
        unfold World.Box.Holds at held
        unfold World.Box.Holds World.Box.widened at outside
        dsimp only at outside
        omega
  rw [stays] at lives
  exact Bool.false_ne_true lives

theorem Within.after {plane : Plane} {box : World.Box} (within : plane.Within box)
    (generations : Nat) : (plane.after generations).Within (box.widened generations) := by
  induction generations with
  | zero => simpa [World.Box.widened, Plane.after] using within
  | succ generations inductionHypothesis =>
      have grown := inductionHypothesis.next
      have margin : (box.widened generations).widened 1 = box.widened (generations + 1 : Nat) := by
        unfold World.Box.widened
        simp only [World.Box.mk.injEq]
        omega
      rwa [margin] at grown

end Plane

end Showreel
