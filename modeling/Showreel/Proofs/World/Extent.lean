import Showreel.Proofs.World.Living

/-!
Contract: the bounding box of a world.

Owns:
- that the extent of a test is the first and the last place that passes it;
- that the bounding box is the smallest rectangle with all living cells, and missing exactly
  when no cell lives.

Does not own: what the box is used for.
-/

namespace Showreel.World

open Pattern

/-! ### The extent of a test -/

theorem extent_eq_none {count : Nat} {passes : Nat → Bool} (missing : extent count passes = none)
    {place : Nat} (inside : place < count) : passes place = false := by
  unfold extent at missing
  cases found : (List.range count).filter passes with
  | nil =>
      rw [List.filter_eq_nil_iff] at found
      have rejected := found place (List.mem_range.mpr inside)
      rwa [Bool.not_eq_true] at rejected
  | cons first rest =>
      rw [found] at missing
      simp at missing

theorem extent_eq_some {count : Nat} {passes : Nat → Bool} {first last : Nat}
    (found : extent count passes = some (first, last)) :
    (first < count ∧ passes first = true) ∧ (last < count ∧ passes last = true)
      ∧ ∀ place, place < count → passes place = true → first ≤ place ∧ place ≤ last := by
  have increasing : ((List.range count).filter passes).Pairwise (· < ·) :=
    List.Pairwise.filter _ List.pairwise_lt_range
  have listed : ∀ place, place ∈ (List.range count).filter passes ↔
      place < count ∧ passes place = true := by
    intro place
    rw [List.mem_filter, List.mem_range]
  unfold extent at found
  rw [Option.bind_eq_some_iff] at found
  obtain ⟨head, isHead, found⟩ := found
  rw [Option.map_eq_some_iff] at found
  obtain ⟨final, isFinal, both⟩ := found
  cases both
  obtain ⟨rest, split⟩ := List.head?_eq_some_iff.mp isHead
  obtain ⟨earlier, splitLast⟩ := List.getLast?_eq_some_iff.mp isFinal
  refine ⟨(listed first).mp ?_, (listed last).mp ?_, ?_⟩
  · rw [split]
    exact List.mem_cons_self
  · rw [splitLast]
    exact List.mem_append_right earlier List.mem_cons_self
  · intro place inside passed
    have member := (listed place).mpr ⟨inside, passed⟩
    constructor
    · rw [split] at member increasing
      rcases List.mem_cons.mp member with here | later
      · omega
      · have := List.rel_of_pairwise_cons increasing later
        omega
    · rw [splitLast] at member increasing
      rcases List.mem_append.mp member with before | here
      · have := (List.pairwise_append.mp increasing).2.2 place before last List.mem_cons_self
        omega
      · rw [List.mem_singleton] at here
        omega

/-! ### Living rows and columns -/

theorem living_at (world : World) {row column : Nat} (rowInside : row < world.size)
    (columnInside : column < world.size) :
    world.living (column - world.half) (row - world.half)
      = (world.grid.state row column != 0) := by
  rw [state_eq_cell world rowInside columnInside]
  rfl

/-- A living cell has a row and a column. -/
theorem exists_place_of_living {world : World} {x y : Int} (lives : world.living x y = true) :
    ∃ row column : Nat, row < world.size ∧ column < world.size
      ∧ x = column - world.half ∧ y = row - world.half
      ∧ (world.grid.state row column != 0) = true := by
  cases inside : world.contains x y with
  | false =>
      unfold living at lives
      rw [cell_of_not_contains inside] at lives
      cases lives
  | true =>
      unfold living at lives
      rw [cell_of_contains inside] at lives
      rw [contains_iff] at inside
      exact ⟨(y + world.half).toNat, (x + world.half).toNat, by omega, by omega, by omega,
        by omega, lives⟩

private def rowLives (world : World) (row : Nat) : Bool :=
  (world.grid.rows.map fun row => row.any (· != 0)).toArray.getD row false

private def columnLives (world : World) (column : Nat) : Bool :=
  ((List.range world.size).filter world.rowLives).any fun row =>
    world.grid.state row column != 0

private theorem rowLives_iff (world : World) {row : Nat} (rowInside : row < world.size) :
    world.rowLives row = true ↔
      ∃ column, column < world.size ∧ (world.grid.state row column != 0) = true := by
  have read : world.rowLives row = world.grid.rows[row].any (· != 0) := by
    simp [rowLives, Array.getD, rowInside]
  rw [read, Vector.any_eq_true]
  constructor
  · rintro ⟨column, columnInside, lives⟩
    refine ⟨column, columnInside, ?_⟩
    rwa [Block.state_eq_getElem _ rowInside columnInside]
  · rintro ⟨column, columnInside, lives⟩
    refine ⟨column, columnInside, ?_⟩
    rwa [Block.state_eq_getElem _ rowInside columnInside] at lives

private theorem columnLives_iff (world : World) {column : Nat}
    (columnInside : column < world.size) :
    world.columnLives column = true ↔
      ∃ row, row < world.size ∧ (world.grid.state row column != 0) = true := by
  unfold columnLives
  rw [List.any_eq_true]
  constructor
  · rintro ⟨row, listed, lives⟩
    rw [List.mem_filter, List.mem_range] at listed
    exact ⟨row, listed.1, lives⟩
  · rintro ⟨row, rowInside, lives⟩
    refine ⟨row, ?_, lives⟩
    rw [List.mem_filter, List.mem_range]
    exact ⟨rowInside, (world.rowLives_iff rowInside).mpr ⟨column, columnInside, lives⟩⟩

private theorem boundingBox_eq (world : World) :
    world.boundingBox = (extent world.size world.rowLives).bind fun (top, bottom) =>
      (extent world.size world.columnLives).map fun (left, right) =>
        { left := left - world.half
          top := top - world.half
          right := right - world.half
          bottom := bottom - world.half } :=
  rfl

/-! ### The bounding box -/

/-- Without a bounding box no cell lives. -/
theorem dead_of_boundingBox {world : World} (missing : world.boundingBox = none) (x y : Int) :
    world.living x y = false := by
  apply Bool.eq_false_iff.mpr
  intro lives
  obtain ⟨row, column, rowInside, columnInside, _, _, lives⟩ := exists_place_of_living lives
  have liveRow := (world.rowLives_iff rowInside).mpr ⟨column, columnInside, lives⟩
  have liveColumn := (world.columnLives_iff columnInside).mpr ⟨row, rowInside, lives⟩
  rw [boundingBox_eq, Option.bind_eq_none_iff] at missing
  cases rows : extent world.size world.rowLives with
  | none =>
      rw [extent_eq_none rows rowInside] at liveRow
      exact Bool.false_ne_true liveRow
  | some found =>
      have noColumns := Option.map_eq_none_iff.mp (missing found rows)
      rw [extent_eq_none noColumns columnInside] at liveColumn
      exact Bool.false_ne_true liveColumn

/-- The bounding box holds every living cell and cannot be smaller. -/
theorem boundedBy_boundingBox {world : World} {box : Box} (found : world.boundingBox = some box) :
    world.living.BoundedBy box := by
  rw [boundingBox_eq, Option.bind_eq_some_iff] at found
  obtain ⟨⟨top, bottom⟩, rows, found⟩ := found
  rw [Option.map_eq_some_iff] at found
  obtain ⟨⟨left, right⟩, columns, same⟩ := found
  obtain ⟨⟨topInside, topLives⟩, ⟨bottomInside, bottomLives⟩, rowsBetween⟩ := extent_eq_some rows
  obtain ⟨⟨leftInside, leftLives⟩, ⟨rightInside, rightLives⟩, columnsBetween⟩ :=
    extent_eq_some columns
  subst same
  have inRow : ∀ {row : Nat}, row < world.size → world.rowLives row = true →
      ∃ x, world.living x (row - world.half) = true := by
    intro row rowInside liveRow
    obtain ⟨column, columnInside, lives⟩ := (world.rowLives_iff rowInside).mp liveRow
    exact ⟨column - world.half, (world.living_at rowInside columnInside).trans lives⟩
  have inColumn : ∀ {column : Nat}, column < world.size → world.columnLives column = true →
      ∃ y, world.living (column - world.half) y = true := by
    intro column columnInside liveColumn
    obtain ⟨row, rowInside, lives⟩ := (world.columnLives_iff columnInside).mp liveColumn
    exact ⟨row - world.half, (world.living_at rowInside columnInside).trans lives⟩
  refine ⟨?within, inColumn leftInside leftLives, inRow topInside topLives,
    inColumn rightInside rightLives, inRow bottomInside bottomLives⟩
  case within =>
    intro x y lives
    obtain ⟨row, column, rowInside, columnInside, atColumn, atRow, lives⟩ :=
      exists_place_of_living lives
    have rowBetween := rowsBetween row rowInside
      ((world.rowLives_iff rowInside).mpr ⟨column, columnInside, lives⟩)
    have columnBetween := columnsBetween column columnInside
      ((world.columnLives_iff columnInside).mpr ⟨row, rowInside, lives⟩)
    unfold Box.Holds
    dsimp only
    omega

/-- A world has a bounding box unless all its cells are dead. -/
theorem boundingBox_eq_none_iff {world : World} :
    world.boundingBox = none ↔ ∀ x y, world.living x y = false := by
  refine ⟨dead_of_boundingBox, fun dead => ?_⟩
  cases found : world.boundingBox with
  | none => rfl
  | some box =>
      obtain ⟨y, lives⟩ := (boundedBy_boundingBox found).left_touched
      rw [dead] at lives
      cases lives

/-- The bounding box is the smallest rectangle, and any smallest rectangle is the bounding box. -/
theorem boundingBox_eq_some_iff {world : World} {box : Box} :
    world.boundingBox = some box ↔ world.living.BoundedBy box := by
  refine ⟨boundedBy_boundingBox, fun bounded => ?_⟩
  cases found : world.boundingBox with
  | none =>
      obtain ⟨y, lives⟩ := bounded.left_touched
      rw [dead_of_boundingBox found] at lives
      cases lives
  | some other => rw [(boundedBy_boundingBox found).unique bounded]

end Showreel.World
