import Mathlib
import Showreel.Pattern.Symmetry

/-!
Contract: the states of blocks, and the symmetries of the square as a group that acts on blocks.

Owns:
- the states of a block in reading order, place by place, and as a collection without order;
- the population of a block as the number of its places that are not dead;
- a block with its rows or columns reversed, transposed, and turned by quarters, and that each
  symmetry is made of these;
- a symmetry as an exchange of rows and columns together with reversals, how two symmetries
  compose, and which one undoes another;
- that the eight symmetries are the group of the square, and that it acts on blocks;
- that a reflection and the exchange of rows and columns generate it;
- what a symmetry keeps of a block.

Does not own: where a turned block is pasted.
-/

namespace Showreel.Pattern

/-! ### The states of a block -/

namespace Block

variable {height width : Nat}

private theorem toList_eq_map {α : Type} {length : Nat} (all : Vector α length) :
    all.toList = (List.finRange length).map all.get := by
  rw [← List.ofFn_eq_map]
  exact List.ext_getElem (by simp) fun place _ _ => by simp [Vector.get_eq_getElem]

/-- The rows of a block, one after the other, are its places in reading order. -/
theorem flatten_toRows (block : Block height width) :
    block.toRows.flatten = (List.finRange height).flatMap fun row : Fin height =>
      (List.finRange width).map fun column : Fin width => block.state row column := by
  have inRow : ∀ row : Fin height, (block.rows.get row).toList
      = (List.finRange width).map fun column : Fin width => block.state row column := by
    intro row
    rw [toList_eq_map]
    refine List.map_congr_left fun column _ => ?_
    rw [state_eq_getElem _ row.isLt column.isLt]
    rfl
  unfold toRows
  rw [toList_eq_map, List.map_map, ← List.flatMap_def]
  exact List.flatMap_congr fun row _ => inRow row

/-- As a collection without order, the rows hold one state for each place. -/
theorem coe_flatten_toRows (block : Block height width) :
    (block.toRows.flatten : Multiset UInt8) = Finset.univ.val.map
      fun place : Fin height × Fin width => block.state place.1 place.2 := by
  have listed : (List.finRange height ×ˢ List.finRange width).map
      (fun place : Fin height × Fin width => block.state place.1 place.2)
        = block.toRows.flatten := by
    rw [flatten_toRows]
    exact (List.map_flatMap ..).trans (List.flatMap_congr fun row _ => List.map_map ..)
  rw [← listed, ← Multiset.map_coe, ← Multiset.coe_product, ← Finset.univ_product_univ,
    Finset.product_val, Fin.univ_def, Fin.univ_def]

theorem population_eq_countP (block : Block height width) :
    block.population = block.toRows.flatten.countP (· != 0) := by
  unfold population toRows
  rw [List.countP_flatten, List.map_map, List.sum_eq_foldl, List.foldl_map, Vector.foldl_toList]
  simp only [Function.comp_apply, Vector.countP_toList]

/-- The population is the number of places that are not dead. -/
theorem population_eq_card (block : Block height width) :
    block.population = (Finset.univ.filter fun place : Fin height × Fin width =>
      (block.state place.1 place.2 != 0) = true).card := by
  have counted : (block.toRows.flatten : Multiset UInt8).countP (fun state => (state != 0) = true)
      = block.population := by
    rw [population_eq_countP, Multiset.coe_countP]
    simp only [Bool.decide_eq_true]
  rw [← counted, coe_flatten_toRows, Multiset.countP_map]
  rfl

end Block

namespace Cells

/-- The states of all places, each as often as it occurs. -/
def states (cells : Cells) : Multiset UInt8 :=
  cells.toRows.flatten

theorem states_eq_map (cells : Cells) :
    cells.states = Finset.univ.val.map
      fun place : Fin cells.height × Fin cells.width => cells.state place.1 place.2 :=
  cells.block.coe_flatten_toRows

/-- Blocks whose places correspond to each other, each with its state, have the same states. -/
theorem states_eq_of_equiv {cells other : Cells}
    (places : Fin other.height × Fin other.width ≃ Fin cells.height × Fin cells.width)
    (sameState : ∀ place, other.state place.1 place.2
      = cells.state (places place).1 (places place).2) :
    other.states = cells.states := by
  rw [states_eq_map, states_eq_map, ← Multiset.map_univ_val_equiv places, Multiset.map_map]
  exact Multiset.map_congr rfl fun place _ => sameState place

end Cells

namespace Symmetry

/-! ### Exchange and reversals -/

/-- Whether the rows of the given block are read from the last to the first. -/
def reversesRows : Symmetry → Bool
  | flip | flipY | swapXYFlip | clockwise => true
  | _ => false

/-- Whether the columns of the given block are read from the last to the first. -/
def reversesColumns : Symmetry → Bool
  | flip | flipX | swapXYFlip | counterClockwise => true
  | _ => false

/-- The symmetry with a given exchange and given reversals. -/
def ofParts (swaps rows columns : Bool) : Symmetry :=
  match swaps, rows, columns with
  | false, false, false => identity
  | false, true, true => flip
  | false, false, true => flipX
  | false, true, false => flipY
  | true, false, false => swapXY
  | true, true, true => swapXYFlip
  | true, true, false => clockwise
  | true, false, true => counterClockwise

/-- One symmetry and then another. If the first exchanges rows and columns, the second reverses
columns where it reverses rows of the turned block. -/
def andThen (first second : Symmetry) : Symmetry :=
  ofParts (first.swapsMeasures ^^ second.swapsMeasures)
    (first.reversesRows
      ^^ if first.swapsMeasures then second.reversesColumns else second.reversesRows)
    (first.reversesColumns
      ^^ if first.swapsMeasures then second.reversesRows else second.reversesColumns)

/-- The symmetry that undoes another. -/
def inverse : Symmetry → Symmetry
  | clockwise => counterClockwise
  | counterClockwise => clockwise
  | symmetry => symmetry

/-! ### The group -/

instance : Fintype Symmetry where
  elems := ⟨all, by decide⟩
  complete := by
    intro symmetry
    cases symmetry <;> decide

/-- The product of two symmetries is the right one and then the left one, as maps compose. -/
instance : Mul Symmetry where
  mul later earlier := earlier.andThen later

instance : One Symmetry where
  one := identity

instance : Inv Symmetry where
  inv := inverse

instance : Group Symmetry :=
  Group.ofLeftAxioms (by decide) (by decide) (by decide)

/-- The quarter turns and the reflections of a square, a symmetry each. -/
def toSquare : Symmetry → DihedralGroup 4
  | identity => .r 0
  | clockwise => .r 1
  | flip => .r 2
  | counterClockwise => .r 3
  | flipX => .sr 0
  | swapXY => .sr 1
  | flipY => .sr 2
  | swapXYFlip => .sr 3

theorem toSquare_mul (later earlier : Symmetry) :
    (later * earlier).toSquare = later.toSquare * earlier.toSquare := by
  revert later earlier
  decide

theorem toSquare_bijective : Function.Bijective toSquare := by
  decide

/-- A property that passes from two symmetries to one and then the other holds of all, once it
holds of the reflection from left to right and of the exchange of rows and columns. -/
theorem induction_on_generators {motive : Symmetry → Prop} (reflected : motive flipX)
    (exchanged : motive swapXY)
    (composed : ∀ {first second : Symmetry}, motive first → motive second →
      motive (first.andThen second)) (symmetry : Symmetry) : motive symmetry := by
  have flipped : motive flipY := composed (composed exchanged reflected) exchanged
  have turned : motive flip := composed reflected flipped
  cases symmetry with
  | identity => exact composed reflected reflected
  | flip => exact turned
  | flipX => exact reflected
  | flipY => exact flipped
  | swapXY => exact exchanged
  | swapXYFlip => exact composed turned exchanged
  | clockwise => exact composed flipped exchanged
  | counterClockwise => exact composed reflected exchanged

/-! ### Places -/

/-- A place among a number of them, counted from the other end if they are reversed. -/
def countedFrom (reversed : Bool) (count place : Nat) : Nat :=
  if reversed then count - 1 - place else place

theorem countedFrom_lt {reversed : Bool} {count place : Nat} (inside : place < count) :
    countedFrom reversed count place < count := by
  unfold countedFrom
  split <;> omega

/-- Counted from the other end twice, a place is itself. -/
theorem countedFrom_countedFrom (first second : Bool) {count place : Nat} (inside : place < count) :
    countedFrom first count (countedFrom second count place)
      = countedFrom (first ^^ second) count place := by
  cases first <;> cases second <;> simp only [countedFrom, Bool.xor_true, Bool.xor_false] <;> grind

theorem source_eq (symmetry : Symmetry) (height width row column : Nat) :
    symmetry.source height width row column =
      (countedFrom symmetry.reversesRows height (if symmetry.swapsMeasures then column else row),
        countedFrom symmetry.reversesColumns width
          (if symmetry.swapsMeasures then row else column)) := by
  cases symmetry <;> rfl

theorem source_inside (symmetry : Symmetry) {height width row column : Nat}
    (rowInside : row < if symmetry.swapsMeasures then width else height)
    (columnInside : column < if symmetry.swapsMeasures then height else width) :
    (symmetry.source height width row column).1 < height
      ∧ (symmetry.source height width row column).2 < width := by
  rw [source_eq]
  cases swaps : symmetry.swapsMeasures with
  | false =>
      rw [swaps] at rowInside columnInside
      exact ⟨countedFrom_lt rowInside, countedFrom_lt columnInside⟩
  | true =>
      rw [swaps] at rowInside columnInside
      exact ⟨countedFrom_lt columnInside, countedFrom_lt rowInside⟩

theorem parts_andThen (first second : Symmetry) :
    (first.andThen second).swapsMeasures = (first.swapsMeasures ^^ second.swapsMeasures)
      ∧ (first.andThen second).reversesRows = (first.reversesRows
        ^^ if first.swapsMeasures then second.reversesColumns else second.reversesRows)
      ∧ (first.andThen second).reversesColumns = (first.reversesColumns
        ^^ if first.swapsMeasures then second.reversesRows else second.reversesColumns) := by
  revert first second
  decide

/-- Where a place of a block that was turned twice comes from. -/
theorem source_source (first second : Symmetry) {height width row column : Nat}
    (rowInside : row < if first.swapsMeasures ^^ second.swapsMeasures then width else height)
    (columnInside : column < if first.swapsMeasures ^^ second.swapsMeasures then height
      else width) :
    let between := second.source (if first.swapsMeasures then width else height)
      (if first.swapsMeasures then height else width) row column
    first.source height width between.1 between.2
      = (first.andThen second).source height width row column := by
  obtain ⟨swaps, rows, columns⟩ := parts_andThen first second
  simp only [source_eq, swaps, rows, columns]
  cases firstSwaps : first.swapsMeasures <;> cases secondSwaps : second.swapsMeasures <;>
    simp_all [countedFrom_countedFrom]

/-! ### The action on blocks -/

theorem state_apply (symmetry : Symmetry) (cells : Cells) {row column : Nat}
    (rowInside : row < (symmetry.apply cells).height)
    (columnInside : column < (symmetry.apply cells).width) :
    (symmetry.apply cells).state row column
      = cells.state (symmetry.source cells.height cells.width row column).1
          (symmetry.source cells.height cells.width row column).2 :=
  (Cells.state_ofFn ..).trans (if_pos ⟨rowInside, columnInside⟩)

theorem measures_apply_apply (first second : Symmetry) (cells : Cells) :
    (second.apply (first.apply cells)).height
        = (if first.swapsMeasures ^^ second.swapsMeasures then cells.width else cells.height)
      ∧ (second.apply (first.apply cells)).width
        = if first.swapsMeasures ^^ second.swapsMeasures then cells.height else cells.width := by
  cases first <;> cases second <;> exact ⟨rfl, rfl⟩

/-- Turning a block by two symmetries is turning it by one. -/
theorem apply_apply (first second : Symmetry) (cells : Cells) :
    second.apply (first.apply cells) = (first.andThen second).apply cells := by
  obtain ⟨height, width⟩ := measures_apply_apply first second cells
  have swaps := (parts_andThen first second).1
  have sameHeight : (second.apply (first.apply cells)).height
      = ((first.andThen second).apply cells).height := by
    rw [height, ← swaps]
    rfl
  have sameWidth : (second.apply (first.apply cells)).width
      = ((first.andThen second).apply cells).width := by
    rw [width, ← swaps]
    rfl
  refine Cells.ext_state sameHeight sameWidth fun row column rowInside columnInside => ?_
  have between := source_inside second rowInside columnInside
  rw [state_apply _ _ rowInside columnInside, state_apply first cells between.1 between.2,
    state_apply _ cells (sameHeight ▸ rowInside) (sameWidth ▸ columnInside),
    ← source_source first second (height ▸ rowInside) (width ▸ columnInside)]
  rfl

theorem identity_apply (cells : Cells) : identity.apply cells = cells :=
  Cells.ext_state rfl rfl fun _ _ rowInside columnInside =>
    state_apply identity cells rowInside columnInside

/-- Four states in a square tell the symmetries apart. -/
theorem apply_inj {first second : Symmetry}
    (alike : first.apply (Cells.ofRows [[1, 2], [3, 4]])
      = second.apply (Cells.ofRows [[1, 2], [3, 4]])) : first = second := by
  revert first second
  decide

/-! ### Reversals, transposition and quarter turns -/

end Symmetry

namespace Cells

/-- The rows in the opposite order. -/
def rowsReversed (cells : Cells) : Cells :=
  ⟨cells.height, cells.width, ⟨cells.block.rows.reverse⟩⟩

/-- The columns in the opposite order. -/
def columnsReversed (cells : Cells) : Cells :=
  ⟨cells.height, cells.width, ⟨cells.block.rows.map Vector.reverse⟩⟩

/-- The columns as rows. -/
def transposed (cells : Cells) : Cells :=
  ⟨cells.width, cells.height,
    ⟨Vector.ofFn fun column => cells.block.rows.map fun row => row[column]⟩⟩

/-- A quarter turn counterclockwise: the columns are reversed and then become rows. -/
def turned (cells : Cells) : Cells :=
  cells.columnsReversed.transposed

/-- A quarter turn clockwise: the columns become rows and are then reversed. -/
def turnedBack (cells : Cells) : Cells :=
  cells.transposed.columnsReversed

theorem state_eq_getElem (cells : Cells) {row column : Nat} (rowInside : row < cells.height)
    (columnInside : column < cells.width) :
    cells.state row column = cells.block.rows[row][column] :=
  cells.block.state_eq_getElem rowInside columnInside

end Cells

namespace Symmetry

theorem flipY_apply (cells : Cells) : flipY.apply cells = cells.rowsReversed := by
  refine Cells.ext_state rfl rfl fun row column (rowInside : row < cells.height)
    (columnInside : column < cells.width) => ?_
  have mirrored : cells.height - 1 - row < cells.height := by omega
  rw [state_apply flipY cells rowInside columnInside,
    Cells.state_eq_getElem cells.rowsReversed rowInside columnInside]
  simp only [Cells.rowsReversed, Vector.getElem_reverse]
  exact Cells.state_eq_getElem cells mirrored columnInside

theorem flipX_apply (cells : Cells) : flipX.apply cells = cells.columnsReversed := by
  refine Cells.ext_state rfl rfl fun row column (rowInside : row < cells.height)
    (columnInside : column < cells.width) => ?_
  have mirrored : cells.width - 1 - column < cells.width := by omega
  rw [state_apply flipX cells rowInside columnInside,
    Cells.state_eq_getElem cells.columnsReversed rowInside columnInside]
  simp only [Cells.columnsReversed, Vector.getElem_map, Vector.getElem_reverse]
  exact Cells.state_eq_getElem cells rowInside mirrored

theorem swapXY_apply (cells : Cells) : swapXY.apply cells = cells.transposed := by
  refine Cells.ext_state rfl rfl fun row column (rowInside : row < cells.width)
    (columnInside : column < cells.height) => ?_
  rw [state_apply swapXY cells rowInside columnInside,
    Cells.state_eq_getElem cells.transposed rowInside columnInside]
  simp only [Cells.transposed, Vector.getElem_ofFn, Vector.getElem_map]
  exact Cells.state_eq_getElem cells columnInside rowInside

/-- A block under a symmetry, as reversals, transposition and quarter turns give it. -/
def turn (symmetry : Symmetry) (cells : Cells) : Cells :=
  match symmetry with
  | flip => cells.rowsReversed.columnsReversed
  | flipX => cells.columnsReversed
  | flipY => cells.rowsReversed
  | swapXY => cells.transposed
  | swapXYFlip => cells.transposed.rowsReversed.columnsReversed
  | clockwise => cells.turnedBack
  | counterClockwise => cells.turned
  | identity => cells

/-- **Each symmetry is made of reversals, transposition and quarter turns.** -/
theorem apply_eq_turn (symmetry : Symmetry) (cells : Cells) :
    symmetry.apply cells = symmetry.turn cells := by
  unfold turn Cells.turned Cells.turnedBack
  cases symmetry with
  | identity => exact identity_apply cells
  | flipX => exact flipX_apply cells
  | flipY => exact flipY_apply cells
  | swapXY => exact swapXY_apply cells
  | flip | swapXYFlip | clockwise | counterClockwise =>
      simp only [← flipX_apply, ← flipY_apply, ← swapXY_apply, apply_apply]
      rfl

/-! ### What is kept -/

theorem states_flipX (cells : Cells) : (flipX.apply cells).states = cells.states := by
  have reversed : ∀ column : Fin cells.width, cells.width - 1 - column = column.rev := by
    intro column
    rw [Fin.val_rev]
    omega
  refine Cells.states_eq_of_equiv ((Equiv.refl (Fin cells.height)).prodCongr Fin.revPerm)
    fun place => ?_
  rw [state_apply flipX cells place.1.isLt place.2.isLt]
  exact congrArg (cells.state place.1) (reversed place.2)

theorem states_swapXY (cells : Cells) : (swapXY.apply cells).states = cells.states :=
  Cells.states_eq_of_equiv (Equiv.prodComm (Fin cells.width) (Fin cells.height)) fun place =>
    state_apply swapXY cells place.1.isLt place.2.isLt

/-- A symmetry moves states and keeps each of them. -/
theorem states_apply (symmetry : Symmetry) (cells : Cells) :
    (symmetry.apply cells).states = cells.states := by
  induction symmetry using induction_on_generators generalizing cells with
  | reflected => exact states_flipX cells
  | exchanged => exact states_swapXY cells
  | composed first second => rw [← apply_apply, second, first]

/-- The measures of a block that is turned. -/
theorem measures_apply (symmetry : Symmetry) (cells : Cells) :
    ((symmetry.apply cells).height, (symmetry.apply cells).width)
      = if symmetry ∈ [identity, flip, flipX, flipY] then (cells.height, cells.width)
        else (cells.width, cells.height) := by
  cases symmetry <;> rfl

/-- **The symmetries are those of the square, and act on blocks as a group.** Turning a block by one
of them and then by another is turning it by their product and by no other; the quarter turns undo
each other, and each other symmetry undoes itself. All of them keep the states, and four the
measures, which the others exchange. -/
theorem act_as_square :
    Nonempty (Symmetry ≃* DihedralGroup 4)
    ∧ (∀ first second both : Symmetry,
        (∀ cells, second.apply (first.apply cells) = both.apply cells) ↔ both = second * first)
    ∧ (∀ cells, identity.apply cells = cells)
    ∧ (∀ cells, counterClockwise.apply (clockwise.apply cells) = cells
        ∧ clockwise.apply (counterClockwise.apply cells) = cells)
    ∧ (∀ symmetry ∈ [identity, flip, flipX, flipY, swapXY, swapXYFlip],
        ∀ cells, symmetry.apply (symmetry.apply cells) = cells)
    ∧ (∀ (symmetry : Symmetry) (cells : Cells), (symmetry.apply cells).states = cells.states)
    ∧ ∀ (symmetry : Symmetry) (cells : Cells),
        ((symmetry.apply cells).height, (symmetry.apply cells).width)
          = if symmetry ∈ [identity, flip, flipX, flipY] then (cells.height, cells.width)
            else (cells.width, cells.height) := by
  refine ⟨⟨MulEquiv.ofBijective (MonoidHom.mk' toSquare toSquare_mul) toSquare_bijective⟩,
    fun first second both => ⟨?product, ?composed⟩, identity_apply, fun cells => ⟨?_, ?_⟩,
    fun symmetry listed cells => ?_, states_apply, measures_apply⟩
  case product =>
    intro alike
    apply apply_inj
    rw [← alike, apply_apply]
    rfl
  case composed =>
    rintro rfl
    exact apply_apply first second
  · exact (apply_apply clockwise counterClockwise cells).trans (identity_apply cells)
  · exact (apply_apply counterClockwise clockwise cells).trans (identity_apply cells)
  · have undone : symmetry.andThen symmetry = identity := by
      revert symmetry
      decide
    rw [apply_apply, undone, identity_apply]

/-- A block of two rows and three columns through a quarter turn and a reflection. -/
theorem act_as_square_turned :
    let cells := Cells.ofRows [[1, 2, 3], [0, 0, 255]]
    swapXY ∈ [identity, flip, flipX, flipY, swapXY, swapXYFlip]
      ∧ clockwise.apply cells = Cells.ofRows [[0, 1], [0, 2], [255, 3]]
      ∧ flipX.apply (clockwise.apply cells) = swapXY.apply cells
      ∧ swapXY.apply (swapXY.apply cells) = cells
      ∧ (clockwise.apply cells).states = cells.states := by
  intro cells
  obtain ⟨_, composed, _, _, undone, kept, _⟩ := act_as_square
  have listed : swapXY ∈ [identity, flip, flipX, flipY, swapXY, swapXYFlip] := by decide
  exact ⟨listed, by decide, (composed clockwise flipX swapXY).mpr (by decide) cells,
    undone swapXY listed cells, kept clockwise cells⟩

end Symmetry

end Showreel.Pattern
