import Showreel.Proofs.Pattern.Denotation

/-!
Contract: the text of a block is read back.

Owns:
- what is kept of a block in its text, and the room for it;
- the items that a block is written as, and the cells that they mark;
- the characters of the text, and the mark that ends it;
- that the text of a block with a living cell draws what is kept of the block.

Does not own: the document around a pattern.
-/

namespace Showreel.Pattern

/-! ### What is kept of a block -/

/-- How many lines, up to a count, are left when those that end them without a living place are
dropped. -/
def linesKept (alive : Nat → Nat → Bool) (across : Nat) : Nat → Nat
  | 0 => 0
  | count + 1 =>
      if (List.range across).any (alive count) then count + 1 else linesKept alive across count

theorem linesKept_eq {alive : Nat → Nat → Bool} {across count last place : Nat}
    (inside : last < count) (placeInside : place < across) (lives : alive last place = true)
    (within : ∀ line place, alive line place = true → line ≤ last) :
    linesKept alive across count = last + 1 := by
  induction count with
  | zero => cases inside
  | succ count inductionHypothesis =>
      unfold linesKept
      rcases Nat.lt_succ_iff_lt_or_eq.mp inside with before | rfl
      · rw [if_neg, inductionHypothesis before]
        rw [List.any_eq_true]
        rintro ⟨place, -, livesToo⟩
        exact (within count place livesToo).not_gt before
      · exact if_pos (List.any_eq_true.mpr ⟨place, List.mem_range.mpr placeInside, lives⟩)

theorem linesKept_le (alive : Nat → Nat → Bool) (across count : Nat) :
    linesKept alive across count ≤ count := by
  induction count with
  | zero => exact le_rfl
  | succ count inductionHypothesis =>
      unfold linesKept
      split
      · exact le_rfl
      · exact Nat.le_succ_of_le inductionHypothesis

namespace Cells

/-- The block without the dead rows and columns that end it, each living cell in state one. -/
def pruned (cells : Cells) : Cells :=
  .ofFn (linesKept (fun row column => cells.state row column != 0) cells.width cells.height)
    (linesKept (fun column row => cells.state row column != 0) cells.height cells.width)
    fun row column => if cells.state row column = 0 then 0 else 1

theorem roomFor_mono {height width less narrower : Nat} (room : roomFor height width = .ok ())
    (low : less ≤ height) (narrow : narrower ≤ width) : roomFor less narrower = .ok () := by
  have area := Nat.mul_le_mul low narrow
  unfold roomFor at room ⊢
  split_ifs at room with countless tooLarge
  rw [not_or, not_or] at countless
  rw [if_neg, if_neg]
  · omega
  · omega

theorem roomFor_pruned {cells : Cells} (room : roomFor cells.height cells.width = .ok ()) :
    roomFor cells.pruned.height cells.pruned.width = .ok () :=
  roomFor_mono room (linesKept_le _ _ _) (linesKept_le _ _ _)

end Cells

namespace RunLength

/-- What is drawn by the living cells of a block, each in state one, is what is kept of it. -/
theorem Drawn.eq_pruned {states : Nat → Nat → Option UInt8} {cells drawing : Cells}
    (drawn : Drawn states drawing)
    (living : ∀ row column, states row column
      = if cells.state row column = 0 then none else some 1) : drawing = cells.pruned := by
  have lives : ∀ row column, (states row column).isSome = true
      ↔ (cells.state row column != 0) = true := by
    intro row column
    rw [living, bne_iff_ne]
    split
    · exact iff_of_false Bool.false_ne_true (not_not_intro ‹_›)
    · exact iff_of_true rfl ‹_›
  have bounds : ∀ row column, (cells.state row column != 0) = true →
      row < drawing.height ∧ column < drawing.width :=
    fun row column alive => drawn.inside row column ((lives row column).mpr alive)
  have height : drawing.height = cells.pruned.height := by
    rcases drawn.lastRow with ⟨row, column, alive, last⟩
    rw [lives] at alive
    have inside := Cells.inside_of_state (bne_iff_ne.mp alive)
    refine last.trans (linesKept_eq inside.1 inside.2 alive fun line place livesToo => ?_).symm
    have before := (bounds line place livesToo).1
    omega
  have width : drawing.width = cells.pruned.width := by
    rcases drawn.lastColumn with ⟨row, column, alive, last⟩
    rw [lives] at alive
    have inside := Cells.inside_of_state (bne_iff_ne.mp alive)
    refine last.trans (linesKept_eq inside.2 inside.1 alive fun line place livesToo => ?_).symm
    have before := (bounds place line livesToo).2
    omega
  refine Cells.ext_state height width fun row column rowInside columnInside => ?_
  have kept : row < cells.pruned.height ∧ column < cells.pruned.width :=
    ⟨height ▸ rowInside, width ▸ columnInside⟩
  rw [drawn.state, living, show cells.pruned.state row column = _ from
    (Cells.state_ofFn _ _ _ row column).trans (if_pos kept)]
  exact apply_ite (Option.getD · 0) _ _ _

/-! ### The items of a block -/

/-- The decimal digits of a count. -/
def decimal (count : Nat) : List (Fin 10) :=
  (Nat.toDigits 10 count).map fun char =>
    ⟨(char.toNat - '0'.toNat) % 10, Nat.mod_lt _ (by decide)⟩

theorem map_digitChar_decimal (count : Nat) :
    (decimal count).map digitChar = Nat.toDigits 10 count := by
  unfold decimal
  rw [List.map_map]
  refine (List.map_congr_left fun char member => ?_).trans (List.map_id' _)
  have bounds : 48 ≤ char.toNat ∧ char.toNat ≤ 57 :=
    Text.bounds_of_isDigit (Nat.isDigit_of_mem_toDigits (by decide) (by decide) member)
  have value : '0'.toNat + (char.toNat - '0'.toNat) % 10 = char.toNat := by
    change 48 + (char.toNat - 48) % 10 = char.toNat
    omega
  change Char.ofNat ('0'.toNat + (char.toNat - '0'.toNat) % 10) = char
  rw [value, Char.ofNat_toNat]

theorem foldl_decimal (count : Nat) :
    (decimal count).foldl (fun value digit => value * 10 + digit.val) 0 = count := by
  have read : (decimal count).foldl (fun value digit => value * 10 + digit.val) 0
      = Nat.ofDigitChars 10 ((decimal count).map digitChar) 0 := by
    rw [Nat.ofDigitChars_eq_foldl, List.foldl_map]
    congr 1
    funext value digit
    rw [(digitChar_spec digit).2.1, Nat.mul_comm]
  rw [read, map_digitChar_decimal, Nat.ofDigitChars_ten_toDigits]

theorem decimal_ne_nil (count : Nat) : decimal count ≠ [] := by
  unfold decimal
  rw [Ne, List.map_eq_nil_iff]
  exact Nat.toDigits_ne_nil

/-- A run of living or dead cells as it is written. -/
def ofRun (count : Nat) (alive : Bool) : Written :=
  ⟨if count = 1 then [] else decimal count, if alive then .alive else .dead false⟩

theorem chars_ofRun (count : Nat) (alive : Bool) :
    (ofRun count alive).chars = writeRun count (if alive then 'o' else 'b') := by
  have tag : (ofRun count alive).tag.chars = [if alive then 'o' else 'b'] := by
    cases alive <;> rfl
  unfold Written.chars writeRun
  rw [tag]
  unfold ofRun
  dsimp only
  split
  · rfl
  · rw [map_digitChar_decimal, Nat.toString_eq_repr, Nat.toList_repr]

theorem count_ofRun (count : Nat) (alive : Bool) : (ofRun count alive).count = count := by
  unfold Written.count ofRun
  dsimp only
  split
  · rename_i single
    rw [if_pos rfl, single]
  · rw [if_neg (decimal_ne_nil count), foldl_decimal]

/-- The runs of a row whose first cells are known to be alive or dead. -/
def runsOf (count : Nat) (alive : Bool) : List UInt8 → List Written
  | [] => [ofRun count alive]
  | state :: rest =>
      if (state != 0) = alive then runsOf (count + 1) alive rest
      else ofRun count alive :: runsOf 1 (state != 0) rest

def ofRow (row : List UInt8) : List Written :=
  match trimRow row with
  | [] => []
  | state :: rest => runsOf 1 (state != 0) rest

/-- The items of rows, with the start of a row between any two. -/
def ofRows : List (List UInt8) → List Written
  | [] => []
  | [row] => ofRow row
  | row :: next :: rest => ofRow row ++ ⟨[], .rows⟩ :: ofRows (next :: rest)

theorem chars_runsOf (count : Nat) (alive : Bool) (row : List UInt8) :
    (runsOf count alive row).flatMap Written.chars = writeRuns count alive row := by
  induction row generalizing count alive with
  | nil => rw [runsOf, List.flatMap_singleton, chars_ofRun, writeRuns]
  | cons state rest inductionHypothesis =>
      unfold runsOf writeRuns
      split
      · exact inductionHypothesis (count + 1) alive
      · rw [List.flatMap_cons, chars_ofRun, inductionHypothesis]

theorem chars_ofRow (row : List UInt8) : (ofRow row).flatMap Written.chars = writeRow row := by
  unfold ofRow writeRow
  cases trimRow row with
  | nil => rfl
  | cons state rest => exact chars_runsOf 1 (state != 0) rest

theorem chars_ofRows (rows : List (List UInt8)) :
    (ofRows rows).flatMap Written.chars = List.intercalate ['$'] (rows.map writeRow) := by
  induction rows with
  | nil => rfl
  | cons row others inductionHypothesis =>
      cases others with
      | nil => rw [ofRows, chars_ofRow, List.map_singleton, List.intercalate_singleton]
      | cons next rest =>
          rw [ofRows, List.flatMap_append, chars_ofRow, List.flatMap_cons, inductionHypothesis,
            List.map_cons, List.map_cons, List.map_cons, List.intercalate_cons_cons,
            List.append_assoc]
          rfl

/-! ### The cells that are marked -/

/-- The cells of a row that live, each in state one. -/
def livingMarks (row column : Nat) (states : List UInt8) : List Mark :=
  (states.zipIdx column).filterMap fun cell =>
    if cell.1 = 0 then none else some ⟨row, cell.2, 1⟩

/-- The cells of a run, if it is alive. -/
def runMarks (row column count : Nat) (alive : Bool) : List Mark :=
  if alive then (List.range count).map fun step => ⟨row, column + step, 1⟩ else []

theorem livingMarks_cons (row column : Nat) (state : UInt8) (rest : List UInt8) :
    livingMarks row column (state :: rest)
      = runMarks row column 1 (state != 0) ++ livingMarks row (column + 1) rest := by
  unfold livingMarks
  rw [List.zipIdx_cons, List.filterMap_cons]
  dsimp only
  by_cases dead : state = 0
  · rw [if_pos dead, dead]
    rfl
  · rw [if_neg dead, show (state != 0) = true from bne_iff_ne.mpr dead]
    rfl

theorem runMarks_succ (row column count : Nat) (alive : Bool) :
    runMarks row column (count + 1) alive
      = runMarks row column count alive ++ runMarks row (column + count) 1 alive := by
  cases alive with
  | false => rfl
  | true => simp [runMarks, List.range_succ]

theorem marks_ofRun (row column count : Nat) (alive : Bool) (others : List Item) :
    marks row column ((ofRun count alive).item :: others)
      = runMarks row column count alive ++ marks row (column + count) others := by
  unfold Written.item
  rw [count_ofRun]
  cases alive <;> rfl

/-- **The runs of a row mark the cells that live in it.** -/
theorem marks_runsOf (row column count : Nat) (alive : Bool) (states : List UInt8)
    (others : List Item) :
    marks row column ((runsOf count alive states).map Written.item ++ others)
      = runMarks row column count alive ++ (livingMarks row (column + count) states
        ++ marks row (column + count + states.length) others) := by
  induction states generalizing column count alive with
  | nil =>
      rw [runsOf, List.map_singleton, List.singleton_append, marks_ofRun]
      rfl
  | cons state rest inductionHypothesis =>
      have place : column + count + (state :: rest).length
          = column + (count + 1) + rest.length := by
        rw [List.length_cons]
        omega
      rw [runsOf, livingMarks_cons, place]
      split
      · rename_i same
        rw [inductionHypothesis, runMarks_succ, same]
        simp only [List.append_assoc, Nat.add_assoc]
      · rw [List.map_cons, List.cons_append, marks_ofRun, inductionHypothesis]
        simp only [List.append_assoc, Nat.add_assoc]

/-- The dead cells that end a row are not marked. -/
theorem livingMarks_trimRow (row : Nat) (states : List UInt8) :
    livingMarks row 0 (trimRow states) = livingMarks row 0 states := by
  have whole : trimRow states ++ (states.reverse.takeWhile (· == 0)).reverse = states := by
    unfold trimRow
    rw [← List.reverse_append, List.takeWhile_append_dropWhile, List.reverse_reverse]
  have dead : ∀ state ∈ (states.reverse.takeWhile (· == 0)).reverse, state = 0 :=
    fun state member => beq_iff_eq.mp
      (List.all_eq_true.mp List.all_takeWhile state (List.mem_reverse.mp member))
  generalize (states.reverse.takeWhile (· == 0)).reverse = ending at whole dead
  conv_rhs => rw [← whole]
  unfold livingMarks
  rw [List.zipIdx_append, List.filterMap_append, List.self_eq_append_right,
    List.filterMap_eq_nil_iff]
  exact fun cell member => if_pos (dead cell.1 (List.fst_mem_of_mem_zipIdx member))

theorem marks_ofRow (row : Nat) (states : List UInt8) (others : List Item) :
    marks row 0 ((ofRow states).map Written.item ++ others)
      = livingMarks row 0 states ++ marks row (trimRow states).length others := by
  rw [← livingMarks_trimRow]
  unfold ofRow
  cases trimRow states with
  | nil => rfl
  | cons state rest =>
      dsimp only
      rw [marks_runsOf, livingMarks_cons, List.append_assoc, Nat.zero_add, Nat.add_comm 1,
        List.length_cons]

/-- The cells of rows that live, each in state one. -/
def livingRows (row : Nat) (rows : List (List UInt8)) : List Mark :=
  (rows.zipIdx row).flatMap fun line => livingMarks line.2 0 line.1

/-- **The items of rows mark the cells that live.** -/
theorem marks_ofRows (row : Nat) (rows : List (List UInt8)) :
    marks row 0 ((ofRows rows).map Written.item) = livingRows row rows := by
  induction rows generalizing row with
  | nil => rfl
  | cons states others inductionHypothesis =>
      cases others with
      | nil =>
          rw [ofRows, ← List.append_nil ((ofRow states).map Written.item), marks_ofRow]
          rfl
      | cons next rest =>
          rw [ofRows, List.map_append, marks_ofRow]
          change livingMarks row 0 states
            ++ marks (row + 1) 0 ((ofRows (next :: rest)).map Written.item) = _
          rw [inductionHypothesis]
          rfl

/-! ### What the items are -/

/-- An item that the text of a block has: the start of a row, or a run of at most some cells. -/
inductive Encoded (most : Nat) : Written → Prop
  | rows : Encoded most ⟨[], .rows⟩
  | run {count : Nat} (within : count ≤ most) (alive : Bool) : Encoded most (ofRun count alive)

theorem encoded_runsOf {most count : Nat} {alive : Bool} {states : List UInt8}
    (within : count + states.length ≤ most) :
    ∀ written ∈ runsOf count alive states, Encoded most written := by
  induction states generalizing count alive with
  | nil => exact List.forall_mem_singleton.mpr (.run within alive)
  | cons state rest inductionHypothesis =>
      rw [List.length_cons] at within
      unfold runsOf
      split
      · exact inductionHypothesis (by omega)
      · exact List.forall_mem_cons.mpr ⟨.run (by omega) alive, inductionHypothesis (by omega)⟩

theorem length_trimRow_le (states : List UInt8) : (trimRow states).length ≤ states.length := by
  calc (trimRow states).length = (states.reverse.dropWhile (· == 0)).length := List.length_reverse
    _ ≤ states.reverse.length := (List.dropWhile_suffix _).length_le
    _ = states.length := List.length_reverse

theorem encoded_ofRow {most : Nat} {states : List UInt8} (within : states.length ≤ most) :
    ∀ written ∈ ofRow states, Encoded most written := by
  have trimmed := length_trimRow_le states
  unfold ofRow
  cases given : trimRow states with
  | nil => exact List.forall_mem_nil _
  | cons state rest =>
      rw [given, List.length_cons] at trimmed
      exact encoded_runsOf (by omega)

theorem encoded_ofRows {most : Nat} {rows : List (List UInt8)}
    (within : ∀ states ∈ rows, states.length ≤ most) :
    ∀ written ∈ ofRows rows, Encoded most written := by
  induction rows with
  | nil => exact List.forall_mem_nil _
  | cons states others inductionHypothesis =>
      rcases List.forall_mem_cons.mp within with ⟨withinFirst, withinOthers⟩
      cases others with
      | nil => exact encoded_ofRow withinFirst
      | cons next rest =>
          rw [ofRows, List.forall_mem_append, List.forall_mem_cons]
          exact ⟨encoded_ofRow withinFirst, .rows, inductionHypothesis withinOthers⟩

/-- The items that a block is written as. -/
def ofCells (cells : Cells) : List Written :=
  ofRows cells.toRows

theorem encoded_ofCells (cells : Cells) :
    ∀ written ∈ ofCells cells, Encoded cells.width written := by
  refine encoded_ofRows fun states member => ?_
  rcases List.mem_map.mp member with ⟨row, -, rfl⟩
  exact Vector.length_toList.le

theorem encode_eq (cells : Cells) :
    encode cells = (ofCells cells).flatMap Written.chars ++ ['!'] := by
  rw [encode, ofCells, chars_ofRows]

/-- A count that is small enough for a block can be read. -/
theorem Encoded.short {most : Nat} {written : Written} (encoded : Encoded most written)
    (small : most < Cells.countLimit) :
    written.digits.length ≤ Number.Literal.digitLimit := by
  cases encoded with
  | rows => exact Nat.zero_le _
  | @run count within alive =>
      have digits : (decimal count).length ≤ 19 := by
        unfold decimal
        rw [List.length_map, Nat.length_toDigits_le_iff (by decide) (by decide)]
        exact (within.trans_lt small).trans (by decide)
      unfold ofRun
      dsimp only
      split
      · exact Nat.zero_le _
      · exact digits.trans (by decide)

/-- The marks of the items that a block is written as. -/
def itemMarks : List Char := ['b', 'o', '$']

theorem Encoded.chars {most : Nat} {written : Written} (encoded : Encoded most written) :
    ∀ char ∈ written.chars, char.isDigit = true ∨ char ∈ itemMarks := by
  have tagged : ∀ char ∈ written.tag.chars, char ∈ itemMarks := by
    have all : ∀ tag ∈ [Tag.rows, .alive, .dead false],
        tag.chars.all itemMarks.contains = true := by
      decide
    refine fun char member => List.contains_iff_mem.mp (List.all_eq_true.mp (all _ ?_) char member)
    cases encoded with
    | rows => exact List.mem_cons_self
    | run within alive => cases alive <;> simp [ofRun]
  intro char member
  rcases List.mem_append.mp member with written | mark
  · rcases List.mem_map.mp written with ⟨digit, -, rfl⟩
    exact .inl (digitChar_spec digit).1
  · exact .inr (tagged char mark)

/-- The characters of the text of a block: digits, and the marks of items and of the end. -/
def IsCode (char : Char) : Prop :=
  char.isDigit = true ∨ char ∈ '!' :: itemMarks

instance (char : Char) : Decidable (IsCode char) :=
  inferInstanceAs (Decidable (char.isDigit = true ∨ char ∈ '!' :: itemMarks))

theorem mem_codeMarks {char : Char} :
    char ∈ '!' :: itemMarks ↔ char = '!' ∨ char = 'b' ∨ char = 'o' ∨ char = '$' := by
  simp [itemMarks]

namespace IsCode

variable {char : Char}

theorem visible (code : IsCode char) : Text.IsVisible char := by
  rcases code with digit | mark
  · exact Text.visible_of_isDigit digit
  · rcases mem_codeMarks.mp mark with rfl | rfl | rfl | rfl <;> decide

theorem isRunChar (code : IsCode char) : RunLength.isRunChar char = true := by
  rcases code with digit | mark
  · have within : decide ('0' ≤ char ∧ char ≤ '9') = true :=
      decide_eq_true (Text.bounds_of_isDigit digit)
    unfold RunLength.isRunChar
    rw [within, Bool.true_or, Bool.true_or, Bool.true_or]
  · rcases mem_codeMarks.mp mark with rfl | rfl | rfl | rfl <;> decide

/-- The text of a block has no letter for a width. -/
theorem toLower_ne (code : IsCode char) : char.toLower ≠ 'x' := by
  rcases code with digit | mark
  · rw [Text.toLower_of_isDigit digit]
    rintro rfl
    exact absurd digit (by decide)
  · rcases mem_codeMarks.mp mark with rfl | rfl | rfl | rfl <;> decide

end IsCode

/-- The text of a block has one mark that ends it, in the last place. -/
theorem exists_body (cells : Cells) : ∃ body, encode cells = body ++ ['!'] ∧ '!' ∉ body
    ∧ ∀ char ∈ encode cells, IsCode char := by
  have code : ∀ char ∈ (ofCells cells).flatMap Written.chars,
      char.isDigit = true ∨ char ∈ itemMarks := by
    intro char member
    rcases List.mem_flatMap.mp member with ⟨written, listed, within⟩
    exact (encoded_ofCells cells written listed).chars char within
  refine ⟨_, encode_eq cells, fun ends => ?_, fun char member => ?_⟩
  · exact absurd (code '!' ends) (by decide)
  · rw [encode_eq, List.mem_append, List.mem_singleton] at member
    rcases member with item | rfl
    · exact (code char item).imp_right (List.mem_cons_of_mem '!')
    · exact .inr List.mem_cons_self

/-! ### Reading the text back -/

theorem mem_livingMarks {row : Nat} {states : List UInt8} {mark : Mark} :
    mark ∈ livingMarks row 0 states
      ↔ mark.row = row ∧ states[mark.column]?.getD 0 ≠ 0 ∧ mark.state = 1 := by
  unfold livingMarks
  simp only [List.mem_filterMap, Prod.exists, List.mk_mem_zipIdx_iff_getElem?]
  constructor
  · rintro ⟨state, place, found, made⟩
    split at made
    · cases made
    · cases made
      rw [found]
      exact ⟨rfl, ‹_›, rfl⟩
  · rcases mark with ⟨row, column, state⟩
    rintro ⟨rfl, alive, rfl⟩
    cases found : states[column]? with
    | none =>
        rw [found] at alive
        exact absurd rfl alive
    | some state =>
        rw [found] at alive
        exact ⟨state, column, found, if_neg alive⟩

theorem mem_livingRows {rows : List (List UInt8)} {mark : Mark} :
    mark ∈ livingRows 0 rows
      ↔ (rows[mark.row]?.getD [])[mark.column]?.getD 0 ≠ 0 ∧ mark.state = 1 := by
  unfold livingRows
  simp only [List.mem_flatMap, Prod.exists, List.mk_mem_zipIdx_iff_getElem?, mem_livingMarks]
  constructor
  · rintro ⟨states, place, found, rfl, alive⟩
    rwa [found]
  · rintro ⟨alive, state⟩
    cases found : rows[mark.row]? with
    | none =>
        rw [found] at alive
        exact absurd rfl alive
    | some states =>
        rw [found] at alive
        exact ⟨states, mark.row, found, rfl, alive, state⟩

theorem state_toRows (cells : Cells) (row column : Nat) :
    (cells.toRows[row]?.getD [])[column]?.getD 0 = cells.state row column := by
  unfold Cells.toRows Block.toRows Cells.state Block.state
  by_cases rowInside : row < cells.height
  · by_cases columnInside : column < cells.width <;> simp [rowInside, columnInside]
  · simp [rowInside]

theorem lastMark_livingRows (cells : Cells) (row column : Nat) :
    lastMark (livingRows 0 cells.toRows) row column
      = if cells.state row column = 0 then none else some 1 := by
  split
  · rename_i dead
    rw [← Option.not_isSome_iff_eq_none, isSome_lastMark]
    rintro ⟨mark, member, rfl, rfl⟩
    exact (mem_livingRows.mp member).1 (state_toRows cells _ _ ▸ dead)
  · rename_i alive
    refine lastMark_uniform (fun mark member => (mem_livingRows.mp member).2) ?_
    exact isSome_lastMark.mpr ⟨⟨row, column, 1⟩,
      mem_livingRows.mpr ⟨(state_toRows cells row column).symm ▸ alive, rfl⟩, rfl, rfl⟩

theorem livingRows_eq_nil_iff {cells : Cells} :
    livingRows 0 cells.toRows = [] ↔ ∀ row column, cells.state row column = 0 := by
  rw [eq_nil_iff_lastMark]
  refine forall_congr' fun row => forall_congr' fun column => ?_
  rw [lastMark_livingRows]
  split
  · exact iff_of_true rfl ‹_›
  · exact iff_of_false (Option.some_ne_none 1) ‹_›

theorem all_isRunChar_encode (cells : Cells) : (encode cells).all isRunChar = true := by
  rw [encode_eq, List.all_append, List.all_flatMap, Bool.and_eq_true, List.all_eq_true]
  exact ⟨fun written _ => written.all_isRunChar, by decide⟩

theorem readItems_encode {cells : Cells} (room : Cells.roomFor cells.height cells.width = .ok ()) :
    readItems .none 0 (encode cells) = .ok (some ((ofCells cells).map Written.item)) := by
  have narrow : cells.width < Cells.countLimit := by
    unfold Cells.roomFor at room
    split_ifs at room with countless
    rw [not_or, not_or, not_le, not_le, not_le] at countless
    exact countless.2.1
  rw [encode_eq, readItems_written _ (.inr ⟨[], rfl, rfl⟩)]
  exact if_pos fun written member => (encoded_ofCells cells written member).short narrow

/-- The text of a block draws its living cells. -/
theorem decode_encode_eq {cells : Cells} (room : Cells.roomFor cells.height cells.width = .ok ()) :
    decode (encode cells) =
      if livingRows 0 cells.toRows = [] then .ok none
      else (Cells.roomFor (draw (livingRows 0 cells.toRows)).height
        (draw (livingRows 0 cells.toRows)).width).map fun _ =>
          some (draw (livingRows 0 cells.toRows)) := by
  have runs := all_isRunChar_encode cells
  have nonempty : encode cells ≠ [] := List.append_ne_nil_of_right_ne_nil _ (List.cons_ne_nil _ _)
  have marked : marks 0 0 ((ofCells cells).map Written.item) = livingRows 0 cells.toRows :=
    marks_ofRows 0 cells.toRows
  rw [decode_of_readItems (filter_isBlank runs) runs nonempty (readItems_encode room), marked]

theorem draw_livingRows {cells : Cells} (some : livingRows 0 cells.toRows ≠ []) :
    draw (livingRows 0 cells.toRows) = cells.pruned :=
  (drawn_draw some).eq_pruned (lastMark_livingRows cells)

/-- **The text of a block with a living cell draws what is kept of the block.** -/
theorem decode_encode {cells : Cells} (room : Cells.roomFor cells.height cells.width = .ok ())
    {row column : Nat} (alive : cells.state row column ≠ 0) :
    decode (encode cells) = .ok (some cells.pruned) := by
  have some : livingRows 0 cells.toRows ≠ [] := fun nothing =>
    alive (livingRows_eq_nil_iff.mp nothing row column)
  rw [decode_encode_eq room, if_neg some, draw_livingRows some, Cells.roomFor_pruned room]
  rfl

end RunLength

end Showreel.Pattern
