import Mathlib.Data.List.Induction
import Mathlib.Order.MinMax
import Showreel.Pattern.RunLength

/-!
Contract: what run-length text can fail for, and what its written cells draw.

Owns:
- that decoding fails for want of room only;
- the state that was last written to a cell;
- the measures of a drawing, and the state of each of its cells;
- blocks that are drawn by what is written to each of their cells.

Does not own: where the items of a text write cells.
-/

namespace Showreel.Pattern

namespace Block

variable {height width : Nat}

theorem state_write (block : Block height width) (row column atRow atColumn : Nat) (value : UInt8) :
    (block.write row column value).state atRow atColumn
      = if atRow < height ∧ atColumn < width ∧ row = atRow ∧ column = atColumn then value
        else block.state atRow atColumn := by
  unfold state write
  by_cases rowInside : atRow < height
  · by_cases columnInside : atColumn < width
    · rw [dif_pos rowInside, dif_pos columnInside, dif_pos rowInside, dif_pos columnInside]
      simp only [Vector.getElem_mk, Array.getElem_modify]
      by_cases same : row = atRow
      · subst same
        simp [Vector.getElem_setIfInBounds, rowInside, columnInside]
      · simp [same, rowInside, columnInside]
    · simp [columnInside]
  · simp [rowInside]

end Block

namespace RunLength

/-! ### Faults -/

/-- The faults of a text that asks for more than can be read or held. -/
def sizeFaults : List Fault := [.tooManyDigits, .blockTooLarge, .outOfMemory]

variable {fault : Fault}

theorem run_error {count : Count} (failed : count.run = .error fault) :
    fault = .tooManyDigits := by
  unfold Count.run at failed
  split at failed
  · cases failed
  · split at failed
    · cases failed
      rfl
    · cases failed

theorem readItems_error {count : Count} {offset : Nat} {text : List Char}
    (failed : readItems count offset text = .error fault) : fault = .tooManyDigits := by
  induction text generalizing count offset with
  | nil => cases failed
  | cons char rest inductionHypothesis =>
      unfold readItems at failed
      split at failed
      · exact inductionHypothesis failed
      · split at failed
        · split at failed
          · exact inductionHypothesis failed
          · cases failed
        · cases counted : count.run with
          | error other =>
              rw [counted] at failed
              cases failed
              exact run_error counted
          | ok run =>
              rw [counted] at failed
              change (if char = '!' then _ else _) = _ at failed
              split at failed
              · cases failed
              · split at failed
                · cases failed
                · rename_i item _
                  cases others : readItems .none 0 rest with
                  | error other =>
                      rw [others] at failed
                      cases failed
                      exact inductionHypothesis others
                  | ok items =>
                      rw [others] at failed
                      cases failed

theorem roomFor_error {height width : Nat} (failed : Cells.roomFor height width = .error fault) :
    fault = .blockTooLarge ∨ fault = .outOfMemory := by
  unfold Cells.roomFor at failed
  split at failed
  · cases failed
    exact .inl rfl
  · split at failed
    · cases failed
      exact .inr rfl
    · cases failed

theorem decode_error {text : List Char} (failed : decode text = .error fault) :
    fault ∈ sizeFaults := by
  unfold decode at failed
  dsimp only at failed
  split at failed
  · cases failed
  · cases items : readItems .none 0 (text.filter fun char => !Text.isBlank char) with
    | error other =>
        rw [items] at failed
        cases failed
        simp [sizeFaults, readItems_error items]
    | ok read =>
        rw [items] at failed
        dsimp only [bind, Except.bind] at failed
        cases written : read.map (marks 0 0) with
        | none =>
            rw [written] at failed
            cases failed
        | some marked =>
            rw [written] at failed
            cases marked with
            | nil => cases failed
            | cons mark rest =>
                cases room : Cells.roomFor (measures (mark :: rest)).1
                    (measures (mark :: rest)).2 with
                | error other =>
                    dsimp only at failed
                    rw [room] at failed
                    cases failed
                    simpa [sizeFaults] using .inr (roomFor_error room)
                | ok _ =>
                    dsimp only at failed
                    rw [room] at failed
                    cases failed

/-! ### The last mark -/

/-- The state that was last written to a cell. -/
def lastMark (written : List Mark) (row column : Nat) : Option UInt8 :=
  (written.reverse.find? fun mark => mark.row == row && mark.column == column).map Mark.state

theorem lastMark_append (earlier later : List Mark) (row column : Nat) :
    lastMark (earlier ++ later) row column
      = (lastMark later row column).or (lastMark earlier row column) := by
  unfold lastMark
  rw [List.reverse_append, List.find?_append, Option.map_or]

/-- What was last written is what the last of the writers wrote there. -/
theorem lastMark_flatMap {Writer : Type} (writers : List Writer) (writes : Writer → List Mark)
    (row column : Nat) :
    lastMark (writers.flatMap writes) row column
      = writers.reverse.findSome? fun writer => lastMark (writes writer) row column := by
  induction writers with
  | nil => rfl
  | cons writer rest inductionHypothesis =>
      rw [List.flatMap_cons, lastMark_append, inductionHypothesis, List.reverse_cons,
        List.findSome?_append, List.findSome?_singleton]

theorem isSome_lastMark {written : List Mark} {row column : Nat} :
    (lastMark written row column).isSome = true
      ↔ ∃ mark ∈ written, mark.row = row ∧ mark.column = column := by
  unfold lastMark
  rw [Option.isSome_map, List.find?_isSome]
  simp only [List.mem_reverse, Bool.and_eq_true, beq_iff_eq]

theorem eq_nil_iff_lastMark {written : List Mark} :
    written = [] ↔ ∀ row column, lastMark written row column = none := by
  constructor
  · rintro rfl _ _
    rfl
  · intro unmarked
    rw [List.eq_nil_iff_forall_not_mem]
    intro mark member
    have marked := isSome_lastMark.mpr ⟨mark, member, rfl, rfl⟩
    rw [unmarked] at marked
    cases marked

/-- Where every writer writes one state, that state is the last one. -/
theorem lastMark_uniform {written : List Mark} {state : UInt8}
    (uniform : ∀ mark ∈ written, mark.state = state) {row column : Nat}
    (marked : (lastMark written row column).isSome = true) :
    lastMark written row column = some state := by
  rcases Option.isSome_iff_exists.mp marked with ⟨last, found⟩
  rw [found]
  rcases Option.map_eq_some_iff.mp found with ⟨mark, first, rfl⟩
  rw [uniform mark (List.mem_reverse.mp (List.mem_of_find?_eq_some first))]

theorem state_foldl_write {height width : Nat} (written : List Mark) (block : Block height width)
    {row column : Nat} (rowInside : row < height) (columnInside : column < width) :
    (written.foldl (fun block mark => block.write mark.row mark.column mark.state) block).state
        row column = (lastMark written row column).getD (block.state row column) := by
  induction written using List.reverseRecOn with
  | nil => rfl
  | append_singleton earlier mark inductionHypothesis =>
      rw [List.foldl_append, lastMark_append]
      change ((earlier.foldl _ block).write mark.row mark.column mark.state).state row column = _
      rw [Block.state_write, inductionHypothesis]
      by_cases here : mark.row = row ∧ mark.column = column
      · rw [if_pos ⟨rowInside, columnInside, here⟩]
        simp [lastMark, here]
      · rw [if_neg fun all => here all.2.2]
        simp [lastMark, here]

/-! ### Measures -/

theorem measures_append (earlier : List Mark) (mark : Mark) :
    measures (earlier ++ [mark]) = (max (measures earlier).1 (mark.row + 1),
      max (measures earlier).2 (mark.column + 1)) := by
  unfold measures
  rw [List.foldl_append]
  rfl

theorem lt_measures {written : List Mark} {mark : Mark} (member : mark ∈ written) :
    mark.row < (measures written).1 ∧ mark.column < (measures written).2 := by
  induction written using List.reverseRecOn with
  | nil => cases member
  | append_singleton earlier last inductionHypothesis =>
      rw [measures_append]
      dsimp only
      rcases List.mem_append.mp member with before | now
      · have bounds := inductionHypothesis before
        omega
      · rw [List.mem_singleton.mp now]
        omega

/-- Some cell is in the last row, and some in the last column. -/
theorem measures_attained {written : List Mark} (some : written ≠ []) :
    (∃ mark ∈ written, (measures written).1 = mark.row + 1)
      ∧ ∃ mark ∈ written, (measures written).2 = mark.column + 1 := by
  induction written using List.reverseRecOn with
  | nil => exact absurd rfl some
  | append_singleton earlier last inductionHypothesis =>
      rw [measures_append]
      dsimp only
      have lastMember : last ∈ earlier ++ [last] := by simp
      by_cases nothing : earlier = []
      · subst nothing
        exact ⟨⟨last, lastMember, Nat.zero_max _⟩, ⟨last, lastMember, Nat.zero_max _⟩⟩
      · rcases inductionHypothesis nothing with
          ⟨⟨low, lowMember, lowest⟩, right, rightMember, rightmost⟩
        constructor
        · rcases max_choice (measures earlier).1 (last.row + 1) with same | same
          · exact ⟨low, List.mem_append_left _ lowMember, same.trans lowest⟩
          · exact ⟨last, lastMember, same⟩
        · rcases max_choice (measures earlier).2 (last.column + 1) with same | same
          · exact ⟨right, List.mem_append_left _ rightMember, same.trans rightmost⟩
          · exact ⟨last, lastMember, same⟩

/-! ### Drawings -/

/-- The smallest block at the origin that has the given states, and no living cell beside them. -/
structure Drawn (states : Nat → Nat → Option UInt8) (cells : Cells) : Prop where
  inside : ∀ row column, (states row column).isSome = true →
    row < cells.height ∧ column < cells.width
  lastRow : ∃ row column, (states row column).isSome = true ∧ cells.height = row + 1
  lastColumn : ∃ row column, (states row column).isSome = true ∧ cells.width = column + 1
  state : ∀ row column, cells.state row column = (states row column).getD 0

/-- **Written cells draw the smallest block that holds them**, each with the state that was last
written to it. -/
theorem drawn_draw {written : List Mark} (some : written ≠ []) :
    Drawn (lastMark written) (draw written) := by
  rcases measures_attained some with ⟨⟨low, lowMember, lowest⟩, right, rightMember, rightmost⟩
  refine ⟨?_, ?_, ?_, ?_⟩
  · intro row column marked
    rcases isSome_lastMark.mp marked with ⟨mark, member, rfl, rfl⟩
    exact lt_measures member
  · exact ⟨low.row, low.column, isSome_lastMark.mpr ⟨low, lowMember, rfl, rfl⟩, lowest⟩
  · exact ⟨right.row, right.column, isSome_lastMark.mpr ⟨right, rightMember, rfl, rfl⟩, rightmost⟩
  · intro row column
    by_cases inside : row < (measures written).1 ∧ column < (measures written).2
    · have drawn := state_foldl_write written (Block.dead (measures written).1 (measures written).2)
        inside.1 inside.2
      rwa [Block.state_dead] at drawn
    · have unmarked : lastMark written row column = none := by
        rw [← Option.not_isSome_iff_eq_none, isSome_lastMark]
        rintro ⟨mark, member, rfl, rfl⟩
        exact inside (lt_measures member)
      rw [unmarked]
      unfold Cells.state Block.state
      split
      · rename_i rowInside
        split
        · rename_i columnInside
          exact absurd ⟨rowInside, columnInside⟩ inside
        · rfl
      · rfl

end RunLength

end Showreel.Pattern
