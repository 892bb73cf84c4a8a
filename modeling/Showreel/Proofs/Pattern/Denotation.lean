import Showreel.Proofs.Pattern.RunLength
import Showreel.Proofs.Text.Visible

/-!
Contract: the meaning of run-length text.

Owns:
- items as they are written, with the digits of their counts, and what each of them says;
- the cells that a sequence of items writes, and the state that each cell has in the end;
- that decoding gives every text its meaning, blanks apart.

Does not own: texts that are not sequences of items.
-/

namespace Showreel.Pattern.RunLength

/-! ### Items as they are written -/

/-- What an item repeats. A letter stands for a state, and a prefix before it adds to the state. -/
inductive Tag where
  /-- A dead cell, which has two marks. -/
  | dead (dot : Bool)
  | alive
  | lettered (letter : Fin 24)
  | prefixed (group : Fin 10) (letter : Fin 24)
    (fits : 24 * (group.val + 1) + (letter.val + 1) ≤ 255)
  | rows

/-- An item as it is written: the digits of its count, if it has one, and what they count. -/
structure Written where
  digits : List (Fin 10)
  tag : Tag

def digitChar (digit : Fin 10) : Char :=
  Char.ofNat ('0'.toNat + digit.val)

def letterChar (letter : Fin 24) : Char :=
  Char.ofNat ('A'.toNat + letter.val)

def groupChar (group : Fin 10) : Char :=
  Char.ofNat ('p'.toNat + group.val)

namespace Tag

def chars : Tag → List Char
  | dead dot => [if dot then '.' else 'b']
  | alive => ['o']
  | lettered letter => [letterChar letter]
  | prefixed group letter _ => [groupChar group, letterChar letter]
  | rows => ['$']

/-- The state that a tag writes, if it writes any. -/
def state? : Tag → Option UInt8
  | dead _ | rows => none
  | alive => some 1
  | lettered letter => some (UInt8.ofNat (letter.val + 1))
  | prefixed group letter _ => some (UInt8.ofNat (24 * (group.val + 1) + (letter.val + 1)))

end Tag

namespace Written

def chars (written : Written) : List Char :=
  written.digits.map digitChar ++ written.tag.chars

/-- The count of an item, one if it is not written. -/
def count (written : Written) : Nat :=
  if written.digits = [] then 1
  else written.digits.foldl (fun value digit => value * 10 + digit.val) 0

/-- Where the next item begins. -/
def next (written : Written) (start : Nat × Nat) : Nat × Nat :=
  match written.tag with
  | .rows => (start.1 + written.count, 0)
  | _ => (start.1, start.2 + written.count)

/-- The state that an item writes to a cell. -/
def stateAt (written : Written) (start : Nat × Nat) (row column : Nat) : Option UInt8 :=
  if row = start.1 ∧ start.2 ≤ column ∧ column < start.2 + written.count then written.tag.state?
  else none

end Written

/-- Items, each with the place where it begins. -/
def placed (start : Nat × Nat) : List Written → List ((Nat × Nat) × Written)
  | [] => []
  | written :: rest => (start, written) :: placed (written.next start) rest

/-- The state that the last of the items that write to a cell writes there. -/
def lastWritten (items : List Written) (row column : Nat) : Option UInt8 :=
  (placed (0, 0) items).reverse.findSome? fun entry => entry.2.stateAt entry.1 row column

/-! ### Reading what is written -/

theorem digitChar_spec : ∀ digit : Fin 10,
    (digitChar digit).isDigit = true ∧ (digitChar digit).toNat - '0'.toNat = digit.val
      ∧ isRunChar (digitChar digit) = true := by
  decide

theorem letterChar_spec : ∀ letter : Fin 24, (letterChar letter).isDigit = false
    ∧ ¬('p' ≤ letterChar letter ∧ letterChar letter ≤ 'y') ∧ letterChar letter ≠ '!'
    ∧ letterChar letter ≠ 'o' ∧ ('A' ≤ letterChar letter ∧ letterChar letter ≤ 'X')
    ∧ (letterChar letter).toNat - 'A'.toNat = letter.val
    ∧ isRunChar (letterChar letter) = true := by
  decide

theorem groupChar_spec : ∀ group : Fin 10, (groupChar group).isDigit = false
    ∧ ('p' ≤ groupChar group ∧ groupChar group ≤ 'y')
    ∧ (groupChar group).toNat - 'p'.toNat = group.val ∧ isRunChar (groupChar group) = true := by
  decide

/-- The item that a tag makes with a count. -/
def Tag.item (tag : Tag) (count : Nat) : Item :=
  match tag with
  | .rows => .rows count
  | _ =>
      match tag.state? with
      | some state => .live count state
      | none => .dead count

def Written.item (written : Written) : Item :=
  written.tag.item written.count

theorem readItems_digits (digits : List (Fin 10)) (count : Count) (offset : Nat)
    (rest : List Char) :
    readItems count offset (digits.map digitChar ++ rest)
      = readItems ⟨count.digits + digits.length,
          digits.foldl (fun value digit => value * 10 + digit.val) count.value⟩ offset rest := by
  induction digits generalizing count with
  | nil => rfl
  | cons digit others inductionHypothesis =>
      rcases digitChar_spec digit with ⟨isDigit, value, -⟩
      rw [List.map_cons, List.cons_append, readItems, if_pos isDigit, inductionHypothesis,
        Count.push, value, List.foldl_cons, List.length_cons]
      dsimp only
      rw [Nat.add_assoc, Nat.add_comm 1]

theorem readItems_mark {char : Char} {offset : Nat} {item : Nat → Item}
    (mark : char.isDigit = false) (plain : ¬('p' ≤ char ∧ char ≤ 'y')) (goesOn : char ≠ '!')
    (reads : ∀ run, itemOf? run offset char = some (item run)) (count : Count)
    (rest : List Char) :
    readItems count offset (char :: rest) = (do
      let run ← count.run
      return (← readItems .none 0 rest).map (item run :: ·)) := by
  rw [readItems, if_neg (Bool.eq_false_iff.mp mark), if_neg plain]
  refine bind_congr fun run => ?_
  rw [if_neg goesOn, reads]

/-- A tag is read with the count before it. -/
theorem readItems_tag (tag : Tag) (count : Count) (rest : List Char) :
    readItems count 0 (tag.chars ++ rest) = (do
      let run ← count.run
      return (← readItems .none 0 rest).map (tag.item run :: ·)) := by
  have letterItem : ∀ (letter : Fin 24) (offset run : Nat), offset + (letter.val + 1) ≤ 255 →
      itemOf? run offset (letterChar letter)
        = some (.live run (UInt8.ofNat (offset + (letter.val + 1)))) := by
    intro letter offset run fits
    rcases letterChar_spec letter with ⟨-, -, -, notAlive, isLetter, value, -⟩
    unfold itemOf?
    rw [if_neg notAlive, if_pos isLetter, value, Nat.add_comm (letter.val + 1) offset]
    exact if_pos fits
  cases tag with
  | dead dot =>
      cases dot with
      | false => exact readItems_mark (by decide) (by decide) (by decide) (fun _ => rfl) count rest
      | true => exact readItems_mark (by decide) (by decide) (by decide) (fun _ => rfl) count rest
  | alive => exact readItems_mark (by decide) (by decide) (by decide) (fun _ => rfl) count rest
  | rows => exact readItems_mark (by decide) (by decide) (by decide) (fun _ => rfl) count rest
  | lettered letter =>
      rcases letterChar_spec letter with ⟨mark, plain, goesOn, -⟩
      refine readItems_mark mark plain goesOn (fun run => ?_) count rest
      rw [letterItem letter 0 run (by omega), Nat.zero_add]
      rfl
  | prefixed group letter fits =>
      rcases letterChar_spec letter with ⟨mark, plain, goesOn, -⟩
      rcases groupChar_spec group with ⟨isMark, isGroup, value, -⟩
      rw [Tag.chars, List.cons_append, List.cons_append, List.nil_append, readItems,
        if_neg (Bool.eq_false_iff.mp isMark), if_pos isGroup, if_pos rfl, value,
        Nat.mul_comm]
      refine readItems_mark mark plain goesOn (fun run => ?_) count rest
      rw [letterItem letter _ run fits]
      rfl

theorem readItems_item (written : Written) (rest : List Char) :
    readItems .none 0 (written.chars ++ rest) =
      if written.digits.length ≤ Number.Literal.digitLimit then
        (readItems .none 0 rest).map (Option.map (written.item :: ·))
      else .error .tooManyDigits := by
  have counted : (⟨Count.none.digits + written.digits.length, written.digits.foldl
      (fun value digit => value * 10 + digit.val) Count.none.value⟩ : Count).run
        = if written.digits.length ≤ Number.Literal.digitLimit then .ok written.count
          else .error .tooManyDigits := by
    unfold Count.run Written.count Count.none
    dsimp only
    rw [Nat.zero_add]
    by_cases unwritten : written.digits = []
    · rw [unwritten]
      rfl
    · rw [if_neg (mt List.eq_nil_of_length_eq_zero unwritten), if_neg unwritten]
      by_cases fits : written.digits.length ≤ Number.Literal.digitLimit
      · rw [if_pos fits, if_neg fits.not_gt]
      · rw [if_neg fits, if_pos (not_le.mp fits)]
  unfold Written.chars
  rw [List.append_assoc, readItems_digits, readItems_tag, counted]
  split
  · cases readItems .none 0 rest <;> rfl
  · rfl

/-- What may follow the last item: nothing, or the mark that ends a pattern and any characters of
run-length text. -/
def Ends (ending : List Char) : Prop :=
  ending = [] ∨ ∃ rest, ending = '!' :: rest ∧ rest.all isRunChar = true

/-- **Written items are read as what they say**, unless one of them has too long a count. -/
theorem readItems_written (items : List Written) {ending : List Char} (ends : Ends ending) :
    readItems .none 0 (items.flatMap Written.chars ++ ending) =
      if ∀ written ∈ items, written.digits.length ≤ Number.Literal.digitLimit then
        .ok (some (items.map Written.item))
      else .error .tooManyDigits := by
  induction items with
  | nil =>
      rcases ends with rfl | ⟨rest, rfl, -⟩
      · rfl
      · rfl
  | cons written rest inductionHypothesis =>
      rw [List.flatMap_cons, List.append_assoc, readItems_item, inductionHypothesis]
      by_cases fits : written.digits.length ≤ Number.Literal.digitLimit
      · rw [if_pos fits]
        by_cases others : ∀ written ∈ rest, written.digits.length ≤ Number.Literal.digitLimit
        · rw [if_pos others, if_pos]
          · rfl
          · exact List.forall_mem_cons.mpr ⟨fits, others⟩
        · rw [if_neg others, if_neg]
          · rfl
          · exact fun all => others (List.forall_mem_cons.mp all).2
      · rw [if_neg fits, if_neg]
        exact fun all => fits (List.forall_mem_cons.mp all).1

/-! ### Drawing what is written -/

/-- The cells that an item writes from its place on. -/
def Written.strokes (written : Written) (start : Nat × Nat) : List Mark :=
  match written.tag.state? with
  | some state => (List.range written.count).map fun step => ⟨start.1, start.2 + step, state⟩
  | none => []

theorem marks_written (start : Nat × Nat) (items : List Written) :
    marks start.1 start.2 (items.map Written.item)
      = (placed start items).flatMap fun entry => entry.2.strokes entry.1 := by
  induction items generalizing start with
  | nil => rfl
  | cons written rest inductionHypothesis =>
      rw [List.map_cons, placed, List.flatMap_cons, ← inductionHypothesis]
      rcases written with ⟨digits, tag⟩
      cases tag <;> rfl

/-- What was last written to a cell by one item. -/
theorem lastMark_strokes (written : Written) (start : Nat × Nat) (row column : Nat) :
    lastMark (written.strokes start) row column = written.stateAt start row column := by
  unfold Written.strokes Written.stateAt
  cases written.tag.state? with
  | none => exact (ite_self none).symm
  | some state =>
      dsimp only
      have marked : (lastMark ((List.range written.count).map fun step =>
            ⟨start.1, start.2 + step, state⟩) row column).isSome = true
          ↔ row = start.1 ∧ start.2 ≤ column ∧ column < start.2 + written.count := by
        rw [isSome_lastMark]
        simp only [List.mem_map, List.mem_range]
        constructor
        · rintro ⟨mark, ⟨step, made, rfl⟩, rfl, rfl⟩
          dsimp only
          omega
        · rintro ⟨rfl, low, high⟩
          exact ⟨_, ⟨column - start.2, by omega, rfl⟩, rfl, by dsimp only; omega⟩
      split
      · rename_i covers
        refine lastMark_uniform ?_ (marked.mpr covers)
        rw [List.forall_mem_map]
        exact fun _ _ => rfl
      · rename_i beside
        rwa [← marked, Option.not_isSome_iff_eq_none] at beside

theorem lastMark_marks (items : List Written) (row column : Nat) :
    lastMark (marks 0 0 (items.map Written.item)) row column = lastWritten items row column := by
  rw [show marks 0 0 (items.map Written.item) = _ from marks_written (0, 0) items,
    lastMark_flatMap]
  unfold lastWritten
  simp only [lastMark_strokes]

/-! ### Decoding -/

theorem visible_of_isRunChar {char : Char} (run : isRunChar char = true) :
    Text.IsVisible char := by
  unfold isRunChar at run
  simp only [Bool.or_eq_true, decide_eq_true_eq] at run
  rcases run with ((digit | letter) | group) | mark
  · exact .of_between (by decide) (by decide) digit
  · exact .of_between (by decide) (by decide) letter
  · exact .of_between (by decide) (by decide) group
  · have all : "bo.$!".toList.all (fun mark => decide (Text.IsVisible mark)) = true := by decide
    exact of_decide_eq_true (List.all_eq_true.mp all char (List.contains_iff_mem.mp mark))

theorem filter_isBlank {body : List Char} (runs : body.all isRunChar = true) :
    (body.filter fun char => !Text.isBlank char) = body := by
  rw [List.filter_eq_self]
  intro char member
  rw [Text.isBlank_of_visible (visible_of_isRunChar (List.all_eq_true.mp runs char member))]
  rfl

theorem Tag.all_isRunChar (tag : Tag) : tag.chars.all isRunChar = true := by
  cases tag with
  | dead dot => cases dot <;> decide
  | alive | rows => decide
  | lettered letter =>
      rcases letterChar_spec letter with ⟨-, -, -, -, -, -, isLetter⟩
      simp [Tag.chars, isLetter]
  | prefixed group letter fits =>
      rcases letterChar_spec letter with ⟨-, -, -, -, -, -, isLetter⟩
      rcases groupChar_spec group with ⟨-, -, -, isGroup⟩
      simp [Tag.chars, isLetter, isGroup]

theorem Written.all_isRunChar (written : Written) : written.chars.all isRunChar = true := by
  unfold Written.chars
  rw [List.all_append, Tag.all_isRunChar, Bool.and_true, List.all_map, List.all_eq_true]
  exact fun digit _ => (digitChar_spec digit).2.2

theorem Written.chars_ne_nil (written : Written) : written.chars ≠ [] := by
  unfold Written.chars
  cases written.tag <;> simp [Tag.chars]

theorem Ends.all_isRunChar {ending : List Char} (ends : Ends ending) :
    ending.all isRunChar = true := by
  rcases ends with rfl | ⟨rest, rfl, runs⟩
  · rfl
  · rw [List.all_cons, runs]
    decide

theorem not_unreadable {body : List Char} (runs : body.all isRunChar = true) (some : body ≠ []) :
    ¬(body.isEmpty = true ∨ (!body.all isRunChar) = true) := by
  rw [runs, not_or]
  exact ⟨fun nothing => some (List.isEmpty_iff.mp nothing), Bool.false_ne_true⟩

/-- Text that is read as items draws what they mark. -/
theorem decode_of_readItems {text body : List Char} {items : List Item}
    (spaced : (text.filter fun char => !Text.isBlank char) = body)
    (runs : body.all isRunChar = true) (some : body ≠ [])
    (read : readItems .none 0 body = .ok (.some items)) :
    decode text =
      if marks 0 0 items = [] then .ok none
      else (Cells.roomFor (draw (marks 0 0 items)).height (draw (marks 0 0 items)).width).map
        fun _ => .some (draw (marks 0 0 items)) := by
  unfold decode
  rw [spaced]
  dsimp only
  rw [if_neg (not_unreadable runs some), read]
  dsimp only [bind, Except.bind, Option.map]
  cases marks 0 0 items with
  | nil => rfl
  | cons mark rest =>
      rw [if_neg (List.cons_ne_nil _ _)]
      change (Cells.roomFor (measures (mark :: rest)).1 (measures (mark :: rest)).2 >>= _)
        = (Cells.roomFor (measures (mark :: rest)).1 (measures (mark :: rest)).2).map _
      cases Cells.roomFor (measures (mark :: rest)).1 (measures (mark :: rest)).2 <;> rfl

theorem decode_of_error {text body : List Char} {fault : Fault}
    (spaced : (text.filter fun char => !Text.isBlank char) = body)
    (runs : body.all isRunChar = true) (some : body ≠ [])
    (failed : readItems .none 0 body = .error fault) : decode text = .error fault := by
  unfold decode
  rw [spaced]
  dsimp only
  rw [if_neg (not_unreadable runs some), failed]
  rfl

/-- **Decoding gives every text its meaning.** Let a text be a sequence of items, closed or not,
with blanks anywhere. Where no count has more digits than can be read, the text has no pattern if
its items write no cell; else its pattern is the smallest block at the origin that holds the cells
they write, each with the state that was last written to it, if there is room for that. -/
theorem decode_written (items : List Written) (ending text : List Char) (ends : Ends ending)
    (spaced : (text.filter fun char => !Text.isBlank char)
      = items.flatMap Written.chars ++ ending) :
    ((∃ written ∈ items, Number.Literal.digitLimit < written.digits.length) →
        decode text = .error .tooManyDigits)
      ∧ ((∀ written ∈ items, written.digits.length ≤ Number.Literal.digitLimit) →
        ((∀ row column, lastWritten items row column = none) → decode text = .ok none)
          ∧ ((∃ row column, (lastWritten items row column).isSome = true) →
            ∃ cells : Cells, Drawn (lastWritten items) cells
              ∧ decode text
                = (Cells.roomFor cells.height cells.width).map fun _ => some cells)) := by
  have runs : (items.flatMap Written.chars ++ ending).all isRunChar = true := by
    rw [List.all_append, ends.all_isRunChar, Bool.and_true, List.all_flatMap, List.all_eq_true]
    exact fun written _ => written.all_isRunChar
  have read := readItems_written items ends
  have states : lastMark (marks 0 0 (items.map Written.item)) = lastWritten items :=
    funext fun row => funext fun column => lastMark_marks items row column
  by_cases blank : items.flatMap Written.chars ++ ending = []
  · have undrawn : decode text = .ok none := if_pos (.inl (by rw [spaced, blank]; rfl))
    have nothing : items = [] := by
      rw [List.append_eq_nil_iff, List.flatMap_eq_nil_iff] at blank
      rw [List.eq_nil_iff_forall_not_mem]
      exact fun written member => written.chars_ne_nil (blank.1 written member)
    subst nothing
    refine ⟨?_, fun _ => ⟨fun _ => undrawn, ?_⟩⟩
    · rintro ⟨written, impossible, -⟩
      cases impossible
    · rintro ⟨row, column, impossible⟩
      cases impossible
  · constructor
    · rintro ⟨written, member, long⟩
      rw [if_neg fun all => (all written member).not_gt long] at read
      exact decode_of_error spaced runs blank read
    · intro short
      rw [if_pos short] at read
      have decoded := decode_of_readItems spaced runs blank read
      rw [← states, ← eq_nil_iff_lastMark]
      constructor
      · intro unmarked
        rw [decoded, if_pos unmarked]
      · rintro ⟨row, column, marked⟩
        have some : marks 0 0 (items.map Written.item) ≠ [] := by
          intro unmarked
          rw [unmarked] at marked
          cases marked
        exact ⟨_, drawn_draw some, decoded.trans (if_neg some)⟩

/-- A row that is begun anew, a state with a prefix, blanks, and what follows the mark that ends a
pattern. -/
theorem decode_written_overwritten :
    let items : List Written := [⟨[0, 3], .alive⟩, ⟨[0], .rows⟩, ⟨[], .dead true⟩,
      ⟨[], .prefixed 9 14 (by decide)⟩, ⟨[2], .rows⟩, ⟨[], .lettered 1⟩]
    let ending := "!7b$".toList
    let text := "03o 0$.yO2$ \n B! 7b$".toList
    Ends ending
      ∧ (text.filter fun char => !Text.isBlank char) = items.flatMap Written.chars ++ ending
      ∧ (∀ written ∈ items, written.digits.length ≤ Number.Literal.digitLimit)
      ∧ (lastWritten items 0 0, lastWritten items 0 1, lastWritten items 1 0,
          lastWritten items 2 0) = (some 1, some 255, none, some 2)
      ∧ ∃ cells : Cells, Drawn (lastWritten items) cells
        ∧ decode text = (Cells.roomFor cells.height cells.width).map fun _ => some cells := by
  intro items ending text
  have ends : Ends ending := .inr ⟨"7b$".toList, by decide, by decide⟩
  have spaced : (text.filter fun char => !Text.isBlank char)
      = items.flatMap Written.chars ++ ending := by decide
  have short : ∀ written ∈ items, written.digits.length ≤ Number.Literal.digitLimit := by decide
  exact ⟨ends, spaced, short, by decide,
    ((decode_written items ending text ends spaced).2 short).2 ⟨0, 0, by decide⟩⟩

/-- A count that says one, after zeros. -/
def padded (zeros : Nat) : Written :=
  ⟨List.replicate zeros 0 ++ [1], .alive⟩

theorem count_padded (zeros : Nat) : (padded zeros).count = 1 := by
  have nothing : (List.replicate zeros (0 : Fin 10)).foldl
      (fun value digit => value * 10 + digit.val) 0 = 0 := by
    induction zeros with
    | zero => rfl
    | succ zeros inductionHypothesis => exact inductionHypothesis
  unfold Written.count padded
  rw [if_neg (List.append_ne_nil_of_right_ne_nil _ (List.cons_ne_nil 1 [])), List.foldl_append,
    nothing]
  rfl

theorem decode_padded {zeros : Nat} (long : Number.Literal.digitLimit ≤ zeros) :
    decode (padded zeros).chars = .error .tooManyDigits := by
  have runs := (padded zeros).all_isRunChar
  refine decode_of_error (filter_isBlank runs) runs (padded zeros).chars_ne_nil ?_
  rw [← List.append_nil (padded zeros).chars, readItems_item, if_neg]
  unfold padded
  rw [List.length_append, List.length_replicate]
  exact (Nat.lt_succ_of_le long).not_ge

theorem lastWritten_padded (zeros : Nat) : lastWritten [padded zeros] 0 0 = some 1 := by
  have covers : 0 = 0 ∧ 0 ≤ 0 ∧ 0 < 0 + (padded zeros).count := by
    rw [count_padded]
    decide
  have writes : (padded zeros).stateAt (0, 0) 0 0 = some 1 := if_pos covers
  simp only [lastWritten, placed, List.reverse_singleton, List.findSome?_cons, writes]

/-- A cell that is written once is not read where its count has too many digits. -/
theorem decode_padded_long :
    (padded 4300).count = 1 ∧ lastWritten [padded 4300] 0 0 = some 1
      ∧ decode (padded 4300).chars = .error .tooManyDigits :=
  ⟨count_padded 4300, lastWritten_padded 4300, decode_padded le_rfl⟩

end Showreel.Pattern.RunLength
