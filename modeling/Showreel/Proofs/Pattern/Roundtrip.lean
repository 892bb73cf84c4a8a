import Showreel.Pattern.Document
import Showreel.Proofs.Pattern.Encoding
import Showreel.Proofs.Text.Visible

/-!
Contract: blocks are read back from their text, alone and within a document.

Owns:
- what is kept of any block, and that nothing more is lost when it is written again;
- header lines, comment lines, and the lines that the text of a block is cut into;
- that a document of such lines has the block that the text has alone.

Does not own: the name, the author and the rule of a document.
-/

namespace Showreel.Pattern

open Showreel.Text

/-! ### What is kept of any block -/

/-- The living cells of a block, each in state one. -/
def Cells.living (cells : Cells) (row column : Nat) : Option UInt8 :=
  if cells.state row column = 0 then none else some 1

/-- What is kept of a block: nothing of a dead one, and else the smallest block that has its living
cells, each in state one. -/
def Cells.Keeps (cells : Cells) : Option Cells → Prop
  | none => ∀ row column, cells.state row column = 0
  | some drawing => RunLength.Drawn cells.living drawing

namespace RunLength

/-- A drawing of living cells is what is kept of it. -/
theorem Drawn.pruned_self {cells drawing : Cells} (drawn : Drawn cells.living drawing) :
    drawing = drawing.pruned := by
  refine drawn.eq_pruned fun row column => ?_
  rw [drawn.state]
  unfold Cells.living
  split <;> rfl

theorem drawn_pruned {cells : Cells} (some : livingRows 0 cells.toRows ≠ []) :
    Drawn cells.living cells.pruned := by
  have states : lastMark (livingRows 0 cells.toRows) = cells.living :=
    funext fun row => funext fun column => lastMark_livingRows cells row column
  rw [← states, ← draw_livingRows some]
  exact drawn_draw some

/-- **The text of a block that exists gives what is kept of it**, and so does the text of that. -/
theorem exists_kept {cells : Cells} (room : Cells.roomFor cells.height cells.width = .ok ()) :
    ∃ kept, cells.Keeps kept ∧ decode (encode cells) = .ok kept
      ∧ ∀ drawing, kept = some drawing → decode (encode drawing) = .ok kept := by
  by_cases dead : ∀ row column, cells.state row column = 0
  · refine ⟨none, dead, ?_, nofun⟩
    rw [decode_encode_eq room, if_pos (livingRows_eq_nil_iff.mpr dead)]
  · have some : livingRows 0 cells.toRows ≠ [] := fun nothing =>
      dead (livingRows_eq_nil_iff.mp nothing)
    have drawn := drawn_pruned some
    obtain ⟨row, column, marked, -⟩ := drawn.lastRow
    have alive : cells.state row column ≠ 0 := fun state => by
      rw [Cells.living, if_pos state] at marked
      cases marked
    have aliveToo : cells.pruned.state row column ≠ 0 := by
      rw [drawn.state, Cells.living, if_neg alive]
      decide
    refine ⟨.some cells.pruned, drawn, decode_encode room alive, ?_⟩
    rintro _ ⟨⟩
    rw [decode_encode (Cells.roomFor_pruned room) aliveToo, ← drawn.pruned_self]

end RunLength

/-! ### Header lines -/

namespace Document

/-- A measure of a header line: a letter of either case and the number that it is given, with
blanks where they may stand. -/
structure Measure (name : Char) where
  before : List Char
  letter : Char
  between : List Char
  after : List Char
  digit : Char
  digits : List Char
  blankBefore : ∀ char ∈ before, isBlank char = true
  blankBetween : ∀ char ∈ between, isBlank char = true
  blankAfter : ∀ char ∈ after, isBlank char = true
  named : letter = name ∨ letter = name.toUpper
  number : ∀ char ∈ digit :: digits, isDigit char = true

/-- A header line: the width, a comma, the height, and whatever may follow. -/
structure Heading where
  width : Measure 'x'
  gap : List Char
  height : Measure 'y'
  ending : List Char
  blank : ∀ char ∈ gap, isBlank char = true

namespace Measure

variable {name : Char}

def chars (measure : Measure name) : List Char :=
  measure.before ++ measure.letter :: (measure.between ++ '=' :: (measure.after
    ++ measure.digit :: measure.digits))

theorem spelled (measure : Measure name) (known : name = 'x' ∨ name = 'y') :
    measure.letter.toLower = name ∧ isBlank measure.letter = false := by
  rcases known with rfl | rfl <;> rcases measure.named with same | same <;> rw [same] <;> decide

end Measure

theorem skipBlanks_append {blanks : List Char} (blank : ∀ char ∈ blanks, isBlank char = true)
    {first : Char} (visible : isBlank first = false) (rest : List Char) :
    skipBlanks (blanks ++ first :: rest) = first :: rest := by
  unfold skipBlanks
  rw [List.dropWhile_append_of_pos blank]
  exact dropWhile_isBlank_of_head rfl visible

theorem dropAssignment_chars {name : Char} (measure : Measure name)
    (known : name = 'x' ∨ name = 'y') (rest : List Char) :
    dropAssignment (String.singleton name) (measure.chars ++ rest)
      = some (measure.digit :: measure.digits ++ rest) := by
  obtain ⟨lower, visible⟩ := measure.spelled known
  have digitVisible : isBlank measure.digit = false :=
    isBlank_of_digit (measure.number _ List.mem_cons_self)
  have equals : ∀ after, dropLetter '=' ('=' :: after) = some after := fun _ => rfl
  have letter : ∀ after, dropLetters (String.singleton name).toList (measure.letter :: after)
      = some after := by
    intro after
    simp [dropLetters, dropLetter, lower]
  unfold dropAssignment Measure.chars
  rw [List.append_assoc, List.cons_append, skipBlanks_append measure.blankBefore visible, letter,
    Option.bind_some, List.append_assoc, List.cons_append,
    skipBlanks_append measure.blankBetween (by decide), equals, Option.map_some, List.append_assoc,
    List.cons_append, skipBlanks_append measure.blankAfter digitVisible]

theorem dropDigits_chars {digit : Char} {digits : List Char}
    (number : ∀ char ∈ digit :: digits, isDigit char = true) (rest : List Char) :
    dropDigits (digit :: digits ++ rest) = some (rest.dropWhile isDigit) := by
  obtain ⟨first, others⟩ := List.forall_mem_cons.mp number
  unfold dropDigits
  rw [List.cons_append]
  dsimp only
  rw [if_pos first, List.dropWhile_append_of_pos others]

/-- Blanks and a comma behind a number are no part of it. -/
theorem dropComma_dropDigits {gap : List Char} (blank : ∀ char ∈ gap, isBlank char = true)
    (rest : List Char) :
    dropComma ((gap ++ ',' :: rest).dropWhile isDigit) = some rest := by
  have undigited : (gap ++ ',' :: rest).dropWhile isDigit = gap ++ ',' :: rest := by
    have noDigit : ∀ char ∈ gap, isDigit char = false := by
      intro char member
      rw [← Bool.not_eq_true]
      intro digit
      have visible := isBlank_of_digit digit
      rw [blank char member] at visible
      cases visible
    cases gap with
    | nil => exact List.dropWhile_cons_of_neg (by decide)
    | cons char others =>
        exact List.dropWhile_cons_of_neg (Bool.eq_false_iff.mp (noDigit char List.mem_cons_self))
  unfold dropComma
  rw [undigited, skipBlanks_append blank (by decide)]
  rfl

namespace Heading

def line (heading : Heading) : List Char :=
  heading.width.chars ++ (heading.gap ++ ',' :: (heading.height.chars ++ heading.ending))

/-- **A header line is read as one.** -/
theorem exists_readHeader? (heading : Heading) : ∃ rule, readHeader? heading.line = some rule := by
  unfold readHeader? line
  rw [show "x" = String.singleton 'x' from rfl, show "y" = String.singleton 'y' from rfl,
    dropAssignment_chars heading.width (.inl rfl), Option.bind_some,
    dropDigits_chars heading.width.number, Option.bind_some,
    dropComma_dropDigits heading.blank, Option.bind_some,
    dropAssignment_chars heading.height (.inr rfl), Option.bind_some,
    dropDigits_chars heading.height.number]
  exact ⟨_, rfl⟩

/-- A header line without the blanks at its ends is one that starts with its letter. -/
theorem exists_trim_line (heading : Heading) : ∃ trimmed : Heading,
    trim heading.line = trimmed.line ∧ trimmed.line.head? = some heading.width.letter := by
  let flush : Measure 'x' :=
    { heading.width with before := [], blankBefore := List.forall_mem_nil _ }
  let core : List Char := flush.chars ++ (heading.gap ++ ',' :: heading.height.chars)
  have whole : heading.line = heading.width.before ++ (core ++ heading.ending) := by
    simp [line, core, flush, Measure.chars]
  obtain ⟨last, isLast⟩ : ∃ last, (heading.height.digit :: heading.height.digits).getLast?
      = some last := ⟨_, List.getLast?_cons⟩
  have closes : core.getLast? = some last := by
    have split : core = (flush.chars ++ (heading.gap ++ ',' :: (heading.height.before
        ++ heading.height.letter :: (heading.height.between ++ '=' :: heading.height.after))))
          ++ heading.height.digit :: heading.height.digits := by
      simp [core, Measure.chars]
    rw [split, List.getLast?_append, isLast]
    rfl
  have visible : isBlank last = false :=
    isBlank_of_digit (heading.height.number last (List.mem_of_getLast? isLast))
  obtain ⟨kept, trimmed⟩ := exists_trim heading.width.blankBefore rfl
    (heading.width.spelled (.inl rfl)).2 closes visible heading.ending
  refine ⟨{ heading with width := flush, ending := kept }, ?_, rfl⟩
  rw [whole, trimmed]
  simp [line, core]

end Heading

/-! ### The lines of a document -/

/-- A document of a block: comment lines, a header line or none, the text of the block cut anywhere,
and whatever follows it. -/
structure Layout (code : List Char) where
  comments : List (List Char)
  heading : Option Heading
  pieces : List (List Char)
  others : List (List Char)
  marked : ∀ line ∈ comments, line.head? = some '#'
  whole : pieces.flatten = code

def Layout.lines {code : List Char} (layout : Layout code) : List (List Char) :=
  layout.comments ++ (layout.heading.toList.map Heading.line ++ (layout.pieces ++ layout.others))

theorem exists_readPreamble_comments (document : Document) {comments : List (List Char)}
    (marked : ∀ line ∈ comments, line.head? = some '#') (rest : List (List Char)) :
    ∃ next, readPreamble document (comments ++ rest) = readPreamble next rest := by
  induction comments generalizing document with
  | nil => exact ⟨document, rfl⟩
  | cons comment others inductionHypothesis =>
      obtain ⟨markedFirst, markedOthers⟩ := List.forall_mem_cons.mp marked
      rw [List.cons_append, readPreamble, if_pos markedFirst]
      exact inductionHypothesis (document.readComment comment) markedOthers

theorem exists_readPreamble_heading (document : Document) (heading : Heading)
    (rest : List (List Char)) :
    ∃ next, readPreamble document (trim heading.line :: rest) = (next, rest) := by
  obtain ⟨trimmed, same, opens⟩ := heading.exists_trim_line
  obtain ⟨rule, header⟩ := trimmed.exists_readHeader?
  have noComment : heading.width.letter ≠ '#' := by
    rcases heading.width.named with letter | letter <;> rw [letter] <;> decide
  rw [same, readPreamble, if_neg, header]
  · exact ⟨_, rfl⟩
  · rw [opens, Option.some.injEq]
    exact noComment

/-- A line without the letter of the width is no header line. -/
theorem readHeader?_eq_none {line : List Char} (other : ∀ char ∈ line, char.toLower ≠ 'x') :
    readHeader? line = none := by
  have noLetter : dropLetters "x".toList (skipBlanks line) = none := by
    have within := List.dropWhile_sublist (p := isBlank) (l := line)
    unfold skipBlanks
    cases skipped : line.dropWhile isBlank with
    | nil => rfl
    | cons char rest =>
        have foreign : char.toLower ≠ 'x' :=
          other char ((skipped ▸ within).subset List.mem_cons_self)
        simp [dropLetters, dropLetter, foreign]
  unfold readHeader? dropAssignment
  rw [noLetter]
  rfl

/-- A piece of the text of a block is neither a comment nor a header line. -/
theorem readPreamble_piece (document : Document) {piece : List Char}
    (code : ∀ char ∈ piece, RunLength.IsCode char) (some : piece ≠ []) (rest : List (List Char)) :
    readPreamble document (piece :: rest) = (document, piece :: rest) := by
  have noComment : piece.head? ≠ .some '#' := fun comment =>
    absurd (code '#' (List.mem_of_head? comment)) (by decide)
  rw [readPreamble, if_neg noComment,
    readHeader?_eq_none fun char member => (code char member).toLower_ne]
  exact if_neg (by simpa using some)

/-- Without a header line, empty lines before the text of a block are left out. -/
theorem exists_readPreamble_pieces (document : Document) {pieces : List (List Char)}
    (code : ∀ char ∈ pieces.flatten, RunLength.IsCode char) (some : pieces.flatten ≠ [])
    (others : List (List Char)) :
    ∃ kept, readPreamble document (pieces ++ others) = (document, kept ++ others)
      ∧ kept.flatten = pieces.flatten := by
  induction pieces with
  | nil => exact absurd rfl some
  | cons piece rest inductionHypothesis =>
      rw [List.flatten_cons] at code some ⊢
      obtain ⟨codePiece, codeRest⟩ := List.forall_mem_append.mp code
      by_cases empty : piece = []
      · subst empty
        obtain ⟨kept, read, same⟩ := inductionHypothesis codeRest some
        exact ⟨kept, read, same⟩
      · exact ⟨piece :: rest, readPreamble_piece document codePiece empty _, List.flatten_cons⟩

/-- **The body of a document ends with the text of a block**, however that is cut. -/
theorem bodyText_pieces {pieces : List (List Char)} {body : List Char}
    (whole : pieces.flatten = body ++ ['!']) (single : '!' ∉ body) (others : List (List Char)) :
    bodyText (pieces ++ others) = body ++ ['!'] := by
  induction pieces generalizing body with
  | nil => exact absurd whole.symm (List.append_ne_nil_of_right_ne_nil _ (List.cons_ne_nil _ _))
  | cons piece rest inductionHypothesis =>
      rw [List.flatten_cons] at whole
      rw [List.cons_append, bodyText]
      rcases List.prefix_concat_iff.mp ⟨rest.flatten, whole⟩ with same | ⟨more, rfl⟩
      · rw [if_pos (by simp [same]), same]
      · rw [List.append_assoc, List.append_cancel_left_eq] at whole
        rw [List.mem_append, not_or] at single
        rw [if_neg (by simp [single.1]), inductionHypothesis whole single.2, List.append_assoc]

/-- What is read of a document of a block, up to the body, leaves the text of the block. -/
theorem exists_body_of_layout {code body : List Char} (layout : Layout code)
    (ends : code = body ++ ['!']) (single : '!' ∉ body)
    (written : ∀ char ∈ code, RunLength.IsCode char) (document : Document) :
    ∃ next rest, readPreamble document (layout.lines.map trim) = (next, rest)
      ∧ bodyText rest = code := by
  subst ends
  have whole := layout.whole
  rw [← whole] at written
  have some : layout.pieces.flatten ≠ [] := by
    rw [whole]
    exact List.append_ne_nil_of_right_ne_nil _ (List.cons_ne_nil _ _)
  have flush : layout.pieces.map trim = layout.pieces := by
    refine (List.map_congr_left fun piece member => ?_).trans (List.map_id _)
    exact trim_of_visible fun char within => isBlank_of_visible
      (written char (List.mem_flatten.mpr ⟨piece, member, within⟩)).visible
  have marked : ∀ line ∈ layout.comments.map trim, line.head? = .some '#' := by
    intro line member
    obtain ⟨comment, listed, rfl⟩ := List.mem_map.mp member
    exact head?_trim (layout.marked comment listed) (by decide)
  obtain ⟨commented, read⟩ := exists_readPreamble_comments document marked
    ((layout.heading.toList.map Heading.line).map trim ++ (layout.pieces ++ layout.others.map trim))
  unfold Layout.lines
  rw [List.map_append, List.map_append, List.map_append, flush, read]
  cases layout.heading with
  | none =>
      obtain ⟨kept, readToo, same⟩ := exists_readPreamble_pieces commented written some
        (layout.others.map trim)
      exact ⟨commented, _, readToo, bodyText_pieces (same.trans whole) single _⟩
  | some heading =>
      obtain ⟨headed, readToo⟩ := exists_readPreamble_heading commented heading
        (layout.pieces ++ layout.others.map trim)
      exact ⟨headed, _, readToo, bodyText_pieces whole single _⟩

/-- **A block is read back from its text, and from every document of it.** What comes back of a
block that exists is what is kept of it: nothing of a dead one, and else its living cells, each in
state one, without the dead rows and columns that end it. The text of that gives it again. -/
theorem read_encode {cells : Cells} (room : Cells.roomFor cells.height cells.width = .ok ()) :
    ∃ kept, cells.Keeps kept ∧ RunLength.decode (RunLength.encode cells) = .ok kept
      ∧ (∀ drawing, kept = some drawing →
        RunLength.decode (RunLength.encode drawing) = .ok kept)
      ∧ ∀ (layout : Layout (RunLength.encode cells)) (text : String),
        Text.lines text = layout.lines →
          ∃ document, read text = .ok document ∧ document.cells = kept := by
  obtain ⟨kept, keeps, decoded, again⟩ := RunLength.exists_kept room
  refine ⟨kept, keeps, decoded, again, fun layout text given => ?_⟩
  obtain ⟨body, ends, single, written⟩ := RunLength.exists_body cells
  obtain ⟨next, rest, preamble, whole⟩ :=
    exists_body_of_layout layout ends single written ⟨none, "", "", standardRule⟩
  unfold read
  dsimp only
  rw [given, preamble]
  dsimp only
  rw [whole, decoded]
  exact ⟨_, rfl, rfl⟩

/-- A block with a dead first row and column, with dead ones at its end, and with other states, in a
document that cuts a count from its letter. -/
theorem read_encode_cut :
    let cells := Cells.ofRows [[0, 0, 0, 0], [0, 1, 3, 0], [5, 0, 0, 0], [0, 0, 0, 0]]
    let text := "#N Blocks\n#C o!\n X = 4 , y=4, rule = B3/S23\n$b\n\n2\no$o$!\nbo"
    Cells.roomFor cells.height cells.width = .ok ()
      ∧ RunLength.encode cells = "$b2o$o$!".toList
      ∧ ∃ kept document, cells.Keeps kept ∧ RunLength.decode (RunLength.encode cells) = .ok kept
        ∧ read text = .ok document ∧ document.cells = kept := by
  intro cells text
  have room : Cells.roomFor cells.height cells.width = .ok () := by decide
  have encoded : RunLength.encode cells = "$b2o$o$!".toList := by decide +kernel
  have space : ∀ char ∈ [' '], isBlank char = true := List.forall_mem_singleton.mpr (by decide)
  have four : ∀ char ∈ ['4'], isDigit char = true := List.forall_mem_singleton.mpr (by decide)
  have noBlank : ∀ char ∈ [], isBlank char = true := List.forall_mem_nil _
  let layout : Layout (RunLength.encode cells) :=
    { comments := ["#N Blocks".toList, "#C o!".toList]
      heading := some
        { width := ⟨[' '], 'X', [' '], [' '], '4', [], space, space, space, .inr rfl, four⟩
          gap := [' ']
          height := ⟨[' '], 'y', [], [], '4', [], space, noBlank, noBlank, .inl rfl, four⟩
          ending := ", rule = B3/S23".toList
          blank := space }
      pieces := ["$b".toList, [], "2".toList, "o$o$!".toList]
      others := ["bo".toList]
      marked := by decide +kernel
      whole := by rw [encoded]; decide +kernel }
  have given : lines text = layout.lines := by
    show lines text = ["#N Blocks", "#C o!", " X = 4 , y=4, rule = B3/S23", "$b", "", "2", "o$o$!",
      "bo"].map String.toList
    decide +kernel +revert
  obtain ⟨kept, keeps, decoded, -, reads⟩ := read_encode room
  obtain ⟨document, done, same⟩ := reads layout text given
  exact ⟨room, encoded, kept, document, keeps, decoded, done, same⟩

end Document

end Showreel.Pattern
