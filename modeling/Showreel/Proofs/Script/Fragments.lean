import Showreel.Proofs.Number.Decimal
import Showreel.Proofs.Pattern.Encoding
import Showreel.Proofs.Script.Train

/-!
Contract: the text of a block, spread over tokens, is joined again.

Owns:
- the ways to cut the text of a block between its items;
- that no word of scripts is a number or closes a text;
- that no piece is a number, a word of scripts or a symmetry;
- that the pieces are joined up to the mark that ends the text.

Does not own: what the joined text draws.
-/

namespace Showreel

open Number Scalar

namespace Pattern.RunLength.IsCode

variable {char : Char}

/-- No word for a number, no sign and no slash is made of the characters of a text. -/
theorem other (code : IsCode char) :
    (char ≠ '-' ∧ char ≠ '+') ∧ char.toLower ≠ 'n' ∧ char ≠ '/' := by
  rcases code with digit | mark
  · refine ⟨(Literal.other_of_isDigit digit).1, (Literal.other_of_isDigit digit).2, ?_⟩
    rintro rfl
    exact absurd digit (by decide)
  · rcases mem_codeMarks.mp mark with rfl | rfl | rfl | rfl <;> decide

/-- A mark of the text of a block goes on with no number. -/
theorem noDigit (code : IsCode char) (mark : char.isDigit = false) :
    Text.baseDigit? 10 char = none ∧ char ≠ '_' ∧ char ≠ '.' ∧ char ≠ 'e' ∧ char ≠ 'E' := by
  rcases code with digit | listed
  · rw [mark] at digit
    cases digit
  · rcases mem_codeMarks.mp listed with rfl | rfl | rfl | rfl <;> decide

end Pattern.RunLength.IsCode

namespace Script

open Pattern Pattern.RunLength Reading

theorem isScriptWord_of_not_mem {token : String}
    (unlisted : token ∉ Command.words.map Prod.fst ++ reservedWords) :
    isScriptWord token = false := by
  rw [List.mem_append, not_or] at unlisted
  have noCommand : Command.ofWord? token = none := by
    rw [Command.ofWord?, List.lookup_eq_none_iff]
    exact fun entry member => bne_iff_ne.mpr fun same =>
      unlisted.1 (List.mem_map.mpr ⟨entry, member, same.symm⟩)
  rw [isScriptWord, noCommand, List.contains_eq_mem, decide_eq_false unlisted.2]
  rfl

/-- No word of scripts ends with the mark that closes a text. -/
theorem isScriptWord_of_closed {text : String} (closed : isClosed text = true) :
    isScriptWord text = false := by
  have opened : (Command.words.map Prod.fst ++ reservedWords).all (fun word => !isClosed word)
      = true := by
    decide +kernel
  refine isScriptWord_of_not_mem fun listed => ?_
  have unclosed := List.all_eq_true.mp opened text listed
  rw [closed] at unclosed
  cases unclosed

/-- No word of scripts is a number. -/
theorem isNumeric_of_isScriptWord (α : Type) [Scalar α] {token : String}
    (word : isScriptWord token = true) : isNumeric α token = false := by
  have unread : (Command.words.map Prod.fst ++ reservedWords).all (fun word =>
      (Literal.read? word).isNone && (slashParts word).isNone) = true := by
    decide +kernel
  have listed : token ∈ Command.words.map Prod.fst ++ reservedWords := by
    by_contra unlisted
    rw [isScriptWord_of_not_mem unlisted] at word
    cases word
  obtain ⟨noNumber, noFraction⟩ :=
    Bool.and_eq_true_iff.mp (List.all_eq_true.mp unread token listed)
  exact isNumeric_of_unread (Option.isNone_iff_eq_none.mp noNumber)
    (Option.isNone_iff_eq_none.mp noFraction)

/-- A token between two items: it ends with a mark. -/
structure IsPiece (token : String) : Prop where
  code : ∀ char ∈ token.toList, IsCode char
  marked : ∃ mark, token.toList.getLast? = some mark ∧ mark.isDigit = false

namespace IsPiece

variable {token : String}

/-- A piece starts with digits, and a mark follows them. -/
theorem exists_mark (piece : IsPiece token) : ∃ digits mark rest,
    token.toList = digits ++ mark :: rest ∧ (∀ char ∈ digits, char.isDigit = true)
      ∧ mark.isDigit = false := by
  rcases piece.marked with ⟨last, isLast, plain⟩
  have whole : token.toList.takeWhile Char.isDigit ++ token.toList.dropWhile Char.isDigit
      = token.toList := List.takeWhile_append_dropWhile
  cases dropped : token.toList.dropWhile Char.isDigit with
  | nil =>
      have digit := List.dropWhile_eq_nil_iff.mp dropped last (List.mem_of_getLast? isLast)
      rw [plain] at digit
      cases digit
  | cons mark rest =>
      rw [dropped] at whole
      have stopped := List.head?_dropWhile_not Char.isDigit token.toList
      rw [dropped] at stopped
      exact ⟨_, mark, rest, whole.symm, List.all_eq_true.mp List.all_takeWhile, stopped⟩

theorem unread (piece : IsPiece token) : Literal.read? token = none := by
  rcases piece.exists_mark with ⟨digits, mark, rest, text, allDigits, plain⟩
  have code : IsCode mark := piece.code mark (by rw [text]; simp)
  rcases code.noDigit plain with ⟨noDigit, other⟩
  have unsigned : Literal.takeSign token.toList = (false, token.toList) := by
    have codes := piece.code
    cases given : token.toList with
    | nil => rfl
    | cons char others =>
        rw [given] at codes
        exact Literal.takeSign_unsigned (codes char List.mem_cons_self).other.1 others
  rw [Literal.read?_of_visible (fun char member => (piece.code char member).visible) unsigned
    fun char member => (piece.code char member).other.2.1, text]
  exact Literal.readDecimal_marked allDigits noDigit other false

theorem isNumeric (α : Type) [Scalar α] (piece : IsPiece token) : isNumeric α token = false := by
  have whole : slashParts token = none := by
    have unslashed : token.toList.dropWhile (· != '/') = [] := by
      rw [List.dropWhile_eq_nil_iff]
      exact fun char member => bne_iff_ne.mpr (piece.code char member).other.2.2
    unfold slashParts
    dsimp only
    rw [unslashed]
  exact isNumeric_of_unread piece.unread whole

theorem not_mem_words (piece : IsPiece token) :
    token ∉ Command.words.map Prod.fst ++ reservedWords ++ Symmetry.all.map Symmetry.word := by
  have foreign : (Command.words.map Prod.fst ++ reservedWords
      ++ Symmetry.all.map Symmetry.word).all (fun word => word.toList.any fun char =>
        !char.isDigit && !('!' :: itemMarks).contains char) = true := by
    decide +kernel
  intro listed
  rcases List.any_eq_true.mp (List.all_eq_true.mp foreign token listed) with ⟨char, member, other⟩
  rw [Bool.and_eq_true, Bool.not_eq_true', Bool.not_eq_true', List.contains_eq_mem,
    decide_eq_false_iff_not] at other
  rcases piece.code char member with digit | mark
  · rw [other.1] at digit
    cases digit
  · exact other.2 mark

/-- No word of scripts, and no symmetry, is made of the characters of a text. -/
theorem isScriptWord (piece : IsPiece token) : isScriptWord token = false := by
  have unlisted := piece.not_mem_words
  rw [List.mem_append, not_or] at unlisted
  exact isScriptWord_of_not_mem unlisted.1

theorem ofWord?_symmetry (piece : IsPiece token) : Symmetry.ofWord? token = none := by
  have unlisted := piece.not_mem_words
  rw [List.mem_append, not_or] at unlisted
  rw [Symmetry.ofWord?, List.find?_eq_none]
  exact fun symmetry member same =>
    unlisted.2 (List.mem_map.mpr ⟨symmetry, member, beq_iff_eq.mp same⟩)

theorem toList_ne_nil (piece : IsPiece token) : token.toList ≠ [] := by
  rcases piece.marked with ⟨mark, last, -⟩
  intro nothing
  rw [nothing] at last
  cases last

theorem isFragment (piece : IsPiece token) : RunLength.isFragment token = true := by
  rcases piece.marked with ⟨mark, last, plain⟩
  have unended : token.toList.getLast? ≠ some '\n' := by
    rw [last]
    rintro ⟨⟩
    have code := piece.code '\n' (List.mem_of_getLast? last)
    exact absurd code.visible (by decide)
  have runs : token.toList.all RunLength.isRunChar = true :=
    List.all_eq_true.mpr fun char member => (piece.code char member).isRunChar
  have notDigits : token.toList.all Char.isDigit = false := by
    rw [List.all_eq_false]
    exact ⟨mark, List.mem_of_getLast? last, by rw [plain]; exact Bool.false_ne_true⟩
  unfold RunLength.isFragment
  dsimp only
  rw [if_neg unended, runs, notDigits, List.isEmpty_eq_false_iff.mpr piece.toList_ne_nil]
  rfl

/-- **A piece of the text of a block goes on with it.** -/
theorem continuesRun (α : Type) [Scalar α] (piece : IsPiece token) :
    Reading.continuesRun α token = true := by
  unfold Reading.continuesRun
  rw [piece.isScriptWord, piece.isNumeric α, piece.ofWord?_symmetry, piece.isFragment]
  rfl

end IsPiece

/-! ### Joining the pieces -/

/-- The characters of tokens, joined. -/
def joined (tokens : List String) : List Char :=
  tokens.flatMap String.toList

/-- Text is open as long as something is missing. -/
theorem isClosed_of_missing {text : String} {body missing : List Char} (some : missing ≠ [])
    (whole : text.toList ++ missing = body ++ ['!']) (single : '!' ∉ body) :
    isClosed text = false := by
  have within : text.toList <+: body := by
    refine List.prefix_of_prefix_length_le ⟨missing, whole⟩ (List.prefix_append body ['!']) ?_
    have lengths := congrArg List.length whole
    rw [List.length_append, List.length_append, List.length_singleton] at lengths
    have positive := List.length_pos_iff.mpr some
    omega
  unfold isClosed
  rw [beq_eq_false_iff_ne]
  exact fun closed => single (within.subset (List.mem_of_getLast? closed))

/-- **Pieces are joined up to the mark that ends the text**, whatever follows it. -/
theorem joinFragments_pieces (α : Type) [Scalar α] {text : String} {body : List Char}
    {pieces : List String} (pieced : ∀ token ∈ pieces, IsPiece token)
    (whole : text.toList ++ joined pieces = body ++ ['!']) (single : '!' ∉ body)
    (behind rest : List String) :
    joinFragments α text behind (pieces ++ rest)
      = (String.ofList (body ++ ['!']), ⟨pieces.reverse ++ behind, rest⟩) := by
  induction pieces generalizing text behind with
  | nil =>
      have same : text.toList = body ++ ['!'] := (List.append_nil _).symm.trans whole
      have closed : isClosed text = true := by
        rw [isClosed, same, List.getLast?_append]
        rfl
      rw [← same, String.ofList_toList]
      cases rest with
      | nil => rfl
      | cons token others =>
          rw [List.nil_append, joinFragments, closed]
          rfl
  | cons piece others inductionHypothesis =>
      rcases List.forall_mem_cons.mp pieced with ⟨isPiece, othersPieced⟩
      have missing : joined (piece :: others) ≠ [] :=
        List.append_ne_nil_of_left_ne_nil isPiece.toList_ne_nil _
      have goesOn : (!isClosed text && continuesRun α piece) = true := by
        rw [isClosed_of_missing missing whole single, isPiece.continuesRun α]
        rfl
      have wholeToo : (text ++ piece).toList ++ joined others = body ++ ['!'] := by
        rw [String.toList_append, List.append_assoc]
        exact whole
      rw [List.cons_append, joinFragments, if_pos goesOn,
        inductionHypothesis othersPieced wholeToo, List.reverse_cons, List.append_assoc]
      rfl

/-! ### Pieces of the text of a block -/

/-- The ways to cut a text behind items: every piece ends with a mark. -/
structure CutBehindItems (text : List Char) (pieces : List String) : Prop where
  whole : joined pieces = text
  marked : ∀ piece ∈ pieces, ∃ mark, piece.toList.getLast? = some mark ∧ mark.isDigit = false

theorem CutBehindItems.pieces {cells : Cells} {pieces : List String}
    (cut : CutBehindItems (encode cells) pieces) : ∀ piece ∈ pieces, IsPiece piece := by
  rcases exists_body cells with ⟨-, -, -, code⟩
  intro piece member
  refine ⟨fun char within => code char ?_, cut.marked piece member⟩
  rw [← cut.whole]
  exact List.mem_flatMap.mpr ⟨piece, member, within⟩

end Script

end Showreel
