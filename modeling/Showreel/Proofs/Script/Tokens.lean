import Showreel.Proofs.Pattern.Source
import Showreel.Proofs.Text.Visible
import Showreel.Script.Reader

/-!
Contract: text is split into the tokens that it was written from.

Owns:
- tokens with separators between them;
- that such a text has these tokens, and that it is read whole unless it holds a comment mark.

Does not own: the meaning of a token.
-/

namespace Showreel.Script

open Text Pattern.Document

/-! ### Tokens in a text -/

/-- A text of tokens, with separators around each of them. -/
inductive Spaced : List String → List Char → Prop
  | nil {gap : List Char} (blank : ∀ char ∈ gap, isSeparator char = true) : Spaced [] gap
  | cons {gap tail : List Char} {token : String} {others : List String}
      (blank : ∀ char ∈ gap, isSeparator char = true)
      (apart : ∀ char ∈ tail.head?, isSeparator char = true) (spaced : Spaced others tail) :
      Spaced (token :: others) (gap ++ (token.toList ++ tail))

/-- A token that is written in visible characters. -/
def IsToken (token : String) : Prop :=
  token.toList ≠ [] ∧ ∀ char ∈ token.toList, IsVisible char

-- the members of the list are tried, and not all characters there are
instance (token : String) : Decidable (IsToken token) :=
  have := List.decidableBAll IsVisible token.toList
  inferInstanceAs (Decidable (token.toList ≠ [] ∧ ∀ char ∈ token.toList, IsVisible char))

/-- A token without a separator in it. -/
def IsUnbroken (token : String) : Prop :=
  token.toList ≠ [] ∧ ∀ char ∈ token.toList, isSeparator char = false

instance (token : String) : Decidable (IsUnbroken token) :=
  have := List.decidableBAll (isSeparator · = false) token.toList
  inferInstanceAs (Decidable (token.toList ≠ [] ∧ ∀ char ∈ token.toList, isSeparator char = false))

/-- Tokens with a blank before each of them. -/
theorem spaced_blanks (all : List String) :
    Spaced all (all.flatMap fun token => ' ' :: token.toList) := by
  induction all with
  | nil => exact .nil (List.forall_mem_nil _)
  | cons token others inductionHypothesis =>
      refine .cons (List.forall_mem_singleton.mpr (by decide)) ?_ inductionHypothesis
      cases others with
      | nil => exact fun _ impossible => by cases impossible
      | cons next rest =>
          rintro char ⟨⟩
          decide

theorem isSeparator_of_visible {char : Char} (visible : IsVisible char) :
    isSeparator char = false := by
  have noBrace : ∀ brace : Char, 0x7A < brace.toNat → char ≠ brace := by
    rintro _ above rfl
    exact absurd visible.2 (not_le.mpr above)
  unfold isSeparator
  rw [isBlank_of_visible visible, beq_eq_false_iff_ne.mpr (noBrace _ (by decide)),
    beq_eq_false_iff_ne.mpr (noBrace _ (by decide))]
  rfl

theorem IsToken.isUnbroken {token : String} (sound : IsToken token) : IsUnbroken token :=
  ⟨sound.1, fun char member => isSeparator_of_visible (sound.2 char member)⟩

section Pieces

variable {isSep : Char → Bool}

theorem splitPieces_gap {gap : List Char} (blank : ∀ char ∈ gap, isSep char = true)
    (tail : List Char) : splitPieces isSep [] (gap ++ tail) = splitPieces isSep [] tail := by
  induction gap with
  | nil => rfl
  | cons char rest inductionHypothesis =>
      rcases List.forall_mem_cons.mp blank with ⟨separates, blankRest⟩
      rw [List.cons_append, splitPieces, if_pos separates]
      exact inductionHypothesis blankRest

theorem splitPieces_token {token : List Char} (unbroken : ∀ char ∈ token, isSep char = false)
    (current tail : List Char) :
    splitPieces isSep current (token ++ tail)
      = splitPieces isSep (token.reverse ++ current) tail := by
  induction token generalizing current with
  | nil => rfl
  | cons char rest inductionHypothesis =>
      rcases List.forall_mem_cons.mp unbroken with ⟨goesOn, unbrokenRest⟩
      rw [List.cons_append, splitPieces, if_neg (Bool.eq_false_iff.mp goesOn),
        inductionHypothesis unbrokenRest, List.reverse_cons, List.append_assoc]
      rfl

theorem splitPieces_close {current tail : List Char} (some : current ≠ [])
    (apart : ∀ char ∈ tail.head?, isSep char = true) :
    splitPieces isSep current tail = current.reverse :: splitPieces isSep [] tail := by
  have nonempty : current.isEmpty ≠ true := mt List.isEmpty_iff.mp some
  cases tail with
  | nil => exact if_neg nonempty
  | cons char rest =>
      rw [splitPieces, if_pos (apart char rfl), if_neg nonempty, splitPieces,
        if_pos (apart char rfl)]
      rfl

end Pieces

/-- **A text has the tokens that it was written from,** whatever their characters, as long as
none of them separates tokens. -/
theorem tokens_of_unbroken {all : List String} {text : String} (spaced : Spaced all text.toList)
    (unbroken : ∀ token ∈ all, IsUnbroken token) : tokens text = all := by
  unfold tokens
  generalize text.toList = chars at spaced
  induction spaced with
  | nil blank =>
      rename_i gap
      rw [← List.append_nil gap, splitPieces_gap blank]
      rfl
  | cons blank apart spaced inductionHypothesis =>
      rcases List.forall_mem_cons.mp unbroken with ⟨⟨some, joined⟩, unbrokenOthers⟩
      rw [splitPieces_gap blank, splitPieces_token joined, List.append_nil,
        splitPieces_close (mt List.reverse_eq_nil_iff.mp some) apart, List.reverse_reverse,
        List.map_cons, String.ofList_toList, inductionHypothesis unbrokenOthers]

theorem tokens_of_spaced {all : List String} {text : String} (spaced : Spaced all text.toList)
    (sound : ∀ token ∈ all, IsToken token) : tokens text = all :=
  tokens_of_unbroken spaced fun token member => (sound token member).isUnbroken

/-! ### Texts without comments -/

theorem mem_of_mem_splitLines {char : Char} {line current text : List Char}
    (within : char ∈ line) (listed : line ∈ splitLines current text) :
    char ∈ current ∨ char ∈ text := by
  fun_induction splitLines current text with
  | case1 current ended => cases listed
  | case2 current ended =>
      rw [List.mem_singleton.mp listed, List.mem_reverse] at within
      exact .inl within
  | case3 current rest inductionHypothesis =>
      rcases List.mem_cons.mp listed with rfl | later
      · exact .inl (List.mem_reverse.mp within)
      · rcases inductionHypothesis later with impossible | behind
        · cases impossible
        · exact .inr (List.mem_cons_of_mem _ (List.mem_cons_of_mem _ behind))
  | case4 current next rest other ends inductionHypothesis =>
      rcases List.mem_cons.mp listed with rfl | later
      · exact .inl (List.mem_reverse.mp within)
      · rcases inductionHypothesis later with impossible | behind
        · cases impossible
        · exact .inr (List.mem_cons_of_mem _ behind)
  | case5 current next rest other goesOn inductionHypothesis =>
      rcases inductionHypothesis listed with here | behind
      · rcases List.mem_cons.mp here with rfl | before
        · exact .inr List.mem_cons_self
        · exact .inl before
      · exact .inr (List.mem_cons_of_mem _ behind)

/-- Text without line ends is one line, if there is any. -/
theorem splitLines_of_single {text : List Char} (single : ∀ char ∈ text, isLineEnd char = false)
    (current : List Char) :
    splitLines current text
      = if current.isEmpty && text.isEmpty then [] else [current.reverse ++ text] := by
  fun_induction splitLines current text with
  | case1 current ended => simp [ended]
  | case2 current ended => simp [ended]
  | case3 current rest inductionHypothesis =>
      cases single '\r' List.mem_cons_self
  | case4 current next rest other ends inductionHypothesis =>
      rw [single next List.mem_cons_self] at ends
      cases ends
  | case5 current next rest other goesOn inductionHypothesis =>
      rw [inductionHypothesis fun char member => single char (List.mem_cons_of_mem _ member)]
      simp

/-- A text without the comment mark is no commented document. -/
theorem not_commented {text : String} (unmarked : '#' ∉ text.toList) : ¬Commented text := by
  rintro ⟨line, listed, mark⟩
  rcases mem_of_mem_splitLines (List.mem_of_head? mark) listed with impossible | inText
  · cases impossible
  · exact unmarked inText

/-- A text on one line is no commented document, unless it begins with the comment mark. -/
theorem not_commented_of_single {text : String}
    (single : ∀ char ∈ text.toList, isLineEnd char = false)
    (unmarked : text.toList.head? ≠ some '#') : ¬Commented text := by
  rintro ⟨line, listed, mark⟩
  rw [lines, splitLines_of_single single] at listed
  split at listed
  · cases listed
  · rw [List.mem_singleton.mp listed, List.reverse_nil, List.nil_append] at mark
    exact unmarked mark

theorem Spaced.not_mem {all : List String} {text : List Char} {mark : Char}
    (spaced : Spaced all text) (plain : isSeparator mark = false)
    (absent : ∀ token ∈ all, mark ∉ token.toList) : mark ∉ text := by
  have beside : ∀ {gap : List Char}, (∀ char ∈ gap, isSeparator char = true) → mark ∉ gap := by
    intro gap blank member
    rw [blank mark member] at plain
    cases plain
  induction spaced with
  | nil blank => exact beside blank
  | cons blank apart spaced inductionHypothesis =>
      rcases List.forall_mem_cons.mp absent with ⟨absentHere, absentOthers⟩
      rw [List.mem_append, List.mem_append, not_or, not_or]
      exact ⟨beside blank, absentHere, inductionHypothesis absentOthers⟩

end Showreel.Script
