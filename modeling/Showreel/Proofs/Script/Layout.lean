import Showreel.Proofs.Script.Quotation

/-!
Contract: the layout of a text, its tokens aside.

Owns:
- layouts of tokens: runs of separators at both ends of a text and between neighbours;
- that a text has some tokens exactly if it is a layout of them;
- that the layout of a text without comments never influences what is interpreted.

Does not own: documents with comment lines, whose line ends count.
-/

namespace Showreel.Script

open Text Pattern.Document

/-- Runs of separators around some tokens: one in front of them all and one behind each. Only those
at the two ends may be empty. -/
structure Layout (all : List String) where
  front : List Char
  behind : List (List Char)
  length_behind : behind.length = all.length
  front_separates : ∀ char ∈ front, isSeparator char = true
  behind_separates : ∀ char ∈ behind.flatten, isSeparator char = true
  apart : ∀ run ∈ behind.dropLast, run ≠ []

namespace Layout

/-- Tokens with a run of characters behind each. -/
def woven (all : List String) (behind : List (List Char)) : List Char :=
  (List.zipWith (fun token run => token.toList ++ run) all behind).flatten

/-- The characters of the text that is laid out. -/
def chars {all : List String} (layout : Layout all) : List Char :=
  layout.front ++ woven all layout.behind

@[simp] theorem woven_nil (behind : List (List Char)) : woven [] behind = [] := rfl

@[simp] theorem woven_cons (token : String) (others : List String) (run : List Char)
    (runs : List (List Char)) :
    woven (token :: others) (run :: runs) = token.toList ++ (run ++ woven others runs) := by
  simp [woven]

/-- Tokens with runs behind them are spaced, whatever separators stand in front. -/
theorem spaced_woven {all : List String} {front : List Char} {behind : List (List Char)}
    (length : behind.length = all.length) (frontSeparates : ∀ char ∈ front, isSeparator char = true)
    (behindSeparates : ∀ char ∈ behind.flatten, isSeparator char = true)
    (apart : ∀ run ∈ behind.dropLast, run ≠ []) : Spaced all (front ++ woven all behind) := by
  induction all generalizing front behind with
  | nil =>
      rw [woven_nil, List.append_nil]
      exact .nil frontSeparates
  | cons token others inductionHypothesis =>
      obtain ⟨run, runs, rfl⟩ := List.exists_cons_of_length_eq_add_one length
      rw [List.flatten_cons, List.forall_mem_append] at behindSeparates
      obtain ⟨runSeparates, runsSeparate⟩ := behindSeparates
      have lengths : runs.length = others.length := Nat.succ.inj length
      rw [woven_cons]
      refine .cons frontSeparates ?_ (inductionHypothesis lengths runSeparates runsSeparate ?_)
      · -- only the last run may be empty, and nothing is behind it
        intro char first
        cases run with
        | cons separator rest =>
            obtain rfl : separator = char := Option.some.inj first
            exact runSeparates separator List.mem_cons_self
        | nil =>
            cases runs with
            | nil =>
                obtain rfl := List.eq_nil_of_length_eq_zero lengths.symm
                cases first
            | cons next rest => exact absurd rfl (apart [] List.mem_cons_self)
      · intro other member
        cases runs with
        | nil => cases member
        | cons next rest => exact apart other (List.mem_cons_of_mem _ member)

theorem spaced {all : List String} (layout : Layout all) : Spaced all layout.chars :=
  spaced_woven layout.length_behind layout.front_separates layout.behind_separates layout.apart

/-- A layout with one more token in front. -/
def cons {all : List String} (layout : Layout all) (gap : List Char) (token : String)
    (separates : ∀ char ∈ gap, isSeparator char = true)
    (apart : all ≠ [] → layout.front ≠ []) : Layout (token :: all) where
  front := gap
  behind := layout.front :: layout.behind
  length_behind := congrArg (· + 1) layout.length_behind
  front_separates := separates
  behind_separates := List.forall_mem_append.mpr ⟨layout.front_separates, layout.behind_separates⟩
  apart := by
    intro run member
    cases runs : layout.behind with
    | nil =>
        rw [runs] at member
        cases member
    | cons next rest =>
        have some : all ≠ [] := by
          rintro rfl
          have length := layout.length_behind
          rw [runs] at length
          cases length
        rw [runs, List.dropLast_cons_of_ne_nil (List.cons_ne_nil _ _), ← runs] at member
        rcases List.mem_cons.mp member with rfl | later
        · exact apart some
        · exact layout.apart run later

/-- Every spaced text is a layout of its tokens, if none of them is empty. -/
theorem exists_of_spaced {all : List String} {text : List Char} (spaced : Spaced all text)
    (unbroken : ∀ token ∈ all, IsUnbroken token) : ∃ layout : Layout all, layout.chars = text := by
  induction spaced with
  | nil blank =>
      rename_i gap
      exact ⟨⟨gap, [], rfl, blank, List.forall_mem_nil _, List.forall_mem_nil _⟩,
        List.append_nil gap⟩
  | cons blank apart spaced inductionHypothesis =>
      rename_i gap tail token others
      obtain ⟨-, unbrokenOthers⟩ := List.forall_mem_cons.mp unbroken
      obtain ⟨layout, rfl⟩ := inductionHypothesis unbrokenOthers
      refine ⟨layout.cons gap token blank fun some empty => ?_, ?_⟩
      · -- the next token would begin where a separator has to stand
        obtain ⟨next, rest, rfl⟩ := List.exists_cons_of_ne_nil some
        obtain ⟨run, runs, behind⟩ := List.exists_cons_of_length_eq_add_one layout.length_behind
        obtain ⟨visible, joined⟩ := unbrokenOthers next List.mem_cons_self
        obtain ⟨first, chars, spelt⟩ := List.exists_cons_of_ne_nil visible
        have separates := apart first (by rw [Layout.chars, empty, behind, woven_cons, spelt]; rfl)
        rw [joined first (by rw [spelt]; exact List.mem_cons_self)] at separates
        cases separates
      · change gap ++ woven (token :: others) (layout.front :: layout.behind) = _
        rw [woven_cons]
        rfl

end Layout

/-! ### Texts and their tokens -/

/-- Tokens that a text falls into: they are spaced, and none of them has a separator in it. -/
structure Splits (all : List String) (text : List Char) : Prop where
  spaced : Spaced all text
  unbroken : ∀ token ∈ all, IsUnbroken token

namespace Splits

variable {all : List String} {text : List Char}

theorem nil : Splits [] [] :=
  ⟨.nil (List.forall_mem_nil _), List.forall_mem_nil _⟩

theorem cons_separator (splits : Splits all text) {char : Char}
    (separates : isSeparator char = true) : Splits all (char :: text) :=
  ⟨splits.spaced.cons_separator separates, splits.unbroken⟩

/-- One more token in front of a text that begins with a separator, or is empty. -/
theorem cons_token (splits : Splits all text) {token : List Char} (some : token ≠ [])
    (joined : ∀ char ∈ token, isSeparator char = false)
    (apart : ∀ char ∈ text.head?, isSeparator char = true) :
    Splits (String.ofList token :: all) (token ++ text) := by
  have spelt : (String.ofList token).toList = token := String.toList_ofList
  refine ⟨?_, List.forall_mem_cons.mpr ⟨?_, splits.unbroken⟩⟩
  · have spaced : Spaced (String.ofList token :: all)
        ([] ++ ((String.ofList token).toList ++ text)) :=
      .cons (List.forall_mem_nil _) apart splits.spaced
    rwa [List.nil_append, spelt] at spaced
  · rw [IsUnbroken, spelt]
    exact ⟨some, joined⟩

end Splits

/-- The current piece is closed by the separator behind it, or by the end of the text. -/
theorem splits_close {current tail : List Char}
    (joined : ∀ char ∈ current, isSeparator char = false)
    (apart : ∀ char ∈ tail.head?, isSeparator char = true)
    (rest : Splits ((splitPieces isSeparator [] tail).map String.ofList) tail) :
    Splits ((splitPieces isSeparator current tail).map String.ofList)
      (current.reverse ++ tail) := by
  by_cases begun : current = []
  · rwa [begun]
  · rw [splitPieces_close begun apart, List.map_cons]
    exact rest.cons_token (mt List.reverse_eq_nil_iff.mp begun)
      (fun char member => joined char (List.mem_reverse.mp member)) apart

/-- Every text falls into its pieces. `current` is the start of the first one, reversed. -/
theorem splits_splitPieces (text : List Char) {current : List Char}
    (joined : ∀ char ∈ current, isSeparator char = false) :
    Splits ((splitPieces isSeparator current text).map String.ofList)
      (current.reverse ++ text) := by
  induction text generalizing current with
  | nil => exact splits_close joined (fun _ impossible => nomatch impossible) .nil
  | cons char rest inductionHypothesis =>
      cases separates : isSeparator char with
      | true =>
          refine splits_close joined (fun _ first => Option.some.inj first ▸ separates) ?_
          have behind := inductionHypothesis (List.forall_mem_nil _)
          rw [← List.singleton_append, splitPieces_gap (List.forall_mem_singleton.mpr separates)]
          exact behind.cons_separator separates
      | false =>
          have goesOn := inductionHypothesis (List.forall_mem_cons.mpr ⟨separates, joined⟩)
          rw [splitPieces, if_neg (Bool.eq_false_iff.mp separates)]
          rwa [List.reverse_cons, List.append_assoc, List.singleton_append] at goesOn

/-- The tokens of a text are what it falls into. -/
theorem tokens_eq_iff {all : List String} {text : String} :
    tokens text = all ↔ Splits all text.toList := by
  constructor
  · rintro rfl
    exact splits_splitPieces text.toList (List.forall_mem_nil _)
  · rintro ⟨spaced, unbroken⟩
    exact tokens_of_unbroken spaced unbroken

namespace Layout

variable {all : List String}

def text (layout : Layout all) : String :=
  String.ofList layout.chars

theorem tokens_text (layout : Layout all) (unbroken : ∀ token ∈ all, IsUnbroken token) :
    tokens layout.text = all := by
  refine tokens_eq_iff.mpr ⟨?_, unbroken⟩
  rw [text, String.toList_ofList]
  exact layout.spaced

theorem exists_of_tokens {text : String} (split : tokens text = all) :
    ∃ layout : Layout all, layout.text = text := by
  have splits := tokens_eq_iff.mp split
  obtain ⟨layout, laid⟩ := exists_of_spaced splits.spaced splits.unbroken
  exact ⟨layout, by rw [Layout.text, laid, String.ofList_toList]⟩

end Layout

/-! ### Reading -/

theorem ofText_eq_iff {all : List String} {text : String} :
    Reader.ofText text = Reader.ofTokens all ↔ tokens text = all :=
  ⟨congrArg Reader.ahead, congrArg Reader.ofTokens⟩

/-- Texts without comment lines that have the same tokens mean the same. -/
theorem interpret_eq_of_tokens {α : Type} [Number.Scalar α] (context : Context α)
    {text other : String} (plain : ¬Commented text) (plainToo : ¬Commented other)
    (same : tokens text = tokens other) : interpret context text = interpret context other := by
  refine interpret_eq_of_start context ?_
  rw [start_ahead, start_ahead, if_neg plain, if_neg plainToo, scriptSource_of_not_commented plain,
    scriptSource_of_not_commented plainToo, same]

/-- **The layout of a script does not count.** A reader of a text holds some tokens exactly if each
of them is a token and the text is a layout of them. Any two layouts of the same tokens are
interpreted alike, unless one of them has a comment line. -/
theorem interpret_layouts {α : Type} [Number.Scalar α] (context : Context α) (all : List String) :
    (∀ text, Reader.ofText text = Reader.ofTokens all
        ↔ (∀ token ∈ all, IsUnbroken token) ∧ ∃ layout : Layout all, layout.text = text)
      ∧ ((∀ token ∈ all, IsUnbroken token) → ∀ layout other : Layout all,
        ¬Commented layout.text → ¬Commented other.text →
        interpret context layout.text = interpret context other.text) := by
  refine ⟨fun text => ?reader, fun unbroken layout other plain plainToo => ?alike⟩
  case reader =>
    rw [ofText_eq_iff]
    constructor
    · exact fun split => ⟨(tokens_eq_iff.mp split).unbroken, Layout.exists_of_tokens split⟩
    · rintro ⟨unbroken, layout, rfl⟩
      exact layout.tokens_text unbroken
  case alike =>
    have same := (layout.tokens_text unbroken).trans (other.tokens_text unbroken).symm
    exact interpret_eq_of_tokens context plain plainToo same

/-- Blanks of several widths, line ends and braces stand around the tokens of a script. -/
theorem interpret_layouts_braces :
    let context : Context Float := ⟨.standard, .standard, .standard⟩
    let all := ["[[", "X", "5", "]]"]
    let plain : Layout all :=
      ⟨[], [[' '], [' '], [' '], []], rfl, List.all_eq_true.mp (by decide),
        List.all_eq_true.mp (by decide), by decide⟩
    let spread : Layout all :=
      ⟨['\n', '\x7b'], [['\u2003'], ['\x7d', '\x7b'], ['\x1c'], ['\u3000', '\n']],
        rfl, List.all_eq_true.mp (by decide), List.all_eq_true.mp (by decide), by decide⟩
    (∀ token ∈ all, IsUnbroken token)
      ∧ plain.text = "[[ X 5 ]]" ∧ ¬Commented plain.text
      ∧ spread.text = "\n\x7b[[\u2003X\x7d\x7b5\x1c]]\u3000\n" ∧ ¬Commented spread.text
      ∧ Reader.ofText spread.text = Reader.ofTokens all
      ∧ interpret context plain.text = interpret context spread.text := by
  intro context all plain spread
  have unbroken : ∀ token ∈ all, IsUnbroken token := by decide +kernel
  have bare : ¬Commented plain.text := by decide +kernel
  have bareToo : ¬Commented spread.text := by decide +kernel
  obtain ⟨reader, alike⟩ := interpret_layouts context all
  exact ⟨unbroken, by decide +kernel, bare, by decide +kernel, bareToo,
    (reader spread.text).mpr ⟨unbroken, spread, rfl⟩, alike unbroken plain spread bare bareToo⟩

end Showreel.Script
