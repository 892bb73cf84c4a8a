import Showreel.Callout.Frame
import Showreel.Proofs.Number.Decimal
import Showreel.Proofs.Script.Strays
import Showreel.Proofs.Waypoint.Change

/-!
Contract: what labels show of their strings.

Owns:
- the expansion of a string in one pass, with the numbers of a frame;
- the pieces of a string, and what is kept and shown of each;
- the replacement of variables in a text that is kept, one after the other;
- that labels show the one expansion unless a mark that is no variable stands before the letter
  of one.

Does not own: titles and messages, whose strings are expanded only once.
-/

namespace Showreel.Script

open Callout Number

/-! ### One pass -/

/-- The text that a letter stands for in a label at a frame. -/
def liveText (info : PatternInfo) (generation population : Int) (letter : Char) : Option String :=
  match letter with
  | 'G' => some (toString generation)
  | 'P' => some (toString population)
  | _ => variableText info letter

/-- A string with all its variables expanded from left to right in one pass. -/
def expandOnce (info : PatternInfo) (generation population : Int) : List Char → List Char
  | '#' :: letter :: rest =>
      match liveText info generation population letter with
      | some value => value.toList ++ expandOnce info generation population rest
      | none => '#' :: expandOnce info generation population (letter :: rest)
  | char :: rest => char :: expandOnce info generation population rest
  | [] => []

def expandedOnce (info : PatternInfo) (generation population : Int) (text : String) : String :=
  String.ofList (expandOnce info generation population text.toList)

/-! ### Pieces -/

/-- A piece of the string of a label: a character that is copied, from the string or from what a
variable stands for, or a number that is known with the frame. -/
inductive Piece where
  | copied (char : Char)
  | generation
  | population
deriving DecidableEq

/-- What is kept of a piece when the string has been read. -/
def Piece.stored : Piece → List Char
  | .copied char => [char]
  | .generation => ['#', 'G']
  | .population => ['#', 'P']

/-- What one pass shows of a piece. -/
def Piece.shown (generation population : Int) : Piece → List Char
  | .copied char => [char]
  | .generation => (toString generation).toList
  | .population => (toString population).toList

/-- The pieces of a string. -/
def pieces (info : PatternInfo) : List Char → List Piece
  | '#' :: 'G' :: rest => .generation :: pieces info rest
  | '#' :: 'P' :: rest => .population :: pieces info rest
  | '#' :: letter :: rest =>
      match variableText info letter with
      | some value => value.toList.map .copied ++ pieces info rest
      | none => .copied '#' :: .copied letter :: pieces info rest
  | char :: rest => .copied char :: pieces info rest
  | [] => []

theorem flatMap_copied {pick : Piece → List Char} (copies : ∀ char, pick (.copied char) = [char])
    (chars : List Char) : (chars.map Piece.copied).flatMap pick = chars := by
  induction chars with
  | nil => rfl
  | cons char rest inductionHypothesis =>
      rw [List.map_cons, List.flatMap_cons, inductionHypothesis, copies]
      rfl

/-- What is kept of a string when it has been read. -/
theorem expand_eq_flatMap (info : PatternInfo) (text : List Char) :
    expand info text = (pieces info text).flatMap Piece.stored := by
  induction text using pieces.induct info with
  | case1 rest inductionHypothesis => exact congrArg (['#', 'G'] ++ ·) inductionHypothesis
  | case2 rest inductionHypothesis => exact congrArg (['#', 'P'] ++ ·) inductionHypothesis
  | case3 letter rest noGeneration noPopulation value known inductionHypothesis =>
      rw [expand, pieces, known]
      dsimp only
      rw [List.flatMap_append, flatMap_copied fun _ => rfl, inductionHypothesis]
      all_goals assumption
  | case4 letter rest noGeneration noPopulation unknown inductionHypothesis =>
      rw [expand, pieces, unknown]
      dsimp only
      rw [inductionHypothesis]
      · rfl
      all_goals assumption
  | case5 char rest plain noGeneration noPopulation inductionHypothesis =>
      rw [expand, pieces, List.flatMap_cons, inductionHypothesis]
      · rfl
      all_goals assumption
  | case6 => rfl

theorem liveText_of_ne {info : PatternInfo} {letter : Char} (noGeneration : letter ≠ 'G')
    (noPopulation : letter ≠ 'P') (generation population : Int) :
    liveText info generation population letter = variableText info letter := by
  unfold liveText
  split
  · exact absurd rfl noGeneration
  · exact absurd rfl noPopulation
  · rfl

theorem expandOnce_cons_of_ne (info : PatternInfo) (generation population : Int) {char : Char}
    (plain : char ≠ '#') (rest : List Char) :
    expandOnce info generation population (char :: rest)
      = char :: expandOnce info generation population rest := by
  rw [expandOnce]
  exact fun _ _ marked => absurd marked plain

/-- What one pass shows of a string. -/
theorem expandOnce_eq_flatMap (info : PatternInfo) (generation population : Int)
    (text : List Char) : expandOnce info generation population text
      = (pieces info text).flatMap (Piece.shown generation population) := by
  induction text using pieces.induct info with
  | case1 rest inductionHypothesis =>
      exact congrArg ((toString generation).toList ++ ·) inductionHypothesis
  | case2 rest inductionHypothesis =>
      exact congrArg ((toString population).toList ++ ·) inductionHypothesis
  | case3 letter rest noGeneration noPopulation value known inductionHypothesis =>
      rw [expandOnce, liveText_of_ne noGeneration noPopulation, pieces, known]
      dsimp only
      rw [List.flatMap_append, flatMap_copied fun _ => rfl, inductionHypothesis]
      all_goals assumption
  | case4 letter rest noGeneration noPopulation unknown inductionHypothesis =>
      have plain : letter ≠ '#' := by
        rintro rfl
        cases unknown
      rw [expandOnce, liveText_of_ne noGeneration noPopulation, pieces, unknown]
      dsimp only
      rw [expandOnce_cons_of_ne info _ _ plain, inductionHypothesis]
      · rfl
      all_goals assumption
  | case5 char rest plain noGeneration noPopulation inductionHypothesis =>
      rw [expandOnce, pieces, List.flatMap_cons, inductionHypothesis]
      · rfl
      all_goals assumption
  | case6 => rfl

/-! ### One variable after the other -/

theorem replaceVariable_cons_of_ne (letter : Char) (value : List Char) {char : Char}
    (plain : char ≠ '#') (rest : List Char) :
    replaceVariable letter value (char :: rest) = char :: replaceVariable letter value rest := by
  rw [replaceVariable]
  exact fun _ _ marked => absurd marked plain

/-- Text without a mark stays as it is. -/
theorem replaceVariable_append (letter : Char) (value : List Char) {front : List Char}
    (plain : '#' ∉ front) (rest : List Char) :
    replaceVariable letter value (front ++ rest) = front ++ replaceVariable letter value rest := by
  induction front with
  | nil => rfl
  | cons char others inductionHypothesis =>
      rw [List.mem_cons, not_or] at plain
      rw [List.cons_append, replaceVariable_cons_of_ne letter value (Ne.symm plain.1),
        inductionHypothesis plain.2]
      rfl

theorem replaceVariable_variable (letter : Char) (value rest : List Char) :
    replaceVariable letter value ('#' :: letter :: rest)
      = value ++ replaceVariable letter value rest := by
  rw [replaceVariable, if_pos rfl]

/-- A mark that does not stand before the letter stays as it is. -/
theorem replaceVariable_mark {letter : Char} (value : List Char) {rest : List Char}
    (other : rest.head? ≠ some letter) :
    replaceVariable letter value ('#' :: rest) = '#' :: replaceVariable letter value rest := by
  cases rest with
  | nil => rfl
  | cons char rest =>
      rw [replaceVariable, if_neg]
      rintro rfl
      exact other rfl

/-- What begins with a letter after a replacement has begun with it before. -/
theorem head?_of_replaceVariable {letter other : Char} {value text : List Char}
    (some : value ≠ []) (different : value.head? ≠ Option.some other) (plain : other ≠ '#')
    (begins : (replaceVariable letter value text).head? = Option.some other) :
    text.head? = Option.some other := by
  cases text with
  | nil => cases begins
  | cons char rest =>
      by_cases marked : char = '#'
      · subst marked
        by_cases here : rest.head? = Option.some letter
        · obtain ⟨after, rfl⟩ := List.head?_eq_some_iff.mp here
          rw [replaceVariable_variable, List.head?_append_of_ne_nil _ some] at begins
          exact absurd begins different
        · rw [replaceVariable_mark value here] at begins
          exact absurd (Option.some.inj begins).symm plain
      · rwa [replaceVariable_cons_of_ne letter value marked] at begins

/-- What is shown of some pieces whose marks are read once more: a copied mark takes the letter
behind it for its own, and other pieces are shown as in one pass. -/
def reread (generation population : Int) : List Piece → List Char
  | .copied '#' :: .copied 'G' :: rest =>
      (toString generation).toList ++ reread generation population rest
  | .copied '#' :: .copied 'P' :: rest =>
      (toString population).toList ++ reread generation population rest
  | piece :: rest => piece.shown generation population ++ reread generation population rest
  | [] => []

/-- A copied mark stands before a copied letter of a variable. -/
def Captures (all : List Piece) : Prop :=
  [.copied '#', .copied 'G'] <:+: all ∨ [.copied '#', .copied 'P'] <:+: all

instance (all : List Piece) : Decidable (Captures all) :=
  inferInstanceAs (Decidable (_ ∨ _))

section Frames

variable (generation population : Int)

theorem mark_notMem_toString (count : Int) : '#' ∉ (toString count).toList :=
  Literal.notMem_toString (by decide) (by decide) count

theorem head?_toString_ne (count : Int) : (toString count).toList.head? ≠ some 'P' :=
  fun first => Literal.notMem_toString (by decide) (by decide) count (List.mem_of_head? first)

/-- The variables of a text that is kept, replaced one after the other. -/
def replaced (text : List Char) : List Char :=
  replaceVariable 'P' (toString population).toList
    (replaceVariable 'G' (toString generation).toList text)

theorem replaced_generation (rest : List Char) :
    replaced generation population ('#' :: 'G' :: rest)
      = (toString generation).toList ++ replaced generation population rest := by
  unfold replaced
  rw [replaceVariable_variable, replaceVariable_append _ _ (mark_notMem_toString generation)]

theorem replaced_population (rest : List Char) :
    replaced generation population ('#' :: 'P' :: rest)
      = (toString population).toList ++ replaced generation population rest := by
  have other : ('P' :: rest).head? ≠ some 'G' := by
    rw [List.head?_cons]
    decide
  unfold replaced
  rw [replaceVariable_mark _ other, replaceVariable_cons_of_ne 'G' _ (by decide),
    replaceVariable_variable]

theorem replaced_cons_of_ne {char : Char} (plain : char ≠ '#') (rest : List Char) :
    replaced generation population (char :: rest)
      = char :: replaced generation population rest := by
  unfold replaced
  rw [replaceVariable_cons_of_ne _ _ plain, replaceVariable_cons_of_ne _ _ plain]

theorem replaced_mark {rest : List Char} (noGeneration : rest.head? ≠ some 'G')
    (noPopulation : rest.head? ≠ some 'P') :
    replaced generation population ('#' :: rest)
      = '#' :: replaced generation population rest := by
  unfold replaced
  rw [replaceVariable_mark _ noGeneration, replaceVariable_mark]
  -- a number that stands behind the mark by now does not begin with the letter
  exact fun first => noPopulation (head?_of_replaceVariable
    (Literal.toList_toString_ne_nil generation) (head?_toString_ne generation) (by decide) first)

/-- What is kept begins with a letter only where that letter is copied. -/
theorem exists_of_head?_stored {letter : Char} (plain : letter ≠ '#') {all : List Piece}
    (first : (all.flatMap Piece.stored).head? = some letter) :
    ∃ rest, all = .copied letter :: rest := by
  cases all with
  | nil => cases first
  | cons piece rest =>
      cases piece with
      | copied char =>
          cases first
          exact ⟨rest, rfl⟩
      | generation => exact absurd (Option.some.inj first).symm plain
      | population => exact absurd (Option.some.inj first).symm plain

/-- The replacements read the marks that are kept once more. -/
theorem replaced_stored (all : List Piece) :
    replaced generation population (all.flatMap Piece.stored)
      = reread generation population all := by
  induction all using reread.induct with
  | case1 rest inductionHypothesis =>
      rw [reread, ← inductionHypothesis]
      exact replaced_generation ..
  | case2 rest inductionHypothesis =>
      rw [reread, ← inductionHypothesis]
      exact replaced_population ..
  | case3 piece rest noGeneration noPopulation inductionHypothesis =>
      rw [reread, ← inductionHypothesis]
      · cases piece with
        | generation => exact replaced_generation ..
        | population => exact replaced_population ..
        | copied char =>
            by_cases mark : char = '#'
            · subst mark
              refine replaced_mark _ _ (fun first => ?_) fun first => ?_
              · obtain ⟨others, rfl⟩ := exists_of_head?_stored (by decide) first
                exact noGeneration others rfl rfl
              · obtain ⟨others, rfl⟩ := exists_of_head?_stored (by decide) first
                exact noPopulation others rfl rfl
            · exact replaced_cons_of_ne _ _ mark _
      all_goals assumption
  | case4 => rfl

/-- **What the replacements show of a string.** -/
theorem shownText_expanded (info : PatternInfo) (text : String) :
    shownText (expanded info text) generation population
      = String.ofList (reread generation population (pieces info text.toList)) := by
  rw [← replaced_stored, ← expand_eq_flatMap, shownText, expanded, String.toList_ofList]
  rfl

/-- A piece shows a mark where that is copied, and nowhere else. -/
theorem count_shown_piece (piece : Piece) :
    (piece.shown generation population).count '#' = if piece == .copied '#' then 1 else 0 := by
  cases piece with
  | copied char =>
      change List.count '#' [char] = _
      rw [List.count_singleton]
      simp
  | generation => exact List.count_eq_zero_of_not_mem (mark_notMem_toString generation)
  | population => exact List.count_eq_zero_of_not_mem (mark_notMem_toString population)

theorem count_shown (all : List Piece) :
    (all.flatMap (Piece.shown generation population)).count '#' = all.count (.copied '#') := by
  induction all with
  | nil => rfl
  | cons piece rest inductionHypothesis =>
      rw [List.flatMap_cons, List.count_append, inductionHypothesis, count_shown_piece,
        List.count_cons, Nat.add_comm]

/-- No mark comes from anywhere else when marks are read once more. -/
theorem count_reread_le (all : List Piece) :
    (reread generation population all).count '#' ≤ all.count (.copied '#') := by
  have number : ∀ count : Int, (toString count).toList.count '#' = 0 :=
    fun count => List.count_eq_zero_of_not_mem (mark_notMem_toString count)
  induction all using reread.induct with
  | case1 rest inductionHypothesis =>
      rw [reread, List.count_append, number, Nat.zero_add, List.count_cons, List.count_cons]
      omega
  | case2 rest inductionHypothesis =>
      rw [reread, List.count_append, number, Nat.zero_add, List.count_cons, List.count_cons]
      omega
  | case3 piece rest noGeneration noPopulation inductionHypothesis =>
      rw [reread, List.count_append, count_shown_piece, List.count_cons]
      · omega
      all_goals assumption
  | case4 => rfl

/-- **The replacements show what one pass shows unless a copied mark stands before a copied
letter.** -/
theorem reread_eq_iff (all : List Piece) :
    reread generation population all = all.flatMap (Piece.shown generation population)
      ↔ ¬Captures all := by
  -- a mark that takes a letter for its own is gone, and no other mark makes up for it
  have fewer : ∀ {number : Int} {letter : Char} {rest : List Piece},
      (toString number).toList ++ reread generation population rest
        ≠ (.copied '#' :: .copied letter :: rest).flatMap (Piece.shown generation population) := by
    intro number letter rest same
    have marks := congrArg (List.count '#') same
    rw [List.count_append, List.count_eq_zero_of_not_mem (mark_notMem_toString number), count_shown,
      List.count_cons_self, List.count_cons] at marks
    have atMost := count_reread_le generation population rest
    omega
  induction all using reread.induct with
  | case1 rest inductionHypothesis =>
      rw [reread]
      exact iff_of_false fewer fun free =>
        free (.inl (List.prefix_append [.copied '#', .copied 'G'] rest).isInfix)
  | case2 rest inductionHypothesis =>
      rw [reread]
      exact iff_of_false fewer fun free =>
        free (.inr (List.prefix_append [.copied '#', .copied 'P'] rest).isInfix)
  | case3 piece rest noGeneration noPopulation inductionHypothesis =>
      have free : ∀ letter,
          (∀ others, piece = .copied '#' → rest = .copied letter :: others → False) →
            ([.copied '#', .copied letter] <:+: piece :: rest
              ↔ [.copied '#', .copied letter] <:+: rest) := by
        intro letter apart
        rw [List.infix_cons_iff, or_iff_right]
        rintro ⟨others, here⟩
        cases here
        exact apart others rfl rfl
      rw [reread, List.flatMap_cons, List.append_cancel_left_eq, iff_iff_eq.mp inductionHypothesis,
        Captures, Captures, free 'G' noGeneration, free 'P' noPopulation]
      all_goals assumption
  | case4 => exact iff_of_true rfl (by decide)

end Frames

/-! ### Labels in frames -/

section Labels

variable {α : Type} [Scalar α] [Transcendental α]

/-- A label shows its text with the numbers of the frame. -/
theorem text_of_frame {item : Item α} {place : Point α} {text : String}
    (shape : item.shape = .label place text) {generation population : Int} {camera : Camera α}
    {frame : Frame α} (shown : item.frame generation population camera = .ok frame) :
    frame.text = shownText text generation population := by
  unfold Item.frame at shown
  dsimp only at shown
  -- the text is the same for labels that drift and labels of a fixed size
  split at shown
  all_goals
    obtain ⟨shift, -, shown⟩ := bind_eq_ok shown
    obtain ⟨time, -, shown⟩ := bind_eq_ok shown
    obtain ⟨cameraZoom, -, shown⟩ := bind_eq_ok shown
    obtain ⟨zoom, -, shown⟩ := bind_eq_ok shown
    obtain ⟨distance, -, shown⟩ := bind_eq_ok shown
    split at shown
    all_goals
      obtain ⟨size, -, shown⟩ := bind_eq_ok shown
      cases shown
      dsimp only
      rw [shape]

/-- **A label shows its string expanded in one pass, unless a copied mark stands before a copied
letter of a frame's number.** -/
theorem Session.run_label {context : Context α} {session : Session α} {item : Item α}
    {behind quoted rest : List String} {text : String} (quotes : Quotes quoted text)
    (outside : session.openString = none) (here : session.reader = ⟨behind, quoted ++ rest⟩)
    (waits : session.draft.stringTarget = some .label)
    (pending : session.draft.pendingLabel = some item) :
    ∃ after label, session.run context quoted.length = .ok after
      ∧ after.draft.labels = session.draft.labels.push label
      ∧ ∀ generation population camera frame,
        label.frame generation population camera = .ok frame →
          (frame.text = expandedOnce context.info generation population text
            ↔ ¬Captures (pieces context.info text.toList)) := by
  let label : Item α :=
    { item with shape := .label item.shape.points.1 (expanded context.info text) }
  refine ⟨_, label, run_quotes quotes outside here, ?_, ?_⟩
  · change (session.draft.finishString context.info text).1.labels = _
    rw [Draft.finishString, waits]
    dsimp only [Option.getD_some]
    rw [pending]
  · intro generation population camera frame shown
    rw [text_of_frame rfl shown, shownText_expanded, expandedOnce, expandOnce_eq_flatMap,
      String.ofList_inj, reread_eq_iff]

end Labels

/-- Marks that are copied are harmless before other text, also with numbers behind them. -/
theorem Session.run_label_numbers :
    let context : Context Float := ⟨.standard, .standard, .standard⟩
    let start := Session.start context "[[ LABEL 0 0 1 \"###G cells: #P ##\" ]]"
    ∃ session : Session Float, ∃ item behind, start.run context 1 = .ok session
      ∧ Quotes ["\"###G", "cells:", "#P", "##\""] "###G cells: #P ##"
      ∧ session.openString = none
      ∧ session.reader = ⟨behind, ["\"###G", "cells:", "#P", "##\""] ++ ["]]"]⟩
      ∧ session.draft.stringTarget = some .label ∧ session.draft.pendingLabel = some item
      ∧ ¬Captures (pieces context.info "###G cells: #P ##".toList)
      ∧ ∃ after label, session.run context 4 = .ok after
        ∧ after.draft.labels = session.draft.labels.push label
        ∧ ∀ camera frame, label.frame 12 5 camera = .ok frame → frame.text = "#12 cells: 5 #" := by
  intro context start
  have checked : (start.run context 1).toOption.any (fun session =>
      session.openString.isNone
        && decide (session.reader.ahead = ["\"###G", "cells:", "#P", "##\""] ++ ["]]"])
        && decide (session.draft.stringTarget = some .label)
        && session.draft.pendingLabel.isSome) = true := by
    decide +kernel
  obtain ⟨session, ran, stands⟩ := exists_of_toOption_any checked
  simp only [Bool.and_eq_true, decide_eq_true_iff] at stands
  obtain ⟨⟨⟨outside, ahead⟩, waits⟩, pending⟩ := stands
  obtain ⟨item, pending⟩ := Option.isSome_iff_exists.mp pending
  have quotes : Quotes ["\"###G", "cells:", "#P", "##\""] "###G cells: #P ##" :=
    .several (by decide) (by decide) (.more (by decide) (.more (by decide) (.last (by decide))))
  have outside : session.openString = none := Option.isNone_iff_eq_none.mp outside
  have here : session.reader
      = ⟨session.reader.behind, ["\"###G", "cells:", "#P", "##\""] ++ ["]]"]⟩ := by
    rw [← ahead]
  have free : ¬Captures (pieces context.info "###G cells: #P ##".toList) := by decide
  obtain ⟨after, label, ranOn, pushed, shows⟩ :=
    Session.run_label quotes outside here waits pending
  refine ⟨session, item, _, ran, quotes, outside, here, waits, pending, free, after, label, ranOn,
    pushed, fun camera frame shown => ?_⟩
  rw [(shows 12 5 camera frame shown).mpr free]
  decide

/-- A doubled mark before a letter shows the generation, and is to show itself. -/
theorem Session.run_label_captured :
    let context : Context Float := ⟨.standard, .standard, .standard⟩
    expandedOnce context.info 5 3 "##G" = "#G"
      ∧ ∃ interpretation label frame,
        interpret context "[[ LABELZOOMRANGE 1 1 LABEL 0 0 1 \"##G\" ]]" = .ok interpretation
          ∧ interpretation.timeline.diagnostics = []
          ∧ interpretation.timeline.callouts.labels = [label]
          ∧ label.frame 5 3 .standard = .ok frame ∧ frame.visible = true ∧ frame.text = "5" := by
  intro context
  have checked : (interpret context "[[ LABELZOOMRANGE 1 1 LABEL 0 0 1 \"##G\" ]]").toOption.any
      (fun interpretation => interpretation.timeline.diagnostics.isEmpty
        && decide (interpretation.timeline.callouts.labels.length = 1)
        && interpretation.timeline.callouts.labels.head?.any fun label =>
          (label.frame 5 3 .standard).toOption.any fun frame =>
            frame.visible && decide (frame.text = "5")) = true := by
    decide +kernel
  obtain ⟨interpretation, done, stands⟩ := exists_of_toOption_any checked
  simp only [Bool.and_eq_true, decide_eq_true_iff] at stands
  obtain ⟨⟨clean, single⟩, stands⟩ := stands
  obtain ⟨label, only⟩ := List.length_eq_one_iff.mp single
  rw [only] at stands
  obtain ⟨frame, shown, seen⟩ := exists_of_toOption_any stands
  simp only [Bool.and_eq_true, decide_eq_true_iff] at seen
  exact ⟨by decide, interpretation, label, frame, done, List.isEmpty_iff.mp clean, only, shown,
    seen⟩

end Showreel.Script
