import Showreel.Proofs.Script.Train

/-!
Contract: the arguments of a paste that is accepted, and what stands behind them.

Owns:
- the reading of whole numbers and of names;
- tokens that give a place, a symmetry and the cells of a paste, in front of other tokens;
- that a paste with such arguments is accepted, and goes on with its train;
- that every paste which is accepted has such arguments.

Does not own: the train, and what the paste does.
-/

namespace Showreel.Script

open Number Scalar Paste Pattern Reading

variable {α : Type} [Scalar α] {behind tokens rest : List String} {reported : List Diagnostic}

/-! ### Numbers and names -/

theorem run_peek_ahead (ahead : List String) :
    Reading.peek.run ⟨⟨behind, ahead⟩, reported⟩
      = .ok (ahead.headD "", ⟨⟨behind, ahead⟩, reported⟩) :=
  rfl

theorem run_remaining (scan : Scan) :
    Reading.remaining.run scan = .ok (scan.reader.ahead.length, scan) :=
  rfl

theorem StandsFor.isNumeric {token : String} {count : Int} (stands : StandsFor α token count) :
    isNumeric α token = true := by
  obtain ⟨value, read, -⟩ := stands
  rw [isNumeric_eq, read]
  rfl

theorem run_takeWhole {token : String} {count : Int} (stands : StandsFor α token count) :
    (takeWhole α).run ⟨⟨behind, token :: rest⟩, reported⟩
      = .ok (count, ⟨⟨token :: behind, rest⟩, reported⟩) := by
  obtain ⟨value, read, cut⟩ := stands
  have taken : (takeNumber : Reading α).run ⟨⟨behind, token :: rest⟩, reported⟩
      = .ok (value, ⟨⟨token :: behind, rest⟩, reported⟩) := run_takeNumber read
  rw [takeWhole, run_bind_ok taken, cut]
  rfl

theorem run_whole {token : String} {count : Int} {bounds : Bounds Int}
    (stands : StandsFor α token count) (inside : bounds.contains count = true) (source : String) :
    (whole α source bounds).run ⟨⟨behind, token :: rest⟩, reported⟩
      = .ok (some count, ⟨⟨token :: behind, rest⟩, reported⟩) := by
  rw [whole, run_bind_ok (run_nextIsNumeric token), if_pos stands.isNumeric,
    run_bind_ok (run_takeWhole stands), if_pos inside]
  rfl

theorem run_optionalWhole {token : String} {count : Int} (stands : StandsFor α token count) :
    (optionalWhole α).run ⟨⟨behind, token :: rest⟩, reported⟩
      = .ok (count, ⟨⟨token :: behind, rest⟩, reported⟩) := by
  rw [optionalWhole, run_bind_ok (run_nextIsNumeric token), if_pos stands.isNumeric,
    run_takeWhole stands]

/-- No number is taken where none stands. -/
theorem run_optionalWhole_none (wordy : isNumeric α (rest.headD "") = false) :
    (optionalWhole α).run ⟨⟨behind, rest⟩, reported⟩ = .ok (0, ⟨⟨behind, rest⟩, reported⟩) := by
  rw [optionalWhole, nextIsNumeric, bind_assoc, run_bind_ok (run_peek_ahead rest), pure_bind, wordy]
  rfl

variable (α) in
/-- A name for a pattern or a list: neither a number nor a word of scripts. -/
structure IsName (name : String) : Prop where
  visible : name ≠ ""
  unreserved : isScriptWord name = false
  wordy : isNumeric α name = false

/-- Whatever is visible and no word of scripts may be an argument. -/
theorem not_missing {token : String} (visible : token ≠ "")
    (unreserved : isScriptWord token = false) : ¬(token.isEmpty || isScriptWord token) = true := by
  rw [unreserved, Bool.or_false, String.isEmpty_iff]
  exact visible

theorem run_freshName {name : String} (fine : IsName α name) (source : String) :
    (freshName α source).run ⟨⟨behind, name :: rest⟩, reported⟩
      = .ok (some name, ⟨⟨name :: behind, rest⟩, reported⟩) := by
  rw [freshName, run_bind_ok run_peek, if_neg (not_missing fine.visible fine.unreserved),
    run_bind_ok run_advance, fine.wordy]
  rfl

/-! ### Places and symmetries -/

variable (α) in
/-- Tokens that give a place, column and row, in front of other tokens. Either may be left out where
no number follows. -/
inductive Places (rest : List String) : List String → Int → Int → Prop
  | both {first second : String} {x y : Int} (standsX : StandsFor α first x)
      (standsY : StandsFor α second y) : Places rest [first, second] x y
  | column {first : String} {x : Int} (standsX : StandsFor α first x)
      (wordy : isNumeric α (rest.headD "") = false) : Places rest [first] x 0
  | origin (wordy : isNumeric α (rest.headD "") = false) : Places rest [] 0 0

/-- The token that gives a symmetry in front of other tokens, if there is one. -/
inductive Turns (rest : List String) : List String → Symmetry → Prop
  | word {token : String} {placing : Symmetry} (known : Symmetry.ofWord? token = some placing) :
      Turns rest [token] placing
  | none (unknown : Symmetry.ofWord? (rest.headD "") = none) : Turns rest [] .identity

theorem run_position {x y : Int} (places : Places α rest tokens x y) :
    (Reading.position α).run ⟨⟨behind, tokens ++ rest⟩, reported⟩
      = .ok ((x, y), ⟨⟨tokens.reverse ++ behind, rest⟩, reported⟩) := by
  cases places with
  | both standsX standsY =>
      rw [List.cons_append, Reading.position, run_bind_ok (run_optionalWhole standsX),
        List.cons_append, run_bind_ok (run_optionalWhole standsY)]
      rfl
  | column standsX wordy =>
      rw [List.cons_append, Reading.position, run_bind_ok (run_optionalWhole standsX),
        List.nil_append, run_bind_ok (run_optionalWhole_none wordy)]
      rfl
  | origin wordy =>
      rw [List.nil_append, Reading.position, run_bind_ok (run_optionalWhole_none wordy),
        run_bind_ok (run_optionalWhole_none wordy)]
      rfl

theorem run_symmetry {placing : Symmetry} (turns : Turns rest tokens placing) :
    Reading.symmetry.run ⟨⟨behind, tokens ++ rest⟩, reported⟩
      = .ok (placing, ⟨⟨tokens.reverse ++ behind, rest⟩, reported⟩) := by
  cases turns with
  | word known =>
      rw [Reading.symmetry, List.cons_append, run_bind_ok run_peek, known]
      rfl
  | none unknown =>
      rw [Reading.symmetry, List.nil_append, run_bind_ok (run_peek_ahead rest), unknown]
      rfl

/-! ### Cells -/

variable (α) in
/-- A token and the pieces of run-length text behind it are joined to a text, and no token behind
them is. -/
def Joins (rest : List String) (opening : String) (pieces : List String) (text : String) : Prop :=
  ∀ behind, joinFragments α opening behind (pieces ++ rest)
    = (text, ⟨pieces.reverse ++ behind, rest⟩)

/-- Text that is closed is not joined with anything. -/
theorem joins_closed {text : String} (closed : isClosed text = true) (rest : List String) :
    Joins α rest text [] text := by
  intro behind
  cases rest with
  | nil => rfl
  | cons token others =>
      rw [List.nil_append, joinFragments, closed]
      rfl

theorem run_runText {opening text : String} {pieces : List String}
    (joins : Joins α rest opening pieces text) :
    (runText α opening).run ⟨⟨behind, pieces ++ rest⟩, reported⟩
      = .ok (text, ⟨⟨pieces.reverse ++ behind, rest⟩, reported⟩) := by
  rw [runText, run_bind_ok (StateT.run_get _)]
  dsimp only
  rw [joins behind]
  rfl

/-- Tokens that say which cells to paste, in front of other tokens, with the place that these cells
have of themselves, and what they are called. -/
inductive Cites (draft : Draft α) (rest : List String) :
    List String → Cells → Int × Int → String → Prop
  | pattern {snippet : Snippet} {name : String} (visible : name ≠ "")
      (unreserved : isScriptWord name = false)
      (found : (draft.snippets.find? fun snippet => snippet.name == name) = some snippet) :
      Cites draft rest [name] snippet.placed (snippet.x, snippet.y) name
  | text {opening text : String} {pieces : List String} {cells : Cells} (visible : opening ≠ "")
      (unreserved : isScriptWord opening = false)
      (unnamed : (draft.snippets.find? fun snippet => snippet.name == opening) = none)
      (joins : Joins α rest opening pieces text)
      (decoded : RunLength.decode text.toList = .ok (some cells)) :
      Cites draft rest (opening :: pieces) cells (0, 0) text

/-- The arguments of a paste in front of other tokens: its cells as they are turned, where it is
made, and what it is called. -/
inductive PasteArguments (draft : Draft α) (rest : List String) :
    List String → Cells → Int → Int → String → Prop
  | intro {cited placed turned : List String} {block : Cells} {base : Int × Int} {source : String}
      {x y : Int} {placing : Symmetry}
      (cites : Cites draft (placed ++ (turned ++ rest)) cited block base source)
      (places : Places α (turned ++ rest) placed x y) (turns : Turns rest turned placing) :
      PasteArguments draft rest (cited ++ (placed ++ turned)) (placing.apply block) (x + base.1)
        (y + base.2) source

variable {draft : Draft α} {source : String} {cells : Cells} {x y : Int}

/-- What follows the cells of a paste is its place, its symmetry and its train. -/
theorem run_placed {placed turned : List String} {placing : Symmetry}
    (places : Places α (turned ++ rest) placed x y) (turns : Turns rest turned placing)
    (word : String) (base : Int × Int) :
    (Read.placed word source (some cells) base : Reading (Option (Statement α))).run
        ⟨⟨behind, placed ++ (turned ++ rest)⟩, reported⟩
      = (Read.train α word >>= fun steps => Pure.pure (some (.paste (placing.apply cells)
          (x + base.1) (y + base.2) steps source))).run
        ⟨⟨turned.reverse ++ (placed.reverse ++ behind), rest⟩, reported⟩ := by
  rw [Read.placed, run_bind_ok (run_position places), run_bind_ok (run_symmetry turns)]

/-- **A paste with such arguments is accepted**, and goes on with its train. -/
theorem run_paste (accepted : PasteArguments draft rest tokens cells x y source) (word : String)
    (behind : List String) (reported : List Diagnostic) :
    (Read.paste draft word).run ⟨⟨behind, tokens ++ rest⟩, reported⟩
      = (Read.train α word >>= fun steps => Pure.pure (some (.paste cells x y steps source))).run
        ⟨⟨tokens.reverse ++ behind, rest⟩, reported⟩ := by
  cases accepted with
  | intro cites places turns =>
      rw [Read.paste]
      cases cites with
      | pattern visible unreserved found =>
          rw [List.cons_append, List.nil_append, List.cons_append, run_bind_ok run_peek,
            if_neg (not_missing visible unreserved), run_bind_ok run_advance, found]
          dsimp only
          rw [List.append_assoc, run_placed places turns]
          simp only [List.reverse_cons, List.reverse_append, List.append_assoc,
            List.singleton_append]
      | text visible unreserved unnamed joins decoded =>
          rename_i opening pieces
          rw [List.cons_append, List.cons_append, run_bind_ok run_peek,
            if_neg (not_missing visible unreserved), run_bind_ok run_advance, unnamed]
          dsimp only
          rw [List.append_assoc, List.append_assoc, run_bind_ok (run_runText joins), decoded]
          refine (run_placed places turns word (0, 0)).trans ?_
          simp only [List.reverse_cons, List.reverse_append, List.append_assoc,
            List.singleton_append]

/-- No train follows where its word does not. -/
theorem run_train_none {word : String} (ends : rest.headD "" ≠ "XT" ∧ rest.headD "" ≠ "YT") :
    (Read.train α word).run ⟨⟨behind, rest⟩, reported⟩ = .ok ([], ⟨⟨behind, rest⟩, reported⟩) := by
  have other : ¬(rest.headD "" == "XT" || rest.headD "" == "YT") = true := by
    simpa using ends
  rw [Read.train, run_bind_ok (run_peek_ahead rest), if_neg other]
  rfl

/-! ### Nothing else is accepted -/

section Accepted

variable {β γ : Type} {ahead : List String} {after scan : Scan} {word : String}

theorem exists_of_run_bind {first : Reading β} {next : β → Reading γ} {result : γ × Scan}
    (ran : (first >>= next).run scan = .ok result) :
    ∃ value middle, first.run scan = .ok (value, middle)
      ∧ (next value).run middle = .ok result := by
  rw [StateT.run_bind] at ran
  obtain ⟨⟨value, middle⟩, begins, goesOn⟩ := bind_eq_ok ran
  exact ⟨value, middle, begins, goesOn⟩

theorem of_run_lift {computation : Except Fault β} {value : β}
    (ran : (liftM computation : Reading β).run scan = .ok (value, after)) :
    computation = .ok value ∧ after = scan := by
  cases computation with
  | error fault => cases ran
  | ok given =>
      cases ran
      exact ⟨rfl, rfl⟩

theorem standsFor_of_run {token : String} {rest : List String} {count : Int}
    (ran : (takeWhole α).run ⟨⟨behind, token :: rest⟩, reported⟩ = .ok (count, after)) :
    StandsFor α token count ∧ after = ⟨⟨token :: behind, rest⟩, reported⟩ := by
  obtain ⟨number, middle, taken, cut⟩ := exists_of_run_bind ran
  obtain ⟨read, rfl⟩ := Ensures.takeNumber _ _ _ taken
  obtain ⟨given, rfl⟩ := of_run_lift cut
  exact ⟨⟨number, read, given⟩, rfl⟩

/-- An optional number is read where one stands, and only there. -/
theorem optionalWhole_cases {count : Int}
    (ran : (optionalWhole α).run ⟨⟨behind, ahead⟩, reported⟩ = .ok (count, after)) :
    (∃ token rest, ahead = token :: rest ∧ StandsFor α token count
        ∧ after = ⟨⟨token :: behind, rest⟩, reported⟩)
      ∨ isNumeric α (ahead.headD "") = false ∧ count = 0
        ∧ after = ⟨⟨behind, ahead⟩, reported⟩ := by
  rw [optionalWhole, nextIsNumeric, bind_assoc, run_bind_ok (run_peek_ahead ahead), pure_bind] at ran
  cases ahead with
  | nil =>
      rw [List.headD_nil, isNumeric_empty] at ran ⊢
      cases ran
      exact .inr ⟨rfl, rfl, rfl⟩
  | cons token rest =>
      cases numeric : isNumeric α token with
      | true =>
          rw [List.headD_cons, numeric] at ran
          obtain ⟨stands, same⟩ := standsFor_of_run ran
          exact .inl ⟨token, rest, rfl, stands, same⟩
      | false =>
          rw [List.headD_cons, numeric] at ran
          cases ran
          exact .inr ⟨numeric, rfl, rfl⟩

theorem exists_places {place : Int × Int}
    (ran : (Reading.position α).run ⟨⟨behind, ahead⟩, reported⟩ = .ok (place, after)) :
    ∃ placed rest, ahead = placed ++ rest ∧ Places α rest placed place.1 place.2
      ∧ after = ⟨⟨placed.reverse ++ behind, rest⟩, reported⟩ := by
  obtain ⟨x, middle, columns, ran⟩ := exists_of_run_bind ran
  obtain ⟨y, final, rows, ended⟩ := exists_of_run_bind ran
  cases ended
  rcases optionalWhole_cases columns with ⟨first, ahead, rfl, standsX, rfl⟩ | ⟨wordy, rfl, rfl⟩
  · rcases optionalWhole_cases rows with ⟨second, rest, rfl, standsY, rfl⟩ | ⟨wordy, rfl, rfl⟩
    · exact ⟨_, rest, rfl, .both standsX standsY, rfl⟩
    · exact ⟨_, ahead, rfl, .column standsX wordy, rfl⟩
  · rcases optionalWhole_cases rows with ⟨second, rest, rfl, standsY, rfl⟩ | ⟨-, rfl, rfl⟩
    · cases wordy.symm.trans standsY.isNumeric
    · exact ⟨_, ahead, rfl, .origin wordy, rfl⟩

theorem exists_turns {placing : Symmetry}
    (ran : Reading.symmetry.run ⟨⟨behind, ahead⟩, reported⟩ = .ok (placing, after)) :
    ∃ turned rest, ahead = turned ++ rest ∧ Turns rest turned placing
      ∧ after = ⟨⟨turned.reverse ++ behind, rest⟩, reported⟩ := by
  rw [Reading.symmetry, run_bind_ok (run_peek_ahead ahead)] at ran
  cases known : Symmetry.ofWord? (ahead.headD "") with
  | none =>
      rw [known] at ran
      cases ran
      exact ⟨[], ahead, rfl, .none known, rfl⟩
  | some found =>
      rw [known] at ran
      cases ahead with
      | nil => cases known
      | cons token rest =>
          cases ran
          exact ⟨[token], rest, rfl, .word known, rfl⟩

theorem exists_joins (α : Type) [Scalar α] (opening : String) (ahead : List String) :
    ∃ pieces rest text, ahead = pieces ++ rest ∧ Joins α rest opening pieces text := by
  induction ahead generalizing opening with
  | nil => exact ⟨[], [], opening, rfl, fun _ => rfl⟩
  | cons token others inductionHypothesis =>
      cases continued : !isClosed opening && continuesRun α token with
      | true =>
          obtain ⟨pieces, rest, text, rfl, joins⟩ := inductionHypothesis (opening ++ token)
          refine ⟨token :: pieces, rest, text, rfl, fun behind => ?_⟩
          rw [List.cons_append, joinFragments, if_pos continued, joins, List.reverse_cons,
            List.append_assoc]
          rfl
      | false =>
          refine ⟨[], token :: others, opening, rfl, fun behind => ?_⟩
          rw [List.nil_append, joinFragments, if_neg (Bool.eq_false_iff.mp continued)]
          rfl

/-- The cells of a paste that is accepted were found, and its place and symmetry stand behind
them. -/
theorem exists_placed {source : String} {found : Option Cells} {base : Int × Int}
    {statement : Statement α}
    (ran : (Read.placed word source found base).run ⟨⟨behind, ahead⟩, reported⟩
      = .ok (some statement, after)) :
    ∃ cells placed turned rest x y placing, found = some cells
      ∧ ahead = placed ++ (turned ++ rest) ∧ Places α (turned ++ rest) placed x y
      ∧ Turns rest turned placing := by
  obtain ⟨⟨x, y⟩, middle, positioned, ran⟩ := exists_of_run_bind ran
  obtain ⟨placing, final, symmetric, ran⟩ := exists_of_run_bind ran
  obtain ⟨placed, others, rfl, places, rfl⟩ := exists_places positioned
  obtain ⟨turned, rest, rfl, turns, rfl⟩ := exists_turns symmetric
  cases found with
  | none => cases ran
  | some cells => exact ⟨cells, placed, turned, rest, x, y, placing, rfl, rfl, places, turns⟩

/-- **Every paste that is accepted has such arguments**, and its train is read behind them. -/
theorem exists_arguments {statement : Statement α}
    (ran : (Read.paste draft word).run ⟨⟨behind, ahead⟩, reported⟩ = .ok (some statement, after)) :
    ∃ tokens rest cells x y source train, ahead = tokens ++ rest
      ∧ PasteArguments draft rest tokens cells x y source
      ∧ (Read.train α word).run ⟨⟨tokens.reverse ++ behind, rest⟩, reported⟩ = .ok (train, after)
      ∧ statement = .paste cells x y train source := by
  obtain ⟨tokens, rest, cells, x, y, source, rfl, accepted⟩ : ∃ tokens rest cells x y source,
      ahead = tokens ++ rest ∧ PasteArguments draft rest tokens cells x y source := by
    rw [Read.paste, run_bind_ok (run_peek_ahead ahead)] at ran
    by_cases missing : ((ahead.headD "").isEmpty || isScriptWord (ahead.headD "")) = true
    · rw [if_pos missing] at ran
      cases ran
    · cases ahead with
      | nil => exact absurd rfl missing
      | cons opening others =>
          have visible : opening ≠ "" := by
            rintro rfl
            exact missing rfl
          have unreserved := isScriptWord_of_visible missing
          rw [if_neg missing, run_bind_ok run_advance, List.headD_cons] at ran
          cases named : draft.snippets.find? fun snippet => snippet.name == opening with
          | some snippet =>
              rw [named] at ran
              obtain ⟨_, placed, turned, rest, x, y, placing, -, rfl, places, turns⟩ :=
                exists_placed ran
              exact ⟨_, rest, _, _, _, _, by simp,
                .intro (.pattern visible unreserved named) places turns⟩
          | none =>
              rw [named] at ran
              obtain ⟨pieces, others, text, rfl, joins⟩ := exists_joins α opening others
              dsimp only at ran
              rw [run_bind_ok (run_runText joins)] at ran
              obtain ⟨found, middle, lifted, ran⟩ := exists_of_run_bind ran
              obtain ⟨decoded, rfl⟩ := of_run_lift lifted
              obtain ⟨cells, placed, turned, rest, x, y, placing, rfl, rfl, places, turns⟩ :=
                exists_placed ran
              exact ⟨_, rest, _, _, _, _, by simp,
                .intro (.text visible unreserved named joins decoded) places turns⟩
  rw [run_paste accepted] at ran
  obtain ⟨train, final, trained, ended⟩ := exists_of_run_bind ran
  cases ended
  exact ⟨tokens, rest, cells, x, y, source, train, rfl, accepted, trained, rfl⟩

end Accepted

end Showreel.Script
