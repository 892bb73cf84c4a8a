import Showreel.Proofs.Number.Lawful
import Showreel.Proofs.Script.Blocks
import Showreel.Proofs.Script.Fragments
import Showreel.Proofs.Script.PasteArguments
import Showreel.Proofs.Script.Strays
import Showreel.Proofs.Script.Tokens

/-!
Contract: a paste of the text of a block.

Owns:
- the reading of a paste with its text in pieces;
- the end of a script that has only made pastes;
- that a script which pastes the text of a block pastes what the text keeps of it, and reports
  nothing.

Does not own: the text.
-/

namespace Showreel.Script

open Pattern.RunLength (exists_body)
open Number Scalar Paste Pattern Reading

variable {α : Type} [Scalar α]

/-! ### Reading the arguments -/

/-- A paste of text that is spread over pieces. -/
theorem run_paste_pieces {behind rest : List String} {reported : List Diagnostic} {draft : Draft α}
    {word opening first second turned next : String} {pieces : List String} {body : List Char}
    {cells : Cells} {x y : Int} {placing : Symmetry} (fresh : draft.snippets = [])
    (pieced : ∀ piece ∈ opening :: pieces, IsPiece piece)
    (whole : joined (opening :: pieces) = body ++ ['!']) (single : '!' ∉ body)
    (decoded : RunLength.decode (body ++ ['!']) = .ok (some cells))
    (standsX : StandsFor α first x) (standsY : StandsFor α second y)
    (known : Symmetry.ofWord? turned = some placing) (ends : next ≠ "XT" ∧ next ≠ "YT") :
    ∃ passed, (Read.paste draft word).run
        ⟨⟨behind, opening :: (pieces ++ first :: second :: turned :: next :: rest)⟩, reported⟩
      = .ok (some (.paste (placing.apply cells) x y [] (String.ofList (body ++ ['!']))),
        ⟨⟨passed, next :: rest⟩, reported⟩) := by
  rcases List.forall_mem_cons.mp pieced with ⟨isPiece, piecedRest⟩
  have visible : opening ≠ "" := by
    rintro rfl
    exact isPiece.toList_ne_nil rfl
  have unnamed : (draft.snippets.find? fun snippet => snippet.name == opening) = none := by
    rw [fresh]
    rfl
  have accepted : PasteArguments draft (next :: rest)
      ((opening :: pieces) ++ ([first, second] ++ [turned])) (placing.apply cells) (x + 0) (y + 0)
        (String.ofList (body ++ ['!'])) := by
    refine .intro (.text visible isPiece.isScriptWord unnamed ?_ ?_) (.both standsX standsY)
      (.word known)
    · exact fun behind => joinFragments_pieces α piecedRest whole single behind _
    · rwa [String.toList_ofList]
  have other : (next :: rest).headD "" ≠ "XT" ∧ (next :: rest).headD "" ≠ "YT" := ends
  have read := run_paste accepted word behind reported
  rw [List.append_assoc, run_bind_ok (run_train_none other), Int.add_zero, Int.add_zero] at read
  exact ⟨_, read⟩

/-! ### The end of a script of pastes -/

theorem evolveAll_still {entries : List Entry} (still : ∀ entry ∈ entries, entry.evolve ≤ 0)
    (known : Schedule.Evolutions) : Schedule.evolveAll known entries = (entries, known) := by
  induction entries with
  | nil => rfl
  | cons entry rest inductionHypothesis =>
      rcases List.forall_mem_cons.mp still with ⟨stays, stillRest⟩
      rw [Schedule.evolveAll, if_pos stays, inductionHypothesis stillRest]

theorem forM_roomToEvolve_still {entries : List Entry}
    (still : ∀ entry ∈ entries, entry.evolve ≤ 0) :
    entries.forM Entry.roomToEvolve = .ok () := by
  induction entries with
  | nil => rfl
  | cons entry rest inductionHypothesis =>
      rcases List.forall_mem_cons.mp still with ⟨stays, stillRest⟩
      have fits : entry.roomToEvolve = .ok () := if_pos stays
      change (entry.roomToEvolve >>= fun _ => rest.forM Entry.roomToEvolve) = .ok ()
      rw [fits]
      exact inductionHypothesis stillRest

/-- A script that has only made pastes ends with them, and reports nothing more. -/
theorem finish_pastes {power : Int} {entries : Array Entry} {pasting : PasteSettings}
    {settings : ViewerSettings α} {gps : α}
    (known : (ofInt settings.refreshRate : Except Fault α) = .ok gps)
    (still : ∀ entry ∈ entries.toList, entry.evolve ≤ 0) (reported : List Diagnostic)
    (commands : Nat) (camera : Camera α) :
    ∃ interpretation, ({ Draft.start power with pastes := entries, pasting := pasting } :
        Draft α).finish reported commands settings camera = .ok interpretation
      ∧ interpretation.timeline.diagnostics = reported
      ∧ interpretation.timeline.pastes = entries.toList := by
  -- no waypoint has settings, so the phases before and after the pace come to nothing
  change ∃ interpretation, ((ofInt settings.refreshRate : Except Fault α) >>= _)
    = .ok interpretation ∧ _
  rw [known]
  change ∃ interpretation, (entries.toList.forM Entry.roomToEvolve >>= _)
    = .ok interpretation ∧ _
  rw [forM_roomToEvolve_still still]
  refine ⟨_, rfl, ?_, congrArg Prod.fst (evolveAll_still still [])⟩
  change reported ++ [] ++ [] ++ [] ++ [] ++ [] = reported
  simp only [List.append_nil]

/-! ### The session -/

/-- The entry of a paste that no command has prepared: it is made once, at the beginning. -/
def inlineEntry (cells : Cells) (x y : Int) (source : String) : Entry where
  cells := cells
  x := x
  y := y
  trigger := .once 0
  mode := .either
  driftX := 0
  driftY := 0
  evolve := 0
  source := source

theorem fires_once {first : Int} (generation : Int) :
    (Trigger.once first).fires generation = true ↔ generation = first := by
  unfold Trigger.fires Trigger.ruleFires Trigger.once
  simp

/-- A script that is one paste makes it. -/
theorem interpret_onePaste {context : Context α} {text source : String}
    {behind tail passed : List String} {cells : Cells} {x y : Int} {gps : α}
    (known : (ofInt context.settings.refreshRate : Except Fault α) = .ok gps)
    (begins : (Session.start context text).reader = ⟨behind, "PASTE" :: tail⟩)
    (read : (Read.paste (Draft.start context.settings.maxGridPower : Draft α) "PASTE").run
        ⟨⟨"PASTE" :: behind, tail⟩, []⟩
      = .ok (some (.paste cells x y [] source), ⟨⟨passed, ["]]"]⟩, []⟩)) :
    ∃ interpretation, interpret context text = .ok interpretation
      ∧ interpretation.timeline.diagnostics = []
      ∧ interpretation.timeline.pastes = [inlineEntry cells x y source] := by
  have word : Command.ofWord? "PASTE" = some .paste := by decide
  obtain ⟨after, pasted, place, outside, reported, draft⟩ : ∃ after,
      (Session.start context text).step context = .ok after ∧ after.reader.ahead = ["]]"]
        ∧ after.openString = none ∧ after.reported = Array.empty
        ∧ after.draft = { Draft.start context.settings.maxGridPower with
          pastes := #[inlineEntry cells x y source], pasting := .standard } :=
    ⟨_, Session.step_given context begins rfl (by decide) word read rfl,
      rfl, rfl, rfl, rfl⟩
  obtain ⟨reader, ended, ahead⟩ := Session.step_endMarker context (by decide) place outside
  have ran : (Session.start context text).run context 2 = .ok { after with reader := reader } := by
    rw [Session.run_succ, pasted]
    change after.run context 1 = _
    rw [Session.run_succ, ended]
    rfl
  have still : ∀ entry ∈ #[inlineEntry cells x y source].toList, entry.evolve ≤ 0 :=
    List.forall_mem_singleton.mpr (le_refl 0)
  obtain ⟨interpretation, done, diagnostics, pastes⟩ := finish_pastes known still [] after.commands
    context.camera
  have report : Session.finalReport { after with reader := reader } = [] := by
    unfold Session.finalReport
    dsimp only
    rw [outside, reported]
    rfl
  refine ⟨interpretation, ?_, diagnostics, pastes⟩
  rw [interpret_of_run context ran ahead, report, draft, done]

/-! ### The text -/

/-- The tokens of a script that pastes text in pieces. -/
def inlineTokens (pieces : List String) (x y : Int) (symmetry : Symmetry) : List String :=
  ["[[", "PASTE"] ++ pieces ++ [toString x, toString y, symmetry.word, "]]"]

/-- The digits of a number, and its sign, are a token without the comment mark. -/
theorem isToken_toString (count : Int) :
    IsToken (toString count) ∧ '#' ∉ (toString count).toList := by
  refine ⟨⟨Literal.toList_toString_ne_nil count, fun char member => ?_⟩,
    Literal.notMem_toString (by decide) (by decide) count⟩
  obtain rfl | digit := Literal.sign_or_digit_of_mem_toString member
  · decide
  · exact Text.visible_of_isDigit digit

theorem isToken_word (symmetry : Symmetry) :
    IsToken symmetry.word ∧ '#' ∉ symmetry.word.toList := by
  cases symmetry <;> decide

theorem ofWord?_symmetryWord (symmetry : Symmetry) : Symmetry.ofWord? symmetry.word = some symmetry := by
  cases symmetry <;> rfl

theorem IsPiece.isToken {piece : String} (isPiece : IsPiece piece) :
    IsToken piece ∧ '#' ∉ piece.toList := by
  refine ⟨⟨isPiece.toList_ne_nil, fun char member => (isPiece.code char member).visible⟩,
    fun mark => ?_⟩
  exact absurd (isPiece.code '#' mark).isRunChar (by decide)

/-- All tokens of the script are read as they stand, and none of them makes it a comment. -/
theorem isToken_inlineTokens {pieces : List String} (pieced : ∀ piece ∈ pieces, IsPiece piece)
    (x y : Int) (symmetry : Symmetry) :
    ∀ token ∈ inlineTokens pieces x y symmetry, IsToken token ∧ '#' ∉ token.toList := by
  unfold inlineTokens
  rw [List.forall_mem_append, List.forall_mem_append]
  refine ⟨⟨by decide, fun piece member => (pieced piece member).isToken⟩, ?_⟩
  exact List.forall_mem_cons.mpr ⟨isToken_toString x, List.forall_mem_cons.mpr
    ⟨isToken_toString y, List.forall_mem_cons.mpr ⟨isToken_word symmetry, by decide⟩⟩⟩

/-- The text is read from the command on. -/
theorem start_inline (context : Context α) {pieces : List String}
    (pieced : ∀ piece ∈ pieces, IsPiece piece) {x y : Int} {symmetry : Symmetry} {text : String}
    (spaced : Spaced (inlineTokens pieces x y symmetry) text.toList) :
    (Session.start context text).reader = ⟨["[["], "PASTE" :: (pieces ++
      [toString x, toString y, symmetry.word, "]]"])⟩ := by
  have sound := isToken_inlineTokens pieced x y symmetry
  have source : Document.scriptSource text = text := by
    refine Document.scriptSource_of_not_commented (not_commented ?_)
    exact spaced.not_mem (by decide) fun token member => (sound token member).2
  have split := tokens_of_spaced spaced fun token member => (sound token member).1
  unfold Session.start
  dsimp only [Reader.find, Reader.ofText, Reader.ofTokens]
  rw [source, split]
  rfl

/-- **A script that pastes the text of a block, cut behind any of its items, makes one entry.**
Its block is what the text keeps of the block, in the symmetry that the script names, it stands
at the place that the script gives, and it is made at the beginning only. A block that exists
has room in memory. -/
theorem interpret_inlinePaste [LawfulScalar α] [DecimalScalar α] {context : Context α}
    (rate : |context.settings.refreshRate| ≤ 2 ^ 53) {cells : Cells}
    (room : Cells.roomFor cells.height cells.width = .ok ()) {row column : Nat}
    (alive : cells.state row column ≠ 0) {pieces : List String}
    (cut : CutBehindItems (RunLength.encode cells) pieces) {x y : Int} (nearX : |x| ≤ 2 ^ 53)
    (nearY : |y| ≤ 2 ^ 53) (symmetry : Symmetry) {text : String}
    (spaced : Spaced (inlineTokens pieces x y symmetry) text.toList) :
    ∃ interpretation, interpret context text = .ok interpretation
      ∧ interpretation.timeline.diagnostics = []
      ∧ interpretation.timeline.pastes = [inlineEntry (symmetry.apply cells.pruned) x y
        (String.ofList (RunLength.encode cells))]
      ∧ ∀ entry ∈ interpretation.timeline.pastes, ∀ generation,
        entry.trigger.fires generation = true ↔ generation = 0 := by
  obtain ⟨body, encoded, single, -⟩ := exists_body cells
  have decoded := RunLength.decode_encode room alive
  have whole := cut.whole
  rw [encoded] at decoded whole ⊢
  have begins := start_inline context cut.pieces spaced
  have pieced := cut.pieces
  cases pieces with
  | nil => exact absurd whole.symm (List.append_ne_nil_of_right_ne_nil _ (List.cons_ne_nil _ _))
  | cons opening others =>
      have ends : "]]" ≠ "XT" ∧ "]]" ≠ "YT" := by decide
      obtain ⟨passed, read⟩ : ∃ passed,
          (Read.paste (Draft.start context.settings.maxGridPower : Draft α) "PASTE").run
            ⟨⟨["PASTE", "[["], opening :: others
              ++ [toString x, toString y, symmetry.word, "]]"]⟩, []⟩
          = .ok (some (.paste (symmetry.apply cells.pruned) x y []
              (String.ofList (body ++ ['!']))), ⟨⟨passed, ["]]"]⟩, []⟩) :=
        run_paste_pieces rfl pieced whole single decoded (exists_readToken?_toString nearX)
          (exists_readToken?_toString nearY) (ofWord?_symmetryWord symmetry) ends
      obtain ⟨gps, known⟩ : ∃ gps,
          (ofInt context.settings.refreshRate : Except Fault α) = .ok gps :=
        exists_ofInt_of_small rate
      obtain ⟨interpretation, done, diagnostics, pastes⟩ := interpret_onePaste known begins read
      refine ⟨interpretation, done, diagnostics, pastes, ?_⟩
      rw [pastes]
      exact List.forall_mem_singleton.mpr fires_once

/-- A turned block in four pieces, without the dead row and column at its end. -/
theorem interpret_inlinePaste_turned :
    let context : Context Float := ⟨.standard, .standard, .standard⟩
    let cells := Cells.ofRows [[0, 1, 3, 0], [5, 0, 0, 0], [0, 0, 0, 0], [1, 0, 0, 0], [0, 0, 0, 0]]
    |context.settings.refreshRate| ≤ 2 ^ 53 ∧ Cells.roomFor cells.height cells.width = .ok ()
      ∧ cells.state 0 1 ≠ 0 ∧ RunLength.encode cells = "b2o$o$$o$!".toList
      ∧ CutBehindItems (RunLength.encode cells) ["b2o$", "o$$", "o$", "!"]
      ∧ |(-3 : Int)| ≤ 2 ^ 53 ∧ |(4 : Int)| ≤ 2 ^ 53
      ∧ Spaced (inlineTokens ["b2o$", "o$$", "o$", "!"] (-3) 4 .clockwise)
        " [[ PASTE b2o$ o$$ o$ ! -3 4 RCW ]]".toList
      ∧ ∃ interpretation,
        interpret context " [[ PASTE b2o$ o$$ o$ ! -3 4 RCW ]]" = .ok interpretation
          ∧ interpretation.timeline.diagnostics = []
          ∧ interpretation.timeline.pastes = [inlineEntry
            (Cells.ofRows [[1, 0, 1, 0], [0, 0, 0, 1], [0, 0, 0, 1]]) (-3) 4 "b2o$o$$o$!"]
          ∧ ∀ entry ∈ interpretation.timeline.pastes, ∀ generation,
            entry.trigger.fires generation = true ↔ generation = 0 := by
  intro context cells
  have rate : |context.settings.refreshRate| ≤ 2 ^ 53 := by decide
  have room : Cells.roomFor cells.height cells.width = .ok () := by decide
  have alive : cells.state 0 1 ≠ 0 := by decide
  have encoded : RunLength.encode cells = "b2o$o$$o$!".toList := by decide +kernel
  have cut : CutBehindItems (RunLength.encode cells) ["b2o$", "o$$", "o$", "!"] := by
    rw [encoded]
    exact ⟨by decide, by simp⟩
  have nearX : |(-3 : Int)| ≤ 2 ^ 53 := by decide
  have nearY : |(4 : Int)| ≤ 2 ^ 53 := by decide
  have spaced : Spaced (inlineTokens ["b2o$", "o$$", "o$", "!"] (-3) 4 .clockwise)
      " [[ PASTE b2o$ o$$ o$ ! -3 4 RCW ]]".toList := by
    have text : " [[ PASTE b2o$ o$$ o$ ! -3 4 RCW ]]".toList
        = (inlineTokens ["b2o$", "o$$", "o$", "!"] (-3) 4 .clockwise).flatMap
          fun token => ' ' :: token.toList := by
      decide
    rw [text]
    exact spaced_blanks _
  have turned : Symmetry.clockwise.apply cells.pruned
      = Cells.ofRows [[1, 0, 1, 0], [0, 0, 0, 1], [0, 0, 0, 1]] := by
    decide +kernel
  have pasted := interpret_inlinePaste rate room alive cut nearX nearY .clockwise spaced
  rw [turned, encoded, String.ofList_toList] at pasted
  exact ⟨rate, room, alive, encoded, cut, nearX, nearY, spaced, pasted⟩

end Showreel.Script
