import Showreel.Proofs.Number.Decimal
import Showreel.Proofs.Pattern.Symmetry
import Showreel.Proofs.Script.Course
import Showreel.Proofs.Script.Fragments
import Showreel.Proofs.Script.PasteArguments

/-!
Contract: a paste of a named pattern, and the paste of its text that it stands for.

Owns:
- the reading of a named pattern, and where it is found later;
- that both pastes make the same entry but for what it is called, with the offsets added and the
  symmetries one after the other.

Does not own: text that is spread over tokens.
-/

namespace Showreel.Script

open Number Scalar Paste Pattern Reading

variable {α : Type} [Scalar α]

/-! ### Named patterns -/

section Names

variable {name : String} {snippet : Snippet} {draft : Draft α}

/-- Whether a statement gives a name a pattern. -/
def Statement.givesPattern (name : String) : Statement α → Bool
  | .defineSnippet snippet _ => snippet.name == name
  | _ => false

/-- A definition changes what its own name stands for, and no other. -/
theorem find?_assignSnippet (snippet : Snippet) (snippets : List Snippet) (name : String) :
    ((Draft.assignSnippet snippet snippets).find? fun other => other.name == name)
      = if snippet.name = name then some snippet
        else snippets.find? fun other => other.name == name := by
  induction snippets with
  | nil =>
      rw [Draft.assignSnippet, List.find?_singleton]
      simp
  | cons other rest inductionHypothesis =>
      rw [Draft.assignSnippet]
      by_cases replaced : other.name = snippet.name
      · by_cases asked : snippet.name = name
        · simp [replaced, asked]
        · simp [replaced, asked]
      · by_cases asked : snippet.name = name
        · have passed : other.name ≠ name := asked ▸ replaced
          simp [asked, passed, inductionHypothesis]
        · simp [asked, replaced, inductionHypothesis, List.find?_cons]

/-- Other statements leave a named pattern where it is found. -/
theorem Draft.perform_pattern {statement : Statement α} {outcome : Outcome α}
    (found : (draft.snippets.find? fun other => other.name == name) = some snippet)
    (other : statement.givesPattern name = false)
    (done : draft.perform statement = .ok outcome) :
    (outcome.draft.snippets.find? fun other => other.name == name) = some snippet := by
  cases about : statement.isAboutPastes with
  | true =>
      cases statement with
      | paste cells x y train source =>
          obtain ⟨⟨entry, copies, -, same⟩, -⟩ := PastedWith.of_perform done
          rw [same]
          exact found
      | pasteAt _ _ | pasteEvery _ _ _ => exact Except.ok.inj done ▸ found
      | pasteDrift _ _ | pasteMode _ | pasteEvolve _ => exact Except.ok.inj done ▸ found
      | _ => cases about
  | false =>
      cases definition : statement.isDefinition with
      | false => rwa [(SameStock.perform about definition done).snippets]
      | true =>
          cases statement with
          | defineSnippet given source =>
              cases done
              exact (find?_assignSnippet given draft.snippets name).trans
                ((if_neg (beq_eq_false_iff_ne.mp other)).trans found)
          | defineRecipe _ _ _ => exact Except.ok.inj done ▸ found
          | _ => cases definition

theorem Session.CarriesOut.pattern {context : Context α} {session after : Session α}
    {statements : List (Statement α)} (done : session.CarriesOut context statements after)
    (others : ∀ statement ∈ statements, statement.givesPattern name = false)
    (found : (session.draft.snippets.find? fun other => other.name == name) = some snippet) :
    (after.draft.snippets.find? fun other => other.name == name) = some snippet := by
  refine done.keeps_draft
    (fun draft => (draft.snippets.find? fun other => other.name == name) = some snippet)
    (fun statement => statement.givesPattern name = false) ?_ ?_ others found
  · intro draft text found
    rwa [(Draft.SameStock.finishString draft context.info text).snippets]
  · exact fun draft statement outcome found other done => Draft.perform_pattern found other done

end Names

/-! ### Reading -/

section Readings

variable {behind placed turned rest : List String} {reported : List Diagnostic} {name text : String}
  {cells : Cells} {x y : Int} {placing : Symmetry}

theorem ne_empty_of_closed (closed : isClosed text = true) : text ≠ "" := by
  rintro rfl
  cases closed

/-- A named pattern is read with its text, offset and symmetry. -/
theorem run_runLength (fine : IsName α name) (closed : isClosed text = true)
    (decoded : RunLength.decode text.toList = .ok (some cells))
    (places : Places α (turned ++ rest) placed x y) (turns : Turns rest turned placing)
    (word : String) :
    (Read.runLength word : Reading (Option (Statement α))).run
        ⟨⟨behind, name :: text :: (placed ++ (turned ++ rest))⟩, reported⟩
      = .ok (some (.defineSnippet ⟨name, cells, x, y, placing⟩ (word ++ " " ++ name)),
        ⟨⟨turned.reverse ++ (placed.reverse ++ text :: name :: behind), rest⟩, reported⟩) := by
  have opened := not_missing (ne_empty_of_closed closed) (isScriptWord_of_closed closed)
  have alone : (runText α text).run
      ⟨⟨text :: name :: behind, placed ++ (turned ++ rest)⟩, reported⟩
        = .ok (text, ⟨⟨text :: name :: behind, placed ++ (turned ++ rest)⟩, reported⟩) :=
    run_runText (joins_closed closed _)
  rw [Read.runLength, run_bind_ok (run_freshName fine word)]
  dsimp only
  rw [run_bind_ok run_peek, if_neg opened, run_bind_ok run_advance, run_bind_ok alone,
    run_bind_ok (run_position places), run_bind_ok (run_symmetry turns), decoded]
  rfl

end Readings

/-! ### Pastes by name and by text -/

section Sessions

variable {context : Context α} {session : Session α} {args rest : List String} {cells : Cells}
  {x y : Int} {source : String} {entry : Entry}

/-- What an entry is called has no bearing on the rest of it. -/
theorem nextEntry_renamed {settings : PasteSettings} (other : String)
    (made : Draft.nextEntry settings cells x y source = .ok entry) :
    ∃ twin, Draft.nextEntry settings cells x y other = .ok twin
      ∧ entry = { twin with source := source } := by
  obtain ⟨trigger, triggered, made⟩ := bind_eq_ok made
  cases made
  rw [Draft.nextEntry, triggered]
  exact ⟨_, rfl, rfl⟩

/-- A named pattern is taken up with its text, offset and symmetry, and is found under its name. -/
theorem Session.exists_performs_runLength {name code : String} {placed turned : List String}
    {placing : Symmetry} (faces : session.Faces ("RLE" :: name :: code :: (placed ++ turned)) rest)
    (fine : IsName α name) (closed : isClosed code = true)
    (decoded : RunLength.decode code.toList = .ok (some cells))
    (places : Places α (turned ++ rest) placed x y) (turns : Turns rest turned placing) :
    ∃ after, session.Performs context
        (.defineSnippet ⟨name, cells, x, y, placing⟩ ("RLE" ++ " " ++ name)) rest after
      ∧ (after.draft.snippets.find? fun snippet => snippet.name == name)
        = some ⟨name, cells, x, y, placing⟩ := by
  have read : (Command.runLength.read session.draft context.settings.refreshRate "RLE").run
      ⟨⟨"RLE" :: session.reader.behind, name :: code :: (placed ++ turned) ++ rest⟩, []⟩
        = .ok (some (.defineSnippet ⟨name, cells, x, y, placing⟩ ("RLE" ++ " " ++ name)),
          ⟨⟨turned.reverse ++ (placed.reverse ++ code :: name :: "RLE" :: session.reader.behind),
            rest⟩, []⟩) := by
    rw [List.cons_append, List.cons_append, List.append_assoc]
    exact run_runLength fine closed decoded places turns "RLE"
  obtain ⟨after, performs, draft⟩ := performs_of_read faces (by decide)
    (by decide : Command.ofWord? "RLE" = some .runLength) read rfl
  refine ⟨after, performs, ?_⟩
  rw [draft]
  exact (find?_assignSnippet _ _ name).trans (if_pos rfl)

/-- A paste without a train adds its own entry. -/
theorem Session.exists_addsPastes_single (faces : session.Faces ("PASTE" :: args) rest)
    (accepted : PasteArguments session.draft rest args cells x y source)
    (ends : rest.headD "" ≠ "XT" ∧ rest.headD "" ≠ "YT")
    (made : Draft.nextEntry session.draft.pasting cells x y source = .ok entry) :
    ∃ after, session.AddsPastes context [entry] after := by
  rw [← List.append_nil args] at faces
  obtain ⟨after, -, adds, -⟩ :=
    exists_performs_paste faces accepted (fun _ => run_train_none ends) made
  exact ⟨after, adds⟩

/-- **A paste of a named pattern is the paste of its text**, with the offsets added and the symmetries
one after the other. Both make the same entry but for what it is called, as long as the next pastes of
both are to be made alike, and the entry stays whatever the name comes to mean later. -/
theorem Session.pastes_named [DecimalScalar α] (context : Context α) (text : String) :
    (∀ count : Int, |count| ≤ 2 ^ 53 → StandsFor α (toString count) count)
      ∧ (∀ (first second : Symmetry) (block : Cells),
        (first.andThen second).apply block = second.apply (first.apply block))
      ∧ ∀ carried session name code placed turned rest cells x₁ y₁ first,
        (Session.start context text).CarriesOut context carried session →
        session.Faces ("RLE" :: name :: code :: (placed ++ turned)) rest → IsName α name →
        isClosed code = true → RunLength.decode code.toList = .ok (some cells) →
        Places α (turned ++ rest) placed x₁ y₁ → Turns rest turned first →
        ∃ defined, session.Performs context
            (.defineSnippet ⟨name, cells, x₁, y₁, first⟩ ("RLE" ++ " " ++ name)) rest defined
          ∧ ∀ between there placed turned rest x₂ y₂ second,
            defined.CarriesOut context between there →
            (∀ statement ∈ between, statement.givesPattern name = false) →
            there.Faces ("PASTE" :: name :: (placed ++ turned)) rest →
            Places α (turned ++ rest) placed x₂ y₂ → Turns rest turned second →
            rest.headD "" ≠ "XT" ∧ rest.headD "" ≠ "YT" →
            ∃ entry after, there.AddsPastes context [entry] after
              ∧ (∀ interpretation, interpret context text = .ok interpretation →
                interpretation.timeline.pastes[there.draft.pastes.size]? = some entry.evolved)
              ∧ ∀ (other : Session α) (placed turned rest : List String),
                other.draft.pasting = there.draft.pasting →
                (other.draft.snippets.find? fun snippet => snippet.name == code) = none →
                other.Faces ("PASTE" :: code :: (placed ++ turned)) rest →
                Places α (turned ++ rest) placed (x₁ + x₂) (y₁ + y₂) →
                Turns rest turned (first.andThen second) →
                rest.headD "" ≠ "XT" ∧ rest.headD "" ≠ "YT" →
                ∃ twin final, other.AddsPastes context [twin] final
                  ∧ entry = { twin with source := name } := by
  refine ⟨fun count small => exists_readToken?_toString small,
    fun first second block => (Symmetry.apply_apply first second block).symm, ?_⟩
  intro carried session name code placed turned rest cells x₁ y₁ first reached faces fine closed
    decoded places turns
  obtain ⟨defined, performs, found⟩ :=
    exists_performs_runLength faces fine closed decoded places turns
  refine ⟨defined, performs, ?_⟩
  intro between there placed turned rest x₂ y₂ second onward others faces places turns ends
  have reachedThere := (reached.trans performs.carriesOut).trans onward
  obtain ⟨trigger, triggered⟩ := reachedThere.sound.exists_trigger
  obtain ⟨entry, made⟩ : ∃ entry, Draft.nextEntry there.draft.pasting
      (second.apply (first.apply cells)) (x₂ + x₁) (y₂ + y₁) name = .ok entry := by
    rw [Draft.nextEntry, triggered]
    exact ⟨_, rfl⟩
  have accepted : PasteArguments there.draft rest ([name] ++ (placed ++ turned))
      (second.apply (first.apply cells)) (x₂ + x₁) (y₂ + y₁) name :=
    .intro (.pattern fine.visible fine.unreserved (onward.pattern others found)) places turns
  obtain ⟨after, adds⟩ := exists_addsPastes_single faces accepted ends made
  refine ⟨entry, after, adds, fun interpretation => adds.timeline reachedThere, ?_⟩
  intro other placed turned rest alike unnamed faces places turns ends
  obtain ⟨twin, madeToo, same⟩ := nextEntry_renamed code made
  have accepted : PasteArguments other.draft rest ([code] ++ (placed ++ turned))
      ((first.andThen second).apply cells) (x₁ + x₂ + 0) (y₁ + y₂ + 0) code :=
    .intro (.text (ne_empty_of_closed closed) (isScriptWord_of_closed closed) unnamed
      (joins_closed closed _) decoded) places turns
  rw [Symmetry.apply_apply, Int.add_comm x₂, Int.add_comm y₂, ← alike, ← Int.add_zero (x₁ + x₂),
    ← Int.add_zero (y₁ + y₂)] at madeToo
  obtain ⟨final, addsToo⟩ := exists_addsPastes_single faces accepted ends madeToo
  exact ⟨twin, final, addsToo, same⟩

/-- A glider that is turned when it is named and again when it is pasted, and redefined behind. -/
theorem Session.pastes_named_glider :
    let context : Context Float := ⟨.standard, .standard, .standard⟩
    let text := "[[ RLE glider bo$2bo$3o! 1 -2 RCW PASTE glider 3 4 FLIPX RLE glider o! ]]"
    let inline := Session.start context "[[ PASTE bo$2bo$3o! 4 2 SWAPXY ]]"
    ∃ defined entry after twin final, (Session.start context text).Performs context
        (.defineSnippet ⟨"glider", Cells.ofRows [[0, 1, 0], [0, 0, 1], [1, 1, 1]], 1, -2, .clockwise⟩
          ("RLE" ++ " " ++ "glider"))
        ["PASTE", "glider", "3", "4", "FLIPX", "RLE", "glider", "o!", "]]"] defined
      ∧ defined.AddsPastes context [entry] after ∧ inline.AddsPastes context [twin] final
      ∧ entry = { twin with source := "glider" } := by
  intro context text inline
  obtain ⟨numbers, -, named⟩ := Session.pastes_named context text
  have one : StandsFor Float "1" 1 := numbers 1 (by decide)
  have two : StandsFor Float "2" 2 := numbers 2 (by decide)
  have three : StandsFor Float "3" 3 := numbers 3 (by decide)
  have four : StandsFor Float "4" 4 := numbers 4 (by decide)
  have back : StandsFor Float "-2" (-2) := by
    have digits : toString (-2 : Int) = "-2" := by decide
    exact digits ▸ numbers (-2) (by decide)
  have decoded : RunLength.decode "bo$2bo$3o!".toList
      = .ok (some (Cells.ofRows [[0, 1, 0], [0, 0, 1], [1, 1, 1]])) := rfl
  have fine : IsName Float "glider" :=
    ⟨by decide, by decide, isNumeric_of_unread (by decide) (by decide)⟩
  obtain ⟨defined, performs, pasted⟩ := named [] (Session.start context text) "glider" "bo$2bo$3o!"
    ["1", "-2"] ["RCW"] ["PASTE", "glider", "3", "4", "FLIPX", "RLE", "glider", "o!", "]]"] _ 1 (-2)
    .clockwise (.refl context _) ⟨rfl, by decide⟩ fine rfl decoded (.both one back) (.word rfl)
  obtain ⟨entry, after, adds, -, twins⟩ := pasted [] defined ["3", "4"] ["FLIPX"]
    ["RLE", "glider", "o!", "]]"] 3 4 .flipX (.refl context _) (List.forall_mem_nil _)
    ⟨performs.faces.1, performs.faces.2⟩ (.both three four) (.word rfl) (by decide)
  obtain ⟨reported, performed⟩ := performs.performed
  have alike : inline.draft.pasting = defined.draft.pasting :=
    congrArg (fun outcome => outcome.draft.pasting) (Except.ok.inj performed)
  obtain ⟨twin, final, addsToo, same⟩ := twins inline ["4", "2"] ["SWAPXY"] ["]]"] alike rfl
    ⟨rfl, by decide⟩ (.both four two) (.word rfl) (by decide)
  exact ⟨defined, entry, after, twin, final, performs, adds, addsToo, same⟩

end Sessions

end Showreel.Script
