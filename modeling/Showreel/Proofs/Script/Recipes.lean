import Showreel.Proofs.Number.Decimal
import Showreel.Proofs.Script.Course
import Showreel.Proofs.Script.Fragments
import Showreel.Proofs.Script.PasteArguments

/-!
Contract: named lists of gaps in the times of pastes.

Owns:
- tokens that spell gaps, with names among them, and the reading of such tokens;
- the lists that names stand for behind some statements;
- when a paste is made whose gaps are spelled with names, whatever the names come to mean later.

Does not own: pastes by a rule.
-/

namespace Showreel.Script

open Number Scalar Paste Reading

/-! ### Spelling gaps -/

section Spelling

variable (α : Type) [Scalar α]

/-- Tokens that spell gaps: each is a number that is not negative, or a name in whose place its list
is put. -/
inductive Spells (named : String → Option (List Int)) : List String → List Int → Prop
  | nil : Spells named [] []
  | number {token : String} {tokens : List String} {gap : Int} {gaps : List Int}
      (stands : StandsFor α token gap) (forward : 0 ≤ gap) (others : Spells named tokens gaps) :
      Spells named (token :: tokens) (gap :: gaps)
  | recipe {name : String} {tokens : List String} {given gaps : List Int}
      (wordy : isNumeric α name = false) (known : named name = some given)
      (others : Spells named tokens gaps) : Spells named (name :: tokens) (given ++ gaps)

/-- The next token is no gap and names none. -/
def EndsGaps (named : String → Option (List Int)) (rest : List String) : Prop :=
  isNumeric α (rest.headD "") = false ∧ named (rest.headD "") = none

variable {α} {behind tokens rest : List String} {reported : List Diagnostic} {gaps : List Int}

theorem contains_atLeast {low count : Int} (above : low ≤ count) :
    (Bounds.atLeast low).contains count = true := by
  simp [Bounds.contains, Bounds.atLeast, above]

/-- What the tokens spell is read, and no token behind them. -/
theorem run_gaps {recipes : List (String × List Int)}
    (spells : Spells α (recipes.lookup ·) tokens gaps) (ends : EndsGaps α (recipes.lookup ·) rest)
    {fuel : Nat} (covers : tokens.length ≤ fuel) (source : String) (behind : List String) :
    (Reading.gaps α recipes fuel source).run ⟨⟨behind, tokens ++ rest⟩, reported⟩
      = .ok (some gaps, ⟨⟨tokens.reverse ++ behind, rest⟩, reported⟩) := by
  induction spells generalizing fuel source behind with
  | nil =>
      obtain ⟨wordy, unknown⟩ := ends
      cases fuel with
      | zero => rfl
      | succ fuel =>
          have missing : recipes.lookup (rest.headD "") = none := unknown
          rw [List.nil_append, Reading.gaps, run_bind_ok (run_peek_ahead rest),
            if_neg (Bool.eq_false_iff.mp wordy), missing]
          rfl
  | number stands forward others inductionHypothesis =>
      rename_i token others gap gaps
      obtain ⟨fuel, rfl⟩ := Nat.exists_eq_add_one_of_ne_zero (Nat.ne_zero_of_lt covers)
      have goesOn := inductionHypothesis (Nat.le_of_succ_le_succ covers)
        (source ++ " " ++ toString gap) (token :: behind)
      rw [List.cons_append, Reading.gaps, run_bind_ok run_peek, if_pos stands.isNumeric,
        run_bind_ok (run_whole stands (contains_atLeast forward) source)]
      dsimp only
      rw [run_bind_ok goesOn, List.reverse_cons, List.append_assoc]
      rfl
  | recipe wordy known others inductionHypothesis =>
      rename_i name others given gaps
      obtain ⟨fuel, rfl⟩ := Nat.exists_eq_add_one_of_ne_zero (Nat.ne_zero_of_lt covers)
      have goesOn := inductionHypothesis (Nat.le_of_succ_le_succ covers)
        (source ++ " " ++ name) (name :: behind)
      rw [List.cons_append, Reading.gaps, run_bind_ok run_peek,
        if_neg (Bool.eq_false_iff.mp wordy), known]
      dsimp only
      rw [run_bind_ok run_advance, run_bind_ok goesOn, List.reverse_cons, List.append_assoc]
      rfl

theorem run_allGaps {recipes : List (String × List Int)}
    (spells : Spells α (recipes.lookup ·) tokens gaps) (ends : EndsGaps α (recipes.lookup ·) rest)
    (source : String) :
    (allGaps α recipes source).run ⟨⟨behind, tokens ++ rest⟩, reported⟩
      = .ok (some gaps, ⟨⟨tokens.reverse ++ behind, rest⟩, reported⟩) := by
  change (Reading.gaps α recipes (tokens ++ rest).length source).run _ = _
  refine run_gaps spells ends ?_ source behind
  rw [List.length_append]
  exact Nat.le_add_right _ _

theorem run_recipe {name : String} (fine : IsName α name)
    (spells : Spells α (fun _ => none) tokens gaps) (ends : isNumeric α (rest.headD "") = false)
    (word : String) :
    (Read.recipe word : Reading (Option (Statement α))).run
        ⟨⟨behind, name :: (tokens ++ rest)⟩, reported⟩
      = .ok (some (.defineRecipe name gaps (word ++ " " ++ name)),
        ⟨⟨tokens.reverse ++ name :: behind, rest⟩, reported⟩) := by
  have nothing : EndsGaps α (([] : List (String × List Int)).lookup ·) rest := ⟨ends, rfl⟩
  rw [Read.recipe, run_bind_ok (run_freshName fine word)]
  dsimp only
  rw [run_bind_ok (run_allGaps spells nothing (word ++ " " ++ name))]
  rfl

theorem run_pasteTime {draft : Draft α} {time : String} {first : Int}
    (stands : StandsFor α time first) (begins : 0 ≤ first)
    (spells : Spells α (draft.recipes.lookup ·) tokens gaps)
    (ends : EndsGaps α (draft.recipes.lookup ·) rest) (word : String) :
    (Read.pasteTime draft word).run ⟨⟨behind, time :: (tokens ++ rest)⟩, reported⟩
      = .ok (some (.pasteAt first gaps), ⟨⟨tokens.reverse ++ time :: behind, rest⟩, reported⟩) := by
  rw [Read.pasteTime, run_bind_ok (run_nextIsNumeric time), if_pos stands.isNumeric,
    run_bind_ok (run_whole stands (contains_atLeast begins) word)]
  dsimp only
  rw [run_bind_ok (run_allGaps spells ends (word ++ " " ++ toString first))]
  rfl

end Spelling

/-! ### What names stand for -/

section Named

variable {α : Type}

/-- The lists that names stand for behind a statement. -/
def namedBehind (named : String → Option (List Int)) : Statement α → String → Option (List Int)
  | .defineRecipe name gaps _ => Function.update named name (some gaps)
  | _ => named

/-- The lists that names stand for behind some statements: each stands for the one it was given
last. -/
def recipesBehind (statements : List (Statement α)) : String → Option (List Int) :=
  statements.foldl namedBehind fun _ => none

theorem recipesBehind_concat (statements : List (Statement α)) (statement : Statement α) :
    recipesBehind (statements ++ [statement]) = namedBehind (recipesBehind statements) statement := by
  rw [recipesBehind, List.foldl_concat, recipesBehind]

theorem lookup_assign {κ β : Type} [DecidableEq κ] (key : κ) (value : β) (pairs : List (κ × β)) :
    ((Draft.assign key value pairs).lookup ·)
      = Function.update (pairs.lookup ·) key (some value) := by
  funext asked
  rw [Function.update_apply]
  induction pairs with
  | nil =>
      by_cases same : asked = key
      · simp [Draft.assign, same]
      · simp [Draft.assign, List.lookup_cons, beq_eq_false_iff_ne.mpr same, same]
  | cons pair rest inductionHypothesis =>
      obtain ⟨other, current⟩ := pair
      rw [Draft.assign]
      by_cases replaced : other = key
      · by_cases same : asked = key
        · simp [replaced, same]
        · simp [List.lookup_cons, replaced, same, beq_eq_false_iff_ne.mpr same]
      · by_cases same : asked = key
        · have passed : (key == other) = false := beq_eq_false_iff_ne.mpr (Ne.symm replaced)
          simp [List.lookup_cons, replaced, same, passed, same ▸ inductionHypothesis]
        · simp [List.lookup_cons, replaced, same, inductionHypothesis]

variable [Scalar α] {draft : Draft α}

theorem Draft.perform_recipes {statement : Statement α} {outcome : Outcome α}
    (done : draft.perform statement = .ok outcome) :
    (outcome.draft.recipes.lookup ·) = namedBehind (draft.recipes.lookup ·) statement := by
  cases about : statement.isAboutPastes with
  | true =>
      cases statement with
      | paste cells x y train source =>
          obtain ⟨⟨entry, copies, -, same⟩, -⟩ := PastedWith.of_perform done
          rw [same]
          rfl
      | pasteAt _ _ | pasteEvery _ _ _ => exact Except.ok.inj done ▸ rfl
      | pasteDrift _ _ | pasteMode _ | pasteEvolve _ => exact Except.ok.inj done ▸ rfl
      | _ => cases about
  | false =>
      cases statement with
      | defineRecipe name gaps source =>
          cases done
          exact lookup_assign name gaps draft.recipes
      | defineSnippet snippet source => exact Except.ok.inj done ▸ rfl
      | paste _ _ _ _ _ | pasteAt _ _ | pasteEvery _ _ _ => cases about
      | pasteDrift _ _ | pasteMode _ | pasteEvolve _ => cases about
      | _ => rw [(SameStock.perform rfl rfl done).recipes]; rfl

/-- The recipes of a session are the lists that names stand for behind the statements so far. -/
theorem Session.CarriesOut.recipes {context : Context α} {text : String} {session : Session α}
    {carried : List (Statement α)}
    (done : (start context text).CarriesOut context carried session) :
    (session.draft.recipes.lookup ·) = recipesBehind carried := by
  rw [← List.nil_append carried]
  refine done.keeps (fun carried draft => (draft.recipes.lookup ·) = recipesBehind carried)
    ?_ ?_ rfl
  · intro carried draft text holds
    rw [(Draft.SameStock.finishString draft context.info text).recipes]
    exact holds
  · intro carried draft statement outcome holds performed
    rw [recipesBehind_concat, ← holds]
    exact Draft.perform_recipes performed

/-- A word of scripts ends a list of gaps, as no recipe has such a name. -/
theorem Session.CarriesOut.endsGaps {context : Context α} {text : String} {session : Session α}
    {carried : List (Statement α)}
    (done : (start context text).CarriesOut context carried session) {rest : List String}
    (word : isScriptWord (rest.headD "") = true) : EndsGaps α (recipesBehind carried) rest := by
  refine ⟨isNumeric_of_isScriptWord α word, ?_⟩
  rw [← done.recipes, List.lookup_eq_none_iff]
  intro named member
  rw [bne_iff_ne]
  intro same
  have free := done.sound.names named member
  rw [← same, word] at free
  cases free

end Named

/-! ### Scripts -/

section Scripts

variable {α : Type} [Scalar α] {context : Context α} {session : Session α}
  {tokens rest : List String} {gaps : List Int}

namespace Session

/-- A recipe is taken up with the gaps that its tokens spell. -/
theorem exists_performs_recipe {name : String} (faces : session.Faces ("RECIPE" :: name :: tokens) rest)
    (fine : IsName α name) (spells : Spells α (fun _ => none) tokens gaps)
    (ends : isNumeric α (rest.headD "") = false) :
    ∃ after, session.Performs context (.defineRecipe name gaps ("RECIPE" ++ " " ++ name)) rest
      after := by
  obtain ⟨after, performs, -⟩ := performs_of_read faces (by decide)
    (by decide : Command.ofWord? "RECIPE" = some .recipe) (run_recipe fine spells ends "RECIPE") rfl
  exact ⟨after, performs⟩

/-- A time is taken up with the gaps that its tokens spell, and the next paste follows it. -/
theorem exists_performs_pasteAt {time : String} {first : Int}
    (faces : session.Faces ("PASTET" :: time :: tokens) rest) (stands : StandsFor α time first)
    (begins : 0 ≤ first) (spells : Spells α (session.draft.recipes.lookup ·) tokens gaps)
    (ends : EndsGaps α (session.draft.recipes.lookup ·) rest) :
    ∃ after, session.Performs context (.pasteAt first gaps) rest after
      ∧ after.draft.pasting.Lists first gaps := by
  obtain ⟨after, performs, draft⟩ := performs_of_read faces (by decide)
    (by decide : Command.ofWord? "PASTET" = some .pasteTime)
    (run_pasteTime stands begins spells ends "PASTET") rfl
  exact ⟨after, performs, draft ▸ ⟨rfl, rfl, rfl⟩⟩

end Session

/-- **Names in the time of a paste stand for their lists.** A number of up to `2 ^ 53` is written by
its digits, and every word of scripts ends a list. A recipe is taken up with the numbers behind its
name, and a time with the numbers behind it and the lists that the names among them stand for at that
point. A paste that follows it is then made at the running sums of these gaps, whatever is defined in
between, and stays so whatever is read later. -/
theorem interpret_recipes [DecimalScalar α] (context : Context α) (text : String) :
    (∀ count : Int, 0 ≤ count → count ≤ 2 ^ 53 → StandsFor α (toString count) count)
      ∧ (∀ carried session rest, (Session.start context text).CarriesOut context carried session →
        isScriptWord (rest.headD "") = true → EndsGaps α (recipesBehind carried) rest)
      ∧ (∀ carried session name tokens gaps rest,
        (Session.start context text).CarriesOut context carried session →
        session.Faces ("RECIPE" :: name :: tokens) rest → IsName α name →
        Spells α (fun _ => none) tokens gaps → isNumeric α (rest.headD "") = false →
        ∃ after, session.Performs context (.defineRecipe name gaps ("RECIPE" ++ " " ++ name)) rest
          after)
      ∧ ∀ carried session time first tokens gaps rest,
        (Session.start context text).CarriesOut context carried session →
        session.Faces ("PASTET" :: time :: tokens) rest → StandsFor α time first → 0 ≤ first →
        Spells α (recipesBehind carried) tokens gaps → EndsGaps α (recipesBehind carried) rest →
        ∃ set, session.Performs context (.pasteAt first gaps) rest set
          ∧ ∀ between there cells x y train source, set.CarriesOut context between there →
            (∀ statement ∈ between, statement.keepsTimes = true) →
            there.statement? context = some (.paste cells x y train source) →
            ∃ entry copies after, there.AddsPastes context (entry :: copies) after
              ∧ (∀ generation, entry.trigger.fires generation = true
                ↔ ∃ count ≤ gaps.length, generation = first + (gaps.take count).sum)
              ∧ ∀ interpretation, interpret context text = .ok interpretation →
                interpretation.timeline.pastes[there.draft.pastes.size]? = some entry.evolved
                  ∧ entry.evolved.trigger = entry.trigger := by
  refine ⟨?numbers, ?words, ?recipe, ?time⟩
  case words =>
    exact fun carried session rest reached word => reached.endsGaps word
  case numbers =>
    exact fun count low high => exists_readToken?_toString (abs_le.mpr ⟨by omega, high⟩)
  case recipe =>
    intro _ _ _ _ _ _ _ faces fine spells ends
    exact Session.exists_performs_recipe faces fine spells ends
  case time =>
    intro carried session time first tokens gaps rest reached faces stands begins spells ends
    rw [← reached.recipes] at spells ends
    obtain ⟨set, performs, lists⟩ := Session.exists_performs_pasteAt faces stands begins spells ends
    refine ⟨set, performs, ?_⟩
    intro between there cells x y train source onward keeps read
    have reachedThere := (reached.trans performs.carriesOut).trans onward
    have listsThere := onward.lists keeps lists
    have forward : ∀ gap ∈ gaps, 0 ≤ gap := listsThere.gaps ▸ reachedThere.sound.pasting
    obtain ⟨copies, after, adds⟩ := Session.exists_addsPastes_listed listsThere forward read
    refine ⟨_, copies, after, adds, fun generation => listedEntry_fires_iff, ?_⟩
    exact fun interpretation interpreted =>
      ⟨adds.timeline reachedThere interpreted, Entry.evolved_trigger _⟩

/-- A recipe that is spliced in twice, and comes to mean something else before the paste is made. -/
theorem interpret_recipes_redefined :
    let context : Context Float := ⟨.standard, .standard, .standard⟩
    let text := "[[ RECIPE hop 5 10 PASTET 20 hop 1 hop RECIPE hop 7 PASTE o! ]]"
    ∃ interpretation entry, interpret context text = .ok interpretation
      ∧ interpretation.timeline.pastes = [entry]
      ∧ ∀ generation, entry.trigger.fires generation = true
        ↔ ∃ count ≤ 5, generation = 20 + (([5, 10, 1, 5, 10] : List Int).take count).sum := by
  intro context text
  obtain ⟨numbers, words, recipe, time⟩ := interpret_recipes context text
  have hop : IsName Float "hop" := ⟨by decide, by decide, isNumeric_of_unread (by decide) (by decide)⟩
  have five : StandsFor Float "5" 5 := numbers 5 (by decide) (by decide)
  have ten : StandsFor Float "10" 10 := numbers 10 (by decide) (by decide)
  have one : StandsFor Float "1" 1 := numbers 1 (by decide) (by decide)
  have seven : StandsFor Float "7" 7 := numbers 7 (by decide) (by decide)
  obtain ⟨defined, defines⟩ := recipe [] (Session.start context text) "hop" ["5", "10"] [5, 10]
    ["PASTET", "20", "hop", "1", "hop", "RECIPE", "hop", "7", "PASTE", "o!", "]]"]
    (.refl context _) ⟨rfl, by decide⟩ hop (.number five (by decide) (.number ten (by decide) .nil))
    (isNumeric_of_isScriptWord Float (by decide))
  have known : recipesBehind [(.defineRecipe "hop" [5, 10] ("RECIPE" ++ " " ++ "hop") :
      Statement Float)] "hop" = some [5, 10] := rfl
  have spelt : Spells Float (recipesBehind [(.defineRecipe "hop" [5, 10] ("RECIPE" ++ " " ++ "hop") :
      Statement Float)]) ["hop", "1", "hop"] ([5, 10] ++ 1 :: ([5, 10] ++ [])) :=
    .recipe hop.wordy known (.number one (by decide) (.recipe hop.wordy known .nil))
  obtain ⟨timed, times, later⟩ := time _ defined "20" 20 ["hop", "1", "hop"] [5, 10, 1, 5, 10]
    ["RECIPE", "hop", "7", "PASTE", "o!", "]]"] defines.carriesOut ⟨defines.faces.1, defines.faces.2⟩
    (numbers 20 (by decide) (by decide)) (by decide) spelt
    (words _ defined _ defines.carriesOut (by decide))
  obtain ⟨redefined, redefines⟩ := recipe _ timed "hop" ["7"] [7] ["PASTE", "o!", "]]"]
    (defines.carriesOut.trans times.carriesOut) ⟨times.faces.1, times.faces.2⟩ hop
    (.number seven (by decide) .nil) (isNumeric_of_isScriptWord Float (by decide))
  have three : (Session.start context text).run context 3 = .ok redefined := by
    rw [Session.run_succ, defines.stepped]
    change defined.run context 2 = _
    rw [Session.run_succ, times.stepped]
    change timed.run context 1 = _
    rw [Session.run_succ, redefines.stepped]
    rfl
  have checked : ((Session.start context text).run context 3).toOption.any (fun there =>
      there.draft.pastes.size == 0 && (there.statement? context).any Statement.isPaste) = true := by
    decide +kernel
  rw [three] at checked
  obtain ⟨fresh, pastes⟩ := Bool.and_eq_true_iff.mp checked
  obtain ⟨statement, read, isPaste⟩ := (Option.any_eq_true _ _).mp pastes
  have finishes : (interpret context text).toOption.any (fun interpretation =>
      interpretation.timeline.pastes.length == 1) = true := by decide +kernel
  obtain ⟨interpretation, done, single⟩ := exists_interpretation finishes
  obtain ⟨entry, alone⟩ := List.length_eq_one_iff.mp (beq_iff_eq.mp single)
  refine ⟨interpretation, entry, done, alone, ?_⟩
  cases statement with
  | paste cells x y train source =>
      obtain ⟨made, copies, after, adds, fires, shown⟩ := later _ redefined cells x y train source
        redefines.carriesOut (by simp [Statement.keepsTimes]) read
      obtain ⟨same, trigger⟩ := shown interpretation done
      rw [alone, beq_iff_eq.mp fresh] at same
      obtain rfl := Option.some.inj same
      rw [trigger]
      exact fires
  | _ => cases isPaste

end Scripts

end Showreel.Script
