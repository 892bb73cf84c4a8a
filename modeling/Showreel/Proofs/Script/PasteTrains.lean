import Mathlib.Data.List.Infix
import Showreel.Proofs.Script.Recipes

/-!
Contract: a paste with a train, and the time that it leaves to the next one.

Owns:
- the reading of a train that is accepted;
- the entries of a paste and of its copies, one for each beginning of the train;
- that a paste with a train adds exactly these, and the next paste is made when the last of them
  is.

Does not own: trains that are rejected.
-/

namespace Showreel.Script

open Number Scalar Paste Pattern Reading

variable {α : Type} [Scalar α]

/-! ### Reading a train -/

section Readings

variable {behind tokens rest : List String} {reported : List Diagnostic}

variable (α) in
/-- Tokens that spell the pairs of a train: a distance and a delay that is not negative for each. -/
def SpellsPairs (tokens : List String) (pairs : List (Int × Int)) : Prop :=
  List.Forall₂ (StandsFor α) tokens (pairs.flatMap fun pair => [pair.1, pair.2])
    ∧ ∀ pair ∈ pairs, 0 ≤ pair.2

variable (α) in
/-- The next two tokens are no pair of numbers. -/
def EndsPairs (rest : List String) : Prop :=
  (isNumeric α (rest.headD "") && isNumeric α (rest.getD 1 "")) = false

/-- The steps that some pairs ask for. -/
def trainOf (alongX : Bool) (pairs : List (Int × Int)) : List TrainStep :=
  pairs.map fun pair => trainStep alongX pair.1 pair.2

/-- The tokens of a pair and those of the others. -/
theorem SpellsPairs.cons {pair : Int × Int} {pairs : List (Int × Int)}
    (spells : SpellsPairs α tokens (pair :: pairs)) :
    ∃ first second others, tokens = first :: second :: others ∧ StandsFor α first pair.1
      ∧ StandsFor α second pair.2 ∧ 0 ≤ pair.2 ∧ SpellsPairs α others pairs := by
  obtain ⟨spelled, forward⟩ := spells
  obtain ⟨waits, forwardToo⟩ := List.forall_mem_cons.mp forward
  obtain ⟨first, later, moves, spelledLater, rfl⟩ := List.forall₂_cons_right_iff.mp spelled
  obtain ⟨second, others, delays, spelledToo, rfl⟩ := List.forall₂_cons_right_iff.mp spelledLater
  exact ⟨first, second, others, rfl, moves, delays, waits, spelledToo, forwardToo⟩

/-- Where a distance and a delay stand there is a pair of numbers. -/
theorem numeric_pair {first second : String} {distance delay : Int}
    (moves : StandsFor α first distance) (waits : StandsFor α second delay)
    (behind others rest : List String) :
    (isNumeric α (Reader.peek ⟨behind, first :: second :: others ++ rest⟩)
      && isNumeric α (Reader.peekAt ⟨behind, first :: second :: others ++ rest⟩ 1)) = true :=
  Bool.and_eq_true_iff.mpr ⟨moves.isNumeric, waits.isNumeric⟩

theorem SpellsPairs.length_le {pairs : List (Int × Int)} (spells : SpellsPairs α tokens pairs) :
    pairs.length ≤ tokens.length := by
  rw [spells.1.length_eq, List.length_flatMap]
  simp
  omega

/-- All pairs are read, and no token behind them. -/
theorem run_trainSteps {pairs : List (Int × Int)} (spells : SpellsPairs α tokens pairs)
    (ends : EndsPairs α rest) {fuel : Nat} (covers : pairs.length ≤ fuel) (alongX : Bool)
    (source : String) (behind : List String) :
    (Read.trainSteps α alongX source fuel).run ⟨⟨behind, tokens ++ rest⟩, reported⟩
      = .ok (trainOf alongX pairs, ⟨⟨tokens.reverse ++ behind, rest⟩, reported⟩) := by
  induction pairs generalizing tokens fuel behind with
  | nil =>
      obtain rfl := List.forall₂_nil_right_iff.mp spells.1
      cases fuel with
      | zero => rfl
      | succ fuel =>
          have unpaired : ¬(isNumeric α (Reader.peek ⟨behind, rest⟩)
              && isNumeric α (Reader.peekAt ⟨behind, rest⟩ 1)) = true :=
            Bool.eq_false_iff.mp ends
          rw [Read.trainSteps, List.nil_append, run_bind_ok (StateT.run_get _)]
          dsimp only
          rw [if_neg unpaired]
          rfl
  | cons pair pairs inductionHypothesis =>
      obtain ⟨first, second, others, rfl, moves, waits, forward, spellsOthers⟩ := spells.cons
      obtain ⟨fuel, rfl⟩ := Nat.exists_eq_add_one_of_ne_zero (Nat.ne_zero_of_lt covers)
      have goesOn := inductionHypothesis spellsOthers (Nat.le_of_succ_le_succ covers)
        (second :: first :: behind)
      rw [Read.trainSteps, run_bind_ok (StateT.run_get _)]
      dsimp only
      rw [if_pos (numeric_pair moves waits behind others rest), List.cons_append,
        List.cons_append, run_bind_ok (run_takeWhole moves), run_bind_ok (run_takeWhole waits),
        if_neg (Int.not_lt.mpr forward), run_bind_ok goesOn, List.reverse_cons, List.reverse_cons,
        List.append_assoc, List.append_assoc]
      rfl

theorem run_train {pairs : List (Int × Int)} (paired : pairs ≠ []) (spells : SpellsPairs α tokens pairs)
    (ends : EndsPairs α rest) {direction : String} (along : direction = "XT" ∨ direction = "YT")
    (word : String) :
    (Read.train α word).run ⟨⟨behind, direction :: tokens ++ rest⟩, reported⟩
      = .ok (trainOf (direction == "XT") pairs,
        ⟨⟨(direction :: tokens).reverse ++ behind, rest⟩, reported⟩) := by
  obtain ⟨pair, others, rfl⟩ := List.exists_cons_of_ne_nil paired
  obtain ⟨first, second, later, rfl, moves, waits, -, -⟩ := spells.cons
  have known : (direction == "XT" || direction == "YT") = true := by
    rcases along with rfl | rfl
    · rfl
    · rfl
  have covers : (pair :: others).length ≤ (first :: second :: later ++ rest).length := by
    rw [List.length_append]
    exact Nat.le_add_right_of_le spells.length_le
  rw [List.reverse_cons, List.append_assoc, List.cons_append, Read.train, run_bind_ok run_peek,
    if_pos known, run_bind_ok run_advance, run_bind_ok (StateT.run_get _)]
  dsimp only
  rw [if_pos (numeric_pair moves waits (direction :: behind) later rest),
    run_bind_ok (run_remaining _)]
  exact run_trainSteps spells ends covers (direction == "XT") _ _

end Readings

/-! ### The entries of a train -/

section Entries

variable {settings : PasteSettings} {cells : Cells} {source : String} {alongX : Bool}
  {x y first : Int}

/-- The entry of a paste and of its copies: behind some pairs of the train it has moved along its axis
by their distances, and is made once, later by their delays. -/
def copyBehind (settings : PasteSettings) (cells : Cells) (source : String) (alongX : Bool)
    (x y first : Int) (pairs : List (Int × Int)) : Entry where
  cells := cells
  x := if alongX then x + (pairs.map Prod.fst).sum else x
  y := if alongX then y else y + (pairs.map Prod.fst).sum
  trigger := .once (first + (pairs.map Prod.snd).sum)
  mode := settings.mode
  driftX := 0
  driftY := 0
  evolve := settings.evolve
  source := source

theorem listedEntry_nil :
    listedEntry settings first [] cells x y source
      = copyBehind settings cells source alongX x y first [] := by
  cases alongX <;> simp [listedEntry, copyBehind, Trigger.once, Trigger.runningSum]

/-- The copies behind a pair are those of a paste that is made where the pair leads to. -/
theorem copyBehind_cons (pair : Int × Int) (pairs : List (Int × Int)) :
    copyBehind settings cells source alongX (x + (trainStep alongX pair.1 pair.2).distanceX)
        (y + (trainStep alongX pair.1 pair.2).distanceY) (first + pair.2) pairs
      = copyBehind settings cells source alongX x y first (pair :: pairs) := by
  cases alongX <;> simp [copyBehind, trainStep, Int.add_assoc]

/-- There is an entry for each beginning of a train. -/
theorem trainEntries_eq (x y first : Int) (pairs : List (Int × Int)) :
    copyBehind settings cells source alongX x y first []
        :: (Draft.trainEntries settings cells source x y first (trainOf alongX pairs)).1
      = pairs.inits.map (copyBehind settings cells source alongX x y first) := by
  induction pairs generalizing x y first with
  | nil => rfl
  | cons pair pairs inductionHypothesis =>
      have moved := inductionHypothesis (x + (trainStep alongX pair.1 pair.2).distanceX)
        (y + (trainStep alongX pair.1 pair.2).distanceY) (first + pair.2)
      have made : (Draft.trainEntries settings cells source x y first
          (trainOf alongX (pair :: pairs))).1 = pairs.inits.map (copyBehind settings cells source
            alongX (x + (trainStep alongX pair.1 pair.2).distanceX)
            (y + (trainStep alongX pair.1 pair.2).distanceY) (first + pair.2)) := by
        rw [← moved]
        cases alongX <;> simp [Draft.trainEntries, trainOf, trainStep, copyBehind]
      rw [made, List.inits_cons, List.map_cons, List.map_map]
      exact congrArg (_ :: ·) (List.map_congr_left fun beginning _ => copyBehind_cons pair beginning)

theorem generationAfter_trainOf {pairs : List (Int × Int)} (forward : ∀ pair ∈ pairs, 0 ≤ pair.2) :
    generationAfter first (trainOf alongX pairs) = first + (pairs.map Prod.snd).sum := by
  have delays : ∀ pair : Int × Int, (trainStep alongX pair.1 pair.2).delay = pair.2 := by
    cases alongX <;> exact fun _ => rfl
  rw [(le_generationAfter first _).2, totalDelay, trainOf, List.map_map]
  · exact congrArg (first + List.sum ·) (List.map_congr_left fun pair _ => delays pair)
  · rw [trainOf, List.forall_mem_map]
    exact fun pair member => (delays pair).symm ▸ forward pair member

end Entries

/-! ### Pastes with a train -/

section Sessions

variable {context : Context α} {session : Session α} {args tokens rest : List String}
  {direction source : String} {pairs : List (Int × Int)} {cells : Cells} {x y first : Int}

/-- A paste with a train adds an entry for each beginning of the train, and the next paste is made
when the last of them is. -/
theorem Session.exists_addsPastes_train (lists : session.draft.pasting.Lists first [])
    (faces : session.Faces ("PASTE" :: (args ++ direction :: tokens)) rest)
    (accepted : PasteArguments session.draft (direction :: (tokens ++ rest)) args cells x y source)
    (along : direction = "XT" ∨ direction = "YT") (paired : pairs ≠ [])
    (spells : SpellsPairs α tokens pairs) (ends : EndsPairs α rest) :
    ∃ after, session.Performs context
        (.paste cells x y (trainOf (direction == "XT") pairs) source) rest after
      ∧ session.AddsPastes context (pairs.inits.map
        (copyBehind session.draft.pasting cells source (direction == "XT") x y first)) after
      ∧ after.draft.pasting.Lists (first + (pairs.map Prod.snd).sum) [] := by
  have made := nextEntry_listed lists (List.forall_mem_nil _) cells x y source
  obtain ⟨after, performs, adds, pasting⟩ := Session.exists_performs_paste faces accepted
    (fun _ => run_train paired spells ends along "PASTE") made
  rw [lists.generation, listedEntry_nil, trainEntries_eq] at adds
  refine ⟨after, performs, adds, ?_, ?_, ?_⟩
  · rw [pasting, lists.generation, generationAfter_trainOf spells.2]
  · rw [pasting, lists.gaps]
  · rw [pasting, lists.every]

/-- **A paste with a train**, at a time without gaps: there is an entry for it and one for each pair,
which differ only in where and when they are made. Each is made where the distances before it have
led, and once, at the generation that the delays before it have led to. The next paste is made at the
last of these generations. A number of up to `2 ^ 53` is written by its digits, and every paste that is
accepted has such arguments. -/
theorem Session.pastes_train [DecimalScalar α] (context : Context α) :
    (∀ count : Int, |count| ≤ 2 ^ 53 → StandsFor α (toString count) count)
      ∧ (∀ session rest cells x y train source, Session.Faces session ["PASTE"] rest →
        session.statement? context = some (.paste cells x y train source) →
        ∃ args others, rest = args ++ others
          ∧ PasteArguments session.draft others args cells x y source)
      ∧ ∀ session time first rest, Session.Faces session ["PASTET", time] rest →
        StandsFor α time first → 0 ≤ first → EndsGaps α (session.draft.recipes.lookup ·) rest →
        ∃ timed, session.Performs context (.pasteAt first []) rest timed
          ∧ ∀ between there args direction tokens rest pairs cells x y source,
            timed.CarriesOut context between there →
            (∀ statement ∈ between, statement.keepsTimes = true) →
            there.Faces ("PASTE" :: (args ++ direction :: tokens)) rest →
            PasteArguments there.draft (direction :: (tokens ++ rest)) args cells x y source →
            direction = "XT" ∨ direction = "YT" → pairs ≠ [] → SpellsPairs α tokens pairs →
            EndsPairs α rest →
            ∃ entries after, there.AddsPastes context entries after ∧ after.Faces [] rest
              ∧ entries.length = pairs.length + 1
              ∧ (∀ index, (within : index < entries.length) →
                entries[index] = copyBehind there.draft.pasting cells source (direction == "XT") x y
                  first (pairs.take index)
                ∧ ∀ generation, entries[index].trigger.fires generation = true
                  ↔ generation = first + ((pairs.take index).map Prod.snd).sum)
              ∧ ∀ others next cells x y train source, after.CarriesOut context others next →
                (∀ statement ∈ others, statement.keepsTimes = true) →
                next.statement? context = some (.paste cells x y train source) →
                ∃ entry copies final, next.AddsPastes context (entry :: copies) final
                  ∧ ∀ generation, entry.trigger.fires generation = true
                    ↔ generation = first + (pairs.map Prod.snd).sum := by
  refine ⟨fun count small => exists_readToken?_toString small,
    fun _ _ _ _ _ _ _ faces read => faces.exists_arguments read, ?_⟩
  intro session time first rest faces stands begins ends
  obtain ⟨timed, performs, lists⟩ :=
    Session.exists_performs_pasteAt faces stands begins .nil ends
  refine ⟨timed, performs, ?_⟩
  intro between there args direction tokens rest pairs cells x y source onward keeps faces accepted
    along paired spells ends
  obtain ⟨after, performs, adds, listsAfter⟩ := Session.exists_addsPastes_train
    (onward.lists keeps lists) faces accepted along paired spells ends
  refine ⟨_, after, adds, performs.faces, ?length, ?entries, ?next⟩
  case length =>
    rw [List.length_map, List.length_inits]
  case entries =>
    intro index within
    rw [List.getElem_map, List.getElem_inits]
    exact ⟨rfl, fun generation => Trigger.fires_listed_iff.trans List.mem_singleton⟩
  case next =>
    intro others next cells x y train source onward keeps read
    obtain ⟨copies, final, adds⟩ := Session.exists_addsPastes_listed
      (onward.lists keeps listsAfter) (List.forall_mem_nil _) read
    refine ⟨_, copies, final, adds, fun generation => listedEntry_fires_iff.trans ?_⟩
    simp

/-- A train that turns back, with one delay that is zero. -/
theorem Session.pastes_train_turningBack :
    let context : Context Float := ⟨.standard, .standard, .standard⟩
    let session := Session.start context "[[ PASTET 10 PASTE o! 1 2 XT 5 0 -3 4 PASTE o! ]]"
    ∃ timed entries after, session.Performs context (.pasteAt 10 [])
        ["PASTE", "o!", "1", "2", "XT", "5", "0", "-3", "4", "PASTE", "o!", "]]"] timed
      ∧ timed.AddsPastes context entries after ∧ after.Faces [] ["PASTE", "o!", "]]"]
      ∧ entries.map (fun entry => (entry.x, entry.y, entry.trigger))
        = [(1, 2, .once 10), (6, 2, .once 10), (3, 2, .once 14)] := by
  intro context session
  obtain ⟨numbers, -, train⟩ := Session.pastes_train context
  have faces : session.Faces ["PASTET", "10"]
      ["PASTE", "o!", "1", "2", "XT", "5", "0", "-3", "4", "PASTE", "o!", "]]"] :=
    ⟨rfl, by decide⟩
  have wordy : isNumeric Float "PASTE" = false := by decide
  obtain ⟨timed, performs, copies⟩ := train session "10" 10 _ faces (numbers 10 (by decide))
    (by decide) ⟨wordy, rfl⟩
  obtain ⟨reported, performed⟩ := performs.performed
  have fresh : timed.draft.snippets = [] :=
    (congrArg (fun outcome => outcome.draft.snippets) (Except.ok.inj performed)).symm
  have unnamed : (timed.draft.snippets.find? fun snippet => snippet.name == "o!") = none := by
    rw [fresh]
    rfl
  have decoded : RunLength.decode "o!".toList = .ok (some (Cells.ofRows [[1]])) := rfl
  have one : StandsFor Float "1" 1 := numbers 1 (by decide)
  have two : StandsFor Float "2" 2 := numbers 2 (by decide)
  have accepted : PasteArguments timed.draft ["XT", "5", "0", "-3", "4", "PASTE", "o!", "]]"]
      (["o!"] ++ (["1", "2"] ++ [])) (Symmetry.identity.apply (Cells.ofRows [[1]])) (1 + 0) (2 + 0)
      "o!" :=
    .intro (.text (by decide) (by decide) unnamed (joins_closed rfl _) decoded) (.both one two)
      (.none rfl)
  have back : StandsFor Float "-3" (-3) := by
    have digits : toString (-3 : Int) = "-3" := by decide
    exact digits ▸ numbers (-3) (by decide)
  have spells : SpellsPairs Float ["5", "0", "-3", "4"] [(5, 0), (-3, 4)] :=
    ⟨.cons (numbers 5 (by decide)) (.cons (numbers 0 (by decide)) (.cons back
      (.cons (numbers 4 (by decide)) .nil))), by decide⟩
  obtain ⟨entries, after, adds, onward, three, made, -⟩ := copies [] timed ["o!", "1", "2"] "XT"
    ["5", "0", "-3", "4"] ["PASTE", "o!", "]]"] [(5, 0), (-3, 4)] _ _ _ _ (.refl context _)
    (List.forall_mem_nil _) ⟨performs.faces.1, performs.faces.2⟩ accepted (.inl rfl) (by decide)
    spells (by rw [EndsPairs]; exact Bool.and_eq_false_iff.mpr (.inl wordy))
  refine ⟨timed, entries, after, performs, adds, onward, ?_⟩
  obtain ⟨first, second, third, rfl⟩ := List.length_eq_three.mp three
  have places : ∀ index, (within : index < 3) →
      [first, second, third][index] = copyBehind timed.draft.pasting _ _ true 1 2 10
        ([(5, 0), (-3, 4)].take index) :=
    fun index within => (made index within).1
  have atStart := places 0 (by decide)
  have atFirst := places 1 (by decide)
  have atSecond := places 2 (by decide)
  simp only [List.getElem_cons_zero, List.getElem_cons_succ] at atStart atFirst atSecond
  rw [atStart, atFirst, atSecond]
  rfl

end Sessions

end Showreel.Script
