import Showreel.Proofs.Paste.Firing
import Showreel.Proofs.Script.Growth
import Showreel.Proofs.Script.PasteArguments
import Showreel.Proofs.Script.Reading
import Showreel.Proofs.Script.Strays
import Showreel.Proofs.Script.Triggers

/-!
Contract: how a script goes on from one paste to the next.

Owns:
- the sessions that a run comes to, with the statements it carries out until then;
- the tokens before a session, and a statement that is read from them and carried out;
- the entries that a step adds to the pastes, which stay whatever is read later, and that a paste
  whose arguments are accepted adds them;
- the list of generations at which the next paste is made, and what keeps it.

Does not own: how the arguments of a paste are read.
-/

namespace Showreel.Script

open Number Paste

variable {α : Type} [Scalar α]

/-- A paste whose entry can be made is made, and its train moves the generation on. -/
theorem Draft.perform_paste {draft : Draft α} {cells : Pattern.Cells} {x y : Int} {source : String}
    {entry : Entry} (train : List TrainStep)
    (made : nextEntry draft.pasting cells x y source = .ok entry) :
    draft.perform (.paste cells x y train source) = .ok ⟨{ draft with
      pastes := draft.pastes.push entry ++ (trainEntries draft.pasting cells source x y
        draft.pasting.generation train).1.toArray
      pasting := { draft.pasting with
        generation := generationAfter draft.pasting.generation train } }, []⟩ := by
  obtain ⟨-, final⟩ :=
    trainEntries_spec draft.pasting cells source x y draft.pasting.generation train
  rw [perform, addPaste, made, ← final]
  rfl

namespace Session

variable {context : Context α} {session middle after : Session α}
  {statements more : List (Statement α)}

/-! ### Runs with their statements -/

/-- A run carries out some statements and comes to a session. -/
def CarriesOut (context : Context α) (session : Session α) (statements : List (Statement α))
    (after : Session α) : Prop :=
  ∃ steps, session.run context steps = .ok after ∧ session.statements context steps = statements

theorem statements_add (others : Nat) {fuel : Nat} (done : session.run context fuel = .ok after) :
    session.statements context (fuel + others)
      = session.statements context fuel ++ after.statements context others := by
  induction fuel generalizing session with
  | zero =>
      cases done
      rw [Nat.zero_add]
      rfl
  | succ fuel inductionHypothesis =>
      rw [run_succ] at done
      obtain ⟨next, stepped, done⟩ := bind_eq_ok done
      rw [Nat.succ_add, Session.statements, Session.statements, stepped]
      dsimp only
      rw [inductionHypothesis done, List.append_assoc]

namespace CarriesOut

theorem refl (context : Context α) (session : Session α) : session.CarriesOut context [] session :=
  ⟨0, rfl, rfl⟩

theorem of_step (stepped : session.step context = .ok after) :
    session.CarriesOut context (session.statement? context).toList after := by
  refine ⟨1, ?_, ?_⟩
  · rw [run_succ, stepped]
    rfl
  · rw [Session.statements, stepped]
    exact List.append_nil _

theorem trans (earlier : session.CarriesOut context statements middle)
    (later : middle.CarriesOut context more after) :
    session.CarriesOut context (statements ++ more) after := by
  obtain ⟨steps, ran, rfl⟩ := earlier
  obtain ⟨others, ranOn, rfl⟩ := later
  refine ⟨steps + others, ?_, statements_add others ran⟩
  rw [run_add, ran]
  exact ranOn

/-- What strings keep, and statements while they are added to those carried out, holds behind a
run. -/
theorem keeps (keeps : List (Statement α) → Draft α → Prop)
    (finishes : ∀ carried draft text, keeps carried draft →
      keeps carried (draft.finishString context.info text).1)
    (performs : ∀ carried draft statement outcome, keeps carried draft →
      draft.perform statement = .ok outcome → keeps (carried ++ [statement]) outcome.draft)
    (done : session.CarriesOut context statements after) {carried : List (Statement α)}
    (holds : keeps carried session.draft) : keeps (carried ++ statements) after.draft := by
  obtain ⟨steps, ran, rfl⟩ := done
  refine run_keeps_statements (fun carried session => keeps carried session.draft) ?_ holds ran
  intro carried session after holds stepped
  cases step_takes stepped with
  | kept new draft reported without =>
      rw [without, Option.toList_none, List.append_nil, draft]
      exact holds
  | joined text draft reported without =>
      rw [statement?_of_command?_eq_none without, Option.toList_none, List.append_nil, draft]
      exact finishes carried _ text holds
  | performed new given read makes sound performed draft reported =>
      rw [read, Option.toList_some, draft]
      exact performs carried _ _ _ holds performed

/-- What strings keep, and all statements that are carried out, holds behind a run. -/
theorem keeps_draft (keeps : Draft α → Prop) (allows : Statement α → Prop)
    (finishes : ∀ draft text, keeps draft → keeps (draft.finishString context.info text).1)
    (performs : ∀ draft statement outcome, keeps draft → allows statement →
      draft.perform statement = .ok outcome → keeps outcome.draft)
    (done : session.CarriesOut context statements after)
    (allowed : ∀ statement ∈ statements, allows statement) (holds : keeps session.draft) :
    keeps after.draft := by
  refine done.keeps (fun carried draft => (∀ statement ∈ carried, allows statement) → keeps draft)
    (fun _ draft text kept fine => finishes draft text (kept fine)) ?_ (fun _ => holds)
    (List.nil_append statements ▸ allowed)
  intro carried draft statement outcome kept performed fine
  rw [List.forall_mem_append, List.forall_mem_singleton] at fine
  exact performs draft statement outcome (kept fine.1) fine.2 performed

/-- Pastes that have been made are never changed. -/
theorem pastes (done : session.CarriesOut context statements after) :
    session.draft.pastes.toList <+: after.draft.pastes.toList := by
  obtain ⟨steps, ran, -⟩ := done
  exact (run_grows ran).items.pastes

section Documents

variable {text : String}

theorem sound (done : (start context text).CarriesOut context statements session) :
    SoundDraft context.settings.refreshRate session.draft := by
  obtain ⟨steps, ran, -⟩ := done
  exact run_sound (.start _) ran

/-- From every session of a document that can be read, reading goes on to the end. -/
theorem ends (done : (start context text).CarriesOut context statements session)
    {final : Session α} (read : readAll context text = .ok final) :
    ∃ others, session.CarriesOut context others final := by
  obtain ⟨steps, ran, -⟩ := done
  unfold readAll at read
  rw [run_fuel context (Nat.le_refl _) (Nat.le_add_left _ steps), run_add] at read
  obtain ⟨reached, same, onward⟩ := bind_eq_ok read
  cases ran.symm.trans same
  exact ⟨_, _, onward, rfl⟩

/-- The pastes of a session are in the timeline, run forward. -/
theorem timeline (done : (start context text).CarriesOut context statements session)
    {interpretation : Interpretation α} (interpreted : interpret context text = .ok interpretation) :
    session.draft.pastes.toList.map Entry.evolved <+: interpretation.timeline.pastes := by
  obtain ⟨final, read, finished⟩ := bind_eq_ok interpreted
  obtain ⟨others, onward⟩ := done.ends read
  rw [Draft.finish_pastes_evolved finished]
  exact onward.pastes.map Entry.evolved

end Documents

end CarriesOut

/-! ### Steps from given tokens -/

/-- The next tokens of a session, which are no part of a string. -/
structure Faces (session : Session α) (tokens rest : List String) : Prop where
  outside : session.openString = none
  ahead : session.reader.ahead = tokens ++ rest

/-- The next step reads a statement, carries it out, and stops in front of the rest. -/
structure Performs (context : Context α) (session : Session α) (statement : Statement α)
    (rest : List String) (after : Session α) : Prop where
  read : session.statement? context = some statement
  stepped : session.step context = .ok after
  faces : after.Faces [] rest
  performed : ∃ reported, session.draft.perform statement = .ok ⟨after.draft, reported⟩

theorem Performs.carriesOut {statement : Statement α} {rest : List String}
    (performs : session.Performs context statement rest after) :
    session.CarriesOut context [statement] after := by
  have step := CarriesOut.of_step performs.stepped
  rwa [performs.read] at step

section Faces

variable {word : String} {command : Command} {tokens rest : List String}

omit [Scalar α] in
theorem Faces.reader_eq (faces : session.Faces (word :: tokens) rest) :
    session.reader = ⟨session.reader.behind, word :: (tokens ++ rest)⟩ := by
  rw [← List.cons_append, ← faces.ahead]

omit [Scalar α] in
theorem Faces.command?_eq (faces : session.Faces (word :: tokens) rest)
    (plain : opensString word = false) (known : Command.ofWord? word = some command) :
    session.command? = some command := by
  rw [command?, faces.outside, faces.reader_eq]
  exact (if_neg (Bool.eq_false_iff.mp plain)).trans known

theorem performs_of_read {passed : List String} {statement : Statement α}
    {new : List Diagnostic} {outcome : Outcome α} (faces : session.Faces (word :: tokens) rest)
    (plain : opensString word = false) (known : Command.ofWord? word = some command)
    (read : (command.read session.draft context.settings.refreshRate word).run
      ⟨⟨word :: session.reader.behind, tokens ++ rest⟩, []⟩
        = .ok (some statement, ⟨⟨passed, rest⟩, new⟩))
    (performed : session.draft.perform statement = .ok outcome) :
    ∃ after, session.Performs context statement rest after ∧ after.draft = outcome.draft := by
  have here := faces.reader_eq
  have stepped := step_given context here faces.outside plain known read performed
  refine ⟨_, ⟨?_, stepped, ⟨faces.outside, rfl⟩, outcome.reported, performed⟩, rfl⟩
  have first : session.reader.peek = word := by rw [here]; rfl
  have onward : session.reader.advance
      = ⟨word :: session.reader.behind, tokens ++ rest⟩ := by rw [here]; rfl
  rw [statement?, faces.command?_eq plain known, Option.bind_some, first, onward]
  dsimp only
  rw [read]

/-- Every paste that is accepted has its arguments behind its word. -/
theorem Faces.exists_arguments {cells : Pattern.Cells} {x y : Int} {train : List TrainStep}
    {source : String} (faces : session.Faces ["PASTE"] rest)
    (read : session.statement? context = some (.paste cells x y train source)) :
    ∃ args others, rest = args ++ others
      ∧ PasteArguments session.draft others args cells x y source := by
  have given := faces.command?_eq (by decide)
    (by decide : Command.ofWord? "PASTE" = some .paste)
  have onward : session.reader.advance = ⟨"PASTE" :: session.reader.behind, rest⟩ := by
    rw [faces.reader_eq]
    rfl
  rw [statement?, given, Option.bind_some, onward] at read
  dsimp only at read
  split at read
  · rename_i result scan done
    subst read
    obtain ⟨args, others, _, _, _, _, _, rfl, accepted, -, same⟩ := Script.exists_arguments done
    cases same
    exact ⟨args, others, rfl, accepted⟩
  · cases read

end Faces

theorem step_of_statement? {statement : Statement α} {outcome : Outcome α}
    (read : session.statement? context = some statement)
    (performed : session.draft.perform statement = .ok outcome) :
    ∃ after, session.step context = .ok after ∧ after.draft = outcome.draft := by
  obtain ⟨command, given, reading⟩ := Option.bind_eq_some_iff.mp read
  dsimp only at reading
  split at reading
  · rename_i result scan done
    subst reading
    rw [step_of_command? given, done]
    change ∃ after, (session.draft.perform statement).map _ = .ok after ∧ _
    rw [performed]
    exact ⟨_, rfl, rfl⟩
  · cases reading

/-! ### Pastes -/

/-- The next step adds some entries to the pastes, and they stay whatever is read later. -/
structure AddsPastes (context : Context α) (session : Session α) (entries : List Entry)
    (after : Session α) : Prop where
  stepped : session.step context = .ok after
  added : after.draft.pastes.toList = session.draft.pastes.toList ++ entries
  stay : ∀ statements later, after.CarriesOut context statements later →
    session.draft.pastes.toList ++ entries <+: later.draft.pastes.toList

variable {cells : Pattern.Cells} {x y : Int} {train : List TrainStep} {source : String}

/-- A paste adds its own entry and one for each step of its train. -/
theorem exists_addsPastes
    (read : session.statement? context = some (.paste cells x y train source)) {entry : Entry}
    (made : Draft.nextEntry session.draft.pasting cells x y source = .ok entry) :
    ∃ after, session.AddsPastes context (entry :: (Draft.trainEntries session.draft.pasting cells
        source x y session.draft.pasting.generation train).1) after
      ∧ after.draft.pasting = { session.draft.pasting with
        generation := generationAfter session.draft.pasting.generation train } := by
  obtain ⟨after, stepped, draft⟩ := step_of_statement? read (Draft.perform_paste train made)
  have added : after.draft.pastes.toList = session.draft.pastes.toList
      ++ entry :: (Draft.trainEntries session.draft.pasting cells source x y
        session.draft.pasting.generation train).1 := by
    rw [draft]
    simp
  exact ⟨after, ⟨stepped, added, fun statements later onward => added ▸ onward.pastes⟩, draft ▸ rfl⟩

/-- A paste whose arguments are accepted is made with the train that is read behind them. -/
theorem exists_performs_paste {args moving rest : List String}
    (faces : session.Faces ("PASTE" :: (args ++ moving)) rest)
    (accepted : PasteArguments session.draft (moving ++ rest) args cells x y source)
    (moves : ∀ behind, (Read.train α "PASTE").run ⟨⟨behind, moving ++ rest⟩, []⟩
      = .ok (train, ⟨⟨moving.reverse ++ behind, rest⟩, []⟩)) {entry : Entry}
    (made : Draft.nextEntry session.draft.pasting cells x y source = .ok entry) :
    ∃ after, session.Performs context (.paste cells x y train source) rest after
      ∧ session.AddsPastes context (entry :: (Draft.trainEntries session.draft.pasting cells
        source x y session.draft.pasting.generation train).1) after
      ∧ after.draft.pasting = { session.draft.pasting with
        generation := generationAfter session.draft.pasting.generation train } := by
  have read : (Command.paste.read session.draft context.settings.refreshRate "PASTE").run
      ⟨⟨"PASTE" :: session.reader.behind, args ++ moving ++ rest⟩, []⟩
      = .ok (some (.paste cells x y train source),
        ⟨⟨moving.reverse ++ (args.reverse ++ "PASTE" :: session.reader.behind), rest⟩, []⟩) := by
    rw [List.append_assoc]
    refine (run_paste accepted "PASTE" _ _).trans ?_
    rw [run_bind_ok (moves _)]
    rfl
  obtain ⟨after, performs, -⟩ := performs_of_read faces (by decide)
    (by decide : Command.ofWord? "PASTE" = some .paste) read (Draft.perform_paste train made)
  obtain ⟨_, adds, pasting⟩ := exists_addsPastes performs.read made
  cases performs.stepped.symm.trans adds.stepped
  exact ⟨after, performs, adds, pasting⟩

end Session

/-! ### Lists of generations -/

/-- The next paste is made at a first generation, and behind each of some gaps. -/
structure PasteSettings.Lists (settings : PasteSettings) (first : Int) (gaps : List Int) : Prop where
  generation : settings.generation = first
  gaps : settings.gaps = gaps
  every : settings.every = 0

/-- Whether a statement leaves it to the next paste when it is made: it gives no new time, and moves
no time on by a train. -/
def Statement.keepsTimes : Statement α → Bool
  | .pasteAt .. | .pasteEvery .. => false
  | .paste _ _ _ train _ => train.isEmpty
  | _ => true

section Lists

variable {settings : PasteSettings} {first : Int} {gaps : List Int} {draft : Draft α}

theorem Draft.perform_lists {statement : Statement α} {outcome : Outcome α}
    (lists : draft.pasting.Lists first gaps) (keeps : statement.keepsTimes = true)
    (done : draft.perform statement = .ok outcome) : outcome.draft.pasting.Lists first gaps := by
  cases about : statement.isAboutPastes with
  | false => exact (SamePastes.perform about done).2 ▸ lists
  | true =>
      cases statement with
      | paste cells x y train source =>
          obtain rfl := List.isEmpty_iff.mp keeps
          obtain ⟨⟨entry, copies, -, same⟩, -⟩ := PastedWith.of_perform done
          rw [same]
          exact lists
      | pasteAt _ _ | pasteEvery _ _ _ => cases keeps
      | pasteDrift _ _ | pasteMode _ | pasteEvolve _ =>
          cases done
          exact ⟨lists.generation, lists.gaps, lists.every⟩
      | _ => cases about

theorem Session.CarriesOut.lists {context : Context α} {session after : Session α}
    {statements : List (Statement α)} (done : session.CarriesOut context statements after)
    (keeps : ∀ statement ∈ statements, statement.keepsTimes = true)
    (lists : session.draft.pasting.Lists first gaps) : after.draft.pasting.Lists first gaps := by
  refine done.keeps_draft (fun draft => draft.pasting.Lists first gaps)
    (fun statement => statement.keepsTimes = true) ?_ ?_ keeps lists
  · intro draft text lists
    exact (Draft.SameStock.finishString draft context.info text).pasting ▸ lists
  · exact fun draft statement outcome lists kept done => draft.perform_lists lists kept done

/-- The entry of a paste that is made at a list of generations. -/
def listedEntry (settings : PasteSettings) (first : Int) (gaps : List Int) (cells : Pattern.Cells)
    (x y : Int) (source : String) : Entry where
  cells := cells
  x := x
  y := y
  trigger := ⟨(List.range (gaps.length + 1)).map (Trigger.runningSum first gaps), 0, 0, -1⟩
  mode := settings.mode
  driftX := 0
  driftY := 0
  evolve := settings.evolve
  source := source

theorem nextEntry_listed (lists : settings.Lists first gaps) (forward : ∀ gap ∈ gaps, 0 ≤ gap)
    (cells : Pattern.Cells) (x y : Int) (source : String) :
    Draft.nextEntry settings cells x y source
      = .ok (listedEntry settings first gaps cells x y source) := by
  rw [Draft.nextEntry, Draft.nextTrigger, lists.every, lists.generation, lists.gaps,
    if_neg (Int.lt_irrefl 0), Trigger.at?_nonnegative forward]
  rfl

/-- The entry fires at the running sums of the gaps. -/
theorem listedEntry_fires_iff {cells : Pattern.Cells} {x y : Int} {source : String}
    {generation : Int} :
    (listedEntry settings first gaps cells x y source).trigger.fires generation = true
      ↔ ∃ count ≤ gaps.length, generation = first + (gaps.take count).sum :=
  Trigger.fires_listed_iff.trans Trigger.mem_runningSums

variable {context : Context α} {session after : Session α} {cells : Pattern.Cells} {x y : Int}
  {train : List TrainStep} {source : String}

/-- A paste whose time is a list makes its entry at that list. -/
theorem Session.exists_addsPastes_listed (lists : session.draft.pasting.Lists first gaps)
    (forward : ∀ gap ∈ gaps, 0 ≤ gap)
    (read : session.statement? context = some (.paste cells x y train source)) :
    ∃ copies after, session.AddsPastes context
      (listedEntry session.draft.pasting first gaps cells x y source :: copies) after := by
  obtain ⟨after, adds, -⟩ := exists_addsPastes read (nextEntry_listed lists forward cells x y source)
  exact ⟨_, after, adds⟩

/-- The entry of a paste is in the timeline, behind those made before, run forward. -/
theorem Session.AddsPastes.timeline {text : String} {statements : List (Statement α)}
    {entry : Entry} {copies : List Entry}
    (adds : session.AddsPastes context (entry :: copies) after)
    (done : (start context text).CarriesOut context statements session)
    {interpretation : Interpretation α} (interpreted : interpret context text = .ok interpretation) :
    interpretation.timeline.pastes[session.draft.pastes.size]? = some entry.evolved := by
  have within := (done.trans (.of_step adds.stepped)).timeline interpreted
  rw [adds.added, List.map_append, List.map_cons] at within
  obtain ⟨others, whole⟩ := within
  rw [← whole, List.append_assoc, List.cons_append, ← Array.length_toList,
    ← List.length_map Entry.evolved, List.getElem?_append_right (Nat.le_refl _), Nat.sub_self]
  rfl

end Lists

end Showreel.Script
