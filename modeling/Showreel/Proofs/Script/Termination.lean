import Showreel.Proofs.Script.Loops
import Showreel.Proofs.Script.Recipes

/-!
Contract: reading ends, whatever the script.

Owns:
- the rounds of the main loop, each of which takes a token and counts a command at most;
- that the reading of every command leaves the reader further on;
- that no list of gaps is named by the empty token, which is seen at the end;
- that the main loop and the loops of arguments have at most as many rounds as there are tokens, and
  that no more commands are counted.

Does not own: what is read.
-/

namespace Showreel.Script

open Number Scalar Pattern.Document Reading

variable {α : Type} [Scalar α] {context : Context α}

/-! ### The rounds of the main loop -/

namespace Session

variable {session after next : Session α}

/-- Take the next token, or end where none is left. -/
def round (context : Context α) (session : Session α) : Except Fault (Session α ⊕ Session α) :=
  match session.reader.ahead with
  | [] => .ok (.inr session)
  | _ :: _ => (session.step context).map .inl

theorem run_rounds (fuel : Nat) (session : Session α) :
    session.run context (fuel + 1)
      = session.round context >>= Sum.elim (run context fuel) .ok := by
  cases ahead : session.reader.ahead with
  | nil =>
      rw [run_nil context ahead, round, ahead]
      rfl
  | cons token rest =>
      rw [run_succ, round, ahead]
      cases session.step context <;> rfl

/-- Some tokens are read, and one command is counted at most. -/
structure Onward (before after : Session α) : Prop where
  reads : before.reader.ReadsOn after.reader
  counts : before.commands ≤ after.commands
  one : after.commands ≤ before.commands + 1

theorem dispatch_onward {word : String} (done : session.dispatch context word = .ok after) :
    session.Onward after := by
  cases known : Command.ofWord? word with
  | none =>
      rw [dispatch, known] at done
      cases done
      exact ⟨.refl _, Nat.le_succ _, Nat.le_refl _⟩
  | some command =>
      rw [dispatch_eq context session known] at done
      obtain ⟨⟨statement, scan⟩, read, done⟩ := bind_eq_ok done
      have reads := (Stepwise.every session.draft _ word command).readsOn _ _ _ read
      have onward : session.Onward (session.afterReading command scan) := by
        refine ⟨reads, ?_, ?_⟩ <;>
        · rw [afterReading]
          dsimp only
          split <;> omega
      obtain ⟨-, rfl⟩ | ⟨given, outcome, -, -, rfl⟩ := perform_ok done
      · exact onward
      · exact ⟨onward.reads, onward.counts, onward.one⟩

theorem take_onward {token : String} (done : session.take context token = .ok after) :
    session.Onward after := by
  have still : session.Onward session := ⟨.refl _, Nat.le_refl _, Nat.le_succ _⟩
  unfold take at done
  dsimp only at done
  split at done
  · split at done
    · cases done
      exact ⟨still.reads, still.counts, still.one⟩
    · cases done
      exact ⟨still.reads, still.counts, still.one⟩
  · split at done
    · split at done
      · cases done
        exact ⟨still.reads, still.counts, still.one⟩
      · cases done
        exact ⟨still.reads, still.counts, still.one⟩
    · exact dispatch_onward done

/-- **A round that goes on takes a token**, and counts a command at most. -/
theorem round_goesOn (goesOn : session.round context = .ok (.inl next)) :
    session.reader.Consumes next.reader ∧ session.commands ≤ next.commands
      ∧ next.commands ≤ session.commands + 1 := by
  obtain ⟨⟨behind, ahead⟩, draft, reported, commands, openString⟩ := session
  cases ahead with
  | nil => cases goesOn
  | cons token ahead =>
      obtain ⟨after, stepped, same⟩ := map_eq_ok goesOn
      cases same
      have onward := take_onward stepped
      exact ⟨(Reader.consumes_cons behind ahead token).andReadsOn onward.reads, onward.counts,
        onward.one⟩

/-- The last round is the one without tokens. -/
theorem round_exits (exits : session.round context = .ok (.inr after)) :
    after = session ∧ after.reader.exhausted = true := by
  unfold round at exits
  split at exits
  · rename_i ended
    cases exits
    refine ⟨rfl, ?_⟩
    rw [Reader.exhausted, ended]
    rfl
  · obtain ⟨_, -, same⟩ := map_eq_ok exits
    cases same

/-- The run of a session is the loop of its rounds. -/
theorem run_isLoop (session : Session α) : ∃ count ≤ session.reader.ahead.length,
    Loops (round context) count session (session.run context session.reader.ahead.length) := by
  refine exists_loops (run context) (fun session => session.reader.ahead.length) run_rounds ?_ ?_
    session (Nat.le_refl _)
  · intro session ended
    have ended := List.eq_nil_of_length_eq_zero ended
    rw [run_nil context ended, run_nil context ended]
  · intro session next goesOn
    exact (round_goesOn goesOn).1.ahead_lt

/-- The session before the first token reads on from the start of the tokens. -/
theorem start_readsOn (context : Context α) (text : String) :
    (Reader.ofText (scriptSource text)).ReadsOn (start context text).reader := by
  have found {behind ahead : List String} {next : Reader}
      (search : Reader.search startMarkers.contains behind ahead = some next) :
      (⟨behind, ahead⟩ : Reader).ReadsOn next :=
    Scan.readsOn_of_steps (Stepwise.search search [])
  have finished : (Reader.ofText (scriptSource text)).ReadsOn
      (Reader.ofText (scriptSource text)).finish :=
    Scan.readsOn_of_steps (Stepwise.finish [] (tokens (scriptSource text)) [])
  unfold start
  dsimp only
  split
  · rename_i search
    exact found search
  · split
    · exact .refl _
    · exact finished

/-- At least as many tokens of a document have been read as commands were counted. -/
structure Counted (document : Reader) (session : Session α) : Prop where
  reads : document.ReadsOn session.reader
  counts : session.commands ≤ session.reader.position

theorem Counted.step {document : Reader} (counted : session.Counted document)
    (stepped : session.step context = .ok next) : next.Counted document := by
  cases ahead : session.reader.ahead with
  | nil =>
      rw [Session.step, ahead] at stepped
      cases stepped
      exact counted
  | cons token rest =>
      have goesOn : session.round context = .ok (.inl next) := by
        rw [round, ahead, stepped]
        rfl
      obtain ⟨consumes, -, one⟩ := round_goesOn goesOn
      have onward := consumes.onward
      have counts := counted.counts
      exact ⟨counted.reads.trans consumes.readsOn, by omega⟩

theorem readAll_counted {text : String} (done : readAll context text = .ok session) :
    session.Counted (Reader.ofText (scriptSource text)) :=
  run_keeps context (fun _ _ counted stepped => counted.step stepped)
    ⟨start_readsOn context text, Nat.zero_le _⟩ done

omit [Scalar α] in
/-- No more commands are counted than there are tokens. -/
theorem Counted.le_tokens {source : String} (counted : session.Counted (Reader.ofText source)) :
    session.commands ≤ (tokens source).length := by
  have within := counted.reads.within
  have counts := counted.counts
  have tokens : (Reader.ofText source).length = (tokens source).length := Nat.zero_add _
  omega

end Session

theorem Draft.finish_commands {draft : Draft α} {reported : List Diagnostic} {commands : Nat}
    {settings : ViewerSettings α} {camera : Camera α} {interpretation : Interpretation α}
    (done : draft.finish reported commands settings camera = .ok interpretation) :
    interpretation.timeline.commands = commands := by
  unfold Draft.finish at done
  dsimp only at done
  obtain ⟨_, -, done⟩ := bind_eq_ok done
  obtain ⟨_, -, done⟩ := bind_eq_ok done
  obtain ⟨_, -, done⟩ := bind_eq_ok done
  obtain ⟨_, -, done⟩ := bind_eq_ok done
  obtain ⟨_, -, done⟩ := bind_eq_ok done
  obtain ⟨_, -, done⟩ := bind_eq_ok done
  obtain ⟨⟨⟩, -, done⟩ := bind_eq_ok done
  cases done
  rfl

/-! ### Names of lists -/

/-- A list of gaps is not named by the empty token. -/
def Statement.Named : Statement α → Prop
  | .defineRecipe name _ _ => name ≠ ""
  | _ => True

theorem Yields.freshName (source : String) : Offers (· ≠ "") (Reading.freshName α source) := by
  refine .bind fun name => .branchOn (fun _ => .refuse _ _) fun fine => ?_
  have visible : name ≠ "" := by
    rintro rfl
    exact fine rfl
  exact .bind fun _ => .branch (.refuse _ _) (.some visible)

/-- **Every command is read as a statement that names no list by the empty token**, or as none. -/
theorem readsNamed (draft : Draft α) (refreshRate : Int) (word : String) (command : Command) :
    Offers Statement.Named (command.read draft refreshRate word) := by
  by_cases names : command = .recipe
  · subst names
    refine .andThen (.freshName word) fun name visible => ?_
    cases name with
    | none => exact .none
    | some name => exact .bind fun gaps => .map fun given _ => visible name rfl
  · -- no other command names a list
    intro scan result after done statement given
    have made := Reads.every draft refreshRate word command scan result after done statement given
    cases made with
    | recipe => exact absurd rfl names
    | _ => trivial

/-- No list is found under the empty token, which is seen at the end. -/
theorem Session.CarriesOut.unnamed {text : String} {carried : List (Statement α)}
    {session : Session α} (done : (start context text).CarriesOut context carried session) :
    session.draft.recipes.lookup "" = none := by
  have named : ∀ statement ∈ carried, statement.Named := by
    obtain ⟨steps, -, rfl⟩ := done
    exact statements_vouched (fun session => readsNamed session.draft _ _) steps _
  refine done.keeps_draft (fun draft => draft.recipes.lookup "" = none) Statement.Named ?_ ?_ named
    rfl
  · intro draft text unnamed
    rw [(Draft.SameStock.finishString draft context.info text).recipes]
    exact unnamed
  · intro draft statement outcome unnamed named performed
    rw [congrFun (Draft.perform_recipes performed) ""]
    cases statement with
    | defineRecipe name gaps source =>
        have other : "" ≠ name := Ne.symm named
        rw [namedBehind, Function.update_of_ne other]
        exact unnamed
    | _ => exact unnamed

/-! ### The end of reading -/

/-- The readings of any length are loops: run-length text, gaps with and without names, the corners
of a polygon, and the pairs of a train. -/
structure ArgumentLoops (α : Type) [Scalar α] (recipes : List (String × List Int)) : Prop where
  runText : ∀ text, IsLoop (joinRound α) text (runText α text)
  gaps : ∀ source, IsLoop (gapRound α []) ([], source) (allGaps α [] source)
  named : ∀ source, IsLoop (gapRound α recipes) ([], source) (allGaps α recipes source)
  corners : ∀ word gridSize, IsLoop (cornerRound word gridSize) ([], (none : Option α))
    (remaining >>= fun fuel => Read.corners word gridSize fuel none)
  train : ∀ alongX source, IsLoop (trainRound α alongX source) []
    (remaining >>= Read.trainSteps α alongX source)

theorem argumentLoops {recipes : List (String × List Int)} (unnamed : recipes.lookup "" = none) :
    ArgumentLoops α recipes where
  runText := runText_isLoop α
  gaps := allGaps_isLoop α rfl
  named := allGaps_isLoop α unnamed
  corners := corners_isLoop
  train := trainSteps_isLoop α

/-- **Reading ends.** The reading of a document is a loop that takes a token in every round but the
last one, and so has at most as many rounds as there are tokens. Each round counts a command at
most, and no more commands are counted than there are tokens. The reading of a command never steps
back and never passes the last token, and in every session of the document the arguments of any
length are read in loops that take a token in every round but the last one. -/
theorem readAll_ends (context : Context α) (text : String) :
    (∃ count ≤ (tokens (scriptSource text)).length,
        Loops (Session.round context) count (Session.start context text) (readAll context text))
      ∧ (∀ session next : Session α, session.round context = .ok (.inl next) →
        session.reader.Consumes next.reader ∧ session.commands ≤ next.commands
          ∧ next.commands ≤ session.commands + 1)
      ∧ (∀ session, readAll context text = .ok session →
        session.reader.exhausted = true ∧ session.commands ≤ (tokens (scriptSource text)).length)
      ∧ (∀ interpretation, interpret context text = .ok interpretation →
        interpretation.timeline.commands ≤ (tokens (scriptSource text)).length)
      ∧ (∀ (draft : Draft α) refreshRate word (command : Command) scan,
        Ensures (command.read draft refreshRate word) scan fun _ after =>
          scan.reader.ReadsOn after.reader)
      ∧ ∀ carried session, (Session.start context text).CarriesOut context carried session →
        ArgumentLoops α session.draft.recipes := by
  obtain ⟨count, few, loops⟩ : ∃ count ≤ (Session.start context text).reader.ahead.length,
      Loops (Session.round context) count (Session.start context text) (readAll context text) :=
    Session.run_isLoop _
  have ends (session : Session α) (read : readAll context text = .ok session) :
      session.reader.exhausted = true := by
    rw [read] at loops
    obtain ⟨last, exits⟩ := loops.exists_last
    exact (Session.round_exits exits).2
  have counts (session : Session α) (read : readAll context text = .ok session) :
      session.commands ≤ (tokens (scriptSource text)).length :=
    (Session.readAll_counted read).le_tokens
  refine ⟨⟨count, few.trans (start_within context text).length_le, loops⟩,
    fun _ _ => Session.round_goesOn, fun session read => ⟨ends session read, counts session read⟩,
    ?_, ?_, ?_⟩
  · intro interpretation interpreted
    obtain ⟨session, read, finished⟩ := bind_eq_ok interpreted
    rw [Draft.finish_commands finished]
    exact counts session read
  · exact fun draft refreshRate word command =>
      (Stepwise.every draft refreshRate word command).readsOn
  · exact fun carried session reached => argumentLoops reached.unnamed

/-- Two blocks with text between them, and arguments of any length: a recipe that is spliced in,
the pairs of a train and the corners of a polygon, and a paste without its text at the end. -/
theorem readAll_ends_twoBlocks :
    let context : Context Float := ⟨.standard, .standard, .standard⟩
    let text := "[[ RECIPE hop 5 10 PASTET 20 hop PASTE o! 0 0 XT 5 3 5 3 ENDSCRIPT later "
      ++ "SCRIPT POLYLINE 0 0 4 4 2 oops PASTE"
    ∃ session interpretation, readAll context text = .ok session
      ∧ interpret context text = .ok interpretation
      ∧ (tokens (scriptSource text)).length = 28 ∧ session.commands = 6
      ∧ session.reader.exhausted = true ∧ interpretation.timeline.commands ≤ 28
      ∧ (∃ count ≤ 28, Loops (Session.round context) count (Session.start context text)
        (.ok session))
      ∧ (∃ next, (Session.start context text).round context = .ok (.inl next)
        ∧ (Session.start context text).reader.Consumes next.reader)
      ∧ session.draft.recipes.lookup "hop" = some [5, 10]
      ∧ IsLoop (gapRound Float session.draft.recipes) ([], "PASTET 20")
        (allGaps Float session.draft.recipes "PASTET 20") := by
  intro context text
  have length : (tokens (scriptSource text)).length = 28 := by decide +kernel
  have checked : (interpret context text).toOption.any (fun _ => true) = true := by decide +kernel
  have counted : (readAll context text).toOption.any (fun session =>
      session.commands == 6 && session.draft.recipes.lookup "hop" == some [5, 10]) = true := by
    decide +kernel
  have begun : ((Session.start context text).round context).toOption.any Sum.isLeft = true := by
    decide +kernel
  obtain ⟨interpretation, interpreted, -⟩ := exists_interpretation checked
  obtain ⟨session, read, found⟩ := exists_of_toOption_any counted
  obtain ⟨six, named⟩ := Bool.and_eq_true_iff.mp found
  obtain ⟨result, round, goesOn⟩ := exists_of_toOption_any begun
  obtain ⟨next, rfl⟩ := Sum.isLeft_iff.mp goesOn
  obtain ⟨loops, rounds, ends, commands, -, arguments⟩ := readAll_ends context text
  rw [length, read] at loops
  exact ⟨session, interpretation, read, interpreted, length, beq_iff_eq.mp six,
    (ends session read).1, length ▸ commands interpretation interpreted, loops,
    ⟨next, round, (rounds _ _ round).1⟩, beq_iff_eq.mp named,
    (arguments _ session ⟨_, read, rfl⟩).named _⟩

end Showreel.Script
