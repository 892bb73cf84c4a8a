import Showreel.Proofs.Script.Meaning
import Showreel.Proofs.Script.Session

/-!
Contract: what the steps of a session take up, and the statements that a run carries out.

Owns:
- what holds of each item of a list with all that stands before it;
- the command and the statement that a session has before it;
- the outcomes of a step, with what is reported;
- the statements of a run, and the rule by which a law about them goes from step to step.

Does not own: what statements do to a draft.
-/

namespace Showreel.Script

open Number Waypoint

section Histories

variable {β : Type} {holds : List β → β → Prop}

theorem forall_prefix_nil :
    ∀ before item, before ++ [item] <+: [] → holds before item := by
  intro before item within
  exact absurd (List.prefix_nil.mp within) (List.concat_ne_nil _ _)

/-- What holds of each item with all that stands before it, and of one item more. -/
theorem forall_prefix_concat_iff {items : List β} {last : β} :
    (∀ before item, before ++ [item] <+: items ++ [last] → holds before item)
      ↔ (∀ before item, before ++ [item] <+: items → holds before item) ∧ holds items last := by
  constructor
  · intro all
    refine ⟨fun before item within => all before item ?_, all items last (List.prefix_refl _)⟩
    exact within.trans (List.prefix_append _ _)
  · rintro ⟨earlier, atLast⟩ before item within
    rcases List.prefix_concat_iff.mp within with whole | within
    · obtain ⟨rfl, same⟩ := List.append_inj' whole rfl
      exact List.singleton_inj.mp same ▸ atLast
    · exact earlier before item within

end Histories

namespace Session

variable {α : Type} [Scalar α]

/-- The command that the next token stands for, unless the token belongs to a string. -/
def command? (session : Session α) : Option Command :=
  match session.openString, session.reader.ahead with
  | none, token :: _ => if token.toList.head? == some '\x22' then none else Command.ofWord? token
  | _, _ => none

variable (context : Context α)

/-- The statement that the next command is read as, if its arguments are accepted. -/
def statement? (session : Session α) : Option (Statement α) :=
  session.command?.bind fun command =>
    let reading := command.read session.draft context.settings.refreshRate session.reader.peek
    match reading.run ⟨session.reader.advance, []⟩ with
    | .ok (statement, _) => statement
    | .error _ => none

/-- The statements that a run carries out, in order. -/
def statements : Nat → Session α → List (Statement α)
  | 0, _ => []
  | fuel + 1, session =>
      match session.step context with
      | .ok next => (session.statement? context).toList ++ statements fuel next
      | .error _ => []

/-! ### Steps -/

/-- What a step takes up: it reports at most, or finishes a string, or carries out a statement of
the command before it. -/
inductive Takes (session : Session α) : Session α → Prop
  | kept {after : Session α} (new : List Diagnostic) (draft : after.draft = session.draft)
      (reported : after.reported = session.reported ++ new.toArray)
      (without : session.statement? context = none) : Takes session after
  | joined {after : Session α} (text : String)
      (draft : after.draft = (session.draft.finishString context.info text).1)
      (reported : after.reported
        = session.reported ++ (session.draft.finishString context.info text).2.toArray)
      (without : session.command? = none) : Takes session after
  | performed {after : Session α} {command : Command} {statement : Statement α}
      {outcome : Outcome α} (new : List Diagnostic) (given : session.command? = some command)
      (read : session.statement? context = some statement) (makes : command.Makes statement)
      (sound : statement.Sound session.draft context.settings.refreshRate)
      (done : session.draft.perform statement = .ok outcome) (draft : after.draft = outcome.draft)
      (reported : after.reported = session.reported ++ new.toArray) : Takes session after

variable {context}

theorem statement?_of_command?_eq_none {session : Session α} (without : session.command? = none) :
    session.statement? context = none := by
  rw [statement?, without]
  rfl

/-- A step with a command before it reads the arguments and carries out what they come to. -/
theorem step_of_command? {session : Session α} {command : Command}
    (given : session.command? = some command) :
    session.step context
      = (command.read session.draft context.settings.refreshRate session.reader.peek).run
          ⟨session.reader.advance, []⟩
        >>= fun (statement, scan) => (session.afterReading command scan).perform statement := by
  rcases session with ⟨reader, draft, reported, commands, openString⟩
  unfold command? at given
  split at given
  · rename_i token rest outside ahead
    cases outside
    split at given
    · cases given
    · rename_i plain
      have peeked : reader.peek = token := by
        rw [Reader.peek, show reader.ahead = token :: rest from ahead]
        rfl
      rw [step, ahead, peeked]
      dsimp only
      rw [take]
      dsimp only
      rw [if_neg plain]
      exact dispatch_eq context _ given
  · cases given

/-- What a command admits holds of a statement that is read. -/
theorem admitted_of_read (session : Session α) {command : Command} {word : String}
    {statement : Statement α} {scan : Scan}
    (read : (command.read session.draft context.settings.refreshRate word).run ⟨session.reader, []⟩
      = .ok (some statement, scan)) :
    command.Admits (session.ownOutlook context) (some statement) scan.reported := by
  by_cases inside : command = .scriptEnd
  · subst inside
    have made := Reads.every session.draft context.settings.refreshRate word .scriptEnd _ _ _ read
      statement rfl
    cases made
  · have meets : Meets (session.ownOutlook context) Anywhere
        (command.read session.draft context.settings.refreshRate word)
        (command.Admits (session.ownOutlook context)) := Meets.command command word inside
    have agree := meets ⟨session.reader, []⟩ ⟨session.reader, []⟩ rfl (List.suffix_refl _) trivial
    rw [read] at agree
    cases agree with
    | given _ _ reported _ admitted => exact reported ▸ admitted

/-- A statement that is read is sound. -/
theorem sound_of_read (session : Session α) {command : Command} {word : String}
    {statement : Statement α} {scan : Scan}
    (read : (command.read session.draft context.settings.refreshRate word).run ⟨session.reader, []⟩
      = .ok (some statement, scan)) :
    statement.Sound session.draft context.settings.refreshRate :=
  (admitted_of_read session read statement rfl).2

/-- What the reading of every command vouches for holds of a statement that is read. -/
theorem vouched_of_read {session : Session α} {good : Statement α → Prop}
    (vouched : ∀ command : Command, Offers good
      (command.read session.draft context.settings.refreshRate session.reader.peek))
    {statement : Statement α} (read : session.statement? context = some statement) :
    good statement := by
  obtain ⟨command, -, reading⟩ := Option.bind_eq_some_iff.mp read
  dsimp only at reading
  split at reading
  · rename_i result scan done
    exact vouched command _ _ _ done statement reading
  · cases reading

/-- A command is dispatched with its reading and what the statement does. -/
theorem dispatch_takes {session after : Session α} {token : String} {rest : List String}
    (ahead : session.reader.ahead = token :: rest)
    (command : session.command? = Command.ofWord? token)
    (done : { session with reader := session.reader.advance }.dispatch context token = .ok after) :
    session.Takes context after := by
  have word : session.reader.peek = token := by simp [Reader.peek, ahead]
  cases known : Command.ofWord? token with
  | none =>
      rw [dispatch, known] at done
      cases done
      refine .kept [⟨token, .unknownCommand⟩] rfl (by simp) ?_
      exact statement?_of_command?_eq_none (command.trans known)
  | some found =>
      have given : session.command? = some found := command.trans known
      rw [dispatch_eq context _ known] at done
      obtain ⟨⟨statement, scan⟩, read, done⟩ := bind_eq_ok done
      have statement?_eq : session.statement? context = statement := by
        simp only [statement?, given, Option.bind_some, word]
        rw [read]
      cases statement with
      | none =>
          cases done
          exact .kept scan.reported rfl rfl statement?_eq
      | some statement =>
          obtain ⟨outcome, performed, rfl⟩ := map_eq_ok done
          have makes : found.Makes statement := Reads.every _ _ _ found _ _ _ read statement rfl
          refine .performed (scan.reported ++ outcome.reported) given statement?_eq makes ?_
            performed rfl ?_
          · exact sound_of_read { session with reader := session.reader.advance } read
          · simp [afterReading]

/-- **What becomes of a session in a step.** -/
theorem step_takes {session after : Session α} (done : session.step context = .ok after) :
    session.Takes context after := by
  have unread : ∀ {session : Session α}, session.command? = none →
      session.statement? context = none := statement?_of_command?_eq_none
  unfold step at done
  split at done
  · rename_i ended
    cases done
    refine .kept [] rfl (by simp) (unread ?_)
    rw [command?, ended]
    cases session.openString <;> rfl
  · rename_i token rest ahead
    unfold take at done
    dsimp only at done
    split at done
    · rename_i text opened
      have within : session.command? = none := by rw [command?, opened]
      split at done
      · cases done
        exact .joined _ rfl rfl within
      · cases done
        exact .kept [] rfl (by simp) (unread within)
    · rename_i closed
      by_cases quoted : (token.toList.head? == some '\x22') = true
      · have within : session.command? = none := by
          rw [command?, closed, ahead]
          exact if_pos quoted
        rw [if_pos quoted] at done
        split at done
        · cases done
          exact .joined _ rfl rfl within
        · cases done
          exact .kept [] rfl (by simp) (unread within)
      · rw [if_neg quoted] at done
        refine dispatch_takes ahead ?_ done
        rw [command?, closed, ahead]
        exact if_neg quoted

/-! ### Runs -/

/-- What every step keeps, while its statement is added to those carried out, holds at the end of a
run with all of its statements. -/
theorem run_keeps_statements (keeps : List (Statement α) → Session α → Prop)
    (kept : ∀ carried session after, keeps carried session → session.step context = .ok after →
      keeps (carried ++ (session.statement? context).toList) after)
    {fuel : Nat} {carried : List (Statement α)} {session after : Session α}
    (holds : keeps carried session) (done : session.run context fuel = .ok after) :
    keeps (carried ++ session.statements context fuel) after := by
  induction fuel generalizing carried session with
  | zero =>
      cases done
      simpa [statements] using holds
  | succ fuel inductionHypothesis =>
      rw [run_succ] at done
      obtain ⟨next, stepped, done⟩ := bind_eq_ok done
      have after := inductionHypothesis (kept carried session next holds stepped) done
      rw [statements, stepped, ← List.append_assoc]
      exact after

/-- What the reading of every command vouches for holds of every statement that is carried out. -/
theorem statements_vouched {good : Statement α → Prop}
    (vouched : ∀ (session : Session α) (command : Command), Offers good
      (command.read session.draft context.settings.refreshRate session.reader.peek))
    (fuel : Nat) (session : Session α) :
    ∀ statement ∈ session.statements context fuel, good statement := by
  induction fuel generalizing session with
  | zero => exact fun _ impossible => nomatch impossible
  | succ fuel inductionHypothesis =>
      unfold statements
      split
      · intro statement member
        rcases List.mem_append.mp member with here | later
        · exact vouched_of_read (vouched session) (Option.mem_toList.mp here)
        · exact inductionHypothesis _ statement later
      · exact fun _ impossible => nomatch impossible

end Session

end Showreel.Script
