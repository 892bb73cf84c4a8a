import Showreel.Proofs.Script.Refusal

/-!
Contract: how a session goes on from token to token.

Owns:
- the step of a session, and its run as a sequence of steps;
- that a step reads on, and how much fuel a run takes;
- what every step keeps is kept by a run;
- the interpretation of a script, from a check of it that was computed.

Does not own: what a session means.
-/

namespace Showreel.Script

open Number Waypoint

variable {α : Type}

/-! ### Reading on -/

theorem search_suffix (passes : String → Bool) {behind ahead : List String} {found : Reader}
    (search : Reader.search passes behind ahead = some found) : found.ahead <:+ ahead := by
  induction ahead generalizing behind with
  | nil => cases search
  | cons token rest inductionHypothesis =>
      unfold Reader.search at search
      split at search
      · cases search
        exact List.suffix_cons token rest
      · exact (inductionHypothesis search).trans (List.suffix_cons token rest)

/-- At the end of a script block reading goes on with what follows the next start marker. -/
theorem afterBlock_suffix (reader : Reader) :
    ((reader.find startMarkers).getD reader.finish).ahead <:+ reader.ahead := by
  cases found : reader.find startMarkers with
  | none => exact List.nil_suffix
  | some next => exact search_suffix _ found

namespace Session

variable [Scalar α] (context : Context α)

theorem perform_reader {session after : Session α} {statement : Option (Statement α)}
    (done : session.perform statement = .ok after) : after.reader = session.reader := by
  obtain ⟨-, rfl⟩ | ⟨given, outcome, -, -, rfl⟩ := perform_ok done
  · rfl
  · rfl

theorem dispatch_suffix {session after : Session α} {word : String}
    (done : session.dispatch context word = .ok after) :
    after.reader.ahead <:+ session.reader.ahead := by
  cases known : Command.ofWord? word with
  | none =>
      rw [dispatch, known] at done
      cases done
      exact List.suffix_refl _
  | some command =>
      by_cases inside : command = .scriptEnd
      · subst inside
        rw [dispatch_scriptEnd context session known] at done
        cases done
        exact afterBlock_suffix session.reader
      · obtain ⟨fault, -, failed⟩ | ⟨statement, scan, -, within, read⟩ :=
          session.dispatch_cases context known inside
        · rw [failed] at done
          cases done
        · rw [read] at done
          rw [perform_reader done]
          exact within

theorem take_suffix {session after : Session α} {token : String}
    (done : session.take context token = .ok after) :
    after.reader.ahead <:+ session.reader.ahead := by
  unfold take at done
  dsimp only at done
  split at done
  · split at done
    · cases done
      exact List.suffix_refl _
    · cases done
      exact List.suffix_refl _
  · split at done
    · split at done
      · cases done
        exact List.suffix_refl _
      · cases done
        exact List.suffix_refl _
    · exact dispatch_suffix context done

/-! ### Steps and runs -/

/-- Take the next token, if there is one. -/
def step (session : Session α) : Except Fault (Session α) :=
  match session.reader.ahead with
  | [] => .ok session
  | token :: _ => { session with reader := session.reader.advance }.take context token

theorem run_nil {session : Session α} (ended : session.reader.ahead = []) (fuel : Nat) :
    session.run context fuel = .ok session := by
  cases fuel with
  | zero => rfl
  | succ fuel => rw [run, ended]

theorem run_succ (fuel : Nat) (session : Session α) :
    session.run context (fuel + 1) = session.step context >>= run context fuel := by
  unfold step
  cases ahead : session.reader.ahead with
  | nil =>
      rw [run_nil context ahead]
      exact (run_nil context ahead fuel).symm
  | cons token rest => rw [run, ahead]

theorem step_suffix {session after : Session α} (done : session.step context = .ok after) :
    after.reader.ahead <:+ session.reader.ahead.tail := by
  unfold step at done
  split at done
  · rename_i ended
    cases done
    rw [ended]
    exact List.suffix_refl _
  · simpa using take_suffix context done

theorem run_add (fuel more : Nat) (session : Session α) :
    session.run context (fuel + more) = session.run context fuel >>= run context more := by
  induction fuel generalizing session with
  | zero =>
      rw [Nat.zero_add]
      rfl
  | succ fuel inductionHypothesis =>
      rw [Nat.succ_add, run_succ, run_succ]
      cases session.step context with
      | error fault => rfl
      | ok after => exact inductionHypothesis after

/-- What a step comes to: the draft is kept, a string is finished, a statement is carried out or
fails, or its arguments are not read for an excused reason. -/
inductive Goes (session : Session α) : Except Fault (Session α) → Prop
  | kept {after : Session α} (same : after.draft = session.draft) : Goes session (.ok after)
  | joined {after : Session α} {text : String}
      (finished : after.draft = (session.draft.finishString context.info text).1) :
      Goes session (.ok after)
  | performed {after : Session α} {statement : Statement α} {outcome : Outcome α}
      (sound : (session.ownOutlook context).Sound statement)
      (done : session.draft.perform statement = .ok outcome)
      (draft : after.draft = outcome.draft) : Goes session (.ok after)
  | failed {statement : Statement α} {fault : Fault}
      (sound : (session.ownOutlook context).Sound statement)
      (failure : session.draft.perform statement = .error fault) : Goes session (.error fault)
  | excused {fault : Fault} (excuse : (session.ownOutlook context).Excused fault) :
      Goes session (.error fault)

theorem dispatch_goes (session : Session α) (word : String) :
    session.Goes context (session.dispatch context word) := by
  cases known : Command.ofWord? word with
  | none =>
      rw [dispatch, known]
      exact .kept rfl
  | some command =>
      by_cases inside : command = .scriptEnd
      · subst inside
        rw [dispatch_scriptEnd context session known]
        exact .kept rfl
      · obtain ⟨fault, excuse, failed⟩ | ⟨statement, scan, admitted, -, read⟩ :=
          session.dispatch_cases context known inside
        · rw [failed]
          exact .excused excuse
        · rw [read]
          cases statement with
          | none => exact .kept rfl
          | some given =>
              have sound := (admitted given rfl).2
              change session.Goes context ((session.draft.perform given).map _)
              cases performed : session.draft.perform given with
              | error fault => exact .failed sound performed
              | ok outcome => exact .performed sound performed rfl

theorem take_goes (session : Session α) (token : String) :
    session.Goes context (session.take context token) := by
  unfold take
  dsimp only
  split
  · split
    · exact .joined rfl
    · exact .kept rfl
  · split
    · split
      · exact .joined rfl
      · exact .kept rfl
    · exact dispatch_goes context session token

theorem excused_of_suffix {draft : Draft α} {refreshRate : Int} {tokens longer : List String}
    {fault : Fault} (within : tokens <:+ longer)
    (excused : (Outlook.single draft refreshRate tokens).Excused fault) :
    (Outlook.single draft refreshRate longer).Excused fault := by
  cases excused with
  | unbounded member read infinite => exact .unbounded (within.subset member) read infinite
  | uncountable whole bounded failed => exact .uncountable whole bounded failed
  | grid failed => exact .grid failed
  | rate low => exact .rate low
  | text member failed => exact .text (member.trans within.isInfix) failed

theorem step_goes (session : Session α) : session.Goes context (session.step context) := by
  unfold step
  split
  · exact .kept rfl
  · have goes := take_goes context { session with reader := session.reader.advance } ‹String›
    generalize ({ session with reader := session.reader.advance } : Session α).take context _
      = outcome at goes ⊢
    cases goes with
    | kept same => exact .kept same
    | joined finished => exact .joined finished
    | performed sound done draft => exact .performed sound done draft
    | failed sound failure => exact .failed sound failure
    | excused excuse =>
        refine .excused (excused_of_suffix ?_ excuse)
        simpa using List.tail_suffix session.reader.ahead

/-- A run ends with the tokens, whatever fuel is left. -/
theorem run_fuel {fuel more : Nat} {session : Session α}
    (covers : session.reader.ahead.length ≤ fuel)
    (coversToo : session.reader.ahead.length ≤ more) :
    session.run context fuel = session.run context more := by
  induction fuel generalizing session more with
  | zero =>
      have ended : session.reader.ahead = [] := List.eq_nil_of_length_eq_zero (by omega)
      rw [run_nil context ended, run_nil context ended]
  | succ fuel inductionHypothesis =>
      cases more with
      | zero =>
          have ended : session.reader.ahead = [] := List.eq_nil_of_length_eq_zero (by omega)
          rw [run_nil context ended, run_nil context ended]
      | succ more =>
          rw [run_succ, run_succ]
          cases stepped : session.step context with
          | error fault => rfl
          | ok after =>
              have shorter := (step_suffix context stepped).length_le
              rw [List.length_tail] at shorter
              exact inductionHypothesis (by omega) (by omega)

/-- What every step keeps holds at the end of a run. -/
theorem run_keeps {keeps : Session α → Prop}
    (kept : ∀ session after, keeps session → session.step context = .ok after → keeps after)
    {fuel : Nat} {session after : Session α} (holds : keeps session)
    (done : session.run context fuel = .ok after) : keeps after := by
  induction fuel generalizing session with
  | zero =>
      cases done
      exact holds
  | succ fuel inductionHypothesis =>
      rw [run_succ] at done
      obtain ⟨next, stepped, done⟩ := bind_eq_ok done
      exact inductionHypothesis (kept session next holds stepped) done

theorem run_suffix {fuel : Nat} {session after : Session α}
    (done : session.run context fuel = .ok after) :
    after.reader.ahead <:+ session.reader.ahead :=
  run_keeps context
    (fun _ _ within stepped =>
      ((step_suffix context stepped).trans (List.tail_suffix _)).trans within)
    (List.suffix_refl _) done

end Session

/-! ### Computed interpretations -/

/-- A check that is computed on the interpretation of a script, if there is one, shows that
there is one and what it passes. -/
theorem exists_interpretation [Scalar α] {context : Context α} {script : String}
    {passes : Interpretation α → Bool}
    (checked : (interpret context script).toOption.any passes = true) :
    ∃ interpretation, interpret context script = .ok interpretation
      ∧ passes interpretation = true :=
  exists_of_toOption_any checked

end Showreel.Script
