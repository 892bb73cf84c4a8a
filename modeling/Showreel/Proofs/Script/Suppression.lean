import Mathlib.Data.List.Induction
import Showreel.Proofs.Script.Session
import Showreel.Proofs.Script.Outline
import Showreel.Proofs.Waypoint.Overwrites

/-!
Contract: how long the overwrites of an item are suppressed while a script is read.

Owns:
- what a statement overwrites, and what it does to the suppressions;
- the turns of a run: its statements, each with the draft that it finds and what is reported;
- the rule that a suppression silences the next overwrite of its item, for the writes that are
  taken to spend it;
- that every script follows the rule if copies spend nothing, and when it follows the rule in
  which they do.

Does not own: notices about anything that has no suppression.
-/

namespace Showreel.Script

open Number Waypoint

variable {α : Type}

/-! ### Statements -/

/-- Whether a statement copies fields from the first waypoint. -/
def Statement.copies : Statement α → Bool
  | .copyField _ | .copyAll => true
  | _ => false

/-- Whether a statement sets something of which overwrites may be suppressed. -/
def Statement.assigns : Statement α → Bool
  | .setField .. | .setPace .. | .setLimit .. | .setWidth _ | .setHeight _ => true
  | other => other.copies

theorem Statement.assigns_of_copies {statement : Statement α} (copies : statement.copies = true) :
    statement.assigns = true := by
  cases statement with
  | copyField | copyAll => rfl
  | _ => cases copies

/-- Whether a statement suppresses overwrites. -/
def Statement.suppresses : Statement α → Bool
  | .suppress => true
  | _ => false

/-- What another measure of the viewer takes the place of. -/
def overwrittenMeasure (item : Suppressible) (previous : Option Int) (source : String) :
    List Overwrite :=
  (previous.map fun value => ⟨item, source, toString value⟩).toList

namespace Draft

variable (draft : Draft α)

theorem withLimitOwner_suppression (owner : Waypoint α) (left : Suppression) :
    (draft.withLimitOwner owner left).suppression = left := by
  unfold withLimitOwner updateFirst
  split
  · rfl
  · dsimp only
    split <;> rfl

theorem measureNotice_settles (item : Suppressible) (previous : Option Int) (source : String) :
    Settles draft.suppression (overwrittenMeasure item previous source)
      (draft.measureNotice item previous source).1
      (draft.measureNotice item previous source).2 := by
  cases previous with
  | none => exact .nothing draft.suppression
  | some value => exact .single draft.suppression ⟨item, source, toString value⟩

/-- No string is about suppressions. -/
theorem finishString_suppression (info : PatternInfo) (text : String) :
    (draft.finishString info text).1.suppression = draft.suppression := by
  unfold finishString
  dsimp only
  split
  · rfl
  · cases draft.pendingLabel <;> rfl
  · rfl

end Draft

variable [Scalar α]

/-- What copies of some fields take the place of, if there is a waypoint to copy from. -/
def Draft.overwrittenByCopies (draft : Draft α) (fields : List Field) : List Overwrite :=
  draft.firstClosed.elim [] fun _ =>
    fields.flatMap fun field => draft.current.overwritten field (initialSource field.word)

/-- What a statement overwrites, in the order in which it does. -/
def Statement.overwrites (draft : Draft α) : Statement α → List Overwrite
  | .setField field _ source => draft.current.overwritten field source
  | .setPace steps _ source =>
      (steps.elim [] fun _ => draft.current.overwritten .step source)
        ++ draft.current.overwritten .gps source
  | .setLimit stops _ source =>
      draft.limitOwner.overwritten (if stops then .stop else .loop) source
  | .copyField field => draft.overwrittenByCopies [field]
  | .copyAll => draft.overwrittenByCopies Field.all
  | .setWidth width => overwrittenMeasure .width draft.width ("WIDTH " ++ toString width)
  | .setHeight height => overwrittenMeasure .height draft.height ("HEIGHT " ++ toString height)
  | _ => []

namespace Draft

variable {draft : Draft α} {outcome : Outcome α}

theorem assignField_settles {field : Field} {value : field.Value α} {source : String}
    (done : draft.assignField field value source = .ok outcome) :
    Settles draft.suppression (draft.current.overwritten field source) outcome.reported
        outcome.draft.suppression
      ∧ outcome.draft.current = draft.current.put field (some ⟨some value, source, .script⟩) := by
  obtain ⟨⟨change, left⟩, changed, done⟩ := bind_eq_ok done
  cases done
  exact ⟨setField_settles changed, (setField_ok changed).1⟩

/-- The steps of a pace and its generations per second are different items. -/
theorem assignPace_settles {steps : Option Int} {gps : α} {source : String}
    (done : draft.assignPace steps gps source = .ok outcome) :
    Settles draft.suppression ((Statement.setPace steps gps source).overwrites draft)
      outcome.reported outcome.draft.suppression := by
  obtain ⟨stepped, stepping, done⟩ := bind_eq_ok done
  obtain ⟨paced, pacing, done⟩ := bind_eq_ok done
  cases done
  obtain ⟨later, -⟩ := assignField_settles pacing
  cases steps with
  | none =>
      cases stepping
      exact (Settles.nothing draft.suppression).append later (List.forall_mem_nil _)
  | some count =>
      obtain ⟨earlier, after⟩ := assignField_settles stepping
      have kept : stepped.draft.current.overwritten .gps source
          = draft.current.overwritten .gps source := by
        refine overwritten_congr ?_ source
        rw [after]
        exact get_put_of_ne _ _ (by decide)
      rw [kept] at later
      refine earlier.append later fun overwrite member other among => ?_
      rw [item_of_mem_overwritten member, item_of_mem_overwritten among]
      decide

theorem assignLimit_settles {stops : Bool} {generation : Int} {source : String}
    (done : draft.assignLimit stops generation source = .ok outcome) :
    Settles draft.suppression
      (draft.limitOwner.overwritten (if stops then .stop else .loop) source)
      outcome.reported outcome.draft.suppression := by
  obtain ⟨⟨change, left⟩, changed, done⟩ := bind_eq_ok done
  cases done
  rw [withLimitOwner_suppression]
  cases stops with
  | true => exact setField_settles changed
  | false => exact setField_settles changed

/-- A statement that gives a value settles what it overwrites. -/
theorem perform_settles {statement : Statement α} (assigns : statement.assigns = true)
    (valued : statement.copies = false) (done : draft.perform statement = .ok outcome) :
    Settles draft.suppression (statement.overwrites draft) outcome.reported
      outcome.draft.suppression := by
  cases statement with
  | setField field value source => exact (assignField_settles done).1
  | setPace steps gps source => exact assignPace_settles done
  | setLimit stops generation source => exact assignLimit_settles done
  | setWidth width => exact Except.ok.inj done ▸ draft.measureNotice_settles .width _ _
  | setHeight height => exact Except.ok.inj done ▸ draft.measureNotice_settles .height _ _
  | copyField | copyAll => cases valued
  | _ => cases assigns

/-- **A statement that copies** reports all that it overwrites, and leaves the suppressions. -/
theorem perform_copies {statement : Statement α} (copies : statement.copies = true)
    (done : draft.perform statement = .ok outcome) :
    overwriteNotices outcome.reported = (statement.overwrites draft).map Overwrite.notice
      ∧ outcome.draft.suppression = draft.suppression := by
  cases statement with
  | copyField field =>
      obtain ⟨change, copied, rfl⟩ := map_eq_ok done
      refine ⟨?_, rfl⟩
      simp only [Statement.overwrites, overwrittenByCopies]
      cases known : draft.firstClosed with
      | none =>
          rw [known] at copied
          cases copied
          rfl
      | some first =>
          rw [known, copyInitial_word] at copied
          have reports := copyField_reports copied
          rw [Option.elim_some, List.flatMap_singleton]
          exact reports
  | copyAll =>
      replace done : draft.copyAll = .ok outcome := done
      simp only [Statement.overwrites, overwrittenByCopies]
      unfold copyAll at done
      split at done
      · cases done
      · rename_i first known
        obtain ⟨change, copied, rfl⟩ := map_eq_ok done
        rw [known]
        exact ⟨copyFields_reports (by decide) copied, rfl⟩
  | _ => cases copies

/-- Other statements leave the suppressions, unless they suppress overwrites themselves. -/
theorem perform_suppression {statement : Statement α} (plain : statement.assigns = false)
    (other : statement.suppresses = false) (done : draft.perform statement = .ok outcome) :
    outcome.draft.suppression = draft.suppression := by
  cases statement with
  | generation target =>
      cases done
      dsimp only
      split
      · unfold close
        split <;> rfl
      · rfl
  | pause seconds =>
      cases done
      unfold close
      split <;> rfl
  | openPoi initial =>
      cases done
      unfold openPoi close
      cases initial <;> split <;> rfl
  | paste cells x y train source =>
      obtain ⟨pasted, added, rfl⟩ := map_eq_ok done
      obtain ⟨entry, -, added⟩ := bind_eq_ok added
      cases added
      rfl
  | setStyle family style =>
      cases done
      cases family <;> rfl
  | suppress => cases other
  | setField | setPace | setLimit | copyField | copyAll | setWidth | setHeight => cases plain
  | _ =>
      cases done
      rfl

end Draft

/-- Statements that assign nothing of this kind overwrite nothing of it. -/
theorem Statement.overwrites_of_plain {statement : Statement α} (plain : statement.assigns = false)
    (draft : Draft α) : statement.overwrites draft = [] := by
  cases statement with
  | setField | setPace | setLimit | copyField | copyAll | setWidth | setHeight => cases plain
  | _ => rfl

/-! ### Turns -/

/-- A statement that is carried out, the draft that it finds, and what is reported with it. -/
structure Turn (α : Type) where
  draft : Draft α
  statement : Statement α
  reported : List Diagnostic

namespace Turn

def overwrites (turn : Turn α) : List Overwrite :=
  turn.statement.overwrites turn.draft

/-- Whether a turn gives values, rather than copies of them. -/
def givesValues (turn : Turn α) : Bool :=
  !turn.statement.copies

end Turn

/-- An item is armed behind some turns if one of them suppressed overwrites and none since then that
spends suppressions has overwritten the item. -/
def Armed (spends : Turn α → Bool) (past : List (Turn α)) (item : Suppressible) : Prop :=
  ∃ before turn between, past = before ++ turn :: between ∧ turn.statement.suppresses = true
    ∧ ∀ later ∈ between, spends later = true →
      ∀ overwrite ∈ later.overwrites, overwrite.item ≠ item

open Classical in
/-- The overwrites of a turn are reported, but for those that spend the suppression of an armed
item. -/
def Turn.Obeys (spends : Turn α → Bool) (past : List (Turn α)) (turn : Turn α) : Prop :=
  turn.statement.assigns = true →
    overwriteNotices turn.reported = (turn.overwrites.filter fun overwrite =>
      ¬(spends turn = true ∧ Armed spends past overwrite.item)).map Overwrite.notice

/-- Every turn obeys the rule, whatever came before it. -/
def Follows (spends : Turn α → Bool) (turns : List (Turn α)) : Prop :=
  ∀ earlier turn, earlier ++ [turn] <+: turns → turn.Obeys spends earlier

section Rules

variable {spends : Turn α → Bool} {past : List (Turn α)} {turn : Turn α}

theorem not_armed_nil (item : Suppressible) : ¬Armed spends [] item := by
  rintro ⟨before, turn, between, split, -⟩
  exact List.append_ne_nil_of_right_ne_nil before (List.cons_ne_nil turn between) split.symm

/-- One more turn arms all items, or disarms those that it overwrites if it spends suppressions. -/
theorem armed_concat {item : Suppressible} : Armed spends (past ++ [turn]) item
    ↔ turn.statement.suppresses = true ∨ Armed spends past item
      ∧ (spends turn = true → ∀ overwrite ∈ turn.overwrites, overwrite.item ≠ item) := by
  constructor
  · rintro ⟨before, arming, between, split, suppresses, kept⟩
    rcases List.eq_nil_or_concat' between with rfl | ⟨between, last, rfl⟩
    · obtain ⟨-, same⟩ := List.append_inj' split rfl
      exact .inl (List.singleton_inj.mp same ▸ suppresses)
    · rw [← List.cons_append, ← List.append_assoc] at split
      obtain ⟨earlier, same⟩ := List.append_inj' split rfl
      obtain rfl := List.singleton_inj.mp same
      rw [List.forall_mem_append, List.forall_mem_singleton] at kept
      exact .inr ⟨⟨before, arming, between, earlier, suppresses, kept.1⟩, kept.2⟩
  · rintro (suppresses | ⟨⟨before, arming, between, rfl, suppresses, kept⟩, keptLast⟩)
    · exact ⟨past, turn, [], rfl, suppresses, List.forall_mem_nil _⟩
    · refine ⟨before, arming, between ++ [turn], by simp, suppresses, ?_⟩
      rw [List.forall_mem_append, List.forall_mem_singleton]
      exact ⟨kept, keptLast⟩

end Rules

/-- No copy overwrites an item that is armed, were it to spend the suppression. -/
def CopiesUnarmed (turns : List (Turn α)) : Prop :=
  ∀ earlier turn, earlier ++ [turn] <+: turns → turn.statement.copies = true →
    ∀ overwrite ∈ turn.overwrites, ¬Armed (fun _ => true) earlier overwrite.item

/-- Where no copy overwrites an armed item, it makes no difference whether copies spend
suppressions. -/
theorem CopiesUnarmed.armed_iff {turns : List (Turn α)} (unarmed : CopiesUnarmed turns)
    {past : List (Turn α)} (within : past <+: turns) (item : Suppressible) :
    Armed (fun _ => true) past item ↔ Armed Turn.givesValues past item := by
  induction past using List.reverseRecOn with
  | nil => exact iff_of_false (not_armed_nil item) (not_armed_nil item)
  | append_singleton past turn inductionHypothesis =>
      have known := inductionHypothesis ((List.prefix_append _ _).trans within)
      rw [armed_concat, armed_concat, ← known]
      refine or_congr_right (and_congr_right fun armed => ?_)
      unfold Turn.givesValues
      cases copies : turn.statement.copies with
      | false => exact Iff.rfl
      | true =>
          refine iff_of_true (fun _ overwrite member same => ?_) nofun
          exact unarmed past turn within copies overwrite member (same ▸ armed)

/-- Turns that follow the rule in which only values spend suppressions follow the other one as well
exactly if no copy overwrites an armed item. -/
theorem Follows.follows_iff {turns : List (Turn α)} (follows : Follows Turn.givesValues turns) :
    Follows (fun _ => true) turns ↔ CopiesUnarmed turns := by
  constructor
  · intro others earlier turn within copies overwrite member armed
    have assigns := Statement.assigns_of_copies copies
    have loud := follows earlier turn within assigns
    have silent := others earlier turn within assigns
    simp only [Turn.givesValues, copies, Bool.not_true, Bool.false_eq_true, false_and,
      not_false_eq_true, decide_true, List.filter_true] at loud
    -- both rules tell of all overwrites, and the second one leaves this overwrite out
    rw [loud] at silent
    have all := congrArg List.length silent
    rw [List.length_map, List.length_map] at all
    have kept := List.length_filter_eq_length_iff.mp all.symm overwrite member
    simp [armed] at kept
  · intro unarmed earlier turn within assigns
    rw [follows earlier turn within assigns]
    congr 1
    refine List.filter_congr fun overwrite member => ?_
    rw [decide_eq_decide, not_iff_not,
      unarmed.armed_iff ((List.prefix_append _ _).trans within) overwrite.item]
    refine and_congr_left fun armed => iff_of_true ?_ rfl
    by_contra copied
    rw [Turn.givesValues, Bool.not_eq_true', Bool.not_eq_false] at copied
    refine unarmed earlier turn within copied overwrite member ?_
    exact (unarmed.armed_iff ((List.prefix_append _ _).trans within) _).mpr armed

/-! ### Sessions -/

section Performing

variable {draft : Draft α} {statement : Statement α} {outcome : Outcome α} {past : List (Turn α)}
  {reported : List Diagnostic}

/-- A statement obeys the rule if the draft has the suppressions of the turns before it. -/
theorem obeys_of_perform
    (agrees : ∀ item, draft.suppression.armed item = true ↔ Armed Turn.givesValues past item)
    (done : draft.perform statement = .ok outcome)
    (own : statement.assigns = true → reported = outcome.reported) :
    Turn.Obeys Turn.givesValues past ⟨draft, statement, reported⟩ := by
  intro assigns
  replace own : reported = outcome.reported := own assigns
  subst own
  cases copies : statement.copies with
  | true =>
      have all := (Draft.perform_copies copies done).1
      simpa [Turn.givesValues, Turn.overwrites, copies] using all
  | false =>
      have told := (Draft.perform_settles assigns copies done).told
      refine (congrArg overwriteNotices told).trans ?_
      rw [overwriteNotices_notices]
      congr 1
      have gives : Turn.givesValues ⟨draft, statement, outcome.reported⟩ = true := by
        rw [Turn.givesValues, copies, Bool.not_false]
      refine List.filter_congr fun overwrite _ => Bool.eq_iff_iff.mpr ?_
      rw [Bool.not_eq_true', ← Bool.not_eq_true, agrees]
      simp only [decide_eq_true_eq, gives, true_and]

/-- After a statement the draft has the suppressions of the turns with that of the statement. -/
theorem armed_of_perform
    (agrees : ∀ item, draft.suppression.armed item = true ↔ Armed Turn.givesValues past item)
    (done : draft.perform statement = .ok outcome) (item : Suppressible) :
    outcome.draft.suppression.armed item = true
      ↔ Armed Turn.givesValues (past ++ [⟨draft, statement, reported⟩]) item := by
  rw [armed_concat, ← agrees]
  cases suppresses : statement.suppresses with
  | true =>
      cases statement with
      | suppress =>
          cases done
          exact iff_of_true rfl (.inl rfl)
      | _ => cases suppresses
  | false =>
      rw [or_iff_right Bool.false_ne_true]
      cases copies : statement.copies with
      | true =>
          rw [(Draft.perform_copies copies done).2, and_iff_left]
          simp [Turn.givesValues, copies]
      | false =>
          cases assigns : statement.assigns with
          | true =>
              rw [(Draft.perform_settles assigns copies done).left]
              simp [Turn.givesValues, Turn.overwrites, copies]
          | false =>
              rw [Draft.perform_suppression assigns suppresses done, and_iff_left]
              simp [Turn.overwrites, Statement.overwrites_of_plain assigns]

end Performing

namespace Session

variable (context : Context α)

/-- The turn of a step from one session to the next, if it carries out a statement. -/
def turn? (session next : Session α) : Option (Turn α) :=
  (session.statement? context).map fun statement =>
    ⟨session.draft, statement, next.reported.toList.drop session.reported.size⟩

/-- The turns of a run, in order. -/
def turns : Nat → Session α → List (Turn α)
  | 0, _ => []
  | fuel + 1, session =>
      match session.step context with
      | .ok next => (session.turn? context next).toList ++ turns fuel next
      | .error _ => []

/-- The turns of a run have its statements. -/
theorem turns_map_statement (fuel : Nat) (session : Session α) :
    (session.turns context fuel).map Turn.statement = session.statements context fuel := by
  induction fuel generalizing session with
  | zero => rfl
  | succ fuel inductionHypothesis =>
      unfold turns statements
      cases session.step context with
      | error fault => rfl
      | ok next =>
          dsimp only
          rw [List.map_append, inductionHypothesis, turn?]
          cases session.statement? context <;> rfl

variable {context}

/-- A step that has a statement before it carries it out. Statements that assign something are read
without a report. -/
theorem step_performs {session next : Session α} (stepped : session.step context = .ok next)
    {statement : Statement α} (read : session.statement? context = some statement) :
    ∃ outcome, session.draft.perform statement = .ok outcome ∧ next.draft = outcome.draft
      ∧ (statement.assigns = true →
        next.reported = session.reported ++ outcome.reported.toArray) := by
  obtain ⟨command, given, reading⟩ := Option.bind_eq_some_iff.mp read
  dsimp only at reading
  split at reading
  · rename_i result scan ran
    subst reading
    rw [step_of_command? given, ran] at stepped
    change (session.afterReading command scan).perform (some statement) = .ok next at stepped
    obtain ⟨⟨⟩, -⟩ | ⟨_, outcome, same, performed, rfl⟩ := perform_ok stepped
    cases same
    refine ⟨outcome, performed, rfl, fun assigns => ?_⟩
    have admitted := admitted_of_read { session with reader := session.reader.advance } ran
    have makes : command.Makes statement := Reads.every _ _ _ command _ _ _ ran statement rfl
    have noPaste : command ≠ .paste := by
      rintro rfl
      cases makes
      cases assigns
    have quiet : scan.reported = [] := (admitted statement rfl).1 noPaste
    simp [afterReading, quiet]
  · cases reading

/-- Turns that follow the rule in which only values spend suppressions, and the suppressions that
the draft has behind them. -/
structure Accounts (past : List (Turn α)) (session : Session α) : Prop where
  follows : Follows Turn.givesValues past
  armed : ∀ item, session.draft.suppression.armed item = true ↔ Armed Turn.givesValues past item

theorem step_accounts {past : List (Turn α)} {session next : Session α}
    (accounts : Accounts past session) (stepped : session.step context = .ok next) :
    Accounts (past ++ (session.turn? context next).toList) next := by
  cases read : session.statement? context with
  | some statement =>
      obtain ⟨outcome, performed, draft, reports⟩ := step_performs stepped read
      rw [turn?, read, Option.map_some, Option.toList_some]
      have obeys : Turn.Obeys Turn.givesValues past
          ⟨session.draft, statement, next.reported.toList.drop session.reported.size⟩ :=
        obeys_of_perform accounts.armed performed fun assigns => by simp [reports assigns]
      refine ⟨forall_prefix_concat_iff.mpr ⟨accounts.follows, obeys⟩, fun item => ?_⟩
      rw [draft]
      exact armed_of_perform accounts.armed performed item
  | none =>
      rw [turn?, read, Option.map_none, Option.toList_none, List.append_nil]
      refine ⟨accounts.follows, fun item => ?_⟩
      have kept : next.draft.suppression = session.draft.suppression := by
        cases step_takes stepped with
        | kept new draft => rw [draft]
        | joined text draft => rw [draft, Draft.finishString_suppression]
        | performed new given known => cases read.symm.trans known
      rw [kept]
      exact accounts.armed item

/-- By induction on the fuel: the turns of a run, behind those that are accounted for. -/
theorem follows_turns {past : List (Turn α)} {session : Session α}
    (accounts : Accounts past session) (fuel : Nat) :
    Follows Turn.givesValues (past ++ session.turns context fuel) := by
  induction fuel generalizing past session with
  | zero => simpa [turns] using accounts.follows
  | succ fuel inductionHypothesis =>
      unfold turns
      split
      · rename_i next stepped
        rw [← List.append_assoc]
        exact inductionHypothesis (step_accounts accounts stepped)
      · simpa using accounts.follows

theorem accounts_start (text : String) : Accounts [] (start context text) where
  follows := forall_prefix_nil
  armed item := by
    have unarmed : (start context text).draft.suppression.armed item = false := rfl
    rw [unarmed]
    exact iff_of_false Bool.false_ne_true (not_armed_nil item)

end Session

/-- The turns of the reading of a document. -/
def readTurns (context : Context α) (text : String) : List (Turn α) :=
  let session := Session.start context text
  session.turns context session.reader.ahead.length

/-- **A suppression lasts until a value overwrites its item.** In every script each overwrite by a
value is silenced if its item is armed, which spends the suppression, and is reported otherwise, and
each overwrite by a copy is reported. So the script follows the rule in which every overwrite spends
suppressions exactly if no copy overwrites an armed item. -/
theorem readTurns_follows (context : Context α) (text : String) :
    (readTurns context text).map Turn.statement = readStatements context text
      ∧ Follows Turn.givesValues (readTurns context text)
      ∧ (Follows (fun _ => true) (readTurns context text)
        ↔ CopiesUnarmed (readTurns context text)) := by
  have follows : Follows Turn.givesValues ([] ++ readTurns context text) :=
    Session.follows_turns (Session.accounts_start text) _
  rw [List.nil_append] at follows
  exact ⟨Session.turns_map_statement context _ _, follows, follows.follows_iff⟩

/-- A value of a point of interest that a copy overwrites right behind the suppression. -/
theorem readTurns_follows_initial :
    let context : Context Float := ⟨.standard, .standard, .standard⟩
    let turns := readTurns context "[[ X 3 POI X 1 SUPPRESS X INITIAL ]]"
    (∃ earlier arming copying, turns = earlier ++ [arming, copying]
        ∧ arming.statement.suppresses = true
        ∧ copying.overwrites.map Overwrite.item = [.field .x]
        ∧ overwriteNotices copying.reported = [⟨"X INITIAL", .overwrites "1"⟩])
      ∧ ¬Follows (fun _ => true) turns := by
  intro context turns
  have ending : (turns.drop 3).map (fun turn =>
      ((turn.statement.suppresses, turn.statement.copies),
        turn.overwrites.map Overwrite.item, overwriteNotices turn.reported))
      = [((true, false), [], []),
        ((false, true), [.field .x], [⟨"X INITIAL", .overwrites "1"⟩])] := by
    decide +kernel
  have whole : turns = turns.take 3 ++ turns.drop 3 := (List.take_append_drop 3 turns).symm
  clear_value turns
  obtain ⟨arming, _, split, arms, ending⟩ := List.map_eq_cons_iff.mp ending
  obtain ⟨copying, _, rfl, tells, ending⟩ := List.map_eq_cons_iff.mp ending
  obtain rfl := List.map_eq_nil_iff.mp ending
  simp only [Prod.mk.injEq] at arms tells
  obtain ⟨⟨suppresses, -⟩, -⟩ := arms
  obtain ⟨⟨-, copies⟩, items, reported⟩ := tells
  rw [split] at whole
  refine ⟨⟨turns.take 3, arming, copying, whole, suppresses, items, reported⟩, fun follows => ?_⟩
  have within : turns.take 3 ++ [arming] ++ [copying] <+: turns := by
    rw [List.append_assoc]
    exact whole ▸ List.prefix_refl _
  have silent := follows _ copying within (Statement.assigns_of_copies copies)
  have armed : ∀ item, Armed (fun _ => true) (turns.take 3 ++ [arming]) item := fun item =>
    ⟨turns.take 3, arming, [], rfl, suppresses, List.forall_mem_nil _⟩
  simp [reported, armed] at silent

end Showreel.Script
