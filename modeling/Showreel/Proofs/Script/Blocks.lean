import Showreel.Proofs.Pattern.Source
import Showreel.Proofs.Script.Soundness

/-!
Contract: text outside script blocks does not count.

Owns:
- where reading goes on after a script block, and where it starts;
- sessions in lockstep: they differ in the tokens that were read, and their readers have alike
  tokens ahead;
- documents that differ only outside script blocks, and that they mean the same.

Does not own: what the scripts in the blocks mean.
-/

namespace Showreel.Script

open Number Pattern.Document

variable {α : Type}

/-! ### The places where reading starts and goes on -/

/-- Tokens among which there is no start marker. -/
def Silent (tokens : List String) : Prop := ∀ token ∈ tokens, token ∉ startMarkers

instance (tokens : List String) : Decidable (Silent tokens) :=
  inferInstanceAs (Decidable (∀ token ∈ tokens, token ∉ startMarkers))

theorem silent_nil : Silent [] := List.forall_mem_nil _

theorem silent_cons {token : String} {tokens : List String} :
    Silent (token :: tokens) ↔ token ∉ startMarkers ∧ Silent tokens :=
  List.forall_mem_cons

theorem silent_append {tokens others : List String} :
    Silent (tokens ++ others) ↔ Silent tokens ∧ Silent others :=
  List.forall_mem_append

theorem not_startMarker {marker : String} (ends : marker ∈ endMarkers) : marker ∉ startMarkers :=
  (by decide : ∀ marker ∈ endMarkers, marker ∉ startMarkers) marker ends

/-- The tokens behind the first start marker; none without a start marker. -/
def resumed : List String → List String
  | [] => []
  | token :: rest => if token ∈ startMarkers then rest else resumed rest

theorem resumed_append {skipped : List String} (silent : Silent skipped) (ahead : List String) :
    resumed (skipped ++ ahead) = resumed ahead := by
  induction skipped with
  | nil => rfl
  | cons token rest inductionHypothesis =>
      obtain ⟨passed, silentRest⟩ := silent_cons.mp silent
      exact (if_neg passed).trans (inductionHypothesis silentRest)

theorem resumed_append_of_not_silent {tokens : List String} (loud : ¬Silent tokens)
    (ahead : List String) : resumed (tokens ++ ahead) = resumed tokens ++ ahead := by
  induction tokens with
  | nil => exact absurd silent_nil loud
  | cons token rest inductionHypothesis =>
      rw [List.cons_append]
      unfold resumed
      split
      · rfl
      · rename_i passed
        exact inductionHypothesis fun silent => loud (silent_cons.mpr ⟨passed, silent⟩)

theorem resumed_of_silent {tokens : List String} (silent : Silent tokens) : resumed tokens = [] := by
  simpa [resumed] using resumed_append silent []

theorem resumed_length_le (ahead : List String) : (resumed ahead).length ≤ ahead.length := by
  induction ahead with
  | nil => exact Nat.le_refl _
  | cons token rest inductionHypothesis =>
      unfold resumed
      split
      · exact Nat.le_succ _
      · exact Nat.le_succ_of_le inductionHypothesis

theorem search_of_silent {ahead : List String} (silent : Silent ahead) (behind : List String) :
    Reader.search startMarkers.contains behind ahead = none := by
  induction ahead generalizing behind with
  | nil => rfl
  | cons token rest inductionHypothesis =>
      obtain ⟨passed, silentRest⟩ := silent_cons.mp silent
      unfold Reader.search
      rw [if_neg (by simpa using passed)]
      exact inductionHypothesis silentRest _

theorem search_of_not_silent {ahead : List String} (loud : ¬Silent ahead) (behind : List String) :
    ∃ found, Reader.search startMarkers.contains behind ahead = some found
      ∧ found.ahead = resumed ahead := by
  induction ahead generalizing behind with
  | nil => exact absurd silent_nil loud
  | cons token rest inductionHypothesis =>
      unfold Reader.search resumed
      by_cases starts : token ∈ startMarkers
      · rw [if_pos (by simpa using starts), if_pos starts]
        exact ⟨_, rfl, rfl⟩
      · rw [if_neg (by simpa using starts), if_neg starts]
        exact inductionHypothesis (fun silent => loud (silent_cons.mpr ⟨starts, silent⟩)) _

theorem afterBlock_ahead (reader : Reader) :
    ((reader.find startMarkers).getD reader.finish).ahead = resumed reader.ahead := by
  unfold Reader.find
  by_cases silent : Silent reader.ahead
  · rw [search_of_silent silent, resumed_of_silent silent]
    rfl
  · obtain ⟨found, search, ahead⟩ := search_of_not_silent silent reader.behind
    rw [search]
    exact ahead

/-- Where reading starts: behind the first start marker. A text without one is read from its
beginning if it has no comment lines, and otherwise not at all. -/
theorem start_ahead [Scalar α] (context : Context α) (text : String) :
    (Session.start context text).reader.ahead =
      if Silent (tokens (scriptSource text)) then
        if Commented text then [] else tokens (scriptSource text)
      else resumed (tokens (scriptSource text)) := by
  have bare := @scriptSource_eq_self_iff text
  unfold Session.start
  dsimp only [Reader.find, Reader.ofText, Reader.ofTokens]
  by_cases silent : Silent (tokens (scriptSource text))
  · rw [search_of_silent silent, if_pos silent]
    by_cases commented : Commented text
    · simp [bare, commented, Reader.finish]
    · simp [bare, commented]
  · obtain ⟨found, search, ahead⟩ := search_of_not_silent silent []
    rw [search, if_neg silent]
    exact ahead

/-! ### Sessions in lockstep -/

/-- Sessions that differ in the reader only, with alike tokens ahead. -/
structure Beside (alike : List String → List String → Prop) (session twin : Session α) : Prop where
  ahead : alike session.reader.ahead twin.reader.ahead
  same : twin = { session with reader := twin.reader }

/-- The same fault, or sessions that stand beside each other. -/
inductive Lockstep (alike : List String → List String → Prop) :
    Except Fault (Session α) → Except Fault (Session α) → Prop
  | failed {fault : Fault} : Lockstep alike (.error fault) (.error fault)
  | reached {session twin : Session α} (beside : Beside alike session twin) :
      Lockstep alike (.ok session) (.ok twin)

section Lockstep

variable [Scalar α] (context : Context α) {session twin : Session α}

theorem Lockstep.perform {alike : List String → List String → Prop}
    (beside : Beside alike session twin) (statement : Option (Statement α)) :
    Lockstep alike (session.perform statement) (twin.perform statement) := by
  cases statement with
  | none => exact .reached beside
  | some given =>
      unfold Session.perform
      rw [beside.same]
      dsimp only
      cases session.draft.perform given with
      | error fault => exact .failed
      | ok outcome => exact .reached ⟨beside.ahead, rfl⟩

/-- Commands inside a script block are dispatched alike by sessions beside each other. -/
theorem Lockstep.command (outlook : Outlook α) (draft : outlook.draft = session.draft)
    (rate : outlook.refreshRate = context.settings.refreshRate)
    (within : session.reader.ahead <:+ outlook.tokens) (beside : Beside outlook.alike session twin)
    {word : String} {command : Command} (known : Command.ofWord? word = some command)
    (inside : command ≠ .scriptEnd) :
    Lockstep outlook.alike (session.dispatch context word) (twin.dispatch context word) := by
  have meets : Meets outlook Anywhere
      (command.read session.draft context.settings.refreshRate word) (command.Admits outlook) :=
    draft ▸ rate ▸ Meets.command command word inside
  have agree := meets ⟨session.reader, []⟩ ⟨twin.reader, []⟩ beside.ahead within trivial
  rw [Session.dispatch_eq context session known, Session.dispatch_eq context twin known,
    show twin.draft = session.draft by rw [beside.same]]
  generalize (command.read session.draft context.settings.refreshRate word).run
    ⟨session.reader, []⟩ = here at agree ⊢
  generalize (command.read session.draft context.settings.refreshRate word).run
    ⟨twin.reader, []⟩ = there at agree ⊢
  cases agree with
  | failed excused => exact .failed
  | given alike within reported echoed admitted =>
      refine .perform ⟨alike, ?_⟩ _
      simp only [Session.afterReading, reported, echoed]
      rw [beside.same]

/-- The next token is taken alike, provided that an end of a script block is. -/
theorem Lockstep.take (outlook : Outlook α) (draft : outlook.draft = session.draft)
    (rate : outlook.refreshRate = context.settings.refreshRate)
    (within : session.reader.ahead <:+ outlook.tokens) (beside : Beside outlook.alike session twin)
    (token : String)
    (ends : Command.ofWord? token = some .scriptEnd →
      session.take context token = session.dispatch context token →
      Lockstep outlook.alike (session.dispatch context token) (twin.dispatch context token)) :
    Lockstep outlook.alike (session.take context token) (twin.take context token) := by
  obtain ⟨ahead, same⟩ := beside
  have sameString : twin.openString = session.openString := by rw [same]
  unfold Session.take at ends ⊢
  dsimp only at ends ⊢
  rw [sameString]
  split
  · split
    · refine .reached ⟨ahead, ?_⟩
      rw [same]
      rfl
    · refine .reached ⟨ahead, ?_⟩
      rw [same]
  · rename_i closed
    split
    · split
      · refine .reached ⟨ahead, ?_⟩
        rw [same]
        rfl
      · refine .reached ⟨ahead, ?_⟩
        rw [same]
    · rename_i unquoted
      rw [closed] at ends
      dsimp only at ends
      rw [if_neg unquoted] at ends
      cases known : Command.ofWord? token with
      | none =>
          rw [Session.dispatch, Session.dispatch, known]
          refine .reached ⟨ahead, ?_⟩
          rw [same]
      | some command =>
          by_cases inside : command = .scriptEnd
          · exact ends (inside ▸ known) rfl
          · exact .command context outlook draft rate within ⟨ahead, same⟩ known inside

/-- What was read before does not count. -/
theorem Lockstep.step (beside : Beside Eq session twin) :
    Lockstep Eq (session.step context) (twin.step context) := by
  obtain ⟨ahead, same⟩ := beside
  unfold Session.step
  rw [← ahead]
  split
  · exact .reached ⟨ahead, same⟩
  · have advanced : session.reader.advance.ahead = twin.reader.advance.ahead := by
      rw [ahead_advance, ahead_advance, ahead]
    let outlook : Outlook α := .single session.draft context.settings.refreshRate
      session.reader.advance.ahead
    have further : Beside outlook.alike { session with reader := session.reader.advance }
        { twin with reader := twin.reader.advance } := ⟨advanced, by rw [same]⟩
    refine Lockstep.take context outlook ?_ ?_ ?_ further _ fun known _ => ?_
    · rfl
    · rfl
    · exact List.suffix_refl _
    rw [Session.dispatch_scriptEnd context _ known, Session.dispatch_scriptEnd context _ known]
    refine .reached ⟨?_, by rw [same]⟩
    rw [afterBlock_ahead, afterBlock_ahead]
    exact congrArg resumed advanced

theorem Lockstep.run (fuel : Nat) (beside : Beside Eq session twin) :
    Lockstep Eq (session.run context fuel) (twin.run context fuel) := by
  induction fuel generalizing session twin with
  | zero => exact .reached beside
  | succ fuel inductionHypothesis =>
      rw [Session.run_succ, Session.run_succ]
      have stepped := Lockstep.step context beside
      generalize session.step context = here at stepped ⊢
      generalize twin.step context = there at stepped ⊢
      cases stepped with
      | failed => exact .failed
      | reached beside => exact inductionHypothesis beside

/-- The fuel of a whole reading may be more than the number of tokens. -/
theorem readAll_eq_run {text : String} {fuel : Nat}
    (covers : (Session.start context text).reader.ahead.length ≤ fuel) :
    readAll context text = (Session.start context text).run context fuel :=
  Session.run_fuel context (Nat.le_refl _) covers

/-- A document is settled with the session in which no token is left. -/
theorem interpret_of_run {text : String} {after : Session α} {steps : Nat}
    (ran : (Session.start context text).run context steps = .ok after)
    (ended : after.reader.ahead = []) :
    interpret context text
      = after.draft.finish after.finalReport after.commands context.settings context.camera := by
  have read : readAll context text = .ok after := by
    rw [readAll_eq_run context (Nat.le_add_left _ steps), Session.run_add, ran]
    generalize (Session.start context text).reader.ahead.length = fuel
    exact Session.run_nil context ended fuel
  unfold interpret
  rw [read]
  rfl

/-- The interpretation of a document depends on the session at its end, less the reader. -/
theorem interpret_congr {text other : String}
    (alike : Lockstep Eq (readAll context text) (readAll context other)) :
    interpret context text = interpret context other := by
  unfold interpret
  generalize readAll context text = here at alike ⊢
  generalize readAll context other = there at alike ⊢
  cases alike with
  | failed => rfl
  | reached beside =>
      change Draft.finish _ _ _ _ _ = Draft.finish _ _ _ _ _
      rw [beside.same]
      rfl

theorem start_same (text other : String) :
    Session.start context other = { Session.start context text with
      reader := (Session.start context other).reader } := by
  simp only [Session.start]

/-- Texts whose scripts start at the same tokens mean the same. -/
theorem interpret_eq_of_start {text other : String}
    (same : (Session.start context text).reader.ahead
      = (Session.start context other).reader.ahead) :
    interpret context text = interpret context other := by
  have covers := Nat.le_of_eq (congrArg List.length same)
  refine interpret_congr context ?_
  rw [readAll_eq_run context covers, readAll_eq_run context (Nat.le_refl _)]
  exact .run context _ ⟨same, start_same context text other⟩

/-- No list of gaps is named like an end marker. -/
theorem SoundDraft.lookup_endMarker {refreshRate : Int} {draft : Draft α}
    (sound : SoundDraft refreshRate draft) (name : String)
    (known : (draft.recipes.lookup name).isSome) : name ∉ endMarkers := by
  obtain ⟨gaps, found⟩ := Option.isSome_iff_exists.mp known
  obtain ⟨before, after, recipes, -⟩ := List.lookup_eq_some_iff.mp found
  have unreserved := sound.names (name, gaps) (by simp [recipes])
  intro ends
  have reserved := (by decide : ∀ marker ∈ endMarkers, isScriptWord marker = true) name ends
  rw [unreserved] at reserved
  cases reserved

/-- A step that stays before an end marker does not depend on what follows the marker. -/
theorem Lockstep.stepBefore {marker : String} {tail other : List String}
    (ends : marker ∈ endMarkers)
    (sound : SoundDraft context.settings.refreshRate session.draft) {token : String}
    {shared : List String} (here : session.reader.ahead = token :: (shared ++ marker :: tail))
    (there : twin.reader.ahead = token :: (shared ++ marker :: other))
    (same : twin = { session with reader := twin.reader }) {next : Session α}
    (stepped : session.step context = .ok next) (stays : tail.length < next.reader.ahead.length) :
    Lockstep (Outlook.PartedBehind marker tail other) (session.step context)
      (twin.step context) := by
  let outlook : Outlook α := .parting session.draft context.settings.refreshRate marker tail other
    ends sound.lookup_endMarker (shared ++ marker :: tail)
  have advanced : session.reader.advance.ahead = shared ++ marker :: tail := by
    rw [ahead_advance, here, List.tail_cons]
  have twinAdvanced : twin.reader.advance.ahead = shared ++ marker :: other := by
    rw [ahead_advance, there, List.tail_cons]
  have further : Beside outlook.alike { session with reader := session.reader.advance }
      { twin with reader := twin.reader.advance } :=
    ⟨⟨shared, advanced, twinAdvanced⟩, by rw [same]⟩
  unfold Session.step at stepped ⊢
  rw [here] at stepped ⊢
  rw [there]
  refine Lockstep.take context outlook ?_ ?_ ?_ further token fun known direct => ?_
  · rfl
  · rfl
  · exact advanced ▸ List.suffix_refl _
  rw [Session.dispatch_scriptEnd context _ known] at direct
  rw [Session.dispatch_scriptEnd context _ known, Session.dispatch_scriptEnd context _ known]
  have loud : ¬Silent shared := by
    -- a search that passes the end marker does not stay before it
    intro silent
    dsimp only at stepped
    rw [direct] at stepped
    cases stepped
    have skipped : Silent (shared ++ [marker]) :=
      silent_append.mpr ⟨silent, silent_cons.mpr ⟨not_startMarker ends, silent_nil⟩⟩
    have behind := resumed_append skipped tail
    rw [List.append_assoc, List.singleton_append] at behind
    rw [afterBlock_ahead, advanced, behind] at stays
    exact absurd stays (Nat.not_lt_of_le (resumed_length_le tail))
  refine .reached ⟨⟨resumed shared, ?_, ?_⟩, by rw [same]⟩
  · rw [afterBlock_ahead, advanced, resumed_append_of_not_silent loud]
  · rw [afterBlock_ahead, twinAdvanced, resumed_append_of_not_silent loud]

/-- **Up to the end of a script block, what follows it does not count.** If a run reaches an end
marker outside strings, then the same run over tokens that differ only behind the marker reaches
it as well. -/
theorem Session.run_parting {marker : String} {tail other : List String}
    (ends : marker ∈ endMarkers) {fuel : Nat} {reached : Session α}
    (done : session.run context fuel = .ok reached)
    (place : reached.reader.ahead = marker :: tail)
    (sound : SoundDraft context.settings.refreshRate session.draft) {shared : List String}
    (here : session.reader.ahead = shared ++ marker :: tail)
    (there : twin.reader.ahead = shared ++ marker :: other)
    (same : twin = { session with reader := twin.reader }) :
    ∃ twinReached, twin.run context fuel = .ok twinReached
      ∧ twinReached.reader.ahead = marker :: other
      ∧ twinReached = { reached with reader := twinReached.reader } := by
  induction fuel generalizing session twin shared with
  | zero =>
      cases done
      have empty : shared = [] := by simpa using here.symm.trans place
      subst empty
      exact ⟨twin, rfl, there, same⟩
  | succ fuel inductionHypothesis =>
      rw [Session.run_succ] at done ⊢
      obtain ⟨next, stepped, done⟩ := bind_eq_ok done
      have stays : tail.length < next.reader.ahead.length :=
        Nat.lt_of_lt_of_le (place ▸ Nat.lt_succ_self _) (Session.run_suffix context done).length_le
      cases shared with
      | nil =>
          -- the marker itself is read, and cannot be ahead any more
          have passed := (Session.step_suffix context stepped).length_le
          rw [here, List.nil_append, List.tail_cons] at passed
          exact absurd stays (Nat.not_lt_of_le passed)
      | cons token shared =>
          have lockstep := Lockstep.stepBefore context ends sound here there same stepped stays
          rw [stepped] at lockstep
          generalize twin.step context = outcome at lockstep ⊢
          cases lockstep with
          | reached beside =>
              obtain ⟨⟨sharedNext, hereNext, thereNext⟩, sameNext⟩ := beside
              exact inductionHypothesis done (Session.step_sound sound stepped) hereNext thereNext
                sameNext

/-! ### Documents -/

/-- Documents that differ only in text outside script blocks. -/
inductive SameBlocks (text other : String) : Prop
  /-- Lines of a commented document that can hold no script differ. -/
  | lines (commented : Commented text) (commentedToo : Commented other)
      (same : scriptLines text = scriptLines other)
  /-- The tokens before the first start marker differ. -/
  | preface {before beforeToo rest : List String} {marker : String}
      (starts : marker ∈ startMarkers) (silent : Silent before) (silentToo : Silent beforeToo)
      (split : tokens (scriptSource text) = before ++ marker :: rest)
      (splitToo : tokens (scriptSource other) = beforeToo ++ marker :: rest)
  /-- The tokens between an end marker that is reached outside a string and the next start marker,
  or the end, differ. A document that is read whole, for want of a start marker and of comment
  lines, may not become a commented one. -/
  | interlude {fuel : Nat} {reached : Session α} {marker : String}
      {before gap gapToo rest : List String}
      (done : (Session.start context text).run context fuel = .ok reached)
      (outside : reached.openString = none) (ends : marker ∈ endMarkers)
      (place : reached.reader.ahead = marker :: (gap ++ rest))
      (silent : Silent gap) (silentToo : Silent gapToo)
      (split : tokens (scriptSource text) = before ++ marker :: (gap ++ rest))
      (splitToo : tokens (scriptSource other) = before ++ marker :: (gapToo ++ rest))
      (kind : Silent before → Commented other → Commented text)

/-- Documents that differ behind an end marker that is reached start with the same tokens up to
it. -/
theorem interlude_start {text other : String} {fuel : Nat} {reached : Session α} {marker : String}
    {before gap gapToo rest : List String}
    (done : (Session.start context text).run context fuel = .ok reached)
    (ends : marker ∈ endMarkers) (place : reached.reader.ahead = marker :: (gap ++ rest))
    (silent : Silent gap) (silentToo : Silent gapToo)
    (split : tokens (scriptSource text) = before ++ marker :: (gap ++ rest))
    (splitToo : tokens (scriptSource other) = before ++ marker :: (gapToo ++ rest))
    (kind : Silent before → Commented other → Commented text) :
    ∃ shared, (Session.start context text).reader.ahead = shared ++ marker :: (gap ++ rest)
      ∧ (Session.start context other).reader.ahead = shared ++ marker :: (gapToo ++ rest) := by
  have within := (Session.run_suffix context done).length_le
  rw [place, start_ahead, split] at within
  rw [start_ahead, start_ahead, split, splitToo]
  have passed := not_startMarker ends
  by_cases silentBefore : Silent before
  · have skipped : Silent (before ++ marker :: gap) :=
      silent_append.mpr ⟨silentBefore, silent_cons.mpr ⟨passed, silent⟩⟩
    by_cases silentRest : Silent rest
    · -- without a start marker the document is read whole, or the end marker is not reached
      have silentText : Silent (before ++ marker :: (gap ++ rest)) := by
        simp [silent_append, silent_cons, silentBefore, passed, silent, silentRest]
      have silentOther : Silent (before ++ marker :: (gapToo ++ rest)) := by
        simp [silent_append, silent_cons, silentBefore, passed, silentToo, silentRest]
      rw [if_pos silentText] at within
      have whole : ¬Commented text := by
        intro commented
        rw [if_pos commented] at within
        exact absurd within (Nat.not_succ_le_zero _)
      rw [if_pos silentText, if_pos silentOther, if_neg whole,
        if_neg fun commented => whole (kind silentBefore commented)]
      exact ⟨before, rfl, rfl⟩
    · -- reading would start behind the end marker
      exfalso
      have loud : ¬Silent (before ++ marker :: (gap ++ rest)) := fun silentAll => silentRest
        (silent_append.mp (silent_cons.mp (silent_append.mp silentAll).2).2).2
      have behind := resumed_append skipped rest
      rw [List.append_assoc, List.cons_append] at behind
      rw [if_neg loud, behind, List.length_cons, List.length_append] at within
      have shorter := resumed_length_le rest
      omega
  · refine ⟨resumed before, ?_⟩
    rw [if_neg fun silentAll => silentBefore (silent_append.mp silentAll).1,
      if_neg fun silentAll => silentBefore (silent_append.mp silentAll).1,
      resumed_append_of_not_silent silentBefore, resumed_append_of_not_silent silentBefore]
    exact ⟨rfl, rfl⟩

/-- At an end marker outside a string reading goes on behind the next start marker. -/
theorem Session.step_endMarker {marker : String} {tail : List String} (ends : marker ∈ endMarkers)
    (place : session.reader.ahead = marker :: tail) (outside : session.openString = none) :
    ∃ reader : Reader, session.step context = .ok { session with reader := reader }
      ∧ reader.ahead = resumed tail := by
  have word := (by decide : ∀ marker ∈ endMarkers, Command.ofWord? marker = some .scriptEnd
    ∧ (marker.toList.head? == some '\x22') = false) marker ends
  refine ⟨(session.reader.advance.find startMarkers).getD session.reader.advance.finish, ?_, ?_⟩
  · unfold Session.step
    rw [place]
    unfold Session.take
    dsimp only
    rw [outside, word.2]
    exact Session.dispatch_scriptEnd context _ word.1
  · rw [afterBlock_ahead, ahead_advance, place, List.tail_cons]

/-- **Text outside script blocks does not count.** -/
theorem interpret_sameBlocks {text other : String} (same : SameBlocks context text other) :
    interpret context text = interpret context other := by
  cases same with
  | lines commented commentedToo same =>
      have source := scriptSource_congr commented commentedToo same
      refine interpret_eq_of_start context ?_
      rw [start_ahead, start_ahead, source, if_pos commented, if_pos commentedToo]
  | @preface before beforeToo rest marker starts silent silentToo split splitToo =>
      have loud : ∀ tokens, ¬Silent (tokens ++ marker :: rest) := fun tokens silent =>
        (silent_cons.mp (silent_append.mp silent).2).1 starts
      refine interpret_eq_of_start context ?_
      rw [start_ahead, start_ahead, split, splitToo, if_neg (loud before), if_neg (loud beforeToo),
        resumed_append silent, resumed_append silentToo]
  | @interlude fuel reached marker before gap gapToo rest done outside ends place silent
      silentToo split splitToo kind =>
      obtain ⟨shared, here, there⟩ := interlude_start context done ends place silent silentToo
        split splitToo kind
      obtain ⟨twin, twinDone, twinPlace, twinSame⟩ := Session.run_parting context ends done place
        (.start _) here there (start_same context text other)
      have twinOutside : twin.openString = none := by
        rw [twinSame]
        exact outside
      obtain ⟨reader, stepped, ahead⟩ := Session.step_endMarker context ends place outside
      obtain ⟨twinReader, twinStepped, twinAhead⟩ :=
        Session.step_endMarker context ends twinPlace twinOutside
      have beside : Beside Eq { reached with reader := reader } { twin with reader := twinReader } :=
        ⟨by rw [ahead, twinAhead, resumed_append silent, resumed_append silentToo],
          by rw [twinSame]⟩
      obtain ⟨more, room, roomToo⟩ : ∃ more, (Session.start context text).reader.ahead.length ≤ more
          ∧ (Session.start context other).reader.ahead.length ≤ more :=
        ⟨_, Nat.le_max_left _ _, Nat.le_max_right _ _⟩
      have covers := Nat.le_trans room (Nat.le_add_left more (fuel + 1))
      have coversToo := Nat.le_trans roomToo (Nat.le_add_left more (fuel + 1))
      refine interpret_congr context ?_
      rw [readAll_eq_run context covers, readAll_eq_run context coversToo, Nat.add_assoc,
        Nat.add_comm 1 more, Session.run_add, Session.run_add, done, twinDone]
      change Lockstep Eq (reached.run context (more + 1)) (twin.run context (more + 1))
      rw [Session.run_succ, Session.run_succ, stepped, twinStepped]
      exact .run context more beside

end Lockstep

/-- A name line, words before a script and words between two scripts. -/
theorem interpret_sameBlocks_gun :
    let context : Context Float := ⟨.standard, .standard, .standard⟩
    interpret context "#N Gun\n#C [[ AUTOSTART ]]\n3o!"
        = interpret context "#C [[ AUTOSTART ]]\n#O Gosper"
      ∧ interpret context "A gun, STOP 5 [[ AUTOSTART ]]" = interpret context "[[ AUTOSTART ]]"
      ∧ interpret context "[[ AUTOSTART ]] STOP 5 [[ NOREPORT ]]"
        = interpret context "[[ AUTOSTART ]] then [[ NOREPORT ]]" := by
  intro context
  refine ⟨interpret_sameBlocks context (.lines (by decide +kernel) (by decide +kernel)
    (by decide +kernel)), ?_, ?_⟩
  · have split : tokens (scriptSource "A gun, STOP 5 [[ AUTOSTART ]]")
        = ["A", "gun,", "STOP", "5"] ++ "[[" :: ["AUTOSTART", "]]"] := by decide +kernel
    have splitToo : tokens (scriptSource "[[ AUTOSTART ]]") = [] ++ "[[" :: ["AUTOSTART", "]]"] := by
      decide +kernel
    exact interpret_sameBlocks context
      (.preface (by decide) (by decide) (by decide) split splitToo)
  · have split : tokens (scriptSource "[[ AUTOSTART ]] STOP 5 [[ NOREPORT ]]")
        = ["[[", "AUTOSTART"] ++ "]]" :: (["STOP", "5"] ++ ["[[", "NOREPORT", "]]"]) := by
      decide +kernel
    have splitToo : tokens (scriptSource "[[ AUTOSTART ]] then [[ NOREPORT ]]")
        = ["[[", "AUTOSTART"] ++ "]]" :: (["then"] ++ ["[[", "NOREPORT", "]]"]) := by
      decide +kernel
    have done : ∃ reached, (Session.start context "[[ AUTOSTART ]] STOP 5 [[ NOREPORT ]]").run
          context 1 = .ok reached
        ∧ reached.openString = none
        ∧ reached.reader.ahead = "]]" :: (["STOP", "5"] ++ ["[[", "NOREPORT", "]]"]) :=
      ⟨_, rfl, rfl, rfl⟩
    obtain ⟨reached, done, outside, place⟩ := done
    exact interpret_sameBlocks context (.interlude done outside (by decide) place (by decide)
      (by decide) split splitToo (by decide +kernel))

/-- Words behind an end marker in a document that is read whole, and others in a commented one. The
tokens around them are the same, yet the first document moves the view, and in the second, which has
no start marker, nothing is read. -/
theorem interpret_interlude_commented :
    let context : Context Float := ⟨.standard, .standard, .standard⟩
    let text := "X 5 ]] foo"
    let other := "#C X 5 ]] bar"
    let moved (interpretation : Interpretation Float) : Bool :=
      interpretation.timeline.keyframes.first.x == 5
    (∃ reached, (Session.start context text).run context 1 = .ok reached
        ∧ reached.openString = none ∧ reached.reader.ahead = "]]" :: (["foo"] ++ []))
      ∧ "]]" ∈ endMarkers ∧ Silent ["foo"] ∧ Silent ["bar"]
      ∧ tokens (scriptSource text) = ["X", "5"] ++ "]]" :: (["foo"] ++ [])
      ∧ tokens (scriptSource other) = ["X", "5"] ++ "]]" :: (["bar"] ++ [])
      ∧ (interpret context text).toOption.map moved = some true
      ∧ (interpret context other).toOption.map moved = some false
      ∧ interpret context text ≠ interpret context other := by
  intro context text other moved
  have here : (interpret context text).toOption.map moved = some true := by decide +kernel
  have there : (interpret context other).toOption.map moved = some false := by decide +kernel
  have split : tokens (scriptSource text) = ["X", "5"] ++ "]]" :: (["foo"] ++ []) := by
    decide +kernel
  have splitToo : tokens (scriptSource other) = ["X", "5"] ++ "]]" :: (["bar"] ++ []) := by
    decide +kernel
  have place : ((Session.start context text).run context 1).toOption.any (fun reached =>
      reached.openString.isNone && reached.reader.ahead == "]]" :: (["foo"] ++ [])) = true := by
    decide +kernel
  refine ⟨?_, by decide, by decide, by decide, split, splitToo, here, there, fun same => ?_⟩
  · generalize (Session.start context text).run context 1 = outcome at place ⊢
    cases outcome with
    | error fault => cases place
    | ok reached =>
        obtain ⟨outside, ahead⟩ := Bool.and_eq_true_iff.mp place
        exact ⟨reached, rfl, Option.isNone_iff_eq_none.mp outside, beq_iff_eq.mp ahead⟩
  · rw [same, there] at here
    cases here

end Showreel.Script
