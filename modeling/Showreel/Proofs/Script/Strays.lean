import Showreel.Proofs.Number.Decimal
import Showreel.Proofs.Script.Session

/-!
Contract: what becomes of the tokens behind a label that is refused.

Owns:
- the tokens of a quoted string, and a run over them;
- tokens that are neither commands nor strings, numbers among them, and a run over them;
- the reading of a label that gives up on one of its operands;
- what a refused label does to the texts of a script: its string is a message.

Does not own: labels that are accepted.
-/

namespace Showreel.Script

open Number Literal Scalar Reading Text

/-! ### Quoted strings -/

def opensString (token : String) : Bool :=
  token.toList.head? == some '\x22'

def closesString (token : String) : Bool :=
  token.toList.getLast? == some '\x22'

/-- Tokens that go on with an open string and close it, with the text before and after them. -/
inductive Closes : String → List String → String → Prop
  | last {text token : String} (closes : closesString token = true) :
      Closes text [token] (text ++ " " ++ Session.dropQuote token.toList)
  | more {text token final : String} {others : List String}
      (goesOn : closesString token = false)
      (closes : Closes (text ++ " " ++ token) others final) : Closes text (token :: others) final

/-- Tokens that are one quoted string, with its text. -/
inductive Quotes : List String → String → Prop
  | one {token : String} (opens : opensString token = true)
      (closed : (decide (1 < token.toList.length) && closesString token) = true) :
      Quotes [token] (Session.dropQuote token.toList.tail)
  | several {token final : String} {others : List String} (opens : opensString token = true)
      (goesOn : (decide (1 < token.toList.length) && closesString token) = false)
      (closes : Closes (String.ofList token.toList.tail) others final) :
      Quotes (token :: others) final

namespace Session

variable {α : Type} [Scalar α] {context : Context α}

theorem step_cons {session : Session α} {behind rest : List String} {token : String}
    (here : session.reader = ⟨behind, token :: rest⟩) :
    session.step context
      = { session with reader := ⟨token :: behind, rest⟩ }.take context token := by
  rw [step, here]
  rfl

theorem take_within {session : Session α} {text : String} (opened : session.openString = some text)
    (token : String) :
    session.take context token = .ok (if closesString token = true
      then session.finishString context (text ++ " " ++ dropQuote token.toList)
      else { session with openString := some (text ++ " " ++ token) }) := by
  rw [take, opened]
  dsimp only
  rw [closesString]
  split <;> rfl

theorem take_opening {session : Session α} {token : String} (outside : session.openString = none)
    (opens : opensString token = true) :
    session.take context token = .ok
      (if (decide (1 < token.toList.length) && closesString token) = true
        then session.finishString context (dropQuote token.toList.tail)
        else { session with openString := some (String.ofList token.toList.tail) }) := by
  unfold opensString at opens
  rw [take, outside]
  dsimp only
  rw [if_pos opens, closesString]
  split <;> rfl

theorem take_command {session : Session α} {token : String} (outside : session.openString = none)
    (plain : opensString token = false) :
    session.take context token = session.dispatch context token := by
  rw [take, outside]
  exact if_neg (Bool.eq_false_iff.mp plain)

/-- A run over the tokens that close an open string finishes it. -/
theorem run_closes {text final : String} {tokens rest : List String}
    (closes : Closes text tokens final) {session : Session α} {behind : List String}
    (opened : session.openString = some text) (here : session.reader = ⟨behind, tokens ++ rest⟩) :
    session.run context tokens.length
      = .ok ({ session with reader := ⟨tokens.reverse ++ behind, rest⟩ }.finishString context
        final) := by
  induction closes generalizing session behind with
  | last closes =>
      rw [List.length_singleton, run_succ, step_cons here, take_within (by exact opened),
        if_pos closes]
      rfl
  | more goesOn closes inductionHypothesis =>
      rw [List.length_cons, run_succ, step_cons here, take_within (by exact opened),
        if_neg (Bool.eq_false_iff.mp goesOn)]
      refine (inductionHypothesis rfl rfl).trans ?_
      rw [List.reverse_cons, List.append_assoc]
      rfl

/-- A run over the tokens of a quoted string finishes it. -/
theorem run_quotes {text : String} {tokens rest : List String} (quotes : Quotes tokens text)
    {session : Session α} {behind : List String} (outside : session.openString = none)
    (here : session.reader = ⟨behind, tokens ++ rest⟩) :
    session.run context tokens.length
      = .ok ({ session with reader := ⟨tokens.reverse ++ behind, rest⟩ }.finishString context
        text) := by
  cases quotes with
  | one opens closed =>
      rw [List.length_singleton, run_succ, step_cons here, take_opening (by exact outside) opens,
        if_pos closed]
      rfl
  | several opens goesOn closes =>
      rw [List.length_cons, run_succ, step_cons here, take_opening (by exact outside) opens,
        if_neg (Bool.eq_false_iff.mp goesOn)]
      refine (run_closes closes rfl rfl).trans ?_
      rw [List.reverse_cons, List.append_assoc]
      rfl

end Session

/-! ### Stray tokens -/

/-- A token that is neither a command nor the beginning of a string. -/
def IsStray (token : String) : Prop :=
  Command.ofWord? token = none ∧ opensString token = false

instance (token : String) : Decidable (IsStray token) :=
  inferInstanceAs (Decidable (_ ∧ _))

namespace Session

variable {α : Type} [Scalar α] {context : Context α}

/-- A run over stray tokens reports each of them, and does nothing else. -/
theorem run_strays {tokens rest : List String} (strays : ∀ token ∈ tokens, IsStray token)
    {session : Session α} {behind : List String} (outside : session.openString = none)
    (here : session.reader = ⟨behind, tokens ++ rest⟩) :
    session.run context tokens.length = .ok { session with
      reader := ⟨tokens.reverse ++ behind, rest⟩
      reported := session.reported
        ++ (tokens.map fun token => (⟨token, .unknownCommand⟩ : Diagnostic)).toArray
      commands := session.commands + tokens.length } := by
  induction tokens generalizing session behind with
  | nil =>
      rcases session with ⟨reader, draft, reported, commands, openString⟩
      cases here
      simp [run]
  | cons token others inductionHypothesis =>
      rw [List.forall_mem_cons] at strays
      obtain ⟨⟨unknown, plain⟩, straysToo⟩ := strays
      rw [List.length_cons, run_succ, step_cons here, take_command (by exact outside) plain,
        dispatch, unknown]
      refine (inductionHypothesis straysToo (by exact outside) rfl).trans ?_
      simp [Nat.add_assoc, Nat.add_comm 1]

end Session

/-! ### Labels that are refused -/

section Refusals

variable {α β γ : Type} [Scalar α] {behind rest : List String} {reported : List Diagnostic}

/-- A reading that gives up on one of some operands: it has passed the first of them over, and
reports why. -/
def GivesUp (reading : Reading (Option β)) (operands behind rest : List String)
    (reported : List Diagnostic) : Prop :=
  ∃ passed left new, passed ++ left = operands
    ∧ reading.run ⟨⟨behind, operands ++ rest⟩, reported⟩
      = .ok (none, ⟨⟨passed.reverse ++ behind, left ++ rest⟩, reported ++ new⟩)

/-- What stops where there is no argument gives up with its first argument. -/
theorem GivesUp.bind {first : Reading (Option β)} {next : Option β → Reading (Option γ)}
    {operands : List String} (more : List String)
    (gives : GivesUp first operands behind (more ++ rest) reported)
    (stops : next none = pure none) :
    GivesUp (first >>= next) (operands ++ more) behind rest reported := by
  obtain ⟨passed, left, new, parts, ran⟩ := gives
  refine ⟨passed, left ++ more, new, ?_, ?_⟩
  · rw [← List.append_assoc, parts]
  · rw [List.append_assoc, run_bind_ok ran, stops, List.append_assoc]
    rfl

/-- What reads one operand and goes on with the others gives up where that does. -/
theorem GivesUp.after {first : Reading β} {next : β → Reading (Option γ)} {token : String}
    {value : β} {more : List String}
    (ran : first.run ⟨⟨behind, token :: (more ++ rest)⟩, reported⟩
      = .ok (value, ⟨⟨token :: behind, more ++ rest⟩, reported⟩))
    (gives : GivesUp (next value) more (token :: behind) rest reported) :
    GivesUp (first >>= next) (token :: more) behind rest reported := by
  obtain ⟨passed, left, new, parts, gaveUp⟩ := gives
  refine ⟨token :: passed, left, new, ?_, ?_⟩
  · rw [List.cons_append, parts]
  · rw [List.cons_append, run_bind_ok ran, gaveUp, List.reverse_cons, List.append_assoc]
    rfl

/-- What is known beforehand takes no operand. -/
theorem GivesUp.known {known : Except Fault β} {next : β → Reading (Option γ)} {value : β}
    {operands : List String} (found : known = .ok value)
    (gives : GivesUp (next value) operands behind rest reported) :
    GivesUp (liftM known >>= next) operands behind rest reported := by
  subst found
  exact gives

/-- What has passed its operand over and then reports has given up. -/
theorem GivesUp.refused {reading : Reading (Option β)} {source token : String} {problem : Problem}
    (ran : reading.run ⟨⟨behind, token :: rest⟩, reported⟩
      = (refuse source problem).run ⟨⟨token :: behind, rest⟩, reported⟩) :
    GivesUp reading [token] behind rest reported :=
  ⟨[token], [], [⟨source, problem⟩], rfl, ran⟩

/-- A missing argument is left where it stands, and a bad one is passed over. -/
theorem givesUp_refuseArgument (source : String) (kind : ArgumentKind) (token : String) :
    GivesUp (refuseArgument source kind : Reading (Option β)) [token] behind rest reported := by
  unfold refuseArgument argumentError
  by_cases missing : (token.isEmpty || isScriptWord token) = true
  · refine ⟨[], [token], [⟨source, .missing .argument⟩], rfl, ?_⟩
    rw [List.singleton_append, bind_assoc, run_bind_ok run_peek, if_pos missing]
    rfl
  · refine ⟨[token], [], [⟨source ++ " " ++ token, .mustBe .argument kind⟩], rfl, ?_⟩
    rw [List.singleton_append, bind_assoc, run_bind_ok run_peek, if_neg missing]
    rfl

/-- Where a number stands it is taken, and where none stands the reading gives up. -/
theorem run_ifNumeric {reading : Reading (Option β)} {next : α → Reading (Option β)}
    {source : String}
    (shape : reading = do
      if ← nextIsNumeric α then (takeNumber : Reading α) >>= next
      else refuseArgument source .numeric)
    (token : String) (behind rest : List String) (reported : List Diagnostic) :
    (∃ value, readToken? token = some value
        ∧ reading.run ⟨⟨behind, token :: rest⟩, reported⟩
          = (next value).run ⟨⟨token :: behind, rest⟩, reported⟩)
      ∨ GivesUp reading [token] behind rest reported := by
  subst shape
  cases read : (readToken? token : Option α) with
  | some value =>
      have numeric : isNumeric α token = true := by
        rw [isNumeric_eq, read]
        rfl
      have taken : (takeNumber : Reading α).run ⟨⟨behind, token :: rest⟩, reported⟩
          = .ok (value, ⟨⟨token :: behind, rest⟩, reported⟩) := run_takeNumber read
      refine .inl ⟨value, rfl, ?_⟩
      rw [run_bind_ok (run_nextIsNumeric token), if_pos numeric, run_bind_ok taken]
  | none =>
      have wordy : isNumeric α token ≠ true := by
        rw [isNumeric_eq, read]
        exact Bool.false_ne_true
      obtain ⟨passed, left, new, parts, ran⟩ : GivesUp
        (refuseArgument source .numeric : Reading (Option β)) [token] behind rest reported :=
        givesUp_refuseArgument ..
      refine .inr ⟨passed, left, new, parts, ?_⟩
      rw [List.singleton_append] at ran ⊢
      rw [run_bind_ok (run_nextIsNumeric token), if_neg wordy, ran]

/-- A number that passes a test is read, and the reading gives up on any other token. -/
theorem run_numberIn (source : String) (inside : α → Bool) (token : String)
    (behind rest : List String) (reported : List Diagnostic) :
    (∃ value, readToken? token = some value ∧ inside value = true
        ∧ (numberIn source inside).run ⟨⟨behind, token :: rest⟩, reported⟩
          = .ok (some value, ⟨⟨token :: behind, rest⟩, reported⟩))
      ∨ GivesUp (numberIn source inside) [token] behind rest reported := by
  obtain ⟨value, read, ran⟩ | gives :=
    run_ifNumeric (numberIn.eq_def source inside) token behind rest reported
  · cases within : inside value with
    | true =>
        rw [if_pos within] at ran
        exact .inl ⟨value, read, within, ran⟩
    | false =>
        rw [if_neg (Bool.eq_false_iff.mp within)] at ran
        exact .inr (.refused ran)
  · exact .inr gives

theorem run_zoom (source token : String) (behind rest : List String) (reported : List Diagnostic) :
    (∃ literal value : α, readToken? token = some literal ∧ magnification literal = some value
        ∧ (Reading.zoom source).run ⟨⟨behind, token :: rest⟩, reported⟩
          = .ok (some value, ⟨⟨token :: behind, rest⟩, reported⟩))
      ∨ GivesUp (Reading.zoom source : Reading (Option α)) [token] behind rest reported := by
  obtain ⟨literal, read, ran⟩ | gives :=
    run_ifNumeric (zoom.eq_def (α := α) source) token behind rest reported
  · cases magnified : magnification literal with
    | some value =>
        rw [magnified] at ran
        exact .inl ⟨literal, value, read, magnified, ran⟩
    | none =>
        rw [magnified] at ran
        exact .inr (.refused ran)
  · exact .inr gives

/-- Whether one of the operands of a label is a number out of its range. -/
def beyondRange (α : Type) [Scalar α] (gridSize : Int) (x y zoom : String) : Bool :=
  (readToken? x : Option α).any (fun value => !isCoordinate gridSize value)
    || (readToken? y : Option α).any (fun value => !isCoordinate gridSize value)
    || (readToken? zoom : Option α).any (fun value => (magnification value).isNone)

/-- The reading of a label gives up where an operand is out of its range. -/
theorem label_givesUp {draft : Draft α} {gridSize : Int} (grid : draft.maxGridSize = .ok gridSize)
    {x y zoom : String} (beyond : beyondRange α gridSize x y zoom = true) (word : String) :
    GivesUp (Read.label draft word) [x, y, zoom] behind rest reported := by
  unfold Read.label
  refine .known grid ?_
  obtain ⟨column, readX, insideX, ranX⟩ | gives :=
    run_numberIn (α := α) word (isCoordinate gridSize) x behind (y :: zoom :: rest) reported
  · refine .after ranX ?_
    obtain ⟨row, readY, insideY, ranY⟩ | gives :=
      run_numberIn (α := α) (word ++ " " ++ plainText column) (isCoordinate gridSize) y
        (x :: behind) (zoom :: rest) reported
    · refine .after ranY ?_
      obtain ⟨literal, value, readZoom, magnified, -⟩ | gives :=
        run_zoom (α := α) (word ++ " " ++ plainText column ++ " " ++ plainText row) zoom
          (y :: x :: behind) rest reported
      · -- then no operand would be out of its range
        rw [beyondRange, readX, readY, readZoom] at beyond
        simp [insideX, insideY, magnified] at beyond
      · exact gives.bind [] rfl
    · exact gives.bind [zoom] rfl
  · exact gives.bind [y, zoom] rfl

end Refusals

/-! ### Numbers among stray tokens -/

/-- A character that begins neither a number nor a word for one. -/
structure IsForeign (mark : Char) : Prop where
  unblank : isNumberBlank mark = false
  plain : plainChar mark = mark
  noDigit : baseDigit? 10 mark = none
  noSign : mark ≠ '-' ∧ mark ≠ '+'
  noPoint : mark ≠ '.'
  noSlash : mark ≠ '/'
  noWord : mark.toLower ≠ 'i' ∧ mark.toLower ≠ 'n'

theorem isForeign_quote : IsForeign '\x22' where
  unblank := by decide
  plain := by decide
  noDigit := by decide
  noSign := by decide
  noPoint := by decide
  noSlash := by decide
  noWord := by decide

namespace IsForeign

variable {mark : Char} {rest : List Char}

/-- The plain form of a text still begins with such a character. -/
theorem exists_plainForm (foreign : IsForeign mark) {text : String}
    (opens : text.toList = mark :: rest) : ∃ inner, plainForm text = mark :: inner := by
  have visible : ¬isNumberBlank mark = true := Bool.eq_false_iff.mp foreign.unblank
  have front : text.toList.dropWhile isNumberBlank = mark :: rest := by
    rw [opens]
    exact List.dropWhile_cons_of_neg visible
  unfold plainForm
  dsimp only
  rw [front, List.reverse_cons, List.dropWhile_append, List.dropWhile_cons_of_neg visible]
  split
  · refine ⟨[], ?_⟩
    rw [List.reverse_singleton, List.map_singleton, foreign.plain]
  · refine ⟨(rest.reverse.dropWhile isNumberBlank).reverse.map plainChar, ?_⟩
    rw [List.reverse_append, List.reverse_singleton, List.singleton_append, List.map_cons,
      foreign.plain]

theorem readDecimal_eq_none (foreign : IsForeign mark) (negative : Bool) :
    readDecimal negative (mark :: rest) = none := by
  have stays : takeDigits 10 false (mark :: rest) = ([], mark :: rest) := by
    rw [takeDigits, foreign.noDigit]
    exact if_neg fun joint => Bool.false_ne_true joint.2.1
  have pointless : takeFraction (mark :: rest) = ([], mark :: rest) := by
    unfold takeFraction
    split
    · rename_i point
      cases point
      exact absurd rfl foreign.noPoint
    · rfl
  rw [readDecimal, stays]
  dsimp only
  rw [pointless]
  exact if_pos ⟨rfl, rfl⟩

/-- What begins with such a character is no number. -/
theorem read?_eq_none (foreign : IsForeign mark) {text : String}
    (opens : text.toList = mark :: rest) : Literal.read? text = none := by
  obtain ⟨inner, plain⟩ := foreign.exists_plainForm opens
  have words : ∀ {word : List Char} {first : Char}, word.head? = some first →
      mark.toLower ≠ first → (mark :: inner).map Char.toLower ≠ word := by
    rintro _ first begins other rfl
    exact other (Option.some.inj begins)
  have bounded : ¬((mark :: inner).map Char.toLower = "inf".toList
      ∨ (mark :: inner).map Char.toLower = "infinity".toList) :=
    not_or.mpr ⟨words (by decide) foreign.noWord.1, words (by decide) foreign.noWord.1⟩
  have defined : (mark :: inner).map Char.toLower ≠ "nan".toList :=
    words (by decide) foreign.noWord.2
  unfold read?
  rw [plain, takeSign_unsigned foreign.noSign]
  dsimp only
  rw [if_neg bounded, if_neg defined, foreign.readDecimal_eq_none]

theorem isNumeric {α : Type} [Scalar α] (foreign : IsForeign mark) {token : String}
    (opens : token.toList = mark :: rest) : isNumeric α token = false := by
  have left : ∀ left right, slashParts token = some (left, right) → Literal.read? left = none := by
    intro left right parts
    unfold slashParts at parts
    dsimp only at parts
    split at parts
    · cases parts
    · cases parts
      have stillOpens : (String.ofList (token.toList.takeWhile (· != '/'))).toList
          = mark :: rest.takeWhile (· != '/') := by
        rw [String.toList_ofList, opens]
        exact List.takeWhile_cons_of_pos (bne_iff_ne.mpr foreign.noSlash)
      exact foreign.read?_eq_none stillOpens
  rw [isNumeric_eq]
  unfold readToken? readFinite? readFraction?
  rw [foreign.read?_eq_none opens]
  cases parts : slashParts token with
  | none => rfl
  | some pair =>
      obtain ⟨first, second⟩ := pair
      simp [readFinite?, left first second parts]

end IsForeign

theorem isNumeric_of_opens {α : Type} [Scalar α] {token : String}
    (opens : opensString token = true) : isNumeric α token = false := by
  obtain ⟨rest, opens⟩ := List.head?_eq_some_iff.mp (beq_iff_eq.mp opens)
  exact isForeign_quote.isNumeric opens

/-- A numeric token is neither a command nor the beginning of a string. -/
theorem isStray_of_numeric {α : Type} [Scalar α] {token : String}
    (numeric : isNumeric α token = true) : IsStray token := by
  refine ⟨?_, Bool.eq_false_iff.mpr fun opens => ?_⟩
  · cases known : Command.ofWord? token with
    | none => rfl
    | some command =>
        have words : ∀ entry ∈ Command.words,
            Literal.read? entry.1 = none ∧ slashParts entry.1 = none := by
          decide +kernel
        obtain ⟨earlier, later, listed, -⟩ := List.lookup_eq_some_iff.mp known
        have member : (token, command) ∈ Command.words := by
          rw [listed]
          exact List.mem_append_right _ List.mem_cons_self
        obtain ⟨unread, whole⟩ := words _ member
        rw [isNumeric_of_unread unread whole] at numeric
        cases numeric
  · rw [isNumeric_of_opens opens] at numeric
    cases numeric

/-! ### The texts of a script -/

section Texts

variable {α : Type}

/-- Drafts with the same labels, the same title, and the same messages. -/
structure Draft.SameTexts (before after : Draft α) : Prop where
  labels : after.labels = before.labels
  title : after.title = before.title
  message : after.current.message = before.current.message
  waypoints : after.waypoints.map Waypoint.message = before.waypoints.map Waypoint.message
  pois : after.pois.map Waypoint.message = before.pois.map Waypoint.message

/-- Whether a string that is finished stands where it belongs already. -/
def Draft.Holds (draft : Draft α) (info : PatternInfo) (text : String) : Prop :=
  match draft.stringTarget.getD .message, draft.pendingLabel with
  | .title, _ => draft.title = expanded info text
  | .label, some _ => False
  | _, _ =>
      draft.current.message
        = some (.written (expanded info text) ("\"" ++ shorten text 20 ++ "\""))

theorem Draft.sameTexts_finishString_iff (draft : Draft α) (info : PatternInfo) (text : String) :
    draft.SameTexts (draft.finishString info text).1 ↔ draft.Holds info text := by
  unfold finishString Holds
  cases draft.stringTarget.getD .message with
  | title => exact ⟨fun same => same.title.symm, fun held => ⟨rfl, held.symm, rfl, rfl, rfl⟩⟩
  | message => exact ⟨fun same => same.message.symm, fun held => ⟨rfl, rfl, held.symm, rfl, rfl⟩⟩
  | label =>
      cases draft.pendingLabel with
      | some item =>
          refine ⟨fun same => ?_, False.elim⟩
          have size := congrArg Array.size same.labels
          rw [Array.size_push] at size
          omega
      | none => exact ⟨fun same => same.message.symm, fun held => ⟨rfl, rfl, held.symm, rfl, rfl⟩⟩

end Texts

namespace Session

variable {α : Type} [Scalar α]

/-- A command that gives no statement leaves its reports. -/
theorem step_withheld (context : Context α) {session : Session α} {behind tail : List String}
    {word : String} {command : Command} {scan : Scan}
    (here : session.reader = ⟨behind, word :: tail⟩) (outside : session.openString = none)
    (plain : opensString word = false) (known : Command.ofWord? word = some command)
    (read : (command.read session.draft context.settings.refreshRate word).run
      ⟨⟨word :: behind, tail⟩, []⟩ = .ok (none, scan)) :
    session.step context = .ok (session.afterReading command scan) := by
  rw [step_cons here, take_command (by exact outside) plain, dispatch_eq context _ known]
  change ((command.read session.draft context.settings.refreshRate word).run
    ⟨⟨word :: behind, tail⟩, []⟩ >>= _) = _
  rw [read]
  rfl

/-- A command that gives a statement carries it out. -/
theorem step_given (context : Context α) {session : Session α} {behind tail : List String}
    {word : String} {command : Command} {statement : Statement α} {scan : Scan}
    {outcome : Outcome α} (here : session.reader = ⟨behind, word :: tail⟩)
    (outside : session.openString = none) (plain : opensString word = false)
    (known : Command.ofWord? word = some command)
    (read : (command.read session.draft context.settings.refreshRate word).run
      ⟨⟨word :: behind, tail⟩, []⟩ = .ok (some statement, scan))
    (performed : session.draft.perform statement = .ok outcome) :
    session.step context = .ok { session.afterReading command scan with
      draft := outcome.draft
      reported := (session.afterReading command scan).reported ++ outcome.reported.toArray } := by
  rw [step_cons here, take_command (by exact outside) plain, dispatch_eq context _ known]
  change ((command.read session.draft context.settings.refreshRate word).run
    ⟨⟨word :: behind, tail⟩, []⟩ >>= _) = _
  rw [read]
  change (session.draft.perform statement).map _ = _
  rw [performed]
  rfl

/-- A session that a run of some steps comes to from another one. -/
def Comes (context : Context α) (session after : Session α) : Prop :=
  ∃ steps, session.run context steps = .ok after

theorem Comes.trans {context : Context α} {first second third : Session α}
    (earlier : Comes context first second) (later : Comes context second third) :
    Comes context first third := by
  obtain ⟨steps, ran⟩ := earlier
  obtain ⟨more, ranOn⟩ := later
  exact ⟨steps + more, by rw [run_add, ran]; exact ranOn⟩

theorem comes_of_step {context : Context α} {session after : Session α}
    (stepped : session.step context = .ok after) : Comes context session after :=
  ⟨1, by rw [run_succ, stepped]; rfl⟩

/-- **The string of a refused label is a message.** -/
theorem run_refusedLabel (context : Context α) {session : Session α}
    (outside : session.openString = none) {gridSize : Int}
    (grid : session.draft.maxGridSize = .ok gridSize) {x y zoom : String}
    (operands : ∀ token ∈ [x, y, zoom], isNumeric α token = true ∨ IsStray token)
    (beyond : beyondRange α gridSize x y zoom = true) {fixed : List String}
    (placed : fixed = [] ∨ fixed = ["FIXED"]) {quoted : List String} {text : String}
    (quotes : Quotes quoted text) {behind rest : List String}
    (here : session.reader = ⟨behind, ["LABEL", x, y, zoom] ++ fixed ++ quoted ++ rest⟩) :
    ∃ after, Comes context session after
      ∧ after = { session with
          reader := ⟨(["LABEL", x, y, zoom] ++ fixed ++ quoted).reverse ++ behind, rest⟩
          draft := (session.draft.finishString context.info text).1
          reported := after.reported
          commands := after.commands }
      ∧ (session.draft.SameTexts after.draft ↔ session.draft.Holds context.info text) := by
  obtain ⟨passed, left, new, parts, ran⟩ : GivesUp (Read.label session.draft "LABEL") [x, y, zoom]
    ("LABEL" :: behind) (fixed ++ quoted ++ rest) [] := label_givesUp grid beyond "LABEL"
  have strays : ∀ token ∈ left ++ fixed, IsStray token := by
    rw [List.forall_mem_append]
    refine ⟨fun token member => ?_, ?_⟩
    · have operand : token ∈ [x, y, zoom] := parts ▸ List.mem_append_right passed member
      exact (operands token operand).elim isStray_of_numeric id
    · rcases placed with rfl | rfl
      · exact List.forall_mem_nil _
      · decide
  let refused := session.afterReading .label
    ⟨⟨passed.reverse ++ "LABEL" :: behind, left ++ (fixed ++ quoted ++ rest)⟩, [] ++ new⟩
  have refuses : Comes context session refused := by
    refine comes_of_step (step_withheld context ?_ outside (by decide) (by decide) ran)
    simpa using here
  let strayed : Session α := { refused with
    reader := ⟨(left ++ fixed).reverse ++ (passed.reverse ++ "LABEL" :: behind), quoted ++ rest⟩
    reported := refused.reported
      ++ ((left ++ fixed).map fun token => (⟨token, .unknownCommand⟩ : Diagnostic)).toArray
    commands := refused.commands + (left ++ fixed).length }
  have strays : Comes context refused strayed := by
    refine ⟨_, run_strays strays outside ?_⟩
    simp [refused, afterReading]
  have finishes : Comes context strayed _ := ⟨_, run_quotes quotes outside rfl⟩
  refine ⟨_, (refuses.trans strays).trans finishes, ?_,
    session.draft.sameTexts_finishString_iff context.info text⟩
  have place : (["LABEL", x, y, zoom] ++ fixed ++ quoted).reverse ++ behind
      = quoted.reverse ++ ((left ++ fixed).reverse ++ (passed.reverse ++ "LABEL" :: behind)) := by
    rw [show ["LABEL", x, y, zoom] = "LABEL" :: (passed ++ left) from parts ▸ rfl]
    simp
  rw [place, outside]
  rfl

/-- A label at a zoom that is out of range, with a string in two tokens. -/
theorem run_refusedLabel_zoom :
    let context : Context Float := ⟨.standard, .standard, .standard⟩
    let session := start context "[[ LABEL 0 7 100 FIXED \"two words\" ]]"
    let operands := ["LABEL", "0", "7", "100"] ++ ["FIXED"]
    let quoted := ["\"two", "words\""]
    session.openString = none ∧ session.draft.maxGridSize = .ok 4096
      ∧ beyondRange Float 4096 "0" "7" "100" = true ∧ Quotes quoted "two words"
      ∧ session.reader = ⟨["[["], operands ++ quoted ++ ["]]"]⟩
      ∧ ∃ after, Comes context session after ∧ after.reader.ahead = ["]]"]
        ∧ after.draft.current.message = some (.written "two words" "\"two words\"")
        ∧ ¬session.draft.SameTexts after.draft := by
  intro context session operands quoted
  have outside : session.openString = none := rfl
  have grid : session.draft.maxGridSize = .ok 4096 := rfl
  have beyond : beyondRange Float 4096 "0" "7" "100" = true := by decide +kernel
  have quotes : Quotes quoted "two words" := .several (by decide) (by decide) (.last (by decide))
  have here : session.reader = ⟨["[["], operands ++ quoted ++ ["]]"]⟩ := by decide
  have strays : ∀ token ∈ ["0", "7", "100"], isNumeric Float token = true ∨ IsStray token := by
    decide
  obtain ⟨after, comes, done, same⟩ :=
    run_refusedLabel context outside grid strays beyond (.inr rfl) quotes here
  refine ⟨outside, grid, beyond, quotes, here, after, comes, ?_, ?_, ?_⟩
  · rw [done]
  · rw [done]
    have text : expanded context.info "two words" = "two words" := by decide
    have source : "\"" ++ shorten "two words" 20 ++ "\"" = "\"two words\"" := by decide
    exact congrArg some (congr (congrArg Waypoint.Setting.written text) source)
  · rw [same]
    -- no string has been finished before
    exact fun held => nomatch (held : none = some _)

/-- The string of a label at a place off the grid becomes the message of the first waypoint. -/
theorem run_refusedLabel_message :
    let context : Context Float := ⟨.standard, .standard, .standard⟩
    let session := start context "[[ LABEL 99999 0 1 \"gone\" ]]"
    session.openString = none ∧ session.draft.maxGridSize = .ok 4096
      ∧ beyondRange Float 4096 "99999" "0" "1" = true
      ∧ session.reader.ahead = ["LABEL", "99999", "0", "1", "\"gone\"", "]]"]
      ∧ ∃ after, session.run context 4 = .ok after ∧ after.reader.ahead = ["]]"]
        ∧ ¬session.draft.SameTexts after.draft := by
  intro context session
  have checked : (session.run context 4).toOption.any (fun after =>
      after.reader.ahead == ["]]"]
        && after.draft.current.message.map Waypoint.Setting.value == some "gone"
        && session.draft.current.message.isNone) = true := by
    decide +kernel
  refine ⟨rfl, rfl, by decide +kernel, by decide, ?_⟩
  generalize session.run context 4 = outcome at checked ⊢
  cases outcome with
  | error fault => cases checked
  | ok after =>
      simp only [Except.toOption, Option.any_some, Bool.and_eq_true, beq_iff_eq] at checked
      obtain ⟨⟨place, gone⟩, silent⟩ := checked
      refine ⟨after, rfl, place, fun same => ?_⟩
      rw [same.message, Option.isNone_iff_eq_none.mp silent] at gone
      cases gone

end Session

end Showreel.Script
