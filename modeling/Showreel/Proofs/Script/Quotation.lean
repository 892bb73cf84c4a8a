import Showreel.Proofs.Number.Lawful
import Showreel.Proofs.Script.Blocks
import Showreel.Proofs.Script.Strays
import Showreel.Proofs.Script.Tokens

/-!
Contract: strings come through the tokens of a script as they were written.

Owns:
- words joined by single blanks, and their tokens in quotes;
- text with its comment marks doubled, which comes back from the expansion of variables;
- the session of a script in one block on one line;
- that a title and a message are the words of their string, whatever words they are, and that
  nothing else comes of these.

Does not own: labels, whose text is expanded once more when it is shown.
-/

namespace Showreel.Script

open Number Pattern.Document Text

/-! ### Tokens joined by blanks -/

theorem Spaced.cons_separator {all : List String} {text : List Char} (spaced : Spaced all text)
    {char : Char} (separates : isSeparator char = true) : Spaced all (char :: text) := by
  cases spaced with
  | nil blank => exact .nil (List.forall_mem_cons.mpr ⟨separates, blank⟩)
  | cons blank apart spaced =>
      exact .cons (List.forall_mem_cons.mpr ⟨separates, blank⟩) apart spaced

theorem spaced_intercalate (all : List String) : Spaced all (" ".intercalate all).toList := by
  induction all with
  | nil => exact .nil (List.forall_mem_nil _)
  | cons token others inductionHypothesis =>
      cases others with
      | nil =>
          rw [String.intercalate_singleton, ← List.append_nil token.toList]
          exact .cons (List.forall_mem_nil _) (fun _ impossible => nomatch impossible)
            (.nil (List.forall_mem_nil _))
      | cons next rest =>
          rw [String.intercalate_cons_cons, String.toList_append, String.toList_append,
            List.append_assoc]
          refine .cons (List.forall_mem_nil _) ?_
            (inductionHypothesis.cons_separator (by decide))
          rintro char ⟨⟩
          decide

/-! ### Words in quotes -/

/-- A word of a string: no separator stands in it, and no quote. -/
def IsWord (word : String) : Prop :=
  IsUnbroken word ∧ '\x22' ∉ word.toList

instance (word : String) : Decidable (IsWord word) :=
  inferInstanceAs (Decidable (_ ∧ _))

/-- The tokens of some words, at least one, before a closing quote. -/
def closedWords (word : String) : List String → List String
  | [] => [word ++ "\x22"]
  | next :: others => word :: closedWords next others

theorem closedWords_ne_nil (word : String) (others : List String) :
    closedWords word others ≠ [] := by
  cases others <;> exact List.cons_ne_nil _ _

theorem intercalate_closedWords (word : String) (others : List String) :
    " ".intercalate (closedWords word others) = " ".intercalate (word :: others) ++ "\x22" := by
  induction others generalizing word with
  | nil => rfl
  | cons next rest inductionHypothesis =>
      rw [closedWords, String.intercalate_cons_of_ne_nil (closedWords_ne_nil next rest),
        inductionHypothesis, String.intercalate_cons_cons]
      simp only [String.append_assoc]

theorem isUnbroken_append_quote {word : String}
    (joined : ∀ char ∈ word.toList, isSeparator char = false) : IsUnbroken (word ++ "\x22") := by
  rw [IsUnbroken, String.toList_append]
  exact ⟨List.append_ne_nil_of_right_ne_nil _ (List.cons_ne_nil _ _),
    List.forall_mem_append.mpr ⟨joined, List.forall_mem_singleton.mpr (by decide)⟩⟩

theorem isUnbroken_closedWords {word : String} {others : List String}
    (unbroken : ∀ token ∈ word :: others, IsUnbroken token) :
    ∀ token ∈ closedWords word others, IsUnbroken token := by
  induction others generalizing word with
  | nil =>
      exact List.forall_mem_singleton.mpr
        (isUnbroken_append_quote (unbroken word List.mem_cons_self).2)
  | cons next rest inductionHypothesis =>
      rcases List.forall_mem_cons.mp unbroken with ⟨here, unbrokenRest⟩
      exact List.forall_mem_cons.mpr ⟨here, inductionHypothesis unbrokenRest⟩

/-- Some words, of which the first may be empty. -/
theorem exists_first {words : List String} (sound : ∀ word ∈ words, IsWord word) :
    ∃ word others, " ".intercalate words = " ".intercalate (word :: others)
      ∧ (∀ char ∈ word.toList, isSeparator char = false) ∧ '\x22' ∉ word.toList
      ∧ ∀ other ∈ others, IsWord other := by
  cases words with
  | nil => exact ⟨"", [], by simp, by simp, by simp, List.forall_mem_nil _⟩
  | cons word others =>
      rcases List.forall_mem_cons.mp sound with ⟨⟨⟨-, joined⟩, unquoted⟩, soundOthers⟩
      exact ⟨word, others, rfl, joined, unquoted, soundOthers⟩

theorem closesString_of_not_mem {token : String} (unquoted : '\x22' ∉ token.toList) :
    closesString token = false := by
  unfold closesString
  rw [beq_eq_false_iff_ne]
  exact fun last => unquoted (List.mem_of_getLast? last)

theorem closesString_append_quote (token : String) : closesString (token ++ "\x22") = true := by
  unfold closesString
  rw [String.toList_append]
  simp

theorem dropQuote_append (token : String) :
    Session.dropQuote (token ++ "\x22").toList = token := by
  rw [Session.dropQuote, String.toList_append]
  exact (congrArg String.ofList List.dropLast_concat).trans String.ofList_toList

/-- Words close a string that is open, and are added to it. -/
theorem closes_closedWords {word : String} {others : List String}
    (unquoted : ∀ token ∈ word :: others, '\x22' ∉ token.toList) (before : String) :
    Closes before (closedWords word others)
      (before ++ " " ++ " ".intercalate (word :: others)) := by
  induction others generalizing before word with
  | nil =>
      have closed : Closes before [word ++ "\x22"] _ := .last (closesString_append_quote word)
      rwa [dropQuote_append] at closed
  | cons next rest inductionHypothesis =>
      rcases List.forall_mem_cons.mp unquoted with ⟨plain, unquotedRest⟩
      have closed := inductionHypothesis unquotedRest (before ++ " " ++ word)
      rw [closedWords, String.intercalate_cons_cons]
      refine .more (closesString_of_not_mem plain) ?_
      simpa only [String.append_assoc] using closed

/-- **Words in quotes are one string,** which has the words with single blanks between them. -/
theorem quotes_closedWords {word : String} {others : List String}
    (unquoted : ∀ token ∈ word :: others, '\x22' ∉ token.toList) :
    Quotes (closedWords ("\x22" ++ word) others) (" ".intercalate (word :: others)) := by
  have opens : ∀ token : String, opensString ("\x22" ++ token) = true := by
    intro token
    unfold opensString
    rw [String.toList_append]
    rfl
  have behind : ∀ token : String, ("\x22" ++ token).toList.tail = token.toList := by
    intro token
    rw [String.toList_append]
    rfl
  cases others with
  | nil =>
      have closed : (decide (1 < ("\x22" ++ (word ++ "\x22")).toList.length)
          && closesString ("\x22" ++ (word ++ "\x22"))) = true := by
        rw [← String.append_assoc, closesString_append_quote, Bool.and_true, decide_eq_true_iff]
        simp only [String.toList_append, List.length_append,
          show "\x22".toList.length = 1 from rfl]
        omega
      have quoted := Quotes.one (opens _) closed
      rwa [behind, dropQuote_append, ← String.append_assoc] at quoted
  | cons next rest =>
      rcases List.forall_mem_cons.mp unquoted with ⟨plain, unquotedRest⟩
      refine .several (opens word) ?_ ?_
      · unfold closesString
        rw [String.toList_append]
        cases chars : word.toList with
        | nil => rfl
        | cons char more =>
            have goesOn := closesString_of_not_mem plain
            rw [closesString, chars] at goesOn
            rw [show "\x22".toList = ['\x22'] from rfl, List.singleton_append,
              List.getLast?_cons_cons, goesOn, Bool.and_false]
      · rw [behind, String.ofList_toList, String.intercalate_cons_cons]
        exact closes_closedWords unquotedRest word

theorem Quotes.exists_opens {quoted : List String} {text : String} (quotes : Quotes quoted text) :
    ∃ token rest, quoted = token :: rest ∧ opensString token = true := by
  cases quotes with
  | one opens _ => exact ⟨_, _, rfl, opens⟩
  | several opens _ _ => exact ⟨_, _, rfl, opens⟩

/-! ### Doubled marks -/

/-- A text with its comment marks doubled. -/
def doubledChars (text : List Char) : List Char :=
  text.flatMap fun char => if char = '#' then ['#', '#'] else [char]

def doubled (text : String) : String :=
  String.ofList (doubledChars text.toList)

theorem doubledChars_cons_mark (rest : List Char) :
    doubledChars ('#' :: rest) = '#' :: '#' :: doubledChars rest :=
  rfl

theorem doubledChars_cons_of_ne {char : Char} (plain : char ≠ '#') (rest : List Char) :
    doubledChars (char :: rest) = char :: doubledChars rest := by
  rw [doubledChars, List.flatMap_cons, if_neg plain]
  rfl

theorem head?_doubledChars (text : List Char) : (doubledChars text).head? = text.head? := by
  cases text with
  | nil => rfl
  | cons char rest =>
      by_cases marked : char = '#'
      · subst marked
        rfl
      · rw [doubledChars_cons_of_ne marked]
        rfl

theorem toList_doubled (text : String) : (doubled text).toList = doubledChars text.toList :=
  String.toList_ofList

theorem doubled_append (first second : String) :
    doubled (first ++ second) = doubled first ++ doubled second := by
  apply String.ext
  rw [String.toList_append, toList_doubled, toList_doubled, toList_doubled, String.toList_append,
    doubledChars, List.flatMap_append]
  rfl

theorem doubled_intercalate (words : List String) :
    doubled (" ".intercalate words) = " ".intercalate (words.map doubled) := by
  induction words with
  | nil => rfl
  | cons word others inductionHypothesis =>
      cases others with
      | nil => simp
      | cons next rest =>
          rw [String.intercalate_cons_cons, doubled_append, doubled_append, inductionHypothesis]
          simp only [List.map_cons, String.intercalate_cons_cons]
          rfl

/-- Doubling marks puts no other characters into a text. -/
theorem mem_of_mem_doubled {char : Char} {text : String} (within : char ∈ (doubled text).toList) :
    char ∈ text.toList := by
  rw [toList_doubled, doubledChars, List.mem_flatMap] at within
  obtain ⟨given, member, standing⟩ := within
  have same : char = given := by
    split at standing
    · rename_i mark
      simpa [mark] using standing
    · exact List.mem_singleton.mp standing
  rwa [same]

theorem IsWord.doubled {word : String} (sound : IsWord word) : IsWord (doubled word) := by
  refine ⟨⟨?_, fun char within => sound.1.2 char (mem_of_mem_doubled within)⟩,
    fun quote => sound.2 (mem_of_mem_doubled quote)⟩
  rw [toList_doubled]
  intro none
  have first := head?_doubledChars word.toList
  rw [none] at first
  exact sound.1.1 (List.head?_eq_none_iff.mp first.symm)

theorem expand_cons_of_ne (info : PatternInfo) {char : Char} (plain : char ≠ '#')
    (rest : List Char) : expand info (char :: rest) = char :: expand info rest := by
  rw [expand]
  exact fun _ _ marked => absurd marked plain

/-- Doubled marks are single ones once variables are expanded. -/
theorem expanded_doubled (info : PatternInfo) (text : String) :
    expanded info (doubled text) = text := by
  have restored : ∀ chars : List Char, expand info (doubledChars chars) = chars := by
    intro chars
    induction chars with
    | nil => rfl
    | cons char rest inductionHypothesis =>
        by_cases marked : char = '#'
        · subst marked
          exact congrArg ('#' :: ·) inductionHypothesis
        · rw [doubledChars_cons_of_ne marked, expand_cons_of_ne info marked, inductionHypothesis]
  rw [expanded, toList_doubled, restored, String.ofList_toList]

/-- Whether a line mark, a backslash and an `n`, stands in a text. -/
def HasLineMark (text : String) : Prop :=
  ['\\', 'n'] <:+: text.toList

theorem lineMarks_cons_of_ne {char : Char} (plain : char ≠ '\\') (rest : List Char) :
    lineMarks (char :: rest) = lineMarks rest := by
  rw [lineMarks]
  exact fun _ slash => absurd slash plain

/-- Text without a line mark is one line, also when its comment marks are doubled. -/
theorem lineMarks_doubledChars {text : List Char} (single : ¬['\\', 'n'] <:+: text) :
    lineMarks (doubledChars text) = 0 := by
  induction text with
  | nil => rfl
  | cons char rest inductionHypothesis =>
      have later := inductionHypothesis fun within => single (List.infix_cons within)
      by_cases marked : char = '#'
      · subst marked
        rw [doubledChars_cons_mark, lineMarks_cons_of_ne (by decide),
          lineMarks_cons_of_ne (by decide), later]
      · rw [doubledChars_cons_of_ne marked, lineMarks]
        · exact later
        · rintro others rfl ahead
          have next : rest.head? = some 'n' := by
            rw [← head?_doubledChars, ahead]
            rfl
          obtain ⟨after, rfl⟩ := List.head?_eq_some_iff.mp next
          exact single (List.prefix_append ['\\', 'n'] after).isInfix

/-! ### Scripts in one block -/

/-- The text of a block that gives a string, and its tokens. -/
theorem intercalate_block (opening : List String) (word : String) (others : List String) :
    " ".intercalate ("[[" :: (opening ++ (closedWords ("\x22" ++ word) others ++ ["]]"])))
      = " ".intercalate ("[[" :: opening) ++ " \x22" ++ " ".intercalate (word :: others)
        ++ "\x22 ]]" := by
  have some : closedWords ("\x22" ++ word) others ++ ["]]"] ≠ [] :=
    List.append_ne_nil_of_right_ne_nil _ (List.cons_ne_nil _ _)
  rw [← List.cons_append, String.intercalate_append_of_ne_nil (List.cons_ne_nil _ _) some,
    String.intercalate_append_of_ne_nil (closedWords_ne_nil _ _) (List.cons_ne_nil _ _),
    intercalate_closedWords, String.intercalate_cons_append, String.intercalate_singleton]
  apply String.ext
  simp only [String.toList_append, List.append_assoc]
  rfl

theorem forall_mem_intercalate {holds : Char → Prop} (blank : holds ' ') {all : List String}
    (each : ∀ token ∈ all, ∀ char ∈ token.toList, holds char) :
    ∀ char ∈ (" ".intercalate all).toList, holds char := by
  induction all with
  | nil => exact List.forall_mem_nil _
  | cons token others inductionHypothesis =>
      rcases List.forall_mem_cons.mp each with ⟨here, eachOther⟩
      cases others with
      | nil => rwa [String.intercalate_singleton]
      | cons next rest =>
          rw [String.intercalate_cons_cons, String.toList_append, String.toList_append]
          exact List.forall_mem_append.mpr ⟨List.forall_mem_append.mpr
            ⟨here, List.forall_mem_singleton.mpr blank⟩, inductionHypothesis eachOther⟩

/-- A line end is a separator. -/
theorem isLineEnd_of_not_separator {char : Char} (joined : isSeparator char = false) :
    isLineEnd char = false := by
  have unblank : isBlank char = false := by
    unfold isSeparator at joined
    rw [Bool.or_eq_false_iff, Bool.or_eq_false_iff] at joined
    exact joined.1.1
  unfold isBlank at unblank
  unfold isLineEnd
  simp only [Bool.or_eq_false_iff, decide_eq_false_iff_not, List.contains_eq_mem, List.mem_cons,
    List.not_mem_nil, or_false, not_or] at unblank ⊢
  omega

variable {α : Type} [Scalar α]

/-- The session in front of the tokens of a block that begins a script. -/
def Session.atBlock (context : Context α) (inside : List String) : Session α where
  reader := ⟨["[["], inside⟩
  draft := .start context.settings.maxGridPower
  reported := Array.empty
  commands := 0
  openString := none

/-- A script in one block on one line is read from its first token on. -/
theorem Session.start_block (context : Context α) {inside : List String}
    (unbroken : ∀ token ∈ inside, IsUnbroken token) :
    Session.start context (" ".intercalate ("[[" :: inside)) = .atBlock context inside := by
  have unbrokenAll : ∀ token ∈ "[[" :: inside, IsUnbroken token :=
    List.forall_mem_cons.mpr ⟨by decide, unbroken⟩
  have source : Pattern.Document.scriptSource (" ".intercalate ("[[" :: inside))
      = " ".intercalate ("[[" :: inside) := by
    refine scriptSource_of_not_commented (not_commented_of_single ?_ ?_)
    · exact forall_mem_intercalate (by decide) fun token member char within =>
        isLineEnd_of_not_separator ((unbrokenAll token member).2 char within)
    · cases inside with
      | nil => decide
      | cons token others =>
          rw [String.intercalate_cons_cons, String.toList_append, String.toList_append]
          change some '[' ≠ some '#'
          decide
  have split := tokens_of_unbroken (spaced_intercalate ("[[" :: inside)) unbrokenAll
  unfold Session.start
  dsimp only [Reader.find, Reader.ofText, Reader.ofTokens]
  rw [source, split]
  rfl

/-- A script in one block on one line is finished where its session comes to the end. -/
theorem interpret_block {context : Context α} {inside : List String} {after : Session α}
    (unbroken : ∀ token ∈ inside, IsUnbroken token)
    (comes : Session.Comes context (Session.atBlock context inside) after)
    (ended : after.reader.ahead = []) :
    interpret context (" ".intercalate ("[[" :: inside))
      = after.draft.finish after.finalReport after.commands context.settings context.camera := by
  obtain ⟨steps, ran⟩ := comes
  rw [← Session.start_block context unbroken] at ran
  exact interpret_of_run context ran ended

/-- The draft of a script that has said a title and a message at most. -/
def Draft.saying (power : Int) (title : String) (message : Option (Waypoint.Setting String)) :
    Draft α :=
  { Draft.start power with
    title := title
    current := { Waypoint.blank false with message := message } }

/-- An interpretation with other texts: its title, the message of its first keyframe, and its
reports, from another number of commands. -/
def Interpretation.saying (interpretation : Interpretation α) (title message : String)
    (reported : List Diagnostic) (commands : Nat) : Interpretation α :=
  let chain := interpretation.timeline.keyframes
  { interpretation with
    timeline := { interpretation.timeline with
      keyframes := { chain with first := { chain.first with message := message } }
      diagnostics := reported
      title := title
      commands := commands } }

/-- A script that gives a title or a message comes to these. -/
theorem exists_finish_saying {settings : ViewerSettings α} {gps : α}
    (known : (Scalar.ofInt settings.refreshRate : Except Fault α) = .ok gps) (power : Int)
    (camera : Camera α) :
    ∃ plain : Interpretation α, ∀ (title : String) (message : Option (Waypoint.Setting String))
      (reported : List Diagnostic) (commands : Nat),
      (Draft.saying power title message : Draft α).finish reported commands settings camera
        = .ok (plain.saying title (message.elim "" Waypoint.Setting.value) reported commands) := by
  obtain ⟨plain, done⟩ : ∃ plain, (Draft.start power : Draft α).finish [] 0 settings camera
      = .ok plain := by
    change ∃ plain, ((Scalar.ofInt settings.refreshRate : Except Fault α) >>= _) = .ok plain
    rw [known]
    exact ⟨_, rfl⟩
  refine ⟨plain, fun title message reported commands => ?_⟩
  change ((Scalar.ofInt settings.refreshRate : Except Fault α) >>= _) = .ok plain at done
  rw [known] at done
  cases done
  change ((Scalar.ofInt settings.refreshRate : Except Fault α) >>= _) = _
  rw [known]
  -- each phase of the end adds its reports, and there are none
  have unreported : reported = reported ++ [] ++ [] ++ [] ++ [] ++ [] := by
    simp only [List.append_nil]
  conv => rhs; rw [unreported]
  cases message <;> rfl

/-! ### Titles and messages -/

namespace Session

variable {context : Context α}

/-- A session that has read `TITLE` and waits for its string. -/
def titling (session : Session α) : Session α :=
  { session with
    draft := { session.draft with stringTarget := some .title }
    commands := session.commands + 1 }

theorem step_title {session : Session α} {behind quoted rest : List String} {text : String}
    (here : session.reader = ⟨behind, "TITLE" :: (quoted ++ rest)⟩)
    (outside : session.openString = none) (quotes : Quotes quoted text) :
    session.step context
      = .ok { session.titling with reader := ⟨"TITLE" :: behind, quoted ++ rest⟩ } := by
  obtain ⟨token, others, rfl, opens⟩ := quotes.exists_opens
  rw [List.cons_append] at here ⊢
  have read : (Command.title.read session.draft context.settings.refreshRate "TITLE").run
      ⟨⟨"TITLE" :: behind, token :: (others ++ rest)⟩, []⟩
        = .ok (some .openTitle, ⟨⟨"TITLE" :: behind, token :: (others ++ rest)⟩, []⟩) := by
    change (Read.title "TITLE" : Reading (Option (Statement α))).run _ = _
    rw [Read.title, run_bind_ok run_peek]
    unfold opensString at opens
    rw [if_pos opens]
    rfl
  rw [step_given context here outside (by decide) (by decide) read rfl]
  rfl

/-- A block ends the script that it stands in alone. -/
theorem comes_ended {session : Session α} {behind : List String}
    (outside : session.openString = none) (here : session.reader = ⟨behind, ["]]"]⟩) :
    ∃ reader : Reader, reader.ahead = []
      ∧ Comes context session { session with reader := reader } := by
  obtain ⟨reader, stepped, ahead⟩ := step_endMarker context (by decide : "]]" ∈ endMarkers)
    (congrArg Reader.ahead here) outside
  exact ⟨reader, ahead, comes_of_step stepped⟩

/-- A string at the end of a block is finished, and nothing follows it. -/
theorem comes_closed {session : Session α} {behind quoted : List String} {text : String}
    (outside : session.openString = none) (here : session.reader = ⟨behind, quoted ++ ["]]"]⟩)
    (quotes : Quotes quoted text) :
    ∃ reader : Reader, reader.ahead = []
      ∧ Comes context session { session.finishString context text with reader := reader } := by
  obtain ⟨finished, place, same, comes⟩ : ∃ finished : Session α,
      finished.reader = ⟨quoted.reverse ++ behind, ["]]"]⟩
        ∧ finished = { session.finishString context text with reader := finished.reader }
        ∧ Comes context session finished :=
    ⟨_, rfl, rfl, _, run_quotes quotes outside here⟩
  have outsideThen : finished.openString = none := by
    rw [same]
    rfl
  obtain ⟨reader, ended, comesOn⟩ := comes_ended outsideThen place
  refine ⟨reader, ended, comes.trans ?_⟩
  rw [same] at comesOn
  rwa [same]

/-- A title at the end of a block is finished, and nothing follows it. -/
theorem comes_titled {session : Session α} {behind quoted : List String} {text : String}
    (outside : session.openString = none)
    (here : session.reader = ⟨behind, "TITLE" :: (quoted ++ ["]]"])⟩)
    (quotes : Quotes quoted text) :
    ∃ reader : Reader, reader.ahead = []
      ∧ Comes context session
        { session.titling.finishString context text with reader := reader } := by
  have waits : Comes context session _ := comes_of_step (step_title here outside quotes)
  have outsideThen : Session.openString
      { session.titling with reader := ⟨"TITLE" :: behind, quoted ++ ["]]"]⟩ } = none := outside
  obtain ⟨reader, ended, comes⟩ := comes_closed outsideThen rfl quotes
  exact ⟨reader, ended, waits.trans comes⟩

end Session

theorem Session.atBlock_title (context : Context α) (inside : List String) (text : String) :
    (Session.atBlock context inside).titling.finishString context text
      = { Session.atBlock context inside with
          draft := .saying context.settings.maxGridPower (expanded context.info text) none
          reported := (lineProblems .title text).toArray
          commands := 1 } := by
  have reports : Array.empty ++ (lineProblems .title text ++ []).toArray
      = (lineProblems .title text).toArray := by
    rw [List.append_nil]
    exact Array.empty_append
  rw [← reports]
  rfl

theorem Session.atBlock_message (context : Context α) (inside : List String) (text : String) :
    (Session.atBlock context inside).finishString context text
      = { Session.atBlock context inside with
          draft := .saying context.settings.maxGridPower ""
            (some (.written (expanded context.info text) ("\"" ++ shorten text 20 ++ "\"")))
          reported := (lineProblems .message text).toArray } := by
  have reports : Array.empty ++ (lineProblems .message text).toArray
      = (lineProblems .message text).toArray :=
    Array.empty_append
  rw [← reports]
  rfl

/-- A script that is one title, or one message, of some words has them expanded, and nothing
else comes of it. -/
theorem interpret_quoted {context : Context α} {gps : α}
    (known : (Scalar.ofInt context.settings.refreshRate : Except Fault α) = .ok gps) :
    ∃ plain : Interpretation α, interpret context "[[ ]]" = .ok (plain.saying "" "" [] 0)
      ∧ ∀ words : List String, (∀ word ∈ words, IsWord word) →
        let text := " ".intercalate words
        interpret context ("[[ TITLE \x22" ++ text ++ "\x22 ]]")
            = .ok (plain.saying (expanded context.info text) "" (lineProblems .title text) 1)
          ∧ interpret context ("[[ \x22" ++ text ++ "\x22 ]]")
            = .ok (plain.saying "" (expanded context.info text) (lineProblems .message text)
              0) := by
  obtain ⟨plain, finished⟩ :=
    exists_finish_saying known context.settings.maxGridPower context.camera
  refine ⟨plain, ?_, fun words sound => ?_⟩
  · obtain ⟨reader, ended, comes⟩ := Session.comes_ended rfl
      (rfl : (Session.atBlock context ["]]"]).reader = _)
    rw [show "[[ ]]" = " ".intercalate ["[[", "]]"] by decide,
      interpret_block (by decide) comes ended]
    exact finished "" none [] 0
  obtain ⟨word, others, same, joined, unquoted, sound⟩ := exists_first sound
  rw [same]
  intro text
  let quoted := closedWords ("\x22" ++ word) others
  have quotes : Quotes quoted text := quotes_closedWords
    (List.forall_mem_cons.mpr ⟨unquoted, fun other member => (sound other member).2⟩)
  have unbroken : ∀ token ∈ quoted ++ ["]]"], IsUnbroken token := by
    have first : IsUnbroken ("\x22" ++ word) := by
      rw [IsUnbroken, String.toList_append]
      exact ⟨List.cons_ne_nil _ _, List.forall_mem_cons.mpr ⟨by decide, joined⟩⟩
    exact List.forall_mem_append.mpr ⟨isUnbroken_closedWords (List.forall_mem_cons.mpr
      ⟨first, fun other member => (sound other member).1⟩), by decide⟩
  constructor
  · obtain ⟨reader, ended, comes⟩ := Session.comes_titled rfl
      (rfl : (Session.atBlock context ("TITLE" :: (quoted ++ ["]]"]))).reader = _) quotes
    have written : " ".intercalate ("[[" :: ("TITLE" :: (quoted ++ ["]]"])))
        = "[[ TITLE \x22" ++ text ++ "\x22 ]]" :=
      intercalate_block ["TITLE"] word others
    rw [← written, interpret_block (List.forall_mem_cons.mpr ⟨by decide, unbroken⟩)
      comes ended]
    rw [Session.atBlock_title]
    exact finished (expanded context.info text) none (lineProblems .title text) 1
  · obtain ⟨reader, ended, comes⟩ := Session.comes_closed rfl
      (rfl : (Session.atBlock context (quoted ++ ["]]"])).reader = _) quotes
    have written : " ".intercalate ("[[" :: (quoted ++ ["]]"])) = "[[ \x22" ++ text ++ "\x22 ]]" :=
      intercalate_block [] word others
    rw [← written, interpret_block unbroken comes ended, Session.atBlock_message]
    exact finished "" (some (.written (expanded context.info text)
      ("\"" ++ shorten text 20 ++ "\""))) (lineProblems .message text) 0

/-- **Strings survive being split into tokens.** A script that is one title, or one message, of
some words says these words, whatever they are, and no word comes to anything else. It reports
nothing unless there are too many lines. -/
theorem interpret_sentence {context : Context α} {gps : α}
    (known : (Scalar.ofInt context.settings.refreshRate : Except Fault α) = .ok gps)
    {words : List String} (sound : ∀ word ∈ words, IsWord word) :
    let text := " ".intercalate words
    ∃ plain : Interpretation α, interpret context "[[ ]]" = .ok (plain.saying "" "" [] 0)
      ∧ interpret context ("[[ TITLE \x22" ++ doubled text ++ "\x22 ]]")
        = .ok (plain.saying text "" (lineProblems .title (doubled text)) 1)
      ∧ interpret context ("[[ \x22" ++ doubled text ++ "\x22 ]]")
        = .ok (plain.saying "" text (lineProblems .message (doubled text)) 0)
      ∧ (¬HasLineMark text → ∀ target, lineProblems target (doubled text) = []) := by
  intro text
  obtain ⟨plain, empty, said⟩ := interpret_quoted known
  obtain ⟨title, message⟩ := said (words.map doubled)
    (List.forall_mem_map.mpr fun word member => (sound word member).doubled)
  rw [← doubled_intercalate, expanded_doubled] at title message
  refine ⟨plain, empty, title, message, fun single target => ?_⟩
  have marks : lineMarks (doubled text).toList = 0 := by
    rw [toList_doubled]
    exact lineMarks_doubledChars single
  unfold lineProblems
  rw [marks]
  cases target <;> rfl

/-- Block marks, a command, a number and comment marks are words like others. -/
theorem interpret_sentence_commands :
    let context : Context Float := ⟨.standard, .standard, .standard⟩
    (∃ gps : Float, (Scalar.ofInt context.settings.refreshRate : Except Fault Float) = .ok gps)
      ∧ (∀ word ∈ ["]]", "[[", "TITLE", "5", "#N##"], IsWord word)
      ∧ ¬HasLineMark "]] [[ TITLE 5 #N##"
      ∧ ∃ plain : Interpretation Float, interpret context "[[ ]]" = .ok (plain.saying "" "" [] 0)
        ∧ interpret context "[[ TITLE \"]] [[ TITLE 5 ##N####\" ]]"
          = .ok (plain.saying "]] [[ TITLE 5 #N##" "" [] 1)
        ∧ interpret context "[[ \"]] [[ TITLE 5 ##N####\" ]]"
          = .ok (plain.saying "" "]] [[ TITLE 5 #N##" [] 0) := by
  intro context
  obtain ⟨gps, known⟩ : ∃ gps : Float,
      (Scalar.ofInt context.settings.refreshRate : Except Fault Float) = .ok gps :=
    exists_ofInt_of_small (by decide)
  have sound : ∀ word ∈ ["]]", "[[", "TITLE", "5", "#N##"], IsWord word := by decide
  have single : ¬HasLineMark "]] [[ TITLE 5 #N##" := by
    unfold HasLineMark
    decide
  obtain ⟨plain, empty, title, message, silent⟩ := interpret_sentence known sound
  refine ⟨⟨gps, known⟩, sound, single, plain, empty, ?_, ?_⟩
  · rw [silent single .title] at title
    exact title
  · rw [silent single .message] at message
    exact message

end Showreel.Script
