import Mathlib.Data.Char
import Mathlib.Data.List.Infix
import Showreel.Pattern.RunLength

/-!
Contract: the prefixes of states in text that has a pattern.

Owns:
- what reading asks of the characters behind a prefix;
- that every prefix of a text with a pattern is followed by a letter that it fits or by a cell of
  the first state, with no more than digits between them;
- when all prefixes of such a text are followed by a letter at once.

Does not own: what the items of a text draw.

Reading looks at an open prefix where a letter or a mark comes, and not at a digit; and the first
state has a mark of its own, whose prefix is dropped.
-/

namespace Showreel.Pattern.RunLength

/-- Whether a character is a prefix. -/
def IsGroup (char : Char) : Prop :=
  'p' ≤ char ∧ char ≤ 'y'

/-- Whether a character is the letter of a state. -/
def IsLetter (char : Char) : Prop :=
  'A' ≤ char ∧ char ≤ 'X'

instance : DecidablePred IsGroup := fun char => inferInstanceAs (Decidable (_ ≤ char ∧ _))

instance : DecidablePred IsLetter := fun char => inferInstanceAs (Decidable (_ ≤ char ∧ _))

/-- How many states a prefix adds. -/
def offsetOf (group : Char) : Nat :=
  (group.toNat - 'p'.toNat + 1) * 24

/-- Whether a letter has a state when so many states are added to its own. -/
def Fits (offset : Nat) (letter : Char) : Prop :=
  IsLetter letter ∧ letter.toNat - 'A'.toNat + 1 + offset ≤ 255

/-- A text up to the first mark that ends a pattern. -/
def beforeEnd (text : List Char) : List Char :=
  text.takeWhile (· != '!')

/-- What a pattern is read from: the text without its blanks, up to the mark that ends it. -/
def patternPart (text : List Char) : List Char :=
  beforeEnd (text.filter fun char => !Text.isBlank char)

/-- Every prefix of a text is followed at once by a letter that it fits. -/
def PrefixesJoined (text : List Char) : Prop :=
  ∀ group rest, (group :: rest) <:+ patternPart text → IsGroup group →
    ∃ letter after, rest = letter :: after ∧ Fits (offsetOf group) letter

/-- What takes an open prefix: after any digits a letter that fits, or a cell of the first
state. -/
def Takes (offset : Nat) (text : List Char) : Prop :=
  ∃ digits taker after, text = digits ++ taker :: after ∧ (∀ digit ∈ digits, digit.isDigit = true)
    ∧ (taker = 'o' ∨ Fits offset taker)

theorem Takes.digit {offset : Nat} {digit : Char} {text : List Char}
    (isDigit : digit.isDigit = true)
    (takes : Takes offset text) : Takes offset (digit :: text) := by
  rcases takes with ⟨digits, taker, after, rfl, all, fits⟩
  exact ⟨digit :: digits, taker, after, rfl, List.forall_mem_cons.mpr ⟨isDigit, all⟩, fits⟩

/-! ### Reading one character -/

/-- How reading goes on behind a character of a text that has a pattern. -/
inductive Reads (count : Count) (offset : Nat) (char : Char) (rest : List Char) : Prop
  | digit (isDigit : char.isDigit = true) {items : List Item}
      (read : readItems (count.push char) offset rest = .ok (some items))
  | group (isGroup : IsGroup char) (closed : offset = 0) {items : List Item}
      (read : readItems count (offsetOf char) rest = .ok (some items))
  | ending (ends : char = '!') (closed : offset = 0)
  | item (plain : ¬IsGroup char) (taken : offset = 0 ∨ char = 'o' ∨ Fits offset char)
      {items : List Item} (read : readItems .none 0 rest = .ok (some items))

theorem lt_of_isDigit {char : Char} (isDigit : char.isDigit = true) : char < 'A' := by
  simp only [Char.isDigit, Bool.and_eq_true, decide_eq_true_eq] at isDigit
  have atMost : char ≤ '9' := isDigit.2
  exact lt_of_le_of_lt atMost (by decide)

theorem not_isLetter_of_isDigit {char : Char} (isDigit : char.isDigit = true) : ¬IsLetter char :=
  fun letter => (lt_of_isDigit isDigit).not_ge letter.1

theorem not_isGroup_of_isDigit {char : Char} (isDigit : char.isDigit = true) : ¬IsGroup char :=
  fun group => (lt_of_isDigit isDigit).not_ge (le_trans (by decide) group.1)

theorem beforeEnd_cons {char : Char} (goesOn : char ≠ '!') (rest : List Char) :
    beforeEnd (char :: rest) = char :: beforeEnd rest :=
  List.takeWhile_cons_of_pos (p := (· != '!')) (bne_iff_ne.mpr goesOn)

/-- What a letter or a mark asks of the prefix before it. -/
theorem taken_of_itemOf {run offset : Nat} {char : Char} {item : Item}
    (found : itemOf? run offset char = some item) :
    offset = 0 ∨ char = 'o' ∨ Fits offset char := by
  unfold itemOf? at found
  split at found
  case isTrue alive => exact .inr (.inl alive)
  case isFalse =>
    split at found
    case isTrue letter =>
      dsimp only at found
      split_ifs at found with low
      exact .inr (.inr ⟨letter, low⟩)
    case isFalse =>
      split at found
      case isTrue => cases found
      case isFalse closed => exact .inl (not_not.mp closed)

theorem reads_of_readItems {count : Count} {offset : Nat} {char : Char} {rest : List Char}
    {items : List Item} (read : readItems count offset (char :: rest) = .ok (some items)) :
    Reads count offset char rest := by
  unfold readItems at read
  split at read
  case isTrue isDigit => exact .digit isDigit read
  case isFalse =>
    split at read
    case isTrue isGroup =>
      split at read
      case isTrue closed => exact .group isGroup closed read
      case isFalse => cases read
    case isFalse plain =>
      cases counted : count.run with
      | error fault =>
          rw [counted] at read
          cases read
      | ok run =>
          rw [counted] at read
          change (if char = '!' then _ else _) = _ at read
          split at read
          case isTrue ends =>
            refine .ending ends ?_
            by_contra unclosed
            rw [if_neg unclosed] at read
            cases read
          case isFalse =>
            cases found : itemOf? run offset char with
            | none =>
                rw [found] at read
                cases read
            | some item =>
                rw [found] at read
                cases others : readItems .none 0 rest with
                | error fault =>
                    rw [others] at read
                    cases read
                | ok more =>
                    cases more with
                    | none =>
                        rw [others] at read
                        cases read
                    | some more => exact .item plain (taken_of_itemOf found) others

/-! ### Reading a text -/

/-- A text that is read takes the prefix that is open before it. -/
theorem takes_of_readItems {count : Count} {offset : Nat} {text : List Char} {items : List Item}
    (read : readItems count offset text = .ok (some items)) (unclosed : offset ≠ 0) :
    Takes offset (beforeEnd text) := by
  induction text generalizing count items with
  | nil =>
      have closed : count.digits = 0 ∧ offset = 0 := by
        by_contra still
        rw [readItems, if_neg still] at read
        cases read
      exact absurd closed.2 unclosed
  | cons char rest inductionHypothesis =>
      cases reads_of_readItems read with
      | digit isDigit more =>
          have goesOn : char ≠ '!' := by
            rintro rfl
            exact absurd isDigit (by decide)
          rw [beforeEnd_cons goesOn]
          exact (inductionHypothesis more).digit isDigit
      | group isGroup closed => exact absurd closed unclosed
      | ending ends closed => exact absurd closed unclosed
      | item _ taken =>
          have fits : char = 'o' ∨ Fits offset char := taken.resolve_left unclosed
          have goesOn : char ≠ '!' := by
            rintro rfl
            rcases fits with alive | ⟨⟨low, -⟩, -⟩
            · exact absurd alive (by decide)
            · exact absurd low (by decide)
          rw [beforeEnd_cons goesOn]
          exact ⟨[], char, _, rfl, nofun, fits⟩

/-- **In a text that is read every prefix is taken.** -/
theorem takes_of_suffix {count : Count} {offset : Nat} {text : List Char} {items : List Item}
    (read : readItems count offset text = .ok (some items)) {group : Char} {rest : List Char}
    (within : (group :: rest) <:+ beforeEnd text) (isGroup : IsGroup group) :
    Takes (offsetOf group) rest := by
  induction text generalizing count offset items with
  | nil => cases List.eq_nil_of_suffix_nil within
  | cons char others inductionHypothesis =>
      by_cases ends : char = '!'
      · subst ends
        cases List.eq_nil_of_suffix_nil within
      · rw [beforeEnd_cons ends, List.suffix_cons_iff] at within
        -- either the prefix is the first character, or it stands in what is read behind it
        rcases within with first | later
        · obtain ⟨rfl, rfl⟩ := List.cons.inj first
          cases reads_of_readItems read with
          | digit isDigit => exact absurd isGroup (not_isGroup_of_isDigit isDigit)
          | group _ _ more => exact takes_of_readItems more (Nat.mul_ne_zero nofun nofun)
          | ending ended => exact absurd ended ends
          | item plain => exact absurd isGroup plain
        · cases reads_of_readItems read with
          | digit _ more => exact inductionHypothesis more later
          | group _ _ more => exact inductionHypothesis more later
          | ending ended => exact absurd ended ends
          | item _ _ more => exact inductionHypothesis more later

/-- Text with a pattern is read as items. -/
theorem readItems_of_decode {text : List Char} {cells : Cells}
    (decoded : decode text = .ok (some cells)) :
    ∃ items, readItems .none 0 (text.filter fun char => !Text.isBlank char) = .ok (some items) := by
  unfold decode at decoded
  dsimp only at decoded
  split at decoded
  case isTrue => cases decoded
  case isFalse =>
    cases read : readItems .none 0 (text.filter fun char => !Text.isBlank char) with
    | error fault =>
        rw [read] at decoded
        cases decoded
    | ok found =>
        cases found with
        | none =>
            rw [read] at decoded
            cases decoded
        | some items => exact ⟨items, rfl⟩

theorem exists_cells (text : List Char) (checked : (decode text).toOption.join.isSome = true) :
    ∃ cells, decode text = .ok (some cells) := by
  obtain ⟨cells, found⟩ := Option.isSome_iff_exists.mp checked
  cases decoded : decode text with
  | error fault =>
      rw [decoded] at found
      cases found
  | ok answer =>
      rw [decoded] at found
      exact ⟨cells, congrArg Except.ok found⟩

/-- **A prefix is accepted in front of a letter that it fits, and of two things more.** Let a text
have a pattern. Behind each of its prefixes comes such a letter, or a cell of the first state, with
nothing but digits between them. So all prefixes are joined to their letters exactly if none has a
digit or a cell of the first state right behind it. -/
theorem decode_prefixes {text : List Char} {cells : Cells}
    (decoded : decode text = .ok (some cells)) :
    (∀ group rest, (group :: rest) <:+ patternPart text → IsGroup group →
        Takes (offsetOf group) rest)
      ∧ (PrefixesJoined text ↔
        ∀ group next rest, (group :: next :: rest) <:+ patternPart text → IsGroup group →
          next.isDigit = false ∧ next ≠ 'o') := by
  obtain ⟨items, read⟩ := readItems_of_decode decoded
  have taken : ∀ group rest, (group :: rest) <:+ patternPart text → IsGroup group →
      Takes (offsetOf group) rest := fun _ _ within isGroup => takes_of_suffix read within isGroup
  refine ⟨taken, ?_, ?_⟩
  · intro joined group next rest within isGroup
    obtain ⟨letter, after, same, isLetter, -⟩ := joined group _ within isGroup
    obtain ⟨rfl, rfl⟩ := List.cons.inj same
    refine ⟨Bool.eq_false_iff.mpr fun isDigit => not_isLetter_of_isDigit isDigit isLetter, ?_⟩
    rintro rfl
    exact absurd isLetter.2 (by decide)
  · intro apart group rest within isGroup
    obtain ⟨digits, taker, after, rfl, all, fits⟩ := taken group rest within isGroup
    cases digits with
    | nil =>
        have notAlive := (apart group taker after within isGroup).2
        exact ⟨taker, after, rfl, fits.resolve_left notAlive⟩
    | cons digit digits =>
        have notDigit := (apart group digit _ within isGroup).1
        rw [(List.forall_mem_cons.mp all).1] at notDigit
        cases notDigit

/-- Two prefixes that are joined to their letters, one with a count before it and one with a blank
behind it; what follows the end of the pattern is not looked at. -/
theorem decode_prefixes_joined :
    let text := "$2pXb y\nO! q".toList
    ∃ cells, decode text = .ok (some cells) ∧ PrefixesJoined text := by
  intro text
  obtain ⟨cells, decoded⟩ := exists_cells text (by decide +kernel)
  have apart : ∀ tail ∈ (patternPart text).tails, IsGroup (tail.headD ' ') →
      (tail.tail.headD ' ').isDigit = false ∧ tail.tail.headD ' ' ≠ 'o' := by
    decide +kernel
  refine ⟨cells, decoded, (decode_prefixes decoded).2.mpr ?_⟩
  intro group next rest within isGroup
  exact apart _ ((List.mem_tails _ _).mpr within) isGroup

/-- A prefix of a cell of the first state is dropped, and one in front of a count is kept for the
letter behind it. -/
theorem decode_prefix_apart :
    (∃ cells, decode "po!".toList = .ok (some cells)) ∧ ¬PrefixesJoined "po!".toList
      ∧ (∃ cells, decode "p3A!".toList = .ok (some cells)) ∧ ¬PrefixesJoined "p3A!".toList := by
  have apart : ∀ {text : List Char} {next : Char} {rest : List Char},
      patternPart text = 'p' :: next :: rest → ¬IsLetter next → ¬PrefixesJoined text := by
    intro text next rest spelt other joined
    obtain ⟨letter, after, same, isLetter, -⟩ :=
      joined 'p' (next :: rest) (spelt ▸ List.suffix_rfl) (by decide)
    exact other ((List.cons.inj same).1 ▸ isLetter)
  exact ⟨exists_cells _ (by decide +kernel), apart (by rfl) (by decide),
    exists_cells _ (by decide +kernel), apart (by rfl) (by decide)⟩

end Showreel.Pattern.RunLength
