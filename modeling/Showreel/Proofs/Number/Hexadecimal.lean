import Showreel.Proofs.Number.Decimal

/-!
Contract: the texts that are whole numbers in base sixteen.

Owns:
- the digits of the base, and digits with underscores between them;
- signs and marks of the base, blanks around a number, and digits of other scripts;
- that a text is read as a number exactly if it is one of these.

Does not own: what the numbers are for.
-/

namespace Showreel.Number.Literal

open Text

/-! ### Digits -/

/-- The digits of base sixteen with their values, letters of either case among them. -/
def hexDigits : List (Char × Nat) :=
  "0123456789abcdef".toList.zipIdx ++ "ABCDEF".toList.zipIdx 10

def IsHexDigit (char : Char) (value : Nat) : Prop := (char, value) ∈ hexDigits

instance (char : Char) (value : Nat) : Decidable (IsHexDigit char value) :=
  inferInstanceAs (Decidable (_ ∈ _))

theorem IsHexDigit.lt {char : Char} {value : Nat} (digit : IsHexDigit char value) : value < 16 :=
  (by decide : ∀ entry ∈ hexDigits, entry.2 < 16) (char, value) digit

theorem IsHexDigit.visible {char : Char} {value : Nat} (digit : IsHexDigit char value) :
    IsVisible char :=
  (by decide : ∀ entry ∈ hexDigits, IsVisible entry.1) (char, value) digit

theorem baseDigit?_eq_some_iff {char : Char} {value : Nat} :
    baseDigit? 16 char = some value ↔ IsHexDigit char value := by
  constructor
  · intro read
    have spelt (first : Nat) (low : first ≤ char.toNat) :
        Char.ofNat (first + (char.toNat - first)) = char := by
      rw [Nat.add_sub_cancel' low, Char.ofNat_toNat]
    unfold baseDigit? at read
    dsimp only at read
    split_ifs at read with digit small letter small capital small impossible <;> cases read
    · have decimal : ∀ offset < 10, IsHexDigit (Char.ofNat (48 + offset)) offset := by decide
      have low : 48 ≤ char.toNat := digit.1
      have high : char.toNat ≤ 57 := digit.2
      have listed := decimal (char.toNat - 48) (by omega)
      rwa [spelt 48 low] at listed
    · have letters : ∀ offset < 6, IsHexDigit (Char.ofNat (97 + offset)) (offset + 10) := by decide
      have low : 97 ≤ char.toNat := letter.1
      have within : char.toNat - 97 + 10 < 16 := small
      have listed := letters (char.toNat - 97) (by omega)
      rwa [spelt 97 low] at listed
    · have capitals : ∀ offset < 6, IsHexDigit (Char.ofNat (65 + offset)) (offset + 10) := by decide
      have low : 65 ≤ char.toNat := capital.1
      have within : char.toNat - 65 + 10 < 16 := small
      have listed := capitals (char.toNat - 65) (by omega)
      rwa [spelt 65 low] at listed
    · exact absurd impossible (Nat.lt_irrefl 16)
  · intro digit
    exact (by decide : ∀ entry ∈ hexDigits, baseDigit? 16 entry.1 = some entry.2)
      (char, value) digit

/-- Digits of base sixteen with their values. An underscore may stand between two of them. -/
inductive HexDigits : List Char → List Nat → Prop
  | last {char : Char} {value : Nat} (digit : IsHexDigit char value) : HexDigits [char] [value]
  | next {char : Char} {value : Nat} {chars : List Char} {values : List Nat}
      (digit : IsHexDigit char value) (others : HexDigits chars values) :
      HexDigits (char :: chars) (value :: values)
  | joined {char : Char} {value : Nat} {chars : List Char} {values : List Nat}
      (digit : IsHexDigit char value) (others : HexDigits chars values) :
      HexDigits (char :: '_' :: chars) (value :: values)

namespace HexDigits

variable {chars : List Char} {values : List Nat}

theorem exists_first (digits : HexDigits chars values) :
    ∃ char value rest, chars = char :: rest ∧ IsHexDigit char value ∧ values ≠ [] := by
  cases digits with
  | last digit => exact ⟨_, _, _, rfl, digit, List.cons_ne_nil _ _⟩
  | next digit => exact ⟨_, _, _, rfl, digit, List.cons_ne_nil _ _⟩
  | joined digit => exact ⟨_, _, _, rfl, digit, List.cons_ne_nil _ _⟩

theorem visible (digits : HexDigits chars values) : ∀ char ∈ chars, IsVisible char := by
  induction digits with
  | last digit => exact List.forall_mem_singleton.mpr digit.visible
  | next digit others inductionHypothesis =>
      exact List.forall_mem_cons.mpr ⟨digit.visible, inductionHypothesis⟩
  | joined digit others inductionHypothesis =>
      exact List.forall_mem_cons.mpr
        ⟨digit.visible, List.forall_mem_cons.mpr ⟨by decide, inductionHypothesis⟩⟩

/-- Such digits are taken to their end. -/
theorem taken (digits : HexDigits chars values) (started : Bool) :
    takeDigits 16 started chars = (values, []) := by
  induction digits generalizing started with
  | last digit =>
      rw [takeDigits, baseDigit?_eq_some_iff.mpr digit]
      rfl
  | next digit others inductionHypothesis =>
      rw [takeDigits, baseDigit?_eq_some_iff.mpr digit]
      dsimp only
      rw [inductionHypothesis]
  | joined digit others inductionHypothesis =>
      obtain ⟨first, value, rest, rfl, opens, -⟩ := others.exists_first
      have followed : (((first :: rest).head?.bind (baseDigit? 16)).isSome) = true := by
        rw [List.head?_cons, Option.bind_some, baseDigit?_eq_some_iff.mpr opens]
        rfl
      have noDigit : baseDigit? 16 '_' = none := by decide
      rw [takeDigits, baseDigit?_eq_some_iff.mpr digit]
      dsimp only
      rw [takeDigits, noDigit]
      dsimp only
      rw [if_pos ⟨rfl, rfl, followed⟩, inductionHypothesis]

end HexDigits

/-- What is taken to its end are such digits, or nothing. An underscore in front belongs to a digit
before it. -/
theorem hexDigits_of_taken {chars : List Char} {values : List Nat} {started : Bool}
    (taken : takeDigits 16 started chars = (values, [])) :
    (chars = [] ∧ values = []) ∨ HexDigits chars values
      ∨ (started = true ∧ ∃ rest, chars = '_' :: rest ∧ HexDigits rest values) := by
  induction chars generalizing started values with
  | nil =>
      cases taken
      exact .inl ⟨rfl, rfl⟩
  | cons char rest inductionHypothesis =>
      rw [takeDigits] at taken
      cases read : baseDigit? 16 char with
      | some value =>
          have digit := baseDigit?_eq_some_iff.mp read
          rw [read] at taken
          cases others : takeDigits 16 true rest with
          | mk digits after =>
              rw [others] at taken
              cases taken
              obtain ⟨rfl, rfl⟩ | spelt | ⟨-, behind, rfl, spelt⟩ := inductionHypothesis others
              · exact .inr (.inl (.last digit))
              · exact .inr (.inl (.next digit spelt))
              · exact .inr (.inl (.joined digit spelt))
      | none =>
          rw [read] at taken
          dsimp only at taken
          split at taken
          · rename_i underscore
            obtain ⟨rfl, begun, followed⟩ := underscore
            obtain ⟨rfl, -⟩ | spelt | ⟨impossible, -⟩ := inductionHypothesis taken
            · cases followed
            · exact .inr (.inr ⟨begun, rest, rfl, spelt⟩)
            · cases impossible
          · cases taken

theorem taken_iff {chars : List Char} {values : List Nat} :
    takeDigits 16 false chars = (values, []) ∧ values ≠ [] ↔ HexDigits chars values := by
  constructor
  · rintro ⟨taken, some⟩
    obtain ⟨-, none⟩ | spelt | ⟨impossible, -⟩ := hexDigits_of_taken taken
    · exact absurd none some
    · exact spelt
    · cases impossible
  · intro digits
    obtain ⟨-, -, -, -, -, some⟩ := digits.exists_first
    exact ⟨digits.taken false, some⟩

/-! ### Numbers -/

/-- What may stand for the sign of a number, and whether the number is negative then. -/
def signs : List (List Char × Bool) :=
  [([], false), (['+'], false), (['-'], true)]

/-- What may mark base sixteen. -/
def hexMarks : List (List Char) :=
  [[], ['0', 'x'], ['0', 'X'], ['0', 'x', '_'], ['0', 'X', '_']]

/-- The number that digits of base sixteen stand for. -/
def hexNumber (negative : Bool) (values : List Nat) : Int :=
  if negative then -(ofDigits 16 values : Int) else ofDigits 16 values

/-- Plain characters that are a number in base sixteen: a sign, a mark of the base, and digits. -/
inductive WritesHex : List Char → Int → Prop
  | written {sign mark digits : List Char} {negative : Bool} {values : List Nat}
      (signed : (sign, negative) ∈ signs) (marked : mark ∈ hexMarks)
      (spelt : HexDigits digits values) :
      WritesHex (sign ++ (mark ++ digits)) (hexNumber negative values)

/-- Characters that are a number in base sixteen: blanks may stand around it, and digits of any
script in it. -/
def SpellsHex (chars : List Char) (number : Int) : Prop :=
  ∃ front core back, chars = front ++ (core ++ back)
    ∧ (∀ char ∈ front, isNumberBlank char = true) ∧ (∀ char ∈ back, isNumberBlank char = true)
    ∧ WritesHex (core.map plainChar) number

theorem takeSign_cases (chars : List Char) :
    ∃ sign, (sign, (takeSign chars).1) ∈ signs ∧ chars = sign ++ (takeSign chars).2 := by
  have none : (([] : List Char), false) ∈ signs := by decide
  have plus : (['+'], false) ∈ signs := by decide
  have minus : (['-'], true) ∈ signs := by decide
  unfold takeSign
  split
  · exact ⟨_, minus, rfl⟩
  · exact ⟨_, plus, rfl⟩
  · exact ⟨_, none, rfl⟩

theorem dropHexMark_cases (chars : List Char) :
    ∃ mark ∈ hexMarks, chars = mark ++ dropHexMark chars := by
  unfold dropHexMark
  split
  · rename_i mark rest
    split
    · rename_i marks
      obtain rfl | rfl := marks
      · split
        · exact ⟨['0', 'x', '_'], by decide, rfl⟩
        · exact ⟨['0', 'x'], by decide, rfl⟩
      · split
        · exact ⟨['0', 'X', '_'], by decide, rfl⟩
        · exact ⟨['0', 'X'], by decide, rfl⟩
    · exact ⟨[], by decide, rfl⟩
  · exact ⟨[], by decide, rfl⟩

/-- No digit is a sign, an underscore or a mark. -/
theorem IsHexDigit.ne_mark {char : Char} {value : Nat} (digit : IsHexDigit char value) :
    char ≠ '-' ∧ char ≠ '+' ∧ char ≠ '_' ∧ char ≠ 'x' ∧ char ≠ 'X' :=
  (by decide : ∀ entry ∈ hexDigits, entry.1 ≠ '-' ∧ entry.1 ≠ '+' ∧ entry.1 ≠ '_'
    ∧ entry.1 ≠ 'x' ∧ entry.1 ≠ 'X') (char, value) digit

namespace HexDigits

variable {chars : List Char} {values : List Nat}

theorem dropHexMark_append (digits : HexDigits chars values) {mark : List Char}
    (marked : mark ∈ hexMarks) : dropHexMark (mark ++ chars) = chars := by
  obtain ⟨first, value, rest, rfl, digit, -⟩ := digits.exists_first
  have noJoint : first ≠ '_' := digit.ne_mark.2.2.1
  fin_cases marked
  · change dropHexMark (first :: rest) = first :: rest
    unfold dropHexMark
    split
    · rename_i mark others opens
      cases opens
      rw [if_neg]
      -- a digit or an underscore stands behind the first digit
      cases digits with
      | next digit others =>
          obtain ⟨second, value, tail, opens, digit, -⟩ := others.exists_first
          cases opens
          exact not_or.mpr ⟨digit.ne_mark.2.2.2.1, digit.ne_mark.2.2.2.2⟩
      | joined digit others => decide
    · rfl
  · change dropHexMark ('0' :: 'x' :: first :: rest) = first :: rest
    unfold dropHexMark
    simp [noJoint]
  · change dropHexMark ('0' :: 'X' :: first :: rest) = first :: rest
    unfold dropHexMark
    simp [noJoint]
  · rfl
  · rfl

theorem takeSign_append (digits : HexDigits chars values) {mark sign : List Char} {negative : Bool}
    (signed : (sign, negative) ∈ signs) (marked : mark ∈ hexMarks) :
    takeSign (sign ++ (mark ++ chars)) = (negative, mark ++ chars) := by
  obtain ⟨first, value, rest, rfl, digit, -⟩ := digits.exists_first
  have unsigned : takeSign (mark ++ first :: rest) = (false, mark ++ first :: rest) := by
    fin_cases marked
    · exact takeSign_unsigned ⟨digit.ne_mark.1, digit.ne_mark.2.1⟩ rest
    · rfl
    · rfl
    · rfl
    · rfl
  fin_cases signed
  · exact unsigned
  · rfl
  · rfl

end HexDigits

/-- Plain characters are read as the number that they write. -/
theorem readHex?_eq_some_iff_writes {text : String} {number : Int} :
    readHex? text = some number ↔ WritesHex (plainForm text) number := by
  unfold readHex?
  generalize plainForm text = chars
  constructor
  · intro read
    obtain ⟨sign, signed, spelt⟩ := takeSign_cases chars
    obtain ⟨mark, marked, speltToo⟩ := dropHexMark_cases (takeSign chars).2
    cases taken : takeDigits 16 false (dropHexMark (takeSign chars).2) with
    | mk values after =>
        dsimp only at read
        rw [taken] at read
        dsimp only at read
        split at read
        · cases read
        · rename_i whole
          rw [not_or, List.isEmpty_iff, not_not] at whole
          obtain ⟨some, rfl⟩ := whole
          cases read
          have written := WritesHex.written signed marked (taken_iff.mp ⟨taken, some⟩)
          rwa [← speltToo, ← spelt] at written
  · rintro ⟨signed, marked, digits⟩
    have some := (taken_iff.mpr digits).2
    rw [digits.takeSign_append signed marked]
    dsimp only
    rw [digits.dropHexMark_append marked, digits.taken, if_neg]
    · rfl
    · rw [not_or, List.isEmpty_iff, not_not]
      exact ⟨some, rfl⟩

/-! ### Blanks, and digits of other scripts -/

/-- What is read as a visible character is no blank. -/
theorem isNumberBlank_of_plainChar {char : Char} (visible : IsVisible (plainChar char)) :
    isNumberBlank char = false := by
  have unblank : isBlank char = false := by
    cases digit : isDigit char with
    | true => exact isBlank_of_digit digit
    | false =>
        have same : plainChar char = char := by
          rw [isDigit, Option.isSome_eq_false_iff, Option.isNone_iff_eq_none] at digit
          rw [plainChar, digit]
        exact isBlank_of_visible (same ▸ visible)
  rw [isNumberBlank, unblank]
  rfl

theorem WritesHex.visible {chars : List Char} {number : Int} (writes : WritesHex chars number) :
    ∀ char ∈ chars, IsVisible char := by
  obtain ⟨signed, marked, digits⟩ := writes
  have signs : ∀ entry ∈ signs, entry.1.all (IsVisible ·) = true := by decide
  have marks : ∀ mark ∈ hexMarks, mark.all (IsVisible ·) = true := by decide
  have signVisible := List.all_eq_true.mp (signs _ signed)
  have markVisible := List.all_eq_true.mp (marks _ marked)
  exact List.forall_mem_append.mpr ⟨fun char member => of_decide_eq_true (signVisible char member),
    List.forall_mem_append.mpr ⟨fun char member => of_decide_eq_true (markVisible char member),
      digits.visible⟩⟩

theorem WritesHex.ne_nil {chars : List Char} {number : Int} (writes : WritesHex chars number) :
    chars ≠ [] := by
  obtain ⟨signed, marked, digits⟩ := writes
  obtain ⟨first, value, rest, rfl, -, -⟩ := digits.exists_first
  simp

/-- Blanks are dropped up to the first character that is none. -/
theorem dropWhile_isNumberBlank {front core : List Char}
    (blank : ∀ char ∈ front, isNumberBlank char = true)
    (unblank : ∀ char ∈ core, isNumberBlank char = false) (some : core ≠ []) (back : List Char) :
    (front ++ (core ++ back)).dropWhile isNumberBlank = core ++ back := by
  obtain ⟨first, rest, rfl⟩ := List.exists_cons_of_ne_nil some
  rw [List.dropWhile_append_of_pos blank]
  exact List.dropWhile_cons_of_neg (Bool.eq_false_iff.mp (unblank first List.mem_cons_self))

/-- The characters of a number between the blanks around it. -/
theorem plainForm_of_blanks {text : String} {front core back : List Char}
    (spelt : text.toList = front ++ (core ++ back))
    (blank : ∀ char ∈ front, isNumberBlank char = true)
    (blankToo : ∀ char ∈ back, isNumberBlank char = true)
    (unblank : ∀ char ∈ core, isNumberBlank char = false) (some : core ≠ []) :
    plainForm text = core.map plainChar := by
  have reversed : (core ++ back).reverse = back.reverse ++ (core.reverse ++ []) := by
    rw [List.reverse_append, List.append_nil]
  unfold plainForm
  dsimp only
  rw [spelt, dropWhile_isNumberBlank blank unblank some, reversed, dropWhile_isNumberBlank
    (fun char member => blankToo char (List.mem_reverse.mp member))
    (fun char member => unblank char (List.mem_reverse.mp member))
    (mt List.reverse_eq_nil_iff.mp some), List.append_nil, List.reverse_reverse]

/-- Every text has a plain form between blanks. -/
theorem exists_plainForm (text : String) : ∃ front core back,
    text.toList = front ++ (core ++ back) ∧ (∀ char ∈ front, isNumberBlank char = true)
      ∧ (∀ char ∈ back, isNumberBlank char = true) ∧ plainForm text = core.map plainChar := by
  let behind := text.toList.dropWhile isNumberBlank
  refine ⟨text.toList.takeWhile isNumberBlank, (behind.reverse.dropWhile isNumberBlank).reverse,
    (behind.reverse.takeWhile isNumberBlank).reverse, ?_, fun char member => ?_,
    fun char member => ?_, rfl⟩
  · rw [← List.reverse_append, List.takeWhile_append_dropWhile, List.reverse_reverse]
    exact List.takeWhile_append_dropWhile.symm
  · exact List.mem_takeWhile_imp member
  · exact List.mem_takeWhile_imp (List.mem_reverse.mp member)

/-- **A text is read as a number in base sixteen exactly if it spells the number.** -/
theorem readHex?_eq_some_iff {text : String} {number : Int} :
    readHex? text = some number ↔ SpellsHex text.toList number := by
  rw [readHex?_eq_some_iff_writes]
  constructor
  · intro writes
    obtain ⟨front, core, back, spelt, blank, blankToo, plain⟩ := exists_plainForm text
    exact ⟨front, core, back, spelt, blank, blankToo, plain ▸ writes⟩
  · rintro ⟨front, core, back, spelt, blank, blankToo, writes⟩
    have unblank : ∀ char ∈ core, isNumberBlank char = false := fun char member =>
      isNumberBlank_of_plainChar (writes.visible _ (List.mem_map_of_mem member))
    have some : core ≠ [] := fun nothing => writes.ne_nil (by rw [nothing, List.map_nil])
    rwa [plainForm_of_blanks spelt blank blankToo unblank some]

/-- Digits alone spell their number. -/
theorem HexDigits.spells {chars : List Char} {values : List Nat} (digits : HexDigits chars values) :
    SpellsHex chars (ofDigits 16 values) := by
  have plain : chars.map plainChar = chars :=
    (List.map_congr_left fun char member => plainChar_of_visible (digits.visible char member)).trans
      (List.map_id' chars)
  refine ⟨[], chars, [], (List.append_nil chars).symm, List.forall_mem_nil _, List.forall_mem_nil _,
    ?_⟩
  have writes : WritesHex ([] ++ ([] ++ chars)) (hexNumber false values) :=
    .written (by decide) (by decide) digits
  rw [plain]
  exact writes

end Showreel.Number.Literal
