import Mathlib.Data.List.TakeDrop
import Showreel.Text.Blank
import Showreel.Text.Digit

/-!
Contract: visible characters, and texts without the blanks at their ends.

Owns:
- the range of visible characters, that digits are among them and no blank is, and that a digit
  has one case;
- that blanks are dropped at both ends, and nothing between them;
- that no digit of any script is blank.

Does not own: what the characters mean, and the splitting of a text into lines.
-/

namespace Showreel.Text

/-- The characters from the first visible one up to the small letters. -/
def IsVisible (char : Char) : Prop := 0x21 ≤ char.toNat ∧ char.toNat ≤ 0x7A

instance (char : Char) : Decidable (IsVisible char) :=
  inferInstanceAs (Decidable (0x21 ≤ char.toNat ∧ char.toNat ≤ 0x7A))

theorem IsVisible.of_between {first last char : Char} (visible : IsVisible first)
    (visibleToo : IsVisible last) (within : first ≤ char ∧ char ≤ last) : IsVisible char :=
  ⟨Nat.le_trans visible.1 within.1, Nat.le_trans within.2 visibleToo.2⟩

theorem bounds_of_isDigit {char : Char} (digit : char.isDigit = true) :
    '0' ≤ char ∧ char ≤ '9' := by
  rw [Char.isDigit, Bool.and_eq_true, decide_eq_true_iff, decide_eq_true_iff] at digit
  exact digit

theorem visible_of_isDigit {char : Char} (digit : char.isDigit = true) : IsVisible char :=
  .of_between (by decide) (by decide) (bounds_of_isDigit digit)

theorem toLower_of_isDigit {char : Char} (digit : char.isDigit = true) : char.toLower = char := by
  have high : char.toNat ≤ 57 := (bounds_of_isDigit digit).2
  have small : ¬(char.val ≥ 'A'.val ∧ char.val ≤ 'Z'.val) := fun capital => by
    have above : 65 ≤ char.toNat := capital.1
    omega
  exact dif_neg small

theorem isBlank_of_visible {char : Char} (visible : IsVisible char) : isBlank char = false := by
  rcases visible with ⟨low, high⟩
  have beyond : ∀ code ∈ [0x85, 0xA0, 0x1680, 0x2028, 0x2029, 0x202F, 0x205F, 0x3000],
      0x7A < code := by
    decide
  unfold isBlank
  simp only [Bool.or_eq_false_iff, decide_eq_false_iff_not, List.contains_eq_mem]
  exact ⟨⟨⟨by omega, by omega⟩, by omega⟩, fun listed => Nat.not_le_of_lt (beyond _ listed) high⟩

/-! ### Trimmed texts -/

theorem dropWhile_isBlank_of_head {text : List Char} {first : Char}
    (opens : text.head? = some first) (visible : isBlank first = false) :
    text.dropWhile isBlank = text := by
  obtain ⟨rest, rfl⟩ := List.head?_eq_some_iff.mp opens
  exact List.dropWhile_cons_of_neg (Bool.eq_false_iff.mp visible)

/-- Trimming leaves everything from the first character on that is not blank to the last one. -/
theorem exists_trim {front core : List Char} {first last : Char}
    (blank : ∀ char ∈ front, isBlank char = true) (opens : core.head? = some first)
    (visible : isBlank first = false) (closes : core.getLast? = some last)
    (visibleToo : isBlank last = false) (ending : List Char) :
    ∃ kept, trim (front ++ (core ++ ending)) = core ++ kept := by
  have start : (front ++ (core ++ ending)).dropWhile isBlank = core ++ ending := by
    rw [List.dropWhile_append_of_pos blank]
    exact dropWhile_isBlank_of_head (by rw [List.head?_append, opens]; rfl) visible
  have back : core.reverse.dropWhile isBlank = core.reverse :=
    dropWhile_isBlank_of_head (List.head?_reverse.trans closes) visibleToo
  unfold trim
  rw [start, List.reverse_append, List.dropWhile_append]
  split
  · exact ⟨[], by rw [back, List.reverse_reverse, List.append_nil]⟩
  · exact ⟨_, by rw [List.reverse_append, List.reverse_reverse]⟩

/-- A text without blanks is left as it is. -/
theorem trim_of_visible {text : List Char} (visible : ∀ char ∈ text, isBlank char = false) :
    trim text = text := by
  have whole : ∀ side : List Char, (∀ char ∈ side, isBlank char = false) →
      side.dropWhile isBlank = side := by
    intro side visible
    cases side with
    | nil => rfl
    | cons first rest => exact dropWhile_isBlank_of_head rfl (visible first List.mem_cons_self)
  unfold trim
  rw [whole text visible, whole text.reverse fun char member =>
    visible char (List.mem_reverse.mp member), List.reverse_reverse]

theorem head?_trim {text : List Char} {first : Char} (opens : text.head? = some first)
    (visible : isBlank first = false) : (trim text).head? = some first := by
  obtain ⟨rest, rfl⟩ := List.head?_eq_some_iff.mp opens
  have alone : [first].head? = some first ∧ [first].getLast? = some first := ⟨rfl, rfl⟩
  have whole : first :: rest = [] ++ ([first] ++ rest) := rfl
  obtain ⟨kept, trimmed⟩ :=
    exists_trim (List.forall_mem_nil _) alone.1 visible alone.2 visible rest
  rw [whole, trimmed]
  rfl

/-- **No digit is blank.** -/
theorem isBlank_of_digit {char : Char} (digit : isDigit char = true) : isBlank char = false := by
  -- the runs of digits lie between the blanks
  have between : ∀ first ∈ digitZeros, 0x21 ≤ first ∧ first + 10 ≤ 0x85
      ∨ 0xA1 ≤ first ∧ first + 10 ≤ 0x1680 ∨ 0x1681 ≤ first ∧ first + 10 ≤ 0x2000
      ∨ 0x3001 ≤ first := by
    decide
  unfold isDigit digitValue? at digit
  rw [Option.isSome_map, List.find?_isSome] at digit
  obtain ⟨first, listed, within⟩ := digit
  rw [decide_eq_true_eq] at within
  have apart := between first listed
  unfold isBlank
  simp only [Bool.or_eq_false_iff, decide_eq_false_iff_not, List.contains_eq_mem, List.mem_cons,
    List.not_mem_nil, or_false]
  omega

end Showreel.Text
