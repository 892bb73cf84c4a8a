import Showreel.Proofs.Number.Hexadecimal
import Showreel.Proofs.Script.Fragments
import Showreel.Proofs.Script.Strays

/-!
Contract: which tokens are colours in hexadecimal digits.

Owns:
- tokens of a mark and six digits, and the colours that they spell;
- that these are read, and which other tokens are read besides;
- what a colour argument with the mark in front comes to.

Does not own: names of colours, and components.
-/

namespace Showreel

open Number Literal

namespace Colour

/-- Two digits spell a byte, the high one first. -/
def IsHexByte (high low : Char) (byte : Int) : Prop :=
  ∃ first second : Nat, IsHexDigit high first ∧ IsHexDigit low second ∧ byte = 16 * first + second

/-- The token is `#` and six digits, and each pair of them spells a component. -/
def IsHexColour (token : String) (colour : Colour) : Prop :=
  ∃ r₁ r₀ g₁ g₀ b₁ b₀, token.toList = ['#', r₁, r₀, g₁, g₀, b₁, b₀]
    ∧ IsHexByte r₁ r₀ colour.red ∧ IsHexByte g₁ g₀ colour.green ∧ IsHexByte b₁ b₀ colour.blue

/-- The token is `#` and six characters that spell a number, and one of them is no digit. -/
def IsLooseHex (token : String) : Prop :=
  ∃ chars number, token.toList = '#' :: chars ∧ chars.length = 6 ∧ SpellsHex chars number
    ∧ ∃ char ∈ chars, ∀ value, ¬IsHexDigit char value

/-- What is read as a colour is the mark and six characters that spell a number. -/
theorem ofHex?_eq_some_iff {token : String} {colour : Colour} :
    ofHex? token = some colour ↔ ∃ chars number, token.toList = '#' :: chars ∧ chars.length = 6
      ∧ SpellsHex chars number ∧ colour = ofNumber number := by
  unfold ofHex?
  constructor
  · intro read
    split at read
    · rename_i chars opens
      split at read
      · rename_i six
        obtain ⟨number, spelt, rfl⟩ := Option.map_eq_some_iff.mp read
        rw [readHex?_eq_some_iff, String.toList_ofList] at spelt
        exact ⟨chars, number, opens, six, spelt, rfl⟩
      · cases read
    · cases read
  · rintro ⟨chars, number, opens, six, spelt, rfl⟩
    have read : readHex? (String.ofList chars) = some number := by
      rwa [readHex?_eq_some_iff, String.toList_ofList]
    rw [opens]
    change (if chars.length = 6 then _ else _) = _
    rw [if_pos six, read]
    rfl

/-- The components of six digits are the bytes that their pairs spell. -/
theorem ofNumber_ofDigits {r₁ r₀ g₁ g₀ b₁ b₀ : Nat} (small : r₀ < 16 ∧ g₁ < 16 ∧ g₀ < 16)
    (smallToo : r₁ < 16 ∧ b₁ < 16 ∧ b₀ < 16) :
    ofNumber (ofDigits 16 [r₁, r₀, g₁, g₀, b₁, b₀])
      = ⟨16 * r₁ + r₀, 16 * g₁ + g₀, 16 * b₁ + b₀⟩ := by
  have value : ofDigits 16 [r₁, r₀, g₁, g₀, b₁, b₀]
      = (((((0 * 16 + r₁) * 16 + r₀) * 16 + g₁) * 16 + g₀) * 16 + b₁) * 16 + b₀ := rfl
  rw [value, ofNumber, Colour.mk.injEq]
  push_cast
  omega

/-- **A mark and six digits are read as the colour that they spell.** -/
theorem IsHexColour.read {token : String} {colour : Colour} (spells : IsHexColour token colour) :
    ofHex? token = some colour := by
  obtain ⟨red, green, blue⟩ := colour
  obtain ⟨_, _, _, _, _, _, chars, ⟨r₁, r₀, highRed, lowRed, rfl⟩,
    ⟨g₁, g₀, highGreen, lowGreen, rfl⟩, ⟨b₁, b₀, highBlue, lowBlue, rfl⟩⟩ := spells
  have digits : HexDigits _ [r₁, r₀, g₁, g₀, b₁, b₀] :=
    .next highRed (.next lowRed (.next highGreen (.next lowGreen (.next highBlue (.last lowBlue)))))
  have components := ofNumber_ofDigits ⟨lowRed.lt, highGreen.lt, lowGreen.lt⟩
    ⟨highRed.lt, highBlue.lt, lowBlue.lt⟩
  exact ofHex?_eq_some_iff.mpr ⟨_, _, chars, rfl, digits.spells, components.symm⟩

/-- A token without a character that is no digit spells a colour, if it has the right length. -/
theorem exists_isHexColour {token : String} {chars : List Char}
    (opens : token.toList = '#' :: chars) (six : chars.length = 6)
    (digits : ∀ char ∈ chars, ∃ value, IsHexDigit char value) :
    ∃ colour, IsHexColour token colour := by
  obtain ⟨r₁, r₀, g₁, g₀, b₁, b₀, rfl⟩ : ∃ r₁ r₀ g₁ g₀ b₁ b₀, chars = [r₁, r₀, g₁, g₀, b₁, b₀] := by
    match chars, six with
    | [r₁, r₀, g₁, g₀, b₁, b₀], _ => exact ⟨r₁, r₀, g₁, g₀, b₁, b₀, rfl⟩
  simp only [List.forall_mem_cons] at digits
  obtain ⟨⟨_, highRed⟩, ⟨_, lowRed⟩, ⟨_, highGreen⟩, ⟨_, lowGreen⟩, ⟨_, highBlue⟩, ⟨_, lowBlue⟩,
    -⟩ := digits
  exact ⟨⟨_, _, _⟩, r₁, r₀, g₁, g₀, b₁, b₀, opens, ⟨_, _, highRed, lowRed, rfl⟩,
    ⟨_, _, highGreen, lowGreen, rfl⟩, ⟨_, _, highBlue, lowBlue, rfl⟩⟩

/-- What is read and spells no colour is loose. -/
theorem read_iff_of_not_loose {token : String} (strict : ¬IsLooseHex token) {colour : Colour} :
    ofHex? token = some colour ↔ IsHexColour token colour := by
  refine ⟨fun read => ?_, IsHexColour.read⟩
  obtain ⟨chars, number, opens, six, spelt, -⟩ := ofHex?_eq_some_iff.mp read
  have digits : ∀ char ∈ chars, ∃ value, IsHexDigit char value := by
    by_contra other
    simp only [not_forall, not_exists] at other
    obtain ⟨char, member, noDigit⟩ := other
    exact strict ⟨chars, number, opens, six, spelt, char, member, noDigit⟩
  obtain ⟨spelled, spells⟩ := exists_isHexColour opens six digits
  obtain rfl : colour = spelled := Option.some.inj (read.symm.trans spells.read)
  exact spells

/-- A loose token spells no colour, but is read as one. -/
theorem IsLooseHex.read {token : String} (loose : IsLooseHex token) :
    (ofHex? token).isSome ∧ ∀ colour, ¬IsHexColour token colour := by
  obtain ⟨chars, number, opens, six, spelt, char, member, noDigit⟩ := loose
  refine ⟨?_, ?_⟩
  · rw [ofHex?_eq_some_iff.mpr ⟨chars, number, opens, six, spelt, rfl⟩]
    rfl
  · rintro colour ⟨_, _, _, _, _, _, same, ⟨_, _, highRed, lowRed, -⟩,
      ⟨_, _, highGreen, lowGreen, -⟩, ⟨_, _, highBlue, lowBlue, -⟩⟩
    rw [opens] at same
    obtain rfl := List.tail_eq_of_cons_eq same
    simp only [List.mem_cons, List.not_mem_nil, or_false] at member
    obtain rfl | rfl | rfl | rfl | rfl | rfl := member
    · exact noDigit _ highRed
    · exact noDigit _ lowRed
    · exact noDigit _ highGreen
    · exact noDigit _ lowGreen
    · exact noDigit _ highBlue
    · exact noDigit _ lowBlue

end Colour

namespace Script

open Reading

/-! ### Colour arguments -/

theorem isForeign_hash : IsForeign '#' where
  unblank := by decide
  plain := by decide
  noDigit := by decide
  noSign := by decide
  noPoint := by decide
  noSlash := by decide
  noWord := by decide

section Marked

variable {token : String} {chars : List Char}

/-- No word of scripts begins with the mark of a colour. -/
theorem isScriptWord_of_hash (opens : token.toList = '#' :: chars) :
    isScriptWord token = false := by
  have unmarked : ∀ word ∈ Command.words.map Prod.fst ++ reservedWords,
      word.toList.head? ≠ some '#' := by
    decide +kernel
  refine isScriptWord_of_not_mem fun listed => unmarked token listed ?_
  rw [opens]
  rfl

/-- No name of a colour does. -/
theorem ofName?_of_hash (opens : token.toList = '#' :: chars) : Colour.ofName? token = none := by
  have unmarked : ∀ entry ∈ Colour.named, entry.1.toList.head? ≠ some '#' := by decide +kernel
  rw [Colour.ofName?, List.lookup_eq_none_iff]
  refine fun entry member => bne_iff_ne.mpr fun same => unmarked entry member ?_
  rw [← same, Text.lower, opens, String.toList_ofList]
  rfl

/-- A token with the mark is read as a colour or reported, and is passed over in both cases. -/
theorem run_colour_hash {α : Type} [Scalar α] (opens : token.toList = '#' :: chars)
    (source : String) (behind rest : List String) (reported : List Diagnostic) :
    (Read.colour α source).run ⟨⟨behind, token :: rest⟩, reported⟩
      = .ok (Colour.ofHex? token, ⟨⟨token :: behind, rest⟩,
          if (Colour.ofHex? token).isSome then reported
          else reported ++ [⟨source ++ " " ++ token, .badHexColour⟩]⟩) := by
  have wordy : ¬isNumeric α token = true :=
    Bool.eq_false_iff.mp (isForeign_hash.isNumeric opens)
  have visible : token.isEmpty = false := by
    refine Bool.eq_false_iff.mpr fun empty => ?_
    rw [String.isEmpty_iff.mp empty] at opens
    cases opens
  unfold Read.colour
  rw [run_bind_ok (run_nextIsNumeric token), if_neg wordy, run_bind_ok run_peek,
    ofName?_of_hash opens]
  cases Colour.ofHex? token with
  | some colour => rfl
  | none =>
      dsimp only [Option.orElse]
      rw [visible, isScriptWord_of_hash opens, opens]
      rfl

end Marked

/-- **Colours in hexadecimal digits.** A token is a colour exactly if it is the mark and six
characters that spell a number, whose lowest three bytes are the components. The mark and six digits
are one, with the bytes that the pairs of digits spell. These are all, unless the token is a loose
one. A colour argument with the mark in front is passed over: it is the colour of the token, or the
token is reported. -/
theorem hexColours_read (token : String) :
    (∀ colour, Colour.ofHex? token = some colour ↔ ∃ chars number, token.toList = '#' :: chars
        ∧ chars.length = 6 ∧ SpellsHex chars number ∧ colour = Colour.ofNumber number)
      ∧ (∀ colour, Colour.IsHexColour token colour → Colour.ofHex? token = some colour)
      ∧ ((∀ colour, Colour.ofHex? token = some colour ↔ Colour.IsHexColour token colour)
        ↔ ¬Colour.IsLooseHex token)
      ∧ (token.toList.head? = some '#' → ∀ (α : Type) [Scalar α] (source : String)
        (behind rest : List String) (reported : List Diagnostic),
        (∀ colour, Colour.ofHex? token = some colour →
          (Read.colour α source).run ⟨⟨behind, token :: rest⟩, reported⟩
            = .ok (some colour, ⟨⟨token :: behind, rest⟩, reported⟩))
        ∧ (Colour.ofHex? token = none → ∃ report : Diagnostic,
          report.source = source ++ " " ++ token ∧ report.reason = "bad hex definition"
            ∧ (Read.colour α source).run ⟨⟨behind, token :: rest⟩, reported⟩
              = .ok (none, ⟨⟨token :: behind, rest⟩, reported ++ [report]⟩))) := by
  refine ⟨fun _ => Colour.ofHex?_eq_some_iff, fun _ => Colour.IsHexColour.read, ⟨?strict, ?loose⟩,
    ?reading⟩
  case strict =>
    intro same loose
    obtain ⟨read, noColour⟩ := loose.read
    obtain ⟨colour, found⟩ := Option.isSome_iff_exists.mp read
    exact noColour colour ((same colour).mp found)
  case loose =>
    exact fun strict colour => Colour.read_iff_of_not_loose strict
  case reading =>
    intro marked α _ source behind rest reported
    obtain ⟨chars, opens⟩ := List.head?_eq_some_iff.mp marked
    rw [run_colour_hash opens source behind rest reported]
    refine ⟨fun colour found => by rw [found]; rfl, fun unread => ?_⟩
    refine ⟨⟨source ++ " " ++ token, .badHexColour⟩, rfl, rfl, ?_⟩
    rw [unread]
    rfl

/-- Six digits of both cases, and six letters that are no digits. -/
theorem hexColours_read_mixedCase :
    Colour.ofHex? "#00FF7f" = some ⟨0, 255, 127⟩
      ∧ (∀ colour, Colour.ofHex? "#00FF7f" = some colour ↔ Colour.IsHexColour "#00FF7f" colour)
      ∧ (Read.colour Float "COLOR ALIVE").run ⟨⟨[], ["#00FF7f", "]]"]⟩, []⟩
        = .ok (some ⟨0, 255, 127⟩, ⟨⟨["#00FF7f"], ["]]"]⟩, []⟩)
      ∧ ∃ report : Diagnostic, report.text = "COLOR ALIVE #zzzzzz: bad hex definition"
        ∧ (Read.colour Float "COLOR ALIVE").run ⟨⟨[], ["#zzzzzz", "]]"]⟩, []⟩
          = .ok (none, ⟨⟨["#zzzzzz"], ["]]"]⟩, [report]⟩) := by
  obtain ⟨-, read, strict, given⟩ := hexColours_read "#00FF7f"
  obtain ⟨-, -, -, refused⟩ := hexColours_read "#zzzzzz"
  have spells : Colour.IsHexColour "#00FF7f" ⟨0, 255, 127⟩ :=
    ⟨'0', '0', 'F', 'F', '7', 'f', by decide, ⟨0, 0, by decide, by decide, rfl⟩,
      ⟨15, 15, by decide, by decide, rfl⟩, ⟨7, 15, by decide, by decide, rfl⟩⟩
  have found := read _ spells
  have noLoose : ¬Colour.IsLooseHex "#00FF7f" := fun loose => loose.read.2 _ spells
  obtain ⟨report, source, reason, ran⟩ :=
    (refused (by decide) Float "COLOR ALIVE" [] ["]]"] []).2 (by decide +kernel)
  refine ⟨found, strict.mpr noLoose, (given (by decide) Float _ [] ["]]"] []).1 _ found, report, ?_,
    ran⟩
  rw [Diagnostic.text, source, reason]
  decide

/-- A mark of the base is read as well: these six characters are no six digits. -/
theorem hexColour_of_marked :
    Colour.ofHex? "#0x1234" = some ⟨0, 0x12, 0x34⟩
      ∧ ∀ colour, ¬Colour.IsHexColour "#0x1234" colour := by
  have spelt : SpellsHex ['0', 'x', '1', '2', '3', '4'] 0x1234 := by
    have read : readHex? "0x1234" = some 0x1234 := by decide +kernel
    exact readHex?_eq_some_iff.mp read
  have noDigit : ∀ value, ¬IsHexDigit 'x' value := by
    intro value digit
    have none : Text.baseDigit? 16 'x' = none := by decide
    rw [baseDigit?_eq_some_iff.mpr digit] at none
    cases none
  have loose : Colour.IsLooseHex "#0x1234" :=
    ⟨_, _, by decide, rfl, spelt, 'x', by decide, noDigit⟩
  exact ⟨Colour.ofHex?_eq_some_iff.mpr ⟨_, _, by decide, rfl, spelt, rfl⟩, loose.read.2⟩

end Script

end Showreel
