import Mathlib
import Showreel.Pattern.Document

/-!
Contract: the part of a document that may hold a script.

Owns:
- the characters that a list of lines takes;
- which documents are read whole, and which only in their comment lines.

Does not own: the script.
-/

namespace Showreel

namespace Text

/-- The characters that lines take in a text, with a line end after each. -/
def extent (lines : List (List Char)) : Nat :=
  (lines.map fun line => line.length + 1).sum

@[simp] theorem extent_nil : extent [] = 0 := rfl

@[simp] theorem extent_cons (line : List Char) (lines : List (List Char)) :
    extent (line :: lines) = line.length + 1 + extent lines := rfl

/-- A text has room for its lines; only the last one may lack its line end. -/
theorem extent_splitLines (current text : List Char) :
    extent (splitLines current text) ≤ current.length + text.length + 1 := by
  fun_induction splitLines current text <;> simp_all <;> omega

theorem extent_lines (text : String) : extent (lines text) ≤ text.length + 1 := by
  have room := extent_splitLines [] text.toList
  rwa [List.length_nil, Nat.zero_add, String.length_toList] at room

theorem length_intercalate_le_extent (lines : List (List Char)) :
    (List.intercalate ['\n'] lines).length ≤ extent lines := by
  induction lines with
  | nil => simp
  | cons line rest inductionHypothesis =>
      cases rest with
      | nil => simp
      | cons next others =>
          simp only [List.intercalate_cons_cons, List.length_append, List.length_singleton,
            extent_cons] at inductionHypothesis ⊢
          omega

end Text

namespace Pattern.Document

open Text

/-- Whether some line of a document is a comment. -/
def Commented (text : String) : Prop :=
  ∃ line ∈ lines text, line.head? = some '#'

instance (text : String) : Decidable (Commented text) :=
  inferInstanceAs (Decidable (∃ line ∈ lines text, line.head? = some '#'))

theorem commented_iff {text : String} :
    Commented text ↔ (lines text).any (fun line => line.head? = some '#') = true := by
  simp [Commented]

/-- The comment lines that may hold a script. -/
def scriptLines (text : String) : List (List Char) :=
  (lines text).filter isScriptLine

theorem scriptSource_of_commented {text : String} (commented : Commented text) :
    scriptSource text
      = String.ofList (List.intercalate ['\n'] ((scriptLines text).map (·.drop 2))) :=
  if_pos (commented_iff.mp commented)

theorem scriptSource_of_not_commented {text : String} (plain : ¬Commented text) :
    scriptSource text = text :=
  if_neg fun found => plain (commented_iff.mpr found)

/-- A script line loses its mark. -/
theorem length_of_isScriptLine {line : List Char} (script : isScriptLine line = true) :
    2 ≤ line.length := by
  match line with
  | [] => cases script
  | [_] => simp [isScriptLine] at script
  | _ :: _ :: _ => simp

theorem extent_script_le (lines : List (List Char)) :
    extent ((lines.filter isScriptLine).map (·.drop 2)) ≤ extent lines := by
  induction lines with
  | nil => simp
  | cons line rest inductionHypothesis =>
      rw [List.filter_cons]
      split
      · simp only [List.map_cons, extent_cons, List.length_drop]
        omega
      · rw [extent_cons]
        omega

/-- A comment loses its mark, or is left out. -/
theorem extent_script_lt {lines : List (List Char)}
    (commented : ∃ line ∈ lines, line.head? = some '#') :
    extent ((lines.filter isScriptLine).map (·.drop 2)) + 2 ≤ extent lines := by
  induction lines with
  | nil => simp at commented
  | cons line rest inductionHypothesis =>
      have bounded := extent_script_le rest
      rw [List.filter_cons]
      split
      · rename_i script
        have marked := length_of_isScriptLine script
        simp only [List.map_cons, extent_cons, List.length_drop]
        omega
      · rw [extent_cons]
        obtain ⟨comment, member, mark⟩ := commented
        obtain rfl | member := List.mem_cons.mp member
        · have nonempty : 0 < comment.length := by
            cases comment with
            | nil => cases mark
            | cons => simp
          omega
        · have shorter := inductionHypothesis ⟨comment, member, mark⟩
          omega

/-- A document is read whole exactly if it has no comment line. -/
theorem scriptSource_eq_self_iff {text : String} : scriptSource text = text ↔ ¬Commented text := by
  refine ⟨fun same commented => ?_, scriptSource_of_not_commented⟩
  have length := congrArg String.length same
  rw [scriptSource_of_commented commented, String.length_ofList] at length
  have joined := length_intercalate_le_extent ((scriptLines text).map (·.drop 2))
  have shorter := extent_script_lt commented
  have room := extent_lines text
  unfold scriptLines at joined length
  omega

/-- Only the script lines of a commented document count. -/
theorem scriptSource_congr {text other : String} (commented : Commented text)
    (commentedToo : Commented other) (same : scriptLines text = scriptLines other) :
    scriptSource text = scriptSource other := by
  rw [scriptSource_of_commented commented, scriptSource_of_commented commentedToo, same]

end Pattern.Document

end Showreel
