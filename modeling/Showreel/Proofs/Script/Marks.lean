import Showreel.Proofs.Script.Scenes

/-!
Contract: the marks that statements leave on a whole script.

Owns:
- that a draft is view-only once a statement asks for it;
- that a draft has element colours once a statement sets one.

Does not own: what the end of a script makes of these marks.
-/

namespace Showreel.Script

open Number Waypoint

variable {α : Type}

/-- Whether a statement makes the script view-only. -/
def Statement.isViewOnly : Statement α → Bool
  | .viewOnly => true
  | _ => false

/-- Whether a statement sets the colour of a theme element. -/
def Statement.coloursElement : Statement α → Bool
  | .setElementColour _ _ _ => true
  | _ => false

namespace Draft

theorem assign_isEmpty {κ β : Type} [BEq κ] (key : κ) (value : β) (pairs : List (κ × β)) :
    (assign key value pairs).isEmpty = false := by
  unfold assign
  split
  · rfl
  · split <;> rfl

/-- Drafts with the same marks. -/
structure SameMarks (draft other : Draft α) : Prop where
  viewOnly : other.viewOnly = draft.viewOnly
  colours : other.elementColours = draft.elementColours

theorem SameMarks.beside {draft other : Draft α} (same : draft.SameBeside other) :
    draft.SameMarks other := by
  rw [same]
  exact ⟨rfl, rfl⟩

/-- The draft of some statements knows which kinds of marks were among them. -/
structure Marked (carried : List (Statement α)) (draft : Draft α) : Prop where
  viewOnly : draft.viewOnly = carried.any Statement.isViewOnly
  colours : draft.elementColours.isEmpty = !carried.any Statement.coloursElement

namespace Marked

variable {carried : List (Statement α)} {draft other : Draft α} {statement : Statement α}

theorem start [Scalar α] (maxGridPower : Int) :
    (Draft.start maxGridPower : Draft α).Marked [] :=
  ⟨rfl, rfl⟩

theorem congr (marked : draft.Marked carried) (same : draft.SameMarks other) :
    other.Marked carried :=
  ⟨same.viewOnly.trans marked.viewOnly, (congrArg List.isEmpty same.colours).trans marked.colours⟩

/-- Most statements leave no mark. -/
theorem silent (marked : draft.Marked carried) (same : draft.SameMarks other)
    (viewing : statement.isViewOnly = false) (plain : statement.coloursElement = false) :
    other.Marked (carried ++ [statement]) where
  viewOnly := by
    rw [same.viewOnly, marked.viewOnly]
    simp [viewing]
  colours := by
    rw [same.colours, marked.colours]
    simp [plain]

/-- **A statement is known by its mark.** -/
theorem perform [Scalar α] (marked : draft.Marked carried) {outcome : Outcome α}
    (done : draft.perform statement = .ok outcome) :
    outcome.draft.Marked (carried ++ [statement]) := by
  cases about : statement.isAboutWaypoints with
  | true =>
      have same : draft.SameMarks outcome.draft := .beside (perform_sameBeside about done)
      cases statement <;> first | exact marked.silent same rfl rfl | cases about
  | false =>
      cases statement with
      | viewOnly =>
          cases done
          exact ⟨by simp [Statement.isViewOnly], by simp [Statement.coloursElement, marked.colours]⟩
      | setElementColour element colour source =>
          cases done
          refine ⟨by simp [Statement.isViewOnly, marked.viewOnly], ?_⟩
          simp [Statement.coloursElement, assign_isEmpty]
      | setStyle family style =>
          rw [← Except.ok.inj done]
          cases family <;> exact marked.silent ⟨rfl, rfl⟩ rfl rfl
      | paste cells x y train source =>
          obtain ⟨pasted, pasting, rfl⟩ := map_eq_ok done
          obtain ⟨entry, -, pasting⟩ := bind_eq_ok pasting
          cases pasting
          exact marked.silent ⟨rfl, rfl⟩ rfl rfl
      | _ =>
          first
          | exact Except.ok.inj done ▸ marked.silent ⟨rfl, rfl⟩ rfl rfl
          | cases about

theorem finishString (marked : draft.Marked carried) (info : PatternInfo) (text : String) :
    (draft.finishString info text).1.Marked carried := by
  unfold Draft.finishString
  dsimp only
  split
  · exact marked.congr ⟨rfl, rfl⟩
  · split <;> exact marked.congr ⟨rfl, rfl⟩
  · exact marked.congr ⟨rfl, rfl⟩

end Marked

end Draft

/-! ### Sessions -/

section Sessions

variable [Scalar α] {context : Context α}

theorem Session.step_marked {carried : List (Statement α)} {session after : Session α}
    (marked : session.draft.Marked carried) (done : session.step context = .ok after) :
    after.draft.Marked (carried ++ (session.statement? context).toList) := by
  cases step_takes done with
  | kept new draft reported without =>
      rw [draft, without, Option.toList_none, List.append_nil]
      exact marked
  | joined text draft reported without =>
      rw [draft, statement?_of_command?_eq_none without, Option.toList_none, List.append_nil]
      exact marked.finishString context.info text
  | performed new given read makes sound performed draft reported =>
      rw [draft, read, Option.toList_some]
      exact marked.perform performed

/-- **Every document that can be read is known by its marks.** -/
theorem readAll_marked {text : String} {session : Session α}
    (done : readAll context text = .ok session) :
    session.draft.Marked (readStatements context text) := by
  have start : (Session.start context text).draft.Marked ([] : List (Statement α)) :=
    .start context.settings.maxGridPower
  unfold readAll at done
  have kept := Session.run_keeps_statements (fun carried session => session.draft.Marked carried)
    (fun _ _ _ => Session.step_marked) start done
  rwa [List.nil_append] at kept

end Sessions

end Showreel.Script
