import Showreel.Proofs.Script.ArgumentLists

/-!
Contract: what the commands for colours, the title and the viewer read.

Owns: for each of them, that a statement is given without a report, and is sound.

Does not own: what the statements do.
-/

namespace Showreel.Script

open Number Scalar Reading

variable {α : Type} [Scalar α] {outlook : Outlook α}
  {expects : List String → List String → Prop}

namespace Gives

/-- A colour is given without a report. -/
theorem colour (source : String) :
    Gives outlook expects (Read.colour α source) fun _ => True := by
  refine Twins.ifNumeric ?_ (Meets.peek fun token => ?_)
  · refine Twins.bind (Meets.components _ source) fun result new quiet => ?_
    split
    · rw [quiet _ rfl]
      exact Gives.known trivial
    · exact Twins.pure fun _ impossible => nomatch impossible
  · cases found : (Colour.ofHex? token).orElse fun _ => Colour.ofName? token with
    | some colour =>
        refine Meets.advance ?_ (Gives.known trivial)
        exact outlook.passes
          (fun token => ((Colour.ofHex? token).orElse fun _ => Colour.ofName? token).isSome)
          (by decide) (by simp only [found]; rfl)
    | none =>
        refine Twins.branch (fun _ => (Withholds.refuse _ _).gives) fun named => ?_
        exact Meets.advance (visible_passes named) (Withholds.refuse _ _).gives

/-- The colour is read even when the state is out of range; then no statement is given. -/
theorem stateColour (word : String) (numeric : Numeric α expects) :
    Gives outlook expects (Read.stateColour word) outlook.Sound := by
  refine Passes.bind (Passes.takeWhole numeric) fun state _ => ?_
  by_cases inside : 0 ≤ state ∧ state ≤ 255
  · simp only [if_pos inside]
    exact Gives.map (Gives.colour _) fun _ _ => trivial
  · simp only [if_neg inside]
    refine Twins.bind (Gives.colour _) fun _ _ _ => ?_
    exact (Withholds.refuse _ _).mono fun _ _ withheld _ impossible => by
      simp [withheld] at impossible

theorem elementColour (word : String) :
    Gives outlook expects (Read.elementColour outlook.draft word) outlook.Sound := by
  refine Meets.peek fun element => ?_
  refine Twins.branch (fun known => ?_) fun _ => ?_
  · refine Meets.advance (outlook.passes themeElements.contains (by decide) known) ?_
    refine Gives.map (Gives.colour _) fun colour _ => ?_
    cases StyleFamily.ofWord? element <;> exact trivial
  · refine Twins.branch (fun _ => (Withholds.refuseMissing _).gives) fun named => ?_
    exact Meets.advance (visible_passes named) (Withholds.refuse _ _).gives

theorem anyColour (word : String) :
    Gives outlook expects (Read.anyColour outlook.draft word) outlook.Sound :=
  Twins.ifNumeric (stateColour word numeric_head) (elementColour word)

theorem title (word : String) :
    Gives outlook expects (Read.title word) outlook.Sound :=
  Meets.peek fun _ =>
    Twins.branch (fun _ => Gives.known trivial) fun _ => (Withholds.refuse _ _).gives

theorem viewerWidth (word : String) :
    Gives outlook expects (Read.viewerWidth word) outlook.Sound :=
  Gives.map (Gives.whole word _) fun _ _ => trivial

theorem viewerHeight (word : String) :
    Gives outlook expects (Read.viewerHeight word) outlook.Sound :=
  Gives.map (Gives.whole word _) fun _ _ => trivial

theorem maxGridSize (word : String) :
    Gives outlook expects (Read.maxGridSize word) outlook.Sound :=
  Gives.map (Gives.whole word _) fun _ ⟨_, bounded⟩ => between_of_contains bounded

theorem autostart : Gives outlook expects Read.autostart outlook.Sound :=
  Passes.bind Passes.off fun _ _ => Gives.known trivial

theorem startFrom (word : String) :
    Gives outlook expects (Read.startFrom word) outlook.Sound :=
  Gives.map (Gives.whole word _) fun _ _ => trivial

end Gives

end Showreel.Script
