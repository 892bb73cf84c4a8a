import Showreel.Proofs.Script.ArgumentLists

/-!
Contract: what the commands for labels, arrows, polygons and their styles read.

Owns: for each of them, that a statement is given without a report.

Does not own: what the statements do. Any statement about callouts is sound.
-/

namespace Showreel.Script

open Number Scalar Callout Reading

variable {α : Type} [Scalar α] {outlook : Outlook α}
  {expects : List String → List String → Prop}

/-- Without a side of the largest grid there is no half of it either. -/
theorem Outlook.Excused.gridSize {fault : Fault}
    (failed : outlook.draft.maxGridSize = .error fault) : outlook.Excused fault := by
  refine .grid ?_
  rw [Draft.halfGrid, failed]
  rfl

namespace Gives

theorem label (word : String) :
    Gives outlook expects (Read.label outlook.draft word) outlook.Sound := by
  refine Twins.ofExcept (fun _ => .gridSize) fun gridSize _ => ?_
  refine Gives.bind (Gives.numberIn word _) Withholds.none fun x _ => ?_
  refine Gives.bind (Gives.numberIn _ _) Withholds.none fun y _ => ?_
  refine Gives.bind (Gives.zoom _) Withholds.none fun zoom _ => ?_
  refine Passes.bind Passes.fixed fun isFixed _ => Meets.peek fun token => ?_
  exact Twins.branch (fun _ => Gives.known trivial) fun _ => (Withholds.refuseArgument _ _).gives

theorem arrow (word : String) :
    Gives outlook expects (Read.arrow outlook.draft word) outlook.Sound := by
  refine Twins.ofExcept (fun _ => .gridSize) fun gridSize _ => ?_
  refine ofList (Meets.numbersIn _ 4 word) (fun _ => Withholds.none) fun values source => ?_
  dsimp only
  split
  · refine Gives.bind (Gives.zoom _) Withholds.none fun zoom _ => ?_
    exact Passes.bind Passes.fixed fun _ _ => Gives.known trivial
  · exact Withholds.none.gives

theorem polygon (filled : Bool) (word : String) :
    Gives outlook expects (Read.polygon outlook.draft filled word) outlook.Sound := by
  refine Twins.ofExcept (fun _ => .gridSize) fun gridSize _ => ?_
  refine Meets.remaining fun fuel twinFuel => ?_
  refine Twins.bind (Twins.corners word gridSize fuel twinFuel none) fun result new quiet => ?_
  split
  · exact Twins.pure fun _ impossible => nomatch impossible
  · obtain ⟨rfl, -⟩ := quiet _ rfl
    exact Passes.bind Passes.fixed fun _ _ => Gives.known trivial
  · obtain ⟨rfl, -⟩ := quiet _ rfl
    exact (Withholds.refuseArgument _ _).gives
  · obtain ⟨rfl, -⟩ := quiet _ rfl
    exact (Withholds.refuse _ _).gives

theorem window (style : Style α) (word : String) :
    Gives outlook expects (Read.window style word) fun _ => True := by
  refine Passes.bind (Passes.accept "ALL" (by decide)) fun _ _ => ?_
  refine Twins.branch (fun _ => Gives.known trivial) fun _ => ?_
  refine Gives.bind (Gives.whole word _) Withholds.none fun opens _ => ?_
  refine Twins.ifNumeric ?_ (Withholds.refuseArgument _ _).gives
  refine Passes.bind (Passes.takeWhole numeric_head) fun closes _ => ?_
  refine Twins.branch (fun _ => (Withholds.refuse _ _).gives) fun _ => ?_
  refine Twins.ifNumeric ?_ (Withholds.refuseArgument _ _).gives
  refine Passes.bind (Passes.takeWhole numeric_head) fun fade _ => ?_
  exact Twins.branch (fun _ => Gives.known trivial) fun _ => (Withholds.refuse _ _).gives

theorem alpha (style : Style α) (word : String) :
    Gives outlook expects (Read.alpha style word) fun _ => True :=
  Gives.map (Gives.numberIn word _) fun _ _ => trivial

theorem labelSize (style : Style α) (word : String) :
    Gives outlook expects (Read.labelSize style word) fun _ => True :=
  Gives.bind (Gives.numberIn word _) Withholds.none fun _ _ =>
    Passes.bind Passes.fixed fun _ _ => Gives.known trivial

theorem lineSize (style : Style α) (hasHead : Bool) (word : String) :
    Gives outlook expects (Read.lineSize style hasHead word) fun _ => True := by
  refine Gives.bind (Gives.numberIn word _) Withholds.none fun value _ => ?_
  cases hasHead with
  | false => exact Gives.known trivial
  | true =>
      exact Twins.ifNumeric (Gives.map (Gives.numberIn _ _) fun _ _ => trivial)
        (Gives.known trivial)

theorem angle (style : Style α) (word : String) :
    Gives outlook expects (Read.angle style word) fun _ => True :=
  Gives.bind (Gives.numberIn word _) Withholds.none fun _ _ =>
    Passes.bind Passes.fixed fun _ _ => Gives.known trivial

theorem drift (style : Style α) (word : String) :
    Gives outlook expects (Read.drift style word) fun _ => True := by
  refine Passes.bind Passes.fixed fun _ _ => ?_
  refine Twins.branch (fun _ => Gives.known trivial) fun _ => ?_
  refine ofList (Meets.numbersIn _ 2 word) (fun _ => Withholds.none) fun values source => ?_
  dsimp only
  split
  · exact Gives.known trivial
  · exact Withholds.none.gives

theorem viewDistance (style : Style α) (word : String) :
    Gives outlook expects (Read.viewDistance outlook.draft style word) fun _ => True := by
  refine Passes.bind Passes.off fun _ _ => ?_
  refine Twins.branch (fun _ => Gives.known trivial) fun _ => ?_
  exact Twins.ofExcept (fun _ failed => .grid failed) fun _ _ =>
    Gives.map (Gives.numberIn word _) fun _ _ => trivial

theorem zoomRange (style : Style α) (word : String) :
    Gives outlook expects (Read.zoomRange style word) fun _ => True := by
  refine Passes.bind Passes.off fun _ _ => ?_
  refine Twins.branch (fun _ => Gives.known trivial) fun _ => ?_
  refine Gives.bind (Gives.zoom _) Withholds.none fun low _ => ?_
  refine Gives.bind (Gives.zoom _) Withholds.none fun high _ => ?_
  exact Twins.branch (fun _ => (Withholds.refuse _ _).gives) fun _ => Gives.known trivial

theorem shadow (style : Style α) :
    Gives outlook expects (Read.shadow style) fun _ => True :=
  Passes.bind Passes.off fun _ _ => Gives.known trivial

theorem target (style : Style α) (word : String) :
    Gives outlook expects (Read.target outlook.draft style word) fun _ => True := by
  refine Passes.bind Passes.off fun _ _ => ?_
  refine Twins.branch (fun _ => Gives.known trivial) fun _ => ?_
  refine Twins.ofExcept (fun _ => .gridSize) fun gridSize _ => ?_
  refine Gives.bind (Gives.numberIn word _) Withholds.none fun x _ => ?_
  refine Gives.bind (Gives.numberIn _ _) Withholds.none fun y _ => ?_
  exact Twins.ifNumeric (Gives.map (Gives.numberIn _ _) fun _ _ => trivial) (Gives.known trivial)

theorem styleSetting (family : StyleFamily) (setting : StyleSetting) (word : String) :
    Gives outlook expects (Read.styleSetting outlook.draft family setting word)
      outlook.Sound := by
  cases setting with
  | window => exact Gives.map (window _ word) fun _ _ => trivial
  | alpha => exact Gives.map (alpha _ word) fun _ _ => trivial
  | size =>
      exact Twins.branch (fun _ => Gives.map (labelSize _ word) fun _ _ => trivial)
        fun _ => Gives.map (lineSize _ _ word) fun _ _ => trivial
  | angle => exact Gives.map (angle _ word) fun _ _ => trivial
  | drift => exact Gives.map (drift _ word) fun _ _ => trivial
  | viewDistance => exact Gives.map (viewDistance _ word) fun _ _ => trivial
  | zoomRange => exact Gives.map (zoomRange _ word) fun _ _ => trivial
  | shadow => exact Gives.map (shadow _) fun _ _ => trivial
  | target => exact Gives.map (target _ word) fun _ _ => trivial

theorem labelAlign (word : String) :
    Gives outlook expects (Read.labelAlign outlook.draft word) outlook.Sound := by
  refine Meets.peek fun token => ?_
  cases found : Align.ofWord? token with
  | none => exact (Withholds.refuseArgument _ _).gives
  | some align =>
      refine Meets.advance ?_ (Gives.known trivial)
      exact outlook.passes (fun token => (Align.ofWord? token).isSome) (by decide) (by simp [found])

end Gives

end Showreel.Script
