import Showreel.Proofs.Script.ArgumentLists
import Showreel.Script.Read.Paste

/-!
Contract: what the commands for patterns and pastes read.

Owns: for each of them but pasting, that a statement is given without a report, and is
sound.

Does not own: what the statements do. A paste is also given when its train is reported.
-/

namespace Showreel.Script

open Number Scalar Paste Pattern Reading

variable {α : Type} [Scalar α] {outlook : Outlook α}
  {expects : List String → List String → Prop}

theorem Meets.train (word : String) :
    Meets outlook expects (Read.train α word) fun _ _ => True := by
  refine Meets.peek fun direction => ?_
  refine Twins.branch (fun known => ?_) fun _ => Twins.pure trivial
  have passable : direction ∉ outlook.stops :=
    outlook.passes (fun direction => direction == "XT" || direction == "YT") (by decide) known
  refine Meets.advance passable ?_
  refine Twins.ifPair ?_ (Twins.bind (Meets.report _ _) fun _ _ _ => Twins.pure trivial)
  exact Meets.remaining fun fuel twinFuel => Twins.trainSteps _ _ fuel twinFuel ()

namespace Gives

theorem runLength (word : String) :
    Gives outlook expects (Read.runLength word) outlook.Sound := by
  refine Gives.bind (Gives.freshName word) Withholds.none fun name _ => Meets.peek fun opening => ?_
  refine Twins.branch (fun _ => (Withholds.refuseMissing _).gives) fun named => ?_
  have visible : opening ≠ "" := by
    rintro rfl
    exact named (by decide)
  refine Meets.advanceInto visible (visible_passes named) ?_
  refine Passes.bind (Passes.runText opening) fun text ⟨run, member, joined⟩ => ?_
  refine Passes.bind Passes.position fun _ _ => Passes.bind Passes.symmetry fun _ _ => ?_
  refine Twins.ofExcept (fun fault failed => .text member (joined ▸ failed)) fun found _ => ?_
  cases found with
  | none => exact (Withholds.refuse _ _).gives
  | some cells => exact Gives.known trivial

theorem recipe (word : String) :
    Gives outlook expects (Read.recipe word) outlook.Sound :=
  Gives.bind (Gives.freshName word) Withholds.none fun _ noWord =>
    Gives.map (Gives.allGaps _ fun impossible => nomatch impossible) fun _ nonnegative =>
      And.intro noWord (nonnegative fun _ impossible => nomatch impossible)

theorem pasteStop (source : String) (every start : Int) :
    Gives outlook expects (Read.pasteStop source every start) outlook.Sound :=
  Twins.ifNumeric (Gives.map (Gives.whole source _) fun _ _ => trivial) (Gives.known trivial)

theorem pasteEvery (source : String) :
    Gives outlook expects (Read.pasteEvery source) outlook.Sound := by
  refine Gives.bind (Gives.whole source _) Withholds.none fun every _ => ?_
  refine Twins.ifNumeric ?_ (Gives.known trivial)
  exact Gives.bind (Gives.whole _ _) Withholds.none fun _ _ => pasteStop _ _ _

theorem pasteTime (word : String) :
    Gives outlook expects (Read.pasteTime outlook.draft word) outlook.Sound := by
  refine Twins.ifNumeric ?_ ?_
  · refine Gives.bind (Gives.whole word _) Withholds.none fun first _ => ?_
    exact Gives.map (Gives.allGaps _ outlook.recipes_pass) fun _ nonnegative => nonnegative
  · refine Passes.bind (Passes.accept "EVERY" (by decide)) fun _ _ => ?_
    exact Twins.branch (fun _ => pasteEvery _) fun _ => (Withholds.refuseArgument _ _).gives

theorem pasteDrift (word : String) :
    Gives outlook expects (Read.pasteDrift word) outlook.Sound :=
  Gives.bind (Gives.whole word _) Withholds.none fun _ _ =>
    Gives.map (Gives.whole _ _) fun _ _ => trivial

theorem pasteMode (word : String) :
    Gives outlook expects (Read.pasteMode word) outlook.Sound := by
  refine Meets.peek fun token => ?_
  cases found : Mode.ofWord? token with
  | some mode =>
      refine Meets.advance ?_ (Gives.known trivial)
      exact outlook.passes (fun token => (Mode.ofWord? token).isSome) (by decide) (by simp [found])
  | none =>
      refine Twins.ifNumeric ?_ (Withholds.refuseArgument _ _).gives
      refine Gives.bind (Gives.whole word _) Withholds.none fun number ⟨_, bounded⟩ => ?_
      have numbered : 0 ≤ number ∧ number < 16 := by
        have := between_of_contains bounded
        omega
      refine Twins.ofExcept (fun fault failed => ?_) fun _ _ => Gives.known trivial
      rw [Mode.ofNumber, if_pos numbered] at failed
      cases failed

theorem pasteEvolve (word : String) :
    Gives outlook expects (Read.pasteEvolve word) outlook.Sound :=
  Gives.map (Gives.whole word _) fun _ _ => trivial

end Gives

/-- A paste is sound whatever it is. It is given without a report, but for one about its
train. -/
theorem Meets.placed (word text : String) (found : Option Cells) (base : Int × Int) :
    Meets outlook expects (Read.placed word text found base) fun result _ =>
      ∀ statement, result = some statement → outlook.Sound statement := by
  refine Passes.bind Passes.position fun _ _ => Passes.bind Passes.symmetry fun _ _ => ?_
  cases found with
  | none =>
      refine (Withholds.refuse _ _).mono ?_
      rintro _ _ rfl statement impossible
      cases impossible
  | some cells =>
      exact Twins.bind (Meets.train word) fun _ _ _ => Twins.pure fun _ given =>
        Option.some.inj given ▸ trivial

theorem Meets.paste (word : String) :
    Meets outlook expects (Read.paste outlook.draft word) fun result _ =>
      ∀ statement, result = some statement → outlook.Sound statement := by
  refine Meets.peek fun opening => Twins.branch (fun _ => ?_) fun named => ?_
  · refine (Withholds.refuseMissing _).mono ?_
    rintro _ _ rfl statement impossible
    cases impossible
  · have visible : opening ≠ "" := by
      rintro rfl
      exact named (by decide)
    refine Meets.advanceInto visible (visible_passes named) ?_
    split
    · exact Meets.placed word opening _ _
    · refine Passes.bind (Passes.runText opening) fun text joins => ?_
      obtain ⟨run, member, joined⟩ := joins
      exact Twins.ofExcept (fun fault failed => .text member (joined ▸ failed))
        fun found _ => Meets.placed word text found _

end Showreel.Script
