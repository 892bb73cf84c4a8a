import Showreel.Paste.Schedule

/-!
Contract: what a world shows, and what its statistics cannot touch.

Owns:
- the picture of a world and the picture of its generation zero, as blocks with measures;
- the bare world, which has a grid and no past;
- that steps and pastes of a world are those of its bare world, and that they leave the
  return to generation zero alone.

Does not own: what a step or a paste does to a single cell.
-/

namespace Showreel

open Pattern Paste

namespace World

/-- The grid of a world as a block with its measures. -/
def picture (world : World) : Cells :=
  ⟨world.size, world.size, world.grid⟩

/-- The grid to which a world returns, as a block with its measures. -/
def snapshot (world : World) : Cells :=
  ⟨world.size, world.size, world.initial⟩

/-- The world that has only the grid of another: its own generation, snapshot and statistics
are those of an empty world. -/
def bare (world : World) : World :=
  { ofSize world.size world.size_ge world.wraps with grid := world.grid }

theorem picture_bare (world : World) : world.bare.picture = world.picture :=
  rfl

/-- Worlds with one bare world show the same picture. -/
theorem picture_eq_of_bare_eq {left right : World} (alike : left.bare = right.bare) :
    left.picture = right.picture := by
  rw [← picture_bare left, ← picture_bare right, alike]

theorem bare_bare (world : World) : world.bare.bare = world.bare :=
  rfl

theorem bare_markInitial (world : World) : world.markInitial.bare = world.bare :=
  rfl

theorem bare_reset_markInitial (world : World) : world.markInitial.reset.bare = world.bare :=
  rfl

theorem reset_markInitial (world : World) : world.markInitial.reset = world.markInitial :=
  rfl

theorem reset_reset (world : World) : world.reset.reset = world.reset :=
  rfl

theorem bare_reset_reset (world : World) : world.reset.reset.bare = world.reset.bare :=
  rfl

/-! ### Steps -/

/-- What a step records does not reach the grid. -/
theorem bare_step (world : World) (record other : StepRecord) :
    (world.step record).bare = (world.bare.step other).bare :=
  rfl

theorem reset_step (world : World) (record : StepRecord) :
    (world.step record).reset = world.reset :=
  rfl

theorem bare_reset_step (world : World) (record : StepRecord) :
    (world.step record).reset.bare = world.reset.bare :=
  rfl

theorem generation_step (world : World) (record : StepRecord) :
    (world.step record).generation = world.generation + 1 :=
  rfl

/-! ### Rectangles -/

theorem bare_setRegion (world : World) (x y : Int) (cells : Cells) :
    (world.setRegion x y cells).bare = (world.bare.setRegion x y cells).bare := by
  have overlap : world.bare.overlaps x y cells.height cells.width
      = world.overlaps x y cells.height cells.width := rfl
  unfold setRegion
  rw [overlap]
  split <;> rfl

theorem reset_setRegion (world : World) (x y : Int) (cells : Cells) :
    (world.setRegion x y cells).reset = world.reset := by
  unfold setRegion
  split <;> rfl

theorem generation_setRegion (world : World) (x y : Int) (cells : Cells) :
    (world.setRegion x y cells).generation = world.generation := by
  unfold setRegion
  split <;> rfl

end World

/-! ### Pastes -/

namespace Paste

theorem Entry.bare_paste (entry : Entry) (world : World) (generation : Int) :
    (entry.paste world generation).bare = (entry.paste world.bare generation).bare := by
  unfold Entry.paste
  split
  · rfl
  · rw [World.bare_setRegion]
    rfl

theorem Entry.reset_paste (entry : Entry) (world : World) (generation : Int) :
    (entry.paste world generation).reset = world.reset := by
  unfold Entry.paste
  split
  · rfl
  · exact World.reset_setRegion ..

theorem Entry.generation_paste (entry : Entry) (world : World) (generation : Int) :
    (entry.paste world generation).generation = world.generation := by
  unfold Entry.paste
  split
  · rfl
  · exact World.generation_setRegion ..

namespace Schedule

/-- A property that every single paste keeps is kept by all pastes of a generation. -/
theorem apply_keeps (kept : World → Prop) (entries : List Entry) (generation : Int)
    (pasted : ∀ (entry : Entry) (world : World), kept world → kept (entry.paste world generation))
    (world : World) (holds : kept world) : kept (apply entries world generation) := by
  unfold apply
  induction due entries generation generalizing world with
  | nil => exact holds
  | cons entry rest inductionHypothesis =>
      exact inductionHypothesis _ (pasted entry world holds)

theorem bare_apply (entries : List Entry) (world : World) (generation : Int) :
    (apply entries world generation).bare = (apply entries world.bare generation).bare := by
  have folded : ∀ (fired : List Entry) (left right : World), left.bare = right.bare →
      (fired.foldl (fun current entry => entry.paste current generation) left).bare
        = (fired.foldl (fun current entry => entry.paste current generation) right).bare := by
    intro fired
    induction fired with
    | nil => exact fun _ _ alike => alike
    | cons entry rest inductionHypothesis =>
        intro left right alike
        apply inductionHypothesis
        rw [Entry.bare_paste, alike, ← Entry.bare_paste]
  exact folded _ world world.bare (World.bare_bare world).symm

theorem reset_apply (entries : List Entry) (world : World) (generation : Int) :
    (apply entries world generation).reset = world.reset :=
  apply_keeps (fun current => current.reset = world.reset) entries generation
    (fun entry current same => (Entry.reset_paste entry current generation).trans same)
    world rfl

theorem bare_reset_apply (entries : List Entry) (world : World) (generation : Int) :
    (apply entries world generation).reset.bare = world.reset.bare :=
  congrArg World.bare (reset_apply entries world generation)

theorem generation_apply (entries : List Entry) (world : World) (generation : Int) :
    (apply entries world generation).generation = world.generation :=
  apply_keeps (fun current => current.generation = world.generation) entries generation
    (fun entry current same => (Entry.generation_paste entry current generation).trans same)
    world rfl

end Schedule

end Paste

end Showreel
