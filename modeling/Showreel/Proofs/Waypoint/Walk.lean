import Showreel.Proofs.Waypoint.Change
import Showreel.Waypoint.Cursor

/-!
Contract: what a walk along a chain of keyframes depends on.

Owns:
- that no move of a walk changes its chain;
- that a walk which is not in a blend stays out of it, never looks at the last blend, and takes
  nothing but the centre and the zoom from the view that it is given.

Does not own: where a walk leads.
-/

namespace Showreel.Waypoint.Cursor

open Number

variable {α : Type}

/-! ### The chain stays -/

theorem chain_note (cursor : Cursor α) (index : Nat) : (cursor.note index).chain = cursor.chain := by
  unfold note
  split <;> rfl

theorem chain_fit (cursor : Cursor α) (index : Nat) (view : Option (Keyframe α)) :
    (cursor.fit index view).chain = cursor.chain := by
  unfold fit
  cases view with
  | none => rfl
  | some view =>
      dsimp only
      split <;> rfl

theorem chain_aim (cursor : Cursor α) (index : Nat) (view : Option (Keyframe α)) :
    (cursor.aim index view).chain = cursor.chain := by
  unfold aim
  split
  · exact cursor.chain_note index
  · exact (chain_fit _ index view).trans (cursor.chain_note index)

section Moves

variable [Scalar α]

theorem chain_approach (cursor : Cursor α) (elapsed : α) (view : Option (Keyframe α)) :
    (cursor.approach elapsed view).chain = cursor.chain := by
  unfold approach
  split
  · exact cursor.chain_aim _ view
  · rfl

variable [Transcendental α]

theorem chain_update {cursor moved : Cursor α} {elapsed : α} {generation : Int}
    {view : Option (Keyframe α)} {position : Keyframe α} {ended : Bool}
    (done : cursor.update elapsed generation view = .ok (moved, position, ended)) :
    moved.chain = cursor.chain := by
  unfold update at done
  split at done
  · obtain ⟨between, -, done⟩ := bind_eq_ok done
    cases done
    rfl
  · split at done
    · cases done
      rfl
    · cases done
      exact cursor.chain_aim 0 view
    · obtain ⟨between, -, done⟩ := bind_eq_ok done
      cases done
      exact cursor.chain_aim _ view

theorem chain_beginBlend {cursor moved : Cursor α} {view : Keyframe α} {generation : Int}
    {elapsed now : α} (done : cursor.beginBlend view generation elapsed = .ok (moved, now)) :
    moved.chain = cursor.chain := by
  unfold beginBlend at done
  dsimp only at done
  split at done
  · cases done
    rfl
  · obtain ⟨⟨walked, position, ended⟩, updated, done⟩ := bind_eq_ok done
    cases done
    have walks : walked.chain = cursor.chain := chain_update updated
    exact walks

end Moves

/-! ### Walks outside a blend -/

/-- The walk with another last blend. -/
def withBlend (cursor : Cursor α) (aside : Option (Blend α)) : Cursor α :=
  { cursor with blend := aside }

/-- What a walk takes from the view that it is given. -/
def sight (view : Keyframe α) : α × α × α × Bool :=
  (view.x, view.y, view.zoom, view.zoomLost)

theorem activeBlend_of_not_blending {cursor : Cursor α} (walking : cursor.blending = false) :
    cursor.activeBlend = none := by
  unfold activeBlend
  rw [walking]
  rfl

theorem blending_aim (cursor : Cursor α) (index : Nat) (view : Option (Keyframe α)) :
    (cursor.aim index view).blending = cursor.blending := by
  have noted : (cursor.note index).blending = cursor.blending := by
    unfold note
    split <;> rfl
  unfold aim
  split
  · exact noted
  · unfold fit
    cases view with
    | none => exact noted
    | some view =>
        dsimp only
        split <;> exact noted

theorem fit_congr (cursor : Cursor α) (index : Nat) {view other : Option (Keyframe α)}
    (same : other.map sight = view.map sight) : cursor.fit index other = cursor.fit index view := by
  cases view with
  | none =>
      cases other with
      | none => rfl
      | some other => cases same
  | some view =>
      cases other with
      | none => cases same
      | some other =>
          simp only [Option.map_some, Option.some.injEq, sight, Prod.mk.injEq] at same
          rcases same with ⟨x, y, zoom, zoomLost⟩
          unfold fit
          dsimp only
          rw [x, y, zoom, zoomLost]

theorem aim_withBlend (cursor : Cursor α) (aside : Option (Blend α)) (index : Nat)
    {view other : Option (Keyframe α)} (same : other.map sight = view.map sight) :
    (cursor.withBlend aside).aim index other = (cursor.aim index view).withBlend aside := by
  have noted : (cursor.withBlend aside).note index = (cursor.note index).withBlend aside := by
    unfold note withBlend
    dsimp only
    split <;> rfl
  unfold aim
  by_cases first : index = 0
  · rw [if_pos first, if_pos first, noted]
  · rw [if_neg first, if_neg first, noted, fit_congr _ index same]
    unfold fit withBlend
    cases view with
    | none => rfl
    | some view =>
        dsimp only
        split <;> rfl

variable [Scalar α] {cursor : Cursor α} (walking : cursor.blending = false)
  (aside : Option (Blend α)) (elapsed : α) (generation : Int) {view other : Option (Keyframe α)}
  (same : other.map sight = view.map sight)

include walking

theorem blending_approach : (cursor.approach elapsed view).blending = false := by
  unfold approach
  split
  · exact (cursor.blending_aim _ view).trans walking
  · exact walking

include same in
theorem approach_withBlend :
    (cursor.withBlend aside).approach elapsed other
      = (cursor.approach elapsed view).withBlend aside := by
  have scans : (cursor.withBlend aside).scan elapsed = cursor.scan elapsed := rfl
  have apart : (cursor.withBlend aside).activeBlend = none := activeBlend_of_not_blending walking
  unfold approach
  rw [activeBlend_of_not_blending walking, apart, scans]
  cases cursor.scan elapsed with
  | none => rfl
  | some index => exact cursor.aim_withBlend aside index same

variable [Transcendental α]

theorem blending_update {moved : Cursor α} {position : Keyframe α} {ended : Bool}
    (done : cursor.update elapsed generation view = .ok (moved, position, ended)) :
    moved.blending = false := by
  unfold update at done
  rw [activeBlend_of_not_blending walking] at done
  dsimp only at done
  split at done
  · cases done
    exact walking
  · cases done
    exact (cursor.blending_aim 0 view).trans walking
  · obtain ⟨between, -, done⟩ := bind_eq_ok done
    cases done
    exact (cursor.blending_aim _ view).trans walking

include same in
/-- **A walk outside a blend goes the same way whatever the last blend was.** -/
theorem update_withBlend :
    (cursor.withBlend aside).update elapsed generation other
      = (cursor.update elapsed generation view).map fun move =>
        (move.1.withBlend aside, move.2) := by
  have scans : (cursor.withBlend aside).scan elapsed = cursor.scan elapsed := rfl
  have keyframes : ∀ (walk : Cursor α) (index : Nat),
      (walk.withBlend aside).keyframe index = walk.keyframe index := fun _ _ => rfl
  have apart : (cursor.withBlend aside).activeBlend = none := activeBlend_of_not_blending walking
  unfold update
  rw [activeBlend_of_not_blending walking, apart]
  dsimp only
  rw [scans]
  cases cursor.scan elapsed with
  | none => rfl
  | some index =>
      cases index with
      | zero =>
          dsimp only
          rw [aim_withBlend cursor aside 0 same]
          rfl
      | succ index =>
          dsimp only
          rw [aim_withBlend cursor aside (index + 1) same, keyframes, keyframes]
          cases Motion.interpolate ((cursor.aim (index + 1) view).keyframe index)
            ((cursor.aim (index + 1) view).keyframe (index + 1)) elapsed <;> rfl

end Showreel.Waypoint.Cursor
