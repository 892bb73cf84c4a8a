import Showreel.Proofs.Waypoint.Position

/-!
Contract: how one position between two keyframes follows another, over exact rationals.

Owns:
- which of two mixes is further on the way;
- exactly when a field goes onward from one time to a later one, and when it still has its first
  value before the time of the first keyframe;
- an eased field that starts from the other end before its time.

Does not own: the times at which playback asks for positions.
-/

namespace Showreel.Waypoint.Motion

open Number Scalar

/-! ### Further on the way -/

/-- On the way from one value to another, `far` is at least as far along as `near`. -/
def Onward (start finish near far : ℚ) : Prop :=
  (start ≤ finish → near ≤ far) ∧ (finish ≤ start → far ≤ near)

/-- **The mix with the greater progress is further on the way**, and unless the two ends are one, no
other is. -/
theorem onward_mix_iff {start finish progress other : ℚ} :
    Onward start finish (mix start finish progress) (mix start finish other)
      ↔ start = finish ∨ clamp progress ≤ clamp other := by
  rw [mix_eq, mix_eq, Onward, add_le_add_iff_left, add_le_add_iff_left]
  rcases lt_trichotomy start finish with up | rfl | down
  · have span : 0 < finish - start := sub_pos.mpr up
    simp only [up.le, up.ne, not_le.mpr up, true_imp_iff, false_imp_iff, and_true, false_or]
    exact mul_le_mul_iff_left₀ span
  · simp
  · have span : finish - start < 0 := sub_neg.mpr down
    simp only [down.le, down.ne', not_le.mpr down, true_imp_iff, false_imp_iff, true_and, false_or]
    exact mul_le_mul_right_of_neg span

/-! ### Fields in motion -/

section Fields

variable {start finish : Keyframe ℚ} {earlier elapsed origin goal near far : ℚ} {straight : Bool}

/-- Before the time of the first keyframe none of the way is done, or less. -/
theorem passed_nonpos (later : start.targetTime < finish.targetTime)
    (slow : closeTo (finish.targetTime - start.targetTime) frameTime = false)
    (early : elapsed ≤ start.targetTime) : passed start finish elapsed ≤ 0 :=
  (passed_mono later early).trans (passed_start later slow).le

/-- The clamped progress grows with time, except that an eased one falls before the way begins. -/
theorem clamp_progress_le_iff (later : start.targetTime < finish.targetTime)
    (within : earlier ≤ elapsed) :
    clamp (progress start finish earlier straight) ≤ clamp (progress start finish elapsed straight)
      ↔ straight = true
        ∨ clamp (curve (passed start finish earlier))
          ≤ clamp (curve (passed start finish elapsed)) := by
  cases straight with
  | true => exact iff_of_true (clamp_mono (passed_mono later within)) (.inl rfl)
  | false => exact (or_iff_right Bool.false_ne_true).symm

theorem clamp_curve_le (later : start.targetTime < finish.targetTime)
    (begun : start.targetTime ≤ earlier) (within : earlier ≤ elapsed) :
    clamp (curve (passed start finish earlier)) ≤ clamp (curve (passed start finish elapsed)) :=
  clamp_mono (curve_mono (passed_nonneg later begun) (passed_mono later within)
    (passed_le_one later))

theorem progress_nonpos_iff (later : start.targetTime < finish.targetTime)
    (early : passed start finish elapsed ≤ 0) :
    progress start finish elapsed straight ≤ 0
      ↔ straight = true ∨ passed start finish elapsed = 0 := by
  cases straight with
  | true => exact iff_of_true early (.inl rfl)
  | false =>
      rw [or_iff_right Bool.false_ne_true]
      constructor
      · intro none
        by_contra moved
        exact absurd none (not_le.mpr (curve_pos (passed_le_one later) moved))
      · intro begins
        exact (progress_of_passed_eq_zero begins false).le

/-- How a field moves on the way between two values, `near` at one time and `far` at a later one. -/
structure MovesAs (start finish : Keyframe ℚ) (earlier elapsed : ℚ) (straight : Bool)
    (origin goal near far : ℚ) : Prop where
  /-- A straight field goes onward, and an eased one where its clamped curve does. -/
  onward_iff : Onward origin goal near far
    ↔ origin = goal ∨ straight = true
      ∨ clamp (curve (passed start finish earlier)) ≤ clamp (curve (passed start finish elapsed))
  /-- From the time of the first keyframe on every field goes onward. -/
  onward : start.targetTime ≤ earlier → Onward origin goal near far
  /-- Before that time a straight field is at rest, and an eased one only while the part of the way
  is rounded to none. -/
  atRest_iff : closeTo (finish.targetTime - start.targetTime) frameTime = false →
    elapsed ≤ start.targetTime →
      (far = origin ↔ origin = goal ∨ straight = true ∨ passed start finish elapsed = 0)

theorem movesAs_mix (later : start.targetTime < finish.targetTime) (within : earlier ≤ elapsed) :
    MovesAs start finish earlier elapsed straight origin goal
      (mix origin goal (progress start finish earlier straight))
      (mix origin goal (progress start finish elapsed straight)) where
  onward_iff := by rw [onward_mix_iff, clamp_progress_le_iff later within]
  onward begun := by
    rw [onward_mix_iff, clamp_progress_le_iff later within]
    exact .inr (.inr (clamp_curve_le later begun within))
  atRest_iff slow early := by
    rw [mix_eq_start_iff, eq_comm, progress_nonpos_iff later (passed_nonpos later slow early)]

end Fields

/-! ### Positions in motion -/

section Positions

variable {start finish : Keyframe ℚ} {earlier elapsed : ℚ} [Transcendental ℚ]

/-- **How one position between two keyframes follows another.** There is one at every time at which
the zoom does not grow from nothing, and each of its fields moves as its kind does: the place
straight or eased as the second keyframe has it, the tilt eased and the depth straight. -/
theorem interpolate_moves (later : start.targetTime < finish.targetTime)
    (within : earlier ≤ elapsed) :
    (∀ time, Completes (interpolate start finish time) ↔ ¬GrowsFromNothing start finish time)
      ∧ ∀ near far, interpolate start finish earlier = .ok near →
        interpolate start finish elapsed = .ok far →
        MovesAs start finish earlier elapsed (finish.xLinear || finish.autofit)
            start.x finish.x near.x far.x
          ∧ MovesAs start finish earlier elapsed (finish.yLinear || finish.autofit)
            start.y finish.y near.y far.y
          ∧ MovesAs start finish earlier elapsed false start.tilt finish.tilt near.tilt far.tilt
          ∧ MovesAs start finish earlier elapsed true
            start.depth finish.depth near.depth far.depth := by
  refine ⟨fun _ => completes_interpolate_iff later, fun near far shown shownLater => ?_⟩
  rw [interpolate_eq later] at shown shownLater
  obtain ⟨zoom, -, rfl⟩ := map_eq_ok shown
  obtain ⟨zoomLater, -, rfl⟩ := map_eq_ok shownLater
  exact ⟨movesAs_mix later within, movesAs_mix later within, movesAs_mix later within,
    movesAs_mix later within⟩

end Positions

/-- An eased way that has begun: the view goes onward in all fields. -/
theorem interpolate_moves_once_begun :
    let _ : Transcendental ℚ := ⟨fun _ => 0, fun base _ => base, max, fun _ _ => 0⟩
    let start : Keyframe ℚ := .standard
    let finish : Keyframe ℚ := { start with x := 100, y := -8, yLinear := true, targetTime := 1000 }
    start.targetTime < finish.targetTime ∧ (250 : ℚ) ≤ 750
      ∧ ∃ near far, interpolate start finish 250 = .ok near
        ∧ interpolate start finish 750 = .ok far
        ∧ near.x ≤ far.x ∧ far.y ≤ near.y := by
  intro _ start finish
  have later : start.targetTime < finish.targetTime := by decide +kernel
  have within : (250 : ℚ) ≤ 750 := by decide +kernel
  obtain ⟨answers, moves⟩ := interpolate_moves later within
  have grown (time : ℚ) : ¬GrowsFromNothing start finish time := fun grows =>
    absurd grows.2.1 (by decide +kernel)
  obtain ⟨near, shown⟩ := (answers 250).mpr (grown 250)
  obtain ⟨far, shownLater⟩ := (answers 750).mpr (grown 750)
  obtain ⟨x, y, -, -⟩ := moves near far shown shownLater
  have begun : start.targetTime ≤ 250 := by decide +kernel
  exact ⟨later, within, near, far, shown, shownLater, (x.onward begun).1 (by decide +kernel),
    (y.onward begun).2 (by decide +kernel)⟩

/-- One way before its time, an eased one: it starts from the other end and falls back. -/
theorem interpolate_comes_back :
    let _ : Transcendental ℚ := ⟨fun _ => 0, fun base _ => base, max, fun _ _ => 0⟩
    let start : Keyframe ℚ := .standard
    let finish : Keyframe ℚ := { start with x := 100, targetTime := 1000 }
    start.targetTime < finish.targetTime
      ∧ closeTo (finish.targetTime - start.targetTime) frameTime = false
      ∧ start.x = 0 ∧ (-1000 : ℚ) ≤ -250 ∧ (-250 : ℚ) ≤ start.targetTime
      ∧ ∃ first second, interpolate start finish (-1000) = .ok first
        ∧ interpolate start finish (-250) = .ok second
        ∧ first.x = 100 ∧ second.x = 21.875 := by
  intro _ start finish
  have later : start.targetTime < finish.targetTime := by decide +kernel
  have grown (time : ℚ) : ¬GrowsFromNothing start finish time := fun grows =>
    absurd grows.2.1 (by decide +kernel)
  obtain ⟨first, shown⟩ := (completes_interpolate_iff later).mpr (grown (-1000))
  obtain ⟨second, shownLater⟩ := (completes_interpolate_iff later).mpr (grown (-250))
  refine ⟨later, by decide +kernel, rfl, by decide +kernel, by decide +kernel, first, second,
    shown, shownLater, ?_, ?_⟩
  · rw [interpolate_eq later] at shown
    obtain ⟨zoom, -, rfl⟩ := map_eq_ok shown
    change mix start.x finish.x (progress start finish (-1000) false) = 100
    decide +kernel
  · rw [interpolate_eq later] at shownLater
    obtain ⟨zoom, -, rfl⟩ := map_eq_ok shownLater
    change mix start.x finish.x (progress start finish (-250) false) = 21.875
    decide +kernel

end Showreel.Waypoint.Motion
