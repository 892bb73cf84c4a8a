import Mathlib.Algebra.Group.ModEq
import Showreel.Proofs.Number.Sums
import Showreel.Proofs.Waypoint.Position

/-!
Contract: the direction between two keyframes, over exact rationals.

Owns:
- the remainder by a full turn, and the angular distance of two directions;
- the shortest turns from one direction to another, and the arc that they pass;
- that the direction between two keyframes is on that arc, at the eased part of its length.

Does not own: how much of the way is done.
-/

namespace Showreel.Waypoint.Motion

open Number Scalar

/-! ### The remainder by a full turn -/

section Remainder

variable (value : ℚ)

/-- What is left beside the whole turns, with one turn more where that is negative. -/
theorem remainder_eq :
    remainder value 360
      = if value - 360 * truncate (value / 360) < 0 then value - 360 * truncate (value / 360) + 360
        else value - 360 * truncate (value / 360) := by
  change (if value - 360 * (truncate (value / 360) : ℚ) = 0 then if (360 : ℚ) < 0 then -0 else 0
    else if (value - 360 * (truncate (value / 360) : ℚ) < 0) = ((360 : ℚ) < 0) then
      value - 360 * (truncate (value / 360) : ℚ)
    else value - 360 * (truncate (value / 360) : ℚ) + 360) = _
  have forward : ¬(360 : ℚ) < 0 := by norm_num
  generalize value - 360 * (truncate (value / 360) : ℚ) = rest
  rcases lt_trichotomy rest 0 with negative | rfl | positive
  · simp [forward, negative, negative.ne]
  · simp [forward]
  · simp [forward, positive.not_gt, positive.ne']

theorem remainder_mem : remainder value 360 ∈ Set.Ico (0 : ℚ) 360 := by
  have low := Binary64.lt_sub_truncate (value / 360)
  have high := Binary64.lt_sub_truncate (-(value / 360))
  rw [Binary64.truncate_neg, Int.cast_neg] at high
  rw [remainder_eq]
  split_ifs with negative
  · constructor <;> linarith
  · constructor <;> linarith

theorem remainder_modEq : value ≡ remainder value 360 [PMOD 360] := by
  rw [AddCommGroup.modEq_iff_eq_add_zsmul, remainder_eq]
  split_ifs with negative
  · refine ⟨1 - truncate (value / 360), ?_⟩
    rw [zsmul_eq_mul]
    push_cast
    ring
  · refine ⟨-truncate (value / 360), ?_⟩
    rw [zsmul_eq_mul]
    push_cast
    ring

end Remainder

/-! ### Turns -/

/-- The angular distance of two directions within one full turn. -/
def distance (origin goal : ℚ) : ℚ :=
  min |goal - origin| (360 - |goal - origin|)

/-- A turn from one direction to another, none of which is shorter. Between opposite directions
there are two. -/
structure ShortestTurn (origin goal turn : ℚ) : Prop where
  leads : origin + turn ≡ goal [PMOD 360]
  least : ∀ other, origin + other ≡ goal [PMOD 360] → |turn| ≤ |other|

/-- The directions that a shortest turn passes on its way. -/
def shorterArc (origin goal : ℚ) : Set ℚ :=
  {heading | ∃ turn part, ShortestTurn origin goal turn ∧ part ∈ Set.Icc (0 : ℚ) 1
    ∧ origin + part * turn ≡ heading [PMOD 360]}

section Turns

variable {origin goal turn : ℚ}

/-- A turn of at most the half is a shortest one. -/
theorem shortestTurn_of_short (leads : origin + turn ≡ goal [PMOD 360]) (short : |turn| ≤ 180) :
    ShortestTurn origin goal turn where
  leads := leads
  least other leadsToo := by
    obtain ⟨turns, rfl⟩ : ∃ turns : ℤ, other = turn + turns * 360 := by
      obtain ⟨turns, apart⟩ := AddCommGroup.modEq_iff_eq_add_zsmul.mp (leads.trans leadsToo.symm)
      rw [zsmul_eq_mul] at apart
      exact ⟨turns, by linarith⟩
    rcases eq_or_ne turns 0 with rfl | moved
    · simp
    · -- one more turn at least, which is twice as long as the half
      have far : (1 : ℚ) ≤ |(turns : ℚ)| := mod_cast Int.one_le_abs moved
      have most := abs_sub_abs_le_abs_sub (turns * 360 : ℚ) (-turn)
      rw [abs_mul, abs_neg, abs_of_pos (by norm_num : (0 : ℚ) < 360), sub_neg_eq_add,
        add_comm] at most
      linarith

/-- A turn of at most the half has the length of the distance. -/
theorem distance_of_short (fromTurn : origin ∈ Set.Ico (0 : ℚ) 360)
    (toTurn : goal ∈ Set.Ico (0 : ℚ) 360) (leads : origin + turn ≡ goal [PMOD 360])
    (short : |turn| ≤ 180) : distance origin goal = |turn| := by
  obtain ⟨turns, reached⟩ := AddCommGroup.modEq_iff_eq_add_zsmul.mp leads
  rw [zsmul_eq_mul] at reached
  obtain ⟨fromLow, fromHigh⟩ := fromTurn
  obtain ⟨toLow, toHigh⟩ := toTurn
  obtain ⟨low, high⟩ := abs_le.mp short
  have least : (-2 : ℚ) < turns := by linarith
  have most : (turns : ℚ) < 2 := by linarith
  have few : (turns : ℚ) = -1 ∨ (turns : ℚ) = 0 ∨ (turns : ℚ) = 1 := by
    have least : -2 < turns := mod_cast least
    have most : turns < 2 := mod_cast most
    have few : turns = -1 ∨ turns = 0 ∨ turns = 1 := by omega
    exact mod_cast few
  have apart : goal - origin = turn + turns * 360 := by linarith
  rw [distance, apart]
  rcases few with back | none | on
  · rw [back] at reached ⊢
    rw [abs_of_neg (by linarith), abs_of_pos (by linarith), min_eq_right (by linarith)]
    ring
  · rw [none, zero_mul, add_zero, min_eq_left (by linarith)]
  · rw [on] at reached ⊢
    rw [abs_of_pos (by linarith), abs_of_neg (by linarith), min_eq_right (by linarith)]
    ring

end Turns

/-! ### The turn of a camera -/

/-- The turn that a camera makes from one direction to another. -/
def cameraTurn (origin goal : ℚ) : ℚ :=
  if 180 < goal - origin then goal - (origin + 360)
  else if goal - origin < -180 then goal + 360 - origin
  else goal - origin

section CameraTurn

variable {origin goal : ℚ}

theorem cameraTurn_leads : origin + cameraTurn origin goal ≡ goal [PMOD 360] := by
  rw [AddCommGroup.modEq_iff_eq_add_zsmul, cameraTurn]
  split_ifs
  · exact ⟨1, by rw [one_zsmul]; ring⟩
  · exact ⟨-1, by rw [neg_one_zsmul]; ring⟩
  · exact ⟨0, by rw [zero_zsmul]; ring⟩

theorem cameraTurn_short (fromTurn : origin ∈ Set.Ico (0 : ℚ) 360)
    (toTurn : goal ∈ Set.Ico (0 : ℚ) 360) : |cameraTurn origin goal| ≤ 180 := by
  obtain ⟨fromLow, fromHigh⟩ := fromTurn
  obtain ⟨toLow, toHigh⟩ := toTurn
  rw [cameraTurn, abs_le]
  split_ifs with below above
  · constructor <;> linarith
  · constructor <;> linarith
  · exact ⟨not_lt.mp above, not_lt.mp below⟩

end CameraTurn

/-- On the way, a direction is the remainder by a full turn of a number to which a part of the turn
leads. -/
theorem exists_degrees_mixAngle (start finish : Angle ℚ) {part : ℚ} (some : 0 < part)
    (more : part < 1) :
    ∃ value, (mixAngle start finish part).degrees = remainder value 360
      ∧ start.degrees + part * cameraTurn start.degrees finish.degrees ≡ value [PMOD 360] := by
  rw [mixAngle, if_neg some.not_ge, if_neg more.not_ge, cameraTurn]
  dsimp only
  split
  · -- the turn leads to a full turn less than the sum
    refine ⟨_, rfl, AddCommGroup.modEq_iff_eq_add_zsmul.mpr ⟨1, ?_⟩⟩
    rw [one_zsmul]
    exact add_right_comm _ _ _
  · split
    · exact ⟨_, rfl, AddCommGroup.modEq_rfl⟩
    · exact ⟨_, rfl, AddCommGroup.modEq_rfl⟩

/-- **A direction on the way** is within one full turn, and a part of the turn leads to it. -/
theorem degrees_mixAngle {start finish : Angle ℚ} {part : ℚ}
    (fromTurn : start.degrees ∈ Set.Ico (0 : ℚ) 360)
    (toTurn : finish.degrees ∈ Set.Ico (0 : ℚ) 360) (low : 0 ≤ part) (high : part ≤ 1) :
    (mixAngle start finish part).degrees ∈ Set.Ico (0 : ℚ) 360
      ∧ start.degrees + part * cameraTurn start.degrees finish.degrees
          ≡ (mixAngle start finish part).degrees [PMOD 360] := by
  rcases low.eq_or_lt with rfl | some
  · rw [mixAngle, if_pos le_rfl, zero_mul, add_zero]
    exact ⟨fromTurn, AddCommGroup.modEq_rfl⟩
  · rcases high.eq_or_lt with rfl | more
    · rw [mixAngle, if_neg some.not_ge, if_pos le_rfl, one_mul]
      exact ⟨toTurn, cameraTurn_leads⟩
    · obtain ⟨value, eq, leads⟩ := exists_degrees_mixAngle start finish some more
      rw [eq]
      exact ⟨remainder_mem value, leads.trans (remainder_modEq value)⟩

section Interpolate

variable {start finish : Keyframe ℚ} {elapsed : ℚ}

theorem progress_mem (later : start.targetTime < finish.targetTime)
    (begun : start.targetTime ≤ elapsed) :
    progress start finish elapsed false ∈ Set.Icc (0 : ℚ) 1 := by
  have low := passed_nonneg later begun
  have high : passed start finish elapsed ≤ 1 := passed_le_one later
  change curve _ ∈ _
  constructor
  · rw [← curve_zero]
    exact curve_mono le_rfl low high
  · rw [← curve_one]
    exact curve_mono low high le_rfl

variable [Transcendental ℚ]

/-- **The camera turns the shorter way.** Strictly between two keyframes there is a position unless
the zoom grows from nothing. Its direction is within one full turn, on a shortest arc from the first
to the second, and as far from the first as the eased part of that arc is long. -/
theorem interpolate_turns (begun : start.targetTime < elapsed)
    (unfinished : elapsed < finish.targetTime)
    (fromTurn : start.angle.degrees ∈ Set.Ico (0 : ℚ) 360)
    (toTurn : finish.angle.degrees ∈ Set.Ico (0 : ℚ) 360) :
    (Completes (interpolate start finish elapsed) ↔ ¬GrowsFromNothing start finish elapsed)
      ∧ ∀ position, interpolate start finish elapsed = .ok position →
        position.angle.degrees ∈ Set.Ico (0 : ℚ) 360
          ∧ position.angle.degrees ∈ shorterArc start.angle.degrees finish.angle.degrees
          ∧ distance start.angle.degrees position.angle.degrees
            = progress start finish elapsed false
              * distance start.angle.degrees finish.angle.degrees := by
  have later := begun.trans unfinished
  refine ⟨completes_interpolate_iff later, fun shown done => ?_⟩
  rw [interpolate_eq later] at done
  obtain ⟨zoom, -, rfl⟩ := map_eq_ok done
  change (mixAngle start.angle finish.angle (progress start finish elapsed false)).degrees ∈ _
    ∧ (mixAngle start.angle finish.angle (progress start finish elapsed false)).degrees ∈ _
    ∧ distance _ (mixAngle start.angle finish.angle (progress start finish elapsed false)).degrees
      = _
  obtain ⟨low, high⟩ := progress_mem later begun.le
  obtain ⟨within, leads⟩ := degrees_mixAngle fromTurn toTurn low high
  have short := cameraTurn_short fromTurn toTurn
  have shortToo : |progress start finish elapsed false
      * cameraTurn start.angle.degrees finish.angle.degrees| ≤ 180 := by
    rw [abs_mul, abs_of_nonneg low]
    nlinarith [abs_nonneg (cameraTurn start.angle.degrees finish.angle.degrees)]
  refine ⟨within, ⟨_, _, shortestTurn_of_short cameraTurn_leads short, ⟨low, high⟩, leads⟩, ?_⟩
  rw [distance_of_short fromTurn within leads shortToo,
    distance_of_short fromTurn toTurn cameraTurn_leads short, abs_mul, abs_of_nonneg low]

end Interpolate

/-- Half of an eased way across north. -/
theorem interpolate_turns_across_north :
    let _ : Transcendental ℚ := ⟨fun _ => 0, fun base _ => base, max, fun _ _ => 0⟩
    let start : Keyframe ℚ := { Keyframe.standard with angle := .whole 350 }
    let finish : Keyframe ℚ := { Keyframe.standard with angle := .whole 10, targetTime := 1000 }
    start.targetTime < 500 ∧ 500 < finish.targetTime
      ∧ start.angle.degrees ∈ Set.Ico (0 : ℚ) 360 ∧ finish.angle.degrees ∈ Set.Ico (0 : ℚ) 360
      ∧ ∃ position, interpolate start finish 500 = .ok position
        ∧ position.angle.degrees ∈ shorterArc 350 10
        ∧ distance 350 position.angle.degrees = 10 := by
  intro _ start finish
  have begun : start.targetTime < 500 := by decide +kernel
  have unfinished : 500 < finish.targetTime := by decide +kernel
  have fromTurn : start.angle.degrees ∈ Set.Ico (0 : ℚ) 360 := by decide +kernel
  have toTurn : finish.angle.degrees ∈ Set.Ico (0 : ℚ) 360 := by decide +kernel
  obtain ⟨answers, turns⟩ := interpolate_turns begun unfinished fromTurn toTurn
  have grown : ¬GrowsFromNothing start finish 500 := fun grows =>
    absurd grows.2.1 (by decide +kernel)
  obtain ⟨position, done⟩ := answers.mpr grown
  obtain ⟨-, onArc, part⟩ := turns position done
  have half : progress start finish 500 false * distance start.angle.degrees finish.angle.degrees
      = 10 := by
    decide +kernel
  exact ⟨begun, unfinished, fromTurn, toTurn, position, done, onArc, part.trans half⟩

/-- Half of a way across north on which the zoom grows from nothing: there is no position, and so no
direction. -/
theorem interpolate_turns_nowhere :
    let _ : Transcendental ℚ := ⟨fun _ => 0, fun base _ => base, max, fun _ _ => 0⟩
    let start : Keyframe ℚ := { Keyframe.standard with zoom := 0, angle := .whole 350 }
    let finish : Keyframe ℚ := { Keyframe.standard with angle := .whole 10, targetTime := 1000 }
    start.targetTime < 500 ∧ 500 < finish.targetTime
      ∧ start.angle.degrees ∈ Set.Ico (0 : ℚ) 360 ∧ finish.angle.degrees ∈ Set.Ico (0 : ℚ) 360
      ∧ ¬Completes (interpolate start finish 500) := by
  intro _ start finish
  have later : start.targetTime < finish.targetTime := by decide +kernel
  have grows : GrowsFromNothing start finish 500 :=
    ⟨rfl, rfl, by decide +kernel, by decide +kernel⟩
  refine ⟨by decide +kernel, by decide +kernel, by decide +kernel, by decide +kernel, ?_⟩
  rw [completes_interpolate_iff later]
  exact not_not_intro grows

end Showreel.Waypoint.Motion
