import Showreel.Number.Shortest
import Showreel.Proofs.Waypoint.Change
import Showreel.Proofs.Waypoint.Progress

/-!
Contract: the position between two keyframes, over exact rationals.

Owns:
- how much of the way is done, straight or eased, where a way of a single frame is a jump;
- the position as the mix of all fields, and exactly when there is one;
- that it has the view of either keyframe at the ends of the way, stays between them, and has the
  settings of the second.

Does not own: how one position follows another.
-/

namespace Showreel

open Number Scalar

/-! ### Views and settings -/

/-- Two keyframes in one view. -/
structure Keyframe.SameView {α : Type} (keyframe other : Keyframe α) : Prop where
  x : keyframe.x = other.x
  y : keyframe.y = other.y
  zoom : keyframe.zoom? = other.zoom?
  angle : keyframe.angle = other.angle
  tilt : keyframe.tilt = other.tilt
  layers : keyframe.layers = other.layers
  depth : keyframe.depth = other.depth

/-- Two keyframes with one theme, one pace, the same limits and one message. -/
structure Keyframe.SameSettings {α : Type} (keyframe other : Keyframe α) : Prop where
  theme : keyframe.theme = other.theme
  gps : keyframe.gps = other.gps
  step : keyframe.step = other.step
  stop : keyframe.stop = other.stop
  loop : keyframe.loop = other.loop
  message : keyframe.message = other.message

namespace Waypoint.Motion

/-! ### Progress -/

section Progress

variable (start finish : Keyframe ℚ) (elapsed : ℚ)

/-- How much of the way is done at a time. A way of a single frame is done at once. -/
def passed : ℚ :=
  if closeTo (finish.targetTime - start.targetTime) frameTime then 1
  else fraction start.targetTime finish.targetTime elapsed

/-- How much of the way a field has moved, straight or eased. -/
def progress (straight : Bool) : ℚ :=
  if straight then passed start finish elapsed else curve (passed start finish elapsed)

end Progress

section Passed

variable {start finish : Keyframe ℚ} {elapsed other : ℚ}

theorem passed_mono (later : start.targetTime < finish.targetTime) (within : elapsed ≤ other) :
    passed start finish elapsed ≤ passed start finish other := by
  unfold passed
  split
  · exact le_rfl
  · exact fraction_mono later within

theorem passed_le_one (later : start.targetTime < finish.targetTime) :
    passed start finish elapsed ≤ 1 := by
  unfold passed
  split
  · exact le_rfl
  · exact fraction_le_one later

theorem passed_nonneg (later : start.targetTime < finish.targetTime)
    (begun : start.targetTime ≤ elapsed) : 0 ≤ passed start finish elapsed := by
  unfold passed
  split
  · exact zero_le_one
  · exact fraction_nonneg later begun

theorem passed_start (later : start.targetTime < finish.targetTime)
    (slow : closeTo (finish.targetTime - start.targetTime) frameTime = false) :
    passed start finish start.targetTime = 0 := by
  rw [passed, slow, if_neg Bool.false_ne_true, fraction_start later]

theorem passed_of_le (later : start.targetTime < finish.targetTime)
    (past : finish.targetTime ≤ elapsed) : passed start finish elapsed = 1 := by
  unfold passed
  split
  · rfl
  · exact fraction_of_le later past

theorem progress_of_passed_eq_zero (begins : passed start finish elapsed = 0) (straight : Bool) :
    progress start finish elapsed straight = 0 := by
  rw [progress, begins, curve_zero, ite_self]

theorem progress_of_passed_eq_one (ends : passed start finish elapsed = 1) (straight : Bool) :
    progress start finish elapsed straight = 1 := by
  rw [progress, ends, curve_one, ite_self]

/-- Where none of the way is done, a mix is its first value. -/
theorem mix_progress_start (begins : passed start finish elapsed = 0) (straight : Bool)
    {origin goal : ℚ} : mix origin goal (progress start finish elapsed straight) = origin := by
  rw [progress_of_passed_eq_zero begins, mix_zero]

/-- Where all of the way is done, a mix is its second value. -/
theorem mix_progress_finish (ends : passed start finish elapsed = 1) (straight : Bool)
    {origin goal : ℚ} : mix origin goal (progress start finish elapsed straight) = goal := by
  rw [progress_of_passed_eq_one ends, mix_one]

theorem smaller_eq_min (value other : ℚ) : smaller value other = min value other := by
  unfold smaller
  split
  · rename_i less
    exact (min_eq_right less.le).symm
  · rename_i atMost
    exact (min_eq_left (not_lt.mp atMost)).symm

theorem progressAt_eq (later : start.targetTime < finish.targetTime) :
    progressAt start.targetTime finish.targetTime (smaller elapsed finish.targetTime)
      = .ok (passed start finish elapsed, curve (passed start finish elapsed)) := by
  unfold progressAt passed
  dsimp only
  split
  · rw [if_pos (beq_self_eq_true finish.targetTime), curve_one]
    rfl
  · have apart : (finish.targetTime == start.targetTime) = false := beq_false_of_ne later.ne'
    rw [apart, if_neg Bool.false_ne_true, settleProgress_eq, smaller_eq_min]
    change (ease (fraction start.targetTime finish.targetTime elapsed)).map _ = _
    rw [ease_eq]
    rfl

end Passed

/-! ### The fields -/

section Fields

variable {start finish : Keyframe ℚ} {elapsed : ℚ}

theorem truncate_intCast (count : ℤ) : truncate (count : ℚ) = count := by
  simp [truncate]

theorem mixWhole_eq (origin goal : ℤ) (done : ℚ) :
    mixWhole origin goal done = .ok (truncate (mix (origin : ℚ) goal done)) := by
  unfold mixWhole mix
  split
  · rw [truncate_intCast]
  · split
    · rw [truncate_intCast]
    · rw [← Int.cast_sub]
      rfl

/-- The zoom is to grow by equal factors from nothing. -/
def GrowsFromNothing (start finish : Keyframe ℚ) (elapsed : ℚ) : Prop :=
  finish.zoomLinear = false ∧ start.zoom? = some 0
    ∧ 0 < progress start finish elapsed finish.autofit
    ∧ progress start finish elapsed finish.autofit < 1

variable [Transcendental ℚ]

theorem mixZoom_zero (origin goal : Option ℚ) (straight : Bool) :
    mixZoom origin goal 0 straight = .ok origin :=
  if_pos le_rfl

theorem mixZoom_one (origin goal : Option ℚ) (straight : Bool) :
    mixZoom origin goal 1 straight = .ok goal :=
  (if_neg (by decide)).trans (if_pos le_rfl)

theorem completes_growZoom_iff {origin goal done : ℚ} :
    Completes (growZoom origin goal done) ↔ origin ≠ 0 := by
  by_cases nothing : origin = 0
  · subst nothing
    exact iff_of_false (not_completes_error _) fun some => some rfl
  · have apart : (origin == (0 : ℚ)) = false := beq_false_of_ne nothing
    refine iff_of_true ?_ nothing
    unfold growZoom divide
    rw [apart, if_neg Bool.false_ne_true]
    change Completes (if _ then _ else _)
    split
    · exact ⟨none, rfl⟩
    · exact ⟨_, rfl⟩

/-- There is a zoom on the way unless it grows by equal factors from nothing. -/
theorem completes_mixZoom_iff {origin goal : Option ℚ} {done : ℚ} {straight : Bool} :
    Completes (mixZoom origin goal done straight)
      ↔ ¬(straight = false ∧ origin = some 0 ∧ 0 < done ∧ done < 1) := by
  unfold mixZoom
  split
  · rename_i none
    exact iff_of_true ⟨origin, rfl⟩ fun grows => absurd none (not_le.mpr grows.2.2.1)
  · rename_i some
    split
    · rename_i all
      exact iff_of_true ⟨goal, rfl⟩ fun grows => absurd all (not_le.mpr grows.2.2.2)
    · rename_i part
      have between : 0 < done ∧ done < 1 := ⟨not_le.mp some, not_le.mp part⟩
      rw [and_iff_left between]
      split
      · rename_i origin goal
        cases straight with
        | true => exact iff_of_true ⟨_, rfl⟩ nofun
        | false => simpa using completes_growZoom_iff
      · rename_i origin
        cases straight with
        | true => exact iff_of_true ⟨_, rfl⟩ nofun
        | false =>
            by_cases nothing : origin = 0
            · rw [nothing]
              exact iff_of_false (not_completes_error _) fun grows => grows ⟨rfl, rfl⟩
            · have apart : (origin == (0 : ℚ)) = false := beq_false_of_ne nothing
              rw [apart]
              exact iff_of_true ⟨_, rfl⟩ fun grows => nothing (Option.some.inj grows.2)
      · exact iff_of_true ⟨_, rfl⟩ nofun

end Fields

/-! ### The whole position -/

section Position

variable (start finish : Keyframe ℚ) (elapsed : ℚ)

/-- The position between two keyframes, once its zoom is known. -/
def position (zoom : Option ℚ) : Keyframe ℚ :=
  { finish with
    x := mix start.x finish.x (progress start finish elapsed (finish.xLinear || finish.autofit))
    y := mix start.y finish.y (progress start finish elapsed (finish.yLinear || finish.autofit))
    zoom := zoom.getD finish.zoom
    zoomLost := zoom.isNone
    angle := mixAngle start.angle finish.angle (progress start finish elapsed false)
    tilt := mix start.tilt finish.tilt (progress start finish elapsed false)
    layers := truncate (mix (start.layers : ℚ) finish.layers (passed start finish elapsed))
    depth := mix start.depth finish.depth (progress start finish elapsed true)
    targetGeneration := truncate
      (mix (start.targetGeneration : ℚ) finish.targetGeneration (passed start finish elapsed))
    targetTime := min elapsed finish.targetTime }

variable {start finish elapsed} [Transcendental ℚ]

/-- **The position is the mix of all fields**, with the zoom as the only one that may fail. -/
theorem interpolate_eq (later : start.targetTime < finish.targetTime) :
    interpolate start finish elapsed
      = (mixZoom start.zoom? finish.zoom?
          (progress start finish elapsed (finish.zoomLinear || finish.autofit))
          finish.zoomLinear).map (position start finish elapsed) := by
  unfold interpolate
  dsimp only
  rw [progressAt_eq later]
  change (mixZoom start.zoom? finish.zoom?
    (progress start finish elapsed (finish.zoomLinear || finish.autofit)) finish.zoomLinear
      >>= fun zoom => _) = _
  cases mixZoom start.zoom? finish.zoom?
    (progress start finish elapsed (finish.zoomLinear || finish.autofit)) finish.zoomLinear with
  | error fault => rfl
  | ok zoom =>
      simp only [mixWhole_eq, smaller_eq_min]
      rfl

/-- There is a position at every time at which the zoom does not grow from nothing. -/
theorem completes_interpolate_iff (later : start.targetTime < finish.targetTime) :
    Completes (interpolate start finish elapsed) ↔ ¬GrowsFromNothing start finish elapsed := by
  rw [interpolate_eq later, completes_map_iff, completes_mixZoom_iff, GrowsFromNothing]
  refine not_congr (and_congr_right fun eased => ?_)
  rw [eased, Bool.false_or]

end Position

/-! ### The ends of the way -/

section Ends

variable {start finish : Keyframe ℚ} {elapsed : ℚ}

theorem position_zoom? (zoom : Option ℚ) :
    (position start finish elapsed zoom).zoom? = zoom := by
  cases zoom <;> rfl

theorem position_sameSettings (zoom : Option ℚ) :
    (position start finish elapsed zoom).SameSettings finish :=
  ⟨rfl, rfl, rfl, rfl, rfl, rfl⟩

theorem position_sameView_start (begins : passed start finish elapsed = 0) :
    (position start finish elapsed start.zoom?).SameView start where
  x := mix_progress_start begins _
  y := mix_progress_start begins _
  zoom := position_zoom? _
  angle := by
    dsimp only [position]
    rw [progress_of_passed_eq_zero begins, mixAngle, if_pos le_rfl]
  tilt := mix_progress_start begins _
  layers := by
    dsimp only [position]
    rw [begins, mix_zero, truncate_intCast]
  depth := mix_progress_start begins _

theorem position_sameView_finish (ends : passed start finish elapsed = 1) :
    (position start finish elapsed finish.zoom?).SameView finish where
  x := mix_progress_finish ends _
  y := mix_progress_finish ends _
  zoom := position_zoom? _
  angle := by
    dsimp only [position]
    rw [progress_of_passed_eq_one ends, mixAngle, if_neg (by decide), if_pos le_rfl]
  tilt := mix_progress_finish ends _
  layers := by
    dsimp only [position]
    rw [ends, mix_one, truncate_intCast]
  depth := mix_progress_finish ends _

variable [Transcendental ℚ]

/-- Where none of the way is done, the position has the view of the first keyframe. -/
theorem interpolate_of_passed_eq_zero (later : start.targetTime < finish.targetTime)
    (begins : passed start finish elapsed = 0) :
    interpolate start finish elapsed = .ok (position start finish elapsed start.zoom?) := by
  rw [interpolate_eq later, progress_of_passed_eq_zero begins, mixZoom_zero]
  rfl

/-- Where all of the way is done, the position has the view of the second keyframe. -/
theorem interpolate_of_passed_eq_one (later : start.targetTime < finish.targetTime)
    (ends : passed start finish elapsed = 1) :
    interpolate start finish elapsed = .ok (position start finish elapsed finish.zoom?) := by
  rw [interpolate_eq later, progress_of_passed_eq_one ends, mixZoom_one]
  rfl

/-- **The position between two keyframes.** There is one at every time at which the zoom does not
grow from nothing. It has the view of the first keyframe when its time comes, unless the way takes a
single frame, and that of the second from its time on. It is between the two all along, and its
settings are those of the second. -/
theorem interpolate_between_keyframes (elapsed : ℚ) (later : start.targetTime < finish.targetTime) :
    (closeTo (finish.targetTime - start.targetTime) frameTime = false →
        ∃ position, interpolate start finish start.targetTime = .ok position
          ∧ position.SameView start)
      ∧ (finish.targetTime ≤ elapsed →
        ∃ position, interpolate start finish elapsed = .ok position ∧ position.SameView finish)
      ∧ (Completes (interpolate start finish elapsed) ↔ ¬GrowsFromNothing start finish elapsed)
      ∧ ∀ position, interpolate start finish elapsed = .ok position →
        position.x ∈ Set.uIcc start.x finish.x ∧ position.y ∈ Set.uIcc start.y finish.y
          ∧ position.tilt ∈ Set.uIcc start.tilt finish.tilt
          ∧ position.depth ∈ Set.uIcc start.depth finish.depth
          ∧ position.SameSettings finish := by
  refine ⟨fun slow => ?_, fun past => ?_, completes_interpolate_iff later, fun shown done => ?_⟩
  · have begins := passed_start later slow
    exact ⟨_, interpolate_of_passed_eq_zero later begins, position_sameView_start begins⟩
  · have ends := passed_of_le later past
    exact ⟨_, interpolate_of_passed_eq_one later ends, position_sameView_finish ends⟩
  · rw [interpolate_eq later] at done
    obtain ⟨zoom, -, rfl⟩ := map_eq_ok done
    exact ⟨mix_mem_uIcc _ _ _, mix_mem_uIcc _ _ _, mix_mem_uIcc _ _ _, mix_mem_uIcc _ _ _,
      position_sameSettings zoom⟩

end Ends

/-- Half of an eased way on which everything changes. -/
theorem interpolate_between_keyframes_half_way :
    let _ : Transcendental ℚ := ⟨fun _ => 0, fun base _ => base, max, fun _ _ => 0⟩
    let start : Keyframe ℚ := { Keyframe.standard with x := 10, tilt := 0, layers := 3 }
    let finish : Keyframe ℚ := { Keyframe.standard with
      x := -5, y := 7, zoom := 2, zoomLinear := true, depth := 1, message := "there",
      targetTime := 1000 }
    start.targetTime < finish.targetTime
      ∧ closeTo (finish.targetTime - start.targetTime) frameTime = false
      ∧ (∃ position, interpolate start finish start.targetTime = .ok position
        ∧ position.SameView start)
      ∧ (∃ position, interpolate start finish 2000 = .ok position ∧ position.SameView finish)
      ∧ ∃ position, interpolate start finish 500 = .ok position
        ∧ position.x ∈ Set.uIcc 10 (-5) ∧ position.SameSettings finish := by
  intro _ start finish
  have later : start.targetTime < finish.targetTime := by decide +kernel
  have slow : closeTo (finish.targetTime - start.targetTime) frameTime = false := by
    decide +kernel
  obtain ⟨atStart, -⟩ := interpolate_between_keyframes 0 later
  obtain ⟨-, past, -⟩ := interpolate_between_keyframes 2000 later
  obtain ⟨-, -, answers, between⟩ := interpolate_between_keyframes 500 later
  have grown : ¬GrowsFromNothing start finish 500 := fun grows =>
    absurd grows.2.1 (by decide +kernel)
  obtain ⟨position, done⟩ := answers.mpr grown
  obtain ⟨x, -, -, -, settings⟩ := between position done
  exact ⟨later, slow, atStart slow, past (by decide +kernel), position, done, x, settings⟩

/-- Two ways that take longer than a single frame. From a zoom of nothing there is no position half
way, and a way that is longer by less than a part in a thousand million million is a jump all the
same. -/
theorem interpolate_leaves_keyframes :
    let _ : Transcendental ℚ := ⟨fun _ => 0, fun base _ => base, max, fun _ _ => 0⟩
    let start : Keyframe ℚ := .standard
    let nothing : Keyframe ℚ := { start with zoom := 0 }
    let finish : Keyframe ℚ := { start with x := 100, targetTime := 1000 }
    let soon : Keyframe ℚ := { start with x := 100, targetTime := 16.66666666666667 }
    (nothing.targetTime < finish.targetTime
        ∧ finish.targetTime - nothing.targetTime ≠ frameTime
        ∧ ¬Completes (interpolate nothing finish 500))
      ∧ start.targetTime < soon.targetTime ∧ soon.targetTime - start.targetTime ≠ frameTime
        ∧ ∃ position, interpolate start soon start.targetTime = .ok position
          ∧ position.x = 100 ∧ start.x = 0 := by
  intro _ start nothing finish soon
  have later : nothing.targetTime < finish.targetTime := by decide +kernel
  have grows : GrowsFromNothing nothing finish 500 :=
    ⟨rfl, rfl, by decide +kernel, by decide +kernel⟩
  have soonLater : start.targetTime < soon.targetTime := by decide +kernel
  have ends : passed start soon start.targetTime = 1 := by decide +kernel
  refine ⟨⟨later, by decide +kernel, ?_⟩, soonLater, by decide +kernel, _,
    interpolate_of_passed_eq_one soonLater ends, (position_sameView_finish ends).x, rfl⟩
  rw [completes_interpolate_iff later]
  exact not_not_intro grows

end Waypoint.Motion

end Showreel
