import Showreel.Proofs.Number.Ordered
import Showreel.Proofs.Script.Session
import Showreel.Proofs.Script.RangedDrafts
import Showreel.Waypoint.Query

/-!
Contract: every value of a timeline is within its range.

Owns:
- cameras and keyframes in range, with the ends of the ranges as numbers;
- that the numbers a script may write are between these ends, whatever their token;
- that all keyframes and points of interest of a script are in range, if the live view is.

Does not own: how the values of a script reach its keyframes.
-/

namespace Showreel

open Number Scalar Waypoint

variable {α : Type} [Scalar α]

/-! ### Ranges of a timeline -/

/-- A view in range. A direction is a whole number of degrees, whether it was set or measured. -/
structure Camera.InRange (camera : Camera α) : Prop where
  real : camera.zoomLost = false
  zoom : 0.0625 ≤ camera.zoom ∧ camera.zoom ≤ 64
  angle : ∃ count : ℕ, count ≤ 359 ∧ denotation camera.angle.degrees = .finite count
  tilt : 1 ≤ camera.tilt ∧ camera.tilt ≤ 5
  layers : 1 ≤ camera.layers ∧ camera.layers ≤ 10
  depth : 0 ≤ camera.depth ∧ camera.depth ≤ 1
  theme : 0 ≤ camera.theme ∧ camera.theme ≤ 12

/-- A keyframe in range. The generations per second lie between one and the refresh rate; times are
divided by their product with the steps of a generation, which is not zero. -/
structure Keyframe.InRange (refreshRate : ℤ) (keyframe : Keyframe α) : Prop where
  view : keyframe.camera.InRange
  step : 1 ≤ keyframe.step ∧ keyframe.step ≤ 64
  gps : ∃ rate : α, ofInt refreshRate = .ok rate ∧ 1 ≤ keyframe.gps ∧ keyframe.gps ≤ rate
  speed : 0 ≤ keyframe.speed ∧ keyframe.speed ≤ 200
  stop : keyframe.stop = -1 ∨ 1 ≤ keyframe.stop
  loop : keyframe.loop = -1 ∨ 1 ≤ keyframe.loop
  start : -1 ≤ keyframe.startGeneration
  target : 0 ≤ keyframe.targetGeneration
  pace : ∃ pace : α, Chain.rate keyframe = .ok pace ∧ (pace == 0) = false
  travels : ∀ generations : ℤ, Chain.travelTime generations keyframe ≠ .error .divisionByZero

/-- The ranges of keyframes as a law. -/
def Law.inRange (α : Type) [Scalar α] (refreshRate : ℤ) : Law α where
  field
    | .zoom, zoom => 0.0625 ≤ zoom ∧ zoom ≤ 64
    | .angle, angle => ∃ count : ℕ, count ≤ 359 ∧ denotation (angle.degrees : α) = .finite count
    | .tilt, tilt => 1 ≤ tilt ∧ tilt ≤ 5
    | .layers, count => 1 ≤ count ∧ count ≤ 10
    | .depth, depth => 0 ≤ depth ∧ depth ≤ 1
    | .theme, theme => 0 ≤ theme ∧ theme ≤ 12
    | .gps, gps => ∃ count : ℤ, 1 ≤ count ∧ count ≤ refreshRate ∧ ofInt count = .ok gps
    | .step, count => 1 ≤ count ∧ count ≤ 64
    | .loop, generation | .stop, generation => generation = -1 ∨ 1 ≤ generation
    | .x, _ | .y, _ => True
  speed frames := 0 ≤ frames ∧ frames ≤ 200
  start generation := -1 ≤ generation
  target generation := 0 ≤ generation

/-- The view before any script has moved it is in range. -/
theorem Camera.InRange.standard [OrderedScalar α] : (Camera.standard : Camera α).InRange where
  real := rfl
  zoom := ⟨OrderedScalar.monotone (by decide) (by decide),
    OrderedScalar.monotone (by decide) (by decide)⟩
  angle := ⟨0, by decide, OrderedScalar.whole (by decide)⟩
  tilt := ⟨OrderedScalar.monotone (by decide) (by decide),
    OrderedScalar.monotone (by decide) (by decide)⟩
  layers := show (1 : ℤ) ≤ 1 ∧ (1 : ℤ) ≤ 10 by decide
  depth := ⟨OrderedScalar.monotone (by decide) (by decide),
    OrderedScalar.monotone (by decide) (by decide)⟩
  theme := show (0 : ℤ) ≤ 1 ∧ (1 : ℤ) ≤ 12 by decide

/-! ### Numbers of a script -/

namespace Script

theorem isFinite_of_readFinite {token : String} {value : α} (read : readFinite? token = some value) :
    isFinite value = true := by
  rcases Option.bind_eq_some_iff.mp read with ⟨literal, -, stands⟩
  unfold ofLiteral? at stands
  dsimp only at stands
  split at stands
  · split_ifs at stands with finite
    exact Option.some.inj stands ▸ finite
  · cases stands

section Ordered

variable [OrderedScalar α]

/-- A token stands for a number, however large. -/
theorem IsRead.number {value : α} (read : IsRead value) : denotation value ≠ .undefined := by
  rcases read with ⟨token, read⟩
  unfold readToken? at read
  split at read
  · rename_i number found
    exact Option.some.inj read ▸ denotation_of_isFinite (isFinite_of_readFinite found)
  · rcases Option.map_eq_some_iff.mp read with ⟨⟨numerator, denominator⟩, parts, rfl⟩
    rcases Option.bind_eq_some_iff.mp parts with ⟨⟨left, right⟩, -, parts⟩
    rcases Option.bind_eq_some_iff.mp parts with ⟨number, above, parts⟩
    rcases Option.map_eq_some_iff.mp parts with ⟨other, below, same⟩
    cases same
    dsimp only
    split
    · exact denotation_ofRat_ne_undefined (by norm_num)
    · rename_i nonzero
      exact OrderedScalar.quotient (isFinite_of_readFinite above) (isFinite_of_readFinite below)
        (Bool.eq_false_iff.mpr nonzero)

/-- A number that passes the test of bounds is between them. -/
theorem IsRead.between {low high value : α} (read : IsRead value)
    (lowNumber : denotation low ≠ .undefined) (highNumber : denotation high ≠ .undefined)
    (bounded : (Bounds.between low high).contains value = true) : low ≤ value ∧ value ≤ high := by
  simp [Bounds.contains, Bounds.between] at bounded
  exact ⟨OrderedScalar.total read.number lowNumber bounded.1,
    OrderedScalar.total highNumber read.number bounded.2⟩

/-- **Every magnification is from a sixteenth to sixty-four**, a reciprocal too. -/
theorem IsReadZoom.between {zoom : α} (read : IsReadZoom zoom) : 0.0625 ≤ zoom ∧ zoom ≤ 64 := by
  rcases read with ⟨literal, -, magnified⟩
  unfold Reading.magnification at magnified
  split at magnified
  · rename_i direct
    exact Option.some.inj magnified ▸ direct
  · split at magnified
    · rename_i negative
      exact Option.some.inj magnified ▸ OrderedScalar.magnification negative.1 negative.2
    · cases magnified

theorem denotation_whole {count : ℤ} (atLeast : 0 ≤ count) (atMost : count ≤ 359) :
    ∃ degrees : ℕ, degrees ≤ 359
      ∧ denotation ((Angle.whole count : Angle α).degrees) = .finite degrees := by
  obtain ⟨degrees, rfl⟩ := Int.eq_ofNat_of_zero_le atLeast
  exact ⟨degrees, by omega, OrderedScalar.whole (by omega)⟩

/-- **What a script may write is in range.** -/
theorem RangedWaypoint.inRange {refreshRate : ℤ} (lively : 1 ≤ refreshRate) {waypoint : Waypoint α}
    (ranged : RangedWaypoint refreshRate waypoint) : waypoint.Keeps (Law.inRange α refreshRate) := by
  have ordinary : ∀ count : ℕ, count ≤ 5 → denotation (ofRat (count : ℚ) : α) ≠ .undefined := by
    intro count small
    rw [OrderedScalar.whole (by omega)]
    exact nofun
  apply ranged.mono
  · intro field value inRange
    cases field with
    | x => exact trivial
    | y => exact trivial
    | zoom => exact inRange.between
    | angle =>
        rcases inRange with ⟨count, atLeast, atMost, rfl⟩
        exact denotation_whole atLeast atMost
    | tilt => exact inRange.1.between (ordinary 1 (by omega)) (ordinary 5 (by omega)) inRange.2
    | layers => exact inRange
    | depth => exact inRange.1.between (ordinary 0 (by omega)) (ordinary 1 (by omega)) inRange.2
    | theme => exact inRange
    | gps => exact inRange lively
    | step => exact inRange
    | loop => exact inRange
    | stop => exact inRange
  · exact fun _ within => within
  · exact fun _ late => late
  · exact fun _ late => late

end Ordered

/-! ### Timelines in range -/

section Timeline

variable [OrderedScalar α] {refreshRate : ℤ} {keyframe : Keyframe α}

/-- A keyframe whose values keep to the law is in range, its pace included. -/
theorem inRange_of_keeps {rate : α} (known : ofInt refreshRate = .ok rate)
    (keeps : keyframe.Keeps (Law.inRange α refreshRate)) (real : keyframe.zoomLost = false) :
    keyframe.InRange refreshRate := by
  obtain ⟨count, atLeast, atMost, converted⟩ := keeps.field .gps
  have steps : 1 ≤ keyframe.step ∧ keyframe.step ≤ 64 := keeps.field .step
  have view : keyframe.camera.InRange :=
    ⟨real, keeps.field .zoom, keeps.field .angle, keeps.field .tilt, keeps.field .layers,
      keeps.field .depth, keeps.field .theme⟩
  obtain ⟨factor, stepped⟩ : ∃ factor : α, ofInt keyframe.step = .ok factor :=
    exists_ofInt_of_small (by rw [abs_of_nonneg] <;> omega)
  have nonzero : (keyframe.gps * factor == (0 : α)) = false :=
    LawfulScalar.product atLeast steps.1 converted stepped
  refine ⟨view, steps, ⟨rate, known, one_le_ofInt atLeast converted, ?below⟩, keeps.speed,
    keeps.field .stop, keeps.field .loop, keeps.start, keeps.target,
    ⟨keyframe.gps * factor, ?pace, nonzero⟩, ?travels⟩
  case below => exact ofInt_mono (by omega) atMost converted known
  case pace =>
    unfold Chain.rate
    rw [stepped]
    rfl
  case travels =>
    intro generations
    unfold Chain.travelTime
    rw [stepped]
    rcases ofInt_cases (α := α) generations with within | tooLarge
    · rw [within]
      show divide (ofRat generations * 1000) (keyframe.gps * factor) ≠ _
      rw [divide, nonzero]
      intro impossible
      cases impossible
    · rw [tooLarge]
      intro impossible
      cases impossible

/-- **Every keyframe and every point of interest of a script is in range**, if the live view is and
the refresh rate is at least one. -/
theorem interpret_inRange (context : Context α) (text : String) (interpretation : Interpretation α)
    (lively : 1 ≤ context.settings.refreshRate) (view : context.camera.InRange)
    (done : interpret context text = .ok interpretation) :
    ∀ keyframe ∈ interpretation.timeline.keyframes.toList ++ interpretation.timeline.pois,
      keyframe.InRange context.settings.refreshRate := by
  have step : (1 : ℤ) ≤ 1 ∧ (1 : ℤ) ≤ 64 := by decide
  have speed : 0 ≤ Keyframe.standardSpeed ∧ Keyframe.standardSpeed ≤ 200 := by decide
  have allows : (Law.inRange α context.settings.refreshRate).Allows context.settings.refreshRate :=
    ⟨step, fun _ pinned => ⟨_, lively, le_refl _, pinned⟩, speed, le_refl _⟩
  have live : ∀ gps : α, (ofInt context.settings.refreshRate : Except Fault α) = .ok gps →
      (Keyframe.ofCamera context.camera gps 1).Keeps
        (Law.inRange α context.settings.refreshRate) := by
    intro gps known
    refine ⟨fun field => ?_, speed, le_refl _, le_refl _⟩
    cases field with
    | x => exact trivial
    | y => exact trivial
    | zoom => exact view.zoom
    | angle => exact view.angle
    | tilt => exact view.tilt
    | layers => exact view.layers
    | depth => exact view.depth
    | theme => exact view.theme
    | gps => exact ⟨_, lively, le_refl _, known⟩
    | step => exact step
    | loop => exact .inl rfl
    | stop => exact .inl rfl
  have keeps := interpret_keeps allows (fun _ ranged => ranged.inRange lively) live done
  obtain ⟨first, later, pois, rate, resolved, -, known, built, chain, points⟩ := interpret_built done
  intro keyframe member
  have real : keyframe.zoomLost = false := by
    apply Chain.build_real built keyframe
    rwa [← chain, ← points]
  exact inRange_of_keeps known (keeps keyframe member) real

/-- A reciprocal zoom, a pace beyond the refresh rate, a fraction, and a point of interest that copies
its direction. -/
theorem interpret_inRange_pace :
    let context : Context Float := ⟨.standard, .standard, .standard⟩
    let script := "[[ ZOOM -4 ANGLE 90 GPS 200 T 10 DEPTH 1/3 POI ANGLE INITIAL ZOOM 3 ]]"
    ∃ interpretation, interpret context script = .ok interpretation
      ∧ 1 ≤ context.settings.refreshRate ∧ context.camera.InRange
      ∧ (interpretation.timeline.keyframes.toList.length = 2 ∧ interpretation.timeline.pois.length = 1)
      ∧ ∀ keyframe ∈ interpretation.timeline.keyframes.toList ++ interpretation.timeline.pois,
          keyframe.InRange 60 := by
  intro context script
  have checked : (interpret context script).toOption.any (fun interpretation =>
      interpretation.timeline.keyframes.toList.length == 2
        && interpretation.timeline.pois.length == 1) = true := by
    decide +kernel
  rcases exists_interpretation checked with ⟨interpretation, interpreted, facts⟩
  simp only [Bool.and_eq_true, beq_iff_eq] at facts
  have lively : 1 ≤ context.settings.refreshRate := by decide
  have ranged := interpret_inRange context script interpretation lively .standard interpreted
  exact ⟨interpretation, interpreted, lively, .standard, facts, ranged⟩

end Timeline

end Script

end Showreel
