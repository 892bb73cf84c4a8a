import Showreel.Proofs.Playback.Burst
import Showreel.Proofs.Playback.Player
import Showreel.Proofs.Playback.Phases

/-!
Contract: playback at rest, which is paused with nobody travelling.

Owns:
- the steps that a frame makes at rest, and what they leave alone;
- a frame at rest as the fitting of the view, these steps and the drift;
- that frames leave playback at rest.

Does not own: what a frame does to the camera or to the world.
-/

namespace Showreel

open Number

namespace Playback

variable {α : Type} [Scalar α]

/-- Playback that is paused, with nobody travelling. -/
structure AtRest (playback : Playback α) : Prop where
  paused : playback.playing = false
  still : playback.journey = none

/-- What no step of a frame changes: the timeline, the camera and the journey stay, no pause
ends, and another keyframe becomes active only where playback starts over. -/
structure KeepsView (before after : Playback α) : Prop where
  timeline : after.timeline = before.timeline
  camera : after.camera = before.camera
  journey : after.journey = before.journey
  poi : after.poi = before.poi
  paused : before.playing = false → after.playing = false
  active : after.active = before.active
    ∨ before.poi = none ∧ after.active = before.timeline.keyframes.first

instance : IsPreorder (Playback α) KeepsView where
  refl _ := ⟨rfl, rfl, rfl, rfl, id, .inl rfl⟩
  trans first second third earlier later := by
    refine ⟨later.timeline.trans earlier.timeline, later.camera.trans earlier.camera,
      later.journey.trans earlier.journey, later.poi.trans earlier.poi,
      later.paused ∘ earlier.paused, ?_⟩
    rcases later.active with same | ⟨alone, first⟩
    · rw [same]
      exact earlier.active
    · right
      rw [earlier.poi] at alone
      rw [earlier.timeline] at first
      exact ⟨alone, first⟩

theorem KeepsView.of_eq {before after : Playback α} (timeline : after.timeline = before.timeline)
    (camera : after.camera = before.camera) (journey : after.journey = before.journey)
    (poi : after.poi = before.poi) (playing : after.playing = before.playing)
    (active : after.active = before.active) : KeepsView before after :=
  ⟨timeline, camera, journey, poi, playing.trans, .inl active⟩

theorem keepsView_stepOnce (playback : Playback α) : KeepsView playback playback.stepOnce :=
  .of_eq rfl rfl rfl rfl rfl rfl

theorem keepsView_reset (playback : Playback α) : KeepsView playback playback.reset := by
  refine ⟨rfl, rfl, rfl, rfl, id, ?_⟩
  unfold reset
  dsimp only
  split
  case isTrue alone =>
    rw [Bool.and_eq_true, Option.isNone_iff_eq_none] at alone
    exact .inr ⟨alone.2, rfl⟩
  case isFalse => exact .inl rfl

theorem keepsView_halt {playback halted : Playback α} (halting : playback.halt? = some halted) :
    KeepsView playback halted := by
  unfold halt? at halting
  split at halting
  · cases halting
    exact ⟨rfl, rfl, rfl, rfl, fun _ => rfl, .inl rfl⟩
  · split at halting
    · cases halting
      exact IsTrans.trans _ (playback.note (.looped playback.world.generation)) _
        (.of_eq rfl rfl rfl rfl rfl rfl) (keepsView_reset _)
    · cases halting

/-- The steps of a frame in which no time passes. -/
def stepsAtRest (clock : Nat → α) (playback : Playback α) : Playback α :=
  match playback.openJob with
  | some job => (playback.runHistory clock job).1
  | none => (playback.runPending clock).1

theorem keepsView_runHistory (clock : Nat → α) (playback : Playback α) (job : HistoryJob) :
    KeepsView playback (playback.runHistory clock job).1 :=
  runHistory_within clock keepsView_stepOnce (fun _ => .of_eq rfl rfl rfl rfl rfl rfl)
    (fun _ _ _ => .of_eq rfl rfl rfl rfl rfl rfl) ..

theorem keepsView_runPending (clock : Nat → α) (playback : Playback α) :
    KeepsView playback (playback.runPending clock).1 :=
  runPending_within clock keepsView_stepOnce keepsView_halt
    (fun _ _ => .of_eq rfl rfl rfl rfl rfl rfl) ..

theorem keepsView_stepsAtRest (clock : Nat → α) (playback : Playback α) :
    KeepsView playback (playback.stepsAtRest clock) := by
  unfold stepsAtRest
  split
  · exact keepsView_runHistory ..
  · exact keepsView_runPending ..

/-- Playback with another camera. -/
def withCamera (playback : Playback α) (camera : Camera α) : Playback α :=
  { playback with camera := camera }

/-- The camera with which a frame at rest makes its steps. -/
def restingCamera (playback : Playback α) : Except Fault (Camera α) :=
  if playback.followsChain then .ok playback.camera else Player.askedCamera playback

end Playback

namespace Player

open Playback

variable {α : Type} [Scalar α]

/-- The drift changes the camera and where a track begins, and nothing else. -/
theorem drift_frame (playback : Playback α) :
    ∃ camera origin,
      after drift playback = { playback with camera := camera, trackOrigin := origin } := by
  rw [after_drift]
  split
  · split
    · exact ⟨_, _, rfl⟩
    · rw [after_followTrack]
      split
      · exact ⟨_, _, rfl⟩
      · exact ⟨_, _, rfl⟩
  · exact ⟨_, _, rfl⟩

/-- The steps of a frame keep the view, whether its time can be counted in generations or not. -/
theorem runSteps_keepsView (clock : Nat → α) (delta : α) :
    Within KeepsView (runSteps clock delta) := by
  intro playback
  rw [after_runSteps]
  split
  · exact keepsView_runHistory ..
  · split
    · split
      case h_1 collected collecting =>
        have gathered : KeepsView playback collected := by
          obtain ⟨whole, taken, -, -, rfl⟩ := collect_ok collecting
          exact .of_eq rfl rfl rfl rfl rfl rfl
        exact IsTrans.trans _ _ _ gathered (keepsView_runPending clock collected)
      case h_2 => exact .of_eq rfl rfl rfl rfl rfl rfl
    · exact keepsView_runPending clock playback

theorem after_passTime_of_rest {playback : Playback α} (rest : playback.AtRest) (delta : α) :
    after (passTime delta) playback = playback := by
  rw [after_passTime, rest.paused]
  rfl

theorem runSteps_of_rest {playback : Playback α} (rest : playback.AtRest) (clock : Nat → α)
    (delta : α) :
    (∃ report, answer (runSteps clock delta) playback = .ok report)
      ∧ after (runSteps clock delta) playback = playback.stepsAtRest clock := by
  constructor
  · unfold runSteps
    rw [answer_bind, answer_get, after_get]
    dsimp only
    cases playback.openJob with
    | some job => exact ⟨_, rfl⟩
    | none =>
        rw [rest.paused]
        exact ⟨_, rfl⟩
  · rw [after_runSteps, rest.paused]
    rfl

variable [Transcendental α]

theorem answer_moveCamera_of_rest {playback : Playback α} (rest : playback.AtRest) :
    answer moveCamera playback = playback.restingCamera.map fun _ => playback.active.message := by
  unfold moveCamera restingCamera
  rw [answer_bind, answer_get, after_get]
  dsimp only
  rw [rest.still]
  dsimp only
  cases following : playback.followsChain with
  | true =>
      rw [if_pos rfl, if_pos rfl, rest.paused]
      rfl
  | false =>
      rw [if_neg Bool.false_ne_true, if_neg Bool.false_ne_true, answer_bind, answer_fitCamera]
      cases askedCamera playback <;> rfl

/-- At rest the camera moves before the steps only to fit the view. -/
theorem after_moveCamera_of_rest {playback : Playback α} (rest : playback.AtRest) :
    after moveCamera playback =
      match playback.restingCamera with
      | .ok camera => playback.withCamera camera
      | .error _ => playback := by
  have moved := after_moveCamera playback
  rw [rest.still] at moved
  dsimp only at moved
  rw [moved]
  unfold restingCamera
  cases playback.followsChain with
  | true =>
      have waiting : (playback.playing && !playback.ended) = false := by
        rw [rest.paused, Bool.false_and]
      rw [if_pos rfl, if_pos rfl, waiting, if_neg Bool.false_ne_true]
      rfl
  | false =>
      rw [if_neg Bool.false_ne_true, if_neg Bool.false_ne_true, after_fitCamera]
      rfl

/-- Without the view that is asked for, a frame at rest does nothing. -/
theorem after_tick_of_error {playback : Playback α} (rest : playback.AtRest) {fault : Fault}
    (missing : playback.restingCamera = .error fault) (clock : Nat → α) (delta : α) :
    after (tick clock delta) playback = playback := by
  have failed : answer moveCamera playback = .error fault := by
    rw [answer_moveCamera_of_rest rest, missing]
    rfl
  rw [tick_eq, after_bind_of_ok _ _ (answer_passTime ..), after_passTime_of_rest rest,
    after_bind_of_error _ _ failed, after_moveCamera_of_rest rest, missing]

/-- A frame at rest takes the view that is asked for, makes its steps, lets the camera drift,
and shows what came of it. -/
theorem after_tick_of_ok {playback : Playback α} (rest : playback.AtRest) {camera : Camera α}
    (asked : playback.restingCamera = .ok camera) (clock : Nat → α) (delta : α) :
    ∃ locked undelivered, after (tick clock delta) playback =
      { after drift ((playback.withCamera camera).stepsAtRest clock) with
        locked := locked, undelivered := undelivered } := by
  have answered : answer moveCamera playback = .ok playback.active.message := by
    rw [answer_moveCamera_of_rest rest, asked]
    rfl
  have moved : after moveCamera playback = playback.withCamera camera := by
    rw [after_moveCamera_of_rest rest, asked]
  have still : (playback.withCamera camera).AtRest := ⟨rest.paused, rest.still⟩
  obtain ⟨⟨report, reported⟩, stepped⟩ := runSteps_of_rest still clock delta
  rw [tick_eq, after_bind_of_ok _ _ (answer_passTime ..), after_passTime_of_rest rest,
    after_bind_of_ok _ _ answered, moved, after_bind_of_ok _ _ reported, stepped, after_bind]
  cases answer drift ((playback.withCamera camera).stepsAtRest clock) with
  | ok value =>
      dsimp only
      rw [after_present]
      exact ⟨_, _, rfl⟩
  | error fault => exact ⟨_, _, rfl⟩

/-- A frame at rest keeps playback at rest, with the script as it is. Only the camera can be
another. -/
theorem keepsView_tick {playback : Playback α} (rest : playback.AtRest) (clock : Nat → α)
    (delta : α) :
    KeepsView playback { after (tick clock delta) playback with camera := playback.camera } := by
  cases asked : playback.restingCamera with
  | error fault =>
      rw [after_tick_of_error rest asked]
      exact .of_eq rfl rfl rfl rfl rfl rfl
  | ok camera =>
      have kept := keepsView_stepsAtRest clock (playback.withCamera camera)
      obtain ⟨locked, undelivered, ticked⟩ := after_tick_of_ok rest asked clock delta
      obtain ⟨drifted, origin, moved⟩ :=
        drift_frame ((playback.withCamera camera).stepsAtRest clock)
      rw [ticked, moved]
      exact ⟨kept.timeline, rfl, kept.journey, kept.poi, kept.paused, kept.active⟩

theorem atRest_tick {playback : Playback α} (rest : playback.AtRest) (clock : Nat → α)
    (delta : α) : (after (tick clock delta) playback).AtRest := by
  have kept := keepsView_tick rest clock delta
  exact ⟨kept.paused rest.paused, kept.journey.trans rest.still⟩

end Player

end Showreel
