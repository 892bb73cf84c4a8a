import Showreel.Proofs.Playback.Player

/-!
Contract: a frame as its phases.

Owns:
- the last two phases of a frame by name, the drift of the camera and the showing of the
  frame, and the frame as the sequence of its five phases;
- what each phase leaves behind, whether it has an answer or not;
- what the host's hand leaves behind, and the arrival at a point of interest as its parts.

Does not own: what a whole frame keeps; later modules derive that from its phases.
-/

namespace Showreel

open Number

namespace Playback

variable {α : Type} [Scalar α]

/-- Playback that stands at a point of interest and has not yet acted. -/
def standingAt (playback : Playback α) (poi : Keyframe α) : Playback α :=
  { playback with camera := poi.camera, active := poi, stopFired := false }.note
    (.arrived (playback.poi.elim (-1) Int.ofNat))

/-- Playback after the action of a point of interest. -/
def acting (playback : Playback α) : Waypoint.Action → Playback α
  | .play => playback.play
  | .stop => playback.pause
  | .none => playback

/-- Playback with the history that a point of interest asks for. -/
def withHistory (playback : Playback α) (generation : Int) : Playback α :=
  if 0 ≤ generation then { playback with job := some ⟨generation, false⟩ } else playback

theorem arrive_eq (playback : Playback α) (poi : Keyframe α) :
    playback.arrive poi =
      ((if poi.resets then (playback.standingAt poi).reset
        else playback.standingAt poi).acting poi.action).withHistory poi.startGeneration :=
  rfl

/-- A journey to a point of interest begins at its first frame, and takes the time of the point's
speed. -/
theorem journeyTo_eq_ok {playback : Playback α} {place : Nat} {journey : Journey α}
    (begun : playback.journeyTo place = .ok journey) :
    journey.poi = place ∧ journey.frame = 0
      ∧ Scalar.ofInt (poiAt playback.timeline place).speed = .ok journey.finish.targetTime := by
  unfold journeyTo at begun
  dsimp only at begun
  split at begun
  · cases begun
  · rename_i counted
    cases begun
    exact ⟨rfl, rfl, counted⟩

theorem exists_journeyTo {playback : Playback α} {place : Nat} {count : α}
    (counted : Scalar.ofInt (poiAt playback.timeline place).speed = .ok count) :
    ∃ journey, playback.journeyTo place = .ok journey := by
  unfold journeyTo
  dsimp only
  split
  · rename_i failed
    cases failed.symm.trans counted
  · exact ⟨_, rfl⟩

end Playback

namespace Player

variable {α : Type} [Scalar α]

/-! ### Phases that only reckon -/

theorem answer_passTime (delta : α) (playback : Playback α) :
    answer (passTime delta) playback = .ok () :=
  rfl

theorem after_passTime (delta : α) (playback : Playback α) :
    after (passTime delta) playback =
      if playback.playing then { playback with elapsed := playback.elapsed + delta }
      else playback :=
  rfl

/-- The camera that the active keyframe asks for, by fitting the view to the world. -/
def askedCamera (playback : Playback α) : Except Fault (Camera α) :=
  if playback.active.autofit then
    (Playback.fittedView playback.world playback.settings).map fun view =>
      view.elim playback.camera fun view => { playback.camera with
        x := view.x, y := view.y, zoom := view.zoom, zoomLost := false }
  else .ok playback.camera

theorem answer_fitCamera (playback : Playback α) :
    answer fitCamera playback = (askedCamera playback).map fun _ => () := by
  unfold fitCamera askedCamera
  rw [answer_bind, answer_get, after_get]
  dsimp only
  split
  · rw [answer_bind, answer_ofExcept, after_ofExcept]
    cases Playback.fittedView playback.world playback.settings with
    | error fault => rfl
    | ok view => cases view <;> rfl
  · rfl

theorem after_fitCamera (playback : Playback α) :
    after fitCamera playback =
      match askedCamera playback with
      | .ok camera => { playback with camera := camera }
      | .error _ => playback := by
  unfold fitCamera askedCamera
  rw [after_get_bind]
  split
  · rw [after_bind, answer_ofExcept, after_ofExcept]
    cases Playback.fittedView playback.world playback.settings with
    | error fault => rfl
    | ok view => cases view <;> rfl
  · rfl

theorem after_runSteps (clock : Nat → α) (delta : α) (playback : Playback α) :
    after (runSteps clock delta) playback =
      match playback.openJob with
      | some job => (playback.runHistory clock job).1
      | none =>
          if playback.playing then
            match (playback.accumulate delta).collect with
            | .ok collected => (collected.runPending clock).1
            | .error _ => playback.accumulate delta
          else (playback.runPending clock).1 := by
  unfold runSteps
  rw [after_get_bind]
  cases playback.openJob with
  | some job => rfl
  | none =>
      dsimp only
      split
      · rw [after_bind_of_ok _ _ (answer_set ..), after_set, after_bind, answer_ofExcept,
          after_ofExcept]
        cases (playback.accumulate delta).collect <;> rfl
      · rfl

theorem answer_runSteps (clock : Nat → α) (delta : α) (playback : Playback α) :
    answer (runSteps clock delta) playback =
      match playback.openJob with
      | some job => .ok (playback.runHistory clock job).2
      | none =>
          if playback.playing then
            (playback.accumulate delta).collect.map fun collected =>
              (collected.runPending clock).2
          else .ok (playback.runPending clock).2 := by
  unfold runSteps
  rw [answer_get_bind]
  cases playback.openJob with
  | some job => rfl
  | none =>
      dsimp only
      split
      · rw [answer_bind_of_ok _ _ (answer_set ..), after_set, answer_bind, answer_ofExcept,
          after_ofExcept]
        cases (playback.accumulate delta).collect <;> rfl
      · rfl

/-- A track moves the camera, and in its first frame it notes from where. -/
theorem after_followTrack (track : Track α) (playback : Playback α) :
    after (followTrack track) playback =
      match playback.trackOrigin.elim (playback.measureTrack track) .ok with
      | .error _ => playback
      | .ok origin =>
          { playback with
            trackOrigin := some origin
            camera :=
              match Playback.trackedCamera track playback.settings origin playback.camera
                playback.world.generation with
              | .ok camera => camera
              | .error _ => playback.camera } := by
  have moved : ∀ origin, after (do
      set { playback with trackOrigin := some origin }
      let camera ← ofExcept (Playback.trackedCamera track playback.settings origin
        playback.camera playback.world.generation)
      modify fun current => { current with camera := camera }) playback =
      { playback with
        trackOrigin := some origin
        camera :=
          match Playback.trackedCamera track playback.settings origin playback.camera
            playback.world.generation with
          | .ok camera => camera
          | .error _ => playback.camera } := by
    intro origin
    rw [after_bind_of_ok _ _ (answer_set ..), after_set, after_bind, answer_ofExcept,
      after_ofExcept]
    cases Playback.trackedCamera track playback.settings origin playback.camera
      playback.world.generation <;> rfl
  unfold followTrack
  rw [after_get_bind]
  cases playback.trackOrigin with
  | some origin => exact moved origin
  | none =>
      dsimp only [Option.elim]
      rw [after_bind, answer_ofExcept, after_ofExcept]
      cases playback.measureTrack track with
      | error fault => rfl
      | ok origin => exact moved origin

/-- Let the camera drift where a track has it to itself. -/
def drift : Player α Unit := do
  let playback ← get
  match playback.timeline.track with
  | some track => if playback.followsChain then pure () else followTrack track
  | none => pure ()

theorem after_drift (playback : Playback α) :
    after drift playback =
      match playback.timeline.track with
      | some track =>
          if playback.followsChain then playback else after (followTrack track) playback
      | none => playback := by
  unfold drift
  rw [after_get_bind]
  cases playback.timeline.track with
  | some track => cases following : playback.followsChain <;> simp
  | none => rfl

/-- Where the camera follows the chain there is no drift. -/
theorem drift_of_follows {playback : Playback α} (follows : playback.followsChain = true) :
    answer drift playback = .ok () ∧ after drift playback = playback := by
  rw [after_drift]
  unfold drift
  rw [answer_get_bind]
  cases playback.timeline.track with
  | none => exact ⟨rfl, rfl⟩
  | some track =>
      dsimp only
      rw [if_pos follows, if_pos follows]
      exact ⟨rfl, rfl⟩

/-- A call for a point of interest that there is not leaves playback as it was; any other
heads for it, and arrives at once where the way takes no frames. -/
theorem after_goTo (index : Int) (playback : Playback α) :
    after (goTo index) playback =
      if index < 0 ∨ (playback.timeline.pois.length : Int) ≤ index then playback
      else
        let headed := { playback with poi := some index.toNat }
        let poi := Playback.poiAt playback.timeline index.toNat
        if poi.speed = 0 then headed.arrive poi
        else
          match headed.journeyTo index.toNat with
          | .ok journey => { headed with journey := some journey }
          | .error _ => headed := by
  unfold goTo
  rw [after_get_bind]
  dsimp only
  split
  · rfl
  · rw [after_bind_of_ok _ _ (answer_set ..), after_set]
    split
    · rfl
    · rw [after_bind, answer_ofExcept, after_ofExcept]
      cases { playback with poi := some index.toNat }.journeyTo index.toNat <;> rfl

/-! ### Phases that move along curves -/

variable [Transcendental α]

/-- A journey goes on by one frame, and arrives when its frames are over. A position that
cannot be computed leaves the camera where it was. -/
theorem after_travel (journey : Journey α) (playback : Playback α) :
    after (travel journey) playback =
      if journey.endsAt (journey.frame + 1) then
        { playback with journey := none }.arrive
          (Playback.poiAt playback.timeline journey.poi)
      else
        { playback with
          journey := some { journey with frame := journey.frame + 1 }
          camera :=
            match Scalar.ofInt (journey.frame + 1 : Nat) >>=
              Waypoint.Motion.interpolate journey.start journey.finish with
            | .ok position => position.camera
            | .error _ => playback.camera } := by
  unfold travel
  rw [after_bind_of_ok _ _ (answer_modify ..), after_modify]
  dsimp only
  split
  · rfl
  · rw [after_bind, answer_ofExcept, after_ofExcept]
    cases (Scalar.ofInt (journey.frame + 1 : Nat) : Except Fault α) with
    | error fault => rfl
    | ok frame =>
        dsimp only
        rw [after_bind, answer_ofExcept, after_ofExcept]
        change _ = { playback with journey := _, camera :=
          match Waypoint.Motion.interpolate journey.start journey.finish frame with
          | .ok position => position.camera
          | .error _ => playback.camera }
        cases Waypoint.Motion.interpolate journey.start journey.finish frame <;> rfl

theorem after_followChain (playback : Playback α) :
    after followChain playback =
      match playback.fittedKeyframe with
      | .error _ => playback
      | .ok view =>
          match playback.cursor.update playback.elapsed playback.world.generation view with
          | .error _ => { playback with cursor := playback.cursor.approach playback.elapsed view }
          | .ok (cursor, position, ended) =>
              let moved := { playback with
                cursor := cursor, camera := position.camera, active := position }
              if ended then { moved with ended := true }.note .chainEnded else moved := by
  unfold followChain
  rw [after_get_bind, after_bind, answer_ofExcept, after_ofExcept]
  cases playback.fittedKeyframe with
  | error fault => rfl
  | ok view =>
      dsimp only
      cases playback.cursor.update playback.elapsed playback.world.generation view <;> rfl

/-- With nobody travelling the camera moves along the chain while playback runs, and where
there is no chain to the view that is asked for. -/
theorem after_moveCamera (playback : Playback α) :
    after moveCamera playback =
      match playback.journey with
      | some journey => after (travel journey) playback
      | none =>
          if playback.followsChain then
            if playback.playing && !playback.ended then after followChain playback else playback
          else after fitCamera playback := by
  unfold moveCamera
  rw [after_get_bind]
  cases playback.journey with
  | some journey =>
      dsimp only
      rw [after_bind]
      cases answer (travel journey) playback <;> rfl
  | none =>
      dsimp only
      split
      · split
        · rw [after_bind]
          cases answer followChain playback <;> rfl
        · rfl
      · rw [after_bind]
        cases answer fitCamera playback <;> rfl

/-- A view under the user's hand becomes the camera, or the start of a blend where the chain
holds the camera. -/
theorem after_moveByHand (camera : Camera α) (playback : Playback α) :
    after (moveByHand camera) playback =
      if playback.locked && playback.journey.isNone && playback.followsChain then
        match playback.cursor.beginBlend
          (Keyframe.ofCamera camera playback.active.gps playback.active.step)
          playback.world.generation playback.elapsed with
        | .error _ => { playback with cursor := playback.cursor.approach playback.elapsed none }
        | .ok (cursor, elapsed) =>
            { playback with cursor := cursor, elapsed := elapsed }.note .blendBegan
      else playback.withView camera := by
  unfold moveByHand
  rw [after_get_bind]
  dsimp only
  split
  · cases playback.cursor.beginBlend
      (Keyframe.ofCamera camera playback.active.gps playback.active.step)
      playback.world.generation playback.elapsed <;> rfl
  · rfl

/-- Show the frame and hand over what has happened. -/
def present (message : String) (report : StepReport) : Player α (FrameResult α) := do
  modify fun playback => { playback with locked := playback.holdsCamera }
  let playback ← get
  let callouts ← ofExcept (playback.timeline.callouts.frames playback.world.generation
    playback.world.population playback.camera)
  let occurrences ← deliver
  return {
    generation := playback.world.generation
    elapsed := playback.elapsed
    camera := playback.camera
    steps := report
    callouts := callouts
    locked := playback.locked
    playing := playback.playing
    ended := playback.ended
    message := message
    occurrences := occurrences }

/-- Showing a frame changes the lock of the camera, and takes what was to be delivered if
the callouts can be shown. -/
theorem after_present (message : String) (report : StepReport) (playback : Playback α) :
    after (present message report) playback =
      { playback with
        locked := playback.holdsCamera
        undelivered :=
          match playback.timeline.callouts.frames playback.world.generation
            playback.world.population playback.camera with
          | .ok _ => Array.empty
          | .error _ => playback.undelivered } := by
  unfold present
  rw [after_bind_of_ok _ _ (answer_modify ..), after_modify, after_get_bind, after_bind,
    answer_ofExcept, after_ofExcept]
  dsimp only
  cases playback.timeline.callouts.frames playback.world.generation
    playback.world.population playback.camera <;> rfl

theorem answer_present (message : String) (report : StepReport) (playback : Playback α) :
    answer (present message report) playback =
      (playback.timeline.callouts.frames playback.world.generation playback.world.population
        playback.camera).map fun callouts => {
          generation := playback.world.generation
          elapsed := playback.elapsed
          camera := playback.camera
          steps := report
          callouts := callouts
          locked := playback.holdsCamera
          playing := playback.playing
          ended := playback.ended
          message := message
          occurrences := playback.undelivered } := by
  unfold present
  rw [answer_bind_of_ok _ _ (answer_modify ..), after_modify, answer_get_bind, answer_bind,
    answer_ofExcept, after_ofExcept]
  dsimp only
  cases playback.timeline.callouts.frames playback.world.generation playback.world.population
    playback.camera <;> rfl

theorem steps_present {message : String} {report : StepReport} {playback : Playback α}
    {result : FrameResult α} (shown : answer (present message report) playback = .ok result) :
    result.steps = report := by
  rw [answer_present] at shown
  cases framed : playback.timeline.callouts.frames playback.world.generation
    playback.world.population playback.camera with
  | error fault =>
      rw [framed] at shown
      cases shown
  | ok callouts =>
      rw [framed] at shown
      cases shown
      rfl

/-! ### The frame -/

/-- A frame is the passing of its time, the move of the camera, the steps, the drift and the
showing, each where the one before had an answer. -/
theorem tick_eq (clock : Nat → α) (delta : α) :
    tick clock delta = (do
      passTime delta
      let message ← moveCamera
      let report ← runSteps clock delta
      drift
      present message report) := by
  unfold tick drift present
  refine bind_congr fun _ => bind_congr fun message => bind_congr fun report => ?_
  rw [bind_assoc]
  refine bind_congr fun playback => ?_
  cases playback.timeline.track with
  | none => simp only [pure_bind]
  | some track => cases playback.followsChain <;> simp

end Player

end Showreel
