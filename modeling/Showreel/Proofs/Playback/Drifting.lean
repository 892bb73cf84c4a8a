import Showreel.Proofs.Number.Ordered
import Showreel.Proofs.Playback.Diary
import Showreel.Proofs.Playback.RestingCamera

/-!
Contract: the camera that a track moves from frame to frame.

Owns:
- the place from which a track is measured, and the place to which it has moved the camera at a
  generation;
- that a return to generation zero, and nothing else that playback does, makes the track begin anew
  where the camera stands;
- exactly when two frames at one generation show one place.

Does not own: the size of the box that a track may frame.
-/

namespace Showreel

open Number Scalar

variable {α : Type} [Scalar α]

/-- The place of a camera. -/
def Camera.place (camera : Camera α) : α × α :=
  (camera.x, camera.y)

/-- The place to which a track has moved a camera from another place at a generation. -/
def Track.drifted (track : Track α) (place : α × α) (generation : Int) : α × α :=
  (place.1 + track.velocity.1 * ofRat generation, place.2 + track.velocity.2 * ofRat generation)

/-- A call of the host that leaves the camera to the script. -/
def HostCall.leavesCamera : HostCall α → Bool
  | .goTo _ | .moveByHand _ => false
  | .play | .pause | .reset | .tick .. => true

namespace Playback

/-- The place from which the track is measured: that where it began, or the present one if it is yet
to begin. -/
def footing (playback : Playback α) : α × α :=
  playback.trackOrigin.elim playback.camera.place fun origin => (origin.x, origin.y)

/-! ### The beginning of the track -/

/-- Of all deeds only a return to generation zero touches where the track began, and forgets it. -/
def Forgets (before : Playback α) (deeds : List Deed) (after : Playback α) : Prop :=
  after.trackOrigin = if .returned ∈ deeds then none else before.trackOrigin

namespace Forgets

variable {before between after : Playback α} {deed : Deed} {deeds others : List Deed}

theorem refl (playback : Playback α) : Forgets playback [] playback := by
  rw [Forgets, if_neg List.not_mem_nil]

theorem append (first : Forgets before deeds between) (second : Forgets between others after) :
    Forgets before (deeds ++ others) after := by
  unfold Forgets at *
  rw [second, first]
  by_cases early : Deed.returned ∈ deeds <;> by_cases late : Deed.returned ∈ others <;>
    simp [early, late]

theorem cons (first : Forgets before [deed] between) (second : Forgets between deeds after) :
    Forgets before (deed :: deeds) after :=
  first.append second

theorem of_ne (kept : after.trackOrigin = before.trackOrigin) (other : Deed.returned ≠ deed) :
    Forgets before [deed] after := by
  rwa [Forgets, if_neg fun member => other (List.mem_singleton.mp member)]

end Forgets

theorem forgets_reset (playback : Playback α) : Forgets playback [.returned] playback.reset :=
  (if_pos (List.mem_singleton.mpr rfl)).symm

theorem forgets_halt {playback halted : Playback α} (halting : playback.halt? = some halted) :
    Forgets playback playback.haltDeeds halted := by
  unfold haltDeeds
  rcases halt_cases halting with ⟨stops, rfl⟩ | ⟨goesOn, loops, rfl⟩
  · rw [if_pos stops]
    exact .of_ne rfl nofun
  · rw [if_neg (Bool.eq_false_iff.mp goesOn), if_pos loops]
    have noted : Forgets playback [.told (.looped playback.world.generation)]
      (playback.note (.looped playback.world.generation)) := .of_ne rfl nofun
    exact noted.cons (forgets_reset _)

theorem forgets_burst (clock : Nat → α) {halts : Playback α → Option (Playback α)}
    {step : Playback α → Deed} (steps : ∀ playback, Deed.returned ≠ step playback)
    (halting : ∀ {playback halted}, halts playback = some halted →
      Forgets playback playback.haltDeeds halted)
    (left completed : Nat) (playback : Playback α) :
    Forgets playback (burstDeeds clock halts step left completed playback)
      (burst clock halts left completed playback).playback := by
  induction left generalizing completed playback with
  | zero => exact .refl playback
  | succ left inductionHypothesis =>
      unfold burstDeeds burst
      cases halted : halts playback with
      | some after => exact halting halted
      | none =>
          have stepped : Forgets playback [step playback] playback.stepOnce :=
            .of_ne rfl (steps playback)
          refine stepped.cons ?_
          dsimp only
          split
          · exact .refl _
          · exact inductionHypothesis _ _

theorem forgets_runHistory (clock : Nat → α) (playback : Playback α) (job : HistoryJob) :
    Forgets playback (playback.historyDeeds clock job) (playback.runHistory clock job).1 := by
  have rewound : Forgets playback
      (if job.target < playback.world.generation then [.rewound] else [])
      (playback.rewoundFor job) := by
    unfold rewoundFor
    split
    · exact .of_ne rfl nofun
    · exact .refl playback
  have reported : ∀ run : Burst α, Forgets run.playback
      (if job.target ≤ run.playback.world.generation then [.told (.historyReached job.target)]
        else []) (run.reported job) := by
    intro run
    unfold Burst.reported
    split
    · exact .of_ne rfl nofun
    · exact .refl _
  rw [runHistory_fst]
  refine (rewound.append ?_).append (reported _)
  have computes (playback : Playback α) : Deed.returned ≠ (fun _ => .computed) playback := nofun
  exact forgets_burst clock computes (by simp) ..

theorem forgets_runPending (clock : Nat → α) (playback : Playback α) :
    Forgets playback (playback.pendingDeeds clock) (playback.runPending clock).1 := by
  have settled : ∀ run : Burst α, Forgets run.playback
      (if run.counted.playing then run.counted.haltDeeds else []) run.settled := by
    intro run
    unfold Burst.settled
    split
    · cases halts : run.counted.halt? with
      | none =>
          rw [haltDeeds_of_halt_eq_none halts]
          exact .refl _
      | some halted => exact forgets_halt halts
    · exact .refl _
  rw [runPending_fst]
  refine Forgets.append ?_ (settled _)
  have steps (playback : Playback α) : Deed.returned ≠ playback.stepDeed := nofun
  exact forgets_burst clock steps forgets_halt ..

theorem forgets_runSteps (clock : Nat → α) (delta : α) (playback : Playback α) :
    Forgets playback (playback.runDeeds clock delta)
      (Player.after (Player.runSteps clock delta) playback) := by
  rw [Player.after_runSteps]
  unfold runDeeds
  cases playback.openJob with
  | some job => exact forgets_runHistory clock playback job
  | none =>
      dsimp only
      by_cases playing : playback.playing = true
      · rw [if_pos playing, if_pos playing]
        cases collecting : (playback.accumulate delta).collect with
        | error fault => exact .refl _
        | ok collected =>
            obtain ⟨whole, taken, -, -, rfl⟩ := collect_ok collecting
            exact forgets_runPending clock _
      · rw [if_neg playing, if_neg playing]
        exact forgets_runPending clock playback

/-! ### Playback that drifts -/

theorem Forgets.footing {before after : Playback α} {deeds : List Deed}
    (forgets : Forgets before deeds after) (camera : after.camera = before.camera) :
    after.footing = if .returned ∈ deeds then before.camera.place else before.footing := by
  unfold Playback.footing
  rw [forgets, camera]
  split <;> rfl

/-- Playback in which a track has the camera to itself: there is no chain, no journey and no view to
fit. -/
structure Drifting (track : Track α) (playback : Playback α) : Prop where
  tracks : playback.timeline.track = some track
  unchained : playback.followsChain = false
  still : playback.journey = none
  unfitted : playback.active.autofit = false
  unfittedFirst : playback.timeline.keyframes.first.autofit = false

section Drifts

variable {track : Track α} {playback after : Playback α}

theorem Drifting.of_same (drifting : playback.Drifting track)
    (timeline : after.timeline = playback.timeline) (journey : after.journey = playback.journey)
    (active : after.active = playback.active) : after.Drifting track where
  tracks := timeline ▸ drifting.tracks
  unchained := by
    rw [followsChain, timeline]
    exact drifting.unchained
  still := journey.trans drifting.still
  unfitted := active ▸ drifting.unfitted
  unfittedFirst := timeline ▸ drifting.unfittedFirst

theorem Drifting.keepsView (drifting : playback.Drifting track) (keeps : KeepsView playback after) :
    after.Drifting track where
  tracks := keeps.timeline ▸ drifting.tracks
  unchained := by
    rw [followsChain, keeps.timeline]
    exact drifting.unchained
  still := keeps.journey.trans drifting.still
  unfitted := by
    rcases keeps.active with same | ⟨-, first⟩
    · rw [same]
      exact drifting.unfitted
    · rw [first]
      exact drifting.unfittedFirst
  unfittedFirst := keeps.timeline ▸ drifting.unfittedFirst

theorem Drifting.passTime (drifting : playback.Drifting track) (delta : α) :
    (Player.after (Player.passTime delta) playback).Drifting track := by
  rw [Player.after_passTime]
  split
  · exact drifting.of_same rfl rfl rfl
  · exact drifting

/-- What a drift knows of some playback and of the playback after it and its deeds: the footing
changes only with a return to generation zero, and then to where the camera stood. -/
structure DriftsOn (track : Track α) (before : Playback α) (deeds : List Deed)
    (after : Playback α) : Prop where
  drifting : after.Drifting track
  footing : after.footing = if .returned ∈ deeds then before.camera.place else before.footing

/-- A track is measured from where the camera stands, whatever the extent of the pattern. -/
theorem place_measureTrack {origin : TrackOrigin α}
    (measured : playback.measureTrack track = .ok origin) :
    (origin.x, origin.y) = playback.camera.place := by
  have noted : ∀ width height : α,
      (if playback.camera.zoomLost && track.mode = .box then
          (throw .powerDomain : Except Fault (TrackOrigin α))
        else pure ⟨playback.camera.x, playback.camera.y, playback.camera.zoom, width, height⟩)
          = .ok origin →
      (origin.x, origin.y) = playback.camera.place := by
    intro width height done
    split at done
    · cases done
    · cases done
      rfl
  unfold measureTrack at measured
  dsimp only at measured
  split at measured
  · exact noted 1 1 measured
  · obtain ⟨across, -, measured⟩ := bind_eq_ok measured
    obtain ⟨down, -, measured⟩ := bind_eq_ok measured
    exact noted (across + 1) (down + 1) measured

/-- A track begins at its footing. -/
theorem place_of_begins {origin : TrackOrigin α}
    (begins : playback.trackOrigin.elim (playback.measureTrack track) .ok = .ok origin) :
    (origin.x, origin.y) = playback.footing := by
  unfold footing
  cases began : playback.trackOrigin with
  | some earlier =>
      rw [began] at begins
      cases begins
      rfl
  | none =>
      rw [began] at begins
      exact place_measureTrack begins

theorem place_trackedCamera {settings : ViewerSettings α} {origin : TrackOrigin α}
    {camera moved : Camera α} {generation : Int}
    (done : trackedCamera track settings origin camera generation = .ok moved) :
    moved.place = track.drifted (origin.x, origin.y) generation := by
  obtain ⟨passed, counted, done⟩ := bind_eq_ok done
  rw [Track.drifted, ← eq_ofRat_of_ofInt counted]
  split at done
  · obtain ⟨across, -, done⟩ := bind_eq_ok done
    obtain ⟨down, -, done⟩ := bind_eq_ok done
    cases done
    rfl
  · cases done
    rfl

/-- **The track moves the camera from its footing**, by its velocity for every generation. -/
theorem place_driftedCamera {camera : Camera α}
    (done : playback.driftedCamera track = .ok camera) :
    camera.place = track.drifted playback.footing playback.world.generation := by
  obtain ⟨origin, begins, moved⟩ := bind_eq_ok done
  rw [place_trackedCamera moved, place_of_begins begins]

end Drifts

end Playback

namespace Player

open Playback

variable {track : Track α} {playback : Playback α}

theorem answer_drift (drifting : playback.Drifting track) :
    answer drift playback = (playback.driftedCamera track).map fun _ => () := by
  unfold drift followTrack driftedCamera
  rw [answer_get_bind, drifting.tracks]
  dsimp only
  rw [drifting.unchained, if_neg Bool.false_ne_true, answer_get_bind]
  cases playback.trackOrigin with
  | some origin =>
      dsimp only [Option.elim, Except.bind]
      rw [pure_bind, answer_bind_of_ok _ _ (answer_set ..), answer_bind, answer_ofExcept]
      cases trackedCamera track playback.settings origin playback.camera
        playback.world.generation <;> rfl
  | none =>
      dsimp only
      rw [answer_bind, answer_ofExcept]
      cases playback.measureTrack track with
      | error fault => rfl
      | ok origin =>
          dsimp only [Option.elim, Except.bind]
          rw [answer_bind_of_ok _ _ (answer_set ..), answer_bind, answer_ofExcept]
          cases trackedCamera track playback.settings origin playback.camera
            playback.world.generation <;> rfl

/-- The drift keeps its footing. -/
theorem footing_drift (drifting : playback.Drifting track) :
    (after drift playback).footing = playback.footing := by
  rw [after_drift, drifting.tracks]
  dsimp only
  rw [drifting.unchained, if_neg Bool.false_ne_true, after_followTrack]
  cases begins : playback.trackOrigin.elim (playback.measureTrack track) .ok with
  | error fault => rfl
  | ok origin => exact place_of_begins begins

theorem drifting_drift (drifting : playback.Drifting track) :
    (after drift playback).Drifting track := by
  obtain ⟨camera, origin, drifted⟩ := drift_frame playback
  rw [drifted]
  exact drifting.of_same rfl rfl rfl

/-- A drift that answers takes the camera to its place. -/
theorem place_drift (drifting : playback.Drifting track)
    (answered : answer drift playback = .ok ()) :
    (after drift playback).camera.place = track.drifted (after drift playback).footing
      (after drift playback).world.generation := by
  have world : (after drift playback).world = playback.world := by
    obtain ⟨camera, origin, drifted⟩ := drift_frame playback
    rw [drifted]
  have moved := camera_drift playback
  rw [drifting.unchained, if_neg Bool.false_ne_true, drifting.tracks] at moved
  dsimp only at moved
  rw [answer_drift drifting] at answered
  obtain ⟨camera, done, -⟩ := map_eq_ok answered
  rw [moved, world, footing_drift drifting, done]
  exact place_driftedCamera done

variable [Transcendental α]

theorem moveCamera_of_drifting (drifting : playback.Drifting track) :
    answer moveCamera playback = .ok playback.active.message
      ∧ after moveCamera playback = playback := by
  have asked : askedCamera playback = .ok playback.camera := by
    rw [askedCamera, drifting.unfitted, if_neg Bool.false_ne_true]
  constructor
  · unfold moveCamera
    rw [answer_get_bind, drifting.still]
    dsimp only
    rw [drifting.unchained, if_neg Bool.false_ne_true, answer_bind, answer_fitCamera, asked]
    rfl
  · rw [after_moveCamera, drifting.still]
    dsimp only
    rw [drifting.unchained, if_neg Bool.false_ne_true, after_fitCamera, asked]

theorem frameDeeds_of_drifting (drifting : playback.Drifting track) (clock : Nat → α) (delta : α) :
    playback.frameDeeds clock delta
      = (after (passTime delta) playback).runDeeds clock delta := by
  have timed := drifting.passTime delta
  obtain ⟨moved, stays⟩ := moveCamera_of_drifting timed
  unfold frameDeeds aboutToStep cameraDeeds
  dsimp only
  rw [moved, stays, timed.still, timed.unchained]
  rfl

theorem driftsOn_frame (drifting : playback.Drifting track) (clock : Nat → α) (delta : α) :
    DriftsOn track playback (playback.frameDeeds clock delta) (after (frame clock delta) playback)
      ∧ ∀ result, answer (frame clock delta) playback = .ok result →
        (after (frame clock delta) playback).camera.place
          = track.drifted (after (frame clock delta) playback).footing
            (after (frame clock delta) playback).world.generation := by
  have timed := drifting.passTime delta
  obtain ⟨moved, stays⟩ := moveCamera_of_drifting timed
  have steps : DriftsOn track playback (playback.frameDeeds clock delta)
      (after (runSteps clock delta) (after (passTime delta) playback)) := by
    have keeps := runSteps_keepsView clock delta (after (passTime delta) playback)
    have forgets := forgets_runSteps clock delta (after (passTime delta) playback)
    refine ⟨timed.keepsView keeps, (forgets.footing keeps.camera).trans ?_⟩
    rw [frameDeeds_of_drifting drifting, after_passTime]
    split <;> rfl
  unfold frame
  rw [after_bind_of_ok _ _ (answer_passTime ..), answer_bind_of_ok _ _ (answer_passTime ..),
    after_bind_of_ok _ _ moved, answer_bind_of_ok _ _ moved, stays]
  revert steps
  generalize after (passTime delta) playback = begun
  intro steps
  rw [after_bind, answer_bind]
  cases answer (runSteps clock delta) begun with
  | error fault => exact ⟨steps, nofun⟩
  | ok report =>
      dsimp only
      have drifts : DriftsOn track playback (playback.frameDeeds clock delta)
          (after drift (after (runSteps clock delta) begun)) :=
        ⟨drifting_drift steps.drifting, (footing_drift steps.drifting).trans steps.footing⟩
      rw [after_bind, answer_bind]
      cases answered : answer drift (after (runSteps clock delta) begun) with
      | error fault => exact ⟨drifts, nofun⟩
      | ok _ => exact ⟨drifts, fun _ _ => place_drift steps.drifting answered⟩

/-- **One frame of a drift.** A frame that is shown shows the camera moved from its footing. -/
theorem driftsOn_tick (drifting : playback.Drifting track) (clock : Nat → α) (delta : α) :
    DriftsOn track playback (playback.frameDeeds clock delta) (after (tick clock delta) playback)
      ∧ ∀ shown, answer (tick clock delta) playback = .ok shown →
        shown.camera.place
          = track.drifted (after (tick clock delta) playback).footing shown.generation := by
  obtain ⟨drifts, place⟩ := driftsOn_frame drifting clock delta
  rw [after_tick, tick_eq_frame, answer_bind]
  cases answered : answer (frame clock delta) playback with
  | error fault =>
      refine ⟨drifts, fun shown failed => ?_⟩
      cases failed
  | ok result =>
      obtain ⟨message, report⟩ := result
      have placed := place _ answered
      dsimp only
      rw [after_present]
      refine ⟨⟨drifts.drifting.of_same rfl rfl rfl, drifts.footing⟩, ?_⟩
      intro shown presented
      rw [answer_present] at presented
      obtain ⟨callouts, -, rfl⟩ := map_eq_ok presented
      exact placed

end Player

namespace Playback

variable [Transcendental α] {track : Track α} {playback : Playback α}

/-! ### Runs of calls -/

/-- **Every call that leaves the camera to the script goes on with the drift.** -/
theorem driftsOn_perform (drifting : playback.Drifting track) {call : HostCall α}
    (leaves : call.leavesCamera = true) :
    DriftsOn track playback (playback.callDeeds call) (call.perform playback) := by
  cases call with
  | play => exact ⟨drifting.of_same rfl rfl rfl, (if_neg List.not_mem_nil).symm⟩
  | pause => exact ⟨drifting.of_same rfl rfl rfl, (if_neg List.not_mem_nil).symm⟩
  | reset =>
      exact ⟨drifting.keepsView (keepsView_reset playback),
        (forgets_reset playback).footing rfl⟩
  | goTo poi => cases leaves
  | moveByHand camera => cases leaves
  | tick clock delta => exact (Player.driftsOn_tick drifting clock delta).1

/-- Without a return to generation zero the drift keeps its footing through any calls. -/
theorem drifting_afterCalls (drifting : playback.Drifting track) {calls : List (HostCall α)}
    (leaves : calls.all HostCall.leavesCamera = true) :
    (playback.afterCalls calls).Drifting track
      ∧ (.returned ∉ playback.diary calls →
        (playback.afterCalls calls).footing = playback.footing) := by
  induction calls generalizing playback with
  | nil => exact ⟨drifting, fun _ => rfl⟩
  | cons call rest inductionHypothesis =>
      rw [List.all_cons, Bool.and_eq_true] at leaves
      obtain ⟨goesOn, footing⟩ := driftsOn_perform drifting leaves.1
      obtain ⟨driftingRest, footingRest⟩ := inductionHypothesis goesOn leaves.2
      refine ⟨driftingRest, fun never => ?_⟩
      rw [diary, List.mem_append, not_or] at never
      rw [if_neg never.1] at footing
      exact (footingRest never.2).trans footing

/-- After the last return to generation zero the footing is where the camera stood before the call
that returned. -/
theorem footing_afterCalls (drifting : playback.Drifting track) {before rest : List (HostCall α)}
    {call : HostCall α} (leaves : (before ++ call :: rest).all HostCall.leavesCamera = true)
    (returns : .returned ∈ (playback.afterCalls before).callDeeds call)
    (never : .returned ∉ (call.perform (playback.afterCalls before)).diary rest) :
    (playback.afterCalls (before ++ call :: rest)).footing
      = (playback.afterCalls before).camera.place := by
  rw [List.all_append, Bool.and_eq_true, List.all_cons, Bool.and_eq_true] at leaves
  obtain ⟨leavesBefore, leavesCall, leavesRest⟩ := leaves
  have driftsBefore := (drifting_afterCalls drifting leavesBefore).1
  obtain ⟨goesOn, footing⟩ := driftsOn_perform driftsBefore leavesCall
  have kept := (drifting_afterCalls goesOn leavesRest).2 never
  rw [if_pos returns] at footing
  rw [afterCalls_append]
  exact kept.trans footing

omit [Transcendental α] in
/-- Playback of a timeline drifts from the start if its track has the camera to itself. -/
theorem drifting_start {timeline : Timeline α} (tracks : timeline.track = some track)
    (unchained : timeline.hasWaypoints = false)
    (unfitted : ∀ keyframe ∈ timeline.keyframes.first :: timeline.pois, keyframe.autofit = false)
    (world : World) (settings : ViewerSettings α) :
    (start timeline world settings).Drifting track := by
  have unfittedFirst := unfitted _ List.mem_cons_self
  unfold start
  dsimp only
  obtain ⟨pasted, undelivered, begun⟩ := exists_applyInitialPastes (α := α) _
  rw [begun]
  unfold startAtPoi
  dsimp only
  split
  · exact ⟨tracks, unchained, rfl, unfittedFirst, unfittedFirst⟩
  · exact ⟨tracks, unchained, rfl, unfitted _ (poiAt_mem ..), unfittedFirst⟩

/-- **Two frames of a drift at one generation.** They show one place exactly if the camera drifts to
one place from their footings, and so they do if playback does not return to generation zero from
the one frame to the other. After a return the footing is where the camera stood before it, and not
where the drift began. -/
theorem ticks_agree_iff {timeline : Timeline α} (tracks : timeline.track = some track)
    (unchained : timeline.hasWaypoints = false)
    (unfitted : ∀ keyframe ∈ timeline.keyframes.first :: timeline.pois, keyframe.autofit = false)
    (world : World) (settings : ViewerSettings α) (earlier between : List (HostCall α))
    (leaves : (earlier ++ between).all HostCall.leavesCamera = true)
    (frame frameLater : (Nat → α) × α) (shown shownLater : FrameResult α) :
    let reached := (start timeline world settings).afterCalls earlier
    let first := Player.after (Player.tick frame.1 frame.2) reached
    let calls := between ++ [.tick frameLater.1 frameLater.2]
    let second := first.afterCalls calls
    Player.answer (Player.tick frame.1 frame.2) reached = .ok shown →
    Player.answer (Player.tick frameLater.1 frameLater.2) (first.afterCalls between)
      = .ok shownLater →
    shown.generation = shownLater.generation →
      (shown.camera.place = shownLater.camera.place
          ↔ track.drifted first.footing shown.generation
            = track.drifted second.footing shown.generation)
        ∧ (.returned ∉ first.diary calls → shown.camera.place = shownLater.camera.place)
        ∧ ∀ before call rest, calls = before ++ call :: rest →
          .returned ∈ (first.afterCalls before).callDeeds call →
          .returned ∉ (call.perform (first.afterCalls before)).diary rest →
            second.footing = (first.afterCalls before).camera.place := by
  intro reached first calls second showing showingLater same
  rw [List.all_append, Bool.and_eq_true] at leaves
  have drifting : reached.Drifting track :=
    (drifting_afterCalls (drifting_start tracks unchained unfitted world settings) leaves.1).1
  obtain ⟨drifts, places⟩ := Player.driftsOn_tick drifting frame.1 frame.2
  have leavesCalls : calls.all HostCall.leavesCamera = true := by
    rw [List.all_append, leaves.2]
    rfl
  have secondIs : second = Player.after (Player.tick frameLater.1 frameLater.2)
      (first.afterCalls between) := by
    change first.afterCalls (between ++ [.tick frameLater.1 frameLater.2]) = _
    rw [afterCalls_append]
    rfl
  have place := places shown showing
  have placeLater : shownLater.camera.place
      = track.drifted second.footing shown.generation := by
    rw [secondIs, same]
    have waiting := (drifting_afterCalls drifts.drifting leaves.2).1
    exact (Player.driftsOn_tick waiting frameLater.1 frameLater.2).2 shownLater showingLater
  refine ⟨by rw [place, placeLater], fun never => ?_, ?_⟩
  · rw [place, placeLater]
    have kept := (drifting_afterCalls drifts.drifting leavesCalls).2 never
    exact congrArg (track.drifted · shown.generation) kept.symm
  · intro before call rest split returns never
    change (first.afterCalls calls).footing = _
    rw [split] at leavesCalls ⊢
    exact footing_afterCalls drifts.drifting leavesCalls returns never

/-- Two frames at generation three, the second one in a pause. -/
theorem ticks_agree_iff_paused :
    let context : Script.Context Float := ⟨.standard, .standard, .standard⟩
    let script := "[[ AUTOSTART TRACK 1 0 ]]"
    let world := World.ofSize 8 (by decide) true
    let frame : (Nat → Float) × Float := (fun _ => 0, 50)
    ∃ interpretation track, Script.interpret context script = .ok interpretation
      ∧ interpretation.timeline.track = some track
      ∧ interpretation.timeline.hasWaypoints = false
      ∧ (∀ keyframe ∈ interpretation.timeline.keyframes.first :: interpretation.timeline.pois,
        keyframe.autofit = false)
      ∧ let reached := start interpretation.timeline world .standard
        let first := Player.after (Player.tick frame.1 frame.2) reached
        ∃ shown shownLater, Player.answer (Player.tick frame.1 frame.2) reached = .ok shown
          ∧ Player.answer (Player.tick frame.1 frame.2) (first.afterCalls [.pause]) = .ok shownLater
          ∧ shown.generation = 3 ∧ shownLater.generation = 3
          ∧ .returned ∉ first.diary [.pause, .tick frame.1 frame.2]
          ∧ shown.camera.place = shownLater.camera.place := by
  intro context script world frame
  have checked : (Script.interpret context script).toOption.any (fun interpretation =>
      let reached := start interpretation.timeline world .standard
      let first := Player.after (Player.tick frame.1 frame.2) reached
      interpretation.timeline.track.isSome && !interpretation.timeline.hasWaypoints
        && (interpretation.timeline.keyframes.first :: interpretation.timeline.pois).all
          (fun keyframe => !keyframe.autofit)
        && (Player.answer (Player.tick frame.1 frame.2) reached).toOption.any
          (fun shown => decide (shown.generation = 3))
        && (Player.answer (Player.tick frame.1 frame.2) (first.afterCalls [.pause])).toOption.any
          (fun shown => decide (shown.generation = 3))
        && decide (.returned ∉ first.diary [.pause, .tick frame.1 frame.2])) = true := by
    decide +kernel
  obtain ⟨interpretation, interpreted, facts⟩ := Script.exists_interpretation checked
  simp only [Bool.and_eq_true, Bool.not_eq_true', List.all_eq_true, decide_eq_true_eq,
    Option.isSome_iff_exists] at facts
  obtain ⟨⟨⟨⟨⟨⟨track, tracks⟩, unchained⟩, unfitted⟩, begins⟩, waits⟩, never⟩ := facts
  obtain ⟨shown, showing, three⟩ := exists_of_toOption_any begins
  obtain ⟨shownLater, showingLater, threeLater⟩ := exists_of_toOption_any waits
  have three := of_decide_eq_true three
  have threeLater := of_decide_eq_true threeLater
  obtain ⟨-, agree, -⟩ := ticks_agree_iff tracks unchained unfitted world .standard [] [.pause] rfl
    frame frame shown shownLater showing showingLater (three.trans threeLater.symm)
  exact ⟨interpretation, track, interpreted, tracks, unchained, unfitted, shown, shownLater,
    showing, showingLater, three, threeLater, never, agree never⟩

/-- Two frames at generation three with a reset between them: the camera drifts on from where the
first one left it. -/
theorem ticks_disagree_reset :
    let context : Script.Context Float := ⟨.standard, .standard, .standard⟩
    let script := "[[ AUTOSTART TRACK 1 0 ]]"
    let world := World.ofSize 8 (by decide) true
    let frame : (Nat → Float) × Float := (fun _ => 0, 50)
    ∃ interpretation, Script.interpret context script = .ok interpretation
      ∧ interpretation.timeline.hasWaypoints = false
      ∧ interpretation.timeline.keyframes.first.autofit = false
      ∧ let reached := start interpretation.timeline world .standard
        let first := Player.after (Player.tick frame.1 frame.2) reached
        ∃ shown shownLater, Player.answer (Player.tick frame.1 frame.2) reached = .ok shown
          ∧ Player.answer (Player.tick frame.1 frame.2) (first.afterCalls [.reset]) = .ok shownLater
          ∧ shown.generation = 3 ∧ shownLater.generation = 3
          ∧ (shown.camera.x == 3) = true ∧ (shownLater.camera.x == 6) = true := by
  intro context script world frame
  have checked : (Script.interpret context script).toOption.any (fun interpretation =>
      let reached := start interpretation.timeline world .standard
      let first := Player.after (Player.tick frame.1 frame.2) reached
      !interpretation.timeline.hasWaypoints && !interpretation.timeline.keyframes.first.autofit
        && (Player.answer (Player.tick frame.1 frame.2) reached).toOption.any
          (fun shown => decide (shown.generation = 3) && shown.camera.x == 3)
        && (Player.answer (Player.tick frame.1 frame.2) (first.afterCalls [.reset])).toOption.any
          (fun shown => decide (shown.generation = 3) && shown.camera.x == 6)) = true := by
    decide +kernel
  obtain ⟨interpretation, interpreted, facts⟩ := Script.exists_interpretation checked
  simp only [Bool.and_eq_true, Bool.not_eq_true'] at facts
  obtain ⟨⟨⟨unchained, unfitted⟩, begins⟩, resets⟩ := facts
  obtain ⟨shown, showing, seen⟩ := exists_of_toOption_any begins
  obtain ⟨shownLater, showingLater, seenLater⟩ := exists_of_toOption_any resets
  obtain ⟨three, place⟩ := Bool.and_eq_true_iff.mp seen
  obtain ⟨threeLater, placeLater⟩ := Bool.and_eq_true_iff.mp seenLater
  exact ⟨interpretation, interpreted, unchained, unfitted, shown, shownLater, showing, showingLater,
    of_decide_eq_true three, of_decide_eq_true threeLater, place, placeLater⟩

end Playback

end Showreel
