import Mathlib.Data.List.Induction
import Showreel.Number.Exact
import Showreel.Proofs.Number.Ordered
import Showreel.Proofs.Playback.Jobs
import Showreel.Proofs.Playback.Replay

/-!
Contract: journeys to points of interest, frame by frame.

Owns:
- where the next frame arrives, and that it tells of an arrival exactly there;
- what no phase of a frame behind the move of its camera touches;
- one frame of a journey, which brings it one frame nearer or to its end, and any number of frames
  on the way;
- when a frame without a track has an answer;
- that a journey arrives with as many frames as its point of interest says.

Does not own: which of several journeys is made.
-/

namespace Showreel

open Number

/-- The arrivals at points of interest among events. -/
def Event.arrivals (events : List Event) : List Event :=
  events.filter fun event => event.word == "poi"

theorem Event.arrivals_append (earlier later : List Event) :
    arrivals (earlier ++ later) = arrivals earlier ++ arrivals later :=
  List.filter_append ..

theorem Deed.arrives_told (event : Event) :
    (Deed.told event).arrives = (event.word == "poi") := by
  cases event <;> rfl

/-- Deeds that arrive nowhere tell of no arrival. -/
theorem Deed.arrivals_eq_nil {deeds : List Deed}
    (nowhere : ∀ deed ∈ deeds, deed.arrives = false) :
    Event.arrivals (deeds.filterMap Deed.event?) = [] := by
  refine List.filter_eq_nil_iff.mpr fun event member => ?_
  obtain ⟨deed, among, tells⟩ := List.mem_filterMap.mp member
  have still := nowhere deed among
  cases deed with
  | told news =>
      cases tells
      rw [arrives_told] at still
      exact Bool.eq_false_iff.mp still
  | _ => cases tells

namespace Playback

variable {α : Type} [Scalar α]

/-- The point of interest at which the next frame arrives, if it does. -/
def landing? (playback : Playback α) : Option Nat :=
  playback.journey.bind fun journey =>
    if journey.endsAt (journey.frame + 1) then some journey.poi else none

theorem landing?_of_near {playback : Playback α} {journey : Journey α}
    (underway : playback.journey = some journey)
    (near : journey.endsAt (journey.frame + 1) = true) :
    playback.landing? = some journey.poi := by
  rw [landing?, underway, Option.bind_some, if_pos near]

theorem landing?_of_far {playback : Playback α} {journey : Journey α}
    (underway : playback.journey = some journey)
    (far : ¬journey.endsAt (journey.frame + 1) = true) : playback.landing? = none := by
  rw [landing?, underway, Option.bind_some, if_neg far]

theorem landing?_eq_some {playback : Playback α} {place : Nat}
    (lands : playback.landing? = some place) :
    ∃ journey, playback.journey = some journey ∧ journey.poi = place
      ∧ journey.endsAt (journey.frame + 1) = true := by
  obtain ⟨journey, underway, lands⟩ := Option.bind_eq_some_iff.mp lands
  split at lands
  · rename_i near
    exact ⟨journey, underway, Option.some.inj lands, near⟩
  · cases lands

/-- What no phase of a frame behind the move of its camera changes: the timeline, the journey and
the point of interest it was asked for, the active keyframe where there is such a point, and the
camera where there is no track. -/
structure KeepsCourse (before after : Playback α) : Prop where
  timeline : after.timeline = before.timeline
  journey : after.journey = before.journey
  poi : after.poi = before.poi
  active : before.poi ≠ none → after.active = before.active
  camera : before.timeline.track = none → after.camera = before.camera

instance : IsPreorder (Playback α) KeepsCourse where
  refl _ := ⟨rfl, rfl, rfl, fun _ => rfl, fun _ => rfl⟩
  trans first second third earlier later := by
    refine ⟨later.timeline.trans earlier.timeline, later.journey.trans earlier.journey,
      later.poi.trans earlier.poi, fun asked => ?_, fun untracked => ?_⟩
    · exact (later.active (earlier.poi ▸ asked)).trans (earlier.active asked)
    · exact (later.camera (earlier.timeline ▸ untracked)).trans (earlier.camera untracked)

theorem KeepsView.course {before after : Playback α} (kept : KeepsView before after) :
    KeepsCourse before after where
  timeline := kept.timeline
  journey := kept.journey
  poi := kept.poi
  active asked := kept.active.resolve_right fun ⟨alone, _⟩ => asked alone
  camera _ := kept.camera

/-- Arriving changes neither the timeline nor what was asked for, and takes the camera and the
active keyframe to the point of interest, also where it returns to generation zero. -/
theorem arrive_view (playback : Playback α) (poi : Keyframe α) :
    KeepsCourse { playback with camera := poi.camera, active := poi } (playback.arrive poi) := by
  have stands : ∀ rewound : Bool, KeepsCourse { playback with camera := poi.camera, active := poi }
      (if rewound then (playback.standingAt poi).reset else playback.standingAt poi) := by
    intro rewound
    have standing : KeepsCourse { playback with camera := poi.camera, active := poi }
        (playback.standingAt poi) := ⟨rfl, rfl, rfl, fun _ => rfl, fun _ => rfl⟩
    cases rewound with
    | false => exact standing
    | true => exact IsTrans.trans _ _ _ standing (keepsView_reset (playback.standingAt poi)).course
  have acts : ∀ (standing : Playback α) (action : Waypoint.Action),
      KeepsCourse standing (standing.acting action) := by
    intro standing action
    cases action <;> exact ⟨rfl, rfl, rfl, fun _ => rfl, fun _ => rfl⟩
  have asks : ∀ (acted : Playback α) (generation : Int),
      KeepsCourse acted (acted.withHistory generation) := by
    intro acted generation
    unfold withHistory
    split <;> exact ⟨rfl, rfl, rfl, fun _ => rfl, fun _ => rfl⟩
  rw [arrive_eq]
  exact IsTrans.trans _ _ _ (IsTrans.trans _ _ _ (stands poi.resets) (acts _ _)) (asks _ _)

/-- The steps of a frame arrive nowhere. -/
theorem arrives_runDeeds (clock : Nat → α) (delta : α) (playback : Playback α) :
    ∀ deed ∈ playback.runDeeds clock delta, deed.arrives = false := by
  cases given : playback.openJob with
  | none => exact fun deed member => ((runSteps_idle clock delta given).2 deed member).2
  | some job =>
      unfold runDeeds historyDeeds
      rw [given]
      dsimp only
      rw [List.forall_mem_append, List.forall_mem_append]
      refine ⟨⟨?_, ?_⟩, ?_⟩
      · split <;> simp [Deed.arrives]
      · refine forall_mem_burstDeeds (fun deed => deed.arrives = false) clock ?_ ?_ _ _ _
        · exact fun _ _ => rfl
        · intro _ _ halting
          cases halting
      · split <;> simp [Deed.arrives]

end Playback

namespace Player

open Playback

variable {α : Type} [Scalar α]

/-- The passing of a frame's time changes the time of playback alone. -/
theorem exists_after_passTime (delta : α) (playback : Playback α) :
    ∃ elapsed, after (passTime delta) playback = { playback with elapsed := elapsed } := by
  rw [after_passTime]
  split
  · exact ⟨_, rfl⟩
  · exact ⟨playback.elapsed, rfl⟩

theorem drift_keepsCourse : Within (KeepsCourse (α := α)) drift := by
  intro playback
  rw [after_drift]
  split
  · rename_i track tracked
    split
    · exact refl playback
    · rw [after_followTrack]
      have untracked : ∀ {camera : Camera α}, playback.timeline.track = none →
          camera = playback.camera := fun none => nomatch none.symm.trans tracked
      split <;> exact ⟨rfl, rfl, rfl, fun _ => rfl, untracked⟩
  · exact refl playback

variable [Transcendental α]

theorem present_keepsCourse (message : String) (report : StepReport) :
    Within (KeepsCourse (α := α)) (present message report) := by
  intro playback
  rw [after_present]
  exact ⟨rfl, rfl, rfl, fun _ => rfl, fun _ => rfl⟩

/-- Behind the move of its camera a frame keeps the course. -/
theorem tick_keepsCourse (clock : Nat → α) (delta : α) (playback : Playback α) :
    KeepsCourse (playback.aboutToStep delta) (after (tick clock delta) playback) := by
  rw [tick_eq, after_bind_of_ok _ _ (answer_passTime ..), after_bind]
  unfold aboutToStep
  cases answer moveCamera (after (passTime delta) playback) with
  | error fault => exact refl _
  | ok message =>
      have steps : Within (KeepsCourse (α := α)) (runSteps clock delta) :=
        fun playback => (runSteps_keepsView clock delta playback).course
      exact steps.bind (fun report => drift_keepsCourse.bind fun _ =>
        present_keepsCourse message report) _

/-- A frame shows the camera and its lock as it leaves them. -/
theorem shown_eq {clock : Nat → α} {delta : α} {playback : Playback α} {result : FrameResult α}
    (shown : answer (tick clock delta) playback = .ok result) :
    result.camera = (after (tick clock delta) playback).camera
      ∧ result.locked = (after (tick clock delta) playback).holdsCamera := by
  rw [tick_eq_frame, answer_bind_eq_ok] at shown
  obtain ⟨⟨message, report⟩, framed, presented⟩ := shown
  rw [after_tick, framed]
  dsimp only at presented ⊢
  rw [answer_present] at presented
  rw [after_present]
  obtain ⟨callouts, -, rfl⟩ := map_eq_ok presented
  exact ⟨rfl, rfl⟩

end Player

namespace Playback

variable {α : Type} [Scalar α] [Transcendental α]

/-! ### One frame of a journey -/

section Frame

variable {playback : Playback α} {journey : Journey α} (clock : Nat → α) (delta : α)

theorem aboutToStep_of_journey (underway : playback.journey = some journey) :
    ∃ elapsed, playback.aboutToStep delta
      = Player.after (Player.travel journey) { playback with elapsed := elapsed } := by
  obtain ⟨elapsed, timed⟩ := Player.exists_after_passTime delta playback
  refine ⟨elapsed, ?_⟩
  rw [aboutToStep, timed, Player.after_moveCamera, underway]

/-- A frame on the way brings the journey one frame nearer, whether the view on the way can be
computed or not. -/
theorem tick_onward (underway : playback.journey = some journey)
    (far : ¬journey.endsAt (journey.frame + 1) = true) :
    let next := Player.after (Player.tick clock delta) playback
    next.timeline = playback.timeline ∧ next.poi = playback.poi
      ∧ next.journey = some { journey with frame := journey.frame + 1 } := by
  obtain ⟨elapsed, about⟩ := aboutToStep_of_journey delta underway
  rw [Player.after_travel, if_neg far] at about
  have kept := Player.tick_keepsCourse clock delta playback
  rw [about] at kept
  exact ⟨kept.timeline, kept.poi, kept.journey⟩

/-- The last frame of a journey ends it at its point of interest. -/
theorem tick_lands (underway : playback.journey = some journey)
    (near : journey.endsAt (journey.frame + 1) = true) :
    let next := Player.after (Player.tick clock delta) playback
    let poi := poiAt playback.timeline journey.poi
    next.timeline = playback.timeline ∧ next.poi = playback.poi ∧ next.journey = none
      ∧ (playback.poi ≠ none → next.active = poi)
      ∧ (playback.timeline.track = none → next.camera = poi.camera) := by
  obtain ⟨elapsed, about⟩ := aboutToStep_of_journey delta underway
  rw [Player.after_travel, if_pos near] at about
  have kept := Player.tick_keepsCourse clock delta playback
  rw [about] at kept
  have course := IsTrans.trans _ _ _ (arrive_view _ _) kept
  exact ⟨course.timeline, course.poi, course.journey, course.active, course.camera⟩

/-- Nothing can keep the last frame of a journey from its steps. -/
theorem comesToSteps_of_near (underway : playback.journey = some journey)
    (near : journey.endsAt (journey.frame + 1) = true) :
    playback.comesToSteps delta = true := by
  obtain ⟨elapsed, timed⟩ := Player.exists_after_passTime delta playback
  have travels (current : Playback α) : Player.answer (Player.travel journey) current = .ok () := by
    unfold Player.travel
    rw [Player.answer_bind_of_ok _ _ (Player.answer_modify ..)]
    dsimp only
    rw [if_pos near, Player.answer_modify]
  unfold comesToSteps Player.moveCamera
  rw [timed, Player.answer_get_bind]
  dsimp only
  rw [underway]
  dsimp only
  rw [Player.answer_bind_of_ok _ _ (travels _), Player.answer_get_bind]
  rfl

/-- **A frame tells of an arrival exactly where it arrives**, and then of one. -/
theorem arrivals_frameDeeds (playback : Playback α) :
    Event.arrivals ((playback.frameDeeds clock delta).filterMap Deed.event?)
      = playback.landing?.toList.map fun _ => .arrived (playback.poi.elim (-1) Int.ofNat) := by
  have steps : Event.arrivals ((if playback.comesToSteps delta
      then (playback.aboutToStep delta).runDeeds clock delta
      else []).filterMap Deed.event?) = [] := by
    apply Deed.arrivals_eq_nil
    split
    · exact arrives_runDeeds clock delta _
    · exact List.forall_mem_nil _
  rw [frameDeeds_eq, List.filterMap_append, Event.arrivals_append, steps, List.append_nil]
  obtain ⟨elapsed, timed⟩ := Player.exists_after_passTime delta playback
  rw [timed]
  unfold cameraDeeds
  dsimp only
  cases underway : playback.journey with
  | none =>
      have still : playback.landing? = none := by rw [landing?, underway, Option.bind_none]
      rw [still]
      apply Deed.arrivals_eq_nil
      dsimp only
      split
      · unfold followDeeds
        split
        · exact List.forall_mem_nil _
        · split
          · exact List.forall_mem_singleton.mpr rfl
          · exact List.forall_mem_nil _
      · exact List.forall_mem_nil _
  | some journey =>
      dsimp only
      unfold travelDeeds
      by_cases near : journey.endsAt (journey.frame + 1) = true
      · rw [if_pos near, landing?_of_near underway near]
        unfold arriveDeeds
        split <;> rfl
      · rw [if_neg near, landing?_of_far underway near]
        rfl

theorem arrivals_shown {playback : Playback α} {result : FrameResult α}
    (shown : Player.answer (Player.tick clock delta) playback = .ok result) :
    Event.arrivals result.events = Event.arrivals playback.untold
      ++ playback.landing?.toList.map fun _ => .arrived (playback.poi.elim (-1) Int.ofNat) := by
  have delivers := playback.tick_delivers clock delta
  dsimp only at delivers
  rw [shown] at delivers
  rw [delivers.1, Event.arrivals_append, arrivals_frameDeeds]

/-- The news of a frame without an answer go on waiting. -/
theorem arrivals_waiting {playback : Playback α} {fault : Fault}
    (unanswered : Player.answer (Player.tick clock delta) playback = .error fault) :
    Event.arrivals (Player.after (Player.tick clock delta) playback).untold
      = Event.arrivals playback.untold
        ++ playback.landing?.toList.map fun _ => .arrived (playback.poi.elim (-1) Int.ofNat) := by
  have delivers := playback.tick_delivers clock delta
  dsimp only at delivers
  rw [unanswered] at delivers
  rw [delivers, Event.arrivals_append, arrivals_frameDeeds]

end Frame

/-! ### Frames on the way -/

/-- Playback that has made some frames of a journey: nothing else was asked for, and where no news
of an arrival waited at the beginning none waits now. -/
structure Underway (journey : Journey α) (count : Nat) (begun current : Playback α) : Prop where
  timeline : current.timeline = begun.timeline
  poi : current.poi = begun.poi
  journey : current.journey = some { journey with frame := journey.frame + count }
  news : Event.arrivals begun.untold = [] → Event.arrivals current.untold = []

/-- The news that a frame leaves waiting are among those that waited and those that it tells. -/
theorem arrivals_untold_tick (clock : Nat → α) (delta : α) {playback : Playback α}
    (waits : Event.arrivals playback.untold = []) (still : playback.landing? = none) :
    Event.arrivals (Player.after (Player.tick clock delta) playback).untold = [] := by
  have delivers := playback.tick_delivers clock delta
  dsimp only at delivers
  split at delivers
  · rw [delivers.2]
    rfl
  · rw [delivers, Event.arrivals_append, waits, arrivals_frameDeeds, still]
    rfl

theorem Underway.tick {journey : Journey α} {count : Nat} {begun current : Playback α}
    (underway : Underway journey count begun current)
    (far : ¬journey.endsAt (journey.frame + count + 1) = true) (clock : Nat → α) (delta : α) :
    Underway journey (count + 1) begun (Player.after (Player.tick clock delta) current) := by
  obtain ⟨timeline, poi, next⟩ := tick_onward clock delta underway.journey far
  exact ⟨timeline.trans underway.timeline, poi.trans underway.poi, next,
    fun waits => arrivals_untold_tick clock delta (underway.news waits)
      (landing?_of_far underway.journey far)⟩

/-- **As long as frames are left, a journey goes on frame by frame.** -/
theorem underway_afterFrames {playback : Playback α} {journey : Journey α}
    (begins : playback.journey = some journey) (frames : List ((Nat → α) × α))
    (far : ∀ made < frames.length, ¬journey.endsAt (journey.frame + made + 1) = true) :
    Underway journey frames.length playback (playback.afterFrames frames) := by
  induction frames using List.reverseRecOn with
  | nil => exact ⟨rfl, rfl, begins, id⟩
  | append_singleton frames frame inductionHypothesis =>
      rw [List.length_append, List.length_singleton] at far ⊢
      rw [afterFrames_concat]
      have before := inductionHypothesis fun made within => far made (by omega)
      exact before.tick (far frames.length (by omega)) frame.1 frame.2

/-- A frame on the way holds the camera and tells of no arrival. -/
theorem Underway.shows {journey : Journey α} {count : Nat} {begun current : Playback α}
    (underway : Underway journey count begun current) (unheard : begun.untold = [])
    (far : ¬journey.endsAt (journey.frame + count + 1) = true) {clock : Nat → α} {delta : α}
    {result : FrameResult α}
    (shown : Player.answer (Player.tick clock delta) current = .ok result) :
    result.locked = true ∧ Event.arrivals result.events = [] := by
  constructor
  · rw [(Player.shown_eq shown).2, holdsCamera, (underway.tick far clock delta).journey]
    rfl
  · rw [arrivals_shown _ _ shown, underway.news (congrArg Event.arrivals unheard),
      landing?_of_far underway.journey far]
    rfl

/-! ### Answers -/

/-- Whether the time of a frame can be counted in generations. In a pause, and with a job of history
to do, it need not. -/
def CountsTime (delta : α) (playback : Playback α) : Prop :=
  playback.openJob = none → playback.playing = true →
    ∃ collected, (playback.accumulate delta).collect = .ok collected

/-- Whether the callouts of a frame have an answer. -/
def ShowsCallouts (playback : Playback α) : Prop :=
  ∃ callouts, playback.timeline.callouts.frames playback.world.generation
    playback.world.population playback.camera = .ok callouts

omit [Transcendental α] in
theorem answer_runSteps_iff (clock : Nat → α) (delta : α) (playback : Playback α) :
    (∃ report, Player.answer (Player.runSteps clock delta) playback = .ok report)
      ↔ playback.CountsTime delta := by
  rw [Player.answer_runSteps, CountsTime]
  cases given : playback.openJob with
  | some job => simp
  | none =>
      cases playing : playback.playing with
      | false => simp
      | true => cases (playback.accumulate delta).collect <;> simp [Except.map]

omit [Transcendental α] in
theorem drift_of_untracked {playback : Playback α} (untracked : playback.timeline.track = none) :
    Player.answer Player.drift playback = .ok ()
      ∧ Player.after Player.drift playback = playback := by
  rw [Player.after_drift]
  unfold Player.drift
  rw [Player.answer_get_bind, untracked]
  exact ⟨rfl, rfl⟩

theorem answer_present_iff (message : String) (report : StepReport) (playback : Playback α) :
    (∃ result, Player.answer (Player.present message report) playback = .ok result)
      ↔ (Player.after (Player.present message report) playback).ShowsCallouts := by
  rw [Player.answer_present, Player.after_present, ShowsCallouts]
  dsimp only
  cases playback.timeline.callouts.frames playback.world.generation playback.world.population
    playback.camera <;> simp [Except.map]

/-- **When a frame without a track has an answer**: the camera can be moved, the time counted, and
the callouts shown. -/
theorem tick_answers_iff {playback : Playback α} (untracked : playback.timeline.track = none)
    (clock : Nat → α) (delta : α) :
    (∃ result, Player.answer (Player.tick clock delta) playback = .ok result)
      ↔ playback.comesToSteps delta = true ∧ (playback.aboutToStep delta).CountsTime delta
        ∧ (Player.after (Player.tick clock delta) playback).ShowsCallouts := by
  have calm : (Player.after (Player.runSteps clock delta)
      (playback.aboutToStep delta)).timeline.track = none := by
    have timeline : (Player.after (Player.tick clock delta) playback).timeline
        = playback.timeline := (playback.perform_replay (.tick clock delta)).1
    rw [(Player.runSteps_keepsView clock delta _).timeline,
      ← (Player.tick_keepsCourse clock delta playback).timeline, timeline, untracked]
  rw [Player.tick_eq, Player.answer_bind_of_ok _ _ (Player.answer_passTime ..),
    Player.after_bind_of_ok _ _ (Player.answer_passTime ..), ← answer_runSteps_iff clock,
    comesToSteps]
  unfold aboutToStep at calm ⊢
  revert calm
  generalize Player.after (Player.passTime delta) playback = timed
  cases moved : Player.answer Player.moveCamera timed with
  | error fault => simp [Player.answer_bind, moved, Except.isOk, Except.toBool]
  | ok message =>
      rw [Player.answer_bind_of_ok _ _ moved, Player.after_bind_of_ok _ _ moved]
      generalize Player.after Player.moveCamera timed = about
      intro calm
      cases ran : Player.answer (Player.runSteps clock delta) about with
      | error fault => simp [Player.answer_bind, ran]
      | ok report =>
          obtain ⟨drifted, unmoved⟩ := drift_of_untracked calm
          rw [Player.answer_bind_of_ok _ _ ran, Player.after_bind_of_ok _ _ ran,
            Player.answer_bind_of_ok _ _ drifted, Player.after_bind_of_ok _ _ drifted, unmoved,
            answer_present_iff]
          simp [Except.isOk, Except.toBool]

/-! ### Whole journeys -/

omit [Transcendental α] in
theorem answer_goTo (index : Int) (playback : Playback α) :
    Player.answer (Player.goTo index) playback =
      if index < 0 ∨ (playback.timeline.pois.length : Int) ≤ index then
        .error (.poiOutOfRange index playback.timeline.pois.length)
      else if (poiAt playback.timeline index.toNat).speed = 0 then .ok ()
      else ({ playback with poi := some index.toNat }.journeyTo index.toNat).map fun _ => () := by
  unfold Player.goTo
  rw [Player.answer_get_bind]
  dsimp only
  split
  · rfl
  · rw [Player.answer_bind_of_ok _ _ (Player.answer_set ..), Player.after_set]
    split
    · rfl
    · rw [Player.answer_bind, Player.answer_ofExcept]
      cases { playback with poi := some index.toNat }.journeyTo index.toNat <;> rfl

omit [Scalar α] [Transcendental α] in
theorem poiAt_of_listed {timeline : Timeline α} {index : Nat} {poi : Keyframe α}
    (listed : timeline.pois[index]? = some poi) : poiAt timeline index = poi := by
  rw [poiAt, List.getD_eq_getElem?_getD, listed, Option.getD_some]

/-- Playback that has just set out from another for a point of interest. -/
structure SetsOut (before headed : Playback α) (index : Nat) (journey : Journey α) : Prop where
  timeline : headed.timeline = before.timeline
  untold : headed.untold = before.untold
  poi : headed.poi = some index
  underway : headed.journey = some journey
  heading : journey.poi = index
  time : Scalar.ofInt (poiAt before.timeline index).speed = .ok journey.finish.targetTime
  fresh : journey.frame = 0

omit [Transcendental α] in
/-- A call for a point of interest with a speed sets out for it. -/
theorem goTo_setsOut {playback : Playback α} {index : Nat} {poi : Keyframe α}
    (listed : playback.timeline.pois[index]? = some poi) (slow : poi.speed ≠ 0) {count : α}
    (counted : Scalar.ofInt poi.speed = .ok count) :
    Player.answer (Player.goTo index) playback = .ok ()
      ∧ ∃ journey, SetsOut playback (Player.after (Player.goTo index) playback) index journey := by
  obtain ⟨inside, -⟩ := List.getElem?_eq_some_iff.mp listed
  have valid : ¬((index : Int) < 0 ∨ (playback.timeline.pois.length : Int) ≤ index) := by omega
  rw [answer_goTo, Player.after_goTo, if_neg valid, if_neg valid, Int.toNat_natCast]
  dsimp only
  rw [poiAt_of_listed listed, if_neg slow, if_neg slow]
  obtain ⟨journey, begun⟩ : ∃ journey,
      { playback with poi := some index }.journeyTo index = .ok journey :=
    exists_journeyTo (by rwa [poiAt_of_listed listed])
  obtain ⟨heading, fresh, time⟩ := journeyTo_eq_ok begun
  rw [begun]
  exact ⟨rfl, journey, rfl, rfl, rfl, rfl, heading, time, fresh⟩

/-- A frame shows a result of one kind, unless it has no answer; it is known when that is so. -/
structure Shows (playback : Playback α) (frame : (Nat → α) × α)
    (kind : FrameResult α → Prop) : Prop where
  answers : (∃ result, Player.answer (Player.tick frame.1 frame.2) playback = .ok result)
    ↔ playback.comesToSteps frame.2 = true
      ∧ (playback.aboutToStep frame.2).CountsTime frame.2
      ∧ (Player.after (Player.tick frame.1 frame.2) playback).ShowsCallouts
  shown : ∀ result, Player.answer (Player.tick frame.1 frame.2) playback = .ok result → kind result

/-- **A journey arrives with as many frames as its point of interest says**: with the first frame
whose count comes to the speed as a number of time, and that is the speed itself where it is of an
ordinary size. -/
theorem afterFrames_arrives [OrderedScalar α] (timeline : Timeline α) (world : World)
    (settings : ViewerSettings α) (calls : List (HostCall α)) (untracked : timeline.track = none)
    {index : Nat} {poi : Keyframe α} (listed : timeline.pois[index]? = some poi)
    (slow : 1 ≤ poi.speed) {count : α} (counted : Scalar.ofInt poi.speed = .ok count)
    (heard : ((start timeline world settings).afterCalls calls).untold = []) :
    let reached := (start timeline world settings).afterCalls calls
    let headed := Player.after (Player.goTo index) reached
    Player.answer (Player.goTo index) reached = .ok ()
      ∧ ∃ frames, 0 < frames
        ∧ (∀ made, Scalar.reaches (made + 1) count = true ↔ frames ≤ made + 1)
        ∧ (poi.speed ≤ 2 ^ 53 → (frames : Int) = poi.speed)
        ∧ ∀ (onWay : List ((Nat → α) × α)) (last : (Nat → α) × α), onWay.length + 1 = frames →
          let landed := headed.afterFrames (onWay ++ [last])
          (∀ passed frame rest, onWay = passed ++ frame :: rest →
              (headed.afterFrames passed).Shows frame fun result =>
                result.locked = true ∧ Event.arrivals result.events = [])
            ∧ ((headed.afterFrames onWay).Shows last fun result =>
                Event.arrivals result.events = [.arrived index] ∧ result.camera = poi.camera)
            ∧ (headed.afterFrames onWay).comesToSteps last.2 = true
            ∧ (∀ fault, Player.answer (Player.tick last.1 last.2) (headed.afterFrames onWay)
                = .error fault → Event.arrivals landed.untold = [.arrived index])
            ∧ landed.journey = none ∧ landed.poi = some index ∧ landed.active = poi
            ∧ landed.camera = poi.camera := by
  intro reached headed
  have stage : reached.timeline = timeline :=
    (oneStage_afterCalls _ calls).timeline.trans (start_timeline ..)
  rw [← stage] at listed untracked
  obtain ⟨asked, journey, setsOut⟩ := goTo_setsOut listed (by omega) counted
  obtain ⟨sameTimeline, untold, asksFor, begins, heading, time, fresh⟩ := setsOut
  rw [poiAt_of_listed listed] at time
  obtain rfl : journey.finish.targetTime = count := Except.ok.inj (time.symm.trans counted)
  obtain ⟨frames, positive, ends⟩ := exists_reaches journey.timed journey.frame
  have reaches := ends
  rw [fresh] at reaches
  simp only [Nat.zero_add] at reaches
  refine ⟨asked, frames, positive, reaches, fun ordinary => ?_, fun onWay last all => ?_⟩
  · -- both the first frame that comes to the time and the speed are the least such count
    obtain ⟨speed, whole⟩ := Int.eq_ofNat_of_zero_le (by omega : 0 ≤ poi.speed)
    rw [whole] at counted ordinary slow ⊢
    have comes := reaches_ofInt (by omega) counted
    have first := (reaches (frames - 1)).mpr (by omega)
    have least := (reaches (speed - 1)).mp ((comes _).mpr (by omega))
    rw [comes] at first
    omega
  have unheard : headed.untold = [] := untold.trans heard
  have unfollowed {passed : List ((Nat → α) × α)} :
      (headed.afterFrames passed).timeline.track = none := by
    rw [afterFrames, (oneStage_afterCalls headed _).timeline, sameTimeline, untracked]
  have far {made : Nat} (before : made < onWay.length) :
      ¬journey.endsAt (journey.frame + made + 1) = true := fun comes => by
    have within := (ends made).mp comes
    omega
  have near : journey.endsAt (journey.frame + onWay.length + 1) = true :=
    (ends onWay.length).mpr (by omega)
  have arrives := underway_afterFrames begins onWay fun made before => far before
  obtain ⟨-, stillAsked, ended, active, camera⟩ := tick_lands last.1 last.2 arrives.journey near
  have wanted : (headed.afterFrames onWay).poi = some index := arrives.poi.trans asksFor
  have placed : poiAt (headed.afterFrames onWay).timeline journey.poi = poi := by
    rw [arrives.timeline, sameTimeline, heading, poiAt_of_listed listed]
  rw [placed] at active camera
  replace active := active (wanted ▸ Option.some_ne_none index)
  replace camera := camera unfollowed
  have told : (headed.afterFrames onWay).landing?.toList.map
      (fun _ => Event.arrived ((headed.afterFrames onWay).poi.elim (-1) Int.ofNat))
        = [.arrived index] := by
    rw [landing?_of_near arrives.journey near, wanted]
    rfl
  have silent := arrives.news (congrArg Event.arrivals unheard)
  rw [afterFrames_concat headed onWay last]
  refine ⟨fun passed frame rest split => ?_, ?_, ?_, fun fault unanswered => ?_,
    ended, stillAsked.trans wanted, active, camera⟩
  · have bound := congrArg List.length split
    rw [List.length_append, List.length_cons] at bound
    have underway := underway_afterFrames begins passed fun made before => far (by omega)
    exact ⟨tick_answers_iff unfollowed _ _,
      fun result shown => underway.shows unheard (far (by omega)) shown⟩
  · refine ⟨tick_answers_iff unfollowed _ _, fun result shown => ⟨?_, ?_⟩⟩
    · rw [arrivals_shown _ _ shown, silent, told, List.nil_append]
    · rw [(Player.shown_eq shown).1, camera]
  · exact comesToSteps_of_near _ arrives.journey near
  · rw [arrivals_waiting _ _ unanswered, silent, told, List.nil_append]

/-- A journey of two frames, for which playback gives up another one, in exact numbers. All its
views have one zoom, so that only powers of one are asked for. -/
theorem afterFrames_arrives_elsewhere :
    let _ : Transcendental ℚ := ⟨fun _ => 0, fun base _ => base, max, fun _ _ => 0⟩
    let context : Script.Context ℚ := ⟨.standard, .standard, .standard⟩
    let script := "[[ AUTOSTART LOOP 1 POI X 1 POITRANS 5 POI X 9 POITRANS 2 ]]"
    let world := World.ofSize 8 (by decide) true
    let frame : (Nat → ℚ) × ℚ := (fun reading => reading, 40)
    ∃ interpretation, Script.interpret context script = .ok interpretation
      ∧ let reached := (start interpretation.timeline world .standard).afterCalls
          [.goTo 0, .tick frame.1 frame.2]
        let headed := Player.after (Player.goTo 1) reached
        reached.journey.map Journey.poi = some 0 ∧ interpretation.timeline.track.isNone
          ∧ interpretation.timeline.pois[1]?.map Keyframe.speed = some 2 ∧ reached.untold = []
          ∧ ∃ between landing, Player.answer (Player.tick frame.1 frame.2) headed = .ok between
            ∧ between.locked = true ∧ Event.arrivals between.events = []
            ∧ Player.answer (Player.tick frame.1 frame.2) (headed.afterFrames [frame]) = .ok landing
            ∧ Event.arrivals landing.events = [.arrived 1]
            ∧ (headed.afterFrames [frame, frame]).journey.isNone := by
  intro _ context script world frame
  have checked : (Script.interpret context script).toOption.any (fun interpretation =>
      let reached := (start interpretation.timeline world .standard).afterCalls
        [.goTo 0, .tick frame.1 frame.2]
      let headed := Player.after (Player.goTo 1) reached
      reached.journey.map Journey.poi == some 0 && decide (reached.untold = [])
        && interpretation.timeline.track.isNone
        && interpretation.timeline.pois[1]?.map Keyframe.speed == some 2
        && (Player.answer (Player.tick frame.1 frame.2) headed).isOk
        && (Player.answer (Player.tick frame.1 frame.2) (headed.afterFrames [frame])).isOk)
      = true := by
    decide +kernel
  obtain ⟨interpretation, interpreted, facts⟩ := Script.exists_interpretation checked
  simp only [Bool.and_eq_true, beq_iff_eq, decide_eq_true_eq] at facts
  obtain ⟨⟨⟨⟨⟨underway, heard⟩, untracked⟩, speed⟩, begins⟩, lands⟩ := facts
  obtain ⟨poi, listed, two⟩ := Option.map_eq_some_iff.mp speed
  have counted : Scalar.ofInt poi.speed = .ok (2 : ℚ) := by
    rw [two]
    rfl
  obtain ⟨-, frames, -, -, ordinary, arrives⟩ :=
    afterFrames_arrives interpretation.timeline world .standard [.goTo 0, .tick frame.1 frame.2]
      (Option.isNone_iff_eq_none.mp untracked) listed (by omega) counted heard
  have all : frames = 2 := by omega
  obtain ⟨onWay, landing, -, -, ended, -⟩ := arrives [frame] frame all.symm
  obtain ⟨between, shown⟩ := completes_of_isOk begins
  obtain ⟨landed, shownLast⟩ := completes_of_isOk lands
  obtain ⟨locked, silent⟩ := (onWay [] frame [] rfl).shown between shown
  obtain ⟨told, -⟩ := landing.shown landed shownLast
  exact ⟨interpretation, interpreted, underway, untracked, speed, heard, between, landed, shown,
    locked, silent, shownLast, told, Option.isNone_iff_eq_none.mpr ended⟩

/-- Where the generations of its time cannot be counted, the last frame of a journey has no answer,
and the news of the arrival goes on waiting. -/
theorem afterFrames_arrives_unanswered :
    let context : Script.Context Float := ⟨.standard, .standard, .standard⟩
    let script := "[[ AUTOSTART POI X 5 POITRANS 1 ]]"
    let world := World.ofSize 8 (by decide) true
    let slow : Nat → Float := fun reading => reading.toFloat
    ∃ interpretation, Script.interpret context script = .ok interpretation
      ∧ let reached := start interpretation.timeline world .standard
        let headed := Player.after (Player.goTo 0) reached
        interpretation.timeline.track.isNone = true ∧ reached.untold = []
          ∧ interpretation.timeline.pois.map Keyframe.speed = [1]
          ∧ (Player.answer (Player.goTo 0) reached).isOk = true
          ∧ ∀ result, Player.answer (Player.tick slow 1e308) headed ≠ .ok result := by
  intro context script world slow
  have checked : (Script.interpret context script).toOption.any (fun interpretation =>
      let reached := start interpretation.timeline world .standard
      let headed := Player.after (Player.goTo 0) reached
      interpretation.timeline.track.isNone && decide (reached.untold = [])
        && decide (interpretation.timeline.pois.map Keyframe.speed = [1])
        && (Player.answer (Player.goTo 0) reached).isOk
        && !(Player.answer (Player.tick slow 1e308) headed).isOk) = true := by
    decide +kernel
  obtain ⟨interpretation, interpreted, facts⟩ := Script.exists_interpretation checked
  simp only [Bool.and_eq_true, Bool.not_eq_true', decide_eq_true_eq] at facts
  obtain ⟨⟨⟨⟨untracked, heard⟩, speeds⟩, asked⟩, unanswered⟩ := facts
  refine ⟨interpretation, interpreted, untracked, heard, speeds, asked, fun result shown => ?_⟩
  rw [shown] at unanswered
  cases unanswered

end Playback

end Showreel
