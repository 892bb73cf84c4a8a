import Showreel.Proofs.Playback.Generations
import Showreel.Proofs.Waypoint.Walk

/-!
Contract: the diary of a playback.

Owns:
- deeds, which are steps, returns to generation zero, and what is told;
- the deeds of each phase of a frame and of each call of the host, in their order;
- the course of a playback through deeds, with nothing but quiet changes between them, and that
  every phase and every call takes the course that its diary says;
- that a diary is true: it leads to the world of the playback, it has a deed for every step that
  a frame reports, and what a frame delivers is what was told.

Does not own: laws about which deeds follow each other.
-/

namespace Showreel

open Number Paste

/-- What playback does to its world, and what it tells. -/
inductive Deed where
  /-- A generation whose time has come, with the limits that the active keyframe sets. -/
  | stepped (generation stop loop : Int)
  /-- A generation that a job of history asks for. -/
  | computed
  /-- The return to generation zero and to the start of the chain. -/
  | returned
  /-- The return of the world alone, for a job whose target lies before it. -/
  | rewound
  | told (event : Event)
deriving DecidableEq, Repr

namespace Deed

/-- What a deed does to a world. -/
def act (entries : List Entry) (world : World) : Deed → World
  | stepped .. | computed => world.advance entries
  | returned | rewound => world.reset
  | told _ => world

def event? : Deed → Option Event
  | told event => some event
  | _ => none

def isStep : Deed → Bool
  | stepped .. | computed => true
  | _ => false

end Deed

/-- The world that deeds lead to, one after the other. -/
def World.replay (entries : List Entry) (world : World) (diary : List Deed) : World :=
  diary.foldl (Deed.act entries) world

namespace World

theorem replay_concat (entries : List Entry) (world : World) (diary : List Deed) (deed : Deed) :
    world.replay entries (diary ++ [deed]) = deed.act entries (world.replay entries diary) := by
  unfold replay
  rw [List.foldl_append]
  rfl

theorem reset_advance (entries : List Entry) (world : World) :
    (world.advance entries).reset = world.reset := by
  unfold advance
  rw [Schedule.reset_apply, reset_step]

/-- No deed touches the generation zero of a world. -/
theorem reset_replay (entries : List Entry) (world : World) (diary : List Deed) :
    (world.replay entries diary).reset = world.reset := by
  unfold replay
  induction diary generalizing world with
  | nil => rfl
  | cons deed rest inductionHypothesis =>
      rw [List.foldl_cons, inductionHypothesis]
      cases deed with
      | stepped | computed => exact reset_advance entries world
      | returned | rewound => exact reset_reset world
      | told => rfl

end World

namespace Playback

variable {α : Type} [Scalar α]

/-- The events that wait for the next frame. -/
def untold (playback : Playback α) : List Event :=
  playback.undelivered.toList.filterMap Occurrence.event?

theorem untold_note (playback : Playback α) (event : Event) :
    (playback.note event).untold = playback.untold ++ [event] := by
  unfold untold note
  simp [Occurrence.event?]

omit [Scalar α] in
/-- Pastes are no events. -/
theorem event?_pastesAt (timeline : Timeline α) (generation : Int) :
    (pastesAt timeline generation).filterMap Occurrence.event? = [] := by
  rw [List.filterMap_eq_nil_iff]
  intro occurrence member
  unfold pastesAt at member
  obtain ⟨entry, -, pasted⟩ := List.mem_filterMap.mp member
  split at pasted
  · cases pasted
  · cases pasted
    rfl

theorem untold_applyPastes (playback : Playback α) (generation : Int) :
    (playback.applyPastes generation).untold = playback.untold := by
  unfold applyPastes untold
  rw [Array.toList_append, List.filterMap_append, event?_pastesAt, List.append_nil]

theorem untold_stepOnce (playback : Playback α) : playback.stepOnce.untold = playback.untold :=
  untold_applyPastes { playback with world := playback.world.step .all } _

/-! ### The deeds of the steps of a frame -/

/-- The deed of a step for which the time has come. -/
def stepDeed (playback : Playback α) : Deed :=
  .stepped playback.world.generation playback.active.stop playback.active.loop

/-- The deeds with which playback halts, if it does. -/
def haltDeeds (playback : Playback α) : List Deed :=
  if playback.stops then [.told (.stopped playback.world.generation)]
  else if playback.loops then [.told (.looped playback.world.generation), .returned]
  else []

/-- The deeds of an arrival at a point of interest. -/
def arriveDeeds (playback : Playback α) (poi : Keyframe α) : List Deed :=
  .told (.arrived (playback.poi.elim (-1) Int.ofNat)) :: if poi.resets then [.returned] else []

/-- The deeds of a burst, each step being the deed that `step` makes of it. -/
def burstDeeds (clock : Nat → α) (halts : Playback α → Option (Playback α))
    (step : Playback α → Deed) : Nat → Nat → Playback α → List Deed
  | 0, _, _ => []
  | left + 1, completed, playback =>
      match halts playback with
      | some _ => playback.haltDeeds
      | none => step playback ::
          if 0 < left && overBudget clock playback.settings.frameBudget (completed + 1) then []
          else burstDeeds clock halts step left (completed + 1) playback.stepOnce

/-- The deeds of one frame of computing history. -/
def historyDeeds (clock : Nat → α) (playback : Playback α) (job : HistoryJob) : List Deed :=
  let steps := (playback.historySteps job).toNat
  let run := burst clock (fun _ => none) steps 0 (playback.rewoundFor job)
  (if job.target < playback.world.generation then [.rewound] else [])
    ++ burstDeeds clock (fun _ => none) (fun _ => .computed) steps 0 (playback.rewoundFor job)
    ++ (if job.target ≤ run.playback.world.generation then [.told (.historyReached job.target)]
        else [])

/-- The deeds of the steps that are due in one frame. -/
def pendingDeeds (clock : Nat → α) (playback : Playback α) : List Deed :=
  let run := burst clock halt? playback.dueSteps.toNat 0 playback
  burstDeeds clock halt? stepDeed playback.dueSteps.toNat 0 playback
    ++ (if run.counted.playing then run.counted.haltDeeds else [])

/-- The deeds of the steps of a frame. -/
def runDeeds (clock : Nat → α) (delta : α) (playback : Playback α) : List Deed :=
  match playback.openJob with
  | some job => playback.historyDeeds clock job
  | none =>
      if playback.playing then
        match (playback.accumulate delta).collect with
        | .ok collected => collected.pendingDeeds clock
        | .error _ => []
      else playback.pendingDeeds clock

/-- The deeds of a call for a point of interest. -/
def goToDeeds (index : Int) (playback : Playback α) : List Deed :=
  if index < 0 ∨ (playback.timeline.pois.length : Int) ≤ index then []
  else
    let poi := poiAt playback.timeline index.toNat
    if poi.speed = 0 then { playback with poi := some index.toNat }.arriveDeeds poi else []

/-- The deeds of one frame of a journey. -/
def travelDeeds (journey : Journey α) (playback : Playback α) : List Deed :=
  if journey.endsAt (journey.frame + 1) then
    playback.arriveDeeds (poiAt playback.timeline journey.poi)
  else []

variable [Transcendental α]

/-- The deeds of a move along the chain. -/
def followDeeds (playback : Playback α) : List Deed :=
  match playback.fittedKeyframe with
  | .error _ => []
  | .ok view =>
      match playback.cursor.update playback.elapsed playback.world.generation view with
      | .ok (_, _, true) => [.told .chainEnded]
      | _ => []

/-- The deeds of the move of the camera in a frame. -/
def cameraDeeds (playback : Playback α) : List Deed :=
  match playback.journey with
  | some journey => playback.travelDeeds journey
  | none =>
      if playback.followsChain && playback.playing && !playback.ended then playback.followDeeds
      else []

/-- The deeds of a view under the user's hand. -/
def handDeeds (camera : Camera α) (playback : Playback α) : List Deed :=
  if playback.locked && playback.journey.isNone && playback.followsChain then
    match playback.cursor.beginBlend
      (Keyframe.ofCamera camera playback.active.gps playback.active.step)
      playback.world.generation playback.elapsed with
    | .ok _ => [.told .blendBegan]
    | .error _ => []
  else []

/-- Playback from which the steps of a frame are made, if nothing before them fails. -/
def aboutToStep (delta : α) (playback : Playback α) : Playback α :=
  Player.after Player.moveCamera (Player.after (Player.passTime delta) playback)

/-- The deeds of a frame. -/
def frameDeeds (clock : Nat → α) (delta : α) (playback : Playback α) : List Deed :=
  let timed := Player.after (Player.passTime delta) playback
  timed.cameraDeeds ++
    match Player.answer Player.moveCamera timed with
    | .ok _ => (playback.aboutToStep delta).runDeeds clock delta
    | .error _ => []

/-- The deeds of a call of the host. -/
def callDeeds (playback : Playback α) : HostCall α → List Deed
  | .play | .pause => []
  | .reset => [.returned]
  | .goTo poi => playback.goToDeeds poi
  | .moveByHand camera => playback.handDeeds camera
  | .tick clock delta => playback.frameDeeds clock delta

/-- The deeds of a playback under calls of the host, in order. -/
def diary (playback : Playback α) : List (HostCall α) → List Deed
  | [] => []
  | call :: rest => playback.callDeeds call ++ diary (call.perform playback) rest

/-! ### Courses -/

section Course

variable {α : Type} [Scalar α]

/-- Playbacks between which nothing was done and nothing was told. -/
structure Alike (before after : Playback α) : Prop where
  timeline : after.timeline = before.timeline
  settings : after.settings = before.settings
  chain : after.cursor.chain = before.cursor.chain
  world : after.world = before.world
  stopFired : after.stopFired = before.stopFired
  untold : after.untold = before.untold

/-- Whether an event leaves the stop alone: no stop, and no arrival. -/
def leavesStop : Event → Bool
  | .stopped _ | .arrived _ => false
  | _ => true

/-- One deed, from the playback that does it to the playback that has done it. -/
inductive Does : Playback α → Deed → Playback α → Prop
  /-- Steps for which the time has come are only made where playback does not halt. -/
  | step {playback : Playback α} (going : playback.halt? = none) :
      Does playback playback.stepDeed playback.stepOnce
  | compute (playback : Playback α) : Does playback .computed playback.stepOnce
  | reset (playback : Playback α) : Does playback .returned playback.reset
  | rewind (playback : Playback α) :
      Does playback .rewound { playback with world := playback.world.reset }
  | stop {playback : Playback α} (stops : playback.stops = true) :
      Does playback (.told (.stopped playback.world.generation)) playback.held
  | arrive (playback : Playback α) (poi : Keyframe α) :
      Does playback (.told (.arrived (playback.poi.elim (-1) Int.ofNat))) (playback.standingAt poi)
  | tell (playback : Playback α) {event : Event} (leaves : leavesStop event = true) :
      Does playback (.told event) (playback.note event)

/-- A course through deeds, one after the other. -/
inductive Course : Playback α → List Deed → Playback α → Prop
  | quiet {before after : Playback α} (alike : Alike before after) : Course before [] after
  | deed {before after : Playback α} {deed : Deed} (does : Does before deed after) :
      Course before [deed] after
  | append {before between after : Playback α} {deeds others : List Deed}
      (first : Course before deeds between) (second : Course between others after) :
      Course before (deeds ++ others) after

theorem Alike.refl (playback : Playback α) : Alike playback playback :=
  ⟨rfl, rfl, rfl, rfl, rfl, rfl⟩

namespace Course

theorem refl (playback : Playback α) : Course playback [] playback :=
  .quiet (.refl playback)

theorem thenQuiet {before between after : Playback α} {deeds : List Deed}
    (course : Course before deeds between) (alike : Alike between after) :
    Course before deeds after := by
  have longer := course.append (.quiet alike)
  rwa [List.append_nil] at longer

theorem quietThen {before between after : Playback α} {deeds : List Deed}
    (alike : Alike before between) (course : Course between deeds after) :
    Course before deeds after :=
  (Course.quiet alike).append course

theorem cons {before between after : Playback α} {deed : Deed} {deeds : List Deed}
    (does : Does before deed between) (course : Course between deeds after) :
    Course before (deed :: deeds) after :=
  (Course.deed does).append course

end Course

/-! ### Courses of the steps of a frame -/

theorem haltDeeds_of_halt_eq_none {playback : Playback α} (going : playback.halt? = none) :
    playback.haltDeeds = [] := by
  obtain ⟨unstopped, unlooped⟩ := playback.halt_eq_none.mp going
  unfold haltDeeds
  rw [unstopped, unlooped]
  rfl

theorem halt_course {playback halted : Playback α} (halting : playback.halt? = some halted) :
    Course playback playback.haltDeeds halted := by
  unfold haltDeeds
  rcases halt_cases halting with ⟨stops, rfl⟩ | ⟨goesOn, loops, rfl⟩
  · rw [if_pos stops]
    exact .deed (.stop stops)
  · rw [if_neg (Bool.eq_false_iff.mp goesOn), if_pos loops]
    exact .cons (.tell playback rfl) (.deed (.reset _))

theorem burst_course (clock : Nat → α) {halts : Playback α → Option (Playback α)}
    {step : Playback α → Deed}
    (steps : ∀ playback, halts playback = none → Does playback (step playback) playback.stepOnce)
    (halting : ∀ {playback halted}, halts playback = some halted →
      Course playback playback.haltDeeds halted)
    (left completed : Nat) (playback : Playback α) :
    Course playback (burstDeeds clock halts step left completed playback)
      (burst clock halts left completed playback).playback := by
  induction left generalizing completed playback with
  | zero => exact .refl playback
  | succ left inductionHypothesis =>
      unfold burstDeeds burst
      cases halted : halts playback with
      | some after => exact halting halted
      | none =>
          refine .cons (steps playback halted) ?_
          dsimp only
          split
          · exact .refl _
          · exact inductionHypothesis _ _

theorem runHistory_course (clock : Nat → α) (playback : Playback α) (job : HistoryJob) :
    Course playback (playback.historyDeeds clock job) (playback.runHistory clock job).1 := by
  have rewound : Course playback (if job.target < playback.world.generation then [.rewound] else [])
      (playback.rewoundFor job) := by
    unfold rewoundFor
    split
    · exact .deed (.rewind playback)
    · exact .refl playback
  have reported : ∀ run : Burst α, Course run.playback
      (if job.target ≤ run.playback.world.generation then [.told (.historyReached job.target)]
        else []) (run.reported job) := by
    intro run
    unfold Burst.reported
    split
    · have marked : Alike run.playback
          { run.playback with job := some { job with reached := true } } := ⟨rfl, rfl, rfl, rfl, rfl, rfl⟩
      exact .quietThen marked (.deed (.tell _ rfl))
    · exact .refl _
  rw [runHistory_fst]
  refine (rewound.append ?_).append (reported _)
  exact burst_course clock (fun playback _ => .compute playback) (by simp) ..

theorem runPending_course (clock : Nat → α) (playback : Playback α) :
    Course playback (playback.pendingDeeds clock) (playback.runPending clock).1 := by
  have settled : ∀ run : Burst α, Course run.playback
      (if run.counted.playing then run.counted.haltDeeds else []) run.settled := by
    intro run
    have counted : Alike run.playback run.counted := ⟨rfl, rfl, rfl, rfl, rfl, rfl⟩
    unfold Burst.settled
    split
    · refine .quietThen counted ?_
      cases halts : run.counted.halt? with
      | none =>
          rw [haltDeeds_of_halt_eq_none halts]
          exact .refl _
      | some halted => exact halt_course halts
    · exact .quiet ⟨rfl, rfl, rfl, rfl, rfl, rfl⟩
  rw [runPending_fst]
  refine Course.append ?_ (settled _)
  exact burst_course clock (fun _ going => .step going) halt_course ..

theorem arrive_course (playback : Playback α) (poi : Keyframe α) :
    Course playback (playback.arriveDeeds poi) (playback.arrive poi) := by
  have acting : ∀ current : Playback α, Alike current (current.acting poi.action) := by
    intro current
    cases poi.action <;> exact ⟨rfl, rfl, rfl, rfl, rfl, rfl⟩
  have history : ∀ current : Playback α,
      Alike current (current.withHistory poi.startGeneration) := by
    intro current
    unfold withHistory
    split <;> exact ⟨rfl, rfl, rfl, rfl, rfl, rfl⟩
  rw [arrive_eq]
  unfold arriveDeeds
  refine .thenQuiet (.thenQuiet (.cons (.arrive playback poi) ?_) (acting _)) (history _)
  split
  · exact .deed (.reset _)
  · exact .refl _

end Course

end Playback

namespace Player

open Playback

variable {α : Type} [Scalar α]

theorem passTime_alike (delta : α) (playback : Playback α) :
    Alike playback (after (passTime delta) playback) := by
  rw [after_passTime]
  split <;> exact ⟨rfl, rfl, rfl, rfl, rfl, rfl⟩

theorem fitCamera_alike (playback : Playback α) : Alike playback (after fitCamera playback) := by
  rw [after_fitCamera]
  split <;> exact ⟨rfl, rfl, rfl, rfl, rfl, rfl⟩

theorem drift_alike (playback : Playback α) : Alike playback (after drift playback) := by
  rw [after_drift]
  split
  · split
    · exact .refl playback
    · rw [after_followTrack]
      split <;> exact ⟨rfl, rfl, rfl, rfl, rfl, rfl⟩
  · exact .refl playback

theorem runSteps_course (clock : Nat → α) (delta : α) (playback : Playback α) :
    Course playback (playback.runDeeds clock delta) (after (runSteps clock delta) playback) := by
  rw [after_runSteps]
  unfold runDeeds
  cases playback.openJob with
  | some job => exact runHistory_course clock playback job
  | none =>
      dsimp only
      by_cases playing : playback.playing = true
      · rw [if_pos playing, if_pos playing]
        cases collecting : (playback.accumulate delta).collect with
        | error fault => exact .quiet ⟨rfl, rfl, rfl, rfl, rfl, rfl⟩
        | ok collected =>
            have gathered : Alike playback collected := by
              obtain ⟨whole, taken, -, -, rfl⟩ := collect_ok collecting
              exact ⟨rfl, rfl, rfl, rfl, rfl, rfl⟩
            exact .quietThen gathered (runPending_course clock collected)
      · rw [if_neg playing, if_neg playing]
        exact runPending_course clock playback

theorem goTo_course (index : Int) (playback : Playback α) :
    Course playback (playback.goToDeeds index) (after (goTo index) playback) := by
  have headed : Alike playback { playback with poi := some index.toNat } := ⟨rfl, rfl, rfl, rfl, rfl, rfl⟩
  rw [after_goTo]
  unfold goToDeeds
  split
  · exact .refl playback
  · dsimp only
    split
    · exact .quietThen headed (arrive_course ..)
    · split <;> exact .quiet ⟨rfl, rfl, rfl, rfl, rfl, rfl⟩

variable [Transcendental α]

theorem travel_course (journey : Journey α) (playback : Playback α) :
    Course playback (playback.travelDeeds journey) (after (travel journey) playback) := by
  have landed : Alike playback { playback with journey := none } := ⟨rfl, rfl, rfl, rfl, rfl, rfl⟩
  rw [after_travel]
  unfold travelDeeds
  split
  · exact .quietThen landed (arrive_course { playback with journey := none } _)
  · exact .quiet ⟨rfl, rfl, rfl, rfl, rfl, rfl⟩

theorem followChain_course (playback : Playback α) :
    Course playback playback.followDeeds (after followChain playback) := by
  rw [after_followChain]
  unfold followDeeds
  cases playback.fittedKeyframe with
  | error fault => exact .refl playback
  | ok view =>
      dsimp only
      cases walked : playback.cursor.update playback.elapsed playback.world.generation view with
      | error fault => exact .quiet ⟨rfl, rfl, playback.cursor.chain_approach .., rfl, rfl, rfl⟩
      | ok move =>
          rcases move with ⟨cursor, position, ended⟩
          have chain : cursor.chain = playback.cursor.chain := Waypoint.Cursor.chain_update walked
          have moved : Alike playback { playback with
              cursor := cursor, camera := position.camera, active := position } :=
            ⟨rfl, rfl, chain, rfl, rfl, rfl⟩
          cases ended with
          | false => exact .quiet moved
          | true =>
              have finished : Alike playback { playback with
                  cursor := cursor, camera := position.camera, active := position,
                  ended := true } := ⟨rfl, rfl, chain, rfl, rfl, rfl⟩
              exact .quietThen finished (.deed (.tell _ rfl))

theorem moveCamera_course (playback : Playback α) :
    Course playback playback.cameraDeeds (after moveCamera playback) := by
  rw [after_moveCamera]
  unfold cameraDeeds
  cases playback.journey with
  | some journey => exact travel_course journey playback
  | none =>
      dsimp only
      by_cases follows : playback.followsChain = true
      · rw [if_pos follows, follows, Bool.true_and]
        split
        · exact followChain_course playback
        · exact .refl playback
      · rw [if_neg follows, Bool.not_eq_true] at *
        rw [follows]
        exact .quiet (fitCamera_alike playback)

theorem moveByHand_course (camera : Camera α) (playback : Playback α) :
    Course playback (playback.handDeeds camera) (after (moveByHand camera) playback) := by
  rw [after_moveByHand]
  unfold handDeeds
  split
  · cases blended : playback.cursor.beginBlend
      (Keyframe.ofCamera camera playback.active.gps playback.active.step)
      playback.world.generation playback.elapsed with
    | error fault => exact .quiet ⟨rfl, rfl, playback.cursor.chain_approach .., rfl, rfl, rfl⟩
    | ok moved =>
        have begun : Alike playback { playback with cursor := moved.1, elapsed := moved.2 } :=
          ⟨rfl, rfl, Waypoint.Cursor.chain_beginBlend blended, rfl, rfl, rfl⟩
        exact .quietThen begun (.deed (.tell _ rfl))
  · exact .quiet ⟨rfl, rfl, rfl, rfl, rfl, rfl⟩

/-! ### The frame -/

/-- A frame that is not yet shown: its message and its steps. -/
def frame (clock : Nat → α) (delta : α) : Player α (String × StepReport) := do
  passTime delta
  let message ← moveCamera
  let report ← runSteps clock delta
  drift
  return (message, report)

theorem tick_eq_frame (clock : Nat → α) (delta : α) :
    tick clock delta = (do
      let (message, report) ← frame clock delta
      present message report) := by
  rw [tick_eq]
  unfold frame
  simp only [bind_assoc, pure_bind]

theorem frame_course (clock : Nat → α) (delta : α) (playback : Playback α) :
    Course playback (playback.frameDeeds clock delta) (after (frame clock delta) playback) := by
  unfold frame frameDeeds aboutToStep
  rw [after_bind_of_ok _ _ (answer_passTime ..)]
  refine .quietThen (passTime_alike delta playback) ?_
  generalize after (passTime delta) playback = timed
  rw [after_bind]
  refine (moveCamera_course timed).append ?_
  cases answer moveCamera timed with
  | error fault => exact .refl _
  | ok message =>
      dsimp only
      generalize after moveCamera timed = moved
      rw [after_bind]
      refine (runSteps_course clock delta moved).thenQuiet ?_
      cases answer (runSteps clock delta) moved with
      | error fault => exact .refl _
      | ok report =>
          dsimp only
          rw [after_bind]
          cases answer drift (after (runSteps clock delta) moved) with
          | error fault => exact drift_alike _
          | ok _ => exact drift_alike _

theorem after_tick (clock : Nat → α) (delta : α) (playback : Playback α) :
    after (tick clock delta) playback =
      match answer (frame clock delta) playback with
      | .ok (message, report) =>
          after (present message report) (after (frame clock delta) playback)
      | .error _ => after (frame clock delta) playback := by
  rw [tick_eq_frame, after_bind]
  cases answer (frame clock delta) playback <;> rfl

end Player

/-! ### The diary is true -/

namespace Playback

variable {α : Type} [Scalar α]

theorem Course.world {before after : Playback α} {deeds : List Deed}
    (course : Course before deeds after) :
    after.timeline = before.timeline
      ∧ after.world = before.world.replay before.timeline.pastes deeds := by
  induction course with
  | quiet alike => exact ⟨alike.timeline, alike.world⟩
  | deed does => cases does <;> exact ⟨rfl, rfl⟩
  | append first second earlier later =>
      rcases earlier with ⟨timeline, world⟩
      rcases later with ⟨timelineToo, worldToo⟩
      refine ⟨timelineToo.trans timeline, ?_⟩
      rw [worldToo, world, timeline, World.replay, World.replay, World.replay, List.foldl_append]

/-- No deed changes the settings or the chain of keyframes. -/
theorem Course.setting {before after : Playback α} {deeds : List Deed}
    (course : Course before deeds after) :
    after.settings = before.settings ∧ after.cursor.chain = before.cursor.chain := by
  induction course with
  | quiet alike => exact ⟨alike.settings, alike.chain⟩
  | deed does => cases does <;> exact ⟨rfl, rfl⟩
  | append first second earlier later =>
      exact ⟨later.1.trans earlier.1, later.2.trans earlier.2⟩

theorem Course.untold {before after : Playback α} {deeds : List Deed}
    (course : Course before deeds after) :
    after.untold = before.untold ++ deeds.filterMap Deed.event? := by
  induction course with
  | quiet alike => rw [alike.untold, List.filterMap_nil, List.append_nil]
  | deed does =>
      cases does with
      | step | compute =>
          rw [untold_stepOnce]
          exact (List.append_nil _).symm
      | reset | rewind => exact (List.append_nil _).symm
      | stop | arrive | tell => exact untold_note ..
  | append first second earlier later =>
      rw [later, earlier, List.filterMap_append, List.append_assoc]

variable [Transcendental α]

/-- **Every call of the host takes the course of its deeds**; a frame that is shown then takes the
lock of the camera and hands over its events. -/
theorem perform_course (playback : Playback α) (call : HostCall α) :
    ∃ reached locked undelivered, Course playback (playback.callDeeds call) reached
      ∧ call.perform playback = { reached with locked := locked, undelivered := undelivered } := by
  cases call with
  | play => exact ⟨playback.play, _, _, .quiet ⟨rfl, rfl, rfl, rfl, rfl, rfl⟩, rfl⟩
  | pause => exact ⟨playback.pause, _, _, .quiet ⟨rfl, rfl, rfl, rfl, rfl, rfl⟩, rfl⟩
  | reset => exact ⟨_, _, _, .deed (.reset playback), rfl⟩
  | goTo poi => exact ⟨_, _, _, Player.goTo_course poi playback, rfl⟩
  | moveByHand camera => exact ⟨_, _, _, Player.moveByHand_course camera playback, rfl⟩
  | tick clock delta =>
      have course := Player.frame_course clock delta playback
      unfold HostCall.perform
      dsimp only
      rw [Player.after_tick]
      split
      · rw [Player.after_present]
        exact ⟨_, _, _, course, rfl⟩
      · exact ⟨_, _, _, course, rfl⟩

theorem perform_replay (playback : Playback α) (call : HostCall α) :
    (call.perform playback).timeline = playback.timeline
      ∧ (call.perform playback).world
        = playback.world.replay playback.timeline.pastes (playback.callDeeds call) := by
  rcases playback.perform_course call with ⟨reached, locked, undelivered, course, performed⟩
  rw [performed]
  exact course.world

/-- **The world of a playback is the one that its diary leads to.** -/
theorem afterCalls_replay (playback : Playback α) (calls : List (HostCall α)) :
    (playback.afterCalls calls).world
      = playback.world.replay playback.timeline.pastes (playback.diary calls) := by
  unfold afterCalls
  induction calls generalizing playback with
  | nil => rfl
  | cons call rest inductionHypothesis =>
      rcases playback.perform_replay call with ⟨timeline, world⟩
      rw [List.foldl_cons, inductionHypothesis, timeline, world, diary, World.replay, World.replay,
        World.replay, List.foldl_append]

theorem settings_afterCalls (playback : Playback α) (calls : List (HostCall α)) :
    (playback.afterCalls calls).settings = playback.settings := by
  apply afterCalls_keeps (fun current => current.settings = playback.settings)
  · intro current call same
    rcases current.perform_course call with ⟨reached, locked, undelivered, course, performed⟩
    rw [performed]
    exact course.setting.1.trans same
  · rfl

theorem diary_append (playback : Playback α) (earlier later : List (HostCall α)) :
    playback.diary (earlier ++ later)
      = playback.diary earlier ++ (playback.afterCalls earlier).diary later := by
  induction earlier generalizing playback with
  | nil => rfl
  | cons call rest inductionHypothesis =>
      rw [List.cons_append, diary, diary, inductionHypothesis, List.append_assoc]
      rfl

/-- **A frame delivers what waited for it and what its diary tells**, and then nothing waits; where
a frame has no answer all of that goes on waiting. -/
theorem tick_delivers (clock : Nat → α) (delta : α) (playback : Playback α) :
    let told := playback.untold ++ (playback.frameDeeds clock delta).filterMap Deed.event?
    let waits := (Player.after (Player.tick clock delta) playback).untold
    match Player.answer (Player.tick clock delta) playback with
    | .ok result => result.events = told ∧ waits = []
    | .error _ => waits = told := by
  have told := (Player.frame_course clock delta playback).untold
  dsimp only
  rw [Player.after_tick, Player.tick_eq_frame, Player.answer_bind, ← told]
  generalize Player.after (Player.frame clock delta) playback = framed
  cases Player.answer (Player.frame clock delta) playback with
  | error fault => rfl
  | ok shown =>
      dsimp only
      rw [Player.after_present, Player.answer_present]
      cases framed.timeline.callouts.frames framed.world.generation framed.world.population
        framed.camera with
      | error fault => rfl
      | ok callouts => exact ⟨rfl, rfl⟩

/-! ### Steps are counted -/

section Count

omit [Transcendental α]

theorem countP_haltDeeds (playback : Playback α) : playback.haltDeeds.countP Deed.isStep = 0 := by
  unfold haltDeeds
  split
  · rfl
  · split <;> rfl

theorem countP_burstDeeds (clock : Nat → α) (halts : Playback α → Option (Playback α))
    (step : Playback α → Deed) (steps : ∀ playback, (step playback).isStep = true)
    (left completed : Nat) (playback : Playback α) :
    (burst clock halts left completed playback).completed
      = completed + (burstDeeds clock halts step left completed playback).countP Deed.isStep := by
  induction left generalizing completed playback with
  | zero => rfl
  | succ left inductionHypothesis =>
      unfold burst burstDeeds
      cases halts playback with
      | some halted => exact (congrArg (completed + ·) (countP_haltDeeds playback)).symm
      | none =>
          dsimp only
          rw [List.countP_cons, if_pos (steps playback)]
          split
          · rfl
          · rw [inductionHypothesis]
            omega

theorem countP_historyDeeds (clock : Nat → α) (playback : Playback α) (job : HistoryJob) :
    (playback.runHistory clock job).2.completed
      = (playback.historyDeeds clock job).countP Deed.isStep := by
  have counted := countP_burstDeeds clock (fun _ => none) (fun _ => .computed) (fun _ => rfl)
    (playback.historySteps job).toNat 0 (playback.rewoundFor job)
  have quiet : ∀ (condition : Prop) [Decidable condition] (deed : Deed), deed.isStep = false →
      (if condition then [deed] else []).countP Deed.isStep = 0 := by
    intro condition _ deed still
    split
    · rw [List.countP_singleton, still]
      rfl
    · rfl
  unfold historyDeeds
  rw [List.countP_append, List.countP_append, quiet _ _ rfl, quiet _ _ rfl, Nat.add_zero]
  exact counted

theorem countP_pendingDeeds (clock : Nat → α) (playback : Playback α) :
    (playback.runPending clock).2.completed
      = (playback.pendingDeeds clock).countP Deed.isStep := by
  have counted := countP_burstDeeds clock halt? stepDeed (fun _ => rfl)
    playback.dueSteps.toNat 0 playback
  have quiet : ∀ run : Burst α,
      (if run.counted.playing then run.counted.haltDeeds else []).countP Deed.isStep = 0 := by
    intro run
    split
    · exact countP_haltDeeds _
    · rfl
  unfold pendingDeeds
  rw [List.countP_append, quiet, Nat.add_zero]
  exact counted.trans (Nat.zero_add _)

theorem countP_runDeeds {clock : Nat → α} {delta : α} {playback : Playback α} {report : StepReport}
    (answered : Player.answer (Player.runSteps clock delta) playback = .ok report) :
    report.completed = (playback.runDeeds clock delta).countP Deed.isStep := by
  rw [Player.answer_runSteps] at answered
  unfold runDeeds
  cases given : playback.openJob with
  | some job =>
      rw [given] at answered
      cases answered
      exact countP_historyDeeds clock playback job
  | none =>
      rw [given] at answered
      dsimp only at answered ⊢
      by_cases playing : playback.playing = true
      · rw [if_pos playing] at answered ⊢
        cases collecting : (playback.accumulate delta).collect with
        | error fault =>
            rw [collecting] at answered
            cases answered
        | ok collected =>
            rw [collecting] at answered
            cases answered
            exact countP_pendingDeeds clock collected
      · rw [if_neg playing] at answered ⊢
        cases answered
        exact countP_pendingDeeds clock playback

end Count

theorem countP_cameraDeeds (playback : Playback α) :
    playback.cameraDeeds.countP Deed.isStep = 0 := by
  have arrives : ∀ poi : Keyframe α, (playback.arriveDeeds poi).countP Deed.isStep = 0 := by
    intro poi
    unfold arriveDeeds
    split <;> rfl
  have follows : playback.followDeeds.countP Deed.isStep = 0 := by
    unfold followDeeds
    split
    · rfl
    · split <;> rfl
  unfold cameraDeeds
  split
  · unfold travelDeeds
    split
    · exact arrives _
    · rfl
  · split
    · exact follows
    · rfl

/-- **Every step that a frame reports is in its diary.** -/
theorem tick_counts {clock : Nat → α} {delta : α} {playback : Playback α} {result : FrameResult α}
    (answered : Player.answer (Player.tick clock delta) playback = .ok result) :
    result.steps.completed = (playback.frameDeeds clock delta).countP Deed.isStep := by
  rw [Player.tick_eq, Player.answer_bind_eq_ok] at answered
  obtain ⟨_, -, answered⟩ := answered
  rw [Player.answer_bind_eq_ok] at answered
  obtain ⟨message, moved, answered⟩ := answered
  rw [Player.answer_bind_eq_ok] at answered
  obtain ⟨report, stepped, answered⟩ := answered
  rw [Player.answer_bind_eq_ok] at answered
  obtain ⟨_, -, shown⟩ := answered
  have steps : result.steps = report := Player.steps_present shown
  unfold frameDeeds
  dsimp only
  rw [moved, List.countP_append, countP_cameraDeeds, Nat.zero_add, steps]
  exact countP_runDeeds stepped

end Playback

end Showreel
