import Showreel.Proofs.Playback.Boundaries
import Showreel.Proofs.Playback.Twins

/-!
Contract: that playback replays.

Owns:
- what every call of the host leaves alone: the timeline, the settings, the chain of keyframes and
  the generation zero of the world;
- playback at the start of its chain, where it begins, returns to and loops to;
- that from there it shows what fresh playback shows.

Does not own: which frames those are.
-/

namespace Showreel

open Number Waypoint

namespace Playback

variable {α : Type} [Scalar α]

/-! ### What is never changed -/

/-- Playbacks on one stage: of one timeline and under one set of settings, with one chain of
keyframes, in worlds with one generation zero. -/
structure OneStage (first other : Playback α) : Prop where
  timeline : other.timeline = first.timeline
  settings : other.settings = first.settings
  chain : other.cursor.chain = first.cursor.chain
  home : other.world.reset = first.world.reset

section Stage

variable [Transcendental α]

theorem oneStage_perform (playback : Playback α) (call : HostCall α) :
    OneStage playback (call.perform playback) := by
  rcases playback.perform_course call with ⟨reached, locked, undelivered, course, performed⟩
  rcases course.world with ⟨timeline, world⟩
  rcases course.setting with ⟨settings, chain⟩
  rw [performed]
  refine ⟨timeline, settings, chain, ?_⟩
  show reached.world.reset = _
  rw [world, World.reset_replay]

theorem oneStage_afterCalls (playback : Playback α) (calls : List (HostCall α)) :
    OneStage playback (playback.afterCalls calls) := by
  apply afterCalls_keeps (OneStage playback)
  · intro current call stage
    have next := oneStage_perform current call
    exact ⟨next.timeline.trans stage.timeline, next.settings.trans stage.settings,
      next.chain.trans stage.chain, next.home.trans stage.home⟩
  · exact ⟨rfl, rfl, rfl, rfl⟩

end Stage

/-! ### The start of the chain -/

/-- Playback at generation zero and at the start of its chain, with nothing passed and nothing
due. -/
structure AtStart (playback : Playback α) : Prop where
  elapsed : playback.elapsed = 0
  accumulated : playback.accumulated = 0
  pending : playback.pending = 0
  stopFired : playback.stopFired = false
  ended : playback.ended = false
  cursor : playback.cursor.restart = playback.cursor
  world : playback.world.reset = playback.world

/-- Playback whose camera follows the chain, with nobody travelling and no job to do. -/
structure OnChain (playback : Playback α) : Prop where
  follows : playback.followsChain = true
  still : playback.journey = none
  idle : playback.openJob = none

theorem atStart_reset (playback : Playback α) : playback.reset.AtStart :=
  ⟨rfl, rfl, rfl, rfl, rfl, rfl, rfl⟩

/-- **Two playbacks that play from the start of one chain are nearing each other.** -/
theorem nearing_of_atStart {left right : Playback α} (stage : OneStage left right)
    (starts : left.AtStart) (startsToo : right.AtStart) (chained : left.OnChain)
    (chainedToo : right.OnChain) (untold : right.untold = left.untold) :
    Nearing left.play right.play := by
  have cursor : right.cursor = left.cursor.withBlend right.cursor.blend := by
    rw [← starts.cursor, ← startsToo.cursor]
    unfold Cursor.restart Cursor.withBlend
    rw [stage.chain]
  have world : right.world = left.world := by
    rw [← starts.world, ← startsToo.world, stage.home]
  refine .moving ?_ rfl starts.ended
  exact {
    follows := chained.follows
    still := chained.still
    stillToo := chainedToo.still
    idle := chained.idle
    idleToo := chainedToo.idle
    unblended := (congrArg Cursor.blending starts.cursor).symm
    timeline := stage.timeline
    settings := stage.settings
    world := world
    cursor := ⟨right.cursor.blend, cursor⟩
    elapsed := startsToo.elapsed.trans starts.elapsed.symm
    playing := rfl
    ended := startsToo.ended.trans starts.ended.symm
    pending := startsToo.pending.trans starts.pending.symm
    accumulated := startsToo.accumulated.trans starts.accumulated.symm
    stopFired := startsToo.stopFired.trans starts.stopFired.symm
    untold := untold }

/-! ### Fresh playback -/

theorem untold_applyInitialPastes (playback : Playback α) :
    playback.applyInitialPastes.untold = playback.untold := by
  unfold applyInitialPastes
  split
  · dsimp only
    split <;> exact untold_applyPastes playback 0
  · rfl

theorem untold_startAtPoi (playback : Playback α) :
    playback.startAtPoi.untold = playback.untold := by
  unfold startAtPoi
  split <;> rfl

section Start

variable (timeline : Timeline α) (world : World) (settings : ViewerSettings α)

theorem untold_start : (start timeline world settings).untold = [] := by
  unfold start
  rw [untold_startAtPoi, untold_applyInitialPastes]
  rfl

/-- In a world that is as its generation zero, the pastes of generation zero become part of it. -/
theorem home_start (loaded : world.reset = world) :
    (start timeline world settings).world.reset = (start timeline world settings).world := by
  have fresh : world.generation = 0 := congrArg World.generation loaded.symm
  rw [start_world, if_pos fresh]
  by_cases none : Paste.Schedule.due timeline.pastes 0 = []
  · rw [if_pos (List.isEmpty_iff.mpr none)]
    unfold Paste.Schedule.apply
    rw [none]
    exact loaded
  · rw [if_neg (fun empty => none (List.isEmpty_iff.mp empty))]
    exact World.reset_markInitial _

theorem atStart_start (loaded : world.reset = world) :
    (start timeline world settings).AtStart := by
  have home := home_start timeline world settings loaded
  rcases exists_start timeline world settings with
    ⟨pasted, camera, active, poi, undelivered, started⟩
  rw [started] at home ⊢
  exact ⟨rfl, rfl, rfl, rfl, rfl, rfl, home⟩

theorem onChain_start (waypoints : timeline.hasWaypoints = true)
    (noHistory : timeline.startFrom = none) : (start timeline world settings).OnChain := by
  rcases exists_start timeline world settings with
    ⟨pasted, camera, active, poi, undelivered, started⟩
  rw [started]
  refine ⟨waypoints, rfl, ?_⟩
  unfold openJob initialJob
  rw [noHistory]
  rfl

end Start

/-! ### Frames stay on the chain -/

/-- What is on the chain before is on the chain after. -/
def KeepsChain (before after : Playback α) : Prop :=
  before.OnChain → after.OnChain

theorem KeepsChain.of_eq {before after : Playback α} (timeline : after.timeline = before.timeline)
    (journey : after.journey = before.journey) (job : after.job = before.job) :
    KeepsChain before after := by
  intro chained
  refine ⟨?_, journey.trans chained.still, ?_⟩
  · unfold followsChain
    rw [timeline]
    exact chained.follows
  · unfold openJob
    rw [job]
    exact chained.idle

instance : IsPreorder (Playback α) KeepsChain where
  refl _ chained := chained
  trans _ _ _ earlier later chained := later (earlier chained)

theorem keepsChain_halt {playback halted : Playback α} (halting : playback.halt? = some halted) :
    KeepsChain playback halted := by
  rcases halt_cases halting with ⟨-, rfl⟩ | ⟨-, -, rfl⟩ <;> exact .of_eq rfl rfl rfl

theorem keepsChain_runPending (clock : Nat → α) (playback : Playback α) :
    KeepsChain playback (playback.runPending clock).1 :=
  runPending_within clock (fun _ => .of_eq rfl rfl rfl) keepsChain_halt
    (fun _ _ => .of_eq rfl rfl rfl) playback

end Playback

namespace Player

open Playback

variable {α : Type} [Scalar α]

theorem passTime_keepsChain (delta : α) : Within KeepsChain (passTime delta) := by
  intro playback
  rw [after_passTime]
  split <;> exact .of_eq rfl rfl rfl

theorem runSteps_keepsChain (clock : Nat → α) (delta : α) :
    Within KeepsChain (runSteps clock delta) := by
  intro playback chained
  rw [after_runSteps, chained.idle]
  dsimp only
  split
  · split
    case h_1 collected collecting =>
      rcases collect_ok collecting with ⟨whole, taken, -, -, rfl⟩
      exact keepsChain_runPending clock _ ⟨chained.follows, chained.still, chained.idle⟩
    case h_2 => exact ⟨chained.follows, chained.still, chained.idle⟩
  · exact keepsChain_runPending clock _ chained

variable [Transcendental α]

theorem moveCamera_keepsChain : Within (KeepsChain (α := α)) moveCamera := by
  intro playback chained
  rw [(moveCamera_of_still chained.follows chained.still).2]
  split
  · rw [after_followChain]
    split
    · exact chained
    · split
      · exact ⟨chained.follows, chained.still, chained.idle⟩
      · dsimp only
        split <;> exact ⟨chained.follows, chained.still, chained.idle⟩
  · exact chained

end Player

namespace Playback

variable {α : Type} [Scalar α]

/-! ### Loops -/

theorem untold_iterate (steps : Nat) (playback : Playback α) :
    (stepOnce^[steps] playback).untold = playback.untold := by
  induction steps with
  | zero => rfl
  | succ steps inductionHypothesis =>
      rw [Function.iterate_succ_apply', untold_stepOnce, inductionHypothesis]

/-- At the start of the chain a burst leaves nothing due, and nothing that would halt. -/
theorem AtStart.settled {run : Burst α} (starts : run.playback.AtStart)
    (limited : run.playback.Limited) : run.settled.AtStart := by
  have counted : run.counted.AtStart := by
    refine { starts with pending := ?_ }
    show max 0 (run.playback.pending - run.completed) = 0
    rw [starts.pending]
    omega
  have limitedToo : run.counted.Limited := ⟨limited.timeline, limited.cursor, limited.active⟩
  have atZero : run.counted.world.generation = 0 := congrArg World.generation counted.world.symm
  unfold Burst.settled
  split
  · rw [limitedToo.halt_at_zero atZero]
    exact counted
  · exact { counted with pending := rfl }

section Told

variable {playback : Playback α} {generation : Int}
  (fresh : .looped generation ∉ playback.untold)

include fresh

theorem looped_notMem_untold_held : .looped generation ∉ playback.held.untold := by
  have noted : playback.held.untold
      = playback.untold ++ [.stopped playback.world.generation] := untold_note ..
  rw [noted, List.mem_append, List.mem_singleton]
  rintro (before | impossible)
  · exact fresh before
  · cases impossible

/-- **Steps that tell of a loop end at the start of the chain.** -/
theorem atStart_runPending {clock : Nat → α} (limited : playback.Limited)
    (told : .looped generation ∈ (playback.runPending clock).1.untold) :
    (playback.runPending clock).1.AtStart := by
  have stepped : KeepsLimits playback
      (burst clock halt? playback.dueSteps.toNat 0 playback).playback := by
    apply burst_within clock
    · exact fun _ => .of_eq rfl rfl rfl
    · exact keepsLimits_halt
  have limitedRun := stepped limited
  -- where the burst itself has not looped, it is the last look at the limits that does
  have atLast : ∀ run : Burst α, .looped generation ∉ run.playback.untold →
      .looped generation ∈ run.settled.untold → run.settled.AtStart := by
    intro run unlooped told
    unfold Burst.settled at told ⊢
    by_cases playing : run.counted.playing = true
    · rw [if_pos playing] at told ⊢
      cases halting : run.counted.halt? with
      | none =>
          rw [halting] at told
          exact absurd told unlooped
      | some halted =>
          rw [halting, Option.getD_some] at told
          rcases halt_cases halting with ⟨-, rfl⟩ | ⟨-, -, rfl⟩
          · exact absurd told (looped_notMem_untold_held unlooped)
          · exact atStart_reset _
    · rw [if_neg playing] at told
      exact absurd told unlooped
  rcases burst_ended clock halt? playback.dueSteps.toNat 0 playback with ⟨steps, -, -, -, ended⟩
  have still : .looped generation ∉ (stepOnce^[steps] playback).untold := by
    rw [untold_iterate]
    exact fresh
  rw [runPending_fst] at told ⊢
  revert ended told limitedRun
  generalize burst clock halt? playback.dueSteps.toNat 0 playback = run
  intro told limitedRun ended
  cases ended with
  | full | late => exact atLast _ still told
  | halted more inTime halting =>
      rcases halt_cases halting with ⟨-, rfl⟩ | ⟨-, -, rfl⟩
      · exact atLast _ (looped_notMem_untold_held still) told
      · exact AtStart.settled (atStart_reset _) limitedRun

theorem atStart_runSteps {clock : Nat → α} {delta : α} {report : StepReport}
    (limited : playback.Limited) (chained : playback.OnChain)
    (answered : Player.answer (Player.runSteps clock delta) playback = .ok report)
    (told : .looped generation ∈ (Player.after (Player.runSteps clock delta) playback).untold) :
    (Player.after (Player.runSteps clock delta) playback).AtStart := by
  rw [Player.answer_runSteps, chained.idle] at answered
  rw [Player.after_runSteps, chained.idle] at told ⊢
  dsimp only at answered told ⊢
  by_cases playing : playback.playing = true
  · rw [if_pos playing] at answered told ⊢
    rcases map_eq_ok answered with ⟨collected, collecting, -⟩
    have gathered : collected.Limited ∧ .looped generation ∉ collected.untold := by
      rcases collect_ok collecting with ⟨whole, taken, -, -, rfl⟩
      exact ⟨⟨limited.timeline, limited.cursor, limited.active⟩, fresh⟩
    rw [collecting] at told ⊢
    exact atStart_runPending gathered.2 gathered.1 told
  · rw [if_neg playing] at told ⊢
    exact atStart_runPending fresh limited told

end Told

variable [Transcendental α]

omit [Transcendental α] in
/-- A move of the camera tells of no loop. -/
theorem looped_notMem_cameraDeeds [Transcendental α] {playback : Playback α}
    (still : playback.journey = none) (generation : Int) :
    .looped generation ∉ playback.cameraDeeds.filterMap Deed.event? := by
  have silent : .looped generation ∉ playback.followDeeds.filterMap Deed.event? := by
    unfold followDeeds
    split
    · simp
    · split <;> simp [Deed.event?]
  unfold cameraDeeds
  rw [still]
  dsimp only
  split
  · exact silent
  · simp

/-- **A frame that tells of a loop ends at the start of the chain**, with nothing left to tell. -/
theorem tick_looped {clock : Nat → α} {delta : α} {playback : Playback α} {result : FrameResult α}
    {generation : Int} (limited : playback.Limited) (chained : playback.OnChain)
    (silent : playback.untold = [])
    (answered : Player.answer (Player.tick clock delta) playback = .ok result)
    (told : .looped generation ∈ result.events) :
    let next := Player.after (Player.tick clock delta) playback
    next.AtStart ∧ next.OnChain ∧ next.untold = [] := by
  rw [Player.tick_eq] at answered ⊢
  rcases (Player.answer_bind_eq_ok ..).mp answered with ⟨_, passed, answered⟩
  rcases (Player.answer_bind_eq_ok ..).mp answered with ⟨message, moves, answered⟩
  rcases (Player.answer_bind_eq_ok ..).mp answered with ⟨report, runs, answered⟩
  rcases (Player.answer_bind_eq_ok ..).mp answered with ⟨_, drifts, shows⟩
  rw [Player.after_bind_of_ok _ _ passed, Player.after_bind_of_ok _ _ moves,
    Player.after_bind_of_ok _ _ runs, Player.after_bind_of_ok _ _ drifts]
  -- before the steps nothing has told of a loop
  have timed := Player.passTime_keepsChain delta playback chained
  have moved := Player.moveCamera_keepsChain _ timed
  have limitedToo : (playback.aboutToStep delta).Limited :=
    Player.moveCamera_keepsLimits _ (Player.passTime_keepsLimits delta _ limited)
  have fresh : .looped generation ∉ (playback.aboutToStep delta).untold := by
    unfold aboutToStep
    rw [(Player.moveCamera_course _).untold, (Player.passTime_alike delta playback).untold, silent]
    exact looped_notMem_cameraDeeds timed.still generation
  have ranChain := Player.runSteps_keepsChain clock delta _ moved
  have stays := (Player.drift_of_follows ranChain.follows).2
  rw [stays, Player.answer_present] at shows
  rw [stays, Player.after_present]
  rcases map_eq_ok shows with ⟨callouts, framed, rfl⟩
  have starts := atStart_runSteps fresh limitedToo moved runs told
  rw [framed]
  exact ⟨⟨starts.elapsed, starts.accumulated, starts.pending, starts.stopFired, starts.ended,
    starts.cursor, starts.world⟩, ⟨ranChain.follows, ranChain.still, ranChain.idle⟩, rfl⟩

/-- **Playback of a chain of keyframes replays.** However far it had gone, from its return to
generation zero by the host, and from every loop, it shows in any frames what fresh playback of the
same world shows in them. -/
theorem afterCalls_replays (context : Script.Context α) (text : String)
    (interpretation : Script.Interpretation α)
    (interpreted : Script.interpret context text = .ok interpretation)
    (waypoints : interpretation.timeline.hasWaypoints = true)
    (noHistory : interpretation.timeline.startFrom = none) (world : World)
    (loaded : world.reset = world) (settings : ViewerSettings α) (calls : List (HostCall α)) :
    let fresh := start interpretation.timeline world settings
    let reached := fresh.afterCalls calls
    reached.journey = none → reached.openJob = none → reached.untold = [] →
      (∀ frames, reached.reset.play.shows frames = fresh.play.shows frames)
        ∧ ∀ clock delta result generation,
          Player.answer (Player.tick clock delta) reached = .ok result →
          .looped generation ∈ result.events →
          ∀ frames, (Player.after (Player.tick clock delta) reached).play.shows frames
            = fresh.play.shows frames := by
  intro fresh reached still idle silent
  have starts : fresh.AtStart := atStart_start interpretation.timeline world settings loaded
  have chained : fresh.OnChain :=
    onChain_start interpretation.timeline world settings waypoints noHistory
  have untold : fresh.untold = [] := untold_start interpretation.timeline world settings
  have stage : OneStage fresh reached := oneStage_afterCalls fresh calls
  have follows : reached.followsChain = true := by
    unfold followsChain
    rw [stage.timeline]
    exact chained.follows
  constructor
  · intro frames
    have reset : OneStage fresh reached.reset :=
      ⟨stage.timeline, stage.settings, stage.chain, stage.home⟩
    apply Nearing.shows
    apply nearing_of_atStart reset starts (atStart_reset reached) chained ⟨follows, still, idle⟩
    exact silent.trans untold.symm
  · intro clock delta result generation answered told frames
    have limited : reached.Limited :=
      limited_afterCalls (Script.interpret_limited interpreted) world settings calls
    rcases tick_looped limited ⟨follows, still, idle⟩ silent answered told with
      ⟨startsToo, chainedToo, untoldToo⟩
    have ticked := oneStage_perform reached (.tick clock delta)
    have stageToo : OneStage fresh (Player.after (Player.tick clock delta) reached) :=
      ⟨ticked.timeline.trans stage.timeline, ticked.settings.trans stage.settings,
        ticked.chain.trans stage.chain, ticked.home.trans stage.home⟩
    apply Nearing.shows
    apply nearing_of_atStart stageToo starts startsToo chained chainedToo
    exact untoldToo.trans untold.symm

/-- A script with a chain, a loop and a paste, paused in the blend back from a view under the user's
hand. -/
theorem afterCalls_replays_blend :
    let context : Script.Context Float := ⟨.standard, .standard, .standard⟩
    let script := "[[ AUTOSTART LOOP 4 PASTE 3o! T 1 X 5 ]]"
    let world := (World.ofSize 8 (by decide) true).load (Pattern.Cells.ofFn 1 2 fun _ _ => 1) true
    let calls : List (HostCall Float) :=
      [.tick (fun _ => 0) 20, .moveByHand .standard, .pause, .tick (fun _ => 0) 20]
    ∃ interpretation, Script.interpret context script = .ok interpretation
      ∧ interpretation.timeline.hasWaypoints = true ∧ interpretation.timeline.startFrom = none
      ∧ world.reset = world
      ∧ let fresh := start interpretation.timeline world .standard
        let reached := fresh.afterCalls calls
        reached.journey = none ∧ reached.openJob = none ∧ reached.untold = []
          ∧ reached.cursor.blending = true
          ∧ (∀ frames, reached.reset.play.shows frames = fresh.play.shows frames)
          ∧ ∀ clock delta result generation,
            Player.answer (Player.tick clock delta) reached = .ok result →
            .looped generation ∈ result.events →
            ∀ frames, (Player.after (Player.tick clock delta) reached).play.shows frames
              = fresh.play.shows frames := by
  intro context script world calls
  have checked : (Script.interpret context script).toOption.any (fun interpretation =>
      let reached : Playback Float :=
        (start interpretation.timeline world .standard).afterCalls calls
      interpretation.timeline.hasWaypoints && interpretation.timeline.startFrom.isNone
        && reached.journey.isNone && reached.openJob.isNone && reached.untold.isEmpty
        && reached.cursor.blending) = true := by
    decide +kernel
  rcases Script.exists_interpretation checked with ⟨interpretation, interpreted, facts⟩
  simp only [Bool.and_eq_true, Option.isNone_iff_eq_none, List.isEmpty_iff] at facts
  rcases facts with ⟨⟨⟨⟨⟨waypoints, noHistory⟩, still⟩, idle⟩, silent⟩, blending⟩
  have replays := afterCalls_replays context script interpretation interpreted waypoints noHistory
    world rfl .standard calls still idle silent
  exact ⟨interpretation, interpreted, waypoints, noHistory, rfl, still, idle, silent, blending,
    replays⟩

end Playback

end Showreel
