import Showreel.Proofs.Playback.Rest
import Showreel.Proofs.Script.Session
import Showreel.Number.Shortest

/-!
Contract: the world of playback at rest.

Owns:
- exactly when a frame at rest leaves the world alone, where no history is computed;
- that nothing moves the world at rest once no steps pend;
- a pause that does not keep the world from moving on.

Does not own: jobs of history.
-/

namespace Showreel

open Number

namespace Playback

variable {α : Type} [Scalar α]

/-- The world shows the same generation and the same picture. -/
def SameWorld (before after : Playback α) : Prop :=
  after.world.generation = before.world.generation
    ∧ after.world.picture = before.world.picture

/-- The steps that are due lead from generation zero to the loop generation and so back to where
they began, in time and past no stop. -/
structure ComesHome (clock : Nat → α) (playback : Playback α) : Prop where
  generation : playback.world.generation = 0
  picture : playback.world.picture = playback.world.snapshot
  loop_nonneg : 0 ≤ playback.active.loop
  loop_lt : playback.active.loop < playback.dueSteps
  unstopped : playback.stopFired = true ∨ playback.active.stop < 0
    ∨ playback.active.loop < playback.active.stop
  inTime : ∀ reading : Nat, 0 < reading → (reading : Int) ≤ playback.active.loop →
    overBudget clock playback.settings.frameBudget reading = false

/-- Paused playback makes the steps that are due and drops the rest. -/
theorem runPending_of_paused {playback : Playback α} (paused : playback.playing = false)
    (clock : Nat → α) :
    (playback.runPending clock).1 =
      { (burst clock halt? playback.dueSteps.toNat 0 playback).playback with pending := 0 } := by
  have kept : KeepsView playback
      (burst clock halt? playback.dueSteps.toNat 0 playback).playback :=
    burst_within clock keepsView_stepOnce keepsView_halt ..
  have stays := kept.paused paused
  rw [runPending_fst]
  unfold Burst.settled Burst.counted
  dsimp only
  rw [stays]
  rfl

/-- Steps that come home neither stop nor loop before they are there. -/
theorem ComesHome.halt_eq_none {clock : Nat → α} {playback : Playback α}
    (home : playback.ComesHome clock) {steps : Nat}
    (before : (steps : Int) < playback.active.loop) :
    (stepOnce^[steps] playback).halt? = none := by
  have generation := home.generation
  rw [Playback.halt_eq_none, Bool.eq_false_iff, Bool.eq_false_iff, ne_eq, ne_eq, stops_iterate,
    loops_iterate]
  refine ⟨?_, by omega⟩
  rcases home.unstopped with fired | unset | later
  · simp [fired]
  · omega
  · omega

/-- At the loop generation they do loop. -/
theorem ComesHome.loops {clock : Nat → α} {playback : Playback α}
    (home : playback.ComesHome clock) :
    (stepOnce^[playback.active.loop.toNat] playback).stops = false
      ∧ (stepOnce^[playback.active.loop.toNat] playback).loops = true := by
  have generation := home.generation
  have nonneg := home.loop_nonneg
  rw [Bool.eq_false_iff, ne_eq, stops_iterate, loops_iterate]
  refine ⟨?_, by omega⟩
  rcases home.unstopped with fired | unset | later
  · simp [fired]
  · omega
  · omega

/-- Steps before the one that a burst ended with did not loop. -/
theorem loops_eq_false {steps earlier : Nat} {playback : Playback α}
    (unhalted : ∀ earlier, earlier < steps → (stepOnce^[earlier] playback).halt? = none)
    (before : earlier < steps) : (stepOnce^[earlier] playback).loops = false :=
  ((Playback.halt_eq_none _).mp (unhalted earlier before)).2

/-- Where a stop applies no step is made. -/
theorem sameWorld_of_stops {playback : Playback α} (stops : playback.stops = true)
    (clock : Nat → α) (left : Nat) :
    SameWorld playback (burst clock halt? left 0 playback).playback := by
  cases left with
  | zero => exact ⟨rfl, rfl⟩
  | succ left =>
      unfold burst halt?
      rw [if_pos stops]
      exact ⟨rfl, rfl⟩

theorem sameWorld_of_comesHome {clock : Nat → α} {playback : Playback α}
    (home : playback.ComesHome clock) :
    SameWorld playback (burst clock halt? playback.dueSteps.toNat 0 playback).playback := by
  obtain ⟨steps, bounded, unhalted, punctual, ended⟩ :=
    burst_ended clock halt? playback.dueSteps.toNat 0 playback
  have zero := home.generation
  have nonneg := home.loop_nonneg
  have due := home.loop_lt
  have notBeyond : steps ≤ playback.active.loop.toNat := by
    apply Decidable.byContradiction
    intro beyond
    have unlooped := loops_eq_false unhalted
      (show playback.active.loop.toNat < steps by omega)
    exact Bool.false_ne_true (unlooped.symm.trans home.loops.2)
  revert ended
  generalize burst clock halt? playback.dueSteps.toNat 0 playback = run
  intro ended
  cases ended with
  | full all => omega
  | late made more overrun =>
      rw [Nat.zero_add, home.inTime steps made (by omega)] at overrun
      exact absurd overrun Bool.false_ne_true
  | halted more inTime halting =>
      have atLoop : steps = playback.active.loop.toNat := by
        apply Decidable.byContradiction
        intro before
        rw [home.halt_eq_none (by omega)] at halting
        cases halting
      rw [atLoop] at halting
      rcases halt_eq_some halting with ⟨stops, _⟩ | ⟨_, _, returns⟩
      · exact absurd (home.loops.1.symm.trans stops) Bool.false_ne_true
      · obtain ⟨world, undelivered, reached, _, snapshot⟩ :=
          iterate_stepOnce playback.active.loop.toNat playback
        unfold SameWorld
        rw [returns, reached]
        exact ⟨zero.symm, snapshot.trans home.picture.symm⟩

/-- Steps that were made and yet changed nothing came home. -/
theorem comesHome_of_sameWorld {clock : Nat → α} {playback : Playback α}
    (due : 0 < playback.dueSteps) (unstopped : playback.stops = false)
    (same : SameWorld playback
      (burst clock halt? playback.dueSteps.toNat 0 playback).playback) :
    playback.ComesHome clock := by
  obtain ⟨steps, bounded, unhalted, punctual, ended⟩ :=
    burst_ended clock halt? playback.dueSteps.toNat 0 playback
  obtain ⟨world, undelivered, reached, generation, snapshot⟩ := iterate_stepOnce steps playback
  revert ended same
  generalize burst clock halt? playback.dueSteps.toNat 0 playback = run
  rintro ⟨sameGeneration, samePicture⟩ ended
  cases ended with
  | full all =>
      rw [reached] at sameGeneration
      dsimp only at sameGeneration
      omega
  | late made more overrun =>
      rw [reached] at sameGeneration
      dsimp only at sameGeneration
      omega
  | halted more inTime halting =>
      rcases halt_eq_some halting with ⟨stops, stays⟩ | ⟨goesOn, loops, returns⟩
      · rw [stays, reached] at sameGeneration
        dsimp only at sameGeneration
        obtain rfl : steps = 0 := by omega
        exact absurd (unstopped.symm.trans stops) Bool.false_ne_true
      · rw [returns] at sameGeneration samePicture
        have zero : playback.world.generation = 0 := sameGeneration.symm
        have returned : (stepOnce^[steps] playback).world.snapshot = playback.world.snapshot := by
          rw [reached]
          exact snapshot
        rw [loops_iterate] at loops
        rw [Bool.eq_false_iff, ne_eq, stops_iterate] at goesOn
        -- the loop is taken at the first generation that it applies to
        have atLoop : playback.active.loop = steps := by
          apply Decidable.byContradiction
          intro passed
          have looping := (loops_iterate playback.active.loop.toNat playback).mpr (by omega)
          rw [loops_eq_false unhalted (by omega)] at looping
          exact Bool.false_ne_true looping
        refine ⟨zero, samePicture.symm.trans returned, loops.1, by omega, ?_, ?_⟩
        · cases fired : playback.stopFired with
          | true => exact .inl rfl
          | false =>
              have before : ¬ (0 ≤ playback.active.stop
                  ∧ playback.active.stop ≤ playback.world.generation + steps) :=
                fun reaches => goesOn ⟨reaches.1, reaches.2, fired⟩
              exact .inr (by omega)
        · intro reading positive within
          by_cases last : reading = steps
          · rw [last] at positive ⊢
            simpa using inTime positive
          · simpa using punctual reading positive (by omega)

/-- Paused playback keeps its world through a frame without a job where no steps are due, where
a stop applies at once, or where the steps come home. -/
theorem sameWorld_runPending_iff {playback : Playback α} (paused : playback.playing = false)
    (clock : Nat → α) :
    SameWorld playback (playback.runPending clock).1 ↔
      playback.dueSteps ≤ 0 ∨ playback.stops = true ∨ playback.ComesHome clock := by
  unfold SameWorld
  rw [runPending_of_paused paused]
  constructor
  · intro same
    by_cases due : playback.dueSteps ≤ 0
    · exact .inl due
    · right
      cases stops : playback.stops with
      | true => exact .inl rfl
      | false => exact .inr (comesHome_of_sameWorld (by omega) stops same)
  · rintro (nothing | stops | home)
    · have noSteps : playback.dueSteps.toNat = 0 := by omega
      rw [noSteps]
      exact ⟨rfl, rfl⟩
    · exact sameWorld_of_stops stops clock _
    · exact sameWorld_of_comesHome home

/-! ### Frames -/

/-- The job stays as it is. -/
def KeepsJob (before after : Playback α) : Prop :=
  after.job = before.job

instance : IsPreorder (Playback α) KeepsJob where
  refl _ := rfl
  trans _ _ _ earlier later := later.trans earlier

theorem keepsJob_burst (clock : Nat → α) (left completed : Nat) (playback : Playback α) :
    KeepsJob playback (burst clock halt? left completed playback).playback := by
  have steps : ∀ current : Playback α, KeepsJob current current.stepOnce := fun _ => rfl
  have halting : ∀ {current halted : Playback α}, current.halt? = some halted →
      KeepsJob current halted := by
    intro current halted halts
    unfold halt? at halts
    split at halts
    · cases halts
      rfl
    · split at halts
      · cases halts
        rfl
      · cases halts
  exact burst_within clock steps halting left completed playback

end Playback

namespace Player

open Playback

variable {α : Type} [Scalar α] [Transcendental α]

/-- A frame at rest without a job to compute makes the steps that are due, if it has a view, and
then no more steps pend. -/
theorem tick_of_idle {playback : Playback α} (rest : playback.AtRest)
    (idle : playback.openJob = none) {camera : Camera α}
    (asked : playback.restingCamera = .ok camera) (clock : Nat → α) (delta : α) :
    (after (tick clock delta) playback).world =
        ((playback.withCamera camera).runPending clock).1.world
      ∧ (after (tick clock delta) playback).pending = 0
      ∧ (after (tick clock delta) playback).openJob = none := by
  have stepped : (playback.withCamera camera).stepsAtRest clock
      = ((playback.withCamera camera).runPending clock).1 := by
    have still : (playback.withCamera camera).openJob = none := idle
    unfold stepsAtRest
    rw [still]
  obtain ⟨locked, undelivered, ticked⟩ := after_tick_of_ok rest asked clock delta
  obtain ⟨drifted, origin, moved⟩ :=
    drift_frame ((playback.withCamera camera).stepsAtRest clock)
  have paused : (playback.withCamera camera).playing = false := rest.paused
  rw [ticked, moved, stepped, runPending_of_paused paused]
  refine ⟨rfl, rfl, ?_⟩
  have kept := keepsJob_burst clock (playback.withCamera camera).dueSteps.toNat 0
    (playback.withCamera camera)
  unfold openJob at *
  dsimp only
  rw [show (burst clock halt? _ 0 (playback.withCamera camera)).playback.job
    = playback.job from kept]
  exact idle

/-- Nothing moves the world at rest while no steps pend. -/
theorem world_afterFrames {playback : Playback α} (rest : playback.AtRest)
    (idle : playback.openJob = none) (nothing : playback.pending ≤ 0)
    (frames : List ((Nat → α) × α)) :
    (playback.afterFrames frames).world = playback.world := by
  have all := afterFrames_keeps (fun current => current.AtRest ∧ current.openJob = none
      ∧ current.pending ≤ 0 ∧ current.world = playback.world)
    (fun current clock delta ⟨resting, idling, empty, same⟩ => by
      cases asked : current.restingCamera with
      | error fault =>
          rw [after_tick_of_error resting asked]
          exact ⟨resting, idling, empty, same⟩
      | ok camera =>
          obtain ⟨world, pending, job⟩ := tick_of_idle resting idling asked clock delta
          have paused : (current.withCamera camera).playing = false := resting.paused
          have noSteps : (current.withCamera camera).dueSteps.toNat = 0 := by
            unfold dueSteps withCamera
            dsimp only
            omega
          rw [runPending_of_paused paused, noSteps] at world
          exact ⟨atRest_tick resting clock delta, job, by omega, world.trans same⟩)
    playback frames ⟨rest, idle, nothing, rfl⟩
  exact all.2.2.2

/-- A frame at rest leaves the world alone exactly when it has no view and does nothing, when no
steps are due, when a stop applies at once, or when the steps that are due come home. Steps that
were put off are made in the first frame of a pause that has a view, and after it, or when there
were none, no frame moves the world. -/
theorem sameWorld_tick_iff (playback : Playback α) (rest : playback.AtRest)
    (idle : playback.openJob = none) :
    (∀ (clock : Nat → α) (delta : α),
      SameWorld playback (after (tick clock delta) playback) ↔
        (∃ fault, playback.restingCamera = .error fault) ∨ playback.dueSteps ≤ 0
          ∨ playback.stops = true ∨ playback.ComesHome clock)
    ∧ (playback.pending ≤ 0 → ∀ frames : List ((Nat → α) × α),
      (playback.afterFrames frames).world = playback.world)
    ∧ ∀ (clock : Nat → α) (delta : α) (frames : List ((Nat → α) × α)),
      (∃ camera, playback.restingCamera = .ok camera) →
        (playback.afterFrames ((clock, delta) :: frames)).world
          = (after (tick clock delta) playback).world := by
  refine ⟨?_, world_afterFrames rest idle, ?_⟩
  · intro clock delta
    cases asked : playback.restingCamera with
    | error fault =>
        rw [after_tick_of_error rest asked]
        exact ⟨fun _ => .inl ⟨fault, rfl⟩, fun _ => ⟨rfl, rfl⟩⟩
    | ok camera =>
        have paused : (playback.withCamera camera).playing = false := rest.paused
        have stepped := sameWorld_runPending_iff paused clock
        have home : (playback.withCamera camera).ComesHome clock
            ↔ playback.ComesHome clock :=
          ⟨fun home => ⟨home.1, home.2, home.3, home.4, home.5, home.6⟩,
            fun home => ⟨home.1, home.2, home.3, home.4, home.5, home.6⟩⟩
        rw [home] at stepped
        have viewless : ¬ ∃ fault, (.ok camera : Except Fault (Camera α)) = .error fault := by
          rintro ⟨fault, impossible⟩
          cases impossible
        unfold SameWorld at *
        rw [(tick_of_idle rest idle asked clock delta).1, or_iff_right viewless]
        exact stepped
  · rintro clock delta frames ⟨camera, asked⟩
    obtain ⟨_, pending, job⟩ := tick_of_idle rest idle asked clock delta
    exact world_afterFrames (atRest_tick rest clock delta) job (by omega) frames

/-- A script that has run for a frame and is then paused, with all its steps made. -/
theorem sameWorld_tick_iff_paused :
    let context : Script.Context Float := ⟨.standard, .standard, .standard⟩
    let script := "[[ AUTOSTART LOOP 50 STOP 40 TRACK 1 1 ]]"
    let world := (World.ofSize 8 (by decide) true).load (Pattern.Cells.ofFn 1 3 fun _ _ => 1) true
    let calls : List (HostCall Float) := [.tick (fun _ => 0) 100, .pause]
    ∃ interpretation, Script.interpret context script = .ok interpretation
      ∧ let playback : Playback Float :=
          (start interpretation.timeline world .standard).afterCalls calls
        playback.AtRest ∧ playback.openJob = none ∧ playback.pending ≤ 0
          ∧ (∀ clock delta, SameWorld playback (after (tick clock delta) playback) ↔
            (∃ fault, playback.restingCamera = .error fault) ∨ playback.dueSteps ≤ 0
              ∨ playback.stops = true ∨ playback.ComesHome clock)
          ∧ (∀ frames, (playback.afterFrames frames).world = playback.world)
          ∧ ∀ clock delta frames, (∃ camera, playback.restingCamera = .ok camera) →
            (playback.afterFrames ((clock, delta) :: frames)).world
              = (after (tick clock delta) playback).world := by
  intro context script world calls
  have checked : (Script.interpret context script).toOption.any (fun interpretation =>
      let playback : Playback Float :=
        (start interpretation.timeline world .standard).afterCalls calls
      !playback.playing && playback.journey.isNone && playback.openJob.isNone
        && decide (playback.pending ≤ 0)) = true := by
    decide +kernel
  obtain ⟨interpretation, interpreted, facts⟩ := Script.exists_interpretation checked
  simp only [Bool.and_eq_true, Bool.not_eq_true', Option.isNone_iff_eq_none,
    decide_eq_true_eq] at facts
  obtain ⟨⟨⟨paused, still⟩, idle⟩, empty⟩ := facts
  obtain ⟨frame, quiet, first⟩ := sameWorld_tick_iff
    ((start interpretation.timeline world .standard).afterCalls calls) ⟨paused, still⟩ idle
  exact ⟨interpretation, interpreted, ⟨paused, still⟩, idle, empty, frame, quiet empty, first⟩

/-- Steps that a limit has put off are made in a pause. -/
theorem tick_steps_paused :
    let context : Script.Context Float := ⟨.standard, .standard, .standard⟩
    let script := "[[ AUTOSTART ]]"
    let world := (World.ofSize 32 (by decide) true).load (Pattern.Cells.ofFn 1 3 fun _ _ => 1) true
    let calls : List (HostCall Float) := [.tick (fun _ => 0) 100, .pause]
    ∃ interpretation, Script.interpret context script = .ok interpretation
      ∧ let playback : Playback Float := (start interpretation.timeline world
          { ViewerSettings.standard with maxStepsPerTick := 4 }).afterCalls calls
        playback.AtRest ∧ playback.openJob = none ∧ playback.world.generation = 4
          ∧ (after (tick (fun _ => 0) 100) playback).world.generation = 6 := by
  intro context script world calls
  have checked : (Script.interpret context script).toOption.any (fun interpretation =>
      let playback : Playback Float := (start interpretation.timeline world
        { ViewerSettings.standard with maxStepsPerTick := 4 }).afterCalls calls
      !playback.playing && playback.journey.isNone && playback.openJob.isNone
        && decide (playback.world.generation = 4)
        && decide ((after (tick (fun _ => 0) 100) playback).world.generation = 6)) = true := by
    decide +kernel
  obtain ⟨interpretation, interpreted, facts⟩ := Script.exists_interpretation checked
  simp only [Bool.and_eq_true, Bool.not_eq_true', Option.isNone_iff_eq_none,
    decide_eq_true_eq] at facts
  obtain ⟨⟨⟨⟨paused, still⟩, idle⟩, four⟩, six⟩ := facts
  exact ⟨interpretation, interpreted, ⟨paused, still⟩, idle, four, six⟩

end Player

end Showreel
