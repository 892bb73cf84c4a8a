import Mathlib.Logic.Function.Iterate
import Mathlib.Order.Defs.Unbundled
import Showreel.Playback.Stepping
import Showreel.Proofs.World.Picture

/-!
Contract: the steps of one frame, taken apart.

Owns:
- playback as a job of history finds it, and playback as the steps of a frame leave it;
- the two kinds of frames as a burst between these;
- when playback halts, and what that does to the world;
- how a burst ends: after all its steps, out of time, or halted;
- relations between playbacks that steps, and so whole frames of them, stay within.

Does not own: the phases of a frame around its steps.
-/

namespace Showreel.Playback

open Number

variable {α : Type} [Scalar α]

/-- Playback as a job finds it: a world beyond the target is taken back to generation
zero. -/
def rewoundFor (playback : Playback α) (job : HistoryJob) : Playback α :=
  if job.target < playback.world.generation then
    { playback with world := playback.world.reset }
  else playback

/-- What a number of steps changes: the world, by that many generations, and the news of its
pastes. -/
theorem iterate_stepOnce (steps : Nat) (playback : Playback α) :
    ∃ world undelivered,
      stepOnce^[steps] playback = { playback with world := world, undelivered := undelivered }
        ∧ world.generation = playback.world.generation + steps
        ∧ world.snapshot = playback.world.snapshot := by
  induction steps with
  | zero => exact ⟨playback.world, playback.undelivered, rfl, by omega, rfl⟩
  | succ steps inductionHypothesis =>
      obtain ⟨world, undelivered, reached, generation, snapshot⟩ := inductionHypothesis
      rw [Function.iterate_succ_apply', reached]
      refine ⟨_, _, rfl, ?_, ?_⟩
      · dsimp only
        rw [Paste.Schedule.generation_apply, World.generation_step, generation]
        omega
      · rw [← snapshot]
        exact congrArg World.picture (Paste.Schedule.bare_reset_apply ..)

theorem stops_iff (playback : Playback α) :
    playback.stops = true ↔
      0 ≤ playback.active.stop ∧ playback.active.stop ≤ playback.world.generation
        ∧ playback.stopFired = false := by
  unfold stops
  simp only [Bool.and_eq_true, decide_eq_true_eq, Bool.not_eq_true', and_assoc]

theorem loops_iff (playback : Playback α) :
    playback.loops = true ↔
      0 ≤ playback.active.loop ∧ playback.active.loop ≤ playback.world.generation := by
  unfold loops
  simp only [Bool.and_eq_true, decide_eq_true_eq]

/-- Steps do not change what stops playback, only how far it has come. -/
theorem stops_iterate (steps : Nat) (playback : Playback α) :
    (stepOnce^[steps] playback).stops = true ↔
      0 ≤ playback.active.stop ∧ playback.active.stop ≤ playback.world.generation + steps
        ∧ playback.stopFired = false := by
  obtain ⟨world, undelivered, reached, generation, -⟩ := iterate_stepOnce steps playback
  rw [reached, stops_iff, ← generation]

theorem loops_iterate (steps : Nat) (playback : Playback α) :
    (stepOnce^[steps] playback).loops = true ↔
      0 ≤ playback.active.loop ∧ playback.active.loop ≤ playback.world.generation + steps := by
  obtain ⟨world, undelivered, reached, generation, -⟩ := iterate_stepOnce steps playback
  rw [reached, loops_iff, ← generation]

/-- The steps that a job asks one frame for. -/
def historySteps (playback : Playback α) (job : HistoryJob) : Int :=
  min (job.target - (playback.rewoundFor job).world.generation) playback.settings.maxStepsPerTick

/-- The steps that are due in one frame without a job. -/
def dueSteps (playback : Playback α) : Int :=
  min playback.pending playback.settings.maxStepsPerTick

/-- Playback after a burst of history; the job is done when its target is reached. -/
def Burst.reported (run : Burst α) (job : HistoryJob) : Playback α :=
  if job.target ≤ run.playback.world.generation then
    { run.playback with job := some { job with reached := true } }.note
      (.historyReached job.target)
  else run.playback

/-- The steps of a burst no longer pend. -/
def Burst.counted (run : Burst α) : Playback α :=
  { run.playback with pending := max 0 (run.playback.pending - run.completed) }

/-- Playback after a burst of pending steps: what plays on may halt, what has paused drops
the steps that are left. -/
def Burst.settled (run : Burst α) : Playback α :=
  if run.counted.playing then run.counted.halt?.getD run.counted
  else { run.counted with pending := 0 }

/-- Making the whole generations that have passed due changes the fraction left over and the
pending steps, and nothing else. -/
theorem collect_ok {playback collected : Playback α}
    (collecting : playback.collect = .ok collected) :
    ∃ whole taken, Scalar.wholePart playback.accumulated = .ok whole
      ∧ Scalar.ofInt whole = .ok taken
      ∧ collected = { playback with
          accumulated := playback.accumulated - taken
          pending := playback.pending + whole * playback.active.step } := by
  unfold collect at collecting
  cases wholes : Scalar.wholePart playback.accumulated with
  | error fault =>
      rw [wholes] at collecting
      cases collecting
  | ok whole =>
      rw [wholes] at collecting
      cases takes : (Scalar.ofInt whole : Except Fault α) with
      | error fault =>
          simp only [bind, Except.bind, takes] at collecting
          cases collecting
      | ok taken =>
          simp only [bind, Except.bind, takes] at collecting
          cases collecting
          exact ⟨whole, taken, rfl, takes, rfl⟩

theorem halt_eq_none (playback : Playback α) :
    playback.halt? = none ↔ playback.stops = false ∧ playback.loops = false := by
  unfold halt?
  cases playback.stops <;> cases playback.loops <;> simp

/-- Playback that a stop holds. -/
def held (playback : Playback α) : Playback α :=
  { playback with stopFired := true, playing := false, pending := 0 }.note
    (.stopped playback.world.generation)

/-- Playback that a loop has taken back. -/
def looped (playback : Playback α) : Playback α :=
  (playback.note (.looped playback.world.generation)).reset

/-- Playback halts in two ways: a stop holds it, or a loop takes it back. -/
theorem halt_cases {playback halted : Playback α} (halting : playback.halt? = some halted) :
    playback.stops = true ∧ halted = playback.held
      ∨ playback.stops = false ∧ playback.loops = true ∧ halted = playback.looped := by
  unfold halt? at halting
  split at halting
  case isTrue stops =>
    cases halting
    exact .inl ⟨stops, rfl⟩
  case isFalse goesOn =>
    split at halting
    case isTrue loops =>
      cases halting
      exact .inr ⟨Bool.eq_false_iff.mpr goesOn, loops, rfl⟩
    case isFalse => cases halting

/-- A stop leaves the world where it is, and a loop takes it back to generation zero. -/
theorem halt_eq_some {playback halted : Playback α} (halting : playback.halt? = some halted) :
    playback.stops = true ∧ halted.world = playback.world
      ∨ playback.stops = false ∧ playback.loops = true
        ∧ halted.world = playback.world.reset := by
  rcases halt_cases halting with ⟨stops, rfl⟩ | ⟨goesOn, loops, rfl⟩
  · exact .inl ⟨stops, rfl⟩
  · exact .inr ⟨goesOn, loops, rfl⟩

/-- How a burst of up to `left` steps may end after `steps` of them. -/
inductive Burst.Ended (clock : Nat → α) (halts : Playback α → Option (Playback α))
    (left completed : Nat) (playback : Playback α) (steps : Nat) : Burst α → Prop where
  /-- All steps were made. -/
  | full (all : steps = left) :
      Ended clock halts left completed playback steps
        ⟨stepOnce^[steps] playback, completed + steps, false⟩
  /-- The time ran out, with steps still to make. -/
  | late (made : 0 < steps) (more : steps < left)
      (overrun : overBudget clock playback.settings.frameBudget (completed + steps) = true) :
      Ended clock halts left completed playback steps
        ⟨stepOnce^[steps] playback, completed + steps, true⟩
  /-- Playback was halted before the next step. -/
  | halted {halted : Playback α} (more : steps < left)
      (inTime : 0 < steps →
        overBudget clock playback.settings.frameBudget (completed + steps) = false)
      (halting : halts (stepOnce^[steps] playback) = some halted) :
      Ended clock halts left completed playback steps ⟨halted, completed + steps, false⟩

/-- A burst makes steps, none of them from where playback halts, and all but the last of them
in time, and then it ends in one of three ways. -/
theorem burst_ended (clock : Nat → α) (halts : Playback α → Option (Playback α))
    (left completed : Nat) (playback : Playback α) :
    ∃ steps, steps ≤ left
      ∧ (∀ earlier, earlier < steps → halts (stepOnce^[earlier] playback) = none)
      ∧ (∀ earlier, 0 < earlier → earlier < steps →
          overBudget clock playback.settings.frameBudget (completed + earlier) = false)
      ∧ Burst.Ended clock halts left completed playback steps
          (burst clock halts left completed playback) := by
  induction left generalizing completed playback with
  | zero => exact ⟨0, Nat.le_refl 0, by omega, by omega, .full rfl⟩
  | succ left inductionHypothesis =>
      unfold burst
      split
      case h_1 halted halting =>
        exact ⟨0, Nat.zero_le _, by omega, by omega, .halted (by omega) (by omega) halting⟩
      case h_2 going =>
        dsimp only
        split
        case isTrue late =>
          rw [Bool.and_eq_true, decide_eq_true_eq] at late
          refine ⟨1, by omega, ?_, by omega, .late (by omega) (by omega) late.2⟩
          intro earlier before
          obtain rfl : earlier = 0 := by omega
          exact going
        case isFalse inTime =>
          obtain ⟨steps, bounded, unhalted, punctual, ended⟩ :=
            inductionHypothesis (completed + 1) playback.stepOnce
          have firstInTime : 0 < left →
              overBudget clock playback.settings.frameBudget (completed + 1) = false := by
            intro more
            rw [Bool.and_eq_true, decide_eq_true_eq, not_and, Bool.not_eq_true] at inTime
            exact inTime more
          have shift : ∀ count, completed + (count + 1) = completed + 1 + count := by omega
          refine ⟨steps + 1, by omega, ?_, ?_, ?_⟩
          · intro earlier before
            cases earlier with
            | zero => exact going
            | succ earlier => exact unhalted earlier (by omega)
          · intro earlier positive before
            obtain ⟨count, rfl⟩ : ∃ count, earlier = count + 1 := ⟨earlier - 1, by omega⟩
            cases count with
            | zero => exact firstInTime (by omega)
            | succ count =>
                rw [shift]
                exact punctual (count + 1) (by omega) (by omega)
          · revert ended
            generalize burst clock halts left (completed + 1) playback.stepOnce = run
            intro ended
            cases ended with
            | full all =>
                rw [← shift]
                exact .full (by omega)
            | late made more overrun =>
                rw [← shift] at overrun ⊢
                exact .late (by omega) (by omega) overrun
            | halted more inTimeThen halting =>
                rw [← shift] at inTimeThen ⊢
                refine .halted (by omega) ?_ halting
                intro _
                by_cases first : steps = 0
                · subst first
                  exact firstInTime (by omega)
                · exact inTimeThen (by omega)

theorem runHistory_fst (clock : Nat → α) (playback : Playback α) (job : HistoryJob) :
    (playback.runHistory clock job).1 =
      (burst clock (fun _ => none) (playback.historySteps job).toNat 0
        (playback.rewoundFor job)).reported job :=
  rfl

theorem runPending_fst (clock : Nat → α) (playback : Playback α) :
    (playback.runPending clock).1 =
      (burst clock halt? playback.dueSteps.toNat 0 playback).settled :=
  rfl

/-! ### Relations that steps stay within -/

section Within

variable {relation : Playback α → Playback α → Prop} [IsPreorder (Playback α) relation]

theorem burst_within (clock : Nat → α) {halts : Playback α → Option (Playback α)}
    (steps : ∀ playback : Playback α, relation playback playback.stepOnce)
    (halting : ∀ {playback halted}, halts playback = some halted → relation playback halted)
    (left completed : Nat) (playback : Playback α) :
    relation playback (burst clock halts left completed playback).playback := by
  induction left generalizing completed playback with
  | zero => exact refl playback
  | succ left inductionHypothesis =>
      unfold burst
      split
      case h_1 halted halts => exact halting halts
      case h_2 =>
        dsimp only
        split
        · exact steps playback
        · exact IsTrans.trans _ _ _ (steps playback) (inductionHypothesis _ _)

/-- What steps, returns to generation zero and the report of a job do, a frame of history
does. -/
theorem runHistory_within (clock : Nat → α)
    (steps : ∀ playback : Playback α, relation playback playback.stepOnce)
    (rewinds : ∀ playback : Playback α,
      relation playback { playback with world := playback.world.reset })
    (reports : ∀ (playback : Playback α) (job : HistoryJob) (event : Event),
      relation playback ({ playback with job := some job }.note event))
    (playback : Playback α) (job : HistoryJob) :
    relation playback (playback.runHistory clock job).1 := by
  have rewound : relation playback (playback.rewoundFor job) := by
    unfold rewoundFor
    split
    · exact rewinds playback
    · exact refl playback
  have reported : ∀ run : Burst α, relation run.playback (run.reported job) := by
    intro run
    unfold Burst.reported
    split
    · exact reports ..
    · exact refl _
  rw [runHistory_fst]
  refine IsTrans.trans _ _ _ rewound (IsTrans.trans _ _ _ ?_ (reported _))
  exact burst_within clock steps (by simp) ..

/-- What steps, halts and the counting of steps do, a frame without a job does. -/
theorem runPending_within (clock : Nat → α)
    (steps : ∀ playback : Playback α, relation playback playback.stepOnce)
    (halting : ∀ {playback halted : Playback α},
      playback.halt? = some halted → relation playback halted)
    (counts : ∀ (playback : Playback α) (pending : Int),
      relation playback { playback with pending := pending })
    (playback : Playback α) : relation playback (playback.runPending clock).1 := by
  have settled : ∀ run : Burst α, relation run.playback run.settled := by
    intro run
    have counted : relation run.playback run.counted := counts ..
    unfold Burst.settled
    split
    · cases halts : run.counted.halt? with
      | none => exact counted
      | some halted => exact IsTrans.trans _ _ _ counted (halting halts)
    · exact IsTrans.trans _ _ _ counted (counts ..)
  rw [runPending_fst]
  exact IsTrans.trans _ _ _ (burst_within clock steps halting ..) (settled _)

end Within

end Showreel.Playback
