import Showreel.Playback.Basic

/-!
Contract: the generations that are computed in one frame.

Owns:
- one step of the world with its pastes;
- the limits of a frame: the number of steps, and the time they take by a clock;
- the stop and the loop generation;
- the computing of history.

Does not own: the camera. A clock gives its readings, in seconds, by their number.
-/

namespace Showreel

open Number Scalar

/-- What became of the steps of a frame. -/
structure StepReport where
  requested : Int
  completed : Nat
  /-- Whether the time of the frame ran out. -/
  bailedOut : Bool
deriving DecidableEq, Repr

namespace Playback

variable {α : Type} [Scalar α]

/-- One generation, with its pastes. -/
def stepOnce (playback : Playback α) : Playback α :=
  let world := playback.world.step .all
  { playback with world := world }.applyPastes world.generation

/-- Stop at the stop generation, once. -/
def stops (playback : Playback α) : Bool :=
  decide (0 ≤ playback.active.stop) && decide (playback.active.stop ≤ playback.world.generation)
    && !playback.stopFired

/-- Whether the loop generation is reached. -/
def loops (playback : Playback α) : Bool :=
  decide (0 ≤ playback.active.loop) && decide (playback.active.loop ≤ playback.world.generation)

/-- Playback held by a stop or taken back by a loop, if either applies. -/
def halt? (playback : Playback α) : Option (Playback α) :=
  if playback.stops then
    some ({ playback with stopFired := true, playing := false, pending := 0 }.note
      (.stopped playback.world.generation))
  else if playback.loops then
    some (playback.note (.looped playback.world.generation)).reset
  else none

/-- Playback after a number of steps. -/
structure Burst (α : Type) [Scalar α] where
  playback : Playback α
  completed : Nat
  bailedOut : Bool

/-- Whether the time from the first reading of a clock to a later one exceeds the
budget. -/
def overBudget (clock : Nat → α) (budget : α) (reading : Nat) : Bool :=
  decide (budget < (clock reading - clock 0) * 1000)

/-- Up to `left` more steps after `completed` ones. Before each of them `halts` may end the
burst, and after each but the last the clock may. -/
def burst (clock : Nat → α) (halts : Playback α → Option (Playback α)) :
    Nat → Nat → Playback α → Burst α
  | 0, completed, playback => ⟨playback, completed, false⟩
  | left + 1, completed, playback =>
      match halts playback with
      | some halted => ⟨halted, completed, false⟩
      | none =>
          let stepped := playback.stepOnce
          if 0 < left && overBudget clock playback.settings.frameBudget (completed + 1) then
            ⟨stepped, completed + 1, true⟩
          else burst clock halts left (completed + 1) stepped

/-- One frame of computing history. A world beyond the target starts again from generation
zero. -/
def runHistory (clock : Nat → α) (playback : Playback α) (job : HistoryJob) :
    Playback α × StepReport :=
  let rewound :=
    if job.target < playback.world.generation then
      { playback with world := playback.world.reset }
    else playback
  let requested :=
    min (job.target - rewound.world.generation) playback.settings.maxStepsPerTick
  let run := burst clock (fun _ => none) requested.toNat 0 rewound
  let done :=
    if job.target ≤ run.playback.world.generation then
      { run.playback with job := some { job with reached := true } }.note
        (.historyReached job.target)
    else run.playback
  (done, ⟨requested, run.completed, run.bailedOut⟩)

/-- The steps that are due, up to the limits of a frame. Playback that has paused drops what
is left. -/
def runPending (clock : Nat → α) (playback : Playback α) : Playback α × StepReport :=
  let requested := min playback.pending playback.settings.maxStepsPerTick
  let run := burst clock halt? requested.toNat 0 playback
  let counted :=
    { run.playback with pending := max 0 (run.playback.pending - run.completed) }
  let settled :=
    if counted.playing then counted.halt?.getD counted else { counted with pending := 0 }
  (settled, ⟨requested, run.completed, run.bailedOut⟩)

/-- The generations that pass in a time, at the pace of the active keyframe. -/
def accumulate (playback : Playback α) (delta : α) : Playback α :=
  { playback with
    accumulated := playback.accumulated + delta * playback.active.gps / 1000 }

/-- Make the whole generations that have passed due. -/
def collect (playback : Playback α) : Except Fault (Playback α) := do
  let whole ← wholePart playback.accumulated
  let taken ← ofInt whole
  return { playback with
    accumulated := playback.accumulated - taken
    pending := playback.pending + whole * playback.active.step }

/-- The job that still has to be done. -/
def openJob (playback : Playback α) : Option HistoryJob :=
  playback.job.filter fun job => !job.reached

end Playback

end Showreel
