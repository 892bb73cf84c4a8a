import Showreel.Proofs.Playback.Diary
import Showreel.Proofs.Playback.Rest

/-!
Contract: the work of playback, and which phases of a frame leave it alone.

Owns:
- the work that playback has before it: the world, the job, the pace, and the steps that are due;
- that steering the camera leaves the work alone, unless playback arrives at a point of interest;
- a frame as the move of its camera and its steps, with nothing after them that touches the work;
- bursts that nothing halts.

Does not own: how the work is done.
-/

namespace Showreel

open Number

namespace Deed

/-- Whether a deed tells of an arrival at a point of interest. -/
def arrives : Deed → Bool
  | told (.arrived _) => true
  | _ => false

/-- Whether a deed is done for a job of history. -/
def ofHistory : Deed → Bool
  | computed | rewound | told (.historyReached _) => true
  | _ => false

end Deed

namespace Playback

variable {α : Type} [Scalar α]

/-- Playbacks with the same work before them. -/
structure SameWork (before after : Playback α) : Prop where
  settings : after.settings = before.settings
  world : after.world = before.world
  job : after.job = before.job
  playing : after.playing = before.playing
  pending : after.pending = before.pending
  accumulated : after.accumulated = before.accumulated

theorem SameWork.refl (playback : Playback α) : SameWork playback playback :=
  ⟨rfl, rfl, rfl, rfl, rfl, rfl⟩

theorem SameWork.trans {first second third : Playback α} (earlier : SameWork first second)
    (later : SameWork second third) : SameWork first third :=
  ⟨later.settings.trans earlier.settings, later.world.trans earlier.world,
    later.job.trans earlier.job, later.playing.trans earlier.playing,
    later.pending.trans earlier.pending, later.accumulated.trans earlier.accumulated⟩

theorem SameWork.openJob {before after : Playback α} (same : SameWork before after) :
    after.openJob = before.openJob := by
  unfold Playback.openJob
  rw [same.job]

/-- Where the camera is steered, by the script or by the host, the work stays as it is, or playback
arrives at a point of interest. -/
inductive Steered : Playback α → List Deed → Playback α → Prop
  | quiet {before after : Playback α} (same : SameWork before after) : Steered before [] after
  | tells {before after : Playback α} (deed : Deed) (arrives : deed.arrives = false)
      (ofHistory : deed.ofHistory = false) (same : SameWork before after) :
      Steered before [deed] after
  | arrives {before : Playback α} (landed : Playback α) (poi : Keyframe α)
      (same : SameWork before landed) :
      Steered before (landed.arriveDeeds poi) (landed.arrive poi)

theorem SameWork.thenSteered {before between after : Playback α} {deeds : List Deed}
    (same : SameWork before between) (steered : Steered between deeds after) :
    Steered before deeds after := by
  cases steered with
  | quiet later => exact .quiet (same.trans later)
  | tells deed arrives ofHistory later => exact .tells deed arrives ofHistory (same.trans later)
  | arrives landed poi later => exact .arrives landed poi (same.trans later)

/-- The work stays, and nothing is done for history, where playback does not arrive first. -/
theorem Steered.cases_arrival {before after : Playback α} {deeds : List Deed}
    (steered : Steered before deeds after) :
    (SameWork before after ∧ ∀ deed ∈ deeds, deed.arrives = false ∧ deed.ofHistory = false)
      ∨ ∃ poi rest, deeds = .told (.arrived poi) :: rest := by
  cases steered with
  | quiet same => exact .inl ⟨same, fun _ impossible => nomatch impossible⟩
  | tells deed arrives ofHistory same =>
      exact .inl ⟨same, List.forall_mem_singleton.mpr ⟨arrives, ofHistory⟩⟩
  | arrives landed poi same => exact .inr ⟨_, _, rfl⟩

theorem Steered.sameWork {before after : Playback α} {deeds : List Deed}
    (steered : Steered before deeds after) (arrivesNowhere : ∀ deed ∈ deeds, deed.arrives = false) :
    SameWork before after := by
  rcases steered.cases_arrival with ⟨same, -⟩ | ⟨poi, rest, rfl⟩
  · exact same
  · cases arrivesNowhere _ List.mem_cons_self

/-! ### Bursts that nothing halts -/

section Burst

/-- A burst that nothing halts makes all its steps, or at least one of them and then the time is
over. -/
theorem burst_unhalted (clock : Nat → α) (left completed : Nat) (playback : Playback α) :
    ∃ steps, steps ≤ left ∧ (0 < left → 0 < steps)
      ∧ burst clock (fun _ => none) left completed playback
        = ⟨stepOnce^[steps] playback, completed + steps, decide (steps < left)⟩ := by
  rcases burst_ended clock (fun _ => none) left completed playback with
    ⟨steps, bounded, -, -, ended⟩
  refine ⟨steps, bounded, ?_⟩
  revert ended
  generalize burst clock (fun _ => none) left completed playback = run
  intro ended
  cases ended with
  | full all =>
      rw [decide_eq_false (by omega)]
      exact ⟨by omega, rfl⟩
  | late made more overrun =>
      rw [decide_eq_true more]
      exact ⟨fun _ => made, rfl⟩
  | halted more inTime halting => cases halting

/-- What can be said of each step, and of each halt, holds for all deeds of a burst. -/
theorem forall_mem_burstDeeds (kind : Deed → Prop) {halts : Playback α → Option (Playback α)}
    {step : Playback α → Deed} (clock : Nat → α)
    (steps : ∀ playback, halts playback = none → kind (step playback))
    (halting : ∀ playback halted, halts playback = some halted →
      ∀ deed ∈ playback.haltDeeds, kind deed)
    (left completed : Nat) (playback : Playback α) :
    ∀ deed ∈ burstDeeds clock halts step left completed playback, kind deed := by
  induction left generalizing completed playback with
  | zero => exact List.forall_mem_nil _
  | succ left inductionHypothesis =>
      unfold burstDeeds
      cases halted : halts playback with
      | some after => exact halting playback after halted
      | none =>
          dsimp only
          rw [List.forall_mem_cons]
          refine ⟨steps playback halted, ?_⟩
          split
          · exact List.forall_mem_nil _
          · exact inductionHypothesis _ _

end Burst

end Playback

/-! ### The phases of a frame -/

namespace Player

open Playback

variable {α : Type} [Scalar α]

theorem passTime_sameWork (delta : α) (playback : Playback α) :
    SameWork playback (after (passTime delta) playback) := by
  rw [after_passTime]
  split <;> exact ⟨rfl, rfl, rfl, rfl, rfl, rfl⟩

theorem fitCamera_sameWork (playback : Playback α) :
    SameWork playback (after fitCamera playback) := by
  rw [after_fitCamera]
  split <;> exact ⟨rfl, rfl, rfl, rfl, rfl, rfl⟩

theorem goTo_steers (index : Int) (playback : Playback α) :
    Steered playback (playback.goToDeeds index) (after (goTo index) playback) := by
  rw [after_goTo]
  unfold goToDeeds
  split
  · exact .quiet (.refl playback)
  · dsimp only
    split
    · exact .arrives { playback with poi := some index.toNat } _ ⟨rfl, rfl, rfl, rfl, rfl, rfl⟩
    · split <;> exact .quiet ⟨rfl, rfl, rfl, rfl, rfl, rfl⟩

variable [Transcendental α]

theorem moveByHand_steers (camera : Camera α) (playback : Playback α) :
    Steered playback (playback.handDeeds camera) (after (moveByHand camera) playback) := by
  rw [after_moveByHand]
  unfold handDeeds
  split
  · cases playback.cursor.beginBlend
      (Keyframe.ofCamera camera playback.active.gps playback.active.step)
      playback.world.generation playback.elapsed with
    | error fault => exact .quiet ⟨rfl, rfl, rfl, rfl, rfl, rfl⟩
    | ok moved => exact .tells _ rfl rfl ⟨rfl, rfl, rfl, rfl, rfl, rfl⟩
  · exact .quiet ⟨rfl, rfl, rfl, rfl, rfl, rfl⟩

theorem moveCamera_steers (playback : Playback α) :
    Steered playback playback.cameraDeeds (after moveCamera playback) := by
  rw [after_moveCamera]
  unfold cameraDeeds
  cases playback.journey with
  | some journey =>
      dsimp only
      rw [after_travel]
      unfold travelDeeds
      split
      · exact .arrives { playback with journey := none } _ ⟨rfl, rfl, rfl, rfl, rfl, rfl⟩
      · exact .quiet ⟨rfl, rfl, rfl, rfl, rfl, rfl⟩
  | none =>
      dsimp only
      by_cases follows : playback.followsChain = true
      · rw [if_pos follows, follows, Bool.true_and]
        split
        · rw [after_followChain]
          unfold followDeeds
          cases playback.fittedKeyframe with
          | error fault => exact .quiet (.refl playback)
          | ok view =>
              dsimp only
              rcases playback.cursor.update playback.elapsed playback.world.generation view with
                fault | ⟨cursor, position, ended⟩
              · exact .quiet ⟨rfl, rfl, rfl, rfl, rfl, rfl⟩
              · cases ended with
                | false => exact .quiet ⟨rfl, rfl, rfl, rfl, rfl, rfl⟩
                | true => exact .tells _ rfl rfl ⟨rfl, rfl, rfl, rfl, rfl, rfl⟩
        · exact .quiet (.refl playback)
      · rw [if_neg follows, Bool.not_eq_true] at *
        rw [follows]
        exact .quiet (fitCamera_sameWork playback)

end Player

namespace Playback

variable {α : Type} [Scalar α] [Transcendental α]

/-- Whether a frame comes to its steps: the move of its camera has an answer. -/
def comesToSteps (playback : Playback α) (delta : α) : Bool :=
  (Player.answer Player.moveCamera (Player.after (Player.passTime delta) playback)).isOk

/-- On the way to its steps a frame steers the camera, and does nothing else. -/
theorem aboutToStep_steers (delta : α) (playback : Playback α) :
    Steered playback (Player.after (Player.passTime delta) playback).cameraDeeds
      (playback.aboutToStep delta) :=
  (Player.passTime_sameWork delta playback).thenSteered (Player.moveCamera_steers _)

/-- A frame that does not come to its steps leaves playback as its camera leaves it. -/
theorem after_tick_of_not_comesToSteps {playback : Playback α} {delta : α}
    (stays : playback.comesToSteps delta = false) (clock : Nat → α) :
    Player.after (Player.tick clock delta) playback = playback.aboutToStep delta := by
  unfold comesToSteps at stays
  rw [Player.tick_eq, Player.after_bind_of_ok _ _ (Player.answer_passTime ..)]
  unfold aboutToStep
  cases moved : Player.answer Player.moveCamera (Player.after (Player.passTime delta) playback) with
  | error fault => rw [Player.after_bind_of_error _ _ moved]
  | ok message =>
      rw [moved] at stays
      cases stays

/-- A frame that comes to its steps changes nothing after them but the camera and what is shown. -/
theorem after_tick_of_comesToSteps {playback : Playback α} {delta : α}
    (comes : playback.comesToSteps delta = true) (clock : Nat → α) :
    ∃ camera origin locked undelivered, Player.after (Player.tick clock delta) playback
      = { Player.after (Player.runSteps clock delta) (playback.aboutToStep delta) with
          camera := camera
          trackOrigin := origin
          locked := locked
          undelivered := undelivered } := by
  unfold comesToSteps at comes
  rw [Player.tick_eq, Player.after_bind_of_ok _ _ (Player.answer_passTime ..)]
  unfold aboutToStep
  cases moved : Player.answer Player.moveCamera (Player.after (Player.passTime delta) playback) with
  | error fault =>
      rw [moved] at comes
      cases comes
  | ok message =>
      rw [Player.after_bind_of_ok _ _ moved, Player.after_bind]
      cases Player.answer (Player.runSteps clock delta)
        (Player.after Player.moveCamera (Player.after (Player.passTime delta) playback)) with
      | error fault => exact ⟨_, _, _, _, rfl⟩
      | ok report =>
          dsimp only
          generalize Player.after (Player.runSteps clock delta) _ = stepped
          rcases Player.drift_frame stepped with ⟨camera, origin, drifted⟩
          rw [Player.after_bind, drifted]
          cases Player.answer Player.drift stepped with
          | error fault => exact ⟨_, _, _, _, rfl⟩
          | ok _ =>
              dsimp only
              rw [Player.after_present]
              exact ⟨_, _, _, _, rfl⟩

/-- What a frame that is shown reports is what its steps have answered. -/
theorem answer_runSteps_of_shown {clock : Nat → α} {delta : α} {playback : Playback α}
    {result : FrameResult α}
    (shown : Player.answer (Player.tick clock delta) playback = .ok result) :
    playback.comesToSteps delta = true
      ∧ Player.answer (Player.runSteps clock delta) (playback.aboutToStep delta)
        = .ok result.steps := by
  rw [Player.tick_eq] at shown
  rcases (Player.answer_bind_eq_ok ..).mp shown with ⟨_, passed, shown⟩
  rcases (Player.answer_bind_eq_ok ..).mp shown with ⟨message, moved, shown⟩
  rcases (Player.answer_bind_eq_ok ..).mp shown with ⟨report, ran, shown⟩
  rcases (Player.answer_bind_eq_ok ..).mp shown with ⟨_, drifted, shown⟩
  refine ⟨?_, ?_⟩
  · unfold comesToSteps
    rw [moved]
    rfl
  · rw [Player.steps_present shown]
    exact ran

/-- The deeds of a frame are those of its camera, and those of its steps if it comes to them. -/
theorem frameDeeds_eq (clock : Nat → α) (delta : α) (playback : Playback α) :
    playback.frameDeeds clock delta
      = (Player.after (Player.passTime delta) playback).cameraDeeds
        ++ if playback.comesToSteps delta then (playback.aboutToStep delta).runDeeds clock delta
          else [] := by
  unfold frameDeeds comesToSteps
  dsimp only
  cases Player.answer Player.moveCamera (Player.after (Player.passTime delta) playback) <;> rfl

end Playback

end Showreel
