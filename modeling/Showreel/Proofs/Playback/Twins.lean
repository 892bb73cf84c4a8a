import Mathlib.Data.Option.Defs
import Showreel.Proofs.Playback.Diary

/-!
Contract: playbacks that no frame can tell apart.

Owns:
- changes that answer related playbacks alike and leave them related;
- playbacks on one walk along a chain, which differ only where no frame looks: at the point of
  interest, a job that is done, the lock, the origin of a track, the last blend and the news of
  pastes;
- that frames answer such playbacks alike and leave such playbacks behind, also where the camera
  and the active keyframe differ and the next frame is about to replace them.

Does not own: which playbacks are alike in this way.
-/

namespace Showreel

open Number Waypoint

/-! ### Changes of related playbacks -/

namespace Player

variable {α β γ : Type} [Scalar α]

/-- From related playbacks a change gives one answer. It leads to a second relation where it has an
answer, and to a third where it has none. -/
def Mirrors (related reached failed : Playback α → Playback α → Prop) (player : Player α β) : Prop :=
  ∀ left right, related left right →
    answer player right = answer player left
      ∧ match answer player left with
        | .ok _ => reached (after player left) (after player right)
        | .error _ => failed (after player left) (after player right)

theorem Mirrors.bind {related between reached failed : Playback α → Playback α → Prop}
    {first : Player α β} {next : β → Player α γ} (begins : Mirrors related between failed first)
    (goesOn : ∀ value, Mirrors between reached failed (next value)) :
    Mirrors related reached failed (first >>= next) := by
  intro left right holds
  rcases begins left right holds with ⟨same, led⟩
  rw [answer_bind, answer_bind, after_bind, after_bind, same]
  cases answered : answer first left with
  | error fault =>
      rw [answered] at led
      exact ⟨rfl, led⟩
  | ok value =>
      rw [answered] at led
      exact goesOn value _ _ led

end Player

namespace Playback

variable {α : Type} [Scalar α]

/-! ### Twins -/

/-- Playbacks on one walk along a chain, with nobody travelling and no job to do. The camera and the
active keyframe may differ. -/
structure Kindred (left right : Playback α) : Prop where
  follows : left.followsChain = true
  still : left.journey = none
  stillToo : right.journey = none
  idle : left.openJob = none
  idleToo : right.openJob = none
  unblended : left.cursor.blending = false
  timeline : right.timeline = left.timeline
  settings : right.settings = left.settings
  world : right.world = left.world
  cursor : ∃ aside, right.cursor = left.cursor.withBlend aside
  elapsed : right.elapsed = left.elapsed
  playing : right.playing = left.playing
  ended : right.ended = left.ended
  pending : right.pending = left.pending
  accumulated : right.accumulated = left.accumulated
  stopFired : right.stopFired = left.stopFired
  untold : right.untold = left.untold

/-- Playbacks that differ only where no frame looks. -/
structure Twins (left right : Playback α) : Prop where
  kindred : Kindred left right
  camera : right.camera = left.camera
  active : right.active = left.active

/-- Playbacks that the next frame makes twins, if it can be shown. -/
inductive Nearing (left right : Playback α) : Prop where
  | twins (twins : Twins left right)
  | moving (kindred : Kindred left right) (playing : left.playing = true)
      (goesOn : left.ended = false)

section Steps

variable {left right : Playback α}

theorem Nearing.kindred (nearing : Nearing left right) : Kindred left right := by
  cases nearing with
  | twins twins => exact twins.kindred
  | moving kindred => exact kindred

theorem Kindred.followsToo (kindred : Kindred left right) : right.followsChain = true := by
  unfold followsChain
  rw [kindred.timeline]
  exact kindred.follows

theorem Kindred.note (kindred : Kindred left right) {event other : Event} (same : other = event) :
    Kindred (left.note event) (right.note other) :=
  { kindred with
    untold := by rw [untold_note, untold_note, kindred.untold, same] }

theorem Kindred.stepOnce (kindred : Kindred left right) :
    Kindred left.stepOnce right.stepOnce :=
  { kindred with
    world := by
      unfold Playback.stepOnce applyPastes
      dsimp only
      rw [kindred.timeline, kindred.world]
    untold := by rw [untold_stepOnce, untold_stepOnce, kindred.untold] }

theorem Twins.stepOnce (twins : Twins left right) : Twins left.stepOnce right.stepOnce :=
  ⟨twins.kindred.stepOnce, twins.camera, twins.active⟩

theorem Kindred.reset (kindred : Kindred left right) : Kindred left.reset right.reset :=
  { kindred with
    unblended := rfl
    world := congrArg World.reset kindred.world
    cursor := by
      rcases kindred.cursor with ⟨aside, same⟩
      refine ⟨aside, ?_⟩
      show right.cursor.restart = left.cursor.restart.withBlend aside
      rw [same]
      rfl
    elapsed := rfl
    ended := rfl
    pending := rfl
    accumulated := rfl
    stopFired := rfl }

/-- Where the camera follows the chain, a return leaves the active keyframe alone. -/
theorem active_reset {playback : Playback α} (follows : playback.followsChain = true) :
    playback.reset.active = playback.active := by
  unfold Playback.reset
  dsimp only
  rw [follows]
  rfl

theorem Twins.reset (twins : Twins left right) : Twins left.reset right.reset := by
  have follows := twins.kindred.followsToo
  refine ⟨twins.kindred.reset, twins.camera, ?_⟩
  rw [active_reset follows, active_reset twins.kindred.follows, twins.active]

theorem Twins.held (twins : Twins left right) : Twins left.held right.held := by
  have stopped : Kindred { left with stopFired := true, playing := false, pending := 0 }
      { right with stopFired := true, playing := false, pending := 0 } :=
    { twins.kindred with playing := rfl, pending := rfl, stopFired := rfl }
  have told : Event.stopped right.world.generation = .stopped left.world.generation :=
    congrArg (fun world => Event.stopped world.generation) twins.kindred.world
  exact ⟨stopped.note told, twins.camera, twins.active⟩

theorem Twins.halt (twins : Twins left right) : Option.Rel Twins left.halt? right.halt? := by
  have stops : right.stops = left.stops := by
    unfold Playback.stops
    rw [twins.active, twins.kindred.world, twins.kindred.stopFired]
  have loops : right.loops = left.loops := by
    unfold Playback.loops
    rw [twins.active, twins.kindred.world]
  unfold halt?
  rw [stops, loops]
  split
  · exact .some twins.held
  · split
    · have told : Event.looped right.world.generation = .looped left.world.generation :=
        congrArg (fun world => Event.looped world.generation) twins.kindred.world
      have noted : Twins (left.note (.looped left.world.generation))
          (right.note (.looped right.world.generation)) :=
        ⟨twins.kindred.note told, twins.camera, twins.active⟩
      exact .some noted.reset
    · exact .none

theorem Twins.burst (clock : Nat → α) (steps completed : Nat) (twins : Twins left right) :
    let run := burst clock halt? steps completed left
    let other := burst clock halt? steps completed right
    Twins run.playback other.playback ∧ other.completed = run.completed
      ∧ other.bailedOut = run.bailedOut := by
  induction steps generalizing completed left right with
  | zero => exact ⟨twins, rfl, rfl⟩
  | succ steps inductionHypothesis =>
      have halts := twins.halt
      have stepped := twins.stepOnce
      unfold Playback.burst
      rw [twins.kindred.settings]
      revert halts
      cases left.halt? with
      | some halted =>
          cases right.halt? with
          | none => intro halts; cases halts
          | some haltedToo =>
              intro halts
              cases halts with
              | some same => exact ⟨same, rfl, rfl⟩
      | none =>
          cases right.halt? with
          | some haltedToo => intro halts; cases halts
          | none =>
              intro _
              dsimp only
              split
              · exact ⟨stepped, rfl, rfl⟩
              · exact inductionHypothesis _ stepped

theorem Twins.runPending (clock : Nat → α) (twins : Twins left right) :
    Twins (left.runPending clock).1 (right.runPending clock).1
      ∧ (right.runPending clock).2 = (left.runPending clock).2 := by
  have due : right.dueSteps = left.dueSteps := by
    unfold dueSteps
    rw [twins.kindred.pending, twins.kindred.settings]
  have settled : ∀ {run other : Burst α}, Twins run.playback other.playback →
      other.completed = run.completed → Twins run.settled other.settled := by
    intro run other same completed
    have counted : Twins run.counted other.counted := by
      refine ⟨{ same.kindred with pending := ?_ }, same.camera, same.active⟩
      show max 0 (other.playback.pending - other.completed) = _
      rw [same.kindred.pending, completed]
      rfl
    have dropped : Twins { run.counted with pending := 0 } { other.counted with pending := 0 } :=
      ⟨{ counted.kindred with pending := rfl }, counted.camera, counted.active⟩
    have halts := counted.halt
    unfold Burst.settled
    rw [counted.kindred.playing]
    split
    · revert halts
      generalize run.counted.halt? = halted
      generalize other.counted.halt? = haltedToo
      intro halts
      cases halts with
      | none => exact counted
      | some held => exact held
    · exact dropped
  rcases twins.burst clock left.dueSteps.toNat 0 with ⟨same, completed, bailedOut⟩
  constructor
  · rw [runPending_fst, runPending_fst, due]
    exact settled same completed
  · show StepReport.mk right.dueSteps
      (Playback.burst clock halt? right.dueSteps.toNat 0 right).completed
      (Playback.burst clock halt? right.dueSteps.toNat 0 right).bailedOut = _
    rw [due, completed, bailedOut]
    rfl

theorem Twins.accumulate (delta : α) (twins : Twins left right) :
    Twins (left.accumulate delta) (right.accumulate delta) := by
  refine ⟨{ twins.kindred with accumulated := ?_ }, twins.camera, twins.active⟩
  show right.accumulated + delta * right.active.gps / 1000 = _
  rw [twins.kindred.accumulated, twins.active]
  rfl

theorem Twins.collect (twins : Twins left right) :
    (∃ fault, left.collect = .error fault ∧ right.collect = .error fault)
      ∨ ∃ gathered gatheredToo, left.collect = .ok gathered ∧ right.collect = .ok gatheredToo
        ∧ Twins gathered gatheredToo := by
  unfold Playback.collect
  rw [twins.kindred.accumulated]
  cases Scalar.wholePart left.accumulated with
  | error fault => exact .inl ⟨fault, rfl, rfl⟩
  | ok whole =>
      cases taken : (Scalar.ofInt whole : Except Fault α) with
      | error fault =>
          refine .inl ⟨fault, ?_, ?_⟩
          · simp only [bind, Except.bind, taken]
          · simp only [bind, Except.bind, taken]
      | ok part =>
          simp only [bind, Except.bind, taken]
          refine .inr ⟨_, _, rfl, rfl, ⟨{ twins.kindred with
            accumulated := rfl, pending := ?_ }, twins.camera, twins.active⟩⟩
          show right.pending + whole * right.active.step = left.pending + whole * left.active.step
          rw [twins.kindred.pending, twins.active]

end Steps

end Playback

/-! ### The phases of a frame -/

namespace Player

open Playback

variable {α : Type} [Scalar α]

theorem passTime_mirrors (delta : α) :
    Mirrors (Nearing (α := α)) Nearing Nearing (passTime delta) := by
  intro left right nearing
  have playingToo : right.playing = left.playing := nearing.kindred.playing
  rw [answer_passTime, answer_passTime, after_passTime, after_passTime]
  refine ⟨rfl, ?_⟩
  dsimp only
  by_cases playing : left.playing = true
  · rw [if_pos playing, if_pos (playingToo.trans playing)]
    have later : ∀ {left right : Playback α}, Kindred left right →
        Kindred { left with elapsed := left.elapsed + delta }
          { right with elapsed := right.elapsed + delta } := by
      intro left right kindred
      refine { kindred with elapsed := ?_ }
      show right.elapsed + delta = left.elapsed + delta
      rw [kindred.elapsed]
    cases nearing with
    | twins twins => exact .twins ⟨later twins.kindred, twins.camera, twins.active⟩
    | moving kindred playing goesOn => exact .moving (later kindred) playing goesOn
  · rw [if_neg playing, if_neg (fun plays => playing (playingToo.symm.trans plays))]
    exact nearing

theorem runSteps_mirrors (clock : Nat → α) (delta : α) :
    Mirrors (Twins (α := α)) Twins Nearing (runSteps clock delta) := by
  intro left right twins
  rw [answer_runSteps, answer_runSteps, after_runSteps, after_runSteps, twins.kindred.idle,
    twins.kindred.idleToo, twins.kindred.playing]
  dsimp only
  by_cases playing : left.playing = true
  · rw [if_pos playing, if_pos playing, if_pos playing, if_pos playing]
    have gathered := twins.accumulate delta
    rcases gathered.collect with ⟨fault, fails, failsToo⟩ | ⟨one, other, collects, collectsToo, same⟩
    · rw [fails, failsToo]
      exact ⟨rfl, .twins gathered⟩
    · rw [collects, collectsToo]
      rcases same.runPending clock with ⟨ran, report⟩
      exact ⟨congrArg Except.ok report, ran⟩
  · rw [if_neg playing, if_neg playing, if_neg playing, if_neg playing]
    rcases twins.runPending clock with ⟨ran, report⟩
    exact ⟨congrArg Except.ok report, ran⟩

theorem drift_mirrors : Mirrors (Twins (α := α)) Twins Nearing drift := by
  intro left right twins
  have follows := twins.kindred.followsToo
  rcases drift_of_follows twins.kindred.follows with ⟨answered, unmoved⟩
  rcases drift_of_follows follows with ⟨answeredToo, unmovedToo⟩
  rw [answered, answeredToo, unmoved, unmovedToo]
  exact ⟨rfl, twins⟩

variable [Transcendental α]

theorem answer_followChain (playback : Playback α) :
    answer followChain playback =
      match playback.fittedKeyframe with
      | .error fault => .error fault
      | .ok view =>
          (playback.cursor.update playback.elapsed playback.world.generation view).map
            fun _ => () := by
  unfold followChain
  rw [answer_get_bind, answer_bind, answer_ofExcept, after_ofExcept]
  cases playback.fittedKeyframe with
  | error fault => rfl
  | ok view =>
      dsimp only
      cases playback.cursor.update playback.elapsed playback.world.generation view <;> rfl

/-- A frame with nobody travelling on a chain follows it or lets the camera be. -/
theorem moveCamera_of_still {playback : Playback α} (follows : playback.followsChain = true)
    (still : playback.journey = none) :
    answer moveCamera playback =
        (if playback.playing && !playback.ended then
          (answer followChain playback).map fun _ => (after followChain playback).active.message
        else .ok playback.active.message)
      ∧ after moveCamera playback =
        if playback.playing && !playback.ended then after followChain playback else playback := by
  constructor
  · unfold moveCamera
    rw [answer_get_bind, still]
    dsimp only
    rw [if_pos follows]
    split
    · rw [answer_bind]
      cases answer followChain playback <;> rfl
    · rfl
  · rw [after_moveCamera, still]
    dsimp only
    rw [if_pos follows]

omit [Transcendental α] in
/-- The view that is fitted to the world is the same for both. -/
theorem fittedKeyframe_kindred {left right : Playback α} (kindred : Kindred left right) :
    (∃ fault, left.fittedKeyframe = .error fault ∧ right.fittedKeyframe = .error fault)
      ∨ ∃ view other, left.fittedKeyframe = .ok view ∧ right.fittedKeyframe = .ok other
        ∧ other.map Cursor.sight = view.map Cursor.sight := by
  unfold fittedKeyframe
  rw [kindred.world, kindred.settings]
  cases fittedView left.world left.settings with
  | error fault => exact .inl ⟨fault, rfl, rfl⟩
  | ok view =>
      refine .inr ⟨_, _, rfl, rfl, ?_⟩
      cases view <;> rfl

/-- **Following the chain makes kindred playbacks twins.** -/
theorem followChain_mirrors {left right : Playback α} (kindred : Kindred left right)
    (playing : left.playing = true) (goesOn : left.ended = false) :
    answer followChain right = answer followChain left
      ∧ match answer followChain left with
        | .ok _ => Twins (after followChain left) (after followChain right)
        | .error _ => Nearing (after followChain left) (after followChain right) := by
  rw [answer_followChain, answer_followChain, after_followChain, after_followChain]
  rcases fittedKeyframe_kindred kindred with ⟨fault, fails, failsToo⟩
    | ⟨view, other, fits, fitsToo, sights⟩
  · rw [fails, failsToo]
    exact ⟨rfl, .moving kindred playing goesOn⟩
  · rcases kindred.cursor with ⟨aside, cursor⟩
    have nears : right.cursor.approach right.elapsed other
        = (left.cursor.approach left.elapsed view).withBlend aside := by
      rw [cursor, kindred.elapsed]
      exact Cursor.approach_withBlend kindred.unblended aside left.elapsed sights
    have moves : right.cursor.update right.elapsed right.world.generation other
        = (left.cursor.update left.elapsed left.world.generation view).map
          fun move => (move.1.withBlend aside, move.2) := by
      rw [cursor, kindred.elapsed, kindred.world]
      exact Cursor.update_withBlend kindred.unblended aside left.elapsed left.world.generation sights
    rw [fits, fitsToo]
    dsimp only
    rw [moves, nears]
    cases walked : left.cursor.update left.elapsed left.world.generation view with
    | error fault =>
        refine ⟨rfl, .moving ?_ playing goesOn⟩
        exact { kindred with
          unblended := Cursor.blending_approach kindred.unblended left.elapsed
          cursor := ⟨aside, rfl⟩ }
    | ok move =>
        rcases move with ⟨moved, position, ended⟩
        have walks : Kindred
            { left with cursor := moved, camera := position.camera, active := position }
            { right with
              cursor := moved.withBlend aside, camera := position.camera, active := position } :=
          { kindred with
            unblended := Cursor.blending_update kindred.unblended left.elapsed
              left.world.generation walked
            cursor := ⟨aside, rfl⟩ }
        have finished : Kindred
            { left with
              cursor := moved, camera := position.camera, active := position, ended := true }
            { right with
              cursor := moved.withBlend aside, camera := position.camera, active := position,
              ended := true } :=
          { walks with ended := rfl }
        refine ⟨rfl, ?_⟩
        dsimp only [Except.map]
        cases ended with
        | false => exact ⟨walks, rfl, rfl⟩
        | true => exact ⟨finished.note rfl, rfl, rfl⟩

theorem moveCamera_mirrors : Mirrors (Nearing (α := α)) Twins Nearing moveCamera := by
  intro left right nearing
  have kindred := nearing.kindred
  have follows := kindred.followsToo
  rcases moveCamera_of_still kindred.follows kindred.still with ⟨answered, moved⟩
  rcases moveCamera_of_still follows kindred.stillToo with ⟨answeredToo, movedToo⟩
  rw [answered, answeredToo, moved, movedToo, kindred.playing, kindred.ended]
  by_cases moves : (left.playing && !left.ended) = true
  · rw [if_pos moves, if_pos moves, if_pos moves, if_pos moves]
    rw [Bool.and_eq_true, Bool.not_eq_true'] at moves
    rcases followChain_mirrors kindred moves.1 moves.2 with ⟨same, led⟩
    rw [same]
    cases following : answer followChain left with
    | error fault =>
        rw [following] at led
        exact ⟨rfl, led⟩
    | ok _ =>
        rw [following] at led
        refine ⟨?_, led⟩
        rw [led.active]
  · rw [if_neg moves, if_neg moves, if_neg moves, if_neg moves]
    cases nearing with
    | twins twins =>
        rw [twins.active]
        exact ⟨rfl, twins⟩
    | moving _ playing goesOn =>
        rw [playing, goesOn] at moves
        exact absurd rfl moves

theorem frame_mirrors (clock : Nat → α) (delta : α) :
    Mirrors (Nearing (α := α)) Twins Nearing (frame clock delta) := by
  have done : ∀ shown : String × StepReport,
      Mirrors (Twins (α := α)) Twins Nearing (pure shown) :=
    fun shown left right twins => ⟨rfl, twins⟩
  exact (passTime_mirrors delta).bind fun _ => moveCamera_mirrors.bind fun message =>
    (runSteps_mirrors clock delta).bind fun report => drift_mirrors.bind fun _ => done _

end Player

/-! ### Frames -/

variable {α : Type} [Scalar α]

/-- A frame with the events that it tells. The news of pastes, which are for the log alone, are left
out. -/
def FrameResult.withoutPastes (result : FrameResult α) : FrameResult α :=
  { result with occurrences := (result.events.map Occurrence.told).toArray }

variable [Transcendental α]

/-- What frames show one after the other, each with its clock and its time. A frame that cannot be
shown has its fault, and the next one goes on from there. -/
def Playback.shows : Playback α → List ((Nat → α) × α) → List (Except Fault (FrameResult α))
  | _, [] => []
  | playback, (clock, delta) :: rest =>
      (Player.answer (Player.tick clock delta) playback).map FrameResult.withoutPastes
        :: shows (Player.after (Player.tick clock delta) playback) rest

namespace Playback

variable {left right : Playback α}

theorem Twins.present (twins : Twins left right) (message : String) (report : StepReport) :
    (Player.answer (Player.present message report) right).map FrameResult.withoutPastes
        = (Player.answer (Player.present message report) left).map FrameResult.withoutPastes
      ∧ Twins (Player.after (Player.present message report) left)
          (Player.after (Player.present message report) right) := by
  have kindred := twins.kindred
  have lock : right.holdsCamera = left.holdsCamera := by
    unfold holdsCamera followsChain
    rw [kindred.still, kindred.stillToo, kindred.timeline, kindred.playing, kindred.ended]
  have told : right.undelivered.toList.filterMap Occurrence.event?
      = left.undelivered.toList.filterMap Occurrence.event? := kindred.untold
  have callouts : right.timeline.callouts.frames right.world.generation right.world.population
      right.camera = left.timeline.callouts.frames left.world.generation left.world.population
        left.camera := by
    rw [kindred.timeline, kindred.world, twins.camera]
  rw [Player.answer_present, Player.answer_present, Player.after_present, Player.after_present,
    callouts]
  constructor
  · cases left.timeline.callouts.frames left.world.generation left.world.population left.camera with
    | error fault => rfl
    | ok shown =>
        dsimp only [Except.map, FrameResult.withoutPastes, FrameResult.events]
        rw [kindred.world, kindred.elapsed, kindred.playing, kindred.ended, twins.camera, lock, told]
  · refine ⟨{ kindred with untold := ?_ }, twins.camera, twins.active⟩
    unfold untold
    dsimp only
    split
    · rfl
    · exact told

/-- **Frames cannot tell nearing playbacks apart.** -/
theorem Nearing.tick (nearing : Nearing left right) (clock : Nat → α) (delta : α) :
    (Player.answer (Player.tick clock delta) right).map FrameResult.withoutPastes
        = (Player.answer (Player.tick clock delta) left).map FrameResult.withoutPastes
      ∧ Nearing (Player.after (Player.tick clock delta) left)
          (Player.after (Player.tick clock delta) right) := by
  rcases Player.frame_mirrors clock delta left right nearing with ⟨same, led⟩
  rw [Player.tick_eq_frame, Player.answer_bind, Player.answer_bind, Player.after_bind,
    Player.after_bind, same]
  cases framed : Player.answer (Player.frame clock delta) left with
  | error fault =>
      rw [framed] at led
      exact ⟨rfl, led⟩
  | ok shown =>
      rw [framed] at led
      rcases led.present shown.1 shown.2 with ⟨alike, twins⟩
      exact ⟨alike, .twins twins⟩

/-- Neither can any number of frames. -/
theorem Nearing.shows (nearing : Nearing left right) (frames : List ((Nat → α) × α)) :
    right.shows frames = left.shows frames := by
  induction frames generalizing left right with
  | nil => rfl
  | cons frame rest inductionHypothesis =>
      rcases frame with ⟨clock, delta⟩
      rcases nearing.tick clock delta with ⟨same, near⟩
      rw [Playback.shows, Playback.shows, same, inductionHypothesis near]

end Playback

end Showreel
