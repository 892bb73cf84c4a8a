import Showreel.Proofs.Playback.Diary
import Showreel.Proofs.Playback.Regimes
import Showreel.Proofs.Playback.Rest

/-!
Contract: how the stop and the loop generation hold playback back.

Owns:
- keyframes whose stop and loop generations are not generation zero, and that playback of a timeline
  with such keyframes stays at them under every call of the host;
- when a stop stands in a diary, and that playback knows of it;
- the law of each deed: no step from beyond a limit, and no stop while one stands;
- that the diary of every playback keeps to the law;
- that a frame without a job of history, after which playback goes on, leaves it below its limits.

Does not own: which timelines have such keyframes, and which limits a script sets.
-/

namespace Showreel

open Number Paste

/-! ### Limited keyframes -/

section Limited

open Waypoint

variable {α : Type}

/-- A keyframe at which playback neither stops nor loops at generation zero. -/
structure Keyframe.Limited (keyframe : Keyframe α) : Prop where
  stop : keyframe.stop ≠ 0
  loop : keyframe.loop ≠ 0

/-- A chain of limited keyframes. -/
def Chain.Limited (chain : Chain α) : Prop :=
  ∀ keyframe ∈ chain.toList, keyframe.Limited

/-- A walk among limited keyframes. -/
structure Waypoint.Cursor.Limited (cursor : Cursor α) : Prop where
  chain : cursor.chain.Limited
  fitted : ∀ entry ∈ cursor.fitted, entry.2.Limited
  blend : ∀ blend ∈ cursor.blend, blend.finish.Limited

/-- A timeline of limited keyframes and points of interest. -/
structure Timeline.Limited (timeline : Timeline α) : Prop where
  keyframes : timeline.keyframes.Limited
  pois : ∀ poi ∈ timeline.pois, poi.Limited

/-- The regimes of limited keyframes. -/
def Regime.limited (regime : Regime α) : Prop :=
  regime.stop ≠ 0 ∧ regime.loop ≠ 0

theorem Keyframe.limited_iff (keyframe : Keyframe α) :
    keyframe.Limited ↔ keyframe.regime.limited :=
  ⟨fun limited => ⟨limited.stop, limited.loop⟩, fun allowed => ⟨allowed.1, allowed.2⟩⟩

theorem Chain.limited_iff (chain : Chain α) : chain.Limited ↔ chain.Under Regime.limited :=
  forall₂_congr fun keyframe _ => keyframe.limited_iff

theorem Waypoint.Cursor.limited_iff (cursor : Cursor α) :
    cursor.Limited ↔ cursor.Under Regime.limited := by
  constructor
  · intro limited
    exact ⟨cursor.chain.limited_iff.mp limited.chain,
      fun entry member => entry.2.limited_iff.mp (limited.fitted entry member),
      fun blend member => blend.finish.limited_iff.mp (limited.blend blend member)⟩
  · intro under
    exact ⟨cursor.chain.limited_iff.mpr under.chain,
      fun entry member => entry.2.limited_iff.mpr (under.fitted entry member),
      fun blend member => blend.finish.limited_iff.mpr (under.blend blend member)⟩

theorem Timeline.limited_iff (timeline : Timeline α) :
    timeline.Limited ↔ timeline.Under Regime.limited := by
  constructor
  · intro limited
    exact ⟨timeline.keyframes.limited_iff.mp limited.keyframes,
      fun poi member => poi.limited_iff.mp (limited.pois poi member)⟩
  · intro under
    exact ⟨timeline.keyframes.limited_iff.mpr under.keyframes,
      fun poi member => poi.limited_iff.mpr (under.pois poi member)⟩

variable [Scalar α]

namespace Playback

/-- Playback at a limited keyframe, on a walk among such keyframes. -/
structure Limited (playback : Playback α) : Prop where
  timeline : playback.timeline.Limited
  cursor : playback.cursor.Limited
  active : playback.active.Limited

theorem limited_iff (playback : Playback α) :
    playback.Limited ↔ playback.Under Regime.limited := by
  constructor
  · intro limited
    exact ⟨playback.timeline.limited_iff.mp limited.timeline,
      playback.cursor.limited_iff.mp limited.cursor,
      playback.active.limited_iff.mp limited.active⟩
  · intro under
    exact ⟨playback.timeline.limited_iff.mpr under.timeline,
      playback.cursor.limited_iff.mpr under.cursor,
      playback.active.limited_iff.mpr under.active⟩

/-- What is limited before is limited after. -/
def KeepsLimits (before after : Playback α) : Prop :=
  before.Limited → after.Limited

instance : IsPreorder (Playback α) KeepsLimits where
  refl _ limited := limited
  trans _ _ _ earlier later limited := later (earlier limited)

/-- The limits are kept where every regime is. -/
theorem StaysUnder.keepsLimits {before after : Playback α}
    (stays : StaysUnder Regime.limited before after) : KeepsLimits before after := by
  intro limited
  exact after.limited_iff.mpr (stays (before.limited_iff.mp limited))

theorem KeepsLimits.of_eq {before after : Playback α} (timeline : after.timeline = before.timeline)
    (cursor : after.cursor = before.cursor) (active : after.active = before.active) :
    KeepsLimits before after :=
  (StaysUnder.of_eq timeline cursor active).keepsLimits

theorem keepsLimits_halt {playback halted : Playback α} (halting : playback.halt? = some halted) :
    KeepsLimits playback halted :=
  (staysUnder_halt halting).keepsLimits

end Playback

namespace Player

open Playback

theorem passTime_keepsLimits (delta : α) : Within KeepsLimits (passTime delta) :=
  fun playback => (passTime_staysUnder delta playback).keepsLimits

theorem moveCamera_keepsLimits [Transcendental α] : Within (KeepsLimits (α := α)) moveCamera :=
  fun playback => (moveCamera_staysUnder playback).keepsLimits

end Player

namespace Playback

variable [Transcendental α]

/-- **Playback of a limited timeline is limited, whatever the host does.** -/
theorem limited_afterCalls {timeline : Timeline α} (limited : timeline.Limited) (world : World)
    (settings : ViewerSettings α) (calls : List (HostCall α)) :
    ((start timeline world settings).afterCalls calls).Limited :=
  (limited_iff _).mpr (under_afterCalls (timeline.limited_iff.mp limited) world settings calls)

end Playback

end Limited

/-! ### The law of deeds -/

/-- An entry of a list to which one more was added is the one added, or it was there before. -/
theorem split_concat {β : Type} {list earlier later : List β} {last entry : β}
    (same : list ++ [last] = earlier ++ entry :: later) :
    (list = earlier ∧ last = entry ∧ later = [])
      ∨ ∃ between, later = between ++ [last] ∧ list = earlier ++ entry :: between := by
  rcases List.eq_nil_or_concat later with rfl | ⟨between, newest, rfl⟩
  · rcases List.append_inj' same rfl with ⟨front, ends⟩
    exact .inl ⟨front, List.singleton_inj.mp ends, rfl⟩
  · have whole : list ++ [last] = (earlier ++ entry :: between) ++ [newest] := by simpa using same
    rcases List.append_inj' whole rfl with ⟨front, ends⟩
    rw [List.singleton_inj.mp ends]
    exact .inr ⟨between, List.concat_eq_append, front⟩

/-- Whether stops may fire anew after a deed: playback returns to generation zero, or arrives at a
point of interest. -/
def Deed.renews : Deed → Bool
  | .returned | .told (.arrived _) => true
  | _ => false

/-- A stop has fired in a diary, and neither a return nor an arrival has followed. -/
def StopStands (diary : List Deed) : Prop :=
  ∃ earlier generation later, diary = earlier ++ .told (.stopped generation) :: later
    ∧ ∀ deed ∈ later, deed.renews = false

theorem not_stopStands_nil : ¬StopStands [] := by
  rintro ⟨earlier, generation, later, impossible, -⟩
  cases earlier <;> cases impossible

/-- What a further deed does to a stop. -/
theorem stopStands_concat (diary : List Deed) (deed : Deed) :
    StopStands (diary ++ [deed]) ↔
      (∃ generation, deed = .told (.stopped generation))
        ∨ deed.renews = false ∧ StopStands diary := by
  constructor
  · rintro ⟨earlier, generation, later, same, since⟩
    rcases split_concat same with ⟨-, rfl, -⟩ | ⟨between, rfl, front⟩
    · exact .inl ⟨generation, rfl⟩
    · refine .inr ⟨since deed (by simp), earlier, generation, between, front, ?_⟩
      intro other member
      exact since other (by simp [member])
  · rintro (⟨generation, rfl⟩ | ⟨keeps, earlier, generation, later, rfl, since⟩)
    · exact ⟨diary, generation, [], rfl, fun _ impossible => nomatch impossible⟩
    · refine ⟨earlier, generation, later ++ [deed], by simp, ?_⟩
      intro other member
      rcases List.mem_append.mp member with before | now
      · exact since other before
      · exact List.mem_singleton.mp now ▸ keeps

/-- What may be done after a diary that began in a world: a step starts at the generation that the
diary leads to, below the loop generation and, unless a stop stands, below the stop generation; and
no stop fires while one stands. -/
def Deed.Lawful (entries : List Entry) (world : World) (diary : List Deed) : Deed → Prop
  | .stepped generation stop loop => (world.replay entries diary).generation = generation
      ∧ (0 ≤ loop → generation < loop) ∧ (0 ≤ stop → generation < stop ∨ StopStands diary)
  | .told (.stopped generation) => (world.replay entries diary).generation = generation
      ∧ ¬StopStands diary
  | _ => True

/-- Every deed of a diary keeps to the law. -/
def LawfulDiary (entries : List Entry) (world : World) (diary : List Deed) : Prop :=
  ∀ earlier deed later, diary = earlier ++ deed :: later → deed.Lawful entries world earlier

section Law

variable {entries : List Entry} {world : World}

theorem lawfulDiary_nil : LawfulDiary entries world [] := by
  intro earlier deed later impossible
  cases earlier <;> cases impossible

theorem LawfulDiary.concat {diary : List Deed} (lawful : LawfulDiary entries world diary)
    {deed : Deed} (next : deed.Lawful entries world diary) :
    LawfulDiary entries world (diary ++ [deed]) := by
  intro earlier other later same
  rcases split_concat same with ⟨rfl, rfl, -⟩ | ⟨between, -, front⟩
  · exact next
  · exact lawful earlier other between front

end Law

namespace Playback

variable {α : Type} [Scalar α]

/-- A lawful diary that leads from a world to the playback, which knows whether a stop stands. -/
structure Records (entries : List Entry) (world : World) (diary : List Deed)
    (playback : Playback α) : Prop where
  pastes : playback.timeline.pastes = entries
  reaches : playback.world = world.replay entries diary
  stop : playback.stopFired = true ↔ StopStands diary
  lawful : LawfulDiary entries world diary

/-- Playback below its limits, where a stop that stands is no limit. -/
structure BelowLimits (stands : Prop) (playback : Playback α) : Prop where
  loop : 0 ≤ playback.active.loop → playback.world.generation < playback.active.loop
  stop : 0 ≤ playback.active.stop → playback.world.generation < playback.active.stop ∨ stands

/-- Whether playback halts depends on the active keyframe, the world and the stop alone. -/
theorem halt_eq_none_congr {playback other : Playback α} (going : playback.halt? = none)
    (active : other.active = playback.active) (world : other.world = playback.world)
    (stopFired : other.stopFired = playback.stopFired) : other.halt? = none := by
  rw [halt_eq_none] at going ⊢
  unfold stops loops at going ⊢
  rw [active, world, stopFired]
  exact going

/-- Playback that does not halt is below its limits. -/
theorem belowLimits_of_halt_eq_none {playback : Playback α} (going : playback.halt? = none)
    {stands : Prop} (fired : playback.stopFired = true → stands) : playback.BelowLimits stands := by
  rcases playback.halt_eq_none.mp going with ⟨unstopped, unlooped⟩
  rw [← Bool.not_eq_true, stops_iff] at unstopped
  rw [← Bool.not_eq_true, loops_iff] at unlooped
  constructor
  · intro limited
    exact Int.not_le.mp fun reached => unlooped ⟨limited, reached⟩
  · intro limited
    by_cases standing : playback.stopFired = true
    · exact .inr (fired standing)
    · have unfired : playback.stopFired = false := Bool.eq_false_iff.mpr standing
      exact .inl (Int.not_le.mp fun reached => unstopped ⟨limited, reached, unfired⟩)

/-! ### Every deed keeps to the law -/

theorem Does.records {before after : Playback α} {deed : Deed} {diary : List Deed}
    {entries : List Entry} {world : World} (does : Does before deed after)
    (records : Records entries world diary before) :
    Records entries world (diary ++ [deed]) after := by
  have known := records.stop
  have dated : (world.replay entries diary).generation = before.world.generation :=
    congrArg World.generation records.reaches.symm
  have moved := (Course.deed does).world
  rw [records.pastes, records.reaches] at moved
  rcases moved with ⟨timeline, arrived⟩
  have standing : after.stopFired = true ↔ StopStands (diary ++ [deed]) := by
    rw [stopStands_concat]
    cases does with
    | step | compute | rewind =>
        show before.stopFired = true ↔ _
        simpa [Deed.renews, stepDeed] using known
    | reset | arrive =>
        show false = true ↔ _
        simp [Deed.renews]
    | stop stops =>
        show true = true ↔ _
        simp
    | tell leaves =>
        rename_i event
        cases event with
        | stopped | arrived => cases leaves
        | _ => simpa [Deed.renews, note] using known
  have pastes : after.timeline.pastes = entries :=
    (congrArg Timeline.pastes timeline).trans records.pastes
  refine ⟨pastes, arrived.trans (World.replay_concat ..).symm, standing, records.lawful.concat ?_⟩
  cases does with
  | step going =>
      have below := belowLimits_of_halt_eq_none going known.mp
      exact ⟨dated, below.loop, below.stop⟩
  | compute | reset | rewind | arrive => trivial
  | stop stops =>
      have unfired := ((stops_iff before).mp stops).2.2
      refine ⟨dated, fun stands => ?_⟩
      rw [← known, unfired] at stands
      cases stands
  | tell leaves =>
      rename_i event
      cases event with
      | stopped => cases leaves
      | _ => trivial

theorem Course.records {before after : Playback α} {deeds diary : List Deed}
    {entries : List Entry} {world : World} (course : Course before deeds after)
    (records : Records entries world diary before) :
    Records entries world (diary ++ deeds) after := by
  induction course generalizing diary with
  | quiet alike =>
      rw [List.append_nil]
      exact ⟨alike.timeline ▸ records.pastes, alike.world.trans records.reaches,
        alike.stopFired ▸ records.stop, records.lawful⟩
  | deed does => exact does.records records
  | append first second earlier later =>
      rw [← List.append_assoc]
      exact later (earlier records)

/-! ### Frames that playback goes on from -/

/-- At generation zero limited playback does not halt. -/
theorem Limited.halt_at_zero {playback : Playback α} (limited : playback.Limited)
    (atZero : playback.world.generation = 0) : playback.halt? = none := by
  have stop := limited.active.stop
  have loop := limited.active.loop
  rw [halt_eq_none, ← Bool.not_eq_true, ← Bool.not_eq_true, stops_iff, loops_iff, atZero]
  constructor
  · rintro ⟨low, high, -⟩
    omega
  · rintro ⟨low, high⟩
    omega

/-- What has halted and still plays has looped, and does not halt again. -/
theorem halt_halted {playback halted : Playback α} (limited : playback.Limited)
    (halting : playback.halt? = some halted) (playing : halted.playing = true) :
    halted.halt? = none := by
  apply (keepsLimits_halt halting limited).halt_at_zero
  rcases halt_cases halting with ⟨-, rfl⟩ | ⟨-, -, rfl⟩
  · cases playing
  · rfl

/-- The last look at the limits comes after the last step. -/
theorem halt_runPending {clock : Nat → α} {playback : Playback α} (limited : playback.Limited)
    (playing : (playback.runPending clock).1.playing = true) :
    (playback.runPending clock).1.halt? = none := by
  rw [runPending_fst] at playing ⊢
  have stepped : KeepsLimits playback
      (burst clock halt? playback.dueSteps.toNat 0 playback).playback := by
    apply burst_within clock
    · exact fun _ => .of_eq rfl rfl rfl
    · exact keepsLimits_halt
  have limitedRun := stepped limited
  revert playing limitedRun
  generalize burst clock halt? playback.dueSteps.toNat 0 playback = run
  intro playing limitedRun
  have counted : run.counted.Limited := ⟨limitedRun.timeline, limitedRun.cursor, limitedRun.active⟩
  unfold Burst.settled at playing ⊢
  by_cases goesOn : run.counted.playing = true
  · rw [if_pos goesOn] at playing ⊢
    cases halting : run.counted.halt? with
    | none => exact halting
    | some halted =>
        rw [halting, Option.getD_some] at playing
        exact halt_halted counted halting playing
  · rw [if_neg goesOn] at playing
    exact absurd playing goesOn

theorem halt_runSteps {clock : Nat → α} {delta : α} {playback : Playback α} {report : StepReport}
    (limited : playback.Limited) (jobless : playback.openJob = none)
    (answered : Player.answer (Player.runSteps clock delta) playback = .ok report)
    (playing : (Player.after (Player.runSteps clock delta) playback).playing = true) :
    (Player.after (Player.runSteps clock delta) playback).halt? = none := by
  rw [Player.answer_runSteps, jobless] at answered
  rw [Player.after_runSteps, jobless] at playing ⊢
  dsimp only at answered playing ⊢
  by_cases plays : playback.playing = true
  · rw [if_pos plays] at answered playing ⊢
    rcases map_eq_ok answered with ⟨collected, collecting, -⟩
    rw [collecting] at playing ⊢
    rcases collect_ok collecting with ⟨whole, taken, -, -, rfl⟩
    exact halt_runPending ⟨limited.timeline, limited.cursor, limited.active⟩ playing
  · rw [if_neg plays] at playing ⊢
    exact halt_runPending limited playing

variable [Transcendental α]

theorem afterCalls_records {diary : List Deed} {playback : Playback α} {entries : List Entry}
    {world : World} (records : Records entries world diary playback) (calls : List (HostCall α)) :
    Records entries world (diary ++ playback.diary calls) (playback.afterCalls calls) := by
  unfold afterCalls
  induction calls generalizing diary playback with
  | nil =>
      rw [Playback.diary, List.append_nil]
      exact records
  | cons call rest inductionHypothesis =>
      rcases playback.perform_course call with ⟨reached, locked, undelivered, course, performed⟩
      rw [Playback.diary, ← List.append_assoc, List.foldl_cons]
      apply inductionHypothesis
      rw [performed]
      have recorded := course.records records
      exact ⟨recorded.pastes, recorded.reaches, recorded.stop, recorded.lawful⟩

omit [Transcendental α] in
theorem records_start (timeline : Timeline α) (world : World) (settings : ViewerSettings α) :
    Records timeline.pastes (start timeline world settings).world []
      (start timeline world settings) := by
  have unfired : (start timeline world settings).stopFired = false := by
    rcases exists_start timeline world settings with
      ⟨pasted, camera, active, poi, undelivered, started⟩
    rw [started]
  refine ⟨congrArg Timeline.pastes (start_timeline timeline world settings), rfl, ?_,
    lawfulDiary_nil⟩
  rw [unfired]
  constructor
  · intro impossible
    cases impossible
  · exact fun stands => absurd stands not_stopStands_nil

/-- A frame without a job of history, after which playback goes on, leaves nothing that would halt
it. -/
theorem halt_after_tick {clock : Nat → α} {delta : α} {playback : Playback α}
    {result : FrameResult α} (limited : playback.Limited)
    (answered : Player.answer (Player.tick clock delta) playback = .ok result)
    (jobless : (playback.aboutToStep delta).openJob = none)
    (playing : (Player.after (Player.tick clock delta) playback).playing = true) :
    (Player.after (Player.tick clock delta) playback).halt? = none := by
  have limitedToo : (playback.aboutToStep delta).Limited :=
    Player.moveCamera_keepsLimits _ (Player.passTime_keepsLimits delta _ limited)
  rw [Player.tick_eq] at answered playing ⊢
  -- all five phases have an answer, and the last two of them change nothing that could halt playback
  rcases (Player.answer_bind_eq_ok ..).mp answered with ⟨_, passed, answered⟩
  rcases (Player.answer_bind_eq_ok ..).mp answered with ⟨message, moved, answered⟩
  rcases (Player.answer_bind_eq_ok ..).mp answered with ⟨report, ran, answered⟩
  rcases (Player.answer_bind_eq_ok ..).mp answered with ⟨_, drifted, -⟩
  rw [Player.after_bind_of_ok _ _ passed, Player.after_bind_of_ok _ _ moved,
    Player.after_bind_of_ok _ _ ran, Player.after_bind_of_ok _ _ drifted, Player.after_present]
    at playing ⊢
  rcases Player.drift_frame (Player.after (Player.runSteps clock delta)
    (playback.aboutToStep delta)) with ⟨camera, origin, framed⟩
  unfold aboutToStep at jobless limitedToo framed
  rw [framed] at playing ⊢
  exact halt_eq_none_congr (halt_runSteps limitedToo jobless ran playing) rfl rfl rfl

end Playback

end Showreel
