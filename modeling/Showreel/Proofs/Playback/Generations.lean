import Showreel.Proofs.Playback.Burst
import Showreel.Proofs.Playback.Player
import Showreel.Proofs.Playback.Phases
import Showreel.Proofs.World.Picture
import Showreel.Proofs.Script.Session
import Showreel.Number.Shortest

/-!
Contract: the world of a playback at each generation.

Owns:
- the history of a world, which is a function of the generation alone;
- the journeys of a world by steps with their pastes and returns to generation zero, and
  that no phase of a frame and no call of the host moves the world in any other way;
- that every world that playback reaches stands where the history says.

Does not own: how many steps a frame makes.
-/

namespace Showreel

open Number Paste Pattern

/-! ### The history of a world -/

/-- The world at each generation: at generation zero the given one with the pastes of
generation zero, and from there on one step of life and then the pastes of the generation. -/
def history (entries : List Entry) (world : World) : Nat → World
  | 0 => Schedule.apply entries world 0
  | generation + 1 =>
      Schedule.apply entries ((history entries world generation).step .none) (generation + 1)

namespace World

/-- One generation with its pastes. -/
def advance (entries : List Entry) (world : World) : World :=
  Schedule.apply entries (world.step .all) (world.generation + 1)

/-- The worlds that steps with pastes and returns to generation zero lead to. -/
inductive Travels (entries : List Entry) (origin : World) : World → Prop where
  | stay : Travels entries origin origin
  | advance {world : World} (before : Travels entries origin world) :
      Travels entries origin (world.advance entries)
  | reset {world : World} (before : Travels entries origin world) :
      Travels entries origin world.reset

theorem Travels.trans {entries : List Entry} {first second third : World}
    (earlier : Travels entries first second) (later : Travels entries second third) :
    Travels entries first third := by
  induction later with
  | stay => exact earlier
  | advance _ inductionHypothesis => exact inductionHypothesis.advance
  | reset _ inductionHypothesis => exact inductionHypothesis.reset

/-- A world that stands where the history of another one says, with the history's beginning
as its snapshot. -/
structure OnHistory (entries : List Entry) (origin world : World) : Prop where
  generation_nonneg : 0 ≤ world.generation
  present : world.bare = (history entries origin world.generation.toNat).bare
  beginning : world.reset.bare = (history entries origin 0).bare

namespace OnHistory

variable {entries : List Entry} {origin world : World}

theorem advance (on : OnHistory entries origin world) :
    OnHistory entries origin (world.advance entries) := by
  have generation : (world.advance entries).generation = world.generation + 1 := by
    unfold World.advance
    rw [Schedule.generation_apply, generation_step]
  have nonneg := on.generation_nonneg
  have next : (world.generation + 1).toNat = world.generation.toNat + 1 := by omega
  have cast : ((world.generation.toNat : Int) + 1) = world.generation + 1 := by omega
  refine ⟨by omega, ?_, ?_⟩
  · rw [generation, next, history, cast]
    unfold World.advance
    -- pastes and steps see only the grid, so it is enough to compare bare worlds
    rw [Schedule.bare_apply, bare_step world .all .none, on.present,
      ← bare_step _ .none .none, ← Schedule.bare_apply]
  · unfold World.advance
    rw [Schedule.bare_reset_apply, bare_reset_step, on.beginning]

theorem reset (on : OnHistory entries origin world) : OnHistory entries origin world.reset :=
  ⟨Int.le_refl 0, on.beginning, (bare_reset_reset world).trans on.beginning⟩

theorem travels {target : World} (on : OnHistory entries origin world)
    (journey : Travels entries world target) : OnHistory entries origin target := by
  induction journey with
  | stay => exact on
  | advance _ inductionHypothesis => exact inductionHypothesis.advance
  | reset _ inductionHypothesis => exact inductionHypothesis.reset

end OnHistory

end World

/-! ### The world in the phases of a frame -/

namespace Playback

variable {α : Type} [Scalar α]

/-- The timeline stays, and the world moves by steps and returns alone. -/
def Moves (before after : Playback α) : Prop :=
  after.timeline = before.timeline
    ∧ World.Travels before.timeline.pastes before.world after.world

theorem Moves.of_eq {before after : Playback α} (timeline : after.timeline = before.timeline)
    (world : after.world = before.world) : Moves before after :=
  ⟨timeline, world ▸ .stay⟩

theorem Moves.trans {first second third : Playback α} (earlier : Moves first second)
    (later : Moves second third) : Moves first third := by
  obtain ⟨earlierTimeline, earlierWorld⟩ := earlier
  obtain ⟨laterTimeline, laterWorld⟩ := later
  rw [earlierTimeline] at laterTimeline laterWorld
  exact ⟨laterTimeline, earlierWorld.trans laterWorld⟩

instance : IsPreorder (Playback α) Moves where
  refl _ := .of_eq rfl rfl
  trans _ _ _ := .trans

theorem moves_stepOnce (playback : Playback α) : Moves playback playback.stepOnce :=
  ⟨rfl, .advance .stay⟩

theorem moves_reset (playback : Playback α) : Moves playback playback.reset :=
  ⟨rfl, .reset .stay⟩

theorem moves_halt {playback halted : Playback α} (halts : playback.halt? = some halted) :
    Moves playback halted := by
  rcases halt_cases halts with ⟨-, rfl⟩ | ⟨-, -, rfl⟩
  · exact .of_eq rfl rfl
  · exact moves_reset _

theorem moves_runHistory (clock : Nat → α) (playback : Playback α) (job : HistoryJob) :
    Moves playback (playback.runHistory clock job).1 :=
  runHistory_within clock moves_stepOnce (fun _ => ⟨rfl, .reset .stay⟩)
    (fun _ _ _ => .of_eq rfl rfl) playback job

theorem moves_runPending (clock : Nat → α) (playback : Playback α) :
    Moves playback (playback.runPending clock).1 :=
  runPending_within clock moves_stepOnce moves_halt (fun _ _ => .of_eq rfl rfl) playback

/-- Arriving may take the world back to generation zero, and moves it in no other way. -/
theorem moves_arrive (playback : Playback α) (poi : Keyframe α) :
    Moves playback (playback.arrive poi) := by
  have standing : Moves playback (playback.standingAt poi) := .of_eq rfl rfl
  have acting : ∀ current : Playback α, Moves current (current.acting poi.action) := by
    intro current
    cases poi.action <;> exact .of_eq rfl rfl
  have history : ∀ current : Playback α,
      Moves current (current.withHistory poi.startGeneration) := by
    intro current
    unfold withHistory
    split <;> exact .of_eq rfl rfl
  rw [arrive_eq]
  refine Moves.trans ?_ ((acting _).trans (history _))
  split
  · exact standing.trans (moves_reset _)
  · exact standing

end Playback

namespace Player

variable {α : Type} [Scalar α]

theorem passTime_moves (delta : α) : Within Playback.Moves (passTime delta) := by
  intro playback
  rw [after_passTime]
  split <;> exact .of_eq rfl rfl

theorem fitCamera_moves : Within (Playback.Moves (α := α)) fitCamera := by
  intro playback
  rw [after_fitCamera]
  split <;> exact .of_eq rfl rfl

theorem runSteps_moves (clock : Nat → α) (delta : α) :
    Within Playback.Moves (runSteps clock delta) := by
  intro playback
  rw [after_runSteps]
  split
  · exact Playback.moves_runHistory ..
  · split
    · split
      case h_1 collected collecting =>
        have gathered : Playback.Moves playback collected := by
          obtain ⟨whole, taken, -, -, rfl⟩ := Playback.collect_ok collecting
          exact .of_eq rfl rfl
        exact gathered.trans (Playback.moves_runPending ..)
      case h_2 => exact .of_eq rfl rfl
    · exact Playback.moves_runPending ..

theorem followTrack_moves (track : Track α) : Within Playback.Moves (followTrack track) := by
  intro playback
  rw [after_followTrack]
  split <;> exact .of_eq rfl rfl

theorem drift_moves : Within (Playback.Moves (α := α)) drift := by
  intro playback
  rw [after_drift]
  split
  · split
    · exact .of_eq rfl rfl
    · exact followTrack_moves _ playback
  · exact .of_eq rfl rfl

theorem goTo_moves (poi : Int) : Within (Playback.Moves (α := α)) (goTo poi) := by
  intro playback
  rw [after_goTo]
  have headed : Playback.Moves playback { playback with poi := some poi.toNat } :=
    .of_eq rfl rfl
  split
  · exact .of_eq rfl rfl
  · dsimp only
    split
    · exact headed.trans (Playback.moves_arrive ..)
    · split
      · exact headed.trans (.of_eq rfl rfl)
      · exact headed

variable [Transcendental α]

theorem travel_moves (journey : Journey α) : Within Playback.Moves (travel journey) := by
  intro playback
  rw [after_travel]
  split
  · have landed : Playback.Moves playback { playback with journey := none } := .of_eq rfl rfl
    exact landed.trans (Playback.moves_arrive ..)
  · exact .of_eq rfl rfl

theorem followChain_moves : Within (Playback.Moves (α := α)) followChain := by
  intro playback
  rw [after_followChain]
  split
  · exact .of_eq rfl rfl
  · split
    · exact .of_eq rfl rfl
    · dsimp only
      split <;> exact .of_eq rfl rfl

theorem moveCamera_moves : Within (Playback.Moves (α := α)) moveCamera := by
  intro playback
  rw [after_moveCamera]
  split
  · exact travel_moves _ playback
  · split
    · split
      · exact followChain_moves playback
      · exact .of_eq rfl rfl
    · exact fitCamera_moves playback

theorem present_moves (message : String) (report : StepReport) :
    Within (Playback.Moves (α := α)) (present message report) := by
  intro playback
  rw [after_present]
  exact .of_eq rfl rfl

/-- A frame moves the world by steps and returns alone. -/
theorem tick_moves (clock : Nat → α) (delta : α) : Within Playback.Moves (tick clock delta) := by
  rw [tick_eq]
  exact (passTime_moves delta).bind fun _ => moveCamera_moves.bind fun message =>
    (runSteps_moves clock delta).bind fun report => drift_moves.bind fun _ =>
      present_moves message report

theorem moveByHand_moves (camera : Camera α) : Within Playback.Moves (moveByHand camera) := by
  intro playback
  rw [after_moveByHand]
  split
  · split <;> exact .of_eq rfl rfl
  · exact .of_eq rfl rfl

end Player

namespace Playback

variable {α : Type} [Scalar α] [Transcendental α]

/-- Every call of the host moves the world by steps and returns alone. -/
theorem moves_perform (playback : Playback α) (call : HostCall α) :
    Moves playback (call.perform playback) := by
  cases call with
  | play => exact .of_eq rfl rfl
  | pause => exact .of_eq rfl rfl
  | reset => exact moves_reset playback
  | goTo poi => exact Player.goTo_moves poi playback
  | moveByHand camera => exact Player.moveByHand_moves camera playback
  | tick clock delta => exact Player.tick_moves clock delta playback

theorem moves_afterCalls (playback : Playback α) (calls : List (HostCall α)) :
    Moves playback (playback.afterCalls calls) :=
  afterCalls_keeps (fun current => Moves playback current)
    (fun current call moved => moved.trans (moves_perform current call)) playback calls
    (.of_eq rfl rfl)

omit [Transcendental α] in
theorem startAtPoi_frame (playback : Playback α) :
    playback.startAtPoi.world = playback.world
      ∧ playback.startAtPoi.timeline = playback.timeline := by
  unfold startAtPoi
  split <;> exact ⟨rfl, rfl⟩

omit [Transcendental α] in
/-- The pastes of generation zero change the world and what has happened, and nothing else. -/
theorem exists_applyInitialPastes (playback : Playback α) :
    ∃ world undelivered, playback.applyInitialPastes
      = { playback with world := world, undelivered := undelivered } := by
  unfold applyInitialPastes
  split
  · dsimp only
    split <;> exact ⟨_, _, rfl⟩
  · exact ⟨_, _, rfl⟩

omit [Transcendental α] in
/-- Standing at the initial point of interest changes where playback stands, and nothing else. -/
theorem exists_startAtPoi (playback : Playback α) :
    ∃ camera active poi, playback.startAtPoi
      = { playback with camera := camera, active := active, poi := poi } := by
  unfold startAtPoi
  split <;> exact ⟨_, _, _, rfl⟩

omit [Transcendental α] in
/-- Playback starts as a blank one, but for its world, where it stands and the news of pastes. -/
theorem exists_start (timeline : Timeline α) (world : World) (settings : ViewerSettings α) :
    ∃ pasted camera active poi undelivered, start timeline world settings = {
      timeline := timeline
      settings := settings
      world := pasted
      camera := camera
      cursor := .ofChain timeline.keyframes
      elapsed := 0
      playing := timeline.autostart && (timeline.isClean || !settings.stopOnErrors)
      locked := false
      ended := false
      active := active
      poi := poi
      journey := none
      job := initialJob timeline
      pending := 0
      accumulated := 0
      stopFired := false
      trackOrigin := none
      undelivered := undelivered } := by
  unfold start
  dsimp only
  rcases exists_startAtPoi (α := α) (applyInitialPastes _) with ⟨camera, active, poi, placed⟩
  rcases exists_applyInitialPastes (α := α) _ with ⟨pasted, undelivered, begun⟩
  rw [placed, begun]
  exact ⟨pasted, camera, active, poi, undelivered, rfl⟩

omit [Transcendental α] in
/-- The world in which playback starts: at generation zero its pastes are blended in, and
with them it becomes the snapshot. -/
theorem start_world (timeline : Timeline α) (world : World) (settings : ViewerSettings α) :
    (start timeline world settings).world =
      if world.generation = 0 then
        if (Schedule.due timeline.pastes 0).isEmpty then Schedule.apply timeline.pastes world 0
        else (Schedule.apply timeline.pastes world 0).markInitial
      else world := by
  unfold start
  rw [(startAtPoi_frame _).1]
  unfold applyInitialPastes
  split
  · dsimp only
    split <;> rfl
  · rfl

omit [Transcendental α] in
theorem start_timeline (timeline : Timeline α) (world : World) (settings : ViewerSettings α) :
    (start timeline world settings).timeline = timeline := by
  unfold start
  rw [(startAtPoi_frame _).2]
  unfold applyInitialPastes
  split
  · dsimp only
    split <;> rfl
  · rfl

omit [Transcendental α] in
theorem onHistory_start (timeline : Timeline α) (world : World) (settings : ViewerSettings α)
    (fresh : world.generation = 0) (marked : world.initial = world.grid) :
    World.OnHistory timeline.pastes world (start timeline world settings).world := by
  have unchanged : world.reset.bare = world.bare := by
    change ({ World.ofSize world.size world.size_ge world.wraps with grid := world.initial }
      : World) = _
    rw [marked]
    rfl
  rw [start_world, if_pos fresh]
  split
  case isTrue none =>
    have nothing : Schedule.apply timeline.pastes world 0 = world := by
      unfold Schedule.apply
      rw [List.isEmpty_iff.mp none]
      rfl
    refine ⟨?_, ?_, ?_⟩
    · exact Int.le_of_eq ((congrArg World.generation nothing).trans fresh).symm
    · rw [nothing, fresh]
      exact congrArg World.bare nothing.symm
    · rw [nothing, unchanged]
      exact congrArg World.bare nothing.symm
  case isFalse =>
    exact ⟨Int.le_refl 0, World.bare_markInitial _, World.bare_reset_markInitial _⟩

/-- However playback came to where it is, the world stands where its history says for its
generation, and it returns to the beginning of that history. Frame times, budgets, step
limits, clocks, loops, jobs of history and journeys make no difference. -/
theorem afterCalls_onHistory (timeline : Timeline α) (world : World)
    (settings : ViewerSettings α) (calls : List (HostCall α))
    (fresh : world.generation = 0) (marked : world.initial = world.grid) :
    let reached := ((start timeline world settings).afterCalls calls).world
    0 ≤ reached.generation
      ∧ reached.picture = (history timeline.pastes world reached.generation.toNat).picture
      ∧ reached.snapshot = (history timeline.pastes world 0).picture := by
  have starts := onHistory_start timeline world settings fresh marked
  obtain ⟨-, travels⟩ := moves_afterCalls (start timeline world settings) calls
  rw [start_timeline] at travels
  have reaches := starts.travels travels
  exact ⟨reaches.generation_nonneg, World.picture_eq_of_bare_eq reaches.present,
    World.picture_eq_of_bare_eq reaches.beginning⟩

/-- A script with a loop, pastes at and after generation zero and a point of interest that
computes history, under a host that pauses, travels and starts over. -/
theorem afterCalls_onHistory_loop :
    let context : Script.Context Float := ⟨.standard, .standard, .standard⟩
    let script :=
      "[[ AUTOSTART LOOP 3 PASTE 3o! PASTET EVERY 2 PASTE 2o$2o! 2 2 POI POITRANS 2 POIT 5 ]]"
    let world := World.ofSize 16 (by decide) true
    let calls : List (HostCall Float) := [.tick (fun _ => 0) 100, .pause, .goTo 0,
      .tick (fun reading => reading.toFloat) 100, .tick (fun _ => 0) 100, .reset, .play,
      .tick (fun _ => 0) 50]
    ∃ interpretation, Script.interpret context script = .ok interpretation
      ∧ world.generation = 0
      ∧ world.initial = world.grid
      ∧ let timeline := interpretation.timeline
        let reached := ((start timeline world .standard).afterCalls calls).world
        0 ≤ reached.generation
          ∧ reached.picture = (history timeline.pastes world reached.generation.toNat).picture
          ∧ reached.snapshot = (history timeline.pastes world 0).picture := by
  intro context script world calls
  have checked : (Script.interpret context script).toOption.any (fun _ => true) = true := by
    decide +kernel
  obtain ⟨interpretation, interpreted, _⟩ := Script.exists_interpretation checked
  exact ⟨interpretation, interpreted, rfl, rfl,
    afterCalls_onHistory interpretation.timeline world .standard calls rfl rfl⟩

end Playback

end Showreel
