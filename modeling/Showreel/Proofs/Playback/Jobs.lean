import Mathlib.Data.List.TakeWhile
import Showreel.Proofs.Playback.Work

/-!
Contract: how a job of history is done.

Owns:
- one frame of a job: the return to generation zero where its target lies behind, the steps that
  are made, and the mark and the news at the target;
- that nothing else is done for history, and that no call but a return to generation zero takes from
  a job, until playback arrives at a point of interest;
- that a job is done within a bounded number of frames, and told of once.

Does not own: the world that the steps lead to.
-/

namespace Showreel

open Number

namespace Playback

variable {α : Type} [Scalar α]

/-- The generation from which a frame of a job goes on: zero where the target lies behind. -/
def jobOrigin (playback : Playback α) (job : HistoryJob) : Int :=
  if job.target < playback.world.generation then 0 else playback.world.generation

/-- The steps that a job still needs. -/
def stepsLeft (playback : Playback α) (job : HistoryJob) : Int :=
  job.target - playback.jobOrigin job

/-- One frame of a job under a cap on the steps of a frame, with its report and its deeds. -/
structure JobFrame (cap : Int) (before after : Playback α) (job : HistoryJob)
    (report : StepReport) (deeds : List Deed) : Prop where
  requested : report.requested = min (before.stepsLeft job) cap
  bounded : (report.completed : Int) ≤ report.requested
  goesOn : before.stepsLeft job ≠ 0 → 1 ≤ report.completed
  bailedOut : report.bailedOut = decide ((report.completed : Int) < report.requested)
  generation : after.world.generation = before.jobOrigin job + report.completed
  withinTarget : after.world.generation ≤ job.target
  marked : after.job = some ⟨job.target, decide (after.world.generation = job.target)⟩
  deeds : deeds = (if job.target < before.world.generation then [.rewound] else [])
    ++ List.replicate report.completed .computed
    ++ if after.world.generation = job.target then [.told (.historyReached job.target)] else []

theorem openJob_eq_some {playback : Playback α} {job : HistoryJob} :
    playback.openJob = some job ↔ playback.job = some job ∧ job.reached = false := by
  unfold openJob
  rw [Option.filter_eq_some_iff, Bool.not_eq_true']

theorem SameWork.stepsLeft {before after : Playback α} (same : SameWork before after)
    (job : HistoryJob) : after.stepsLeft job = before.stepsLeft job := by
  unfold Playback.stepsLeft jobOrigin
  rw [same.world]

theorem stepsLeft_nonneg {playback : Playback α} {job : HistoryJob} (aimed : 0 ≤ job.target) :
    0 ≤ playback.stepsLeft job := by
  unfold stepsLeft jobOrigin
  split <;> omega

/-- From a generation on, a job needs no more steps than its target. -/
theorem stepsLeft_le {playback : Playback α} (begun : 0 ≤ playback.world.generation)
    (job : HistoryJob) : playback.stepsLeft job ≤ job.target := by
  unfold stepsLeft jobOrigin
  split <;> omega

/-! ### One frame of a job -/

theorem generation_rewoundFor (playback : Playback α) (job : HistoryJob) :
    (playback.rewoundFor job).world.generation = playback.jobOrigin job := by
  unfold rewoundFor jobOrigin
  split <;> rfl

theorem job_rewoundFor (playback : Playback α) (job : HistoryJob) :
    (playback.rewoundFor job).job = playback.job := by
  unfold rewoundFor
  split <;> rfl

section Frame

theorem historySteps_eq (playback : Playback α) (job : HistoryJob) :
    playback.historySteps job = min (playback.stepsLeft job) playback.settings.maxStepsPerTick := by
  unfold historySteps stepsLeft
  rw [generation_rewoundFor]

/-- A burst that goes no further than the target marks the job exactly if it comes that far. -/
theorem Burst.reported_marks {run : Burst α} {job : HistoryJob}
    (within : run.playback.world.generation ≤ job.target) (given : run.playback.job = some job)
    (unreached : job.reached = false) :
    (run.reported job).world = run.playback.world
      ∧ (run.reported job).job
        = some ⟨job.target, decide (run.playback.world.generation = job.target)⟩ := by
  unfold Burst.reported
  split
  case isTrue reached =>
    rw [decide_eq_true (Int.le_antisymm within reached)]
    exact ⟨rfl, rfl⟩
  case isFalse short =>
    rw [decide_eq_false (by omega), given, ← unreached]
    exact ⟨rfl, rfl⟩

/-- In a burst for a job every deed is a computed generation. -/
theorem burstDeeds_computed (clock : Nat → α) (left : Nat) (playback : Playback α) :
    burstDeeds clock (fun _ => none) (fun _ => .computed) left 0 playback
      = List.replicate (burst clock (fun _ => none) left 0 playback).completed .computed := by
  have computed : ∀ deed ∈ burstDeeds clock (fun _ => none) (fun _ => .computed) left 0 playback,
      deed = .computed := by
    apply forall_mem_burstDeeds (· = .computed) clock
    · exact fun _ _ => rfl
    · intro _ _ impossible
      cases impossible
  have counted := countP_burstDeeds clock (fun _ => none) (fun _ => .computed) (fun _ => rfl) left 0
    playback
  rw [List.eq_replicate_iff]
  refine ⟨?_, computed⟩
  rw [counted, Nat.zero_add, eq_comm, List.countP_eq_length]
  intro deed member
  rw [computed deed member]
  rfl

theorem runHistory_snd (clock : Nat → α) (playback : Playback α) (job : HistoryJob) :
    (playback.runHistory clock job).2 =
      ⟨playback.historySteps job,
        (burst clock (fun _ => none) (playback.historySteps job).toNat 0
          (playback.rewoundFor job)).completed,
        (burst clock (fun _ => none) (playback.historySteps job).toNat 0
          (playback.rewoundFor job)).bailedOut⟩ :=
  rfl

/-- **A frame of a job makes between one and all of the steps that are asked for**, up to the
target. -/
theorem jobFrame_runHistory (clock : Nat → α) {playback : Playback α} {job : HistoryJob}
    (aimed : 0 ≤ job.target) (capped : 1 ≤ playback.settings.maxStepsPerTick)
    (given : playback.openJob = some job) :
    JobFrame playback.settings.maxStepsPerTick playback (playback.runHistory clock job).1 job
      (playback.runHistory clock job).2 (playback.historyDeeds clock job) := by
  have left := playback.stepsLeft_nonneg aimed
  have asked := playback.historySteps_eq job
  rw [runHistory_snd, runHistory_fst, historyDeeds, burstDeeds_computed]
  rcases burst_unhalted clock (playback.historySteps job).toNat 0 (playback.rewoundFor job) with
    ⟨made, most, least, ran⟩
  rcases iterate_stepOnce made (playback.rewoundFor job) with ⟨world, told, stepped, reached, -⟩
  generalize burst clock (fun _ => none) (playback.historySteps job).toNat 0
    (playback.rewoundFor job) = run at ran
  have completed : run.completed = made := by rw [ran, Nat.zero_add]
  have late : run.bailedOut = decide (made < (playback.historySteps job).toNat) := by rw [ran]
  have generation : run.playback.world.generation = playback.jobOrigin job + made := by
    rw [ran, stepped, reached, generation_rewoundFor]
  have current : run.playback.job = some job := by
    rw [ran, stepped]
    exact (job_rewoundFor ..).trans (openJob_eq_some.mp given).1
  have within : run.playback.world.generation ≤ job.target := by
    unfold stepsLeft at left asked
    omega
  rcases Burst.reported_marks within current (openJob_eq_some.mp given).2 with ⟨kept, marked⟩
  constructor
  case requested => exact asked
  case bounded =>
    dsimp only
    omega
  case goesOn =>
    dsimp only
    omega
  case bailedOut =>
    dsimp only
    rw [late, decide_eq_decide]
    omega
  case generation =>
    rw [kept, generation]
    dsimp only
    omega
  case withinTarget => rwa [kept]
  case marked => rw [marked, kept]
  case deeds =>
    rw [kept]
    congr 2
    rw [eq_iff_iff]
    omega

/-- Where a job is open, the steps of a frame are a frame of that job, and never fail. -/
theorem jobFrame_runSteps (clock : Nat → α) (delta : α) {playback : Playback α} {job : HistoryJob}
    (aimed : 0 ≤ job.target) (capped : 1 ≤ playback.settings.maxStepsPerTick)
    (given : playback.openJob = some job) :
    ∃ report, Player.answer (Player.runSteps clock delta) playback = .ok report
      ∧ JobFrame playback.settings.maxStepsPerTick playback
        (Player.after (Player.runSteps clock delta) playback) job report
        (playback.runDeeds clock delta) := by
  have framed := jobFrame_runHistory clock aimed capped given
  rw [Player.answer_runSteps, Player.after_runSteps, runDeeds, given]
  exact ⟨_, rfl, framed⟩

/-! ### Frames without a job -/

/-- Playbacks with the same job, and the same settings. -/
structure SameJob (before after : Playback α) : Prop where
  settings : after.settings = before.settings
  job : after.job = before.job

instance : IsPreorder (Playback α) SameJob where
  refl _ := ⟨rfl, rfl⟩
  trans _ _ _ earlier later :=
    ⟨later.settings.trans earlier.settings, later.job.trans earlier.job⟩

theorem sameJob_halt {playback halted : Playback α} (halting : playback.halt? = some halted) :
    SameJob playback halted := by
  rcases halt_cases halting with ⟨-, rfl⟩ | ⟨-, -, rfl⟩ <;> exact ⟨rfl, rfl⟩

theorem sameJob_runPending (clock : Nat → α) (playback : Playback α) :
    SameJob playback (playback.runPending clock).1 :=
  runPending_within clock (fun _ => ⟨rfl, rfl⟩) sameJob_halt (fun _ _ => ⟨rfl, rfl⟩) playback

theorem ofHistory_haltDeeds (playback : Playback α) :
    ∀ deed ∈ playback.haltDeeds, deed.ofHistory = false ∧ deed.arrives = false := by
  unfold haltDeeds
  split
  · exact List.forall_mem_singleton.mpr ⟨rfl, rfl⟩
  · split
    · exact List.forall_mem_cons.mpr ⟨⟨rfl, rfl⟩, List.forall_mem_singleton.mpr ⟨rfl, rfl⟩⟩
    · exact fun _ impossible => nomatch impossible

/-- The steps that are due are not made for history. -/
theorem ofHistory_pendingDeeds (clock : Nat → α) (playback : Playback α) :
    ∀ deed ∈ playback.pendingDeeds clock, deed.ofHistory = false ∧ deed.arrives = false := by
  unfold pendingDeeds
  rw [List.forall_mem_append]
  refine ⟨?_, ?_⟩
  · apply forall_mem_burstDeeds (fun deed => deed.ofHistory = false ∧ deed.arrives = false) clock
    · exact fun _ _ => ⟨rfl, rfl⟩
    · exact fun playback _ _ => ofHistory_haltDeeds playback
  · split
    · exact ofHistory_haltDeeds _
    · exact fun _ impossible => nomatch impossible

/-- Without an open job, the steps of a frame do nothing for history. -/
theorem runSteps_idle (clock : Nat → α) (delta : α) {playback : Playback α}
    (idle : playback.openJob = none) :
    SameJob playback (Player.after (Player.runSteps clock delta) playback)
      ∧ ∀ deed ∈ playback.runDeeds clock delta, deed.ofHistory = false ∧ deed.arrives = false := by
  rw [Player.after_runSteps, runDeeds, idle]
  dsimp only
  by_cases playing : playback.playing = true
  · rw [if_pos playing, if_pos playing]
    cases collecting : (playback.accumulate delta).collect with
    | error fault => exact ⟨⟨rfl, rfl⟩, fun _ impossible => nomatch impossible⟩
    | ok collected =>
        have gathered : SameJob playback collected := by
          rcases collect_ok collecting with ⟨whole, taken, -, -, rfl⟩
          exact ⟨rfl, rfl⟩
        exact ⟨IsTrans.trans _ _ _ gathered (sameJob_runPending clock collected),
          ofHistory_pendingDeeds clock collected⟩
  · rw [if_neg playing, if_neg playing]
    exact ⟨sameJob_runPending clock playback, ofHistory_pendingDeeds clock playback⟩

end Frame

/-! ### Jobs through the calls of a host -/

/-- How far a job has come over a number of frames, in which it was told of a number of times. -/
inductive Advances (job : HistoryJob) (before after : Playback α) (frames : Nat) : Nat → Prop
  | waiting (given : after.openJob = some job)
      (left : after.stepsLeft job + frames ≤ before.stepsLeft job)
      (more : 1 ≤ before.stepsLeft job ∨ 0 < frames → 1 ≤ after.stepsLeft job) :
      Advances job before after frames 0
  | done (marked : after.job = some ⟨job.target, true⟩) : Advances job before after frames 1

/-- Only the steps that were left before count for how far a job has come. -/
theorem Advances.ofSameWork {job : HistoryJob} {before between after : Playback α}
    {frames told : Nat} (advances : Advances job between after frames told)
    (same : SameWork before between) : Advances job before after frames told := by
  cases advances with
  | waiting given left more =>
      rw [same.stepsLeft job] at left more
      exact .waiting given left more
  | done marked => exact .done marked

/-- Frames in which a job did not get done come before those in which it advances. -/
theorem Advances.since {job : HistoryJob} {before between after : Playback α}
    {frames more told : Nat} (advances : Advances job between after more told)
    (left : between.stepsLeft job + frames ≤ before.stepsLeft job)
    (some : 1 ≤ before.stepsLeft job ∨ 0 < frames → 1 ≤ between.stepsLeft job) :
    Advances job before after (frames + more) told := by
  cases advances with
  | waiting given leftToo someToo => exact .waiting given (by omega) (by omega)
  | done marked => exact .done marked

section JobFrame

variable {cap : Int} {before after : Playback α} {job : HistoryJob} {report : StepReport}
  {deeds : List Deed}

theorem JobFrame.advances (frame : JobFrame cap before after job report deeds)
    (unreached : job.reached = false) :
    Advances job before after 1 (deeds.count (.told (.historyReached job.target))) := by
  rcases frame with ⟨-, -, goesOn, -, generation, within, marked, rfl⟩
  have counted : ∀ rewinds : Prop, [Decidable rewinds] →
      (if rewinds then [Deed.rewound] else []).count (.told (.historyReached job.target)) = 0 := by
    intro rewinds _
    split <;> rfl
  rw [List.count_append, List.count_append, counted, List.count_replicate, if_neg (by simp),
    Nat.add_zero, Nat.zero_add]
  by_cases reached : after.world.generation = job.target
  · rw [if_pos reached, List.count_singleton_self]
    rw [decide_eq_true reached] at marked
    exact .done marked
  · rw [if_neg reached, List.count_nil]
    rw [decide_eq_false reached, ← unreached] at marked
    have left : before.stepsLeft job = job.target - before.jobOrigin job := rfl
    have more : after.stepsLeft job = job.target - after.world.generation := by
      unfold stepsLeft jobOrigin
      rw [if_neg (by omega)]
    exact .waiting (openJob_eq_some.mpr ⟨marked, unreached⟩) (by omega) (by omega)

theorem JobFrame.arrivesNowhere (frame : JobFrame cap before after job report deeds) :
    ∀ deed ∈ deeds, deed.arrives = false := by
  rw [frame.deeds, List.forall_mem_append, List.forall_mem_append]
  refine ⟨⟨?_, ?_⟩, ?_⟩
  · split <;> simp [Deed.arrives]
  · intro deed member
    rw [List.eq_of_mem_replicate member]
    rfl
  · split <;> simp [Deed.arrives]

/-- Only the world and the job count for what a frame of a job has done. -/
theorem JobFrame.congr (frame : JobFrame cap before after job report deeds) (shown : Playback α)
    (world : shown.world = after.world) (marks : shown.job = after.job) :
    JobFrame cap before shown job report deeds := by
  refine ⟨frame.requested, frame.bounded, frame.goesOn, frame.bailedOut, ?_, ?_, ?_, ?_⟩
  · rw [world, frame.generation]
  · rw [world]
    exact frame.withinTarget
  · rw [world, marks, frame.marked]
  · rw [world]
    exact frame.deeds

end JobFrame

/-- Deeds that are not done for history tell of no job. -/
theorem count_historyReached {deeds : List Deed} (others : ∀ deed ∈ deeds, deed.ofHistory = false)
    (target : Int) : deeds.count (.told (.historyReached target)) = 0 := by
  rw [List.count_eq_zero]
  intro member
  cases others _ member

/-- Playback that can do its jobs: no job aims below generation zero, and frames may make steps. -/
structure Workable (playback : Playback α) : Prop where
  capped : 1 ≤ playback.settings.maxStepsPerTick
  targets : ∀ job ∈ playback.job, 0 ≤ job.target

theorem Workable.of_sameJob {before after : Playback α} (workable : before.Workable)
    (settings : after.settings = before.settings) (job : after.job = before.job) :
    after.Workable :=
  ⟨settings ▸ workable.capped, job ▸ workable.targets⟩

theorem workable_start (timeline : Timeline α) (world : World) {settings : ViewerSettings α}
    (capped : 1 ≤ settings.maxStepsPerTick) : (start timeline world settings).Workable := by
  rcases exists_start timeline world settings with
    ⟨pasted, camera, active, poi, undelivered, started⟩
  rw [started]
  refine ⟨capped, fun job given => ?_⟩
  rcases Option.bind_eq_some_iff.mp given with ⟨generation, -, asked⟩
  split at asked
  case isTrue positive =>
    cases asked
    exact Int.le_of_lt positive
  case isFalse => cases asked

theorem workable_arrive {playback : Playback α} (workable : playback.Workable) (poi : Keyframe α) :
    (playback.arrive poi).Workable := by
  have acting : ∀ current : Playback α, SameJob current (current.acting poi.action) := by
    intro current
    cases poi.action <;> exact ⟨rfl, rfl⟩
  have history : ∀ current : Playback α, current.Workable →
      (current.withHistory poi.startGeneration).Workable := by
    intro current workable
    unfold withHistory
    split
    case isTrue asked =>
      refine ⟨workable.capped, fun job given => ?_⟩
      cases given
      exact asked
    case isFalse => exact workable
  have standing : (playback.standingAt poi).Workable := workable.of_sameJob rfl rfl
  rw [arrive_eq]
  apply history
  split
  · exact standing.of_sameJob (acting _).settings (acting _).job
  · exact standing.of_sameJob (acting _).settings (acting _).job

theorem Steered.workable {before after : Playback α} {deeds : List Deed}
    (steered : Steered before deeds after) (workable : before.Workable) : after.Workable := by
  cases steered with
  | quiet same => exact workable.of_sameJob same.settings same.job
  | tells deed arrives ofHistory same => exact workable.of_sameJob same.settings same.job
  | arrives landed poi same =>
      exact workable_arrive (workable.of_sameJob same.settings same.job) poi

theorem workable_runSteps (clock : Nat → α) (delta : α) {playback : Playback α}
    (workable : playback.Workable) :
    (Player.after (Player.runSteps clock delta) playback).Workable := by
  cases given : playback.openJob with
  | none =>
      have same := (runSteps_idle clock delta given).1
      exact workable.of_sameJob same.settings same.job
  | some job =>
      rcases jobFrame_runSteps clock delta (workable.targets job (openJob_eq_some.mp given).1)
        workable.capped given with ⟨report, -, frame⟩
      have settings := (Player.runSteps_course clock delta playback).setting.1
      refine ⟨settings ▸ workable.capped, fun other same => ?_⟩
      rw [frame.marked] at same
      cases same
      exact workable.targets job (openJob_eq_some.mp given).1

variable [Transcendental α]

theorem workable_perform {playback : Playback α} (workable : playback.Workable)
    (call : HostCall α) : (call.perform playback).Workable := by
  cases call with
  | play | pause | reset => exact workable.of_sameJob rfl rfl
  | goTo poi => exact (Player.goTo_steers poi playback).workable workable
  | moveByHand camera => exact (Player.moveByHand_steers camera playback).workable workable
  | tick clock delta =>
      have about := (playback.aboutToStep_steers delta).workable workable
      show (Player.after (Player.tick clock delta) playback).Workable
      cases comes : playback.comesToSteps delta with
      | false => rwa [after_tick_of_not_comesToSteps comes]
      | true =>
          rcases after_tick_of_comesToSteps comes clock with
            ⟨camera, origin, locked, undelivered, ticked⟩
          rw [ticked]
          exact (workable_runSteps clock delta about).of_sameJob rfl rfl

/-- The frames of one call that come to their steps. -/
def callFrames (playback : Playback α) : HostCall α → Nat
  | .tick _ delta => (playback.comesToSteps delta).toNat
  | _ => 0

/-- The frames among calls of the host that come to their steps. -/
def framesToSteps (playback : Playback α) : List (HostCall α) → Nat
  | [] => 0
  | call :: rest => playback.callFrames call + framesToSteps (call.perform playback) rest

/-- A call, by a host that finds no open job, does nothing for history, unless playback arrives
first. -/
theorem perform_idle {playback : Playback α} (idle : playback.openJob = none)
    (call : HostCall α) :
    ((call.perform playback).job = playback.job
        ∧ ∀ deed ∈ playback.callDeeds call, deed.arrives = false ∧ deed.ofHistory = false)
      ∨ ∃ poi rest, playback.callDeeds call = .told (.arrived poi) :: rest := by
  have steers : ∀ {deeds after}, Steered playback deeds after →
      (after.job = playback.job ∧ ∀ deed ∈ deeds, deed.arrives = false ∧ deed.ofHistory = false)
        ∨ ∃ poi rest, deeds = .told (.arrived poi) :: rest := by
    intro deeds after steered
    exact steered.cases_arrival.imp (fun ⟨same, others⟩ => ⟨same.job, others⟩) id
  cases call with
  | play | pause => exact .inl ⟨rfl, fun _ impossible => nomatch impossible⟩
  | reset => exact .inl ⟨rfl, List.forall_mem_singleton.mpr ⟨rfl, rfl⟩⟩
  | goTo poi => exact steers (Player.goTo_steers poi playback)
  | moveByHand camera => exact steers (Player.moveByHand_steers camera playback)
  | tick clock delta =>
      show ((Player.after (Player.tick clock delta) playback).job = _
          ∧ ∀ deed ∈ playback.frameDeeds clock delta, _)
        ∨ ∃ poi rest, playback.frameDeeds clock delta = _
      rw [frameDeeds_eq]
      rcases (playback.aboutToStep_steers delta).cases_arrival with
        ⟨same, others⟩ | ⟨poi, rest, arrived⟩
      · left
        cases comes : playback.comesToSteps delta with
        | false =>
            rw [after_tick_of_not_comesToSteps comes, if_neg Bool.false_ne_true, List.append_nil]
            exact ⟨same.job, others⟩
        | true =>
            rcases runSteps_idle clock delta (same.openJob.trans idle) with ⟨kept, steps⟩
            rcases after_tick_of_comesToSteps comes clock with
              ⟨camera, origin, locked, undelivered, ticked⟩
            rw [ticked, if_pos rfl]
            refine ⟨kept.job.trans same.job, List.forall_mem_append.mpr ⟨others, ?_⟩⟩
            exact fun deed member => (steps deed member).symm
      · rw [arrived]
        exact .inr ⟨poi, _, rfl⟩

/-- Nothing is done for history without an open job, before playback arrives. -/
theorem diary_idle {playback : Playback α} (idle : playback.openJob = none)
    (later : List (HostCall α)) :
    (∀ deed ∈ (playback.diary later).takeWhile (fun deed => !deed.arrives),
        deed.ofHistory = false)
      ∧ ((∀ deed ∈ playback.diary later, deed.arrives = false) →
        (playback.afterCalls later).job = playback.job) := by
  induction later generalizing playback with
  | nil => exact ⟨List.forall_mem_nil _, fun _ => rfl⟩
  | cons call rest inductionHypothesis =>
      unfold diary
      rcases perform_idle idle call with ⟨same, others⟩ | ⟨poi, deeds, arrived⟩
      · have idleToo : (call.perform playback).openJob = none := by
          unfold openJob at idle ⊢
          rwa [same]
        rcases inductionHypothesis idleToo with ⟨quiet, kept⟩
        constructor
        · rw [List.takeWhile_append_of_pos fun deed member => by rw [(others deed member).1]; rfl]
          exact List.forall_mem_append.mpr ⟨fun deed member => (others deed member).2, quiet⟩
        · rw [List.forall_mem_append]
          exact fun nowhere => (kept nowhere.2).trans same
      · rw [arrived]
        refine ⟨List.forall_mem_nil _, fun nowhere => ?_⟩
        cases nowhere _ List.mem_cons_self

/-- A call that neither returns to generation zero nor arrives lets an open job advance. -/
theorem perform_advances {playback : Playback α} {job : HistoryJob} (workable : playback.Workable)
    (given : playback.openJob = some job) {call : HostCall α} (goesOn : call ≠ .reset)
    (arrivesNowhere : ∀ deed ∈ playback.callDeeds call, deed.arrives = false) :
    Advances job playback (call.perform playback) (playback.callFrames call)
      ((playback.callDeeds call).count (.told (.historyReached job.target))) := by
  have waits : ∀ {deeds : List Deed} {after : Playback α}, after.openJob = playback.openJob →
      after.stepsLeft job = playback.stepsLeft job → (∀ deed ∈ deeds, deed.ofHistory = false) →
      Advances job playback after 0 (deeds.count (.told (.historyReached job.target))) := by
    intro deeds after task left others
    rw [count_historyReached others]
    exact .waiting (task.trans given) (by omega) (by omega)
  have steers : ∀ {deeds after}, Steered playback deeds after →
      (∀ deed ∈ deeds, deed.arrives = false) →
      Advances job playback after 0 (deeds.count (.told (.historyReached job.target))) := by
    intro deeds after steered nowhere
    rcases steered.cases_arrival with ⟨same, others⟩ | ⟨poi, rest, rfl⟩
    · exact waits same.openJob (same.stepsLeft job) fun deed member => (others deed member).2
    · cases nowhere _ List.mem_cons_self
  cases call with
  | play | pause => exact waits rfl rfl fun _ impossible => nomatch impossible
  | reset => exact absurd rfl goesOn
  | goTo poi => exact steers (Player.goTo_steers poi playback) arrivesNowhere
  | moveByHand camera => exact steers (Player.moveByHand_steers camera playback) arrivesNowhere
  | tick clock delta =>
      replace arrivesNowhere : ∀ deed ∈ playback.frameDeeds clock delta, deed.arrives = false :=
        arrivesNowhere
      show Advances job playback (Player.after (Player.tick clock delta) playback)
        (playback.comesToSteps delta).toNat
        ((playback.frameDeeds clock delta).count (.told (.historyReached job.target)))
      rw [frameDeeds_eq] at arrivesNowhere ⊢
      rw [List.forall_mem_append] at arrivesNowhere
      rcases (playback.aboutToStep_steers delta).cases_arrival with
        ⟨same, others⟩ | ⟨poi, rest, arrived⟩
      · have quiet := fun deed member => (others deed member).2
        cases comes : playback.comesToSteps delta with
        | false =>
            rw [after_tick_of_not_comesToSteps comes, if_neg Bool.false_ne_true, List.append_nil]
            exact waits same.openJob (same.stepsLeft job) quiet
        | true =>
            have workableToo := workable.of_sameJob same.settings same.job
            rcases jobFrame_runSteps clock delta
              (workable.targets job (openJob_eq_some.mp given).1) workableToo.capped
              (same.openJob.trans given) with ⟨report, -, frame⟩
            rcases after_tick_of_comesToSteps comes clock with
              ⟨camera, origin, locked, undelivered, ticked⟩
            rw [if_pos rfl, List.count_append, count_historyReached quiet, Nat.zero_add]
            have shown := frame.congr (Player.after (Player.tick clock delta) playback)
              (by rw [ticked]) (by rw [ticked])
            exact (shown.advances (openJob_eq_some.mp given).2).ofSameWork same
      · cases arrivesNowhere.1 _ (arrived ▸ List.mem_cons_self)

/-- A job goes on advancing through calls that neither return to generation zero nor arrive, and
what is done stays done. -/
theorem Advances.throughCalls {job : HistoryJob} {before between : Playback α} {frames told : Nat}
    (advances : Advances job before between frames told) (workable : between.Workable)
    {later : List (HostCall α)} (goesOn : HostCall.reset ∉ later)
    (arrivesNowhere : ∀ deed ∈ between.diary later, deed.arrives = false) :
    Advances job before (between.afterCalls later) (frames + between.framesToSteps later)
      (told + (between.diary later).count (.told (.historyReached job.target))) := by
  induction later generalizing between frames told with
  | nil => exact advances
  | cons call rest inductionHypothesis =>
      cases advances with
      | waiting given left more =>
          rw [List.mem_cons, not_or] at goesOn
          unfold diary at arrivesNowhere ⊢
          rw [List.forall_mem_append] at arrivesNowhere
          have next := (perform_advances workable given (Ne.symm goesOn.1) arrivesNowhere.1).since
            left more
          have rest := inductionHypothesis next (workable_perform workable call) goesOn.2
            arrivesNowhere.2
          rwa [Nat.add_assoc, ← List.count_append, ← Nat.zero_add (List.count ..)] at rest
      | done marked =>
          have idle : between.openJob = none := by
            unfold openJob
            rw [marked]
            rfl
          rcases diary_idle idle (call :: rest) with ⟨quiet, kept⟩
          rw [List.takeWhile_eq_self_iff.mpr fun deed member => by
            rw [arrivesNowhere deed member]; rfl] at quiet
          rw [count_historyReached quiet, Nat.add_zero]
          exact .done ((kept arrivesNowhere).trans marked)

/-- **Jobs of history are done, within bounds.** Whatever the host has done before, a frame that
comes to its steps with a job to do makes a frame of that job, and shows its report and its news.
From then on the job advances through any calls of the host until playback returns to generation
zero or arrives at a point of interest: it is marked and told of at most once, and it is done with
as many frames that come to their steps as steps were left, the first one among them. And without
an open job nothing is done for history before an arrival. -/
theorem afterCalls_computesHistory (timeline : Timeline α) (world : World)
    (settings : ViewerSettings α) (capped : 1 ≤ settings.maxStepsPerTick)
    (calls : List (HostCall α)) :
    let reached := (start timeline world settings).afterCalls calls
    (∀ clock delta job, (reached.aboutToStep delta).openJob = some job →
        reached.comesToSteps delta = true →
        let before := reached.aboutToStep delta
        let deeds := before.runDeeds clock delta
        let next := Player.after (Player.tick clock delta) reached
        (∃ report, JobFrame settings.maxStepsPerTick before next job report deeds
            ∧ ∀ result, Player.answer (Player.tick clock delta) reached = .ok result →
              result.steps = report ∧ result.events = reached.untold
                ++ ((Player.after (Player.passTime delta) reached).cameraDeeds ++ deeds).filterMap
                  Deed.event?)
          ∧ (0 ≤ before.world.generation → before.stepsLeft job ≤ job.target)
          ∧ ∀ later, HostCall.reset ∉ later →
            (∀ deed ∈ next.diary later, deed.arrives = false) →
            ∃ done : Bool, (next.afterCalls later).job = some ⟨job.target, done⟩
              ∧ (deeds ++ next.diary later).count (.told (.historyReached job.target)) = done.toNat
              ∧ (before.stepsLeft job ≤ 1 + next.framesToSteps later → done = true))
      ∧ (∀ clock delta result, Player.answer (Player.tick clock delta) reached = .ok result →
          reached.comesToSteps delta = true)
      ∧ (reached.openJob = none → ∀ later,
          ∀ deed ∈ (reached.diary later).takeWhile (fun deed => !deed.arrives),
            deed.ofHistory = false) := by
  intro reached
  have workable : reached.Workable := afterCalls_keeps Workable
    (fun _ call workable => workable_perform workable call) _ calls
    (workable_start timeline world capped)
  refine ⟨?jobs, ?shown, fun idle later => (diary_idle idle later).1⟩
  case jobs =>
    intro clock delta job given comes before deeds next
    have about := (reached.aboutToStep_steers delta).workable workable
    have ruled : before.settings = settings := by
      have moved := (Player.moveCamera_course
        (Player.after (Player.passTime delta) reached)).setting.1
      rcases exists_start timeline world settings with
        ⟨pasted, camera, active, poi, undelivered, started⟩
      calc before.settings
          = reached.settings := moved.trans (Player.passTime_alike delta reached).settings
        _ = (start timeline world settings).settings := settings_afterCalls ..
        _ = settings := by rw [started]
    rcases jobFrame_runSteps clock delta (about.targets job (openJob_eq_some.mp given).1)
      about.capped given with ⟨report, answered, frame⟩
    rcases after_tick_of_comesToSteps comes clock with
      ⟨camera, origin, locked, undelivered, ticked⟩
    rw [ruled] at frame
    have shownFrame : JobFrame settings.maxStepsPerTick before next job report deeds :=
      frame.congr next ((congrArg Playback.world ticked).trans rfl)
        ((congrArg Playback.job ticked).trans rfl)
    refine ⟨⟨report, shownFrame, fun result shown => ?_⟩, fun begun => stepsLeft_le begun job, ?_⟩
    · have same := (answer_runSteps_of_shown shown).2
      rw [answered] at same
      have delivered := reached.tick_delivers clock delta
      rw [shown, frameDeeds_eq, if_pos comes] at delivered
      exact ⟨(Except.ok.inj same).symm, delivered.1⟩
    · intro later goesOn arrivesNowhere
      have first := shownFrame.advances (openJob_eq_some.mp given).2
      have advances := first.throughCalls (workable_perform workable (.tick clock delta)) goesOn
        arrivesNowhere
      rw [← List.count_append] at advances
      revert advances
      generalize (deeds ++ next.diary later).count _ = told
      intro advances
      cases advances with
      | waiting still left more =>
          rcases openJob_eq_some.mp still with ⟨marked, unreached⟩
          refine ⟨false, ?_, rfl, fun enough => ?_⟩
          · rw [marked, ← unreached]
          · omega
      | done marked => exact ⟨true, marked, rfl, fun _ => rfl⟩
  case shown => exact fun clock delta result shown => (answer_runSteps_of_shown shown).1

/-- A job of three generations that the clock lets make one step in a frame, with a pause on the
way. -/
theorem afterCalls_computesHistory_startFrom :
    let context : Script.Context Float := ⟨.standard, .standard, .standard⟩
    let script := "[[ STARTFROM 3 PASTE 3o! ]]"
    let world := World.ofSize 8 (by decide) true
    let slow : Nat → Float := fun reading => reading.toFloat
    let later : List (HostCall Float) := [.pause, .tick slow 16, .play, .tick slow 16]
    ∃ interpretation, Script.interpret context script = .ok interpretation
      ∧ 1 ≤ (ViewerSettings.standard : ViewerSettings Float).maxStepsPerTick
      ∧ let reached := start interpretation.timeline world .standard
        let before := reached.aboutToStep 16
        let deeds := before.runDeeds slow 16
        let next := Player.after (Player.tick slow 16) reached
        before.openJob = some ⟨3, false⟩ ∧ reached.comesToSteps 16 = true
          ∧ HostCall.reset ∉ later ∧ (∀ deed ∈ next.diary later, deed.arrives = false)
          ∧ before.stepsLeft ⟨3, false⟩ = 1 + next.framesToSteps later
          ∧ (next.afterCalls later).job = some ⟨3, true⟩
          ∧ (deeds ++ next.diary later).count (.told (.historyReached 3)) = 1 := by
  intro context script world slow later
  have checked : (Script.interpret context script).toOption.any (fun interpretation =>
      let reached := start interpretation.timeline world .standard
      let before := reached.aboutToStep 16
      let next := Player.after (Player.tick slow 16) reached
      before.openJob == some ⟨3, false⟩ && reached.comesToSteps 16
        && ((next.diary later).all fun deed => !deed.arrives)
        && before.stepsLeft ⟨3, false⟩ == 1 + next.framesToSteps later) = true := by
    decide +kernel
  rcases Script.exists_interpretation checked with ⟨interpretation, interpreted, facts⟩
  simp only [Bool.and_eq_true, beq_iff_eq, List.all_eq_true, Bool.not_eq_true'] at facts
  rcases facts with ⟨⟨⟨given, comes⟩, arrivesNowhere⟩, enough⟩
  have goesOn : HostCall.reset ∉ later := by simp [later]
  rcases (afterCalls_computesHistory interpretation.timeline world .standard (by decide) []).1
    slow 16 ⟨3, false⟩ given comes with ⟨-, -, runs⟩
  rcases runs later goesOn arrivesNowhere with ⟨done, marked, told, reaches⟩
  obtain rfl : done = true := reaches (Int.le_of_eq enough)
  exact ⟨interpretation, interpreted, by decide, given, comes, goesOn, arrivesNowhere, enough,
    marked, told⟩

end Playback

end Showreel
