import Showreel.Proofs.Playback.Pace

/-!
Contract: no generation is lost or invented between the time that passes and the steps that are
made.

Owns:
- the whole generations that a frame takes out of its time, and the steps that they make due;
- the report of a frame that keeps pace: it makes what is due, up to its limits, and the rest stays
  due;
- that steps made and steps due balance over any run of frames that nothing interrupts.

Does not own: the stops, loops, arrivals and jobs that interrupt a run.
-/

namespace Showreel

open Number Scalar

/-- Whether a deed is more than a step at its time, or word of the camera. -/
def Deed.interrupts : Deed → Bool
  | .stepped .. | .told .chainEnded | .told .blendBegan => false
  | _ => true

/-- The report of a frame that keeps pace with the steps that are due: it asks for these steps, up
to the limit of a frame, makes at least one of them and bails out where some are left. -/
structure KeepsPace (limit due : Int) (report : StepReport) : Prop where
  requested : report.requested = min due limit
  completed : (report.completed : Int) ≤ report.requested
  progress : 1 ≤ report.requested → 1 ≤ report.completed
  bailedOut : report.bailedOut = true ↔ (report.completed : Int) < report.requested

namespace World

theorem generation_advance (entries : List Paste.Entry) (world : World) :
    (world.advance entries).generation = world.generation + 1 := by
  unfold advance
  rw [Paste.Schedule.generation_apply, generation_step]

/-- Deeds that do not interrupt lead as many generations on as there are steps among them. -/
theorem generation_replay (entries : List Paste.Entry) (world : World) {diary : List Deed}
    (goesOn : ∀ deed ∈ diary, deed.interrupts = false) :
    (world.replay entries diary).generation = world.generation + diary.countP Deed.isStep := by
  unfold replay
  induction diary generalizing world with
  | nil => exact (add_zero _).symm
  | cons deed rest inductionHypothesis =>
      rw [List.forall_mem_cons] at goesOn
      rw [List.foldl_cons, inductionHypothesis _ goesOn.2]
      cases deed with
      | stepped =>
          rw [List.countP_cons_of_pos rfl, Deed.act, generation_advance]
          omega
      | told => rw [List.countP_cons_of_neg Bool.false_ne_true, Deed.act]
      | computed | returned | rewound => cases goesOn.1

end World

namespace Playback

variable {α : Type} [Scalar α]

/-! ### The steps of a frame -/

omit [Scalar α] in
theorem arrives_of_goesOn {deed : Deed} (goesOn : deed.interrupts = false) :
    deed.arrives = false := by
  cases deed with
  | told event => cases event <;> first | rfl | cases goesOn
  | _ => rfl

theorem halt_of_goesOn {playback : Playback α}
    (goesOn : ∀ deed ∈ playback.haltDeeds, deed.interrupts = false) : playback.halt? = none := by
  rw [halt_eq_none]
  unfold haltDeeds at goesOn
  constructor
  · by_contra stops
    rw [Bool.not_eq_false] at stops
    rw [if_pos stops] at goesOn
    cases goesOn _ List.mem_cons_self
  · by_contra loops
    rw [Bool.not_eq_false] at loops
    split at goesOn
    · cases goesOn _ List.mem_cons_self
    · cases goesOn _ List.mem_cons_self

/-- Where no deed interrupts, a burst that could be halted runs as one that could not. -/
theorem burst_of_goesOn (clock : Nat → α) (left completed : Nat) (playback : Playback α)
    (goesOn : ∀ deed ∈ burstDeeds clock halt? stepDeed left completed playback,
      deed.interrupts = false) :
    burst clock halt? left completed playback
      = burst clock (fun _ => none) left completed playback := by
  induction left generalizing completed playback with
  | zero => rfl
  | succ left inductionHypothesis =>
      unfold burstDeeds at goesOn
      unfold burst
      cases halting : playback.halt? with
      | some halted =>
          rw [halting] at goesOn
          rw [halt_of_goesOn goesOn] at halting
          cases halting
      | none =>
          rw [halting] at goesOn
          dsimp only at goesOn ⊢
          rw [List.forall_mem_cons] at goesOn
          by_cases late : (decide (0 < left)
            && overBudget clock playback.settings.frameBudget (completed + 1)) = true
          · rw [if_pos late, if_pos late]
          · rw [if_neg late] at goesOn ⊢
            rw [if_neg late]
            exact inductionHypothesis _ _ goesOn.2

/-- A frame of due steps that nothing interrupts makes some of them, and leaves the others due. -/
theorem runPending_of_goesOn (clock : Nat → α) {playback : Playback α}
    (pending : 0 ≤ playback.pending) (capped : 1 ≤ playback.settings.maxStepsPerTick)
    (playing : playback.playing = true)
    (goesOn : ∀ deed ∈ playback.pendingDeeds clock, deed.interrupts = false) :
    KeepsPace playback.settings.maxStepsPerTick playback.pending (playback.runPending clock).2
      ∧ ∃ world undelivered, (playback.runPending clock).1 = { playback with
          world := world
          undelivered := undelivered
          pending := playback.pending - (playback.runPending clock).2.completed } := by
  have due : playback.dueSteps = min playback.pending playback.settings.maxStepsPerTick := rfl
  unfold pendingDeeds at goesOn
  rw [List.forall_mem_append] at goesOn
  rcases goesOn with ⟨steps, settles⟩
  rcases burst_unhalted clock playback.dueSteps.toNat 0 playback with
    ⟨made, bounded, progress, ran⟩
  rw [← burst_of_goesOn clock _ _ _ steps, zero_add] at ran
  rcases iterate_stepOnce made playback with ⟨world, undelivered, stepped, -, -⟩
  rw [stepped] at ran
  have report : (playback.runPending clock).2
      = ⟨playback.dueSteps, made, decide (made < playback.dueSteps.toNat)⟩ := by
    change (⟨_, (burst clock halt? playback.dueSteps.toNat 0 playback).completed,
      (burst clock halt? playback.dueSteps.toNat 0 playback).bailedOut⟩ : StepReport) = _
    rw [ran]
    rfl
  rw [report]
  refine ⟨⟨due, ?_, ?_, ?_⟩, world, undelivered, ?_⟩
  · dsimp only
    omega
  · dsimp only
    omega
  · dsimp only
    rw [decide_eq_true_iff]
    omega
  · rw [ran] at settles
    have plays : (Burst.counted (⟨{ playback with world := world, undelivered := undelivered },
      made, decide (made < playback.dueSteps.toNat)⟩ : Burst α)).playing = true := playing
    rw [if_pos plays] at settles
    rw [runPending_fst, ran, Burst.settled, if_pos plays, halt_of_goesOn settles, Option.getD_none,
      Burst.counted]
    dsimp only
    rw [max_eq_right (by omega)]

/-- Playback goes on, and the steps that were made balance with those that were made due. -/
structure Balances (before after : Playback α) (made due : Int) : Prop where
  playing : after.playing = true
  idle : after.openJob = none
  settings : after.settings = before.settings
  balance : made + after.pending = before.pending + due

theorem Balances.trans {first second third : Playback α} {made due madeToo dueToo : Int}
    (earlier : Balances first second made due) (later : Balances second third madeToo dueToo) :
    Balances first third (made + madeToo) (due + dueToo) := by
  refine ⟨later.playing, later.idle, later.settings.trans earlier.settings, ?_⟩
  have balance := earlier.balance
  have balanceToo := later.balance
  omega

/-- The whole generations in the time that has passed. -/
def wholeGenerations (playback : Playback α) (delta : α) : Int :=
  (wholePart (playback.accumulate delta).accumulated).toOption.getD 0

section Carrying

variable [CarryingScalar α]

/-- Gathering the time that has passed takes its whole generations out of it and makes their steps
due, and where that fails there are none. -/
theorem collect_wholeGenerations (playback : Playback α) (delta : α) :
    match (playback.accumulate delta).collect with
    | .ok collected =>
        ∃ generations, ofInt (playback.wholeGenerations delta) = .ok generations
          ∧ collected = { playback with
              accumulated := (playback.accumulate delta).accumulated - generations
              pending := playback.pending
                + playback.wholeGenerations delta * playback.active.step }
    | .error _ => playback.wholeGenerations delta = 0 := by
  unfold wholeGenerations
  cases collecting : (playback.accumulate delta).collect with
  | ok collected =>
      obtain ⟨whole, taken, counted, converted, rfl⟩ := collect_ok collecting
      rw [counted]
      exact ⟨taken, converted, rfl⟩
  | error fault =>
      cases counted : wholePart (playback.accumulate delta).accumulated with
      | error fault => rfl
      | ok whole => exact absurd counted (wholePart_of_collect_error collecting whole)

/-- The steps of a frame that nothing interrupts balance, and its report keeps pace. -/
theorem runSteps_balances {clock : Nat → α} {delta : α} {playback : Playback α}
    (owes : playback.OwesNothing) (advances : playback.active.regime.advances)
    (forward : 0 ≤ delta) (capped : 1 ≤ playback.settings.maxStepsPerTick)
    (playing : playback.playing = true) (idle : playback.openJob = none)
    (goesOn : ∀ deed ∈ playback.runDeeds clock delta, deed.interrupts = false) :
    let due := playback.wholeGenerations delta * playback.active.step
    let next := Player.after (Player.runSteps clock delta) playback
    Balances playback next ((playback.runDeeds clock delta).countP Deed.isStep) due
      ∧ ∀ report, Player.answer (Player.runSteps clock delta) playback = .ok report →
        KeepsPace playback.settings.maxStepsPerTick (playback.pending + due) report
          ∧ ∃ generations, ofInt (playback.wholeGenerations delta) = .ok generations
            ∧ next.accumulated = (playback.accumulate delta).accumulated - generations := by
  intro due next
  have paid := owesNothing_collect owes advances forward
  have gathers := playback.collect_wholeGenerations delta
  have stepped : next = _ := Player.after_runSteps clock delta playback
  have answer := Player.answer_runSteps clock delta playback
  unfold runDeeds at goesOn ⊢
  rw [idle] at goesOn stepped answer ⊢
  dsimp only at goesOn stepped answer ⊢
  rw [if_pos playing] at goesOn stepped answer ⊢
  cases collecting : (playback.accumulate delta).collect with
  | error fault =>
      rw [collecting] at stepped answer gathers
      have nothing : due = 0 := mul_eq_zero_of_left gathers _
      refine ⟨?_, fun report answered => nomatch answer.symm.trans answered⟩
      rw [stepped, nothing]
      exact ⟨playing, idle, rfl, (zero_add _).trans (add_zero _).symm⟩
  | ok collected =>
      rw [collecting] at goesOn stepped answer paid gathers
      rcases gathers with ⟨generations, converted, rfl⟩
      rcases runPending_of_goesOn clock paid.pending capped playing goesOn with
        ⟨keeps, world, undelivered, ran⟩
      rw [stepped]
      dsimp only
      rw [ran]
      refine ⟨⟨playing, idle, rfl, ?_⟩, ?_⟩
      · rw [← countP_pendingDeeds]
        exact add_sub_cancel _ _
      · intro report answered
        cases answer.symm.trans answered
        exact ⟨keeps, generations, converted, rfl⟩

end Carrying

variable [Transcendental α]

/-- The whole generations that a frame takes out of the time that has passed. -/
def taken (playback : Playback α) (delta : α) : Int :=
  if playback.comesToSteps delta then (playback.aboutToStep delta).wholeGenerations delta else 0

/-- The steps that a frame makes due: the generations that it takes, at the step of the active
keyframe. -/
def dueIn (playback : Playback α) (delta : α) : Int :=
  playback.taken delta * (playback.aboutToStep delta).active.step

/-- The steps that frames make due. -/
def dueOver (playback : Playback α) : List ((Nat → α) × α) → Int
  | [] => 0
  | (clock, delta) :: rest =>
      playback.dueIn delta + dueOver (Player.after (Player.tick clock delta) playback) rest

variable [CarryingScalar α]

/-- **A frame that nothing interrupts balances**, and where it is shown its report keeps pace. -/
theorem tick_balances {clock : Nat → α} {delta : α} {playback : Playback α}
    (owes : playback.OwesNothing) (under : playback.Under Regime.advances) (forward : 0 ≤ delta)
    (capped : 1 ≤ playback.settings.maxStepsPerTick) (playing : playback.playing = true)
    (idle : playback.openJob = none)
    (goesOn : ∀ deed ∈ playback.frameDeeds clock delta, deed.interrupts = false) :
    let next := Player.after (Player.tick clock delta) playback
    Balances playback next ((playback.frameDeeds clock delta).countP Deed.isStep)
        (playback.dueIn delta)
      ∧ ∀ result, Player.answer (Player.tick clock delta) playback = .ok result →
        KeepsPace playback.settings.maxStepsPerTick (playback.pending + playback.dueIn delta)
            result.steps
          ∧ ∃ generations, ofInt (playback.taken delta) = .ok generations
            ∧ next.accumulated = playback.accumulated
              + delta * (playback.aboutToStep delta).active.gps / 1000 - generations := by
  intro next
  rw [frameDeeds_eq] at goesOn ⊢
  rw [List.forall_mem_append] at goesOn
  rcases goesOn with ⟨moves, steps⟩
  have same : SameWork playback (playback.aboutToStep delta) :=
    (playback.aboutToStep_steers delta).sameWork fun deed member =>
      arrives_of_goesOn (moves deed member)
  have underToo : (playback.aboutToStep delta).Under Regime.advances :=
    Player.moveCamera_staysUnder _ (Player.passTime_staysUnder delta _ under)
  rw [List.countP_append, countP_cameraDeeds, Nat.zero_add]
  unfold dueIn taken
  cases comes : playback.comesToSteps delta with
  | false =>
      have stays : next = playback.aboutToStep delta := after_tick_of_not_comesToSteps comes clock
      rw [if_neg Bool.false_ne_true, if_neg Bool.false_ne_true, stays]
      refine ⟨⟨same.playing.trans playing, same.openJob.trans idle, same.settings, ?_⟩, ?_⟩
      · rw [same.pending, zero_mul]
        exact (zero_add _).trans (add_zero _).symm
      · intro result shown
        cases comes.symm.trans (answer_runSteps_of_shown shown).1
  | true =>
      rw [comes, if_pos rfl] at steps
      rw [if_pos rfl, if_pos rfl]
      rcases runSteps_balances (same.owesNothing owes) underToo.active forward
        (same.settings ▸ capped) (same.playing.trans playing) (same.openJob.trans idle) steps with
        ⟨balances, reports⟩
      rcases after_tick_of_comesToSteps comes clock with
        ⟨camera, origin, locked, undelivered, ticked⟩
      have shownAs : next = _ := ticked
      rw [same.pending, same.settings] at reports
      refine ⟨⟨?_, ?_, ?_, ?_⟩, ?_⟩
      · rw [shownAs]
        exact balances.playing
      · rw [shownAs]
        exact balances.idle
      · rw [shownAs]
        exact balances.settings.trans same.settings
      · rw [shownAs, ← same.pending]
        exact balances.balance
      · intro result shown
        rcases reports _ (answer_runSteps_of_shown shown).2 with
          ⟨keeps, generations, converted, carried⟩
        refine ⟨keeps, generations, converted, ?_⟩
        rw [shownAs, ← same.accumulated]
        exact carried

/-! ### Runs of frames -/

variable [OrderedScalar α]

/-- **Runs of frames balance**, as long as nothing interrupts them. -/
theorem afterFrames_balances {playback : Playback α} (owes : playback.OwesNothing)
    (under : playback.Under Regime.advances) (capped : 1 ≤ playback.settings.maxStepsPerTick)
    (playing : playback.playing = true) (idle : playback.openJob = none)
    {frames : List ((Nat → α) × α)} (forward : ∀ frame ∈ frames, 0 ≤ frame.2)
    (goesOn : ∀ deed ∈ playback.diary (frames.map fun frame => .tick frame.1 frame.2),
      deed.interrupts = false) :
    Balances playback (playback.afterFrames frames)
      ((playback.diary (frames.map fun frame => .tick frame.1 frame.2)).countP Deed.isStep)
      (playback.dueOver frames) := by
  induction frames generalizing playback with
  | nil => exact ⟨playing, idle, rfl, (zero_add _).trans (add_zero _).symm⟩
  | cons frame rest inductionHypothesis =>
      rw [List.map_cons, diary, List.forall_mem_append] at goesOn
      rw [List.forall_mem_cons] at forward
      have first := (tick_balances owes under forward.1 capped playing idle goesOn.1).1
      have owesToo := owesNothing_perform owes under (.tick frame.1 frame.2) forward.1
      have underToo := staysUnder_perform playback (.tick frame.1 frame.2) under
      have later := inductionHypothesis owesToo underToo (first.settings ▸ capped) first.playing
        first.idle forward.2 goesOn.2
      rw [List.map_cons, diary, List.countP_append, Nat.cast_add]
      exact first.trans later

/-- The steps that frames make. -/
def stepsOver (playback : Playback α) (frames : List ((Nat → α) × α)) : Nat :=
  (playback.diary (frames.map fun frame => .tick frame.1 frame.2)).countP Deed.isStep

/-- Frames that keep pace. The steps that they make and those that are due at their end are those
that were due at their beginning and those that their time makes due; the world advances by the
steps that are made; and every frame that is shown keeps pace, takes out of its time the whole
generations that it makes due, and counts its steps. -/
structure Paced (limit : Int) (begun : Playback α) (frames : List ((Nat → α) × α)) : Prop where
  balance : begun.stepsOver frames + (begun.afterFrames frames).pending
    = begun.pending + begun.dueOver frames
  generation : (begun.afterFrames frames).world.generation
    = begun.world.generation + begun.stepsOver frames
  shown : ∀ earlier clock delta later, frames = earlier ++ (clock, delta) :: later →
    let before := begun.afterFrames earlier
    let next := Player.after (Player.tick clock delta) before
    ∀ result, Player.answer (Player.tick clock delta) before = .ok result →
      KeepsPace limit (before.pending + before.dueIn delta) result.steps
        ∧ result.steps.completed = (before.frameDeeds clock delta).countP Deed.isStep
        ∧ ∃ generations, ofInt (before.taken delta) = .ok generations
          ∧ next.accumulated = before.accumulated
            + delta * (before.aboutToStep delta).active.gps / 1000 - generations

/-- **Frames that nothing interrupts keep pace**, from any playback that owes nothing. -/
theorem OwesNothing.paced {playback : Playback α} (owes : playback.OwesNothing)
    (under : playback.Under Regime.advances) (capped : 1 ≤ playback.settings.maxStepsPerTick)
    (playing : playback.playing = true) (idle : playback.openJob = none)
    {frames : List ((Nat → α) × α)} (forward : ∀ frame ∈ frames, 0 ≤ frame.2)
    (goesOn : ∀ deed ∈ playback.diary (frames.map fun frame => .tick frame.1 frame.2),
      deed.interrupts = false) :
    Paced playback.settings.maxStepsPerTick playback frames where
  balance := (afterFrames_balances owes under capped playing idle forward goesOn).balance
  generation := by
    unfold afterFrames
    rw [afterCalls_replay, World.generation_replay _ _ goesOn]
    rfl
  shown := by
    intro earlier clock delta later split before next result shown
    rw [split, List.map_append, diary_append, List.map_cons, diary, List.forall_mem_append,
      List.forall_mem_append] at goesOn
    rw [split, List.forall_mem_append, List.forall_mem_cons] at forward
    have sofar := afterFrames_balances owes under capped playing idle forward.1 goesOn.1
    have owesToo : before.OwesNothing := by
      apply owesNothing_afterCalls owes under
      rw [List.forall_mem_map]
      exact forward.1
    have underToo : before.Under Regime.advances :=
      afterCalls_keeps _ (fun playback call => staysUnder_perform playback call) _ _ under
    have frame := tick_balances owesToo underToo forward.2.1 (sofar.settings ▸ capped)
      sofar.playing sofar.idle goesOn.2.1
    obtain ⟨keeps, carried⟩ := frame.2 result shown
    rw [sofar.settings] at keeps
    exact ⟨keeps, tick_counts shown, carried⟩

/-- A host whose time does not run backward leads a timeline whose keyframes advance to playback
that owes nothing. -/
theorem owesNothing_reached {timeline : Timeline α} (advances : timeline.Under Regime.advances)
    (world : World) (settings : ViewerSettings α) {calls : List (HostCall α)}
    (forward : ∀ call ∈ calls, call.Forward) :
    let reached := (start timeline world settings).afterCalls calls
    reached.OwesNothing ∧ reached.Under Regime.advances ∧ reached.settings = settings := by
  refine ⟨?_, under_afterCalls advances world settings calls, ?_⟩
  · have under := under_start advances world settings
    exact owesNothing_afterCalls (owesNothing_start ..) under forward
  · obtain ⟨pasted, camera, active, poi, undelivered, started⟩ :=
      exists_start timeline world settings
    rw [settings_afterCalls, started]

/-- **Pacing loses no generation and invents none.** From wherever a timeline whose keyframes
advance has been played to, by a host whose time does not run backward, any frames that no stop,
loop, return, arrival or job of history interrupts keep pace. -/
theorem afterFrames_keepPace {timeline : Timeline α} (advances : timeline.Under Regime.advances)
    (world : World) (settings : ViewerSettings α) (capped : 1 ≤ settings.maxStepsPerTick)
    (calls : List (HostCall α)) (forward : ∀ call ∈ calls, call.Forward)
    (frames : List ((Nat → α) × α)) (forwardToo : ∀ frame ∈ frames, 0 ≤ frame.2)
    (playing : ((start timeline world settings).afterCalls calls).playing = true)
    (idle : ((start timeline world settings).afterCalls calls).openJob = none)
    (goesOn : ∀ deed ∈ ((start timeline world settings).afterCalls calls).diary
      (frames.map fun frame => .tick frame.1 frame.2), deed.interrupts = false) :
    Paced settings.maxStepsPerTick ((start timeline world settings).afterCalls calls) frames := by
  obtain ⟨owes, under, ruled⟩ := owesNothing_reached advances world settings forward
  have paced := owes.paced under (by rwa [ruled]) playing idle forwardToo goesOn
  rwa [ruled] at paced

/-- Steps of three generations under a clock that lets some frames make no more than one step. -/
theorem afterFrames_keepPace_slow :
    let context : Script.Context Float := ⟨.standard, .standard, .standard⟩
    let script := "[[ AUTOSTART STEP 3 PASTE 3o! ]]"
    let world := World.ofSize 8 (by decide) true
    let slow : Nat → Float := fun reading => reading.toFloat
    let calls : List (HostCall Float) := [.tick slow 40]
    let frames : List ((Nat → Float) × Float) := [(slow, 30), (fun _ => 0, 20), (slow, 60)]
    ∃ interpretation, Script.interpret context script = .ok interpretation
      ∧ interpretation.timeline.Under Regime.advances
      ∧ 1 ≤ (ViewerSettings.standard : ViewerSettings Float).maxStepsPerTick
      ∧ (∀ call ∈ calls, call.Forward) ∧ (∀ frame ∈ frames, 0 ≤ frame.2)
      ∧ let reached := (start interpretation.timeline world .standard).afterCalls calls
        let diary := reached.diary (frames.map fun frame => .tick frame.1 frame.2)
        reached.playing = true ∧ reached.openJob = none
          ∧ (∀ deed ∈ diary, deed.interrupts = false)
          ∧ (diary.countP Deed.isStep : Int) + (reached.afterFrames frames).pending
            = reached.pending + reached.dueOver frames
          ∧ reached.dueOver frames = 21
          ∧ (reached.afterFrames frames).world.generation
            = reached.world.generation + diary.countP Deed.isStep := by
  intro context script world slow calls frames
  have checked : (Script.interpret context script).toOption.any (fun interpretation =>
      let reached := (start interpretation.timeline world .standard).afterCalls calls
      reached.playing && reached.openJob.isNone
        && ((reached.diary (frames.map fun frame => .tick frame.1 frame.2)).all fun deed =>
          !deed.interrupts)
        && reached.dueOver frames == 21) = true := by
    decide +kernel
  rcases Script.exists_interpretation checked with ⟨interpretation, interpreted, facts⟩
  simp only [Bool.and_eq_true, beq_iff_eq, List.all_eq_true, Bool.not_eq_true',
    Option.isNone_iff_eq_none] at facts
  rcases facts with ⟨⟨⟨playing, idle⟩, goesOn⟩, due⟩
  have lively : 1 ≤ context.settings.refreshRate := by decide
  have advances := Script.interpret_advances lively interpreted
  have capped : 1 ≤ (ViewerSettings.standard : ViewerSettings Float).maxStepsPerTick := by decide
  have forward : ∀ call ∈ calls, call.Forward :=
    List.forall_mem_singleton.mpr (show (0 : Float) ≤ 40 by decide +kernel)
  have forwardToo : ∀ frame ∈ frames, 0 ≤ frame.2 := by decide +kernel
  have paced := afterFrames_keepPace advances world .standard capped calls forward frames forwardToo
    playing idle goesOn
  exact ⟨interpretation, interpreted, advances, capped, forward, forwardToo, playing, idle, goesOn,
    paced.balance, due, paced.generation⟩

/-- Every script is paced so: its keyframes advance wherever the view can be shown at all. -/
theorem interpret_paced {context : Script.Context α} {text : String}
    {interpretation : Script.Interpretation α} (lively : 1 ≤ context.settings.refreshRate)
    (interpreted : Script.interpret context text = .ok interpretation) (world : World)
    {settings : ViewerSettings α} (capped : 1 ≤ settings.maxStepsPerTick)
    {calls : List (HostCall α)} (forward : ∀ call ∈ calls, call.Forward)
    {frames : List ((Nat → α) × α)} (forwardToo : ∀ frame ∈ frames, 0 ≤ frame.2)
    (playing : ((start interpretation.timeline world settings).afterCalls calls).playing = true)
    (idle : ((start interpretation.timeline world settings).afterCalls calls).openJob = none)
    (goesOn : ∀ deed ∈ ((start interpretation.timeline world settings).afterCalls calls).diary
      (frames.map fun frame => .tick frame.1 frame.2), deed.interrupts = false) :
    Paced settings.maxStepsPerTick
      ((start interpretation.timeline world settings).afterCalls calls) frames := by
  have advances := Script.interpret_advances lively interpreted
  obtain ⟨owes, under, ruled⟩ := owesNothing_reached advances world settings forward
  have paced := owes.paced under (by rwa [ruled]) playing idle forwardToo goesOn
  rwa [ruled] at paced

end Playback

end Showreel
