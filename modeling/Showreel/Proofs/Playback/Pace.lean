import Showreel.Proofs.Number.Ordered
import Showreel.Proofs.Playback.Regimes
import Showreel.Proofs.Playback.Work
import Showreel.Proofs.Script.RangedDrafts

/-!
Contract: the pace at which steps become due.

Owns:
- regimes whose pace is not negative, and that scripts have no others;
- that no call of a host whose time does not run backward makes the steps that are due fewer than
  none, or leaves a whole generation owed.

Does not own: which of the steps that are due a frame makes.
-/

namespace Showreel

open Number Scalar

variable {α : Type} [Scalar α]

/-! ### Regimes of scripts -/

/-- The regimes under which time makes no step less due. -/
def Regime.advances (regime : Regime α) : Prop :=
  0 ≤ regime.gps ∧ 0 ≤ regime.step

/-- The law that the pace is not negative. -/
def Law.advances (α : Type) [Scalar α] : Law α where
  field
    | .gps, gps => ∃ count : ℤ, 0 ≤ count ∧ ofInt count = .ok gps
    | .step, count => 0 ≤ count
    | _, _ => True
  speed _ := True
  start _ := True
  target _ := True

theorem Script.RangedWaypoint.advances {refreshRate : Int} (lively : 1 ≤ refreshRate)
    {waypoint : Waypoint α} (ranged : Script.RangedWaypoint refreshRate waypoint) :
    waypoint.Keeps (.advances α) := by
  apply ranged.mono
  · intro field value inRange
    cases field with
    | gps =>
        rcases inRange lively with ⟨count, low, high, converted⟩
        exact ⟨count, by omega, converted⟩
    | step => exact (by omega : (0 : ℤ) ≤ 1).trans inRange.1
    | _ => exact trivial
  · exact fun _ _ => trivial
  · exact fun _ _ => trivial
  · exact fun _ _ => trivial

variable [OrderedScalar α]

theorem Keyframe.advances_of_keeps {keyframe : Keyframe α}
    (keeps : keyframe.Keeps (.advances α)) : keyframe.regime.advances := by
  obtain ⟨count, nonneg, converted⟩ : ∃ count : ℤ, 0 ≤ count ∧ ofInt count = .ok keyframe.gps :=
    keeps.field .gps
  refine ⟨?_, keeps.field .step⟩
  show 0 ≤ keyframe.gps
  rw [eq_ofRat_of_ofInt converted]
  exact OrderedScalar.monotone le_rfl (mod_cast nonneg)

/-- **Every timeline of a script has a pace that is not negative**, if the refresh rate is at
least one. -/
theorem Script.interpret_advances {context : Context α} {text : String}
    {interpretation : Interpretation α} (lively : 1 ≤ context.settings.refreshRate)
    (done : interpret context text = .ok interpretation) :
    interpretation.timeline.Under Regime.advances := by
  have nonneg : 0 ≤ context.settings.refreshRate := by omega
  have allows : (Law.advances α).Allows context.settings.refreshRate :=
    ⟨Int.one_nonneg, fun _ pinned => ⟨_, nonneg, pinned⟩, trivial, trivial⟩
  have live : ∀ gps : α, (ofInt context.settings.refreshRate : Except Fault α) = .ok gps →
      (Keyframe.ofCamera context.camera gps 1).Keeps (.advances α) := by
    intro gps known
    refine ⟨fun field => ?_, trivial, trivial, trivial⟩
    cases field with
    | gps => exact ⟨_, nonneg, known⟩
    | step => exact Int.one_nonneg
    | _ => exact trivial
  have keeps := interpret_keeps allows (fun _ ranged => ranged.advances lively) live done
  rcases List.forall_mem_append.mp keeps with ⟨chain, pois⟩
  exact ⟨fun keyframe member => Keyframe.advances_of_keeps (chain keyframe member),
    fun poi member => Keyframe.advances_of_keeps (pois poi member)⟩

/-! ### What is due -/

/-- A call under which time does not run backward. -/
def HostCall.Forward : HostCall α → Prop
  | .tick _ delta => 0 ≤ delta
  | _ => True

namespace Playback

/-- Playback that owes no steps: none of them was made before it was due, and no whole generation
was taken before its time had passed. -/
structure OwesNothing (playback : Playback α) : Prop where
  pending : 0 ≤ playback.pending
  leftover : Leftover playback.accumulated

omit [OrderedScalar α] in
theorem OwesNothing.congr {playback other : Playback α} (owes : playback.OwesNothing)
    (pending : other.pending = playback.pending)
    (accumulated : other.accumulated = playback.accumulated) : other.OwesNothing :=
  ⟨pending ▸ owes.pending, accumulated ▸ owes.leftover⟩

omit [OrderedScalar α] in
theorem SameWork.owesNothing {before after : Playback α} (same : SameWork before after)
    (owes : before.OwesNothing) : after.OwesNothing :=
  owes.congr same.pending same.accumulated

theorem leftover_zero : Leftover (0 : α) := by
  intro exact stands
  have nothing : denotation (0 : α) = .finite ((0 : ℕ) : ℚ) := OrderedScalar.whole (by norm_num)
  cases nothing.symm.trans stands
  norm_num

theorem owesNothing_reset (playback : Playback α) : playback.reset.OwesNothing :=
  ⟨le_refl (0 : ℤ), leftover_zero⟩

theorem owesNothing_arrive {playback : Playback α} (owes : playback.OwesNothing)
    (poi : Keyframe α) : (playback.arrive poi).OwesNothing := by
  have acting : ∀ current : Playback α, current.OwesNothing →
      (current.acting poi.action).OwesNothing := by
    intro current owes
    cases poi.action <;> exact owes.congr rfl rfl
  have history : ∀ current : Playback α, current.OwesNothing →
      (current.withHistory poi.startGeneration).OwesNothing := by
    intro current owes
    unfold withHistory
    split <;> exact owes.congr rfl rfl
  rw [arrive_eq]
  apply history
  apply acting
  split
  · exact owesNothing_reset _
  · exact owes.congr rfl rfl

theorem Steered.owesNothing {before after : Playback α} {deeds : List Deed}
    (steered : Steered before deeds after) (owes : before.OwesNothing) : after.OwesNothing := by
  cases steered with
  | quiet same => exact same.owesNothing owes
  | tells deed arrives ofHistory same => exact same.owesNothing owes
  | arrives landed poi same => exact owesNothing_arrive (same.owesNothing owes) poi

theorem owesNothing_halt {playback halted : Playback α} (halting : playback.halt? = some halted)
    (leftover : Leftover playback.accumulated) : halted.OwesNothing := by
  rcases halt_cases halting with ⟨-, rfl⟩ | ⟨-, -, rfl⟩
  · exact ⟨le_refl (0 : ℤ), leftover⟩
  · exact owesNothing_reset _

/-- What owes nothing before owes nothing after. -/
def StaysPaid (before after : Playback α) : Prop :=
  before.OwesNothing → after.OwesNothing

omit [OrderedScalar α] in
instance : IsPreorder (Playback α) StaysPaid where
  refl _ owes := owes
  trans _ _ _ earlier later owes := later (earlier owes)

omit [OrderedScalar α] in
theorem StaysPaid.of_eq {before after : Playback α} (pending : after.pending = before.pending)
    (accumulated : after.accumulated = before.accumulated) : StaysPaid before after :=
  fun owes => owes.congr pending accumulated

omit [OrderedScalar α] in
theorem staysPaid_runHistory (clock : Nat → α) (playback : Playback α) (job : HistoryJob) :
    StaysPaid playback (playback.runHistory clock job).1 :=
  runHistory_within clock (fun _ => .of_eq rfl rfl) (fun _ => .of_eq rfl rfl)
    (fun _ _ _ => .of_eq rfl rfl) playback job

theorem staysPaid_runPending (clock : Nat → α) (playback : Playback α) :
    StaysPaid playback (playback.runPending clock).1 := by
  intro owes
  have ran : StaysPaid playback
      (burst clock halt? playback.dueSteps.toNat 0 playback).playback := by
    apply burst_within clock
    · exact fun _ => .of_eq rfl rfl
    · exact fun halting owes => owesNothing_halt halting owes.leftover
  have owesRun := ran owes
  rw [runPending_fst]
  generalize burst clock halt? playback.dueSteps.toNat 0 playback = run at owesRun
  have counted : run.counted.OwesNothing := ⟨le_max_left _ _, owesRun.leftover⟩
  unfold Burst.settled
  split
  · cases halting : run.counted.halt? with
    | none => exact counted
    | some halted => exact owesNothing_halt halting counted.leftover
  · exact ⟨le_refl (0 : ℤ), owesRun.leftover⟩

variable [CarryingScalar α]

omit [OrderedScalar α] in
/-- Whole generations can be taken out of all time that has a whole part. -/
theorem wholePart_of_collect_error {playback : Playback α} {fault : Fault}
    (collecting : playback.collect = .error fault) (whole : Int) :
    wholePart playback.accumulated ≠ .ok whole := by
  intro counted
  obtain ⟨taken, converted, -⟩ := CarryingScalar.taken counted
  unfold collect at collecting
  rw [counted] at collecting
  simp only [bind, Except.bind, converted] at collecting
  cases collecting

omit [OrderedScalar α] in
/-- The whole generations that are made due are never fewer than none, and a leftover remains. -/
theorem owesNothing_collect {playback : Playback α} {delta : α} (owes : playback.OwesNothing)
    (advances : playback.active.regime.advances) (forward : 0 ≤ delta) :
    match (playback.accumulate delta).collect with
    | .ok collected => collected.OwesNothing
    | .error _ => (playback.accumulate delta).OwesNothing := by
  cases collecting : (playback.accumulate delta).collect with
  | ok collected =>
      obtain ⟨whole, taken, counted, converted, rfl⟩ := collect_ok collecting
      obtain ⟨takenToo, convertedToo, leftover⟩ := CarryingScalar.taken counted
      cases converted.symm.trans convertedToo
      have nonneg : 0 ≤ whole := CarryingScalar.passed owes.leftover forward advances.1 counted
      have due : 0 ≤ whole * playback.active.step := mul_nonneg nonneg advances.2
      exact ⟨add_nonneg owes.pending due, leftover⟩
  | error fault =>
      refine ⟨owes.pending, ?_⟩
      intro exact stands
      -- a finite number has a whole part
      refine absurd ?_ (wholePart_of_collect_error collecting (truncate exact))
      unfold wholePart
      rw [stands]

theorem owesNothing_runSteps (clock : Nat → α) {delta : α} {playback : Playback α}
    (owes : playback.OwesNothing) (advances : playback.active.regime.advances)
    (forward : 0 ≤ delta) : (Player.after (Player.runSteps clock delta) playback).OwesNothing := by
  rw [Player.after_runSteps]
  cases playback.openJob with
  | some job => exact staysPaid_runHistory clock playback job owes
  | none =>
      dsimp only
      split
      · have collected := owesNothing_collect owes advances forward
        split
        · rename_i collecting
          rw [collecting] at collected
          exact staysPaid_runPending clock _ collected
        · rename_i collecting
          rw [collecting] at collected
          exact collected
      · exact staysPaid_runPending clock playback owes

variable [Transcendental α]

theorem owesNothing_perform {playback : Playback α} (owes : playback.OwesNothing)
    (under : playback.Under Regime.advances) (call : HostCall α) (forward : call.Forward) :
    (call.perform playback).OwesNothing := by
  cases call with
  | play | pause => exact owes.congr rfl rfl
  | reset => exact owesNothing_reset playback
  | goTo poi => exact (Player.goTo_steers poi playback).owesNothing owes
  | moveByHand camera => exact (Player.moveByHand_steers camera playback).owesNothing owes
  | tick clock delta =>
      have about := (playback.aboutToStep_steers delta).owesNothing owes
      have underToo : (playback.aboutToStep delta).Under Regime.advances :=
        Player.moveCamera_staysUnder _ (Player.passTime_staysUnder delta _ under)
      show (Player.after (Player.tick clock delta) playback).OwesNothing
      cases comes : playback.comesToSteps delta with
      | false => rwa [after_tick_of_not_comesToSteps comes]
      | true =>
          rcases after_tick_of_comesToSteps comes clock with
            ⟨camera, origin, locked, undelivered, ticked⟩
          rw [ticked]
          exact (owesNothing_runSteps clock about underToo.active forward).congr rfl rfl

/-- **Playback owes nothing, whatever the host does**, as long as its time does not run backward. -/
theorem owesNothing_afterCalls {playback : Playback α} (owes : playback.OwesNothing)
    (under : playback.Under Regime.advances) {calls : List (HostCall α)}
    (forward : ∀ call ∈ calls, call.Forward) : (playback.afterCalls calls).OwesNothing := by
  unfold afterCalls
  induction calls generalizing playback with
  | nil => exact owes
  | cons call rest inductionHypothesis =>
      rw [List.forall_mem_cons] at forward
      exact inductionHypothesis (owesNothing_perform owes under call forward.1)
        (staysUnder_perform playback call under) forward.2

omit [Transcendental α] [CarryingScalar α] in
theorem owesNothing_start (timeline : Timeline α) (world : World) (settings : ViewerSettings α) :
    (start timeline world settings).OwesNothing := by
  rcases exists_start timeline world settings with
    ⟨pasted, camera, active, poi, undelivered, started⟩
  rw [started]
  exact ⟨le_refl (0 : ℤ), leftover_zero⟩

end Playback

end Showreel
