import Showreel.Proofs.Playback.Halting
import Showreel.Proofs.Script.RangedDrafts

/-!
Contract: how far playback of a script goes under its stop and loop generations.

Owns:
- that no script has a stop or a loop at generation zero;
- that the diary of every playback of a script keeps to the limits, and that a frame which goes on
  leaves playback below them.

Does not own: which way playback takes below its limits.
-/

namespace Showreel

open Number Waypoint

variable {α : Type} [Scalar α]

/-- The law that a stop and a loop are off, or at a generation after the first. -/
def Law.positiveLimits (α : Type) : Law α where
  field
    | .stop, generation | .loop, generation => generation = -1 ∨ 1 ≤ generation
    | _, _ => True
  speed _ := True
  start _ := True
  target _ := True

theorem Keyframe.Limited.of_keeps {α : Type} {keyframe : Keyframe α}
    (keeps : keyframe.Keeps (.positiveLimits α)) : keyframe.Limited := by
  have stop : keyframe.stop = -1 ∨ 1 ≤ keyframe.stop := keeps.field .stop
  have loop : keyframe.loop = -1 ∨ 1 ≤ keyframe.loop := keeps.field .loop
  exact ⟨by omega, by omega⟩

theorem Script.RangedWaypoint.positiveLimits {refreshRate : Int} {waypoint : Waypoint α}
    (ranged : Script.RangedWaypoint refreshRate waypoint) :
    waypoint.Keeps (.positiveLimits α) := by
  apply ranged.mono
  · intro field value inRange
    cases field with
    | stop => exact inRange
    | loop => exact inRange
    | _ => exact trivial
  · exact fun _ _ => trivial
  · exact fun _ _ => trivial
  · exact fun _ _ => trivial

/-- Every timeline of a script is limited. -/
theorem Script.interpret_limited {context : Context α} {text : String}
    {interpretation : Interpretation α} (done : interpret context text = .ok interpretation) :
    interpretation.timeline.Limited := by
  have allows : (Law.positiveLimits α).Allows context.settings.refreshRate :=
    ⟨trivial, fun _ _ => trivial, trivial, trivial⟩
  have live : ∀ gps : α, (Scalar.ofInt context.settings.refreshRate : Except Fault α) = .ok gps →
      (Keyframe.ofCamera context.camera gps 1).Keeps (.positiveLimits α) := by
    intro gps known
    refine ⟨fun field => ?_, trivial, trivial, trivial⟩
    cases field with
    | stop => exact .inl rfl
    | loop => exact .inl rfl
    | _ => exact trivial
  have keeps := interpret_keeps allows (fun _ ranged => ranged.positiveLimits) live done
  rcases List.forall_mem_append.mp keeps with ⟨chain, pois⟩
  exact ⟨fun keyframe member => .of_keeps (chain keyframe member),
    fun poi member => .of_keeps (pois poi member)⟩

namespace Playback

variable [Transcendental α]

/-- **Playback of a script keeps to its limits.** The diary leads to the world. Every step for which
the time has come starts below the loop generation of the keyframe that is active, and below its stop
generation unless a stop stands; so does the next one after a frame that goes on and computes no
history; and between two stops there is a return or an arrival. -/
theorem afterCalls_withinLimits (context : Script.Context α) (text : String)
    (interpretation : Script.Interpretation α)
    (interpreted : Script.interpret context text = .ok interpretation) (world : World)
    (settings : ViewerSettings α) (calls : List (HostCall α)) :
    let playback := start interpretation.timeline world settings
    let diary := playback.diary calls
    let reached := playback.afterCalls calls
    let replayed := playback.world.replay interpretation.timeline.pastes
    reached.world = replayed diary
      ∧ (∀ earlier generation stop loop later,
          diary = earlier ++ .stepped generation stop loop :: later →
          (replayed earlier).generation = generation ∧ (0 ≤ loop → generation < loop)
            ∧ (0 ≤ stop → generation < stop ∨ StopStands earlier))
      ∧ (∀ clock delta result, Player.answer (Player.tick clock delta) reached = .ok result →
          result.events = reached.untold ++ (reached.frameDeeds clock delta).filterMap Deed.event?
            ∧ ((reached.aboutToStep delta).openJob = none →
              (Player.after (Player.tick clock delta) reached).playing = true →
              BelowLimits (StopStands (playback.diary (calls ++ [.tick clock delta])))
                (Player.after (Player.tick clock delta) reached)))
      ∧ ∀ earlier first between second later,
          diary = earlier ++ .told (.stopped first) :: between ++ .told (.stopped second) :: later →
          ∃ deed ∈ between, deed.renews = true := by
  intro playback diary reached replayed
  have limited : reached.Limited :=
    limited_afterCalls (Script.interpret_limited interpreted) world settings calls
  have records := fun calls => afterCalls_records
    (records_start interpretation.timeline world settings) calls
  have recorded := records calls
  rw [List.nil_append] at recorded
  refine ⟨recorded.reaches, ?steps, ?frames, ?stops⟩
  case steps =>
    intro earlier generation stop loop later split
    exact recorded.lawful earlier _ later split
  case frames =>
    intro clock delta result answered
    have delivered := reached.tick_delivers clock delta
    rw [answered] at delivered
    refine ⟨delivered.1, fun jobless playing => ?_⟩
    have going := halt_after_tick limited answered jobless playing
    have shown := records (calls ++ [.tick clock delta])
    rw [List.nil_append] at shown
    apply belowLimits_of_halt_eq_none going
    have ticked : playback.afterCalls (calls ++ [.tick clock delta])
        = Player.after (Player.tick clock delta) reached := by
      unfold afterCalls
      rw [List.foldl_append]
      rfl
    rw [← ticked]
    exact shown.stop.mp
  case stops =>
    intro earlier first between second later split
    have unfired := (recorded.lawful _ _ later split).2
    by_contra unrenewed
    apply unfired
    refine ⟨earlier, first, between, rfl, fun deed member => ?_⟩
    rw [← Bool.not_eq_true]
    exact fun renews => unrenewed ⟨deed, member, renews⟩

/-- A script with a stop below its loop, under a host that goes on after the stop. -/
theorem afterCalls_withinLimits_stop :
    let context : Script.Context Float := ⟨.standard, .standard, .standard⟩
    let script := "[[ AUTOSTART GPS 20 STOP 2 LOOP 4 PASTE 3o! ]]"
    let world := World.ofSize 16 (by decide) true
    let calls : List (HostCall Float) := [.tick (fun _ => 0) 200, .play, .tick (fun _ => 0) 300]
    ∃ interpretation, Script.interpret context script = .ok interpretation
      ∧ let playback := start interpretation.timeline world .standard
        let diary := playback.diary calls
        let reached := playback.afterCalls calls
        let replayed := playback.world.replay interpretation.timeline.pastes
        reached.world = replayed diary
          ∧ (∀ earlier generation stop loop later,
              diary = earlier ++ .stepped generation stop loop :: later →
              (replayed earlier).generation = generation ∧ (0 ≤ loop → generation < loop)
                ∧ (0 ≤ stop → generation < stop ∨ StopStands earlier))
          ∧ (∀ clock delta result,
              Player.answer (Player.tick clock delta) reached = .ok result →
              result.events
                  = reached.untold ++ (reached.frameDeeds clock delta).filterMap Deed.event?
                ∧ ((reached.aboutToStep delta).openJob = none →
                  (Player.after (Player.tick clock delta) reached).playing = true →
                  BelowLimits (StopStands (playback.diary (calls ++ [.tick clock delta])))
                    (Player.after (Player.tick clock delta) reached)))
          ∧ ∀ earlier first between second later, diary
              = earlier ++ .told (.stopped first) :: between ++ .told (.stopped second) :: later →
              ∃ deed ∈ between, deed.renews = true := by
  intro context script world calls
  have checked : (Script.interpret context script).toOption.any (fun _ => true) = true := by
    decide +kernel
  rcases Script.exists_interpretation checked with ⟨interpretation, interpreted, -⟩
  exact ⟨interpretation, interpreted,
    afterCalls_withinLimits context script interpretation interpreted world .standard calls⟩

end Playback

end Showreel
