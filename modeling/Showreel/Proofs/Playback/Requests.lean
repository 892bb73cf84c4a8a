import Showreel.Proofs.Playback.Journeys

/-!
Contract: which of several points of interest is arrived at.

Owns:
- what the calls that ask for no point of interest leave of what was asked for;
- the arrivals that frames tell of between one request and the next;
- when only the place of the latest request is arrived at.

Does not own: the frames of a journey.
-/

namespace Showreel

open Number

/-- Whether a call asks for a point of interest. -/
def HostCall.requests {α : Type} : HostCall α → Bool
  | .goTo _ => true
  | _ => false

namespace Playback

variable {α : Type} [Scalar α]

/-- Playback that has gone on from another without a request: what was asked for last is the same,
and a journey is that of the other one. -/
structure GoesOn (before after : Playback α) : Prop where
  timeline : after.timeline = before.timeline
  poi : after.poi = before.poi
  journey : ∀ journey, after.journey = some journey →
    ∃ begun, before.journey = some begun ∧ begun.poi = journey.poi

theorem GoesOn.of_eq {before after : Playback α} (timeline : after.timeline = before.timeline)
    (poi : after.poi = before.poi) (journey : after.journey = before.journey) :
    GoesOn before after :=
  ⟨timeline, poi, fun _ underway => ⟨_, journey ▸ underway, rfl⟩⟩

instance : IsPreorder (Playback α) GoesOn where
  refl _ := .of_eq rfl rfl rfl
  trans first second third earlier later := by
    refine ⟨later.timeline.trans earlier.timeline, later.poi.trans earlier.poi, ?_⟩
    intro journey underway
    obtain ⟨between, goesOn, sameEnd⟩ := later.journey journey underway
    obtain ⟨begun, begins, sameBeginning⟩ := earlier.journey between goesOn
    exact ⟨begun, begins, sameBeginning.trans sameEnd⟩

theorem KeepsCourse.goesOn {before after : Playback α} (kept : KeepsCourse before after) :
    GoesOn before after :=
  .of_eq kept.timeline kept.poi kept.journey

end Playback

/-! ### Calls without a request -/

namespace Player

open Playback

variable {α : Type} [Scalar α] [Transcendental α]

theorem travel_goesOn {playback : Playback α} {journey : Journey α}
    (underway : playback.journey = some journey) :
    GoesOn playback (after (travel journey) playback) := by
  rw [after_travel]
  split
  · have arrived := arrive_view { playback with journey := none }
      (poiAt playback.timeline journey.poi)
    refine ⟨arrived.timeline, arrived.poi, fun next underwayToo => ?_⟩
    rw [arrived.journey] at underwayToo
    cases underwayToo
  · exact ⟨rfl, rfl, fun next onward => ⟨journey, underway, Option.some.inj onward ▸ rfl⟩⟩

theorem followChain_goesOn : Within (GoesOn (α := α)) followChain := by
  intro playback
  rw [after_followChain]
  split
  · exact refl playback
  · split
    · exact .of_eq rfl rfl rfl
    · dsimp only
      split <;> exact .of_eq rfl rfl rfl

theorem moveCamera_goesOn : Within (GoesOn (α := α)) moveCamera := by
  intro playback
  rw [after_moveCamera]
  cases underway : playback.journey with
  | some journey => exact travel_goesOn underway
  | none =>
      dsimp only
      split
      · split
        · exact followChain_goesOn playback
        · exact refl playback
      · rw [after_fitCamera]
        split
        · exact .of_eq rfl rfl rfl
        · exact refl playback

theorem moveByHand_goesOn (camera : Camera α) : Within GoesOn (moveByHand camera) := by
  intro playback
  rw [after_moveByHand]
  split
  · split <;> exact .of_eq rfl rfl rfl
  · exact .of_eq rfl rfl rfl

theorem tick_goesOn (clock : Nat → α) (delta : α) : Within GoesOn (tick clock delta) := by
  intro playback
  obtain ⟨elapsed, timed⟩ := exists_after_passTime delta playback
  have passes : GoesOn playback (after (passTime delta) playback) := by
    rw [timed]
    exact .of_eq rfl rfl rfl
  have moves : GoesOn playback (playback.aboutToStep delta) :=
    IsTrans.trans _ _ _ passes (moveCamera_goesOn _)
  exact IsTrans.trans _ _ _ moves (tick_keepsCourse clock delta playback).goesOn

end Player

namespace Playback

variable {α : Type} [Scalar α] [Transcendental α]

/-- A call that asks for no point of interest leaves playback with what was asked for. -/
theorem perform_goesOn (playback : Playback α) {call : HostCall α} (asks : call.requests = false) :
    GoesOn playback (call.perform playback) := by
  cases call with
  | play | pause => exact .of_eq rfl rfl rfl
  | reset => exact (keepsView_reset playback).course.goesOn
  | goTo place => cases asks
  | moveByHand camera => exact Player.moveByHand_goesOn camera playback
  | tick clock delta => exact Player.tick_goesOn clock delta playback

theorem afterCalls_goesOn (playback : Playback α) {calls : List (HostCall α)}
    (unasked : ∀ call ∈ calls, call.requests = false) :
    GoesOn playback (playback.afterCalls calls) := by
  induction calls generalizing playback with
  | nil => exact refl playback
  | cons call rest inductionHypothesis =>
      rw [List.forall_mem_cons] at unasked
      exact IsTrans.trans _ _ _ (perform_goesOn playback unasked.1)
        (inductionHypothesis (call.perform playback) unasked.2)

/-! ### The latest request -/

omit [Transcendental α] in
/-- A call for a point of interest that has an answer is for that point from then on; one that
arrives at once leaves the journey that was under way. -/
theorem goTo_asked {playback : Playback α} {index : Nat}
    (asked : Player.answer (Player.goTo index) playback = .ok ()) :
    let headed := Player.after (Player.goTo index) playback
    headed.timeline = playback.timeline ∧ headed.poi = some index
      ∧ if (poiAt playback.timeline index).speed = 0 then headed.journey = playback.journey
        else ∃ journey, headed.journey = some journey ∧ journey.poi = index := by
  rw [answer_goTo, Int.toNat_natCast] at asked
  rw [Player.after_goTo, Int.toNat_natCast]
  split at asked
  · cases asked
  · rename_i valid
    rw [if_neg valid]
    dsimp only
    split at asked
    · rename_i atOnce
      rw [if_pos atOnce, if_pos atOnce]
      have arrived := arrive_view { playback with poi := some index }
        (poiAt playback.timeline index)
      exact ⟨arrived.timeline, arrived.poi, arrived.journey⟩
    · rename_i slow
      rw [if_neg slow, if_neg slow]
      obtain ⟨journey, begun, -⟩ := map_eq_ok asked
      rw [begun]
      exact ⟨rfl, rfl, journey, rfl, (journeyTo_eq_ok begun).1⟩

/-- A journey that is under way arrives, if frames follow and nothing else is asked for. -/
theorem exists_landing {playback : Playback α} {journey : Journey α}
    (underway : playback.journey = some journey) :
    ∃ frames, (playback.afterFrames frames).landing? = some journey.poi := by
  obtain ⟨left, positive, ends⟩ := exists_reaches journey.timed journey.frame
  -- all frames of the journey but the last one
  let frames : List ((Nat → α) × α) := List.replicate (left - 1) (fun _ => 0, 0)
  have count : frames.length = left - 1 := List.length_replicate
  have arrives := underway_afterFrames underway frames fun made within lands => by
    have comes := (ends made).mp lands
    omega
  have near : journey.endsAt (journey.frame + frames.length + 1) = true :=
    (ends frames.length).mpr (by omega)
  have lands := landing?_of_near arrives.journey near
  exact ⟨frames, lands⟩

/-- **Only the place of the latest request is arrived at exactly if the request is for a journey, or
no journey to another place is under way when it is made.** Whatever the host does but ask again, a
frame hands over the news of an arrival where it arrives, and news that waited; and where it arrives
it ends the journey and stands at its place. -/
theorem arrivesOnlyAt_iff (playback : Playback α) {index : Nat}
    (asked : Player.answer (Player.goTo index) playback = .ok ()) :
    let headed := Player.after (Player.goTo index) playback
    (∀ later, (∀ call ∈ later, HostCall.requests call = false) → ∀ clock delta,
        let current := headed.afterCalls later
        let next := Player.after (Player.tick clock delta) current
        (∀ result, Player.answer (Player.tick clock delta) current = .ok result →
            Event.arrivals result.events = Event.arrivals current.untold
              ++ current.landing?.toList.map fun _ => .arrived index)
          ∧ ∀ place, current.landing? = some place →
            next.journey = none ∧ next.active = poiAt playback.timeline place)
      ∧ ((∀ later, (∀ call ∈ later, HostCall.requests call = false) →
            ∀ place, (headed.afterCalls later).landing? = some place → place = index)
          ↔ (poiAt playback.timeline index).speed ≠ 0
            ∨ ∀ journey, playback.journey = some journey → journey.poi = index) := by
  intro headed
  obtain ⟨timeline, wanted, heading⟩ := goTo_asked asked
  refine ⟨fun later unasked clock delta => ?news, fun only => ?kept,
    fun either later unasked => ?only⟩
  case news =>
    have goesOn := afterCalls_goesOn headed unasked
    have wantedStill : (headed.afterCalls later).poi = some index := goesOn.poi.trans wanted
    refine ⟨fun result shown => ?_, fun place lands => ?_⟩
    · rw [arrivals_shown clock delta shown, wantedStill]
      rfl
    · obtain ⟨journey, underway, rfl, near⟩ := landing?_eq_some lands
      obtain ⟨-, -, ended, active, -⟩ := tick_lands clock delta underway near
      refine ⟨ended, ?_⟩
      rw [active (wantedStill ▸ Option.some_ne_none index), goesOn.timeline, timeline]
  case kept =>
    refine or_iff_not_imp_left.mpr fun atOnce journey underway => ?_
    rw [Decidable.not_not] at atOnce
    rw [if_pos atOnce] at heading
    obtain ⟨frames, lands⟩ := exists_landing (heading.trans underway)
    refine only _ (fun call ticks => ?_) _ lands
    obtain ⟨frame, -, rfl⟩ := List.mem_map.mp ticks
    rfl
  case only =>
    intro place lands
    obtain ⟨journey, underway, rfl, -⟩ := landing?_eq_some lands
    obtain ⟨begun, begins, same⟩ := (afterCalls_goesOn headed unasked).journey journey underway
    rw [← same]
    split at heading
    · rename_i atOnce
      exact either.resolve_left (not_not_intro atOnce) begun (heading ▸ begins)
    · obtain ⟨journey, set, heads⟩ := heading
      rw [set] at begins
      exact Option.some.inj begins ▸ heads

/-- A journey that replaces another one. -/
theorem arrivesOnlyAt_iff_replaced :
    let context : Script.Context Float := ⟨.standard, .standard, .standard⟩
    let script := "[[ POI X 1 POITRANS 5 POI X 9 POITRANS 2 ]]"
    let world := World.ofSize 8 (by decide) true
    ∃ interpretation, Script.interpret context script = .ok interpretation
      ∧ let reached := (start interpretation.timeline world .standard).afterCalls [.goTo 0]
        reached.journey.map Journey.poi = some 0
          ∧ Player.answer (Player.goTo 1) reached = .ok ()
          ∧ ∀ later, (∀ call ∈ later, HostCall.requests call = false) → ∀ place,
            ((Player.after (Player.goTo 1) reached).afterCalls later).landing? = some place →
              place = 1 := by
  intro context script world
  have checked : (Script.interpret context script).toOption.any (fun interpretation =>
      let reached := (start interpretation.timeline world .standard).afterCalls [.goTo 0]
      reached.journey.map Journey.poi == some 0 && (Player.answer (Player.goTo 1) reached).isOk
        && (poiAt reached.timeline 1).speed != 0) = true := by
    decide +kernel
  obtain ⟨interpretation, interpreted, facts⟩ := Script.exists_interpretation checked
  simp only [Bool.and_eq_true, beq_iff_eq, bne_iff_ne] at facts
  obtain ⟨⟨elsewhere, answered⟩, slow⟩ := facts
  obtain ⟨_, asked⟩ := completes_of_isOk answered
  obtain ⟨-, only⟩ := arrivesOnlyAt_iff _ asked
  exact ⟨interpretation, interpreted, elsewhere, asked, only.mpr (.inl slow)⟩

/-- A request that is met at once leaves the journey under way, and the next frame arrives at the
place that was given up. -/
theorem arrivesOnlyAt_atOnce :
    let context : Script.Context Float := ⟨.standard, .standard, .standard⟩
    let script := "[[ POI X 1 POITRANS 1 POI X 9 POITRANS 0 ]]"
    let world := World.ofSize 8 (by decide) true
    let slow : Nat → Float := fun reading => reading.toFloat
    ∃ interpretation, Script.interpret context script = .ok interpretation
      ∧ let reached := (start interpretation.timeline world .standard).afterCalls [.goTo 0]
        let headed := Player.after (Player.goTo 1) reached
        Player.answer (Player.goTo 1) reached = .ok () ∧ headed.landing? = some 0
          ∧ (headed.camera.x == 9) = true
          ∧ ∃ result, Player.answer (Player.tick slow 16) headed = .ok result
            ∧ result.events = [.arrived 1, .arrived 1] ∧ (result.camera.x == 1) = true := by
  intro context script world slow
  have checked : (Script.interpret context script).toOption.any (fun interpretation =>
      let reached := (start interpretation.timeline world .standard).afterCalls [.goTo 0]
      let headed := Player.after (Player.goTo 1) reached
      (Player.answer (Player.goTo 1) reached).isOk && headed.landing? == some 0
        && headed.camera.x == 9
        && (Player.answer (Player.tick slow 16) headed).toOption.any fun result =>
          decide (result.events = [.arrived 1, .arrived 1]) && result.camera.x == 1) = true := by
    decide +kernel
  obtain ⟨interpretation, interpreted, facts⟩ := Script.exists_interpretation checked
  simp only [Bool.and_eq_true, beq_iff_eq] at facts
  obtain ⟨⟨⟨answered, lands⟩, there⟩, shows⟩ := facts
  obtain ⟨_, asked⟩ := completes_of_isOk answered
  refine ⟨interpretation, interpreted, asked, lands, there, ?_⟩
  generalize Player.answer (Player.tick slow 16) _ = outcome at shows ⊢
  cases outcome with
  | error fault => cases shows
  | ok result =>
      obtain ⟨told, back⟩ := Bool.and_eq_true_iff.mp shows
      exact ⟨result, rfl, of_decide_eq_true told, back⟩

end Playback

end Showreel
