import Showreel.Proofs.Playback.Burst
import Showreel.Proofs.Playback.Player
import Showreel.Proofs.Playback.Phases
import Showreel.Proofs.Waypoint.Change

/-!
Contract: the regimes that playback may come under: the pace of the active keyframe, and its limits.

Owns:
- the regime of a keyframe, and keyframes whose regimes a law allows;
- that a walk along a chain of such keyframes stays among them, wherever the camera is;
- that playback of a timeline with such keyframes stays under their regimes at every call of the
  host.

Does not own: which regimes a timeline has, and what they do to playback.
-/

namespace Showreel

open Number Waypoint

variable {α : Type}

/-- What the active keyframe asks of playback: its pace, and its stop and loop generations. -/
structure Regime (α : Type) where
  gps : α
  step : Int
  stop : Int
  loop : Int

def Keyframe.regime (keyframe : Keyframe α) : Regime α :=
  ⟨keyframe.gps, keyframe.step, keyframe.stop, keyframe.loop⟩

/-- A chain of keyframes whose regimes are allowed. -/
def Chain.Under (allowed : Regime α → Prop) (chain : Chain α) : Prop :=
  ∀ keyframe ∈ chain.toList, allowed keyframe.regime

theorem Chain.Under.get {allowed : Regime α → Prop} {chain : Chain α} (under : chain.Under allowed)
    (index : Nat) : allowed (chain.get index).regime :=
  under _ (chain.get_mem index)

namespace Waypoint

/-- A position between two keyframes has the regime of the second. -/
theorem Motion.regime_interpolate [Scalar α] [Transcendental α] {start finish position : Keyframe α}
    {elapsed : α} (done : Motion.interpolate start finish elapsed = .ok position) :
    position.regime = finish.regime := by
  unfold Motion.interpolate at done
  dsimp only at done
  obtain ⟨⟨linear, eased⟩, -, done⟩ := bind_eq_ok done
  obtain ⟨zoom, -, done⟩ := bind_eq_ok done
  obtain ⟨layers, -, done⟩ := bind_eq_ok done
  obtain ⟨generation, -, done⟩ := bind_eq_ok done
  cases done
  rfl

namespace Cursor

theorem blend_of_activeBlend {cursor : Cursor α} {blend : Blend α}
    (active : cursor.activeBlend = some blend) : blend ∈ cursor.blend := by
  unfold activeBlend at active
  split at active
  · exact active
  · cases active

/-- A walk among keyframes whose regimes are allowed. -/
structure Under (allowed : Regime α → Prop) (cursor : Cursor α) : Prop where
  chain : cursor.chain.Under allowed
  fitted : ∀ entry ∈ cursor.fitted, allowed entry.2.regime
  blend : ∀ blend ∈ cursor.blend, allowed blend.finish.regime

namespace Under

variable {allowed : Regime α → Prop} {cursor : Cursor α}

theorem keyframe (under : cursor.Under allowed) (index : Nat) :
    allowed (cursor.keyframe index).regime := by
  unfold Cursor.keyframe
  cases found : cursor.fitted.lookup index with
  | none => exact under.chain.get index
  | some keyframe =>
      obtain ⟨before, after, entries, -⟩ := List.lookup_eq_some_iff.mp found
      exact under.fitted (index, keyframe) (entries ▸ List.mem_append_right _ List.mem_cons_self)

theorem restart (under : cursor.Under allowed) : cursor.restart.Under allowed where
  chain := under.chain
  fitted _ impossible := nomatch impossible
  blend := under.blend

theorem note (under : cursor.Under allowed) (index : Nat) : (cursor.note index).Under allowed := by
  unfold Cursor.note
  split
  · exact under
  · exact ⟨under.chain, under.fitted, under.blend⟩

theorem fit (under : cursor.Under allowed) (index : Nat) (view : Option (Keyframe α)) :
    (cursor.fit index view).Under allowed := by
  unfold Cursor.fit
  cases view with
  | none => exact under
  | some view =>
      dsimp only
      split
      · refine ⟨under.chain, ?_, under.blend⟩
        intro entry member
        rcases List.mem_cons.mp member with rfl | older
        · exact under.chain.get index
        · exact under.fitted entry (List.mem_filter.mp older).1
      · exact under

theorem aim (under : cursor.Under allowed) (index : Nat) (view : Option (Keyframe α)) :
    (cursor.aim index view).Under allowed := by
  unfold Cursor.aim
  split
  · exact under.note index
  · exact (under.note index).fit index view

variable [Scalar α]

theorem approach (under : cursor.Under allowed) (elapsed : α) (view : Option (Keyframe α)) :
    (cursor.approach elapsed view).Under allowed := by
  unfold Cursor.approach
  split
  · exact under.aim _ view
  · exact under

variable [Transcendental α]

/-- One move of the walk leads to a position under one of the regimes. -/
theorem update (under : cursor.Under allowed) {elapsed : α} {generation : Int}
    {view : Option (Keyframe α)} {moved : Cursor α} {position : Keyframe α} {ended : Bool}
    (done : cursor.update elapsed generation view = .ok (moved, position, ended)) :
    moved.Under allowed ∧ allowed position.regime := by
  unfold Cursor.update at done
  split at done
  case h_1 blend active =>
    obtain ⟨between, moving, done⟩ := bind_eq_ok done
    cases done
    have finish := under.blend blend (blend_of_activeBlend active)
    refine ⟨⟨under.chain, under.fitted, under.blend⟩, ?_⟩
    rwa [Motion.regime_interpolate moving]
  case h_2 =>
    split at done
    · cases done
      exact ⟨⟨under.chain, under.fitted, under.blend⟩, under.keyframe _⟩
    · cases done
      have aimed := under.aim 0 view
      exact ⟨⟨aimed.chain, aimed.fitted, aimed.blend⟩, under.keyframe 0⟩
    · obtain ⟨between, moving, done⟩ := bind_eq_ok done
      cases done
      rename_i index _
      have aimed := under.aim (index + 1) view
      refine ⟨⟨aimed.chain, aimed.fitted, aimed.blend⟩, ?_⟩
      rw [Motion.regime_interpolate moving]
      exact aimed.keyframe (index + 1)

theorem beginBlend (under : cursor.Under allowed) {view : Keyframe α} {generation : Int}
    {elapsed now : α} {moved : Cursor α}
    (done : cursor.beginBlend view generation elapsed = .ok (moved, now)) :
    moved.Under allowed := by
  have begins : ∀ {aside : Cursor α} {start finish : Keyframe α} {time : α}, aside.Under allowed →
      allowed finish.regime → Under allowed { aside with
        blending := true
        blend := some ⟨start, { finish with autofit := false, targetTime := time }⟩ } := by
    intro aside start finish time underAside allowedFinish
    refine ⟨underAside.chain, underAside.fitted, ?_⟩
    intro blend begun
    cases begun
    exact allowedFinish
  unfold Cursor.beginBlend at done
  dsimp only at done
  split at done
  case h_1 blend active =>
    cases done
    exact begins under (under.blend blend (blend_of_activeBlend active))
  case h_2 =>
    obtain ⟨⟨walked, position, ended⟩, updated, done⟩ := bind_eq_ok done
    cases done
    have both := under.update updated
    exact begins both.1 both.2

end Under

end Cursor

end Waypoint

/-! ### Playback under regimes -/

/-- A timeline of keyframes and points of interest whose regimes are allowed. -/
structure Timeline.Under (allowed : Regime α → Prop) (timeline : Timeline α) : Prop where
  keyframes : timeline.keyframes.Under allowed
  pois : ∀ poi ∈ timeline.pois, allowed poi.regime

namespace Playback

variable [Scalar α]

/-- Playback under an allowed regime, on a walk among keyframes with such regimes. -/
structure Under (allowed : Regime α → Prop) (playback : Playback α) : Prop where
  timeline : playback.timeline.Under allowed
  cursor : playback.cursor.Under allowed
  active : allowed playback.active.regime

/-- What is under allowed regimes before is so after. -/
def StaysUnder (allowed : Regime α → Prop) (before after : Playback α) : Prop :=
  before.Under allowed → after.Under allowed

variable {allowed : Regime α → Prop}

instance : IsPreorder (Playback α) (StaysUnder allowed) where
  refl _ under := under
  trans _ _ _ earlier later under := later (earlier under)

theorem StaysUnder.of_eq {before after : Playback α} (timeline : after.timeline = before.timeline)
    (cursor : after.cursor = before.cursor) (active : after.active = before.active) :
    StaysUnder allowed before after := by
  intro under
  exact ⟨timeline ▸ under.timeline, cursor ▸ under.cursor, active ▸ under.active⟩

omit [Scalar α] in
theorem under_poiAt {timeline : Timeline α} (under : timeline.Under allowed) (index : Nat) :
    allowed (poiAt timeline index).regime := by
  rcases List.mem_cons.mp (poiAt_mem timeline index) with first | listed
  · rw [first]
    exact under.keyframes _ List.mem_cons_self
  · exact under.pois _ listed

theorem staysUnder_reset (playback : Playback α) : StaysUnder allowed playback playback.reset := by
  intro under
  refine ⟨under.timeline, under.cursor.restart, ?_⟩
  unfold reset
  dsimp only
  split
  · exact under.timeline.keyframes _ List.mem_cons_self
  · exact under.active

theorem staysUnder_halt {playback halted : Playback α} (halting : playback.halt? = some halted) :
    StaysUnder allowed playback halted := by
  have noted : StaysUnder allowed playback (playback.note (.looped playback.world.generation)) :=
    .of_eq rfl rfl rfl
  rcases halt_cases halting with ⟨-, rfl⟩ | ⟨-, -, rfl⟩
  · exact .of_eq rfl rfl rfl
  · exact IsTrans.trans _ _ _ noted (staysUnder_reset _)

theorem staysUnder_arrive (playback : Playback α) {poi : Keyframe α}
    (allowedPoi : allowed poi.regime) : StaysUnder allowed playback (playback.arrive poi) := by
  intro under
  have standing : (playback.standingAt poi).Under allowed :=
    ⟨under.timeline, under.cursor, allowedPoi⟩
  have acting : ∀ current : Playback α, StaysUnder allowed current (current.acting poi.action) := by
    intro current
    cases poi.action <;> exact .of_eq rfl rfl rfl
  have history : ∀ current : Playback α,
      StaysUnder allowed current (current.withHistory poi.startGeneration) := by
    intro current
    unfold withHistory
    split <;> exact .of_eq rfl rfl rfl
  rw [arrive_eq]
  apply history
  apply acting
  split
  · exact staysUnder_reset _ standing
  · exact standing

/-- Playback of a timeline starts under one of its regimes. -/
theorem under_start {timeline : Timeline α} (under : timeline.Under allowed) (world : World)
    (settings : ViewerSettings α) : (start timeline world settings).Under allowed := by
  have stays : ∀ playback : Playback α,
      StaysUnder allowed playback playback.applyInitialPastes := by
    intro playback
    unfold applyInitialPastes
    split
    · dsimp only
      split <;> exact .of_eq rfl rfl rfl
    · exact .of_eq rfl rfl rfl
  have places : ∀ playback : Playback α, StaysUnder allowed playback playback.startAtPoi := by
    intro playback underBefore
    unfold startAtPoi
    split
    · exact underBefore
    · exact ⟨underBefore.timeline, underBefore.cursor, under_poiAt underBefore.timeline _⟩
  unfold start
  apply places
  apply stays
  refine ⟨under, ⟨under.keyframes, ?_, ?_⟩, under.keyframes _ List.mem_cons_self⟩
  · intro _ impossible
    cases impossible
  · intro _ impossible
    cases impossible

end Playback

namespace Player

open Playback

variable [Scalar α] {allowed : Regime α → Prop}

theorem passTime_staysUnder (delta : α) : Within (StaysUnder allowed) (passTime delta) := by
  intro playback
  rw [after_passTime]
  split <;> exact .of_eq rfl rfl rfl

theorem fitCamera_staysUnder : Within (StaysUnder allowed) fitCamera := by
  intro playback
  rw [after_fitCamera]
  split <;> exact .of_eq rfl rfl rfl

theorem runSteps_staysUnder (clock : Nat → α) (delta : α) :
    Within (StaysUnder allowed) (runSteps clock delta) := by
  have pending : ∀ playback : Playback α,
      StaysUnder allowed playback (playback.runPending clock).1 :=
    runPending_within clock (fun _ => .of_eq rfl rfl rfl) staysUnder_halt
      (fun _ _ => .of_eq rfl rfl rfl)
  intro playback
  rw [after_runSteps]
  split
  · exact runHistory_within clock (fun _ => .of_eq rfl rfl rfl) (fun _ => .of_eq rfl rfl rfl)
      (fun _ _ _ => .of_eq rfl rfl rfl) ..
  · split
    · split
      case h_1 collected collecting =>
        have gathered : StaysUnder allowed playback collected := by
          obtain ⟨whole, taken, -, -, rfl⟩ := collect_ok collecting
          exact .of_eq rfl rfl rfl
        exact IsTrans.trans _ _ _ gathered (pending collected)
      case h_2 => exact .of_eq rfl rfl rfl
    · exact pending playback

theorem drift_staysUnder : Within (StaysUnder allowed) drift := by
  intro playback
  rw [after_drift]
  split
  · split
    · exact .of_eq rfl rfl rfl
    · rw [after_followTrack]
      split <;> exact .of_eq rfl rfl rfl
  · exact .of_eq rfl rfl rfl

theorem goTo_staysUnder (index : Int) : Within (StaysUnder allowed) (goTo index) := by
  intro playback
  rw [after_goTo]
  have headed : StaysUnder allowed playback { playback with poi := some index.toNat } :=
    .of_eq rfl rfl rfl
  split
  · exact .of_eq rfl rfl rfl
  · dsimp only
    split
    · intro under
      exact staysUnder_arrive _ (under_poiAt under.timeline _) (headed under)
    · split <;> exact .of_eq rfl rfl rfl

variable [Transcendental α]

theorem travel_staysUnder (journey : Journey α) : Within (StaysUnder allowed) (travel journey) := by
  intro playback
  rw [after_travel]
  split
  · intro under
    have landed : StaysUnder allowed playback { playback with journey := none } :=
      .of_eq rfl rfl rfl
    exact staysUnder_arrive _ (under_poiAt under.timeline _) (landed under)
  · exact .of_eq rfl rfl rfl

theorem followChain_staysUnder : Within (StaysUnder allowed) followChain := by
  intro playback under
  rw [after_followChain]
  split
  · exact under
  · split
    · exact ⟨under.timeline, under.cursor.approach .., under.active⟩
    · rename_i updated
      have both := under.cursor.update updated
      dsimp only
      split
      · exact ⟨under.timeline, both.1, both.2⟩
      · exact ⟨under.timeline, both.1, both.2⟩

theorem moveCamera_staysUnder : Within (StaysUnder allowed) moveCamera := by
  intro playback
  rw [after_moveCamera]
  split
  · exact travel_staysUnder _ playback
  · split
    · split
      · exact followChain_staysUnder playback
      · exact .of_eq rfl rfl rfl
    · exact fitCamera_staysUnder playback

theorem tick_staysUnder (clock : Nat → α) (delta : α) :
    Within (StaysUnder allowed) (tick clock delta) := by
  have present : ∀ message report, Within (StaysUnder allowed) (present message report) := by
    intro message report playback
    rw [after_present]
    exact .of_eq rfl rfl rfl
  rw [tick_eq]
  exact (passTime_staysUnder delta).bind fun _ => moveCamera_staysUnder.bind fun message =>
    (runSteps_staysUnder clock delta).bind fun report => drift_staysUnder.bind fun _ =>
      present message report

theorem moveByHand_staysUnder (camera : Camera α) :
    Within (StaysUnder allowed) (moveByHand camera) := by
  intro playback
  rw [after_moveByHand]
  split
  · split
    · intro under
      exact ⟨under.timeline, under.cursor.approach .., under.active⟩
    · rename_i begun
      intro under
      exact ⟨under.timeline, under.cursor.beginBlend begun, under.active⟩
  · exact .of_eq rfl rfl rfl

end Player

namespace Playback

variable [Scalar α] [Transcendental α] {allowed : Regime α → Prop}

theorem staysUnder_perform (playback : Playback α) (call : HostCall α) :
    StaysUnder allowed playback (call.perform playback) := by
  cases call with
  | play => exact .of_eq rfl rfl rfl
  | pause => exact .of_eq rfl rfl rfl
  | reset => exact staysUnder_reset playback
  | goTo poi => exact Player.goTo_staysUnder poi playback
  | moveByHand camera => exact Player.moveByHand_staysUnder camera playback
  | tick clock delta => exact Player.tick_staysUnder clock delta playback

/-- **Playback stays under the regimes of its timeline, whatever the host does.** -/
theorem under_afterCalls {timeline : Timeline α} (under : timeline.Under allowed) (world : World)
    (settings : ViewerSettings α) (calls : List (HostCall α)) :
    ((start timeline world settings).afterCalls calls).Under allowed :=
  afterCalls_keeps (Under allowed) (fun playback call => staysUnder_perform playback call) _ calls
    (under_start under world settings)

end Playback

end Showreel
