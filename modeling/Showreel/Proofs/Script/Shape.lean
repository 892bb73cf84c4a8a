import Showreel.Proofs.Script.Ending
import Showreel.Proofs.Script.Session
import Showreel.Proofs.Script.Outline
import Showreel.Proofs.Waypoint.Order

/-!
Contract: the shape of the timeline that a script comes to.

Owns:
- what the end of a script makes of its waypoints, as far as their timing goes;
- the number, the kind and the order of keyframes, the points of interest, and the track.

Does not own: the values of keyframes.
-/

namespace Showreel.Script

open Number Scalar Waypoint

variable {α : Type}

/-! ### The waypoints at the end -/

theorem timing_adopt (waypoint source : Waypoint α) :
    timing (Cast.adopt waypoint source) = timing waypoint := by
  unfold Cast.adopt
  induction Cast.initialFields generalizing waypoint with
  | nil => rfl
  | cons field rest inductionHypothesis =>
      rw [List.foldl_cons, inductionHypothesis]
      unfold Cast.adoptField
      split
      · exact timing_put waypoint field _
      · rfl

theorem Draft.Leads.timing {draft : Draft α} {first lead : Waypoint α}
    (leads : draft.Leads first lead) : timing lead = timing first := by
  cases leads with
  | own => rfl
  | adopted starts => exact timing_adopt first _

theorem timing_withoutCustomTheme (waypoint : Waypoint α) :
    timing (Cast.withoutCustomTheme waypoint) = timing waypoint := by
  unfold Cast.withoutCustomTheme
  split
  · rfl
  · rfl

/-- Settling the theme changes no timing. -/
theorem settleTheme_timing (cast : Cast α) (colours : Bool) :
    timing (cast.settleTheme colours).1.first = timing cast.first
      ∧ (cast.settleTheme colours).1.later.map timing = cast.later.map timing
      ∧ (cast.settleTheme colours).1.pois.map timing = cast.pois.map timing := by
  unfold Cast.settleTheme
  split
  · split
    · exact ⟨rfl, rfl, rfl⟩
    · exact ⟨rfl, rfl, rfl⟩
  · simp [timing_withoutCustomTheme]

theorem Draft.close_track (draft : Draft α) : (draft.close false).track = draft.track := by
  unfold close
  dsimp only
  split <;> rfl

theorem Draft.settleLoop_track (draft : Draft α) : draft.settleLoop.track = draft.track := by
  have updates (first : Waypoint α) : (draft.updateFirst first).track = draft.track := by
    unfold updateFirst
    split <;> rfl
  unfold settleLoop
  split
  · split
    · exact updates _
    · rfl
  · rfl

theorem Draft.closed_track (draft : Draft α) :
    draft.closed.track = if draft.hasWaypoints then none else draft.track := by
  rw [closed, close_track, settleLoop_track, settleTrack_eq]

variable [Scalar α]

namespace Draft

/-- What the end of a script makes of its waypoints and points of interest: the first waypoint
follows the track, the initial point of interest, the theme and the limits of the script, and labels
become points of interest. -/
inductive SettlesAs (draft : Draft α) : Cast α → Prop
  | settled (cast : Cast α) {loop : Open Int}
      (leads : draft.Leads { draft.first with loop := loop } cast.first)
      (later : cast.later = (draft.close false).waypoints.toList.tail)
      (pois : cast.pois = (draft.close false).pois.toList) (colours : Bool)
      (stop loop : Open Int) (labelled : List (Callout.Item α)) :
      SettlesAs draft {
        first := { (cast.settleTheme colours).1.first with stop := stop, loop := loop }
        later := (cast.settleTheme colours).1.later
        pois := (cast.settleTheme colours).1.pois ++ labelled.map poiOfLabel }

variable {draft : Draft α} {settings : ViewerSettings α} {camera : Camera α} {cast : Cast α}
  {refreshRate : Int}

theorem SettlesAs.timed (settles : draft.SettlesAs cast) (sound : SoundDraft refreshRate draft) :
    (cast.first :: cast.later).map timing = draft.timings := by
  cases settles with
  | settled cast leads later pois colours stop loop labelled =>
      rcases settleTheme_timing cast colours with ⟨timedFirst, timedLater, -⟩
      have timedLead : timing cast.first = timing draft.first := leads.timing
      rw [timings, close_first sound, List.map_cons, List.map_cons, timedLater, later, ← timedLead,
        ← timedFirst]
      rfl

omit [Scalar α] in
/-- Every stored point of interest is kept, and all that are added are points of interest. -/
theorem SettlesAs.pois (settles : draft.SettlesAs cast) :
    (draft.close false).pois.size ≤ cast.pois.length
      ∧ ((∀ poi ∈ draft.pois, poi.isPoi = true) → ∀ poi ∈ cast.pois, poi.isPoi = true) := by
  cases settles with
  | settled cast leads later pois colours stop loop labelled =>
      rcases settleTheme_timing cast colours with ⟨-, -, timed⟩
      rw [pois] at timed
      constructor
      · have length := congrArg List.length timed
        simp only [List.length_map, Array.length_toList] at length
        rw [List.length_append, length]
        exact Nat.le_add_right _ _
      · intro all poi member
        rcases List.mem_append.mp member with settled | label
        · have timedPoi : timing poi ∈ (draft.close false).pois.toList.map timing :=
            timed ▸ List.mem_map_of_mem settled
          rcases List.mem_map.mp timedPoi with ⟨stored, within, same⟩
          have kind : stored.isPoi = poi.isPoi := congrArg Timing.isPoi same
          rcases mem_close_pois false (Array.mem_toList_iff.mp within) with given | isPoi
          · exact kind.symm.trans (all stored given)
          · exact kind.symm.trans isPoi
        · rcases List.mem_map.mp label with ⟨item, -, rfl⟩
          rfl

theorem SettlesAs.paced [LawfulScalar α] (settles : draft.SettlesAs cast)
    (sound : SoundDraft refreshRate draft) (rate : 1 ≤ refreshRate) :
    cast.first.Paced ∧ ∀ waypoint ∈ cast.later, waypoint.Paced := by
  cases settles with
  | settled cast leads later pois colours stop loop labelled =>
      have pacedLead := leads.paced sound rate
      rcases @settleTheme_first α colours cast with ⟨theme, themed⟩
      constructor
      · rw [themed]
        exact ⟨pacedLead.gps, pacedLead.step, pacedLead.target⟩
      · apply settleTheme_paced
        intro waypoint member
        rw [later] at member
        have stored := Array.mem_toList_iff.mp (List.mem_of_mem_tail member)
        exact ((sound.close false).waypoints waypoint stored).1.paced rate

/-- A timeline whose keyframes are built from some waypoints, in front of a live view. -/
structure EndsAs (draft : Draft α) (refreshRate : Int) (cast : Cast α) (live : Keyframe α)
    (resolved : Chain.Resolved α) (timeline : Timeline α) : Prop where
  built : Chain.build cast.first cast.later cast.pois live refreshRate = .ok resolved
  keyframes : timeline.keyframes = resolved.chain
  pois : timeline.pois = resolved.pois
  reported : resolved.reported <:+ timeline.diagnostics
  track : timeline.track = if draft.hasWaypoints then none else draft.track
  initial : timeline.defaultPoi = draft.defaultPoi

theorem exists_endsAs {reported : List Diagnostic} {commands : Nat}
    {interpretation : Interpretation α} (sound : SoundDraft settings.refreshRate draft)
    (done : draft.finish reported commands settings camera = .ok interpretation) :
    ∃ cast gps resolved, draft.SettlesAs cast ∧ ofInt settings.refreshRate = .ok gps
      ∧ draft.EndsAs settings.refreshRate cast (Keyframe.ofCamera camera gps 1) resolved
        interpretation.timeline := by
  rcases draft.finish_ok sound done with
    ⟨loop, lead, restricted, gps, resolved, ends, leads, comes⟩
  rcases comes.gaveUp with ⟨starts, startFrom, gaveUp⟩
  rcases restrictIf_first gaveUp with ⟨stop, kept, first⟩
  have labels : ∃ labelled : List (Callout.Item α), labelled.map poiOfLabel = draft.labelPois := by
    unfold labelPois
    split
    · exact ⟨_, rfl⟩
    · exact ⟨[], rfl⟩
  rcases labels with ⟨labelled, labels⟩
  have built := comes.built
  rw [first, ← labels] at built
  have settles : draft.SettlesAs _ := .settled ⟨lead, _, _⟩ leads rfl rfl
    (!draft.closed.elementColours.isEmpty) stop kept labelled
  refine ⟨_, gps, resolved, settles, comes.known, ?_⟩
  exact {
    built := built
    keyframes := comes.keyframes
    pois := comes.pois
    reported := comes.reported
    track := comes.track.trans draft.closed_track
    initial := comes.initial.trans (congrArg Draft.defaultPoi draft.alikeAside_closed :) }

end Draft

/-! ### The shape of a timeline -/

/-- The shape of a timeline for a script that opens some waypoints behind the first. -/
structure HasShape (opened : Nat) (timeline : Timeline α) : Prop where
  length : timeline.keyframes.toList.length = 1 + opened
  plain : ∀ keyframe ∈ timeline.keyframes.toList, keyframe.isPoi = false
  first : timeline.keyframes.first.targetGeneration = 0 ∧ timeline.keyframes.first.targetTime = 0
  pois : ∀ poi ∈ timeline.pois, poi.isPoi = true
  initial : ∀ index, timeline.defaultPoi = some index → index < timeline.pois.length
  track : 1 < timeline.keyframes.toList.length → timeline.track = none
  generations : InOrder timeline.diagnostics → timeline.keyframes.toList.Pairwise
    fun earlier later => earlier.targetGeneration ≤ later.targetGeneration

namespace Draft

section Shape

variable {draft : Draft α} {cast : Cast α} {live : Keyframe α} {resolved : Chain.Resolved α}
  {timeline : Timeline α} {refreshRate : Int} {opened : Nat}

/-- The timings of the waypoints keep to the outline of the draft. -/
theorem SettlesAs.outline (settles : draft.SettlesAs cast) (sound : SoundDraft refreshRate draft)
    (outlined : draft.Outlined opened) :
    (timing cast.first).Starts ∧ cast.later.length = opened
      ∧ ∀ waypoint ∈ cast.later, (timing waypoint).Moves := by
  have outline := outlined.outline
  rw [← settles.timed sound, List.map_cons] at outline
  cases outline with
  | chain start length moves =>
      rw [List.length_map] at length
      exact ⟨start, length, List.forall_mem_map.mp moves⟩

theorem EndsAs.hasShape (ends : draft.EndsAs refreshRate cast live resolved timeline)
    (settles : draft.SettlesAs cast) (sound : SoundDraft refreshRate draft)
    (outlined : draft.Outlined opened) : HasShape opened timeline := by
  rcases settles.outline sound outlined with ⟨starts, length, moves⟩
  rcases Chain.build_isPoi ends.built with ⟨kinds, poiKinds⟩
  have sameLength : timeline.keyframes.toList.length = 1 + opened := by
    have lengths := congrArg List.length kinds
    rw [List.length_map, List.length_map, List.length_cons, length] at lengths
    rw [ends.keyframes, lengths, Nat.add_comm]
  have poiCount : timeline.pois.length = cast.pois.length := by
    have lengths := congrArg List.length poiKinds
    rw [List.length_map, List.length_map] at lengths
    rw [ends.pois, lengths]
  refine ⟨sameLength, ?plain, ?first, ?pois, ?initial, ?track, ?generations⟩
  case plain =>
    intro keyframe member
    have kind : keyframe.isPoi ∈ (cast.first :: cast.later).map Waypoint.isPoi :=
      kinds ▸ List.mem_map_of_mem (ends.keyframes ▸ member)
    rcases List.mem_map.mp kind with ⟨waypoint, within, same⟩
    rcases List.mem_cons.mp within with rfl | later
    · exact same.symm.trans starts.plain
    · exact same.symm.trans (moves waypoint later).plain
  case first =>
    rcases Chain.build_first ends.built with ⟨generation, time⟩
    rw [ends.keyframes]
    refine ⟨generation.trans ?_, time⟩
    cases target : cast.first.targetGeneration with
    | none => rfl
    | some setting => exact starts.target setting target
  case pois =>
    intro poi member
    have kind : poi.isPoi ∈ cast.pois.map Waypoint.isPoi :=
      poiKinds ▸ List.mem_map_of_mem (ends.pois ▸ member)
    rcases List.mem_map.mp kind with ⟨waypoint, within, same⟩
    exact same.symm.trans (settles.pois.2 outlined.pois waypoint within)
  case initial =>
    intro index given
    have stored : (draft.close false).defaultPoi = some index :=
      (congrArg Draft.defaultPoi draft.alikeAside_close :).trans (ends.initial.symm.trans given)
    have bounded := (sound.close false).initial index stored
    rw [poiCount]
    exact lt_of_lt_of_le bounded settles.pois.1
  case track =>
    intro several
    have some : 0 < opened := by
      rw [sameLength] at several
      exact Nat.lt_of_add_lt_add_left several
    rw [ends.track, if_pos (outlined.marked some)]
  case generations =>
    intro ordered
    rw [ends.keyframes]
    exact Chain.build_generations ends.built (ordered.of_suffix ends.reported)

end Shape

theorem timed_of_moves {waypoint : Waypoint ℚ} (moves : (timing waypoint).Moves) :
    waypoint.Timed where
  given := moves.given
  pause setting found := by
    rcases moves.pause setting found with ⟨seconds, clipped⟩
    rw [clipped]
    unfold larger
    split
    · norm_num
    · rename_i atLeast
      exact lt_of_lt_of_le (by norm_num) (not_lt.mp atLeast)

end Draft

/-- **Every timeline is in shape.** Behind the first keyframe, which stands at the start, there is
one for each waypoint that the script opens; points of interest are apart from them. The generations
do not go down and, over exact rationals, the times go up, unless a target is reported. -/
theorem interpret_shape (text : String) :
    (∀ {α : Type} [Scalar α] (context : Context α) (interpretation : Interpretation α),
        interpret context text = .ok interpretation →
          HasShape (openings (readStatements context text)) interpretation.timeline)
      ∧ ∀ (context : Context ℚ) (interpretation : Interpretation ℚ),
          1 ≤ context.settings.refreshRate → interpret context text = .ok interpretation →
          InOrder interpretation.timeline.diagnostics →
            interpretation.timeline.keyframes.toList.Pairwise
              fun earlier later => earlier.targetTime < later.targetTime := by
  constructor
  · intro α _ context interpretation done
    rcases bind_eq_ok done with ⟨session, read, done⟩
    have sound := readAll_sound read
    rcases Draft.exists_endsAs sound done with ⟨cast, gps, resolved, settles, known, ends⟩
    exact ends.hasShape settles sound (readAll_outlined read)
  · intro context interpretation rate done ordered
    rcases bind_eq_ok done with ⟨session, read, done⟩
    have sound := readAll_sound read
    rcases Draft.exists_endsAs sound done with ⟨cast, gps, resolved, settles, known, ends⟩
    rcases settles.outline sound (readAll_outlined read) with ⟨starts, length, moves⟩
    rcases settles.paced sound rate with ⟨pacedFirst, pacedLater⟩
    rw [ends.keyframes]
    apply Chain.build_times rate pacedFirst ?_ (paced_ofCamera context.camera rate known) ends.built
    · exact ordered.of_suffix ends.reported
    · intro waypoint member
      exact ⟨pacedLater waypoint member, Draft.timed_of_moves (moves waypoint member)⟩

/-- Two waypoints behind the first, and a point of interest between them. -/
theorem interpret_shape_pauses :
    let context : Context ℚ := ⟨.standard, .standard, .standard⟩
    let text := "[[ T 10 POI INITIAL X 5 PAUSE 1 ]]"
    openings (readStatements context text) = 2
      ∧ ∃ interpretation, interpret context text = .ok interpretation
        ∧ HasShape (openings (readStatements context text)) interpretation.timeline
        ∧ interpretation.timeline.keyframes.toList.Pairwise
            fun earlier later => earlier.targetTime < later.targetTime := by
  intro context text
  refine ⟨by decide +kernel, ?_⟩
  have checked : (interpret context text).toOption.any
      (fun interpretation => interpretation.timeline.diagnostics.isEmpty) = true := by decide +kernel
  rcases exists_interpretation checked with ⟨interpretation, done, clean⟩
  have ordered : InOrder interpretation.timeline.diagnostics := by
    rw [List.isEmpty_iff.mp clean]
    exact fun _ impossible => nomatch impossible
  rcases interpret_shape text with ⟨shape, times⟩
  exact ⟨interpretation, done, shape context interpretation done,
    times context interpretation (by decide) done ordered⟩

end Showreel.Script
