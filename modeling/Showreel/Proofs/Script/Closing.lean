import Showreel.Proofs.Script.Soundness

/-!
Contract: the draft at the end of a script.

Owns:
- the draft once its track is settled and its last waypoint is stored;
- the loop that the first waypoint ends with;
- the initial point of interest and what the first waypoint adopts from it;
- the phases of the end of a script that comes to a timeline, and what each of them reports;
- the pastes and the callouts of the timeline, which are those of the draft.

Does not own: whether the end of a script comes to a timeline.
-/

namespace Showreel.Script

open Number Waypoint

variable {α : Type}

/-! ### The draft at the end of a script -/

namespace Draft

/-- The period of a track over a loop, in major grid lines if there are any. -/
def loopPeriod (draft : Draft α) (track : Track α) : Int :=
  if 0 < draft.gridMajor then track.period * draft.gridMajor else track.period

/-- A script without waypoints has a track over a loop. -/
def Loops (draft : Draft α) (track : Track α) : Prop :=
  draft.hasWaypoints = false ∧ draft.track = some track ∧ track.mode = .loop

/-- The loop setting that the first waypoint ends with: the period of a track over a loop, or its
own. -/
inductive EndsWithLoop (draft : Draft α) : Open Int → Prop
  | track {track : Track α} (loops : draft.Loops track) :
      EndsWithLoop draft (some (.written (some (draft.loopPeriod track)) TrackMode.loop.word))
  | own (none : ∀ track, ¬draft.Loops track) : EndsWithLoop draft draft.first.loop

/-- Playback without waypoints starts at a point of interest. -/
def StartsAt (draft : Draft α) (poi : Waypoint α) : Prop :=
  draft.hasPois = true ∧ draft.hasWaypoints = false
    ∧ ∃ index ∈ draft.defaultPoi, (draft.close false).pois[index]? = some poi

/-- The first waypoint with what it takes over from the initial point of interest. -/
inductive Leads (draft : Draft α) (first : Waypoint α) : Waypoint α → Prop
  | adopted {poi : Waypoint α} (starts : draft.StartsAt poi) :
      Leads draft first (Cast.adopt first poi)
  | own (none : ∀ poi, ¬draft.StartsAt poi) : Leads draft first first

/-- The draft with its track settled and its last waypoint stored. -/
def closed (draft : Draft α) : Draft α :=
  draft.settleTrack.1.settleLoop.close false

variable {draft : Draft α}

theorem close_toList (draft : Draft α) : (draft.close false).waypoints.toList
    = if draft.current.isPoi then draft.waypoints.toList
      else draft.waypoints.toList ++ [draft.current] := by
  unfold close
  dsimp only
  split
  · rfl
  · exact Array.toList_push

theorem close_pois (draft : Draft α) : (draft.close false).pois
    = if draft.current.isPoi then draft.pois.push draft.current else draft.pois := by
  unfold close
  dsimp only
  split <;> rfl

theorem close_first [Scalar α] {refreshRate : Int} (sound : SoundDraft refreshRate draft) :
    (draft.close false).waypoints.toList
      = draft.first :: (draft.close false).waypoints.toList.tail := by
  have behind := sound.behindFirst
  rw [← Array.length_toList] at behind
  rw [close_toList, first, firstClosed, ← Array.getElem?_toList]
  cases stored : draft.waypoints.toList with
  | nil =>
      rw [stored] at behind
      rw [if_neg fun inPoi => absurd (behind inPoi) (Nat.lt_irrefl 0)]
      rfl
  | cons first rest => split <;> rfl

theorem close_updateFirst [Scalar α] {refreshRate : Int} (sound : SoundDraft refreshRate draft)
    {waypoint : Waypoint α} (plain : waypoint.isPoi = false) :
    ((draft.updateFirst waypoint).close false).waypoints.toList
        = waypoint :: (draft.close false).waypoints.toList.tail
      ∧ ((draft.updateFirst waypoint).close false).pois = (draft.close false).pois := by
  have behind := sound.behindFirst
  rw [← Array.length_toList] at behind
  rw [close_toList, close_toList, close_pois, close_pois]
  cases stored : draft.waypoints.toList with
  | nil =>
      -- the open waypoint is the first one, and no point of interest
      have empty : draft.waypoints.isEmpty = true :=
        Array.isEmpty_iff.mpr (Array.toList_eq_nil_iff.mp stored)
      rw [stored] at behind
      have closed : ¬draft.current.isPoi = true :=
        fun inPoi => absurd (behind inPoi) (Nat.lt_irrefl 0)
      rw [updateFirst, if_pos empty, if_neg closed, if_neg closed, stored]
      rw [← Bool.not_eq_true] at plain
      rw [if_neg plain, if_neg plain]
      exact ⟨rfl, rfl⟩
  | cons first rest =>
      have some : ¬draft.waypoints.isEmpty = true := by
        intro empty
        rw [Array.isEmpty_iff.mp empty] at stored
        cases stored
      rw [updateFirst, if_neg some, Array.toList_setIfInBounds, stored]
      refine ⟨?_, rfl⟩
      split <;> rfl

/-- Drafts that are alike aside from their waypoints and their track. -/
def AlikeAside (draft other : Draft α) : Prop :=
  other = { draft with
    track := other.track
    waypoints := other.waypoints
    pois := other.pois
    current := other.current }

theorem AlikeAside.trans {first second third : Draft α} (one : AlikeAside first second)
    (two : AlikeAside second third) : AlikeAside first third := by
  unfold AlikeAside at *
  rw [one] at two
  exact two

theorem alikeAside_updateFirst (draft : Draft α) (waypoint : Waypoint α) :
    AlikeAside draft (draft.updateFirst waypoint) := by
  unfold AlikeAside updateFirst
  split <;> rfl

theorem alikeAside_close (draft : Draft α) : AlikeAside draft (draft.close false) := by
  unfold AlikeAside close
  dsimp only
  split <;> rfl

theorem settleTrack_eq (draft : Draft α) :
    draft.settleTrack.1
      = { draft with track := if draft.hasWaypoints then none else draft.track } := by
  unfold settleTrack
  cases found : draft.track with
  | none =>
      have same : draft = { draft with track := none } := by rw [← found]
      rw [ite_self]
      exact same
  | some track =>
      dsimp only
      split
      · rfl
      · rw [← found]

theorem alikeAside_closed (draft : Draft α) : AlikeAside draft draft.closed := by
  have tracked : AlikeAside draft draft.settleTrack.1 := by
    rw [settleTrack_eq]
    rfl
  have looped : AlikeAside draft.settleTrack.1 draft.settleTrack.1.settleLoop := by
    unfold settleLoop
    split
    · split
      · exact alikeAside_updateFirst _ _
      · rfl
    · rfl
  exact (tracked.trans looped).trans (alikeAside_close _)

theorem settleLoop_of_loops {track : Track α} (loops : draft.Loops track) :
    draft.settleTrack.1.settleLoop = draft.settleTrack.1.updateFirst { draft.first with
      loop := some (.written (some (draft.loopPeriod track)) TrackMode.loop.word) } := by
  obtain ⟨noWaypoints, known, mode⟩ := loops
  have left : draft.settleTrack.1.track = some track := by
    rw [settleTrack_eq, noWaypoints, known]
    rfl
  unfold settleLoop
  rw [left, settleTrack_eq]
  exact if_pos mode

theorem settleLoop_of_not_loops (unlooped : ∀ track, ¬draft.Loops track) :
    draft.settleTrack.1.settleLoop = draft.settleTrack.1 := by
  unfold settleLoop
  cases known : draft.settleTrack.1.track with
  | none => rfl
  | some track =>
      refine if_neg fun mode => unlooped track ?_
      rw [settleTrack_eq] at known
      dsimp only at known
      split at known
      · cases known
      · rename_i noWaypoints
        exact ⟨Bool.eq_false_iff.mpr noWaypoints, known, mode⟩

theorem settleTrack_close (draft : Draft α) :
    (draft.settleTrack.1.close false).waypoints = (draft.close false).waypoints
      ∧ (draft.settleTrack.1.close false).pois = (draft.close false).pois := by
  rw [settleTrack_eq]
  unfold close
  dsimp only
  split
  · exact ⟨rfl, rfl⟩
  · exact ⟨rfl, rfl⟩

/-- The first waypoint ends with a loop that the track may have set, and nothing else of the
waypoints is changed. -/
theorem closed_cast [Scalar α] {refreshRate : Int} (sound : SoundDraft refreshRate draft) :
    ∃ loop, draft.EndsWithLoop loop
      ∧ draft.closed.waypoints.toList
        = { draft.first with loop := loop } :: (draft.close false).waypoints.toList.tail
      ∧ draft.closed.pois = (draft.close false).pois := by
  have tracked : SoundDraft refreshRate draft.settleTrack.1 := by
    rw [settleTrack_eq]
    exact sound.congr rfl rfl rfl rfl rfl rfl
  obtain ⟨stored, pois⟩ := settleTrack_close draft
  unfold closed
  by_cases loops : ∃ track, draft.Loops track
  · obtain ⟨track, loops⟩ := loops
    let first : Waypoint α := { draft.first with
      loop := some (.written (some (draft.loopPeriod track)) TrackMode.loop.word) }
    have plain : first.isPoi = false := sound.first.2
    obtain ⟨waypoints, poisToo⟩ := close_updateFirst tracked plain
    refine ⟨_, .track loops, ?_, ?_⟩
    · rw [settleLoop_of_loops loops, ← stored]
      exact waypoints
    · rw [settleLoop_of_loops loops, ← pois]
      exact poisToo
  · have unlooped : ∀ track, ¬draft.Loops track := fun track loop => loops ⟨track, loop⟩
    refine ⟨_, .own unlooped, ?_, ?_⟩
    · rw [settleLoop_of_not_loops unlooped, stored]
      exact close_first sound
    · rw [settleLoop_of_not_loops unlooped, pois]

end Draft

/-! ### The initial point of interest -/

namespace Cast

theorem adoptField_get (waypoint source : Waypoint α) (field other : Field) :
    (adoptField source waypoint field).get other
      = if other = field ∧ (source.get other).isSome then source.get other
        else waypoint.get other := by
  unfold adoptField
  by_cases same : other = field
  · subst same
    by_cases given : (source.get other).isSome
    · rw [if_pos given, if_pos ⟨rfl, given⟩, get_put_self]
    · rw [if_neg given, if_neg fun both => given both.2]
  · have apart : ¬(other = field ∧ (source.get other).isSome) := fun both => same both.1
    rw [if_neg apart]
    split
    · exact get_put_of_ne _ _ same
    · rfl

theorem foldl_adoptField_get (source : Waypoint α) (fields : List Field) (field : Field)
    (waypoint : Waypoint α) :
    (fields.foldl (adoptField source) waypoint).get field
      = if field ∈ fields ∧ (source.get field).isSome then source.get field
        else waypoint.get field := by
  induction fields generalizing waypoint with
  | nil => simp
  | cons head rest inductionHypothesis =>
      rw [List.foldl_cons, inductionHypothesis, adoptField_get]
      by_cases given : (source.get field).isSome
      · by_cases first : field = head
        · simp [given, first]
        · simp [given, first]
      · simp [given]

theorem adopt_get (waypoint source : Waypoint α) (field : Field) :
    (adopt waypoint source).get field
      = if field ∈ initialFields ∧ (source.get field).isSome then source.get field
        else waypoint.get field :=
  foldl_adoptField_get source initialFields field waypoint

theorem adopt_frame (waypoint source : Waypoint α) :
    (adopt waypoint source).targetGeneration = waypoint.targetGeneration
      ∧ (adopt waypoint source).autofit = waypoint.autofit := by
  unfold adopt
  induction initialFields generalizing waypoint with
  | nil => exact ⟨rfl, rfl⟩
  | cons field rest inductionHypothesis =>
      obtain ⟨target, autofit⟩ := inductionHypothesis (adoptField source waypoint field)
      rw [List.foldl_cons, target, autofit]
      unfold adoptField
      split
      · exact ⟨put_targetGeneration _ _ _, put_autofit _ _ _⟩
      · exact ⟨rfl, rfl⟩

end Cast

theorem Draft.Leads.frame {draft : Draft α} {first lead : Waypoint α}
    (leads : draft.Leads first lead) :
    lead.autofit = first.autofit ∧ lead.stop = first.stop ∧ lead.loop = first.loop := by
  cases leads with
  | own => exact ⟨rfl, rfl, rfl⟩
  | adopted starts =>
      refine ⟨(Cast.adopt_frame _ _).2, ?_, ?_⟩
      · exact (Cast.adopt_get _ _ .stop).trans (if_neg fun both => absurd both.1 (by decide))
      · exact (Cast.adopt_get _ _ .loop).trans (if_neg fun both => absurd both.1 (by decide))

theorem Draft.StartsAt.unique {draft : Draft α} {poi other : Waypoint α}
    (starts : draft.StartsAt poi) (startsToo : draft.StartsAt other) : poi = other := by
  obtain ⟨-, -, index, given, found⟩ := starts
  obtain ⟨-, -, indexToo, givenToo, foundToo⟩ := startsToo
  cases Option.some.inj (given.symm.trans givenToo)
  exact Option.some.inj (found.symm.trans foundToo)

section Initial

variable [Scalar α] {refreshRate : Int} {draft : Draft α}

/-- The initial point of interest is among those that were stored. -/
theorem exists_startAtPoi (sound : SoundDraft refreshRate draft) (first : Waypoint α)
    (later : List (Waypoint α)) :
    ∃ lead, draft.Leads first lead
      ∧ Cast.startAtPoi ⟨first, later, (draft.close false).pois.toList⟩ draft.closed
        = .ok ⟨lead, later, (draft.close false).pois.toList⟩ := by
  have hasPois : draft.closed.hasPois = draft.hasPois :=
    (congrArg Draft.hasPois draft.alikeAside_closed :)
  have hasWaypoints : draft.closed.hasWaypoints = draft.hasWaypoints :=
    (congrArg Draft.hasWaypoints draft.alikeAside_closed :)
  have initial : draft.closed.defaultPoi = draft.defaultPoi :=
    (congrArg Draft.defaultPoi draft.alikeAside_closed :)
  have initialToo : (draft.close false).defaultPoi = draft.defaultPoi :=
    (congrArg Draft.defaultPoi draft.alikeAside_close :)
  unfold Cast.startAtPoi
  rw [hasPois, hasWaypoints, initial]
  by_cases without : draft.hasPois = true ∧ draft.hasWaypoints = false
  · rw [without.1, without.2]
    cases given : draft.defaultPoi with
    | none =>
        refine ⟨first, .own ?_, rfl⟩
        rintro poi ⟨-, -, index, known, -⟩
        rw [given] at known
        cases known
    | some index =>
        have bounded := (sound.close false).initial index (initialToo.trans given)
        have closed : (draft.close false).current.isPoi = false := rfl
        rw [closed, Bool.toNat_false, Nat.add_zero] at bounded
        have found := Array.getElem?_eq_getElem bounded
        refine ⟨_, .adopted ⟨without.1, without.2, index, given, found⟩, ?_⟩
        dsimp only
        rw [Array.getElem?_toList, found]
        rfl
  · refine ⟨first, .own fun poi starts => without ⟨starts.1, starts.2.1⟩, if_neg ?_⟩
    intro both
    rw [Bool.and_eq_true, Bool.not_eq_true'] at both
    exact without both

/-- The waypoints at the end of a sound draft can be taken up, from the initial point of interest
if there is one. -/
theorem Draft.exists_cast (sound : SoundDraft refreshRate draft) :
    ∃ loop chosen lead, draft.EndsWithLoop loop
      ∧ draft.Leads { draft.first with loop := loop } lead
      ∧ Cast.ofDraft draft.closed = .ok chosen
      ∧ chosen.startAtPoi draft.closed
        = .ok ⟨lead, (draft.close false).waypoints.toList.tail, (draft.close false).pois.toList⟩ := by
  obtain ⟨loop, ends, waypoints, pois⟩ := draft.closed_cast sound
  let first : Waypoint α := { draft.first with loop := loop }
  let later := (draft.close false).waypoints.toList.tail
  have chosen : Cast.ofDraft draft.closed = .ok ⟨first, later, (draft.close false).pois.toList⟩ := by
    unfold Cast.ofDraft
    rw [waypoints, pois]
  obtain ⟨lead, leads, started⟩ := exists_startAtPoi sound first later
  exact ⟨loop, _, lead, ends, leads, chosen, started⟩

theorem SoundDraft.startsAt (sound : SoundDraft refreshRate draft) {poi : Waypoint α}
    (starts : draft.StartsAt poi) : SoundWaypoint refreshRate poi := by
  obtain ⟨-, -, index, -, found⟩ := starts
  exact (sound.close false).pois poi (Array.mem_of_getElem? found)

/-- Only a point of interest has settings without a value. -/
theorem SoundWaypoint.present {waypoint : Waypoint α} (sound : SoundWaypoint refreshRate waypoint)
    (plain : waypoint.isPoi = false) (field : Field) {setting : Setting (Option (field.Value α))}
    (found : waypoint.get field = some setting) : setting.value ≠ none := by
  intro absent
  have soundSetting := sound.setting field setting found
  have inPoi := soundSetting.copied_poi (soundSetting.open_copied absent)
  rw [plain] at inPoi
  cases inPoi

/-! ### The phases of the end -/

/-- The waypoints at the end, behind the one that leads, once the theme is settled. -/
def Draft.themed (draft : Draft α) (lead : Waypoint α) : Cast α :=
  ((⟨lead, (draft.close false).waypoints.toList.tail, (draft.close false).pois.toList⟩ :
    Cast α).settleTheme (!draft.closed.elementColours.isEmpty)).1

/-- The points of interest at labels, if the script asks for them. -/
def Draft.labelPois (draft : Draft α) : List (Waypoint α) :=
  if draft.closed.addPoiLabels then draft.closed.labels.toList.map poiOfLabel else []

/-- How the end of a script comes to a timeline: the waypoint that leads may give up its limits, and
the chain is built in front of the live view. -/
structure Draft.ComesTo (draft : Draft α) (settings : ViewerSettings α) (camera : Camera α)
    (lead : Waypoint α) (restricted : Restricted α) (gps : α) (resolved : Chain.Resolved α)
    (timeline : Timeline α) : Prop where
  gaveUp : ∃ starts startFrom, restrictIf draft.closed.viewOnly (draft.themed lead).first starts
    startFrom = .ok restricted
  known : (Scalar.ofInt settings.refreshRate : Except Fault α) = .ok gps
  built : Chain.build restricted.first (draft.themed lead).later
    ((draft.themed lead).pois ++ draft.labelPois) (Keyframe.ofCamera camera gps 1)
    settings.refreshRate = .ok resolved
  keyframes : timeline.keyframes = resolved.chain
  pois : timeline.pois = resolved.pois
  reported : resolved.reported <:+ timeline.diagnostics
  track : timeline.track = draft.closed.track
  initial : timeline.defaultPoi = draft.closed.defaultPoi

/-- The report of the end that there is no custom theme. -/
def Draft.themeReport (draft : Draft α) (lead : Waypoint α) : List Diagnostic :=
  ((⟨lead, (draft.close false).waypoints.toList.tail, (draft.close false).pois.toList⟩ :
    Cast α).settleTheme (!draft.closed.elementColours.isEmpty)).2

/-- How a timeline starts, and what its diagnostics consist of: the reports of reading, and those of
each phase of the end. -/
structure Draft.Announces (draft : Draft α) (reported : List Diagnostic) (lead : Waypoint α)
    (restricted : Restricted α) (resolved : Chain.Resolved α) (timeline : Timeline α) : Prop where
  autostart : timeline.autostart = restricted.autostart
  startFrom : timeline.startFrom = restricted.startFrom
  diagnostics : ∃ fits, checkAutofit (lead :: (draft.close false).waypoints.toList.tail) = .ok fits
    ∧ timeline.diagnostics = reported ++ draft.settleTrack.2 ++ fits ++ draft.themeReport lead
      ++ restricted.reported ++ resolved.reported

/-- **The phases of the end of a script.** -/
theorem Draft.finish_phases {settings : ViewerSettings α} {camera : Camera α}
    {reported : List Diagnostic} {commands : Nat} {interpretation : Interpretation α}
    (sound : SoundDraft settings.refreshRate draft)
    (done : draft.finish reported commands settings camera = .ok interpretation) :
    ∃ loop lead restricted gps resolved, draft.EndsWithLoop loop
      ∧ draft.Leads { draft.first with loop := loop } lead
      ∧ draft.ComesTo settings camera lead restricted gps resolved interpretation.timeline
      ∧ draft.Announces reported lead restricted resolved interpretation.timeline := by
  obtain ⟨loop, _, lead, ends, leads, chosen, started⟩ := draft.exists_cast sound
  unfold Draft.finish at done
  dsimp only at done
  rw [← closed] at done
  obtain ⟨_, chosenToo, done⟩ := bind_eq_ok done
  cases chosen.symm.trans chosenToo
  obtain ⟨_, startedToo, done⟩ := bind_eq_ok done
  cases started.symm.trans startedToo
  obtain ⟨fits, fitted, done⟩ := bind_eq_ok done
  obtain ⟨restricted, gaveUp, done⟩ := bind_eq_ok done
  obtain ⟨gps, known, done⟩ := bind_eq_ok done
  obtain ⟨resolved, built, done⟩ := bind_eq_ok done
  obtain ⟨⟨⟩, -, done⟩ := bind_eq_ok done
  cases done
  exact ⟨loop, lead, restricted, gps, resolved, ends, leads,
    ⟨⟨_, _, gaveUp⟩, known, built, rfl, rfl, List.suffix_append _ _, rfl, rfl⟩,
    ⟨rfl, rfl, fits, fitted, rfl⟩⟩

theorem Draft.finish_ok {settings : ViewerSettings α} {camera : Camera α}
    {reported : List Diagnostic} {commands : Nat} {interpretation : Interpretation α}
    (sound : SoundDraft settings.refreshRate draft)
    (done : draft.finish reported commands settings camera = .ok interpretation) :
    ∃ loop lead restricted gps resolved, draft.EndsWithLoop loop
      ∧ draft.Leads { draft.first with loop := loop } lead
      ∧ draft.ComesTo settings camera lead restricted gps resolved interpretation.timeline := by
  obtain ⟨loop, lead, restricted, gps, resolved, ends, leads, comes, -⟩ := finish_phases sound done
  exact ⟨loop, lead, restricted, gps, resolved, ends, leads, comes⟩

/-- What reading has collected goes into the timeline. -/
theorem Draft.finish_collected {settings : ViewerSettings α} {camera : Camera α}
    {reported : List Diagnostic} {commands : Nat} {interpretation : Interpretation α}
    (done : draft.finish reported commands settings camera = .ok interpretation) :
    interpretation.timeline.pastes = (Paste.Schedule.evolveAll [] draft.pastes.toList).1
      ∧ interpretation.timeline.callouts
        = ⟨draft.labels.toList, draft.arrows.toList, draft.polygons.toList⟩ := by
  have pastes : draft.closed.pastes = draft.pastes :=
    (congrArg Draft.pastes draft.alikeAside_closed :)
  have labels : draft.closed.labels = draft.labels :=
    (congrArg Draft.labels draft.alikeAside_closed :)
  have arrows : draft.closed.arrows = draft.arrows :=
    (congrArg Draft.arrows draft.alikeAside_closed :)
  have polygons : draft.closed.polygons = draft.polygons :=
    (congrArg Draft.polygons draft.alikeAside_closed :)
  unfold Draft.finish at done
  dsimp only at done
  rw [← closed] at done
  obtain ⟨_, -, done⟩ := bind_eq_ok done
  obtain ⟨_, -, done⟩ := bind_eq_ok done
  obtain ⟨_, -, done⟩ := bind_eq_ok done
  obtain ⟨_, -, done⟩ := bind_eq_ok done
  obtain ⟨_, -, done⟩ := bind_eq_ok done
  obtain ⟨_, -, done⟩ := bind_eq_ok done
  obtain ⟨⟨⟩, -, done⟩ := bind_eq_ok done
  cases done
  rw [← pastes, ← labels, ← arrows, ← polygons]
  exact ⟨rfl, rfl⟩

end Initial

end Showreel.Script
