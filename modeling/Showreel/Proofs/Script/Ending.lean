import Showreel.Proofs.Script.Closing
import Showreel.Proofs.Script.Reading
import Showreel.Proofs.Waypoint.Chain

/-!
Contract: which scripts come to a timeline.

Owns:
- when a fitted view can report what it replaces, and a view-only script the loop it gives up;
- that nothing else at the end of a script can fail, but for a refresh rate out of range and the
  room for evolutions.

Does not own: that scripts can be read.
-/

namespace Showreel.Script

open Number Scalar Waypoint Pattern Paste

variable {α : Type}

/-! ### Sound waypoints at the end -/

section Values

variable [Scalar α] [LawfulScalar α] {refreshRate : Int} {waypoint : Waypoint α}

theorem isTarget_of_isWhole {generation : Int} (nonnegative : 0 ≤ generation)
    (whole : IsWhole α generation) : IsTarget α generation := by
  obtain ⟨value, known⟩ := whole
  refine ⟨nonnegative, fun count within => exists_ofInt known ?_⟩
  rwa [abs_of_nonneg nonnegative]

/-- What a script writes for the pace and the target can be timed. -/
theorem SoundWaypoint.paced (sound : SoundWaypoint refreshRate waypoint) (rate : 1 ≤ refreshRate) :
    waypoint.Paced where
  gps setting value found present := (sound.setting .gps setting found).written value present rate
  step setting value found present := by
    obtain ⟨low, high⟩ : (1 : Int) ≤ value ∧ (value : Int) ≤ 64 :=
      (sound.setting .step setting found).written value present
    refine ⟨low, exists_ofInt_of_small ?_⟩
    rw [abs_of_nonneg (by omega)]
    exact le_trans high (by norm_num)
  target setting found := by
    obtain ⟨nonnegative, whole⟩ := sound.target setting found
    exact isTarget_of_isWhole nonnegative whole

omit [LawfulScalar α] in
theorem paced_adopt {source : Waypoint α} (paced : waypoint.Paced) (pacedToo : source.Paced) :
    (Cast.adopt waypoint source).Paced where
  gps setting value found present := by
    change (Cast.adopt waypoint source).get .gps = some setting at found
    rw [Cast.adopt_get] at found
    split at found
    · exact pacedToo.gps setting value found present
    · exact paced.gps setting value found present
  step setting value found present := by
    change (Cast.adopt waypoint source).get .step = some setting at found
    rw [Cast.adopt_get] at found
    split at found
    · exact pacedToo.step setting value found present
    · exact paced.step setting value found present
  target setting found :=
    paced.target setting ((Cast.adopt_frame waypoint source).1.symm.trans found)

end Values

/-! ### What a fitted view replaces -/

/-- A view that is fitted from the start replaces a place without a value, which the initial point
of interest copied. -/
def Draft.FitsUnset (draft : Draft α) : Prop :=
  draft.first.autofit = true ∧ ∃ poi, draft.StartsAt poi
    ∧ ∃ field ∈ placeFields, ∃ setting, poi.get field = some setting ∧ setting.value = none

theorem get_loop_of_mem_placeFields (waypoint : Waypoint α) (loop : Open Int) {field : Field}
    (member : field ∈ placeFields) :
    ({ waypoint with loop := loop } : Waypoint α).get field = waypoint.get field := by
  fin_cases member <;> rfl

section Lead

variable [Scalar α] [LawfulScalar α] {refreshRate : Int} {draft : Draft α} {loop : Open Int}
  {lead : Waypoint α}

theorem Draft.Leads.paced (leads : draft.Leads { draft.first with loop := loop } lead)
    (sound : SoundDraft refreshRate draft) (rate : 1 ≤ refreshRate) : lead.Paced := by
  have first := sound.first.1.paced rate
  have looped : ({ draft.first with loop := loop } : Waypoint α).Paced :=
    ⟨first.gps, first.step, first.target⟩
  cases leads with
  | own => exact looped
  | adopted starts => exact paced_adopt looped ((sound.startsAt starts).paced rate)

/-- A fitted view reports what it replaces, unless a place without a value was adopted. -/
theorem Draft.Leads.fitted_iff (leads : draft.Leads { draft.first with loop := loop } lead)
    (sound : SoundDraft refreshRate draft) :
    (lead.autofit = true → Completes lead.fittedParts) ↔ ¬draft.FitsUnset := by
  have autofit : lead.autofit = draft.first.autofit := leads.frame.1
  rw [completes_fittedParts_iff, autofit]
  constructor
  · rintro fitted ⟨fits, poi, starts, field, member, setting, found, absent⟩
    have adopted : lead.get field = some setting := by
      cases leads with
      | own unstarted => exact absurd starts (unstarted poi)
      | adopted startsToo =>
          cases startsToo.unique starts
          have inFields : field ∈ Cast.initialFields := by fin_cases member <;> decide
          rw [Cast.adopt_get, if_pos ⟨inFields, Option.isSome_iff_exists.mpr ⟨setting, found⟩⟩]
          exact found
    obtain ⟨value, text, present, -⟩ := fitted fits field member setting adopted
    rw [absent] at present
    cases present
  · intro unset fits field member setting found
    have ownSetting : draft.first.get field = some setting → Describable setting := by
      obtain ⟨soundFirst, plain⟩ := sound.first
      exact fun own => soundFirst.describable own (soundFirst.present plain field own)
    cases leads with
    | own => exact ownSetting (get_loop_of_mem_placeFields _ loop member ▸ found)
    | adopted starts =>
        rw [Cast.adopt_get] at found
        split at found
        · refine (sound.startsAt starts).describable found fun absent => unset ?_
          exact ⟨fits, _, starts, field, member, setting, found, absent⟩
        · exact ownSetting (get_loop_of_mem_placeFields _ loop member ▸ found)

end Lead

/-! ### What a view-only script gives up -/

section Limits

variable [Scalar α] {refreshRate : Int} {draft : Draft α}

/-- A view-only script has a track over a loop whose period is out of the range of scalars. -/
def Draft.LoopTooLong (draft : Draft α) : Prop :=
  draft.viewOnly = true ∧ ∃ track, draft.Loops track
    ∧ ¬Completes (ofInt (draft.loopPeriod track) : Except Fault α)

theorem completes_limitReport_iff {word : String} {generation : Int} {source : String}
    {origin : Origin} :
    Completes (limitReport α word (some ⟨some generation, source, origin⟩))
      ↔ Completes (ofInt generation : Except Fault α) :=
  completes_bind_pure_iff.trans completes_map_iff

theorem completes_restrictIf_iff {viewOnly autostart : Bool} {first : Waypoint α}
    {startFrom : Option Int} :
    Completes (restrictIf viewOnly first autostart startFrom)
      ↔ (viewOnly = true → Completes (limitReport α "STOP" first.stop)
        ∧ Completes (limitReport α "LOOP" first.loop)) := by
  cases viewOnly with
  | false => exact iff_of_true ⟨_, rfl⟩ nofun
  | true =>
      have both : Completes (restrict first autostart startFrom)
          ↔ Completes (limitReport α "STOP" first.stop)
            ∧ Completes (limitReport α "LOOP" first.loop) :=
        completes_bind_iff fun _ _ => completes_bind_pure_iff
      exact both.trans ⟨fun reports _ => reports, fun reports => reports rfl⟩

theorem restrictIf_first {viewOnly autostart : Bool} {first : Waypoint α}
    {startFrom : Option Int} {restricted : Restricted α}
    (done : restrictIf viewOnly first autostart startFrom = .ok restricted) :
    ∃ stop loop, restricted.first = { first with stop := stop, loop := loop } := by
  unfold restrictIf at done
  split at done
  · obtain ⟨stopReport, -, done⟩ := bind_eq_ok done
    obtain ⟨loopReport, -, done⟩ := bind_eq_ok done
    cases done
    exact ⟨none, none, rfl⟩
  · cases done
    exact ⟨first.stop, first.loop, rfl⟩

variable [LawfulScalar α]

theorem completes_limitReport {word : String} {limit : Open Int}
    (present : ∀ setting, limit = some setting → setting.value ≠ none)
    (written : ∀ setting, limit = some setting → ∀ generation, setting.value = some generation →
      IsWhole α generation ∨ generation = -1) : Completes (limitReport α word limit) := by
  cases limit with
  | none => exact ⟨_, rfl⟩
  | some setting =>
      obtain ⟨generation, known⟩ := Option.ne_none_iff_exists'.mp (present setting rfl)
      have given := written setting rfl generation known
      obtain ⟨value, source, origin⟩ := setting
      cases known
      rw [completes_limitReport_iff]
      rcases given with ⟨value, whole⟩ | rfl
      · exact exists_ofInt whole (le_refl |generation|)
      · exact exists_ofInt_of_small (by norm_num)

theorem SoundWaypoint.completes_limitReports {waypoint : Waypoint α}
    (sound : SoundWaypoint refreshRate waypoint) (plain : waypoint.isPoi = false) :
    Completes (limitReport α "STOP" waypoint.stop)
      ∧ Completes (limitReport α "LOOP" waypoint.loop) :=
  ⟨completes_limitReport (fun _ => sound.present plain .stop) fun setting found =>
      (sound.setting .stop setting found).written,
    completes_limitReport (fun _ => sound.present plain .loop) fun setting found =>
      (sound.setting .loop setting found).written⟩

/-- A view-only script can report its limits, unless its track loops over too long a period. -/
theorem completes_restrictIf_iff_inRange (sound : SoundDraft refreshRate draft) {first : Waypoint α}
    {loop : Open Int} (ends : draft.EndsWithLoop loop) (stop : first.stop = draft.first.stop)
    (looped : first.loop = loop) (autostart : Bool) (startFrom : Option Int) :
    Completes (restrictIf draft.viewOnly first autostart startFrom) ↔ ¬draft.LoopTooLong := by
  obtain ⟨soundFirst, plain⟩ := sound.first
  obtain ⟨stopReport, loopReport⟩ := soundFirst.completes_limitReports plain
  rw [completes_restrictIf_iff, stop, looped]
  cases ends with
  | own unlooped =>
      refine iff_of_true (fun _ => ⟨stopReport, loopReport⟩) ?_
      rintro ⟨-, track, loops, -⟩
      exact unlooped track loops
  | track loops =>
      rename_i track
      rw [Setting.written, completes_limitReport_iff]
      constructor
      · rintro reports ⟨viewOnly, other, loopsToo, tooLong⟩
        cases loops.2.1.symm.trans loopsToo.2.1
        exact tooLong (reports viewOnly).2
      · intro inRange viewOnly
        refine ⟨stopReport, by_contra fun tooLong => inRange ⟨viewOnly, track, loops, tooLong⟩⟩

end Limits

/-! ### The timeline -/

section Timeline

variable {colours : Bool} {cast : Cast α}

theorem settleTheme_first : ∃ theme,
    (cast.settleTheme colours).1.first = { cast.first with theme := theme } := by
  unfold Cast.settleTheme
  split
  · split
    · exact ⟨_, rfl⟩
    · exact ⟨_, rfl⟩
  · change ∃ theme, Cast.withoutCustomTheme cast.first = _
    unfold Cast.withoutCustomTheme
    split
    · exact ⟨none, rfl⟩
    · exact ⟨cast.first.theme, rfl⟩

variable [Scalar α]

theorem settleTheme_paced (paced : ∀ waypoint ∈ cast.later, waypoint.Paced) :
    ∀ waypoint ∈ (cast.settleTheme colours).1.later, waypoint.Paced := by
  unfold Cast.settleTheme
  split
  · split
    · exact paced
    · exact paced
  · intro waypoint member
    obtain ⟨given, within, rfl⟩ := List.mem_map.mp member
    have pacedGiven := paced given within
    unfold Cast.withoutCustomTheme
    split
    · exact ⟨pacedGiven.gps, pacedGiven.step, pacedGiven.target⟩
    · exact pacedGiven

variable [LawfulScalar α] {refreshRate : Int} {draft : Draft α}

theorem paced_ofCamera {gps : α} (camera : Camera α) (atLeast : 1 ≤ refreshRate)
    (known : (ofInt refreshRate : Except Fault α) = .ok gps) :
    (Keyframe.ofCamera camera gps 1).Paced :=
  ⟨⟨refreshRate, atLeast, known⟩, isStep_one, isTarget_zero⟩

/-- Only the first of the waypoints at the end may be fitted to what cannot be reported. -/
theorem Draft.Leads.checkAutofit_iff {loop : Open Int} {lead : Waypoint α}
    (leads : draft.Leads { draft.first with loop := loop } lead)
    (sound : SoundDraft refreshRate draft) {later : List (Waypoint α)}
    (plain : ∀ waypoint ∈ later, SoundWaypoint refreshRate waypoint ∧ waypoint.isPoi = false) :
    Completes (checkAutofit (lead :: later)) ↔ ¬draft.FitsUnset := by
  rw [completes_checkAutofit_iff, List.forall_mem_cons, leads.fitted_iff sound]
  refine and_iff_left fun waypoint member _ => completes_fittedParts_iff.mpr ?_
  intro field _ setting found
  obtain ⟨soundWaypoint, notPoi⟩ := plain waypoint member
  exact soundWaypoint.describable found (soundWaypoint.present notPoi field found)

variable {loop : Open Int} {lead : Waypoint α}

/-- A view-only script gives up the limits of its first waypoint, whatever the theme. -/
theorem Draft.Leads.restrictIf_iff (leads : draft.Leads { draft.first with loop := loop } lead)
    (ends : draft.EndsWithLoop loop) (sound : SoundDraft refreshRate draft) {cast : Cast α}
    (first : cast.first = lead) (autostart : Bool) (startFrom : Option Int) :
    Completes (restrictIf draft.viewOnly (cast.settleTheme colours).1.first autostart startFrom)
      ↔ ¬draft.LoopTooLong := by
  obtain ⟨-, stop, looped⟩ := leads.frame
  obtain ⟨theme, themed⟩ := @settleTheme_first α colours cast
  rw [themed, first]
  apply completes_restrictIf_iff_inRange sound ends
  · exact stop
  · exact looped

/-- What the first waypoint gave up does not keep the keyframes from being linked. -/
theorem Draft.Leads.completes_build (leads : draft.Leads { draft.first with loop := loop } lead)
    (sound : SoundDraft refreshRate draft) (rate : 1 ≤ refreshRate) {cast : Cast α}
    (first : cast.first = lead) (paced : ∀ waypoint ∈ cast.later, waypoint.Paced)
    {viewOnly autostart : Bool} {startFrom : Option Int} {restricted : Restricted α}
    (done : restrictIf viewOnly (cast.settleTheme colours).1.first autostart startFrom
      = .ok restricted) {gps : α} (known : (ofInt refreshRate : Except Fault α) = .ok gps)
    (pois : List (Waypoint α)) (camera : Camera α) :
    Completes (Chain.build restricted.first (cast.settleTheme colours).1.later pois
      (Keyframe.ofCamera camera gps 1) refreshRate) := by
  obtain ⟨stop, loop, restrictedFirst⟩ := restrictIf_first done
  obtain ⟨theme, themed⟩ := @settleTheme_first α colours cast
  have pacedLead := leads.paced sound rate
  refine Chain.completes_build ?_ (settleTheme_paced paced) (paced_ofCamera camera rate known) rate
    ⟨gps, known⟩
  rw [restrictedFirst, themed, first]
  exact ⟨pacedLead.gps, pacedLead.step, pacedLead.target⟩

/-- The end of a sound draft fails for four reasons only. -/
theorem Draft.completes_finish_iff {settings : ViewerSettings α}
    (sound : SoundDraft settings.refreshRate draft) (rate : 1 ≤ settings.refreshRate)
    (reported : List Diagnostic) (commands : Nat) (camera : Camera α) :
    Completes (draft.finish reported commands settings camera)
      ↔ ¬draft.FitsUnset ∧ ¬draft.LoopTooLong
        ∧ Completes (ofInt settings.refreshRate : Except Fault α)
        ∧ ∀ entry ∈ draft.pastes, Completes entry.roomToEvolve := by
  obtain ⟨loop, _, lead, ends, leads, chosen, started⟩ := draft.exists_cast sound
  let later := (draft.close false).waypoints.toList.tail
  have plain : ∀ waypoint ∈ later, SoundWaypoint settings.refreshRate waypoint
      ∧ waypoint.isPoi = false := fun waypoint member =>
    (sound.close false).waypoints waypoint (Array.mem_toList_iff.mp (List.mem_of_mem_tail member))
  have viewOnly : draft.closed.viewOnly = draft.viewOnly :=
    (congrArg Draft.viewOnly draft.alikeAside_closed :)
  have pastes : draft.closed.pastes = draft.pastes :=
    (congrArg Draft.pastes draft.alikeAside_closed :)
  have room : Completes (draft.closed.pastes.toList.forM Entry.roomToEvolve)
      ↔ ∀ entry ∈ draft.pastes, Completes entry.roomToEvolve := by
    rw [completes_forM_iff, pastes]
    simp only [Array.mem_toList_iff]
  rw [← leads.checkAutofit_iff sound plain, ← room]
  unfold Draft.finish
  dsimp only
  rw [← closed, viewOnly]
  -- whether a phase comes to a result never depends on what the phases before it report
  refine (completes_bind_of_ok chosen).trans ((completes_bind_of_ok started).trans ?_)
  refine completes_bind_iff fun fitReport _ => ?_
  have leading : (⟨lead, later, (draft.close false).pois.toList⟩ : Cast α).first = lead := rfl
  rw [← leads.restrictIf_iff ends sound leading]
  refine completes_bind_iff fun restricted done => ?_
  refine completes_bind_iff fun gps known => ?_
  obtain ⟨resolved, linked⟩ := leads.completes_build sound rate leading
    (fun waypoint member => (plain waypoint member).1.paced rate) done known _ camera
  exact (completes_bind_of_ok linked).trans completes_bind_pure_iff

/-- **A document that can be read comes to a timeline**, whatever the live view, unless the view is
fitted to a place that was copied without a value, a view-only script has a track over too long a
loop, the refresh rate is out of range, or an evolution asks for more room than there is. -/
theorem finish_completes_iff {context : Context α} {text : String} {session : Session α}
    (read : readAll context text = .ok session) (rate : 1 ≤ context.settings.refreshRate)
    (camera : Camera α) :
    (∃ interpretation, session.draft.finish session.finalReport session.commands context.settings
        camera = .ok interpretation)
      ↔ ¬session.draft.FitsUnset ∧ ¬session.draft.LoopTooLong
        ∧ (∃ gps : α, (ofInt context.settings.refreshRate : Except Fault α) = .ok gps)
        ∧ ∀ entry ∈ session.draft.pastes, entry.roomToEvolve = .ok () := by
  have room (entry : Entry) : Completes entry.roomToEvolve ↔ entry.roomToEvolve = .ok () :=
    ⟨fun ⟨_, done⟩ => done, fun done => ⟨(), done⟩⟩
  simp only [← room]
  exact Draft.completes_finish_iff (readAll_sound read) rate _ _ camera

end Timeline

/-- A fitted view, and a point of interest with a place of its own. -/
theorem finish_completes_iff_placed :
    let context : Context Float := ⟨.standard, .standard, .standard⟩
    ∃ session, readAll context "[[ AUTOFIT POI INITIAL Y 0 ]]" = .ok session
      ∧ ((∃ interpretation, session.draft.finish session.finalReport session.commands
            context.settings context.camera = .ok interpretation)
          ↔ ¬session.draft.FitsUnset ∧ ¬session.draft.LoopTooLong
            ∧ (∃ gps : Float, (ofInt context.settings.refreshRate : Except Fault Float) = .ok gps)
            ∧ ∀ entry ∈ session.draft.pastes, entry.roomToEvolve = .ok ()) := by
  intro context
  obtain ⟨session, read⟩ : Completes (readAll context "[[ AUTOFIT POI INITIAL Y 0 ]]") :=
    completes_of_isOk (by decide +kernel)
  exact ⟨session, read, finish_completes_iff read (by decide) context.camera⟩

/-- The initial point of interest copies a place that has no value yet. -/
theorem interpret_fitsUnset :
    let context : Context Float := ⟨.standard, .standard, .standard⟩
    let text := "[[ AUTOFIT POI INITIAL X INITIAL ]]"
    1 ≤ context.settings.refreshRate
      ∧ NumbersFinite Float (tokens (Document.scriptSource text))
      ∧ (readAll context text).isOk = true
      ∧ (interpret context text).isOk = false := by
  intro context text
  have split : tokens (Document.scriptSource text)
      = ["[[", "AUTOFIT", "POI", "INITIAL", "X", "INITIAL", "]]"] := by decide +kernel
  refine ⟨by decide, ?_, by decide +kernel, by decide +kernel⟩
  rw [split]
  intro token member value read
  fin_cases member <;> cases read

end Showreel.Script
